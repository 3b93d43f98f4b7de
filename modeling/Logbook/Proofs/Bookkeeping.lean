import Logbook.Proofs.Ownership

/-!
# The books of a store

The handles that live buffers count, the live buffers of every pool, and what every operation enters.
-/

namespace Logbook.Store

variable {s : Store}

/-- How many handles a buffer counts; none if it is gone. -/
def refsOf (s : Store) (b : BufferId) : Nat := ((s.buffers.get? b).map (·.slot.refs)).getD 0

/-- How many live buffers belong to a pool. -/
def liveOf (s : Store) (p : PoolId) : Nat := s.buffers.total fun b => if b.slot.pool = some p then 1 else 0

/-- A live buffer counts at least one handle. -/
def Counted (s : Store) : Prop := ∀ b buffer, s.buffers.get? b = some buffer → 0 < buffer.slot.refs

/-- Every pool is clean. -/
def Clean (s : Store) : Prop := ∀ p pool, s.pools.get? p = some pool → pool.Clean

/-- The books of every pool are right, where `acquired` buffers have been handed out. -/
def Balanced (s : Store) (acquired : PoolId → Nat) : Prop :=
  ∀ p pool, s.pools.get? p = some pool → pool.Balanced (s.liveOf p) (acquired p)

theorem refsOf_of_some {b : BufferId} {buffer : Buffer} (h : s.buffers.get? b = some buffer) :
    s.refsOf b = buffer.slot.refs := by
  unfold refsOf
  rw [h]
  rfl

theorem refsOf_of_none {b : BufferId} (h : s.buffers.get? b = none) : s.refsOf b = 0 := by
  unfold refsOf
  rw [h]
  rfl

theorem exists_of_refsOf_pos {b : BufferId} (h : 0 < s.refsOf b) :
    ∃ buffer, s.buffers.get? b = some buffer := by
  cases hb : s.buffers.get? b with
  | none =>
    rw [refsOf_of_none hb] at h
    omega
  | some buffer => exact ⟨buffer, rfl⟩

/-! ### Acquiring -/

/-- Wherever it comes from, an acquired buffer is a new one with a single handle. -/
theorem acquirePooled_push (s : Store) (p : PoolId) :
    ∃ x, (s.acquirePooled p).1 = s.buffers.next ∧ (s.acquirePooled p).2.buffers = s.buffers.push x ∧
      (s.acquirePooled p).2.factories = s.factories ∧ x.slot.refs = 1 ∧ (s.Clean → x.node.bytes = []) := by
  cases hp : s.pools.get? p with
  | none =>
    rw [acquirePooled_of_none hp, acquireUnpooled_eq]
    exact ⟨ofHeap s.buffers.next, rfl, rfl, rfl, rfl, fun _ => rfl⟩
  | some pool =>
    rw [acquirePooled_of_some hp]
    refine ⟨ofPool p pool s.buffers.next, rfl, rfl, rfl, rfl, fun hclean => ?_⟩
    exact ((hclean p pool hp).take s.buffers.next).1

theorem refsOf_push {s' : Store} {x : Buffer} (hpush : s'.buffers = s.buffers.push x)
    (hrefs : x.slot.refs = 1) (b : BufferId) :
    s'.refsOf b = s.refsOf b + if s.buffers.next = b then 1 else 0 := by
  unfold refsOf
  rw [hpush, Table.get?_push]
  by_cases hb : b = s.buffers.next
  · subst hb
    rw [if_pos rfl, if_pos rfl, Table.get?_next]
    exact hrefs
  · rw [if_neg hb, if_neg (Ne.symm hb)]
    rfl

theorem Counted.push (h : s.Counted) {s' : Store} {x : Buffer} (hpush : s'.buffers = s.buffers.push x)
    (hrefs : x.slot.refs = 1) : s'.Counted := by
  intro b buffer hb
  rw [hpush, Table.get?_push] at hb
  split at hb
  · cases hb
    omega
  · exact h b buffer hb

theorem Clean.acquirePooled (h : s.Clean) (p : PoolId) : (s.acquirePooled p).2.Clean := by
  intro q pool hq
  cases hp : s.pools.get? p with
  | none =>
    rw [acquirePooled_of_none hp] at hq
    exact h q pool hq
  | some old =>
    rw [acquirePooled_of_some hp] at hq
    dsimp only at hq
    rw [Table.get?_set] at hq
    split at hq
    · rename_i he
      subst he
      rw [hp] at hq
      cases hq
      exact ((h q old hp).take _).2
    · exact h q pool hq

theorem liveOf_acquirePooled {p : PoolId} {pool : Pool} (hp : s.pools.get? p = some pool) (q : PoolId) :
    (s.acquirePooled p).2.liveOf q = s.liveOf q + if p = q then 1 else 0 := by
  rw [acquirePooled_of_some hp]
  unfold liveOf
  rw [Table.total_push]
  simp only [ofPool, Option.some.injEq]
  omega

theorem liveOf_acquireUnpooled (s : Store) (q : PoolId) : s.acquireUnpooled.2.liveOf q = s.liveOf q := by
  rw [acquireUnpooled_eq]
  unfold liveOf
  rw [Table.total_push]
  simp only [ofHeap, Slot.fresh, reduceCtorEq, if_false, Nat.zero_add]

theorem Balanced.acquireUnpooled {acquired : PoolId → Nat} (h : s.Balanced acquired) :
    s.acquireUnpooled.2.Balanced acquired := by
  intro q pool hq
  rw [liveOf_acquireUnpooled]
  exact h q pool hq

/- Only the pool that hands out the buffer changes; a pool that is not there hands out nothing, and its entry in
`acquired` is not looked at. -/
theorem Balanced.acquirePooled {acquired acquired' : PoolId → Nat} (h : s.Balanced acquired) (p : PoolId)
    (hacq : ∀ q, acquired' q = acquired q + if p = q then 1 else 0) :
    (s.acquirePooled p).2.Balanced acquired' := by
  intro q pool hq
  cases hp : s.pools.get? p with
  | none =>
    rw [acquirePooled_of_none hp] at hq ⊢
    have hne : ¬ p = q := by
      intro he
      subst he
      exact absurd (hp.symm.trans hq) (by simp)
    rw [liveOf_acquireUnpooled, hacq, if_neg hne]
    exact h q pool hq
  | some old =>
    rw [liveOf_acquirePooled hp, hacq]
    rw [acquirePooled_of_some hp] at hq
    dsimp only at hq
    rw [Table.get?_set] at hq
    split at hq
    · rename_i he
      subst he
      rw [hp] at hq
      cases hq
      rw [if_pos rfl]
      exact (h q old hp).take _
    · rename_i hne
      rw [if_neg (Ne.symm hne)]
      exact h q pool hq

/-! ### Changing a buffer in place -/

/-- A buffer changes in place, and stays with its pool. -/
theorem liveOf_set {b : BufferId} {old : Buffer} (new : Buffer) (hold : s.buffers.get? b = some old)
    (hpool : new.slot.pool = old.slot.pool) (p : PoolId) :
    ({ s with buffers := s.buffers.set b new } : Store).liveOf p = s.liveOf p := by
  have hset := Table.total_set hold new fun x => if x.slot.pool = some p then 1 else 0
  rw [hpool] at hset
  unfold liveOf
  dsimp only
  omega

theorem refsOf_set {b : BufferId} {old : Buffer} (new : Buffer) (hold : s.buffers.get? b = some old)
    (c : BufferId) :
    ({ s with buffers := s.buffers.set b new } : Store).refsOf c =
      if c = b then new.slot.refs else s.refsOf c := by
  unfold refsOf
  dsimp only
  rw [Table.get?_set]
  by_cases hc : c = b
  · subst hc
    rw [if_pos rfl, if_pos rfl, hold]
    rfl
  · rw [if_neg hc, if_neg hc]

theorem Counted.set (h : s.Counted) {b : BufferId} (new : Buffer) (hnew : 0 < new.slot.refs) :
    ({ s with buffers := s.buffers.set b new } : Store).Counted := by
  intro c buffer hc
  dsimp only at hc
  rw [Table.get?_set] at hc
  split at hc
  · obtain ⟨_, _, he⟩ := Option.map_eq_some_iff.mp hc
    exact he ▸ hnew
  · exact h c buffer hc

theorem Balanced.set {acquired : PoolId → Nat} (h : s.Balanced acquired) {b : BufferId} {old : Buffer}
    (new : Buffer) (hold : s.buffers.get? b = some old) (hpool : new.slot.pool = old.slot.pool) :
    ({ s with buffers := s.buffers.set b new } : Store).Balanced acquired := by
  intro p pool hp
  rw [liveOf_set new hold hpool]
  exact h p pool hp

/-! ### Releasing -/

theorem refsOf_release {b : BufferId} {buffer : Buffer} (hb : s.buffers.get? b = some buffer)
    (hpos : 0 < buffer.slot.refs) (c : BufferId) :
    (s.release b).refsOf c + (if b = c then 1 else 0) = s.refsOf c := by
  by_cases hrefs : buffer.slot.refs = 1
  · rw [release_of_last hb hrefs]
    unfold refsOf
    dsimp only
    rw [Table.get?_erase]
    by_cases hc : c = b
    · subst hc
      rw [if_pos rfl, if_pos rfl, hb]
      exact hrefs.symm
    · rw [if_neg hc, if_neg (Ne.symm hc)]
      rfl
  · rw [release_of_shared hb hrefs, refsOf_set _ hb]
    by_cases hc : c = b
    · subst hc
      rw [if_pos rfl, if_pos rfl, refsOf_of_some hb]
      show buffer.slot.refs - 1 + 1 = buffer.slot.refs
      omega
    · rw [if_neg hc, if_neg (Ne.symm hc)]
      rfl

theorem Counted.release (h : s.Counted) (b : BufferId) : (s.release b).Counted := by
  cases hb : s.buffers.get? b with
  | none =>
    rw [release_of_none hb]
    exact h
  | some buffer =>
    by_cases hrefs : buffer.slot.refs = 1
    · rw [release_of_last hb hrefs]
      intro c x hc
      dsimp only at hc
      rw [Table.get?_erase] at hc
      split at hc
      · cases hc
      · exact h c x hc
    · rw [release_of_shared hb hrefs]
      have hpos := h b buffer hb
      refine h.set _ ?_
      show 0 < buffer.slot.refs - 1
      omega

theorem get?_poolsAfter (s : Store) (buffer : Buffer) (p : PoolId) :
    (s.poolsAfter buffer).get? p =
      if buffer.slot.pool = some p then
        (s.pools.get? p).map (·.recycle buffer.node (lessOne buffer).slot)
      else s.pools.get? p := by
  unfold poolsAfter
  cases hpool : buffer.slot.pool with
  | none => rfl
  | some q =>
    dsimp only
    rw [Table.get?_modify]
    by_cases hq : p = q
    · rw [if_pos hq, if_pos (congrArg some hq.symm)]
    · rw [if_neg hq, if_neg fun he => hq (Option.some.inj he).symm]

theorem Clean.release (h : s.Clean) (b : BufferId) : (s.release b).Clean := by
  cases hb : s.buffers.get? b with
  | none =>
    rw [release_of_none hb]
    exact h
  | some buffer =>
    by_cases hrefs : buffer.slot.refs = 1
    · rw [release_of_last hb hrefs]
      intro p pool hp
      dsimp only at hp
      rw [get?_poolsAfter] at hp
      split at hp
      · obtain ⟨old, hold, rfl⟩ := Option.map_eq_some_iff.mp hp
        exact (h p old hold).recycle _ _
      · exact h p pool hp
    · rw [release_of_shared hb hrefs]
      exact h

theorem Balanced.release {acquired : PoolId → Nat} (h : s.Balanced acquired) (b : BufferId) :
    (s.release b).Balanced acquired := by
  cases hb : s.buffers.get? b with
  | none =>
    rw [release_of_none hb]
    exact h
  | some buffer =>
    by_cases hrefs : buffer.slot.refs = 1
    · rw [release_of_last hb hrefs]
      intro p pool hp
      have herase := Table.total_erase hb fun x => if x.slot.pool = some p then 1 else 0
      dsimp only at hp
      rw [get?_poolsAfter] at hp
      split at hp
      · rename_i hpool
        obtain ⟨old, hold, rfl⟩ := Option.map_eq_some_iff.mp hp
        rw [if_pos hpool] at herase
        have hbal := h p old hold
        unfold liveOf at hbal ⊢
        rw [herase] at hbal
        exact hbal.recycle _ _
      · rename_i hpool
        rw [if_neg hpool] at herase
        have hbal := h p pool hp
        unfold liveOf at hbal ⊢
        rw [herase] at hbal
        exact hbal
    · rw [release_of_shared hb hrefs]
      exact h.set (lessOne buffer) hb rfl

/-! ### Limits -/

/-- The limits of every pool. -/
def limitsOf (s : Store) (p : PoolId) : Option PoolLimits := (s.pools.get? p).map (·.limits)

theorem limitsOf_acquirePooled (s : Store) (p q : PoolId) : (s.acquirePooled p).2.limitsOf q = s.limitsOf q := by
  cases hp : s.pools.get? p with
  | none => rw [acquirePooled_of_none hp]; rfl
  | some pool =>
    rw [acquirePooled_of_some hp]
    unfold limitsOf
    dsimp only
    rw [Table.get?_set]
    split
    · rename_i he
      rw [he, hp]
      rfl
    · rfl

theorem limitsOf_release (s : Store) (b : BufferId) (p : PoolId) : (s.release b).limitsOf p = s.limitsOf p := by
  cases hb : s.buffers.get? b with
  | none => rw [release_of_none hb]
  | some buffer =>
    by_cases hrefs : buffer.slot.refs = 1
    · rw [release_of_last hb hrefs]
      unfold limitsOf
      dsimp only
      rw [get?_poolsAfter]
      split
      · rw [Option.map_map]
        rfl
      · rfl
    · rw [release_of_shared hb hrefs]
      rfl

theorem limitsOf_write? {b : BufferId} {f : Node → Node} (p : PoolId) :
    ((s.write? b f).getD s).limitsOf p = s.limitsOf p := by
  unfold write?
  split
  · split <;> rfl
  · rfl

end Logbook.Store
