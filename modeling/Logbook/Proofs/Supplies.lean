import Logbook.Proofs.Accounts
import Mathlib.Data.List.Perm.Subperm

/-!
# Supplies

A pool without limits gives up no part, and makes a new one only when all others are in use. So it never makes more
parts than there were live buffers at one time, and when no buffer is live all that it made is parked.
-/

namespace Logbook

/-! ### Parts -/

namespace Parts

variable {α : Type} {p : Parts α} {limit : Option Nat} {live acquired bound : Nat}

/-- Nothing was given up, and `bound` parts were made at most. -/
structure Thrifty (p : Parts α) (bound : Nat) : Prop where
  freed : p.counts.freed = 0
  allocated : p.counts.allocated ≤ bound

theorem thrifty_empty (bound : Nat) : (empty : Parts α).Thrifty bound := ⟨rfl, Nat.zero_le bound⟩

theorem Thrifty.take (h : p.Thrifty bound) (hbal : p.Balanced limit live acquired) (hlive : live < bound) (fresh : α) :
    (p.take fresh).2.Thrifty bound := by
  have hlen := hbal.within.length_eq
  have hconserved := hbal.conserved
  have hfreed := h.freed
  obtain ⟨a, rest, hitems, htake⟩ | ⟨hitems, htake⟩ := p.take_cases fresh
  · rw [htake]
    exact ⟨h.freed, h.allocated⟩
  · -- none is parked, so all that were made are in use
    rw [hitems, List.length_nil] at hlen
    rw [htake]
    refine ⟨h.freed, ?_⟩
    show p.counts.allocated + 1 ≤ bound
    omega

theorem Thrifty.park (h : p.Thrifty bound) (a : α) : (p.park none a).Thrifty bound := by
  obtain ⟨-, hpark⟩ | ⟨hfull, -⟩ := p.park_cases none a
  · rw [hpark]
    exact ⟨h.freed, h.allocated⟩
  · cases hfull

theorem Thrifty.parked (h : p.Thrifty bound) (hbal : p.Balanced limit 0 acquired) :
    p.free.length = p.counts.allocated := by
  have hconserved := hbal.conserved
  have hfreed := h.freed
  omega

end Parts

namespace Pool

variable {p : Pool} {live acquired bound : Nat}

/-- The pool has no limits, and made `bound` nodes and `bound` slots at most. -/
structure Thrifty (p : Pool) (bound : Nat) : Prop where
  limits : p.limits = ⟨none, none⟩
  nodes : p.nodes.Thrifty bound
  slots : p.slots.Thrifty bound

theorem thrifty_ofLimits (bound : Nat) : (ofLimits ⟨none, none⟩).Thrifty bound :=
  ⟨rfl, Parts.thrifty_empty bound, Parts.thrifty_empty bound⟩

theorem Thrifty.take (h : p.Thrifty bound) (hbal : p.Balanced live acquired) (hlive : live < bound) (fresh : Nat) :
    (p.take fresh).2.Thrifty bound :=
  ⟨h.limits, h.nodes.take hbal.nodes hlive _, h.slots.take hbal.slots hlive _⟩

theorem Thrifty.recycle (h : p.Thrifty bound) (node : Node) (slot : Slot) : (p.recycle node slot).Thrifty bound := by
  have hlimits := h.limits
  refine ⟨hlimits, ?_, ?_⟩
  · show (p.nodes.park p.limits.maxFreeNodes node.clear).Thrifty bound
    rw [hlimits]
    exact h.nodes.park _
  · show (p.slots.park p.limits.maxFreeSlots { slot with pool := none }).Thrifty bound
    rw [hlimits]
    exact h.slots.park _

end Pool

/-! ### Counting the objects of a table -/

/-- Objects of one kind are no more than the numbers among which theirs are. -/
theorem Table.total_le_length {α : Type} {t : Table α} {P : α → Prop} [DecidablePred P] {ids : List Nat}
    (h : ∀ id a, t.get? id = some a → P a → id ∈ ids) : t.total (fun a => if P a then 1 else 0) ≤ ids.length := by
  let found := (t.rows.filter fun row => P row.2).map (·.1)
  have hcount : t.total (fun a => if P a then 1 else 0) = found.length := by
    show t.total _ = ((t.rows.filter fun row => P row.2).map (·.1)).length
    rw [List.length_map]
    unfold Table.total
    induction t.rows with
    | nil => rfl
    | cons row rest ih =>
      rw [Table.sumRows, ih]
      by_cases hrow : P row.2
      · rw [if_pos hrow, List.filter_cons_of_pos (by simpa using hrow), List.length_cons, Nat.add_comm]
      · rw [if_neg hrow, List.filter_cons_of_neg (by simpa using hrow), Nat.zero_add]
  have hnodup : found.Nodup := by
    refine List.pairwise_map.mpr ((t.descending.filter _).imp ?_)
    intro a b hlt
    omega
  have hsub : found ⊆ ids := by
    intro id hid
    obtain ⟨row, hrow, rfl⟩ := List.mem_map.mp hid
    obtain ⟨hmem, hP⟩ := List.mem_filter.mp hrow
    exact h row.1 row.2 (Table.get?_eq_some_of_mem hmem) (by simpa using hP)
  rw [hcount]
  exact (hnodup.subperm hsub).length_le

/-! ### Stores -/

/-- A pool, a factory that draws on it, and how many buffers should be enough. -/
structure Supply where
  pool : PoolId
  factory : FactoryId
  bound : Nat

namespace Store

variable {s s' : Store} {σ : Supply} {held held' : Holdings} {b : BufferId}

/-- The pool has made no more than it should, and `held` are all handles on its buffers. -/
structure Supplies (s : Store) (σ : Supply) (held : Holdings) : Prop where
  factory : ∃ kept, s.factories.get? σ.factory = some ⟨.pool σ.pool, kept⟩
  pool : ∃ pool acquired, s.pools.get? σ.pool = some pool ∧ pool.Balanced (s.liveOf σ.pool) acquired ∧
    pool.Thrifty σ.bound
  refs : ∀ b x, s.buffers.get? b = some x → x.slot.pool = some σ.pool → 0 < x.slot.refs ∧ x.slot.refs = held b
  past : ∀ b, 0 < held b → b < s.buffers.next

namespace Supplies

/-- Only handles on live buffers of the pool matter. -/
theorem congr (h : s.Supplies σ held)
    (hsame : ∀ b x, s.buffers.get? b = some x → x.slot.pool = some σ.pool → held' b = held b)
    (hpast : ∀ b, 0 < held' b → b < s.buffers.next) : s.Supplies σ held' where
  factory := h.factory
  pool := h.pool
  refs b x hx hpool := by
    rw [hsame b x hx hpool]
    exact h.refs b x hx hpool
  past := hpast

theorem of_eq (h : s.Supplies σ held) (heq : ∀ b, held' b = held b) : s.Supplies σ held' := funext heq ▸ h

/-- The pool has as many live buffers as there are handles at most. -/
theorem liveOf_le (h : s.Supplies σ held) {bs : List BufferId} (hbs : ∀ b, 0 < held b → b ∈ bs) :
    s.liveOf σ.pool ≤ bs.length := by
  refine Table.total_le_length fun b x hx hpool => hbs b ?_
  obtain ⟨hpos, hrefs⟩ := h.refs b x hx hpool
  omega

/- A buffer changes in place. -/
theorem set (h : s.Supplies σ held) {x : Buffer} (y : Buffer) (hx : s.buffers.get? b = some x)
    (hpool : y.slot.pool = x.slot.pool) (hother : ∀ c, c ≠ b → held' c = held c)
    (hrefs : 0 < x.slot.refs → x.slot.refs = held b → 0 < y.slot.refs ∧ y.slot.refs = held' b) :
    ({ s with buffers := s.buffers.set b y } : Store).Supplies σ held' := by
  obtain ⟨pool, acquired, hp, hbal, hthrifty⟩ := h.pool
  refine ⟨h.factory, ⟨pool, acquired, hp, ?_, hthrifty⟩, fun c z hz hzpool => ?_, fun c hc => ?_⟩
  · rw [liveOf_set y hx hpool]
    exact hbal
  · dsimp only at hz
    rw [Table.get?_set] at hz
    by_cases hcb : c = b
    · subst hcb
      rw [if_pos rfl, hx] at hz
      cases hz
      obtain ⟨hpos, hheld⟩ := h.refs c x hx (hpool.symm.trans hzpool)
      exact hrefs hpos hheld
    · rw [if_neg hcb] at hz
      rw [hother c hcb]
      exact h.refs c z hz hzpool
  · by_cases hcb : c = b
    · have hlt : b < s.buffers.next := Table.lt_next_of_get? hx
      exact hcb ▸ hlt
    · rw [hother c hcb] at hc
      exact h.past c hc

theorem clone (h : s.Supplies σ held) (hb : 0 < held b) : (s.clone b).Supplies σ (held.more b) := by
  cases hx : s.buffers.get? b with
  | none =>
    rw [clone_of_none hx]
    refine h.congr (fun c x hc _ => held.more_of_ne fun he => ?_) fun c hc => ?_
    · rw [he, hc] at hx
      cases hx
    · by_cases hbc : b = c
      · exact h.past c (hbc ▸ hb)
      · rw [held.more_of_ne hbc] at hc
        exact h.past c hc
  | some x =>
    rw [clone_of_some hx]
    refine h.set (moreOne x) hx rfl (fun c hc => held.more_of_ne (Ne.symm hc)) fun hpos hheld => ?_
    have hone : (moreOne x).slot.refs = x.slot.refs + 1 := rfl
    have hmore := held.more_self b
    omega

theorem write? (h : s.Supplies σ held) {f : Node → Node} (hw : s.write? b f = some s') : s'.Supplies σ held := by
  obtain ⟨x, hx, -, rfl⟩ := eq_of_write? hw
  exact h.set { x with node := f x.node } hx rfl (fun _ _ => rfl) fun hpos hheld => ⟨hpos, hheld⟩

theorem release (h : s.Supplies σ (held.more b)) : (s.release b).Supplies σ held := by
  have hmore := held.more_self b
  have hother : ∀ c, c ≠ b → held c = held.more b c := fun c hc => (held.more_of_ne (Ne.symm hc)).symm
  have hpast : ∀ c, 0 < held c → c < s.buffers.next := fun c hc => h.past c (Nat.lt_of_lt_of_le hc (held.le_more b c))
  cases hx : s.buffers.get? b with
  | none =>
    rw [release_of_none hx]
    refine h.congr (fun c x hc _ => hother c fun he => ?_) hpast
    rw [he, hx] at hc
    cases hc
  | some x =>
    by_cases hrefs : x.slot.refs = 1
    · obtain ⟨pool, acquired, hp, hbal, hthrifty⟩ := h.pool
      have herase := Table.total_erase hx fun y => if y.slot.pool = some σ.pool then 1 else 0
      rw [release_of_last hx hrefs]
      refine ⟨h.factory, ?_, fun c z hz hzpool => ?_, hpast⟩
      · dsimp only
        rw [get?_poolsAfter]
        unfold liveOf at hbal ⊢
        rw [herase] at hbal
        by_cases hpool : x.slot.pool = some σ.pool
        · rw [if_pos hpool] at hbal ⊢
          rw [hp]
          exact ⟨_, acquired, rfl, hbal.recycle _ _, hthrifty.recycle _ _⟩
        · rw [if_neg hpool] at hbal ⊢
          exact ⟨pool, acquired, hp, hbal, hthrifty⟩
      · dsimp only at hz
        rw [Table.get?_erase] at hz
        split at hz
        · cases hz
        · rename_i hcb
          rw [hother c hcb]
          exact h.refs c z hz hzpool
    · rw [release_of_shared hx hrefs]
      refine h.set (lessOne x) hx rfl hother fun hpos hheld => ?_
      have hless : (lessOne x).slot.refs = x.slot.refs - 1 := rfl
      omega

theorem releaseAll {bs : List BufferId} (h : s.Supplies σ (held.moreAll bs)) : (s.releaseAll bs).Supplies σ held := by
  induction bs generalizing s with
  | nil => exact h
  | cons b rest ih =>
    rw [Holdings.moreAll_cons] at h
    exact ih h.release

/-- Below the bound, a buffer more keeps the pool within it. -/
theorem acquire (h : s.Supplies σ held) (hlive : s.liveOf σ.pool < σ.bound) :
    (s.acquire σ.factory).2.Supplies σ (held.more s.buffers.next) := by
  obtain ⟨kept, hf⟩ := h.factory
  obtain ⟨pool, acquired, hp, hbal, hthrifty⟩ := h.pool
  have hcount := liveOf_acquirePooled hp σ.pool
  rw [if_pos rfl] at hcount
  have hnone : held s.buffers.next = 0 := Nat.eq_zero_of_not_pos fun hpos => Nat.lt_irrefl _ (h.past _ hpos)
  rw [acquire_pool hf]
  refine ⟨?_, ?_, fun b x hx hpool => ?_, fun b hb => ?_⟩
  · rw [acquirePooled_of_some hp]
    exact h.factory
  · rw [hcount, acquirePooled_of_some hp]
    refine ⟨(pool.take s.buffers.next).2, acquired + 1, ?_, hbal.take _, hthrifty.take hbal hlive _⟩
    dsimp only
    rw [Table.get?_set, if_pos rfl, hp]
    rfl
  · rw [acquirePooled_of_some hp] at hx
    dsimp only at hx
    rw [Table.get?_push] at hx
    split at hx
    · rename_i he
      cases hx
      rw [he, held.more_self, hnone]
      exact ⟨Nat.one_pos, rfl⟩
    · rename_i hne
      rw [held.more_of_ne (Ne.symm hne)]
      exact h.refs b x hx hpool
  · rw [acquirePooled_of_some hp]
    show b < s.buffers.next + 1
    by_cases he : s.buffers.next = b
    · exact he ▸ Nat.lt_succ_self _
    · rw [held.more_of_ne he] at hb
      exact Nat.lt_succ_of_lt (h.past b hb)

end Supplies

/-- A fresh pool without a live buffer. -/
theorem supplies_fresh {p : PoolId} {f : FactoryId} (hf : ∃ kept, s.factories.get? f = some ⟨.pool p, kept⟩)
    (hp : s.pools.get? p = some (.ofLimits ⟨none, none⟩)) (hlive : s.liveOf p = 0) (bound : Nat) :
    s.Supplies ⟨p, f, bound⟩ fun _ => 0 := by
  refine ⟨hf, ⟨_, 0, hp, ?_, Pool.thrifty_ofLimits bound⟩, fun b x hx hpool => ?_, fun b hb => ?_⟩
  · rw [hlive]
    exact Pool.balanced_ofLimits _
  · have hone := Table.le_total hx fun y => if y.slot.pool = some p then 1 else 0
    rw [if_pos hpool] at hone
    unfold liveOf at hlive
    omega
  · exact absurd hb (Nat.lt_irrefl 0)

end Store

/-! ### Captures -/

/-- A capture leaves one handle more, that of the snapshot, or none if it panicked. -/
def Snapshot.Drawn (σ : Supply) (held : Holdings) : Except Panic Snapshot × Store → Prop
  | (.ok s, store) => store.Supplies σ (held.more s.buffer)
  | (.error _, store) => store.Supplies σ held

theorem Store.Supplies.capture {s : Store} {σ : Supply} {held : Holdings} (h : s.Supplies σ held)
    (hlive : s.liveOf σ.pool < σ.bound) (e : Entry) (isLocal : Bool) :
    Snapshot.Drawn σ held (Snapshot.capture e isLocal (·.acquire σ.factory) s) := by
  obtain ⟨kept, hf⟩ := h.factory
  obtain ⟨filled, hw, hcapture⟩ := Snapshot.capture_of_pool e isLocal Timestamp.localOffset hf
  have hnew := h.acquire hlive
  rw [Store.acquire_pool hf] at hnew
  have hfilled := hnew.write? hw
  rw [hcapture]
  unfold Snapshot.finish
  cases e.time.decompose isLocal with
  | ok time => exact hfilled
  | error panic => exact hfilled.release

end Logbook
