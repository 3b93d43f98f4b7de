import Logbook.Proofs.Capture

/-!
# Handles on buffers

Whoever holds a handle on a buffer finds in it what was there before, whatever others capture and release.
-/

namespace Logbook

namespace Store

variable {s s' s'' : Store} {b c : BufferId} {bs bs' : List BufferId}

/-- Every handle of a list, counted as often as it stands there, is counted by its buffer. -/
def Keeps (s : Store) (bs : List BufferId) : Prop := ∀ b, bs.count b ≤ s.refsOf b

theorem Keeps.perm (h : s.Keeps bs) (hperm : bs'.Perm bs) : s.Keeps bs' := by
  intro b
  rw [hperm.count_eq]
  exact h b

theorem Keeps.sublist (h : s.Keeps bs) (hsub : bs'.Sublist bs) : s.Keeps bs' := fun c =>
  Nat.le_trans (hsub.count_le c) (h c)

theorem Keeps.alive (h : s.Keeps bs) (hb : b ∈ bs) : ∃ x, s.buffers.get? b = some x :=
  exists_of_refsOf_pos (Nat.lt_of_lt_of_le (List.count_pos_iff.mpr hb) (h b))

/-! ### Cloning and releasing -/

theorem bytes_clone (s : Store) (b c : BufferId) : (s.clone b).bytes c = s.bytes c := by
  cases hb : s.buffers.get? b with
  | none => rw [clone_of_none hb]
  | some x =>
    rw [clone_of_some hb]
    unfold bytes
    dsimp only
    rw [Table.get?_set]
    by_cases hc : c = b
    · rw [if_pos hc, hc, hb]
      rfl
    · rw [if_neg hc]

theorem Keeps.clone (h : s.Keeps (b :: bs)) : (s.clone b).Keeps (b :: b :: bs) := by
  obtain ⟨x, hx⟩ := h.alive List.mem_cons_self
  intro c
  have hc := h c
  rw [clone_of_some hx, refsOf_set _ hx]
  by_cases hcb : c = b
  · subst hcb
    rw [refsOf_of_some hx, List.count_cons_self] at hc
    rw [if_pos rfl, List.count_cons_self, List.count_cons_self]
    exact Nat.succ_le_succ hc
  · rw [if_neg hcb, List.count_cons_of_ne (Ne.symm hcb)]
    exact hc

theorem Keeps.release (h : s.Keeps (b :: bs)) : (s.release b).Keeps bs := by
  obtain ⟨x, hx⟩ := h.alive List.mem_cons_self
  have hpos : 0 < x.slot.refs := by
    have hb := h b
    rw [refsOf_of_some hx, List.count_cons_self] at hb
    omega
  intro c
  have hc := h c
  have hrefs := refsOf_release hx hpos c
  by_cases hcb : b = c
  · subst hcb
    rw [if_pos rfl] at hrefs
    rw [List.count_cons_self] at hc
    omega
  · rw [if_neg hcb] at hrefs
    rw [List.count_cons_of_ne hcb] at hc
    omega

/-- Those who still hold a handle see nothing of a release. -/
theorem Keeps.bytes_release (h : s.Keeps (b :: bs)) (hc : c ∈ bs) : (s.release b).bytes c = s.bytes c := by
  by_cases hcb : c = b
  · subst hcb
    obtain ⟨x, hx⟩ := h.alive List.mem_cons_self
    have hshared : x.slot.refs ≠ 1 := by
      have hcount := h c
      have hpos := List.count_pos_iff.mpr hc
      rw [refsOf_of_some hx, List.count_cons_self] at hcount
      omega
    rw [release_of_shared hx hshared]
    unfold bytes
    dsimp only
    rw [Table.get?_set, if_pos rfl, hx]
    rfl
  · exact bytes_release_of_ne hcb

/-! ### New buffers -/

/-- From one store to the next, only buffers have come, changed or gone that are new. -/
structure Grown (s s' : Store) : Prop where
  next : s.buffers.next ≤ s'.buffers.next
  buffers : ∀ b < s.buffers.next, s'.buffers.get? b = s.buffers.get? b

theorem Grown.trans (h : Grown s s') (h' : Grown s' s'') : Grown s s'' where
  next := Nat.le_trans h.next h'.next
  buffers b hb := (h'.buffers b (Nat.lt_of_lt_of_le hb h.next)).trans (h.buffers b hb)

theorem Grown.keeps (h : Grown s s') (hs : s.Keeps bs) : s'.Keeps bs := by
  intro b
  have hb := hs b
  cases hx : s.buffers.get? b with
  | none =>
    rw [refsOf_of_none hx] at hb
    omega
  | some x =>
    rw [refsOf_of_some hx] at hb
    rw [refsOf_of_some ((h.buffers b (Table.lt_next_of_get? hx)).trans hx)]
    exact hb

theorem Grown.bytes_eq (h : Grown s s') (hs : s.Keeps bs) (hb : b ∈ bs) : s'.bytes b = s.bytes b := by
  obtain ⟨x, hx⟩ := hs.alive hb
  unfold bytes
  rw [h.buffers b (Table.lt_next_of_get? hx)]

/-- A buffer that is new is held by nobody else. -/
theorem Grown.keeps_cons (h : Grown s s') (hs : s.Keeps bs) (hnew : s.buffers.next ≤ b) (hb : 0 < s'.refsOf b) :
    s'.Keeps (b :: bs) := by
  have hkeeps := h.keeps hs
  intro c
  by_cases hcb : b = c
  · subst hcb
    have hnone : b ∉ bs := by
      intro hmem
      obtain ⟨x, hx⟩ := hs.alive hmem
      have hlt := Table.lt_next_of_get? hx
      omega
    rw [List.count_cons_self, List.count_eq_zero_of_not_mem hnone]
    exact hb
  · rw [List.count_cons_of_ne hcb]
    exact hkeeps c

theorem grown_push {x : Buffer} (h : s'.buffers = s.buffers.push x) : Grown s s' where
  next := by
    rw [h]
    exact Nat.le_succ _
  buffers b hb := by
    rw [h, Table.get?_push, if_neg (Nat.ne_of_lt hb)]

theorem grown_set {x : Buffer} (hb : s.buffers.next ≤ b) (h : Grown s s') (hset : s''.buffers = s'.buffers.set b x) :
    Grown s s'' where
  next := by
    rw [hset]
    exact h.next
  buffers c hc := by
    rw [hset, Table.get?_set, if_neg (Nat.ne_of_lt (Nat.lt_of_lt_of_le hc hb))]
    exact h.buffers c hc

theorem Grown.write? (h : Grown s s') (hb : s.buffers.next ≤ b) {f : Node → Node} (hw : s'.write? b f = some s'') :
    Grown s s'' := by
  obtain ⟨x, _, _, rfl⟩ := eq_of_write? hw
  exact grown_set hb h rfl

theorem next_release (s : Store) (b : BufferId) : (s.release b).buffers.next = s.buffers.next := by
  unfold Store.release
  split
  · rfl
  · split <;> rfl

theorem factories_release (s : Store) (b : BufferId) : (s.release b).factories = s.factories := by
  unfold Store.release
  split
  · rfl
  · split <;> rfl

theorem Grown.release (h : Grown s s') (hb : s.buffers.next ≤ b) : Grown s (s'.release b) where
  next := by
    rw [next_release]
    exact h.next
  buffers c hc := by
    rw [get?_release_of_ne (Nat.ne_of_lt (Nat.lt_of_lt_of_le hc hb))]
    exact h.buffers c hc

/-- What a factory gives out is new. -/
theorem acquire_grown (s : Store) (f : FactoryId) : Grown s (s.acquire f).2 ∧ (s.acquire f).1 = s.buffers.next := by
  have hheap : Grown s s.acquireUnpooled.2 ∧ s.acquireUnpooled.1 = s.buffers.next := ⟨grown_push rfl, rfl⟩
  cases hf : s.factories.get? f with
  | none =>
    rw [acquire_of_none hf]
    exact hheap
  | some factory =>
    obtain ⟨source, held⟩ := factory
    cases source with
    | heap =>
      rw [acquire_heap hf]
      exact hheap
    | pool p =>
      obtain ⟨x, hid, hpush, _⟩ := s.acquirePooled_push p
      rw [acquire_pool hf]
      exact ⟨grown_push hpush, hid⟩
    | aliasing p =>
      obtain ⟨x, hid, hpush, _⟩ := s.acquirePooled_push p
      obtain ⟨y, hy⟩ := s.acquirePooled_alive p
      rw [acquire_aliasing hf, clone_of_some hy]
      exact ⟨grown_set (Nat.le_of_eq hid.symm) (grown_push hpush) rfl, hid⟩
    | stale p =>
      obtain ⟨x, hid, hpush, _⟩ := s.acquirePooled_push p
      rw [acquire_stale hf]
      refine ⟨?_, hid⟩
      cases hw : (s.acquirePooled p).2.write? (s.acquirePooled p).1 (·.extend staleText) with
      | none => exact grown_push hpush
      | some s' => exact (grown_push hpush).write? (Nat.le_of_eq hid.symm) hw

theorem refsOf_write? {f : Node → Node} (h : s.write? b f = some s') : s'.refsOf b = 1 := by
  obtain ⟨x, hx, hrefs, rfl⟩ := eq_of_write? h
  rw [refsOf_set _ hx, if_pos rfl]
  exact hrefs

theorem refsOf_release_of_ne (hc : c ≠ b) : (s.release b).refsOf c = s.refsOf c := by
  unfold refsOf
  rw [get?_release_of_ne hc]

end Store

/-! ### Capturing -/

namespace Snapshot

open Store

variable (e : Entry) (isLocal : Bool) (offset : Int)

/-- The end of a capture into a new buffer. -/
theorem finish_grown {s filled : Store} {b : BufferId} (hgrown : Grown s filled) (hnew : s.buffers.next ≤ b)
    (hrefs : filled.refsOf b = 1) :
    Grown s (finish e isLocal b filled offset).2 ∧
      ∀ snapshot, (finish e isLocal b filled offset).1 = .ok snapshot →
        snapshot.buffer = b ∧ (finish e isLocal b filled offset).2.refsOf b = 1 := by
  unfold finish
  cases e.time.decompose isLocal offset with
  | ok time =>
    refine ⟨hgrown, fun snapshot h => ?_⟩
    cases h
    exact ⟨rfl, hrefs⟩
  | error p => exact ⟨hgrown.release hnew, fun snapshot h => by cases h⟩

/-- A snapshot holds a new buffer, and capturing leaves those alone that there are. -/
theorem capture_grown (f : FactoryId) (s : Store) :
    Grown s (capture e isLocal (·.acquire f) s offset).2 ∧
      ∀ snapshot, (capture e isLocal (·.acquire f) s offset).1 = .ok snapshot →
        s.buffers.next ≤ snapshot.buffer ∧
          0 < (capture e isLocal (·.acquire f) s offset).2.refsOf snapshot.buffer := by
  obtain ⟨hgrown, hid⟩ := s.acquire_grown f
  obtain ⟨x, hx⟩ := s.acquire_alive f
  have hnew : s.buffers.next ≤ (s.acquire f).1 := Nat.le_of_eq hid.symm
  unfold capture
  dsimp only
  cases hw : (s.acquire f).2.write? (s.acquire f).1 (·.refill e.text) with
  | some filled =>
    obtain ⟨hfinish, hbuffer⟩ := finish_grown e isLocal offset (hgrown.write? hnew hw) hnew (refsOf_write? hw)
    refine ⟨hfinish, fun snapshot h => ?_⟩
    obtain ⟨heq, hrefs⟩ := hbuffer snapshot h
    rw [heq, hrefs]
    exact ⟨hnew, Nat.one_pos⟩
  | none =>
    -- the snapshot goes to a buffer of the heap, and the one that others hold is given back
    have hne : (s.acquire f).2.acquireUnpooled.1 ≠ (s.acquire f).1 := Nat.ne_of_gt (Table.lt_next_of_get? hx)
    have hother : s.buffers.next ≤ (s.acquire f).2.acquireUnpooled.1 := hgrown.next
    obtain ⟨filled, hfilled⟩ := (s.acquire f).2.write?_acquireUnpooled (·.refill e.text)
    obtain ⟨hfinish, hbuffer⟩ := finish_grown e isLocal offset
      ((hgrown.trans (grown_push rfl)).write? hother hfilled) hother (refsOf_write? hfilled)
    rw [hfilled]
    refine ⟨hfinish.release hnew, fun snapshot h => ?_⟩
    obtain ⟨heq, hrefs⟩ := hbuffer snapshot h
    dsimp only [Option.getD]
    rw [heq, refsOf_release_of_ne hne, hrefs]
    exact ⟨hother, Nat.one_pos⟩

end Snapshot

end Logbook
