import Logbook.Proofs.Stores

/-!
# Owners of parts

Every node and every slot is in one place at most: in a live buffer or on a free list. New parts carry the number
of the buffer that they are made for, so the numbers in use stay below the next one.
-/

namespace Logbook

/-- How parts of one kind are told apart, in a buffer and on a free list. -/
structure PartIds where
  ofBuffer : Buffer → Nat
  ofPool : Pool → List Nat

namespace PartIds

def nodes : PartIds := ⟨(·.node.id), fun p => p.nodes.free.items.map (·.id)⟩

def slots : PartIds := ⟨(·.slot.id), fun p => p.slots.free.items.map (·.id)⟩

/-- What the operations of a store do to the numbers of its parts. -/
structure Lawful (v : PartIds) : Prop where
  fresh : ∀ id, v.ofBuffer (Store.ofHeap id) = id
  keep : ∀ b c : Buffer, b.node.id = c.node.id → b.slot.id = c.slot.id → v.ofBuffer b = v.ofBuffer c
  take : ∀ p pool id,
    v.ofPool pool = v.ofBuffer (Store.ofPool p pool id) :: v.ofPool (pool.take id).2 ∨
    (v.ofBuffer (Store.ofPool p pool id) = id ∧ v.ofPool (pool.take id).2 = v.ofPool pool)
  recycle : ∀ (pool : Pool) (b : Buffer) (slot : Slot), slot.id = b.slot.id →
    v.ofPool (pool.recycle b.node slot) = v.ofBuffer b :: v.ofPool pool ∨
    v.ofPool (pool.recycle b.node slot) = v.ofPool pool

theorem lawful_nodes : nodes.Lawful where
  fresh := fun _ => rfl
  keep := fun _ _ hn _ => hn
  take := fun _ pool id => by
    rcases pool.nodes.take_ids (.fresh id) (·.id) with h | ⟨hfresh, h⟩
    · exact .inl h
    · exact .inr ⟨congrArg Node.id hfresh, h⟩
  recycle := fun pool b _ _ => pool.nodes.park_ids pool.limits.maxFreeNodes b.node.clear (·.id)

theorem lawful_slots : slots.Lawful where
  fresh := fun _ => rfl
  keep := fun _ _ _ hs => hs
  take := fun _ pool id => by
    rcases pool.slots.take_ids (.fresh id) (·.id) with h | ⟨hfresh, h⟩
    · exact .inl h
    · exact .inr ⟨congrArg Slot.id hfresh, h⟩
  recycle := fun pool b slot hid => by
    rcases pool.slots.park_ids pool.limits.maxFreeSlots { slot with pool := none } (·.id) with h | h
    · exact .inl (h.trans (congrArg (· :: _) hid))
    · exact .inr h

/-- Is the part of number `i` in this buffer? -/
def inBuffer (v : PartIds) (i : Nat) (b : Buffer) : Nat := if v.ofBuffer b = i then 1 else 0

/-- How often the part of number `i` is on a free list of this pool. -/
def onList (v : PartIds) (i : Nat) (p : Pool) : Nat := (v.ofPool p).count i

theorem Lawful.take_le {v : PartIds} (h : v.Lawful) (p : PoolId) (pool : Pool) (id i : Nat) :
    v.inBuffer i (Store.ofPool p pool id) + v.onList i (pool.take id).2 ≤
      v.onList i pool + if id = i then 1 else 0 := by
  unfold inBuffer onList
  rcases h.take p pool id with htake | ⟨hfresh, htake⟩
  · rw [htake, List.count_cons]
    simp only [beq_iff_eq]
    omega
  · rw [htake, hfresh]
    omega

theorem Lawful.recycle_le {v : PartIds} (h : v.Lawful) (pool : Pool) (b : Buffer) (slot : Slot)
    (hslot : slot.id = b.slot.id) (i : Nat) :
    v.onList i (pool.recycle b.node slot) ≤ v.onList i pool + v.inBuffer i b := by
  unfold inBuffer onList
  rcases h.recycle pool b slot hslot with hrec | hrec
  · rw [hrec, List.count_cons]
    simp only [beq_iff_eq]
    omega
  · rw [hrec]
    omega

end PartIds

namespace Store

variable {v : PartIds} {s : Store}

/-- In how many places the part of number `i` is. -/
def uses (s : Store) (v : PartIds) (i : Nat) : Nat :=
  s.buffers.total (v.inBuffer i) + s.pools.total (v.onList i)

/-- No part is in two places, and the numbers from the next one on are unused. -/
def Distinct (s : Store) (v : PartIds) : Prop :=
  ∀ i, s.uses v i ≤ 1 ∧ (s.buffers.next ≤ i → s.uses v i = 0)

/-! ### What the operations do to the places -/

theorem Distinct.of_le (h : s.Distinct v) {s' : Store} (hnext : s'.buffers.next = s.buffers.next)
    (hle : ∀ i, s'.uses v i ≤ s.uses v i) : s'.Distinct v := by
  intro i
  have hi := h i
  have := hle i
  refine ⟨by omega, fun hge => ?_⟩
  have := hi.2 (by omega)
  omega

/- Only the number of the new buffer may come into use. -/
theorem Distinct.of_fresh (h : s.Distinct v) {s' : Store} (hnext : s'.buffers.next = s.buffers.next + 1)
    (hle : ∀ i, s'.uses v i ≤ s.uses v i + if s.buffers.next = i then 1 else 0) : s'.Distinct v := by
  intro i
  have hi := h i
  have hi' := hle i
  by_cases he : s.buffers.next = i
  · rw [if_pos he] at hi'
    have := hi.2 (by omega)
    exact ⟨by omega, fun hge => by omega⟩
  · rw [if_neg he] at hi'
    refine ⟨by omega, fun hge => ?_⟩
    have := hi.2 (by omega)
    omega

theorem Distinct.acquireUnpooled (h : s.Distinct v) (hv : v.Lawful) : s.acquireUnpooled.2.Distinct v := by
  refine h.of_fresh rfl fun i => ?_
  have hone : v.inBuffer i (ofHeap s.buffers.next) = if s.buffers.next = i then 1 else 0 := by
    unfold PartIds.inBuffer
    rw [hv.fresh]
  rw [acquireUnpooled_eq]
  unfold uses
  rw [Table.total_push]
  dsimp only
  omega

theorem Distinct.acquirePooled (h : s.Distinct v) (hv : v.Lawful) (p : PoolId) :
    (s.acquirePooled p).2.Distinct v := by
  cases hp : s.pools.get? p with
  | none =>
    rw [acquirePooled_of_none hp]
    exact h.acquireUnpooled hv
  | some pool =>
    rw [acquirePooled_of_some hp]
    refine h.of_fresh rfl fun i => ?_
    have hset := Table.total_set hp (pool.take s.buffers.next).2 (v.onList i)
    have htake := hv.take_le p pool s.buffers.next i
    unfold uses
    rw [Table.total_push]
    dsimp only
    omega

/-- Buffers may be changed in place as long as their parts stay the same. -/
theorem uses_set_buffer (hv : v.Lawful) {b : BufferId} {old : Buffer} (new : Buffer)
    (hold : s.buffers.get? b = some old) (hn : new.node.id = old.node.id) (hs : new.slot.id = old.slot.id)
    (i : Nat) : ({ s with buffers := s.buffers.set b new } : Store).uses v i = s.uses v i := by
  have hset := Table.total_set hold new (v.inBuffer i)
  have hsame : v.inBuffer i new = v.inBuffer i old := by
    unfold PartIds.inBuffer
    rw [hv.keep new old hn hs]
  unfold uses
  dsimp only
  omega

theorem uses_poolsAfter_le (hv : v.Lawful) (s : Store) (buffer : Buffer) (i : Nat) :
    (s.poolsAfter buffer).total (v.onList i) ≤ s.pools.total (v.onList i) + v.inBuffer i buffer := by
  unfold poolsAfter
  cases hpool : buffer.slot.pool with
  | none => exact Nat.le_add_right _ _
  | some p =>
    dsimp only
    cases hp : s.pools.get? p with
    | none =>
      rw [Table.modify_of_none hp]
      exact Nat.le_add_right _ _
    | some pool =>
      have hmod := Table.total_modify hp (·.recycle buffer.node (lessOne buffer).slot) (v.onList i)
      have hrec := hv.recycle_le pool buffer (lessOne buffer).slot rfl i
      omega

theorem Distinct.release (h : s.Distinct v) (hv : v.Lawful) (b : BufferId) : (s.release b).Distinct v := by
  cases hb : s.buffers.get? b with
  | none =>
    rw [release_of_none hb]
    exact h
  | some buffer =>
    by_cases hrefs : buffer.slot.refs = 1
    · rw [release_of_last hb hrefs]
      refine h.of_le rfl fun i => ?_
      have herase := Table.total_erase hb (v.inBuffer i)
      have hpools := uses_poolsAfter_le hv s buffer i
      unfold uses
      dsimp only
      omega
    · rw [release_of_shared hb hrefs]
      exact h.of_le rfl fun i => Nat.le_of_eq (uses_set_buffer hv (lessOne buffer) hb rfl rfl i)

/-! ### What distinct parts mean -/

theorem Distinct.ne_of_ne (h : s.Distinct v) {b c : BufferId} {x y : Buffer} (hbc : b ≠ c)
    (hb : s.buffers.get? b = some x) (hc : s.buffers.get? c = some y) : v.ofBuffer x ≠ v.ofBuffer y := by
  intro he
  have hsum := Table.add_le_total hbc hb hc (v.inBuffer (v.ofBuffer x))
  have hone := (h (v.ofBuffer x)).1
  unfold uses at hone
  unfold PartIds.inBuffer at hsum hone
  rw [if_pos rfl, if_pos he.symm] at hsum
  omega

theorem Distinct.not_parked (h : s.Distinct v) {b : BufferId} {x : Buffer} {p : PoolId} {pool : Pool}
    (hb : s.buffers.get? b = some x) (hp : s.pools.get? p = some pool) : v.ofBuffer x ∉ v.ofPool pool := by
  intro hmem
  have hlive := Table.le_total hb (v.inBuffer (v.ofBuffer x))
  have hparked := Table.le_total hp (v.onList (v.ofBuffer x))
  have hcount : 0 < v.onList (v.ofBuffer x) pool := List.count_pos_iff.mpr hmem
  have hone := (h (v.ofBuffer x)).1
  unfold uses at hone
  rw [PartIds.inBuffer, if_pos rfl] at hlive
  omega

theorem Distinct.parked_once (h : s.Distinct v) {p : PoolId} {pool : Pool} (hp : s.pools.get? p = some pool) :
    (v.ofPool pool).Nodup := by
  rw [List.nodup_iff_count]
  intro i
  have hparked : v.onList i pool ≤ _ := Table.le_total hp (v.onList i)
  have hone := (h i).1
  unfold uses at hone
  show v.onList i pool ≤ 1
  omega

theorem Distinct.parked_apart (h : s.Distinct v) {p q : PoolId} {x y : Pool} (hpq : p ≠ q)
    (hp : s.pools.get? p = some x) (hq : s.pools.get? q = some y) (i : Nat) (hx : i ∈ v.ofPool x) :
    i ∉ v.ofPool y := by
  intro hy
  have hsum := Table.add_le_total hpq hp hq (v.onList i)
  have hcx : 0 < v.onList i x := List.count_pos_iff.mpr hx
  have hcy : 0 < v.onList i y := List.count_pos_iff.mpr hy
  have hone := (h i).1
  unfold uses at hone
  omega

end Store

end Logbook
