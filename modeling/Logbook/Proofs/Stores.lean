import Logbook.Proofs.PoolParts

/-!
# Operations on stores

One equation for every case of acquiring, cloning, writing and releasing a buffer.
-/

namespace Logbook.Store

/-! ### Acquiring -/

/-- The buffer that a pool hands out under the number `id`. -/
def ofPool (p : PoolId) (pool : Pool) (id : BufferId) : Buffer :=
  ⟨(pool.take id).1.1, { (pool.take id).1.2 with refs := 1, pool := some p }⟩

/-- The buffer that is made without a pool under the number `id`. -/
def ofHeap (id : BufferId) : Buffer := ⟨.fresh id, { Slot.fresh id with refs := 1 }⟩

theorem acquireUnpooled_eq (s : Store) :
    s.acquireUnpooled = (s.buffers.next, { s with buffers := s.buffers.push (ofHeap s.buffers.next) }) := rfl

theorem acquirePooled_of_some {s : Store} {p : PoolId} {pool : Pool} (h : s.pools.get? p = some pool) :
    s.acquirePooled p = (s.buffers.next, { s with
      pools := s.pools.set p (pool.take s.buffers.next).2
      buffers := s.buffers.push (ofPool p pool s.buffers.next) }) := by
  unfold acquirePooled
  rw [h]
  rfl

theorem acquirePooled_of_none {s : Store} {p : PoolId} (h : s.pools.get? p = none) :
    s.acquirePooled p = s.acquireUnpooled := by
  unfold acquirePooled
  rw [h]

section Factories

variable {s : Store} {f : FactoryId} {p : PoolId} {held : List BufferId}

theorem acquire_of_none (h : s.factories.get? f = none) : s.acquire f = s.acquireUnpooled := by
  unfold acquire
  rw [h]

theorem acquire_heap (h : s.factories.get? f = some ⟨.heap, held⟩) : s.acquire f = s.acquireUnpooled := by
  unfold acquire
  rw [h]

theorem acquire_pool (h : s.factories.get? f = some ⟨.pool p, held⟩) : s.acquire f = s.acquirePooled p := by
  unfold acquire
  rw [h]

theorem acquire_aliasing (h : s.factories.get? f = some ⟨.aliasing p, held⟩) :
    s.acquire f = ((s.acquirePooled p).1, { (s.acquirePooled p).2.clone (s.acquirePooled p).1 with
      factories := (s.acquirePooled p).2.factories.set f ⟨.aliasing p, held ++ [(s.acquirePooled p).1]⟩ }) := by
  unfold acquire
  rw [h]
  rfl

theorem acquire_stale (h : s.factories.get? f = some ⟨.stale p, held⟩) :
    s.acquire f = ((s.acquirePooled p).1,
      ((s.acquirePooled p).2.write? (s.acquirePooled p).1 (·.extend staleText)).getD (s.acquirePooled p).2) := by
  unfold acquire
  rw [h]

end Factories

/-! ### Cloning -/

/-- The buffer with one handle more. -/
def moreOne (buffer : Buffer) : Buffer :=
  { buffer with slot := { buffer.slot with refs := buffer.slot.refs + 1 } }

theorem clone_of_some {s : Store} {b : BufferId} {buffer : Buffer} (h : s.buffers.get? b = some buffer) :
    s.clone b = { s with buffers := s.buffers.set b (moreOne buffer) } := by
  unfold clone
  congr 1
  exact Table.modify_eq_set h _

theorem clone_of_none {s : Store} {b : BufferId} (h : s.buffers.get? b = none) : s.clone b = s := by
  unfold clone
  rw [Table.modify_of_none h]

/-! ### Releasing -/

/-- The buffer with one handle less. -/
def lessOne (buffer : Buffer) : Buffer :=
  { buffer with slot := { buffer.slot with refs := buffer.slot.refs - 1 } }

/-- The pools after the parts of a buffer have returned. -/
def poolsAfter (s : Store) (buffer : Buffer) : Table Pool :=
  match buffer.slot.pool with
  | some p => s.pools.modify p (·.recycle buffer.node (lessOne buffer).slot)
  | none => s.pools

theorem release_of_none {s : Store} {b : BufferId} (h : s.buffers.get? b = none) : s.release b = s := by
  unfold release
  rw [h]

theorem release_of_last {s : Store} {b : BufferId} {buffer : Buffer} (h : s.buffers.get? b = some buffer)
    (hrefs : buffer.slot.refs = 1) :
    s.release b = { s with buffers := s.buffers.erase b, pools := s.poolsAfter buffer } := by
  unfold release
  rw [h]
  dsimp only
  rw [if_pos hrefs]
  rfl

theorem release_of_shared {s : Store} {b : BufferId} {buffer : Buffer} (h : s.buffers.get? b = some buffer)
    (hrefs : buffer.slot.refs ≠ 1) : s.release b = { s with buffers := s.buffers.set b (lessOne buffer) } := by
  unfold release
  rw [h]
  dsimp only
  rw [if_neg hrefs]
  rfl

/-! ### Writing -/

theorem write?_of_unique {s : Store} {b : BufferId} {buffer : Buffer} (h : s.buffers.get? b = some buffer)
    (hrefs : buffer.slot.refs = 1) (f : Node → Node) :
    s.write? b f = some { s with buffers := s.buffers.set b { buffer with node := f buffer.node } } := by
  unfold write?
  rw [h]
  dsimp only
  rw [if_pos hrefs]

theorem write?_of_shared {s : Store} {b : BufferId} {buffer : Buffer} (h : s.buffers.get? b = some buffer)
    (hrefs : buffer.slot.refs ≠ 1) (f : Node → Node) : s.write? b f = none := by
  unfold write?
  rw [h]
  dsimp only
  rw [if_neg hrefs]

theorem write?_of_none {s : Store} {b : BufferId} (h : s.buffers.get? b = none) (f : Node → Node) :
    s.write? b f = none := by
  unfold write?
  rw [h]

end Logbook.Store
