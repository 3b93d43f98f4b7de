import Logbook.Proofs.Ledger

/-!
# Nodes and slots apart

A pool keeps its nodes and its slots on lists of their own, each with its own limit. What callers see of the nodes
does not depend on how many slots are kept, and what they see of the slots does not depend on how many nodes are.

A facet is what is looked at in pools and in buffers. It is lawful if every operation changes what it shows by what
it shows alone. Ledgers that agree on a lawful facet then agree on it after any operations.
-/

namespace Logbook

structure Facet (α β : Type) where
  ofPool : Pool → α
  ofBuffer : Buffer → β

namespace Facet

variable {α β : Type} {v : Facet α β}

/-- The nodes with their limit. Of slots it shows the count of handles, which decides about writing, and the pool to
which a buffer returns. -/
def nodes : Facet (Option Nat × Parts Node) (Node × Nat × Option PoolId) :=
  ⟨fun p => (p.limits.maxFreeNodes, p.nodes), fun b => (b.node, b.slot.refs, b.slot.pool)⟩

/-- The slots with their limit. -/
def slots : Facet (Option Nat × Parts Slot) Slot := ⟨fun p => (p.limits.maxFreeSlots, p.slots), (·.slot)⟩

structure Lawful (v : Facet α β) : Prop where
  refs : ∀ {b c : Buffer}, v.ofBuffer b = v.ofBuffer c → b.slot.refs = c.slot.refs
  owner : ∀ {b c : Buffer}, v.ofBuffer b = v.ofBuffer c → b.slot.pool = c.slot.pool
  count : ∀ {b c : Buffer} (n : Nat), v.ofBuffer b = v.ofBuffer c →
    v.ofBuffer { b with slot := { b.slot with refs := n } } = v.ofBuffer { c with slot := { c.slot with refs := n } }
  edit : ∀ {b c : Buffer} (e : Edit), v.ofBuffer b = v.ofBuffer c →
    v.ofBuffer { b with node := e.run b.node } = v.ofBuffer { c with node := e.run c.node }
  take : ∀ {x y : Pool} (id : Nat), v.ofPool x = v.ofPool y → v.ofPool (x.take id).2 = v.ofPool (y.take id).2
  hand : ∀ {x y : Pool} (p : PoolId) (id : Nat), v.ofPool x = v.ofPool y →
    v.ofBuffer (Store.ofPool p x id) = v.ofBuffer (Store.ofPool p y id)
  recycle : ∀ {x y : Pool} {b c : Buffer} (n : Nat), v.ofPool x = v.ofPool y → v.ofBuffer b = v.ofBuffer c →
    v.ofPool (x.recycle b.node { b.slot with refs := n }) = v.ofPool (y.recycle c.node { c.slot with refs := n })

theorem lawful_nodes : nodes.Lawful := by
  constructor
  case refs => intro b c h; simp_all [nodes]
  case owner => intro b c h; simp_all [nodes]
  case count => intro b c n h; simp_all [nodes]
  case edit => intro b c e h; simp_all [nodes]
  case take =>
    intro x y id h
    simp only [nodes, Prod.mk.injEq] at h
    simp [nodes, Pool.take, h]
  case hand =>
    intro x y p id h
    simp only [nodes, Prod.mk.injEq] at h
    simp [nodes, Store.ofPool, Pool.take, h]
  case recycle =>
    intro x y b c n h hb
    simp only [nodes, Prod.mk.injEq] at h hb
    simp [nodes, Pool.recycle, h, hb]

theorem lawful_slots : slots.Lawful := by
  constructor
  case refs => intro b c h; simp_all [slots]
  case owner => intro b c h; simp_all [slots]
  case count => intro b c n h; simp_all [slots]
  case edit => intro b c e h; simp_all [slots]
  case take =>
    intro x y id h
    simp only [slots, Prod.mk.injEq] at h
    simp [slots, Pool.take, h]
  case hand =>
    intro x y p id h
    simp only [slots, Prod.mk.injEq] at h
    simp [slots, Store.ofPool, Pool.take, h]
  case recycle =>
    intro x y b c n h hb
    simp only [slots, Prod.mk.injEq] at h hb
    simp [slots, Pool.recycle, h, hb]

/-! ### Operations on stores -/

structure Agree (v : Facet α β) (s t : Store) : Prop where
  pools : s.pools.map v.ofPool = t.pools.map v.ofPool
  buffers : s.buffers.map v.ofBuffer = t.buffers.map v.ofBuffer

namespace Agree

variable {s t : Store}

theorem next_eq (h : v.Agree s t) : s.buffers.next = t.buffers.next := by
  have hnext := congrArg Table.next h.buffers
  exact hnext

theorem set (h : v.Agree s t) (b : BufferId) {x y : Buffer} (hxy : v.ofBuffer x = v.ofBuffer y) :
    v.Agree { s with buffers := s.buffers.set b x } { t with buffers := t.buffers.set b y } where
  pools := h.pools
  buffers := by simp only [Table.map_set, h.buffers, hxy]

theorem addPool (h : v.Agree s t) {l l' : PoolLimits} (hl : v.ofPool (.ofLimits l) = v.ofPool (.ofLimits l')) :
    v.Agree (s.addPool l).2 (t.addPool l').2 where
  pools := by simp only [Store.addPool, Table.map_push, h.pools, hl]
  buffers := h.buffers

theorem acquireUnpooled (h : v.Agree s t) :
    s.acquireUnpooled.1 = t.acquireUnpooled.1 ∧ v.Agree s.acquireUnpooled.2 t.acquireUnpooled.2 := by
  have hnext := h.next_eq
  simp only [Store.acquireUnpooled_eq]
  refine ⟨hnext, h.pools, ?_⟩
  simp only [Table.map_push, h.buffers, hnext]

theorem acquirePooled (h : v.Agree s t) (law : v.Lawful) (p : PoolId) :
    (s.acquirePooled p).1 = (t.acquirePooled p).1 ∧ v.Agree (s.acquirePooled p).2 (t.acquirePooled p).2 := by
  obtain ⟨hs, ht⟩ | ⟨x, y, hs, ht, hxy⟩ := Table.get?_cases_of_map_eq h.pools p
  · rw [Store.acquirePooled_of_none hs, Store.acquirePooled_of_none ht]
    exact h.acquireUnpooled
  · have hnext := h.next_eq
    rw [Store.acquirePooled_of_some hs, Store.acquirePooled_of_some ht]
    refine ⟨hnext, ?_, ?_⟩
    · simp only [Table.map_set, h.pools, hnext, law.take _ hxy]
    · simp only [Table.map_push, h.buffers, hnext, law.hand p _ hxy]

theorem clone (h : v.Agree s t) (law : v.Lawful) (b : BufferId) : v.Agree (s.clone b) (t.clone b) := by
  obtain ⟨hs, ht⟩ | ⟨x, y, hs, ht, hxy⟩ := Table.get?_cases_of_map_eq h.buffers b
  · rw [Store.clone_of_none hs, Store.clone_of_none ht]
    exact h
  · rw [Store.clone_of_some hs, Store.clone_of_some ht]
    apply h.set b
    unfold Store.moreOne
    rw [law.refs hxy]
    exact law.count _ hxy

theorem write? (h : v.Agree s t) (law : v.Lawful) (b : BufferId) (e : Edit) :
    v.Agree ((s.write? b e.run).getD s) ((t.write? b e.run).getD t) := by
  obtain ⟨hs, ht⟩ | ⟨x, y, hs, ht, hxy⟩ := Table.get?_cases_of_map_eq h.buffers b
  · rw [Store.write?_of_none hs, Store.write?_of_none ht]
    exact h
  · have hrefs := law.refs hxy
    by_cases hone : x.slot.refs = 1
    · rw [Store.write?_of_unique hs hone, Store.write?_of_unique ht (hrefs ▸ hone)]
      exact h.set b (law.edit e hxy)
    · rw [Store.write?_of_shared hs hone, Store.write?_of_shared ht (hrefs ▸ hone)]
      exact h

theorem poolsAfter (h : v.Agree s t) (law : v.Lawful) {x y : Buffer} (hxy : v.ofBuffer x = v.ofBuffer y) :
    (s.poolsAfter x).map v.ofPool = (t.poolsAfter y).map v.ofPool := by
  unfold Store.poolsAfter
  rw [← law.owner hxy]
  cases x.slot.pool with
  | none => exact h.pools
  | some p =>
    obtain ⟨hs, ht⟩ | ⟨a, b, hs, ht, hab⟩ := Table.get?_cases_of_map_eq h.pools p
    · simp only [Table.modify_of_none hs, Table.modify_of_none ht, h.pools]
    · simp only [Table.modify_eq_set hs, Table.modify_eq_set ht, Table.map_set, h.pools, Store.lessOne, law.refs hxy,
        law.recycle _ hab hxy]

theorem release (h : v.Agree s t) (law : v.Lawful) (b : BufferId) : v.Agree (s.release b) (t.release b) := by
  obtain ⟨hs, ht⟩ | ⟨x, y, hs, ht, hxy⟩ := Table.get?_cases_of_map_eq h.buffers b
  · rw [Store.release_of_none hs, Store.release_of_none ht]
    exact h
  · have hrefs := law.refs hxy
    by_cases hlast : x.slot.refs = 1
    · rw [Store.release_of_last hs hlast, Store.release_of_last ht (hrefs ▸ hlast)]
      refine ⟨h.poolsAfter law hxy, ?_⟩
      simp only [Table.map_erase, h.buffers]
    · rw [Store.release_of_shared hs hlast, Store.release_of_shared ht (hrefs ▸ hlast)]
      apply h.set b
      unfold Store.lessOne
      rw [hrefs]
      exact law.count _ hxy

end Agree

end Facet

/-! ### Runs of ledgers -/

namespace Ledger

variable {α β γ : Type} {v : Facet α β} {l l' : Ledger}

/-- The same handles are out, on stores that agree. -/
structure Agree (v : Facet α β) (l l' : Ledger) : Prop where
  handles : l.handles = l'.handles
  store : v.Agree l.store l'.store

theorem Agree.withHandle (h : Agree v l l') (hd : HandleId) {act act' : BufferId → Ledger}
    (hact : ∀ b, Agree v (act b) (act' b)) : Agree v (l.withHandle hd act) (l'.withHandle hd act') := by
  unfold Ledger.withHandle
  rw [← h.handles]
  cases l.handles.get? hd with
  | none => exact h
  | some b => exact hact b

theorem Agree.step (h : Agree v l l') (law : v.Lawful) (op : HandleOp) : Agree v (l.step op) (l'.step op) := by
  cases op with
  | acquire p =>
    obtain ⟨hid, hstore⟩ := h.store.acquirePooled law p
    refine ⟨?_, hstore⟩
    simp only [Ledger.step, h.handles, hid]
  | acquireUnpooled =>
    obtain ⟨hid, hstore⟩ := h.store.acquireUnpooled
    refine ⟨?_, hstore⟩
    simp only [Ledger.step, h.handles, hid]
  | clone hd =>
    apply h.withHandle hd
    intro b
    exact ⟨by rw [h.handles], h.store.clone law b⟩
  | write hd e =>
    apply h.withHandle hd
    intro b
    exact ⟨h.handles, h.store.write? law b e⟩
  | drop hd =>
    apply h.withHandle hd
    intro b
    exact ⟨by rw [h.handles], h.store.release law b⟩

theorem Agree.run (h : Agree v l l') (law : v.Lawful) (ops : List HandleOp) : Agree v (l.run ops) (l'.run ops) := by
  induction ops generalizing l l' with
  | nil => exact h
  | cons op rest ih => exact ih (h.step law op)

section Start

variable {κ : Type} {key : PoolLimits → κ} {limits limits' : List PoolLimits}

theorem agree_addPools (hkey : ∀ {a b}, key a = key b → v.ofPool (.ofLimits a) = v.ofPool (.ofLimits b))
    (hlimits : limits.map key = limits'.map key) {s t : Store} (h : v.Agree s t) :
    v.Agree (limits.foldl (fun s l => (s.addPool l).2) s) (limits'.foldl (fun s l => (s.addPool l).2) t) := by
  induction limits generalizing limits' s t with
  | nil =>
    have hnil : limits' = [] := by simpa using hlimits.symm
    rw [hnil]
    exact h
  | cons a rest ih =>
    cases limits' with
    | nil => simp at hlimits
    | cons b rest' =>
      simp only [List.map_cons, List.cons.injEq] at hlimits
      exact ih hlimits.2 (h.addPool (hkey hlimits.1))

theorem agree_start (hkey : ∀ {a b}, key a = key b → v.ofPool (.ofLimits a) = v.ofPool (.ofLimits b))
    (hlimits : limits.map key = limits'.map key) : Agree v (start limits) (start limits') :=
  ⟨rfl, agree_addPools hkey hlimits ⟨rfl, rfl⟩⟩

end Start

/-! ### What callers see -/

/-- The buffer of a handle that is out. -/
def buffer? (l : Ledger) (h : HandleId) : Option Buffer := (l.handles.get? h).bind l.store.buffers.get?

theorem Agree.buffer? (h : Agree v l l') (see : β → γ) (hd : HandleId) :
    (l.buffer? hd).map (fun b => see (v.ofBuffer b)) = (l'.buffer? hd).map fun b => see (v.ofBuffer b) := by
  unfold Ledger.buffer?
  rw [← h.handles]
  cases l.handles.get? hd with
  | none => rfl
  | some b =>
    obtain ⟨hs, ht⟩ | ⟨x, y, hs, ht, hxy⟩ := Table.get?_cases_of_map_eq h.store.buffers b
    · simp [hs, ht]
    · simp [hs, ht, hxy]

theorem Agree.pool? (h : Agree v l l') (see : α → γ) (p : PoolId) :
    (l.store.pools.get? p).map (fun x => see (v.ofPool x)) =
      (l'.store.pools.get? p).map fun x => see (v.ofPool x) := by
  obtain ⟨hs, ht⟩ | ⟨x, y, hs, ht, hxy⟩ := Table.get?_cases_of_map_eq h.store.pools p
  · simp [hs, ht]
  · simp [hs, ht, hxy]

/-- What is seen of the nodes: the octets and the capacity behind every handle, whether it may write, how many nodes
every pool has parked, and its counts. -/
structure NodesAlike (l l' : Ledger) : Prop where
  bytes : ∀ h, (l.buffer? h).map (·.node.bytes) = (l'.buffer? h).map (·.node.bytes)
  capacity : ∀ h, (l.buffer? h).map (·.node.capacity) = (l'.buffer? h).map (·.node.capacity)
  unique : ∀ h, (l.buffer? h).map (·.slot.refs == 1) = (l'.buffer? h).map (·.slot.refs == 1)
  parked : ∀ p, (l.store.pools.get? p).map (·.nodes.free.length) = (l'.store.pools.get? p).map (·.nodes.free.length)
  counts : ∀ p, (l.store.pools.get? p).map (·.nodes.counts) = (l'.store.pools.get? p).map (·.nodes.counts)

/-- What is seen of the slots: how many handles every buffer counts, whether it belongs to a pool, how many slots
every pool has parked, and its counts. -/
structure SlotsAlike (l l' : Ledger) : Prop where
  refs : ∀ h, (l.buffer? h).map (·.slot.refs) = (l'.buffer? h).map (·.slot.refs)
  pooled : ∀ h, (l.buffer? h).map (·.isPooled) = (l'.buffer? h).map (·.isPooled)
  parked : ∀ p, (l.store.pools.get? p).map (·.slots.free.length) = (l'.store.pools.get? p).map (·.slots.free.length)
  counts : ∀ p, (l.store.pools.get? p).map (·.slots.counts) = (l'.store.pools.get? p).map (·.slots.counts)

/-- A handle refers to the node that another one, at the same time or at another, refers to. -/
def SameNode (l : Ledger) (h : HandleId) (m : Ledger) (k : HandleId) : Prop :=
  ∃ x y, l.buffer? h = some x ∧ m.buffer? k = some y ∧ x.node.id = y.node.id

theorem Agree.nodesAlike (h : Agree .nodes l l') : NodesAlike l l' where
  bytes := h.buffer? fun x => x.1.bytes
  capacity := h.buffer? fun x => x.1.capacity
  unique := h.buffer? fun x => x.2.1 == 1
  parked := h.pool? fun x => x.2.free.length
  counts := h.pool? fun x => x.2.counts

theorem Agree.slotsAlike (h : Agree .slots l l') : SlotsAlike l l' where
  refs := h.buffer? fun x => x.refs
  pooled := h.buffer? fun x => x.pool.isSome
  parked := h.pool? fun x => x.2.free.length
  counts := h.pool? fun x => x.2.counts

theorem sameNode_iff (l m : Ledger) (h k : HandleId) :
    l.SameNode h m k ↔ ∃ i, (l.buffer? h).map (·.node.id) = some i ∧ (m.buffer? k).map (·.node.id) = some i := by
  simp only [SameNode, Option.map_eq_some_iff]
  constructor
  · rintro ⟨x, y, hx, hy, hid⟩
    exact ⟨y.node.id, ⟨x, hx, hid⟩, y, hy, rfl⟩
  · rintro ⟨i, ⟨x, hx, hxi⟩, y, hy, hyi⟩
    exact ⟨x, y, hx, hy, hxi.trans hyi.symm⟩

theorem Agree.sameNode_iff {m m' : Ledger} (h : Agree .nodes l l') (hm : Agree .nodes m m') (hd k : HandleId) :
    l.SameNode hd m k ↔ l'.SameNode hd m' k := by
  have hl := h.buffer? (fun x => x.1.id) hd
  have hk := hm.buffer? (fun x => x.1.id) k
  simp only [Facet.nodes] at hl hk
  rw [Ledger.sameNode_iff, Ledger.sameNode_iff, hl, hk]

/-- Pools with the same limits on nodes look alike on the side of the nodes, at every point of a run and whatever
their limits on slots are, and their handles share nodes alike; pools with the same limits on slots look alike on the
side of the slots, whatever their limits on nodes are. -/
theorem parts_independent (limits limits' : List PoolLimits) (ops : List HandleOp) :
    (limits.map (·.maxFreeNodes) = limits'.map (·.maxFreeNodes) →
      ∀ past, past <+: ops →
        NodesAlike ((start limits).run past) ((start limits').run past) ∧
        ∀ later, later <+: ops → ∀ h k,
          ((start limits).run past).SameNode h ((start limits).run later) k ↔
            ((start limits').run past).SameNode h ((start limits').run later) k) ∧
    (limits.map (·.maxFreeSlots) = limits'.map (·.maxFreeSlots) →
      ∀ past, past <+: ops → SlotsAlike ((start limits).run past) ((start limits').run past)) := by
  constructor
  · intro hlimits past _
    have hstart : Agree .nodes (start limits) (start limits') := by
      refine agree_start (fun hkey => ?_) hlimits
      simp only [Facet.nodes, Pool.ofLimits, hkey]
    have hpast := hstart.run Facet.lawful_nodes past
    refine ⟨hpast.nodesAlike, ?_⟩
    intro later _ h k
    exact hpast.sameNode_iff (hstart.run Facet.lawful_nodes later) h k
  · intro hlimits past _
    have hstart : Agree .slots (start limits) (start limits') := by
      refine agree_start (fun hkey => ?_) hlimits
      simp only [Facet.slots, Pool.ofLimits, hkey]
    exact (hstart.run Facet.lawful_slots past).slotsAlike

/- Two buffers come and go and two more come. The first pool has room for one node and for every slot; the second keeps
no slot and the third keeps no node. -/
theorem parts_independent_tight :
    let ops : List HandleOp :=
      [.acquire 0, .acquire 0, .write 0 (.extend [104, 105]), .drop 0, .drop 1, .acquire 0, .acquire 0]
    let counts (limits : PoolLimits) :=
      (((start [limits]).run ops).store.pools.get? 0).map fun x => (x.nodes.counts, x.slots.counts)
    NodesAlike ((start [⟨some 1, none⟩]).run ops) ((start [⟨some 1, some 0⟩]).run ops) ∧
      SlotsAlike ((start [⟨some 1, none⟩]).run ops) ((start [⟨some 0, none⟩]).run ops) ∧
      counts ⟨some 1, none⟩ = some (⟨3, 1, 1⟩, ⟨2, 2, 0⟩) ∧
      counts ⟨some 1, some 0⟩ = some (⟨3, 1, 1⟩, ⟨4, 0, 2⟩) ∧
      counts ⟨some 0, none⟩ = some (⟨4, 0, 2⟩, ⟨2, 2, 0⟩) := by
  intro ops counts
  have hnodes := (parts_independent [⟨some 1, none⟩] [⟨some 1, some 0⟩] ops).1 (by decide) ops List.prefix_rfl
  have hslots := (parts_independent [⟨some 1, none⟩] [⟨some 0, none⟩] ops).2 (by decide) ops List.prefix_rfl
  exact ⟨hnodes.1, hslots, by decide, by decide, by decide⟩

end Ledger

end Logbook
