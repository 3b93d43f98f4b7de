import Logbook.Proofs.Bookkeeping

/-!
# The ledger of handles

A store together with the handles that are out. Handles are acquired, cloned, written through and dropped, in any
order and any number of them; the ledger stays sound on every such run.
-/

namespace Logbook

abbrev HandleId := Nat

/-- A change of contents through the only handle of a buffer. The octets and the room may become anything; the
node stays the one that it is. -/
structure Edit where
  run : Node → Node
  keeps_id : ∀ n, (run n).id = n.id

namespace Edit

def extend (bs : Bytes) : Edit := ⟨(·.extend bs), fun _ => rfl⟩

end Edit

structure Ledger where
  store : Store
  /-- The handles that are out, each with its buffer. -/
  handles : Table BufferId

/-- What callers do with handles. Handles that are gone are passed by. -/
inductive HandleOp where
  | acquire (p : PoolId)
  | acquireUnpooled
  | clone (h : HandleId)
  | write (h : HandleId) (edit : Edit)
  | drop (h : HandleId)

/-- Is this an acquisition from the pool? -/
def HandleOp.isAcquire (p : PoolId) : HandleOp → Bool
  | acquire q => q == p
  | _ => false

namespace Ledger

/-- Fresh pools with the given limits, numbered in order, and no handles. -/
def start (limits : List PoolLimits) : Ledger :=
  ⟨limits.foldl (fun s l => (s.addPool l).2) .empty, .empty⟩

/-- Let `act` work on the buffer of a handle, if the handle is out. -/
def withHandle (l : Ledger) (h : HandleId) (act : BufferId → Ledger) : Ledger :=
  match l.handles.get? h with
  | some b => act b
  | none => l

theorem withHandle_of_some {l : Ledger} {h : HandleId} {b : BufferId} (hget : l.handles.get? h = some b)
    (act : BufferId → Ledger) : l.withHandle h act = act b := by
  unfold withHandle
  rw [hget]

theorem withHandle_of_none {l : Ledger} {h : HandleId} (hget : l.handles.get? h = none)
    (act : BufferId → Ledger) : l.withHandle h act = l := by
  unfold withHandle
  rw [hget]

def step (l : Ledger) : HandleOp → Ledger
  | .acquire p =>
    let (b, store) := l.store.acquirePooled p
    ⟨store, l.handles.push b⟩
  | .acquireUnpooled =>
    let (b, store) := l.store.acquireUnpooled
    ⟨store, l.handles.push b⟩
  | .clone h => l.withHandle h fun b => ⟨l.store.clone b, l.handles.push b⟩
  | .write h edit => l.withHandle h fun b => { l with store := (l.store.write? b edit.run).getD l.store }
  | .drop h => l.withHandle h fun b => ⟨l.store.release b, l.handles.erase h⟩

def run (l : Ledger) (ops : List HandleOp) : Ledger := ops.foldl step l

/-- How many handles on a buffer are out. -/
def handleCount (l : Ledger) (b : BufferId) : Nat := l.handles.total fun c => if c = b then 1 else 0

/-! ### One step -/

/-- What every step keeps, where `acquired` buffers of each pool have been handed out. -/
structure Inv (l : Ledger) (acquired : PoolId → Nat) : Prop where
  nodes : l.store.Distinct .nodes
  slots : l.store.Distinct .slots
  clean : l.store.Clean
  balanced : l.store.Balanced acquired
  counted : l.store.Counted
  refs : ∀ b, l.store.refsOf b = l.handleCount b

variable {l : Ledger} {acquired : PoolId → Nat}

theorem handleCount_push (store : Store) (handles : Table BufferId) (b c : BufferId) :
    (⟨store, handles.push b⟩ : Ledger).handleCount c =
      handles.total (fun x => if x = c then 1 else 0) + if b = c then 1 else 0 := by
  unfold handleCount
  rw [Table.total_push]
  omega

/-- A buffer with a handle out is alive. -/
theorem Inv.exists_buffer (h : l.Inv acquired) {hd : HandleId} {b : BufferId} (hget : l.handles.get? hd = some b) :
    ∃ buffer, l.store.buffers.get? b = some buffer := by
  apply Store.exists_of_refsOf_pos
  have hle := Table.le_total hget fun c => if c = b then 1 else 0
  rw [if_pos rfl] at hle
  have hrefs := h.refs b
  unfold handleCount at hrefs
  omega

theorem Inv.acquire (h : l.Inv acquired) (p : PoolId) {acquired' : PoolId → Nat}
    (hacq : ∀ q, acquired' q = acquired q + if p = q then 1 else 0) :
    (l.step (.acquire p)).Inv acquired' := by
  obtain ⟨x, hid, hpush, _, hrefs, _⟩ := l.store.acquirePooled_push p
  refine ⟨h.nodes.acquirePooled PartIds.lawful_nodes p, h.slots.acquirePooled PartIds.lawful_slots p,
    h.clean.acquirePooled p, h.balanced.acquirePooled p hacq, h.counted.push hpush hrefs, ?_⟩
  intro b
  have hb := h.refs b
  unfold handleCount at hb
  show (l.store.acquirePooled p).2.refsOf b = _
  rw [Store.refsOf_push hpush hrefs, step, handleCount_push, hid, hb]

theorem Inv.acquireUnpooled (h : l.Inv acquired) : (l.step .acquireUnpooled).Inv acquired := by
  refine ⟨h.nodes.acquireUnpooled PartIds.lawful_nodes, h.slots.acquireUnpooled PartIds.lawful_slots,
    h.clean, h.balanced.acquireUnpooled, h.counted.push rfl rfl, ?_⟩
  intro b
  have hb := h.refs b
  unfold handleCount at hb
  show l.store.acquireUnpooled.2.refsOf b = _
  rw [Store.refsOf_push rfl rfl, step, handleCount_push, hb]
  rfl

/- Cloning and writing change a buffer in place: its parts and its pool stay, and its count of handles is the one
that the handles out then have. -/
theorem Inv.set (h : l.Inv acquired) {b : BufferId} {old : Buffer} (new : Buffer) (handles : Table BufferId)
    (hold : l.store.buffers.get? b = some old) (hnode : new.node.id = old.node.id)
    (hslot : new.slot.id = old.slot.id) (hpool : new.slot.pool = old.slot.pool) (hpos : 0 < new.slot.refs)
    (hrefs : ∀ c, (if c = b then new.slot.refs else l.store.refsOf c) =
      handles.total fun x => if x = c then 1 else 0) :
    (⟨{ l.store with buffers := l.store.buffers.set b new }, handles⟩ : Ledger).Inv acquired where
  nodes := h.nodes.of_le rfl fun i =>
    Nat.le_of_eq (Store.uses_set_buffer PartIds.lawful_nodes new hold hnode hslot i)
  slots := h.slots.of_le rfl fun i =>
    Nat.le_of_eq (Store.uses_set_buffer PartIds.lawful_slots new hold hnode hslot i)
  clean := h.clean
  balanced := h.balanced.set new hold hpool
  counted := h.counted.set new hpos
  refs := fun c => (Store.refsOf_set new hold c).trans (hrefs c)

theorem Inv.clone (h : l.Inv acquired) (hd : HandleId) : (l.step (.clone hd)).Inv acquired := by
  cases hget : l.handles.get? hd with
  | none =>
    rw [step, withHandle_of_none hget]
    exact h
  | some b =>
    obtain ⟨buffer, hb⟩ := h.exists_buffer hget
    rw [step, withHandle_of_some hget, Store.clone_of_some hb]
    refine h.set (Store.moreOne buffer) _ hb rfl rfl rfl (Nat.succ_pos _) fun c => ?_
    have hc := h.refs c
    unfold handleCount at hc
    rw [Table.total_push, ← hc]
    by_cases he : c = b
    · subst he
      rw [if_pos rfl, if_pos rfl, Store.refsOf_of_some hb, Nat.add_comm]
      rfl
    · rw [if_neg he, if_neg (Ne.symm he), Nat.zero_add]

theorem Inv.write (h : l.Inv acquired) (hd : HandleId) (edit : Edit) : (l.step (.write hd edit)).Inv acquired := by
  cases hget : l.handles.get? hd with
  | none =>
    rw [step, withHandle_of_none hget]
    exact h
  | some b =>
    obtain ⟨buffer, hb⟩ := h.exists_buffer hget
    rw [step, withHandle_of_some hget]
    by_cases hrefs : buffer.slot.refs = 1
    · rw [Store.write?_of_unique hb hrefs, Option.getD_some]
      refine h.set _ _ hb (edit.keeps_id buffer.node) rfl rfl (h.counted b buffer hb) fun c => ?_
      refine Eq.trans ?_ (h.refs c)
      split
      · rename_i he
        rw [he, Store.refsOf_of_some hb]
      · rfl
    · rw [Store.write?_of_shared hb hrefs, Option.getD_none]
      exact h

theorem Inv.drop (h : l.Inv acquired) (hd : HandleId) : (l.step (.drop hd)).Inv acquired := by
  cases hget : l.handles.get? hd with
  | none =>
    rw [step, withHandle_of_none hget]
    exact h
  | some b =>
    obtain ⟨buffer, hb⟩ := h.exists_buffer hget
    rw [step, withHandle_of_some hget]
    refine ⟨h.nodes.release PartIds.lawful_nodes b, h.slots.release PartIds.lawful_slots b,
      h.clean.release b, h.balanced.release b, h.counted.release b, ?_⟩
    intro c
    have hrel := Store.refsOf_release hb (h.counted b buffer hb) c
    have herase := Table.total_erase hget fun x => if x = c then 1 else 0
    have hc := h.refs c
    unfold handleCount at hc ⊢
    dsimp only
    omega

theorem Inv.step (h : l.Inv acquired) (op : HandleOp) :
    (l.step op).Inv fun p => acquired p + if op.isAcquire p then 1 else 0 := by
  cases op with
  | acquire p => exact h.acquire p fun q => by simp only [HandleOp.isAcquire, beq_iff_eq]
  | acquireUnpooled => exact h.acquireUnpooled
  | clone hd => exact h.clone hd
  | write hd edit => exact h.write hd edit
  | drop hd => exact h.drop hd

theorem limitsOf_step (l : Ledger) (op : HandleOp) (p : PoolId) :
    (l.step op).store.limitsOf p = l.store.limitsOf p := by
  cases op with
  | acquire q => exact Store.limitsOf_acquirePooled l.store q p
  | acquireUnpooled => rfl
  | clone hd =>
    unfold step withHandle
    dsimp only
    split <;> rfl
  | write hd edit =>
    unfold step withHandle
    dsimp only
    split
    · exact Store.limitsOf_write? p
    · rfl
  | drop hd =>
    unfold step withHandle
    dsimp only
    split
    · exact Store.limitsOf_release l.store _ p
    · rfl

/-- A step gives out one handle at most. -/
theorem handles_step_le (l : Ledger) (op : HandleOp) :
    (l.step op).handles.total (fun _ => 1) ≤ l.handles.total (fun _ => 1) + 1 := by
  cases op with
  | acquire p =>
    show (l.handles.push _).total _ ≤ _
    rw [Table.total_push]
    omega
  | acquireUnpooled =>
    show (l.handles.push _).total _ ≤ _
    rw [Table.total_push]
    omega
  | clone hd =>
    unfold step withHandle
    dsimp only
    split
    · rw [Table.total_push]
      omega
    · exact Nat.le_succ _
  | write hd edit =>
    unfold step withHandle
    dsimp only
    split <;> exact Nat.le_succ _
  | drop hd =>
    unfold step withHandle
    dsimp only
    split
    · rename_i hget
      have herase := Table.total_erase hget fun _ => 1
      dsimp only
      omega
    · exact Nat.le_succ _

/-! ### Whole runs -/

theorem Inv.run (h : l.Inv acquired) (ops : List HandleOp) :
    (l.run ops).Inv fun p => acquired p + ops.countP (·.isAcquire p) := by
  induction ops generalizing l acquired with
  | nil => exact h
  | cons op rest ih =>
    have hrest := ih (h.step op)
    have hcount : (fun p => acquired p + (if op.isAcquire p then 1 else 0) + rest.countP (·.isAcquire p)) =
        fun p => acquired p + (op :: rest).countP (·.isAcquire p) := by
      funext p
      rw [List.countP_cons]
      omega
    rw [← hcount]
    exact hrest

theorem limitsOf_run (l : Ledger) (ops : List HandleOp) (p : PoolId) :
    (l.run ops).store.limitsOf p = l.store.limitsOf p := by
  induction ops generalizing l with
  | nil => rfl
  | cons op rest ih => exact (ih (l.step op)).trans (limitsOf_step l op p)

theorem handles_run_le (l : Ledger) (ops : List HandleOp) :
    (l.run ops).handles.total (fun _ => 1) ≤ l.handles.total (fun _ => 1) + ops.length := by
  induction ops generalizing l with
  | nil => exact Nat.le_refl _
  | cons op rest ih =>
    have hrest := ih (l.step op)
    have hstep := handles_step_le l op
    show ((l.step op).run rest).handles.total _ ≤ _
    rw [List.length_cons]
    omega

/-! ### The start -/

theorem pools_addPools (limits : List PoolLimits) (s : Store) (p : Nat) :
    (limits.foldl (fun s l => (s.addPool l).2) s).pools.get? p =
      if s.pools.next ≤ p then (limits[p - s.pools.next]?).map .ofLimits else s.pools.get? p := by
  induction limits generalizing s with
  | nil =>
    split
    · rename_i hle
      exact Table.get?_eq_none_of_next_le hle
    · rfl
  | cons l rest ih =>
    have hnext : (s.addPool l).2.pools.next = s.pools.next + 1 := rfl
    rw [List.foldl_cons, ih, hnext]
    by_cases hp : s.pools.next + 1 ≤ p
    · have hidx : p - s.pools.next = p - (s.pools.next + 1) + 1 := by omega
      rw [if_pos hp, if_pos (by omega), hidx, List.getElem?_cons_succ]
    · rw [if_neg hp]
      show (s.pools.push _).get? p = _
      rw [Table.get?_push]
      by_cases he : p = s.pools.next
      · rw [if_pos he, if_pos (by omega), he, Nat.sub_self]
        rfl
      · rw [if_neg he, if_neg (by omega)]

theorem buffers_addPools (limits : List PoolLimits) (s : Store) :
    (limits.foldl (fun s l => (s.addPool l).2) s).buffers = s.buffers := by
  induction limits generalizing s with
  | nil => rfl
  | cons l rest ih => exact ih (s.addPool l).2

theorem pools_start (limits : List PoolLimits) (p : PoolId) :
    (start limits).store.pools.get? p = (limits[p]?).map .ofLimits :=
  (pools_addPools limits .empty p).trans (if_pos (Nat.zero_le p))

theorem buffers_start (limits : List PoolLimits) : (start limits).store.buffers = .empty :=
  buffers_addPools limits .empty

theorem inv_start (limits : List PoolLimits) : (start limits).Inv fun _ => 0 := by
  have hpool : ∀ p pool, (start limits).store.pools.get? p = some pool → ∃ l, pool = .ofLimits l := by
    intro p pool hp
    rw [pools_start] at hp
    obtain ⟨l, _, rfl⟩ := Option.map_eq_some_iff.mp hp
    exact ⟨l, rfl⟩
  have hlists : ∀ (f : Pool → Nat), (∀ l, f (.ofLimits l) = 0) → (start limits).store.pools.total f = 0 := by
    intro f hf
    refine Table.total_eq_zero fun p pool hp => ?_
    obtain ⟨l, rfl⟩ := hpool p pool hp
    exact hf l
  refine ⟨?_, ?_, ?_, ?_, ?_, ?_⟩
  · intro i
    have huses : (start limits).store.uses .nodes i = 0 := by
      unfold Store.uses
      rw [buffers_start, hlists _ fun _ => rfl]
      rfl
    omega
  · intro i
    have huses : (start limits).store.uses .slots i = 0 := by
      unfold Store.uses
      rw [buffers_start, hlists _ fun _ => rfl]
      rfl
    omega
  · intro p pool hp
    obtain ⟨l, rfl⟩ := hpool p pool hp
    exact Pool.clean_ofLimits l
  · intro p pool hp
    obtain ⟨l, rfl⟩ := hpool p pool hp
    unfold Store.liveOf
    rw [buffers_start]
    exact Pool.balanced_ofLimits l
  · intro b buffer hb
    rw [buffers_start] at hb
    cases hb
  · intro b
    unfold Store.refsOf
    rw [buffers_start]
    rfl

/-! ### Soundness -/

/-- What a ledger is like after `ops`, from fresh pools with the given limits on. -/
structure Sound (limits : List PoolLimits) (ops : List HandleOp) (l : Ledger) : Prop where
  /-- The pools are those of the start. -/
  pools : ∀ p, l.store.limitsOf p = limits[p]?
  /-- Free lists know their heights and keep to their limits. -/
  lists : ∀ p pool, l.store.pools.get? p = some pool →
    pool.nodes.free.Within pool.limits.maxFreeNodes ∧ pool.slots.free.Within pool.limits.maxFreeSlots
  /-- Parked nodes are empty and parked slots name no pool. -/
  clean : ∀ p pool, l.store.pools.get? p = some pool →
    (∀ n ∈ pool.nodes.free.items, n.bytes = []) ∧ ∀ s ∈ pool.slots.free.items, s.pool = none
  /-- A live buffer counts its handles, and has some. -/
  refs : ∀ b buffer, l.store.buffers.get? b = some buffer →
    buffer.slot.refs = l.handleCount b ∧ 0 < l.handleCount b
  /-- The buffer of a handle is alive. -/
  held : ∀ h b, l.handles.get? h = some b → ∃ buffer, l.store.buffers.get? b = some buffer
  /-- Different live buffers share no part. -/
  apart : ∀ b c x y, b ≠ c → l.store.buffers.get? b = some x → l.store.buffers.get? c = some y →
    x.node.id ≠ y.node.id ∧ x.slot.id ≠ y.slot.id
  /-- No part of a live buffer is parked. -/
  unparked : ∀ b x p pool, l.store.buffers.get? b = some x → l.store.pools.get? p = some pool →
    x.node.id ∉ pool.nodes.free.items.map (·.id) ∧ x.slot.id ∉ pool.slots.free.items.map (·.id)
  /-- No part is parked twice on one list. -/
  once : ∀ p pool, l.store.pools.get? p = some pool →
    (pool.nodes.free.items.map (·.id)).Nodup ∧ (pool.slots.free.items.map (·.id)).Nodup
  /-- No part is parked in two pools. -/
  single : ∀ p q x y, p ≠ q → l.store.pools.get? p = some x → l.store.pools.get? q = some y →
    (∀ i ∈ x.nodes.free.items.map (·.id), i ∉ y.nodes.free.items.map (·.id)) ∧
    ∀ i ∈ x.slots.free.items.map (·.id), i ∉ y.slots.free.items.map (·.id)
  /-- Nodes that were made are parked, in use or given up, and every acquisition made or reused one. -/
  nodes : ∀ p pool, l.store.pools.get? p = some pool →
    pool.nodes.counts.allocated = pool.nodes.free.length + l.store.liveOf p + pool.nodes.counts.freed ∧
    pool.nodes.counts.allocated + pool.nodes.counts.reused = ops.countP (·.isAcquire p)
  /-- The same of slots. -/
  slots : ∀ p pool, l.store.pools.get? p = some pool →
    pool.slots.counts.allocated = pool.slots.free.length + l.store.liveOf p + pool.slots.counts.freed ∧
    pool.slots.counts.allocated + pool.slots.counts.reused = ops.countP (·.isAcquire p)
  /-- The next buffer of a pool is a new one, empty and with one handle. -/
  acquired : ∀ p < limits.length, ∃ x,
    (l.step (.acquire p)).handles.get? l.handles.next = some (l.store.acquirePooled p).1 ∧
    (l.step (.acquire p)).store.buffers.get? (l.store.acquirePooled p).1 = some x ∧
    l.store.buffers.get? (l.store.acquirePooled p).1 = none ∧
    x.node.bytes = [] ∧ x.slot.refs = 1 ∧ x.slot.pool = some p
  /-- Taking a parked part counts the list down by one, never below zero. -/
  popped : ∀ p pool, l.store.pools.get? p = some pool →
    (∀ n rest, pool.nodes.free.pop = (some n, rest) → rest.length + 1 = pool.nodes.free.length) ∧
    ∀ s rest, pool.slots.free.pop = (some s, rest) → rest.length + 1 = pool.slots.free.length
  /-- No count passes the number of operations, so none of 64 bits runs over in fewer than 2^63 of them. -/
  bounded : (∀ b x, l.store.buffers.get? b = some x → x.slot.refs ≤ ops.length) ∧
    ∀ p pool, l.store.pools.get? p = some pool →
      pool.nodes.free.length + pool.nodes.counts.freed ≤ ops.length ∧
      pool.nodes.counts.allocated + pool.nodes.counts.reused ≤ ops.length ∧
      pool.slots.free.length + pool.slots.counts.freed ≤ ops.length ∧
      pool.slots.counts.allocated + pool.slots.counts.reused ≤ ops.length

theorem pool_of_lt {limits : List PoolLimits} (ops : List HandleOp) {p : PoolId} (hp : p < limits.length) :
    ∃ pool, ((start limits).run ops).store.pools.get? p = some pool := by
  have hlim := limitsOf_run (start limits) ops p
  unfold Store.limitsOf at hlim
  rw [pools_start, List.getElem?_eq_getElem hp] at hlim
  obtain ⟨pool, hpool, _⟩ := Option.map_eq_some_iff.mp hlim
  exact ⟨pool, hpool⟩

/-- What the pool of a new buffer hands out while the invariant holds. -/
theorem Inv.acquired_buffer (h : l.Inv acquired) {p : PoolId} {pool : Pool}
    (hp : l.store.pools.get? p = some pool) :
    ∃ x, (l.step (.acquire p)).handles.get? l.handles.next = some (l.store.acquirePooled p).1 ∧
      (l.step (.acquire p)).store.buffers.get? (l.store.acquirePooled p).1 = some x ∧
      l.store.buffers.get? (l.store.acquirePooled p).1 = none ∧
      x.node.bytes = [] ∧ x.slot.refs = 1 ∧ x.slot.pool = some p := by
  have hclean := (h.clean p pool hp).take l.store.buffers.next
  have hstep : l.step (.acquire p) = ⟨(l.store.acquirePooled p).2, l.handles.push (l.store.acquirePooled p).1⟩ := rfl
  rw [hstep, Store.acquirePooled_of_some hp]
  exact ⟨Store.ofPool p pool l.store.buffers.next, Table.get?_push_next _ _, Table.get?_push_next _ _,
    Table.get?_next _, hclean.1, rfl, rfl⟩

/-- Every run on fresh pools leaves a sound ledger. -/
theorem sound_run (limits : List PoolLimits) (ops : List HandleOp) :
    Sound limits ops ((start limits).run ops) := by
  have h := (inv_start limits).run ops
  simp only [Nat.zero_add] at h
  have hhandles := handles_run_le (start limits) ops
  rw [show (start limits).handles.total (fun _ => 1) = 0 from rfl, Nat.zero_add] at hhandles
  have hcount : ∀ b, ((start limits).run ops).handleCount b ≤ ops.length := by
    intro b
    have hone : ∀ c : BufferId, (if c = b then 1 else 0) ≤ 1 := fun c => by split <;> omega
    exact Nat.le_trans (Table.total_le_total hone) hhandles
  have hacq : ∀ p, ops.countP (·.isAcquire p) ≤ ops.length := fun p => List.countP_le_length
  constructor
  case pools =>
    intro p
    rw [limitsOf_run]
    unfold Store.limitsOf
    rw [pools_start]
    cases limits[p]? <;> rfl
  case lists => exact fun p pool hp => ⟨(h.balanced p pool hp).nodes.within, (h.balanced p pool hp).slots.within⟩
  case clean => exact fun p pool hp => ⟨(h.clean p pool hp).nodes, (h.clean p pool hp).slots⟩
  case refs =>
    intro b buffer hb
    have hrefs := h.refs b
    rw [Store.refsOf_of_some hb] at hrefs
    exact ⟨hrefs, hrefs ▸ h.counted b buffer hb⟩
  case held => exact fun hd b hget => h.exists_buffer hget
  case apart => exact fun b c x y hbc hb hc => ⟨h.nodes.ne_of_ne hbc hb hc, h.slots.ne_of_ne hbc hb hc⟩
  case unparked => exact fun b x p pool hb hp => ⟨h.nodes.not_parked hb hp, h.slots.not_parked hb hp⟩
  case once => exact fun p pool hp => ⟨h.nodes.parked_once hp, h.slots.parked_once hp⟩
  case single =>
    exact fun p q x y hpq hp hq => ⟨h.nodes.parked_apart hpq hp hq, h.slots.parked_apart hpq hp hq⟩
  case nodes =>
    exact fun p pool hp => ⟨(h.balanced p pool hp).nodes.conserved, (h.balanced p pool hp).nodes.handedOut⟩
  case slots =>
    exact fun p pool hp => ⟨(h.balanced p pool hp).slots.conserved, (h.balanced p pool hp).slots.handedOut⟩
  case acquired =>
    intro p hp
    obtain ⟨pool, hpool⟩ := pool_of_lt ops hp
    exact h.acquired_buffer hpool
  case popped =>
    exact fun p pool hp => ⟨fun _ _ => (h.balanced p pool hp).nodes.within.pop_length,
      fun _ _ => (h.balanced p pool hp).slots.within.pop_length⟩
  case bounded =>
    refine ⟨fun b x hb => ?_, fun p pool hp => ?_⟩
    · have hrefs := h.refs b
      rw [Store.refsOf_of_some hb] at hrefs
      exact hrefs ▸ hcount b
    · obtain ⟨⟨_, hn, hn'⟩, ⟨_, hs, hs'⟩⟩ := h.balanced p pool hp
      have hle := hacq p
      dsimp only at hn' hs'
      omega

end Ledger

end Logbook
