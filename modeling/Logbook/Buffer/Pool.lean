import Logbook.Bytes
import Logbook.Buffer.Limits
import Logbook.Text.Shown

/-!
# Pools

A buffer is made of a node, which holds the octets, and a slot, which counts its handles and knows the pool it
belongs to. A pool keeps released nodes and released slots on two free lists of their own, each up to its
limit, and counts what it makes, reuses and gives up.
-/

namespace Logbook

/-- The storage of a buffer. `id` tells nodes apart. -/
structure Node where
  id : Nat
  bytes : Bytes
  capacity : Nat
  deriving DecidableEq, Repr

/-- The bookkeeping of a buffer: how many handles it has, and the pool to which its parts return. A slot that
is parked, or whose buffer has no pool, names none. -/
structure Slot where
  id : Nat
  refs : Nat
  pool : Option Nat
  deriving DecidableEq, Repr

namespace Node

/-- Octets that a buffer holds before it grows. -/
def startCapacity : Nat := 1024

def fresh (id : Nat) : Node := ⟨id, [], startCapacity⟩

/-- Empty the node; what it has grown to stays. -/
def clear (n : Node) : Node := { n with bytes := [] }

/-- Put octets at the end. A node that is too small grows to a power of two. -/
def extend (n : Node) (bs : Bytes) : Node :=
  let length := n.bytes.length + bs.length
  { n with
    bytes := n.bytes ++ bs
    capacity := if n.capacity < length then length.nextPowerOfTwo else n.capacity }

/-- Replace the contents. A node that is too small grows to just the size it needs. -/
def refill (n : Node) (bs : Bytes) : Node :=
  { n with bytes := bs, capacity := max n.capacity bs.length }

end Node

namespace Slot

def fresh (id : Nat) : Slot := ⟨id, 0, none⟩

end Slot

/-- A stack of parked parts and its height. -/
structure FreeList (α : Type) where
  items : List α
  length : Nat
  deriving DecidableEq, Repr

namespace FreeList

variable {α : Type}

def empty : FreeList α := ⟨[], 0⟩

/-- Take the part that was parked last. -/
def pop (l : FreeList α) : Option α × FreeList α :=
  match l.items with
  | [] => (none, l)
  | a :: rest => (some a, ⟨rest, l.length - 1⟩)

/-- Has the list reached its limit? -/
def isFull (l : FreeList α) (limit : Option Nat) : Bool :=
  match limit with
  | some limit => limit ≤ l.length
  | none => false

/-- Park a part, unless the list has reached its limit. -/
def push (l : FreeList α) (limit : Option Nat) (a : α) : Option (FreeList α) :=
  if l.isFull limit then none else some ⟨a :: l.items, l.length + 1⟩

end FreeList

/-- What a pool has made, reused and given up, of one kind of part. -/
structure PartCounts where
  allocated : Nat
  reused : Nat
  freed : Nat
  deriving DecidableEq, Repr

def PartCounts.zero : PartCounts := ⟨0, 0, 0⟩

/-- Parts of one kind: those that are parked, and the counts. -/
structure Parts (α : Type) where
  free : FreeList α
  counts : PartCounts
  deriving DecidableEq, Repr

namespace Parts

variable {α : Type}

def empty : Parts α := ⟨.empty, .zero⟩

/-- A parked part, or the new part `fresh` if none is parked. -/
def take (p : Parts α) (fresh : α) : α × Parts α :=
  match p.free.pop with
  | (some a, free) => (a, ⟨free, { p.counts with reused := p.counts.reused + 1 }⟩)
  | (none, free) => (fresh, ⟨free, { p.counts with allocated := p.counts.allocated + 1 }⟩)

/-- Park a part, or give it up. -/
def park (p : Parts α) (limit : Option Nat) (a : α) : Parts α :=
  match p.free.push limit a with
  | some free => { p with free := free }
  | none => { p with counts := { p.counts with freed := p.counts.freed + 1 } }

end Parts

structure Pool where
  limits : PoolLimits
  nodes : Parts Node
  slots : Parts Slot
  deriving DecidableEq, Repr

namespace Pool

def ofLimits (limits : PoolLimits) : Pool := ⟨limits, .empty, .empty⟩

/-- A node and a slot for a new buffer. Parts that have to be made are numbered `fresh`. -/
def take (p : Pool) (fresh : Nat) : (Node × Slot) × Pool :=
  let (node, nodes) := p.nodes.take (.fresh fresh)
  let (slot, slots) := p.slots.take (.fresh fresh)
  ((node, slot), { p with nodes := nodes, slots := slots })

/-- Take back the parts of a buffer whose last handle is gone. -/
def recycle (p : Pool) (node : Node) (slot : Slot) : Pool :=
  { p with
    nodes := p.nodes.park p.limits.maxFreeNodes node.clear
    slots := p.slots.park p.limits.maxFreeSlots { slot with pool := none } }

open Text (Shown)

def shown (p : Pool) : Shown :=
  let limit (n : Option Nat) : Shown := .option (n.map .nat)
  .record "BufferPool"
    [("limits", .record "PoolLimits"
      [("max_free_nodes", limit p.limits.maxFreeNodes),
       ("max_free_slots", limit p.limits.maxFreeSlots)]),
     ("stats", .record "PoolStats"
      [("nodes_allocated", .nat p.nodes.counts.allocated),
       ("slots_allocated", .nat p.slots.counts.allocated),
       ("nodes_reused", .nat p.nodes.counts.reused),
       ("slots_reused", .nat p.slots.counts.reused),
       ("nodes_freed", .nat p.nodes.counts.freed),
       ("slots_freed", .nat p.slots.counts.freed)])]

end Pool

end Logbook
