import Logbook.Buffer.Pool
import Logbook.Table

/-!
# Buffers

The store holds every live buffer, the pools and the factories. A buffer lives as long as it has handles: it is
made with one, `clone` adds one, `release` takes one away, and with the last one its parts return to its pool.
Only the one who holds the only handle may write.

A factory is a source of buffers for log entries. Besides the plain ones, which take buffers from a pool or
make them anew, there is one that keeps a handle of its own on every buffer that it gives out, and one whose
buffers come with old text in them.
-/

namespace Logbook

abbrev PoolId := Nat

abbrev BufferId := Nat

abbrev FactoryId := Nat

structure Buffer where
  node : Node
  slot : Slot
  deriving DecidableEq, Repr

namespace Buffer

def isPooled (b : Buffer) : Bool := b.slot.pool.isSome

open Text (Shown)

def shown (b : Buffer) : Shown :=
  .record "SharedBuffer"
    [("len", .nat b.node.bytes.length), ("refs", .nat b.slot.refs), ("pooled", .bool b.isPooled)]

end Buffer

inductive Source where
  /-- New buffers that belong to no pool. -/
  | heap
  /-- Buffers of a pool. -/
  | pool (p : PoolId)
  /-- Buffers of a pool, on which the factory keeps a handle. -/
  | aliasing (p : PoolId)
  /-- Buffers of a pool that hold old text. -/
  | stale (p : PoolId)
  deriving DecidableEq, Repr

structure Factory where
  source : Source
  /-- Handles that the factory keeps. -/
  held : List BufferId
  deriving DecidableEq, Repr

structure Store where
  pools : Table Pool
  buffers : Table Buffer
  factories : Table Factory

namespace Store

def empty : Store := ⟨.empty, .empty, .empty⟩

instance : Inhabited Store := ⟨empty⟩

/-- The number of the next buffer. New parts of it carry the same number. -/
def nextBuffer (s : Store) : BufferId := s.buffers.next

def addPool (s : Store) (limits : PoolLimits) : PoolId × Store :=
  (s.pools.next, { s with pools := s.pools.push (.ofLimits limits) })

def addFactory (s : Store) (source : Source) : FactoryId × Store :=
  (s.factories.next, { s with factories := s.factories.push ⟨source, []⟩ })

/-- A new buffer that belongs to no pool. -/
def acquireUnpooled (s : Store) : BufferId × Store :=
  let id := s.nextBuffer
  (id, { s with buffers := s.buffers.push ⟨.fresh id, { Slot.fresh id with refs := 1 }⟩ })

/-- A buffer of a pool, empty and with one handle. -/
def acquirePooled (s : Store) (p : PoolId) : BufferId × Store :=
  match s.pools.get? p with
  | none => s.acquireUnpooled
  | some pool =>
    let id := s.nextBuffer
    let ((node, slot), pool) := pool.take id
    (id, { s with
      pools := s.pools.set p pool
      buffers := s.buffers.push ⟨node, { slot with refs := 1, pool := some p }⟩ })

/-- One handle more. -/
def clone (s : Store) (b : BufferId) : Store :=
  { s with
    buffers := s.buffers.modify b fun buffer =>
      { buffer with slot := { buffer.slot with refs := buffer.slot.refs + 1 } } }

/-- One handle less. With the last one the buffer is gone and its parts return to its pool. -/
def release (s : Store) (b : BufferId) : Store :=
  match s.buffers.get? b with
  | none => s
  | some buffer =>
    let slot := { buffer.slot with refs := buffer.slot.refs - 1 }
    if buffer.slot.refs = 1 then
      { s with
        buffers := s.buffers.erase b
        pools :=
          match slot.pool with
          | some p => s.pools.modify p (·.recycle buffer.node slot)
          | none => s.pools }
    else { s with buffers := s.buffers.set b { buffer with slot := slot } }

def releaseAll (s : Store) (bs : List BufferId) : Store := bs.foldl release s

/-- Change the contents of a buffer through its only handle; none if it has others. -/
def write? (s : Store) (b : BufferId) (f : Node → Node) : Option Store :=
  match s.buffers.get? b with
  | some buffer =>
    if buffer.slot.refs = 1 then
      some { s with buffers := s.buffers.set b { buffer with node := f buffer.node } }
    else none
  | none => none

/-- The octets of a buffer. -/
def bytes (s : Store) (b : BufferId) : Bytes :=
  match s.buffers.get? b with
  | some buffer => buffer.node.bytes
  | none => []

/-- What old text looks like. -/
def staleText : Bytes := utf8 "stale"

/-- A buffer from a factory. -/
def acquire (s : Store) (f : FactoryId) : BufferId × Store :=
  match s.factories.get? f with
  | none => s.acquireUnpooled
  | some factory =>
    match factory.source with
    | .heap => s.acquireUnpooled
    | .pool p => s.acquirePooled p
    | .aliasing p =>
      let (b, s) := s.acquirePooled p
      let s := s.clone b
      (b, { s with factories := s.factories.set f { factory with held := factory.held ++ [b] } })
    | .stale p =>
      let (b, s) := s.acquirePooled p
      (b, (s.write? b (·.extend staleText)).getD s)

/-- The end of a factory: it gives back the handles that it keeps. -/
def dropFactory (s : Store) (f : FactoryId) : Store :=
  match s.factories.get? f with
  | some factory => { s.releaseAll factory.held with factories := s.factories.erase f }
  | none => s

end Store

end Logbook
