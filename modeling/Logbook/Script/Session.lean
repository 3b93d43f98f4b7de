import Logbook.Script.Operation

/-!
# Sessions

A session keeps objects of the world under names. An object lives as long as something holds it: a name, a
logger that writes to it, a registry that hands it out. When the last holder is gone the object ends, and what
it held alone ends with it.
-/

namespace Logbook.Script

/-- What a caller that waits for room was doing. -/
inductive Job where
  | log (s : Snapshot)
  | write (bs : Bytes)

/-- A caller that waits for room. -/
structure Producer where
  adapter : AdapterId
  ticket : Nat
  job : Job
  /-- How often the call is to be made again. -/
  remaining : Nat

structure Session where
  world : World
  pools : NameMap PoolId
  buffers : NameMap BufferId
  snapshots : NameMap Snapshot
  formatters : NameMap FormatterId
  sinks : NameMap SinkRef
  loggers : NameMap LoggerId
  registries : NameMap RegistryId
  /-- The registry of the whole process, made on first use. -/
  globalRegistry : Option RegistryId
  producer : Option Producer

/-- The answer to an operation, and the session behind it. -/
abbrev Step := Session → Answer × Session

namespace Session

def start : Session :=
  ⟨.start, .empty, .empty, .empty, .empty, .empty, .empty, .empty, none, none⟩

instance : Inhabited Session := ⟨start⟩

def setWorld (s : Session) (w : World) : Session := { s with world := w }

def store (s : Session) : Store := s.world.plant.store

def outlets (s : Session) : Outlets := s.world.plant.outlets

def setStore (s : Session) (store : Store) : Session := s.setWorld (s.world.setStore store)

def setOutlets (s : Session) (o : Outlets) : Session := s.setWorld (s.world.setOutlets o)

/-! ### The ends of objects -/

/-- Is a sink still held? The sinks of the standard streams always are, and a caller that waits for room holds
the adapter on which it waits. -/
def holdsSink (s : Session) (sink : SinkRef) : Bool :=
  sink == .direct World.outSink || sink == .direct World.errSink ||
    s.sinks.values.contains sink ||
    s.producer.any (sink == .queued ·.adapter) ||
    s.world.loggers.values.any (·.sinks.contains sink) ||
    s.world.registries.values.any (·.defaultSink == sink) ||
    s.world.adapters.values.any (sink == .direct ·.inner)

/-- The end of a direct sink that is not held any more: a file is closed. -/
def dropDirect (s : Session) (id : SinkId) : Session :=
  if s.holdsSink (.direct id) then s else s.setOutlets (s.outlets.finalize id)

/-- The end of an adapter that is not held any more: it is shut down, and lets go of its inner sink unless its
worker still runs. -/
def dropAdapter (s : Session) (id : AdapterId) : Session :=
  if s.holdsSink (.queued id) then s
  else
    let s := s.setWorld (s.world.shutdown id Adapter.standardTimeout).2
    match s.world.adapters.get? id with
    | none => s
    | some a =>
      match a.queue.worker with
      | .idle | .busy _ => s
      | .finished | .dead =>
        (s.setWorld { s.world with adapters := s.world.adapters.erase id }).dropDirect a.inner

/-- The end of a sink that is not held any more. -/
def dropSink (s : Session) : SinkRef → Session
  | .direct id => s.dropDirect id
  | .queued id => s.dropAdapter id

def holdsFactory (s : Session) (f : FactoryId) : Bool :=
  s.world.loggers.values.any (·.factory == f) || s.world.registries.values.any (·.factory == f)

/-- The end of a factory that is not held any more. -/
def dropFactory (s : Session) (f : FactoryId) : Session :=
  if s.holdsFactory f then s else s.setStore (s.store.dropFactory f)

def holdsLogger (s : Session) (id : LoggerId) : Bool :=
  s.loggers.values.contains id ||
    s.world.registries.values.any fun r => r.root == id || r.loggers.values.contains id

/-- The end of a logger that is not held any more: it lets go of its sinks in order, then of its factory. -/
def dropLogger (s : Session) (id : LoggerId) : Session :=
  if s.holdsLogger id then s
  else
    match s.world.loggers.get? id with
    | none => s
    | some logger =>
      let s := s.setWorld { s.world with loggers := s.world.loggers.erase id }
      (logger.sinks.foldl dropSink s).dropFactory logger.factory

/-- The end of a registry that has no name any more: it lets go of its loggers first, then of its default sink
and its factory, and of its root logger last. -/
def dropRegistry (s : Session) (id : RegistryId) : Session :=
  if s.registries.values.contains id || s.globalRegistry == some id then s
  else
    match s.world.registries.get? id with
    | none => s
    | some registry =>
      let emptied := s.world.registries.set id { registry with loggers := .empty }
      let s := registry.loggers.values.foldl dropLogger (s.setWorld { s.world with registries := emptied })
      let s := s.setWorld { s.world with registries := s.world.registries.erase id }
      ((s.dropSink registry.defaultSink).dropFactory registry.factory).dropLogger registry.root

def dropSnapshot (s : Session) (snapshot : Snapshot) : Session := s.setStore (snapshot.drop s.store)

/-! ### Names

Naming a new object ends the old one of that name, once the new one is there. -/

def nameBuffer (s : Session) (id : String) (b : BufferId) : Session :=
  let old := s.buffers.find? id
  let s := { s with buffers := s.buffers.insert id b }
  match old with
  | some b => s.setStore (s.store.release b)
  | none => s

def nameSnapshot (s : Session) (id : String) (snapshot : Snapshot) : Session :=
  let old := s.snapshots.find? id
  let s := { s with snapshots := s.snapshots.insert id snapshot }
  match old with
  | some old => s.dropSnapshot old
  | none => s

def nameSink (s : Session) (id : String) (sink : SinkRef) : Session :=
  let old := s.sinks.find? id
  let s := { s with sinks := s.sinks.insert id sink }
  match old with
  | some old => s.dropSink old
  | none => s

def nameLogger (s : Session) (id : String) (logger : LoggerId) : Session :=
  let old := s.loggers.find? id
  let s := { s with loggers := s.loggers.insert id logger }
  match old with
  | some old => s.dropLogger old
  | none => s

def nameRegistry (s : Session) (id : String) (registry : RegistryId) : Session :=
  let old := s.registries.find? id
  let s := { s with registries := s.registries.insert id registry }
  match old with
  | some old => s.dropRegistry old
  | none => s

/-! ### Looking up -/

/-- Go on with the object of a name, or answer that there is none. -/
def withNamed {α : Type} (names : Session → NameMap α) (id : String) (act : α → Step) : Step := fun s =>
  match (names s).find? id with
  | some a => act a s
  | none => (.missing, s)

/-- The source that a reference stands for. -/
def source? (s : Session) : SourceRef → Option Source
  | .heap => some .heap
  | .pool name => (s.pools.find? name).map .pool
  | .aliasing name => (s.pools.find? name).map .aliasing
  | .stale name => (s.pools.find? name).map .stale

/-- Go on with a factory that lives until the end of the step. -/
def withFactory (source : SourceRef) (act : FactoryId → Step) : Step := fun s =>
  match s.source? source with
  | none => (.missing, s)
  | some source =>
    let (factory, store) := s.store.addFactory source
    let (answer, s) := act factory (s.setStore store)
    (answer, s.setStore (s.store.dropFactory factory))

end Session

end Logbook.Script
