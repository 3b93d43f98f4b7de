import Logbook.Registry

/-!
# The world of loggers

All objects together: the plant, the adapters, the loggers and the registries. Operations that call sinks take
a pace, which says what the workers get done behind each call.
-/

namespace Logbook

abbrev RegistryId := Nat

structure World where
  plant : Plant
  adapters : Table Adapter
  loggers : Table Logger
  registries : Table Registry

namespace World

/-- The sinks of the two standard streams, which exist from the start. -/
def outSink : SinkId := 0

def errSink : SinkId := 1

/-- A world with nothing in it but the sinks of the standard streams. -/
def start : World :=
  let (_, outlets) := Outlets.empty.addSink Stream.out.sinkName (.console .out false)
  let (_, outlets) := outlets.addSink Stream.err.sinkName (.console .err false)
  ⟨⟨.empty, outlets⟩, .empty, .empty, .empty⟩

instance : Inhabited World := ⟨start⟩

def report (w : World) (n : Notice) : World := { w with plant := w.plant.report n }

def setStore (w : World) (s : Store) : World := { w with plant := { w.plant with store := s } }

def setOutlets (w : World) (o : Outlets) : World := { w with plant := { w.plant with outlets := o } }

/-! ### Sinks -/

/-- The name of a sink. -/
def sinkName (w : World) : SinkRef → String
  | .direct id => w.plant.outlets.sinkName id
  | .queued id => ((w.adapters.get? id).map (·.queue.settings.name)).getD ""

/-- Let an adapter act on the plant. -/
def withAdapter {α : Type} (w : World) (id : AdapterId) (missing : α)
    (act : Adapter → Plant → α × Adapter × Plant) : α × World :=
  match w.adapters.get? id with
  | none => (missing, w)
  | some a =>
    let (answer, a, plant) := act a w.plant
    (answer, { w with plant := plant, adapters := w.adapters.set id a })

/-- Let the worker of an adapter take one step. -/
def work (w : World) (id : AdapterId) : World :=
  (w.withAdapter id () fun a p => ((), a.work p)).2

/-- Let the worker of an adapter do all it can. -/
def drainOne (w : World) (id : AdapterId) : World :=
  (w.withAdapter id () fun a p => ((), a.drain p)).2

/-- Let the write go on in which the worker of an adapter is held. Gives whether there was one. -/
def letGo (w : World) (id : AdapterId) : Bool × World :=
  w.withAdapter id false fun a p =>
    match a.queue.worker, p.outlets.letGo a.inner with
    | .busy c, some (outcome, outlets) =>
      let (queue, p) := a.host.settle c outcome a.queue { p with outlets := outlets }
      (true, { a with queue := queue }, p)
    | _, _ => (false, a, p)

/-- Let all workers do all they can. -/
def drain (w : World) : World := (w.adapters.rows.map (·.1)).foldl drainOne w

/-- Log a snapshot on a sink. None if the caller has to wait for room. -/
def logSink (w : World) (sink : SinkRef) (s : Snapshot) : Option Outcome × World :=
  match sink with
  | .direct id =>
    let (outcome, plant) := w.plant.log false id s
    (outcome, { w with plant := plant })
  | .queued id => w.withAdapter id (some .done) fun a p => a.log s p

/-- Write a finished line to a sink. None if the caller has to wait for room. -/
def writeSink (w : World) (sink : SinkRef) (bs : Bytes) : Option Outcome × World :=
  match sink with
  | .direct id =>
    let (outcome, plant) := w.plant.write false id bs
    (outcome, { w with plant := plant })
  | .queued id => w.withAdapter id (some .done) fun a p => a.write bs p

/-- A caller that waits for room on a sink gives up, if the policy sets it a limit. None if it goes on
waiting. -/
def expire (w : World) (sink : SinkRef) : Option Outcome × World :=
  match sink with
  | .direct _ => (none, w)
  | .queued id =>
    w.withAdapter id none fun a p =>
      match a.expire p with
      | some (a, p) => (some .done, a, p)
      | none => (none, a, p)

/-- The ticket of the caller that came last to wait for room on a sink. -/
def lastTicket? (w : World) (sink : SinkRef) : Option (AdapterId × Nat) :=
  match sink with
  | .direct _ => none
  | .queued id => do
    let a ← w.adapters.get? id
    let (ticket, _) ← a.queue.waiting.getLast?
    return (id, ticket)

/-- The answer to a caller that waited on an adapter. -/
def answer? (w : World) (id : AdapterId) (ticket : Nat) : Option Outcome :=
  (w.adapters.get? id).bind (·.queue.answer? ticket)

/-- The last caller on a sink waits for room, while `meanwhile` happens. Without an answer by then it gives up,
if the policy sets it a limit, and else stays until the worker has done all it can. -/
def await (w : World) (meanwhile : World → World) (sink : SinkRef) : Outcome × World :=
  match w.lastTicket? sink with
  | none => (.done, meanwhile w)
  | some (id, ticket) =>
    let w := meanwhile w
    match w.answer? id ticket with
    | some outcome => (outcome, w)
    | none =>
      match w.expire sink with
      | (some outcome, w) => (outcome, w)
      | (none, w) =>
        let w := w.drainOne id
        ((w.answer? id ticket).getD .done, w)

def setSinkLevel (w : World) (sink : SinkRef) (level : Severity) : World :=
  match sink with
  | .direct id => w.setOutlets (w.plant.outlets.setLevel id level)
  | .queued id => { w with adapters := w.adapters.modify id ({ · with gate := ⟨level⟩ }) }

def setSinkFormatter (w : World) (sink : SinkRef) (f : FormatterId) : World :=
  match sink with
  | .direct id => w.setOutlets (w.plant.outlets.setFormatter id f)
  | .queued id => { w with adapters := w.adapters.modify id ({ · with formatter := f }) }

def clearSink (w : World) (id : SinkId) : World := w.setOutlets (w.plant.outlets.clear id)

/-- Flush a sink, with the workers doing all they can meanwhile. -/
def flushSink (w : World) (sink : SinkRef) : Outcome × World :=
  match sink with
  | .direct id =>
    let (outcome, plant) := w.plant.flush id
    (outcome, { w with plant := plant })
  | .queued id => w.withAdapter id .done fun a p => a.flush Adapter.drain p

/-- Close an adapter, with its worker doing all it can meanwhile. -/
def shutdown (w : World) (id : AdapterId) (timeout : Duration) : Bool × World :=
  w.withAdapter id true fun a p => a.shutdown Adapter.drain timeout p

/-! ### Loggers -/

/-- What the workers get done behind, or during, the call of a sink. -/
abbrev Pace := SinkRef → World → World

/-- The desk from which loggers log a snapshot. A call that has to wait is done once it got in or gave up. -/
def logDesk (pace : Pace) (s : Snapshot) : Logger.Desk World where
  call sink w :=
    match w.logSink sink s with
    | (some outcome, w) => (outcome, pace sink w)
    | (none, w) => w.await (pace sink) sink
  nameOf sink w := w.sinkName sink
  report n w := w.report n

/-- The desk from which loggers flush. -/
def flushDesk : Logger.Desk World where
  call sink w := w.flushSink sink
  nameOf sink w := w.sinkName sink
  report n w := w.report n

def modifyLogger (w : World) (id : LoggerId) (f : Logger → Logger) : World :=
  { w with loggers := w.loggers.modify id f }

/-- Send a snapshot to every sink of a logger. -/
def dispatch (w : World) (pace : Pace) (id : LoggerId) (s : Snapshot) : World :=
  match w.loggers.get? id with
  | none => w
  | some logger =>
    let (failures, w) := Logger.fanOut (logDesk pace s) logger.name logger.sinks w
    w.modifyLogger id (·.countDispatch failures)

/-- Count an entry that a logger's gate turned away. -/
def recordFiltered (w : World) (id : LoggerId) : World := w.modifyLogger id (·.recordFiltered)

/-- Log an entry: turn it away at the gate, or capture it and send it to every sink. A capture that panics
changes nothing but the buffers. -/
def log (w : World) (pace : Pace) (id : LoggerId) (e : Entry) : Option Panic × World :=
  match w.loggers.get? id with
  | none => (none, w)
  | some logger =>
    if logger.gate.passes e.severity then
      match Snapshot.capture e logger.localTime (·.acquire logger.factory) w.plant.store with
      | (.error p, store) => (some p, w.setStore store)
      | (.ok s, store) =>
        let w := (w.setStore store).dispatch pace id s
        (none, w.setStore (s.drop w.plant.store))
    else (none, w.recordFiltered id)

/-- Log a message under the logger's own name. The gate is asked before the entry is made, and again when it
is logged. -/
def logMessage (w : World) (pace : Pace) (id : LoggerId) (severity : Severity)
    (message : Bytes) (time : Timestamp) : Option Panic × World :=
  match w.loggers.get? id with
  | none => (none, w)
  | some logger =>
    if logger.gate.passes severity then
      w.log pace id ⟨severity, utf8 logger.name, [], [], message, time⟩
    else (none, w.recordFiltered id)

/-- Flush every sink of a logger. -/
def flushLogger (w : World) (id : LoggerId) : Outcome × World :=
  match w.loggers.get? id with
  | none => (.done, w)
  | some logger => Logger.flushAll flushDesk logger.sinks w

/-! ### Registries -/

/-- Make a registry. -/
def addRegistry (w : World) (plan : RegistryPlan) : RegistryId × World :=
  let (registry, store, loggers) :=
    plan.build (.direct errSink) w.plant.store w.loggers
  let w := w.setStore store
  (w.registries.next,
    { w with loggers := loggers, registries := w.registries.push registry })

/-- The logger of a name in a registry, made if there is none. -/
def getLogger (w : World) (id : RegistryId) (name : String) : Option LoggerId × World :=
  match w.registries.get? id with
  | none => (none, w)
  | some registry =>
    let (logger, registry, loggers) := registry.get name w.loggers
    (some logger, { w with loggers := loggers, registries := w.registries.set id registry })

/-- Give loggers of a registry the levels of a configuration. -/
def applyConfig (w : World) (id : RegistryId) (c : Config) : World :=
  match w.registries.get? id with
  | none => w
  | some registry =>
    let (registry, loggers) := registry.applyLevels c.levels w.loggers
    { w with loggers := loggers, registries := w.registries.set id registry }

/-- Replace the sink of loggers that a registry makes from now on. -/
def setDefaultSink (w : World) (id : RegistryId) (sink : SinkRef) : World :=
  { w with registries := w.registries.modify id ({ · with defaultSink := sink }) }

/-- Flush every logger of a registry. Errors do not stop it; a panic does. -/
def flushRegistry (w : World) (id : RegistryId) : Option Panic × World :=
  match w.registries.get? id with
  | none => (none, w)
  | some registry =>
    registry.loggers.values.foldl
      (fun (stop, w) logger =>
        match stop with
        | some p => (some p, w)
        | none =>
          match w.flushLogger logger with
          | (.panicked p, w) => (some p, w)
          | (_, w) => (none, w))
      (none, w)

end World

end Logbook
