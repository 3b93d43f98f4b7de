import Logbook.Script.Session

/-!
# Operations on loggers and registries
-/

namespace Logbook.Script.Session

/-- The workers do all they can behind every call of a sink. -/
def pace : World.Pace := fun _ => World.drain

/-! ### Loggers -/

/-- The factory of a new logger: the given one, or one over a pool of its own. -/
def loggerFactory (source : Option Source) (store : Store) : FactoryId × Store :=
  { RegistryPlan.standard with source := source }.makeFactory store

def addLogger (id : String) (spec : LoggerSpec) : Step := fun s =>
  match (spec.source.map fun ref => s.source? ref) with
  | some none => (.missing, s)
  | source =>
    let (factory, store) := loggerFactory source.join s.store
    let s := s.setStore store
    let logger : Logger :=
      { name := spec.name
        gate := ⟨spec.level.getD Logger.standardLevel⟩
        sinks := (spec.sinks.filterMap s.sinks.find?).foldl Logger.attach []
        factory := factory
        localTime := spec.localTime
        countFiltered := spec.countFiltered
        metrics := .zero }
    let ref := s.world.loggers.next
    let s := s.setWorld { s.world with loggers := s.world.loggers.push logger }
    (.ok, s.nameLogger id ref)

def metricsAnswer (s : Session) (id : LoggerId) : Answer :=
  match s.world.loggers.get? id with
  | some logger => .metrics logger.metrics
  | none => .missing

/-- Log an entry `times` times; a panic ends it. -/
def logTimes (id : LoggerId) (e : Entry) : Nat → Step
  | 0, s => (s.metricsAnswer id, s)
  | times + 1, s =>
    match s.world.log pace id e with
    | (some p, w) => (.panicked p, s.setWorld w)
    | (none, w) => logTimes id e times (s.setWorld w)

def log (logger : String) (e : Option Entry) (times : Nat) : Step :=
  match e with
  | none => fun s => (.badTimestamp, s)
  | some e => withNamed Session.loggers logger fun id => logTimes id e times

def dispatch (logger snapshot : String) : Step :=
  withNamed Session.loggers logger fun id =>
    withNamed Session.snapshots snapshot fun snapshot s =>
      let s := s.setWorld (s.world.dispatch pace id snapshot)
      (s.metricsAnswer id, s)

def say (logger : String) (manner : Manner) (severity : Severity) (message : Bytes) : Step :=
  withNamed Session.loggers logger fun id s =>
    match s.world.logMessage pace id severity (manner.text message) .epoch with
    | (some p, w) => (.panicked p, s.setWorld w)
    | (none, w) =>
      let s := s.setWorld w
      (s.metricsAnswer id, s)

/-- Change a logger and answer with its counters. -/
def changeLogger (logger : String) (f : Logger → Logger) (answer : Logger → Answer) : Step :=
  withNamed Session.loggers logger fun id s =>
    let s := s.setWorld (s.world.modifyLogger id f)
    match s.world.loggers.get? id with
    | some logger => (answer logger, s)
    | none => (.missing, s)

def recordFiltered (logger : String) : Step :=
  changeLogger logger (·.recordFiltered) (.metrics ·.metrics)

def resetMetrics (logger : String) : Step :=
  changeLogger logger ({ · with metrics := .zero }) (.metrics ·.metrics)

def setLoggerLevel (logger : String) (level : Severity) : Step :=
  changeLogger logger (·.setLevel level) (.level ·.gate)

def attachSink (logger sink : String) : Step :=
  withNamed Session.sinks sink fun ref =>
    changeLogger logger (·.addSink ref) (.count ·.sinks.length)

/-- Detach a sink. It ends if nothing else holds it. -/
def detachSink (logger sink : String) : Step :=
  withNamed Session.sinks sink fun ref s =>
    let (answer, s) := changeLogger logger (·.removeSink ref) (.count ·.sinks.length) s
    (answer, s.dropSink ref)

def forgetLogger (logger : String) : Step := fun s =>
  match s.loggers.find? logger with
  | some id => (.existed true, { s with loggers := s.loggers.erase logger }.dropLogger id)
  | none => (.existed false, s)

def flushLogger (logger : String) : Step :=
  withNamed Session.loggers logger fun id s =>
    let (outcome, w) := s.world.flushLogger id
    (.ofOutcome outcome, s.setWorld w)

/-- What a logger looks like. Whether its buffers belong to a pool is found by taking one and giving it
back. -/
def loggerAnswer (id : LoggerId) : Step := fun s =>
  match s.world.loggers.get? id with
  | none => (.missing, s)
  | some logger =>
    let (b, store) := s.store.acquire logger.factory
    let pooled := ((store.buffers.get? b).map (·.isPooled)).getD false
    let s := s.setStore (store.release b)
    (.logger
      { name := logger.name
        level := logger.gate.level
        sinks := logger.sinks.map s.world.sinkName
        localTime := logger.localTime
        same := (s.loggers.entries.filter (·.2 == id)).map (·.1)
        metrics := logger.metrics
        pooled := pooled }, s)

def loggerState (logger : String) : Step := withNamed Session.loggers logger loggerAnswer

/-! ### Registries -/

/-- Follow the steps of a plan; a configuration that cannot be read ends it. -/
def followPlan (s : Session) : List PlanStep → RegistryPlan → Except Answer RegistryPlan
  | [], plan => .ok plan
  | .sink name :: rest, plan =>
    match s.sinks.find? name with
    | some sink => followPlan s rest { plan with sink := some sink }
    | none => .error .missing
  | .source ref :: rest, plan =>
    match s.source? ref with
    | some source => followPlan s rest { plan with source := some source }
    | none => .error .missing
  | .level level :: rest, plan => followPlan s rest { plan with level := level }
  | .localTime b :: rest, plan => followPlan s rest { plan with localTime := b }
  | .limits limits :: rest, plan => followPlan s rest { plan with limits := limits }
  | .config text :: rest, plan =>
    match Config.parse text with
    | .ok config => followPlan s rest (plan.configure config)
    | .error e => .error (.failed e)

def addRegistry (id : String) (steps : List PlanStep) : Step := fun s =>
  match s.followPlan steps .standard with
  | .error answer => (answer, s)
  | .ok plan =>
    let (registry, w) := s.world.addRegistry plan
    (.ok, (s.setWorld w).nameRegistry id registry)

/-- Answer with a logger and then name it, if it is to have a name. -/
def answerAndName (logger : LoggerId) (id : Option String) : Step := fun s =>
  let (answer, s) := loggerAnswer logger s
  match id with
  | some id => (answer, s.nameLogger id logger)
  | none => (answer, s)

def getLogger (registry name : String) (id : Option String) : Step :=
  withNamed Session.registries registry fun r s =>
    match s.world.getLogger r name with
    | (some logger, w) => answerAndName logger id (s.setWorld w)
    | (none, w) => (.missing, s.setWorld w)

/-- Go on with a registry. -/
def withRegistry (registry : String) (act : RegistryId → Registry → Step) : Step :=
  withNamed Session.registries registry fun id s =>
    match s.world.registries.get? id with
    | some r => act id r s
    | none => (.missing, s)

def rootLogger (registry : String) (id : Option String) : Step :=
  withRegistry registry fun _ r => answerAndName r.root id

def containsLogger (registry name : String) : Step :=
  withRegistry registry fun _ r s => (.contains (r.loggers.contains name), s)

def registryState (registry : String) : Step :=
  withRegistry registry fun _ r s =>
    let level (id : LoggerId) : Severity :=
      ((s.world.loggers.get? id).map (·.gate.level)).getD r.defaultLevel
    (.registry
      { loggers := r.loggers.entries.map fun (name, id) => (name, level id)
        defaultLevel := r.defaultLevel
        defaultSink := s.world.sinkName r.defaultSink }, s)

def applyConfig (registry text : String) : Step :=
  withNamed Session.registries registry fun id s =>
    match Config.parse text with
    | .ok config => (.ok, s.setWorld (s.world.applyConfig id config))
    | .error e => (.failed e, s)

/-- Replace the sink of loggers to come. The old one ends if nothing else holds it. -/
def setDefaultSink (registry sink : String) : Step :=
  withNamed Session.sinks sink fun ref =>
    withRegistry registry fun id r s =>
      (.ok, (s.setWorld (s.world.setDefaultSink id ref)).dropSink r.defaultSink)

def flushRegistry (registry : String) : Step :=
  withNamed Session.registries registry fun id s =>
    match s.world.flushRegistry id with
    | (some p, w) => (.panicked p, s.setWorld w)
    | (none, w) => (.ok, s.setWorld w)

/-- The registry of the whole process. -/
def globalRegistryOf (s : Session) : RegistryId × Session :=
  match s.globalRegistry with
  | some id => (id, s)
  | none =>
    let (id, w) := s.world.addRegistry .standard
    (id, { s.setWorld w with globalRegistry := some id })

/-- Look a logger up in the registry of the whole process, log an entry if one is given, and show it. -/
def globalLogger (name : String) (e : Option (Option Entry)) : Step := fun s =>
  let (r, s) := s.globalRegistryOf
  match e, s.world.getLogger r name with
  | some none, _ => (.badTimestamp, s)
  | _, (none, w) => (.missing, s.setWorld w)
  | e, (some id, w) =>
    let (stop, w) :=
      match e with
      | some (some e) => w.log pace id e
      | _ => (none, w)
    let again := (w.getLogger r name).1
    let root := (w.registries.get? r).map (·.root)
    match stop, w.loggers.get? id with
    | some p, _ => (.panicked p, s.setWorld w)
    | none, none => (.missing, s.setWorld w)
    | none, some logger =>
      (.global
        { name := logger.name
          level := logger.gate.level
          sinks := logger.sinks.length
          same := again == some id
          isRoot := root == some id }, s.setWorld w)

end Logbook.Script.Session
