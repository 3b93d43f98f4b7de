import Logbook.World

/-!
# Operations of a session

A session keeps objects under names and works on them by operations. Names are per kind of object. An entry
whose timestamp does not exist is given as none.
-/

namespace Logbook.Script

/-- A source of buffers, with its pool by name. -/
inductive SourceRef where
  | heap
  | pool (name : String)
  | aliasing (name : String)
  | stale (name : String)

inductive SinkSpec where
  | memory (name : Option String)
  | console (stream : Stream) (colors : Bool)
  /-- The sink of a standard stream that exists from the start. -/
  | shared (stream : Stream)
  | file (path : String) (capacity : Option Nat)
  | probe (name : String) (writeMode : ProbeMode) (trigger : Bytes) (flushMode : ProbeMode)
  | adapter (inner : String) (name : Option String) (capacity : Option Nat) (policy : OverflowPolicy)
    (preserveCritical : Bool) (hasListener : Bool)

structure LoggerSpec where
  name : String
  sinks : List String
  level : Option Severity
  source : Option SourceRef
  countFiltered : Bool
  localTime : Bool

/-- A step in the plan of a registry. -/
inductive PlanStep where
  | sink (name : String)
  | source (s : SourceRef)
  | level (s : Severity)
  | localTime (b : Bool)
  | limits (l : PoolLimits)
  | config (text : String)

/-- What is logged on a sink. -/
inductive Subject where
  | snapshot (name : String)
  | entry (e : Option Entry) (isLocal : Bool)

/-- Ways to log a message. -/
inductive Manner where
  /-- The message as it is. -/
  | plain
  /-- The message between angle brackets, with its length. -/
  | measured

/-- A number against the right edge of a column. -/
def rightAligned (width n : Nat) : Bytes :=
  let digits := Text.decimal n
  List.replicate (width - digits.length) (ascii ' ') ++ digits

/-- The message as it is logged. -/
def Manner.text (message : Bytes) : Manner → Bytes
  | .plain => message
  | .measured => utf8 "<" ++ message ++ utf8 "|" ++ rightAligned 4 message.length ++ utf8 ">"

/-- Kinds of objects that have a diagnostic text. -/
inductive Kind where
  | pool
  | buffer
  | snapshot
  | formatter
  | logger
  | registry
  | sink

inductive Operation where
  | pool (id : String) (limits : PoolLimits)
  | poolClone (pool id : String)
  | poolDrop (pool : String)
  | poolState (pool : String)
  | churn (source : SourceRef) (n : Nat)
  | acquire (id : String) (source : SourceRef)
  | acquireFrom (id registry : String)
  | bufferWrite (buffer : String) (bs : Bytes)
  | bufferClone (buffer id : String)
  | bufferDrop (buffer : String)
  | bufferState (buffer : String)
  | bufferCompare (buffer other : String)
  | capture (id : String) (source : SourceRef) (isLocal : Bool) (e : Option Entry)
  | snapshotClone (snapshot id : String)
  | snapshotBuffer (snapshot id : String)
  | snapshotDrop (snapshot : String)
  | snapshotState (snapshot : String)
  | formatter (id : String) (layout : Layout)
  | formatterState (formatter : String)
  | sink (id : String) (spec : SinkSpec)
  | sinkDrop (sink : String)
  | sinkLog (sink : String) (subject : Subject) (times : Nat)
  | sinkWrite (sink : String) (bs : Bytes)
  | sinkFlush (sink : String)
  | sinkLevel (sink : String) (level : Severity)
  | sinkFormatter (sink formatter : String)
  | sinkClear (sink : String)
  | sinkCompare (sink other : String)
  | probeMode (sink : String) (writeMode : ProbeMode) (trigger : Bytes) (flushMode : ProbeMode)
  | color (on : Bool)
  | sinkState (sink : String)
  | fileClose (sink : String)
  | filePut (path : String) (bs : Bytes)
  | fileRead (path : String)
  | configFile (path : String)
  | logger (id : String) (spec : LoggerSpec)
  | log (logger : String) (e : Option Entry) (times : Nat)
  | dispatch (logger snapshot : String)
  | recordFiltered (logger : String)
  | metricsReset (logger : String)
  | loggerDrop (logger : String)
  | say (logger : String) (manner : Manner) (severity : Severity) (message : Bytes)
  | loggerLevel (logger : String) (level : Severity)
  | addSink (logger sink : String)
  | removeSink (logger sink : String)
  | loggerFlush (logger : String)
  | loggerState (logger : String)
  | registry (id : String) (plan : List PlanStep)
  | get (registry name : String) (id : Option String)
  | root (registry : String) (id : Option String)
  | contains (registry name : String)
  | registryState (registry : String)
  | applyConfig (registry text : String)
  | setDefaultSink (registry sink : String)
  | flushRegistry (registry : String)
  | global (name : String) (e : Option (Option Entry))
  | describe (kind : Kind) (id : String) (pretty : Bool)
  | release
  | shutdown (sink : String) (timeout : Duration)

/-! ### Answers -/

/-- What a sink of one kind has to show. -/
inductive SinkDetail where
  | memory (tape : Tape)
  | probe (p : Probe)
  | file (path : String)
  | console (stream : Stream) (colors : Bool)
  | adapter (queue : Queue)

structure SinkView where
  name : String
  level : Severity
  hits : Nat
  misses : Nat
  detail : SinkDetail

structure LoggerView where
  name : String
  level : Severity
  sinks : List String
  localTime : Bool
  /-- The names under which the session keeps this logger. -/
  same : List String
  metrics : Metrics
  pooled : Bool

structure RegistryView where
  loggers : List (String × Severity)
  defaultLevel : Severity
  defaultSink : String

structure GlobalView where
  name : String
  level : Severity
  sinks : Nat
  same : Bool
  isRoot : Bool

inductive Answer where
  | ok
  | existed (b : Bool)
  | named (name : String)
  | failed (e : Error)
  | panicked (p : Panic)
  | badTimestamp
  /-- There is no object of that name. -/
  | missing
  /-- The worker is held, so its adapter cannot be dropped. -/
  | held
  /-- Another caller waits for room already. -/
  | producerBusy
  /-- The caller waits for room. -/
  | blocked
  | pool (p : Pool)
  | dirty (n : Nat)
  | buffer (b : Buffer)
  | wrote (done : Bool) (length capacity : Nat)
  | comparison (same equal : Bool)
  | snapshot (s : Snapshot) (b : Buffer)
  | formatter (f : Formatter)
  | same (b : Bool)
  | level (g : Gate)
  | sink (v : SinkView)
  | contents (bs : Bytes)
  | noFile
  | config (c : Config)
  | metrics (m : Metrics)
  | count (n : Nat)
  | logger (v : LoggerView)
  | contains (b : Bool)
  | registry (v : RegistryView)
  | global (v : GlobalView)
  | text (s : String)
  | released (wasHeld : Bool) (producer : Option Answer)
  | shutdown (finished running : Bool)

def Answer.ofOutcome : Outcome → Answer
  | .done => .ok
  | .failed e => .failed e
  | .panicked p => .panicked p

/-- An answer with what was written to the standard streams meanwhile. -/
structure Reply where
  answer : Answer
  out : Bytes
  err : Bytes

end Logbook.Script
