import Logbook.Script.Buffers
import Logbook.Script.Loggers
import Logbook.Script.Sinks
import Logbook.Script.Trace

/-!
# Running a session

Every operation answers, and what was written to the standard streams meanwhile goes with the answer.
-/

namespace Logbook.Script.Session

/-- The diagnostic text of an object. -/
def describe (kind : Kind) (id : String) (pretty : Bool) : Step :=
  let text (shown : Option Text.Shown) : Answer :=
    match shown with
    | some shown => .text (shown.render pretty)
    | none => .missing
  fun s =>
    let world := s.world
    let answer :=
      match kind with
      | .pool => text (((s.pools.find? id).bind s.store.pools.get?).map (·.shown))
      | .buffer => text (((s.buffers.find? id).bind s.store.buffers.get?).map (·.shown))
      | .snapshot => text ((s.snapshots.find? id).map (·.shown s.store))
      | .formatter => text (((s.formatters.find? id).bind s.outlets.formatters.get?).map (·.shown))
      | .logger => text (((s.loggers.find? id).bind world.loggers.get?).map (·.shown))
      | .registry => text (((s.registries.find? id).bind world.registries.get?).map (·.shown))
      | .sink =>
        match s.sinks.find? id with
        | some (.queued a) => text ((world.adapters.get? a).map (·.shown))
        | some (.direct d) =>
          match s.outlets.sinks.get? d with
          | some ⟨_, _, _, .file f⟩ => text (some f.shown)
          | _ => .missing
        | none => .missing
    (answer, s)

/-- One operation. -/
def perform : Operation → Step
  | .pool id limits => addPool id limits
  | .poolClone pool id => clonePool pool id
  | .poolDrop pool => forgetPool pool
  | .poolState pool => poolState pool
  | .churn source n => churn source n
  | .acquire id source => acquire id source
  | .acquireFrom id registry => acquireFrom id registry
  | .bufferWrite buffer bs => writeBuffer buffer bs
  | .bufferClone buffer id => cloneBuffer buffer id
  | .bufferDrop buffer => forgetBuffer buffer
  | .bufferState buffer => bufferState buffer
  | .bufferCompare buffer other => compareBuffers buffer other
  | .capture id source isLocal e => capture id source isLocal e
  | .snapshotClone snapshot id => cloneSnapshot snapshot id
  | .snapshotBuffer snapshot id => snapshotBuffer snapshot id
  | .snapshotDrop snapshot => forgetSnapshot snapshot
  | .snapshotState snapshot => snapshotState snapshot
  | .formatter id layout => addFormatter id layout
  | .formatterState formatter => formatterState formatter
  | .sink id spec => addSink id spec
  | .sinkDrop sink => forgetSink sink
  | .sinkLog sink subject times => logSink sink subject times
  | .sinkWrite sink bs => writeSink sink bs
  | .sinkFlush sink => flushSink sink
  | .sinkLevel sink level => setSinkLevel sink level
  | .sinkFormatter sink formatter => setSinkFormatter sink formatter
  | .sinkClear sink => clearSink sink
  | .sinkCompare sink other => compareSinks sink other
  | .probeMode sink writeMode trigger flushMode => setProbeMode sink writeMode trigger flushMode
  | .color on => setColor on
  | .sinkState sink => sinkState sink
  | .fileClose sink => closeFile sink
  | .filePut path bs => putFile path bs
  | .fileRead path => readFile path
  | .configFile path => readConfig path
  | .logger id spec => addLogger id spec
  | .log logger e times => log logger e times
  | .dispatch logger snapshot => dispatch logger snapshot
  | .recordFiltered logger => recordFiltered logger
  | .metricsReset logger => resetMetrics logger
  | .loggerDrop logger => forgetLogger logger
  | .say logger manner severity message => say logger manner severity message
  | .loggerLevel logger level => setLoggerLevel logger level
  | .addSink logger sink => attachSink logger sink
  | .removeSink logger sink => detachSink logger sink
  | .loggerFlush logger => flushLogger logger
  | .loggerState logger => loggerState logger
  | .registry id plan => addRegistry id plan
  | .get registry name id => getLogger registry name id
  | .root registry id => rootLogger registry id
  | .contains registry name => containsLogger registry name
  | .registryState registry => registryState registry
  | .applyConfig registry text => applyConfig registry text
  | .setDefaultSink registry sink => setDefaultSink registry sink
  | .flushRegistry registry => flushRegistry registry
  | .global name e => globalLogger name e
  | .describe kind id pretty => describe kind id pretty
  | .release => release
  | .shutdown sink timeout => shutdown sink timeout

/-- The lines of a text, each with its end, put in front of `done` in reverse. -/
def endedLines (done : List Bytes) (line : Bytes) : Bytes → List Bytes
  | [] => if line.isEmpty then done else line.reverse :: done
  | b :: rest =>
    if b = ascii '\n' then endedLines ((b :: line).reverse :: done) [] rest
    else endedLines done (b :: line) rest

/-- A text with its lines in ascending order. -/
def sortLines (bs : Bytes) : Bytes :=
  ((endedLines [] [] bs).mergeSort fun a b => decide (a ≤ b)).flatten

/-- One operation, with what it wrote to the standard streams. Flushing a registry reports its failures in
ascending order, as its loggers have no order of their own. -/
def step (s : Session) (op : Operation) : Reply × Session :=
  let (answer, s) := perform op s
  let o := s.outlets
  let err := match op with
    | .flushRegistry _ => sortLines o.err.bytes
    | _ => o.err.bytes
  (⟨answer, o.out.bytes, err⟩, s.setOutlets { o with out := .empty, err := .empty })

/-- The replies of a whole session. -/
def run (ops : List Operation) : List Reply := (Script.run step start ops).1

end Logbook.Script.Session
