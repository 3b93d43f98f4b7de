import Logbook.Script.Session

/-!
# Operations on sinks and files

The workers do all they can behind every call, so a queue holds commands only while its worker is held. A call
that would wait for room is put aside then, and goes on when the worker is let go.
-/

namespace Logbook.Script.Session

def drain (s : Session) : Session := s.setWorld s.world.drain

/-! ### Making and dropping -/

def standardMemoryName : String := "memory"

/-- The name of every file sink. -/
def fileName : String := "file"

/-- Put a destination in place under a name. -/
def addDirect (id name : String) (d : Destination) : Step := fun s =>
  let (sink, outlets) := s.outlets.addSink name d
  (.named name, (s.setOutlets outlets).nameSink id (.direct sink))

def addFile (id path : String) (capacity : Option Nat) : Step := fun s =>
  match s.outlets.disk.openLog path with
  | (.error e, disk) => (.failed e, s.setOutlets { s.outlets with disk := disk })
  | (.ok target, disk) =>
    let s := s.setOutlets { s.outlets with disk := disk }
    match FileWriter.ofCapacity (capacity.getD FileWriter.standardCapacity) with
    | .error p => (.panicked p, s)
    | .ok writer => addDirect id fileName (.file ⟨path, target, some writer⟩) s

def addAdapter (id inner : String) (name : Option String) (capacity : Option Nat)
    (policy : OverflowPolicy) (preserveCritical hasListener : Bool) : Step :=
  withNamed Session.sinks inner fun sink s =>
    match sink with
    | .queued _ => (.missing, s)
    | .direct innerId =>
      let innerName := s.outlets.sinkName innerId
      let settings : QueueSettings :=
        { name := name.getD ("async-" ++ innerName)
          inner := innerName
          capacity := capacity.getD QueueSettings.standardCapacity
          policy := policy
          preserveCritical := preserveCritical
          hasListener := hasListener }
      let (formatter, outlets) := s.outlets.addFormatter .standard
      match Adapter.ofSettings settings formatter innerId with
      | .error p => (.panicked p, s)
      | .ok adapter =>
        let s := s.setOutlets outlets
        let ref := SinkRef.queued s.world.adapters.next
        let s := s.setWorld { s.world with adapters := s.world.adapters.push adapter }
        (.named settings.name, s.nameSink id ref)

def addSink (id : String) : SinkSpec → Step
  | .memory name => addDirect id (name.getD standardMemoryName) (.memory .empty)
  | .console stream colors => addDirect id stream.sinkName (.console stream colors)
  | .shared stream => fun s =>
    let sink := match stream with
      | .out => World.outSink
      | .err => World.errSink
    (.named stream.sinkName, s.nameSink id (.direct sink))
  | .file path capacity => addFile id path capacity
  | .probe name writeMode trigger flushMode =>
    addDirect id name (.probe (.new writeMode trigger flushMode))
  | .adapter inner name capacity policy preserveCritical hasListener =>
    addAdapter id inner name capacity policy preserveCritical hasListener

/-- Is a worker in the middle of a command? -/
def workerHeld (s : Session) : Bool :=
  s.world.adapters.values.any fun a =>
    match a.queue.worker with
    | .busy _ => true
    | _ => false

/-- Drop a name of a sink. While a worker is held no sink is dropped. -/
def forgetSink (sink : String) : Step := fun s =>
  if s.workerHeld then (.held, s)
  else
    match s.sinks.find? sink with
    | none => (.existed false, s)
    | some old => (.existed true, { s with sinks := s.sinks.erase sink }.dropSink old)

/-! ### Calls -/

/-- Make one call of an adapter or a sink. -/
def callOnce (sink : SinkRef) (job : Job) (w : World) : Option Outcome × World :=
  match job with
  | .log snapshot => w.logSink sink snapshot
  | .write bs => w.writeSink sink bs

/-- The end of a job: it lets go of its snapshot. -/
def endJob (job : Job) (s : Session) : Session :=
  match job with
  | .log snapshot => s.dropSnapshot snapshot
  | .write _ => s

/-- Make a call `times` times; the last one answers. A panic ends the job, and a call that has to wait puts it
aside. -/
def repeatCall (sink : SinkRef) (job : Job) : Nat → Answer → Step
  | 0, last, s => (last, s.endJob job)
  | times + 1, _, s =>
    let (outcome, w) := callOnce sink job s.world
    let (outcome, w) :=
      match outcome with
      | some o => (some o, w)
      | none => w.expire sink
    let s := s.setWorld w
    match outcome, w.lastTicket? sink with
    | some (.panicked p), _ => (.panicked p, s.drain.endJob job)
    | some o, _ => repeatCall sink job times (.ofOutcome o) s.drain
    | none, some (adapter, ticket) =>
      (.blocked, { s with producer := some ⟨adapter, ticket, job, times⟩ })
    | none, none => (.ok, s.endJob job)

/-- Does a caller wait already, on a full queue that still takes offers? -/
def isBusy (s : Session) (sink : SinkRef) : Bool :=
  match sink, s.producer with
  | .queued id, some _ =>
    match s.world.adapters.get? id with
    | some a => a.queue.isOpen && a.queue.isFull && s.workerHeld
    | none => false
  | _, _ => false

/-- Start a job, unless another caller waits already. -/
def startJob (sink : SinkRef) (job : Job) (times : Nat) : Step := fun s =>
  if s.isBusy sink then (.producerBusy, s.endJob job) else repeatCall sink job times .ok s

def writeSink (sink : String) (bs : Bytes) : Step :=
  withNamed Session.sinks sink fun sink => startJob sink (.write bs) 1

def logSink (sink : String) (subject : Subject) (times : Nat) : Step :=
  withNamed Session.sinks sink fun sink =>
    match subject with
    | .snapshot name =>
      withNamed Session.snapshots name fun snapshot s =>
        startJob sink (.log snapshot) times (s.setStore (snapshot.clone s.store))
    | .entry none _ => fun s => (.badTimestamp, s)
    | .entry (some e) isLocal => fun s =>
      match Snapshot.capture e isLocal Store.acquireUnpooled s.store with
      | (.error p, store) => (.panicked p, s.setStore store)
      | (.ok snapshot, store) => startJob sink (.log snapshot) times (s.setStore store)

def flushSink (sink : String) : Step :=
  withNamed Session.sinks sink fun sink s =>
    let (outcome, w) := s.world.flushSink sink
    (.ofOutcome outcome, (s.setWorld w).drain)

/-! ### Letting a held worker go -/

/-- The caller that waited has its answer: it makes its remaining calls, or is done and lets go of the
adapter. -/
def resume (s : Session) : Option Answer × Session :=
  match s.producer with
  | none => (none, s)
  | some producer =>
    match s.world.answer? producer.adapter producer.ticket with
    | none => (none, s)
    | some outcome =>
      let s := { s with producer := none }
      let (answer, s) :=
        repeatCall (.queued producer.adapter) producer.job producer.remaining (.ofOutcome outcome) s
      match answer with
      | .blocked => (none, s)
      | answer => (some answer, s.dropAdapter producer.adapter)

/-- Let the held worker go, if there is one, and let it do all it can. -/
def release : Step := fun s =>
  let (released, w) :=
    (s.world.adapters.rows.map (·.1)).foldl
      (fun (released, w) id =>
        let (now, w) := w.letGo id
        (released || now, w))
      (false, s.world)
  let (answer, s) := (s.setWorld w.drain).resume
  (.released released answer, s.drain)

def shutdown (sink : String) (timeout : Duration) : Step :=
  withNamed Session.sinks sink fun sink s =>
    match sink with
    | .direct _ => (.missing, s)
    | .queued id =>
      let (finished, w) := s.world.shutdown id timeout
      let running := ((w.adapters.get? id).map (·.queue.isOpen)).getD false
      (.shutdown finished running, s.setWorld w)

/-! ### Settings -/

/-- The gate of a sink. -/
def gateOf (s : Session) : SinkRef → Option Gate
  | .direct id => (s.outlets.sinks.get? id).map (·.gate)
  | .queued id => (s.world.adapters.get? id).map (·.gate)

def setSinkLevel (sink : String) (level : Severity) : Step :=
  withNamed Session.sinks sink fun sink s =>
    let s := s.setWorld (s.world.setSinkLevel sink level)
    match s.gateOf sink with
    | some g => (.level g, s)
    | none => (.missing, s)

def setSinkFormatter (sink formatter : String) : Step :=
  withNamed Session.sinks sink fun sink =>
    withNamed Session.formatters formatter fun f s =>
      (.same true, s.setWorld (s.world.setSinkFormatter sink f))

/-- Change a direct sink. -/
def changeDirect (sink : String) (f : SinkId → World → World) : Step :=
  withNamed Session.sinks sink fun sink s =>
    match sink with
    | .direct id => (.ok, s.setWorld (f id s.world))
    | .queued _ => (.missing, s)

def clearSink (sink : String) : Step := changeDirect sink fun id w => w.clearSink id

def setProbeMode (sink : String) (writeMode : ProbeMode) (trigger : Bytes) (flushMode : ProbeMode) : Step :=
  changeDirect sink fun id w =>
    w.setOutlets (w.plant.outlets.modifyDestination id fun
      | .probe p =>
        .probe { p with writeMode := writeMode, trigger := trigger, flushMode := flushMode }
      | d => d)

def compareSinks (sink other : String) : Step :=
  withNamed Session.sinks sink fun a =>
    withNamed Session.sinks other fun b s => (.same (a == b), s)

def setColor (on : Bool) : Step := fun s => (.ok, s.setOutlets { s.outlets with colorsOn := on })

/-! ### Views -/

def detailOf : Destination → SinkDetail
  | .memory tape => .memory tape
  | .console stream colors => .console stream colors
  | .file f => .file f.path
  | .probe p => .probe p

def sinkView (s : Session) (name : String) (gate : Gate) (formatter : FormatterId)
    (detail : SinkDetail) : SinkView :=
  let cache := ((s.outlets.formatters.get? formatter).map (·.cache)).getD .empty
  ⟨name, gate.level, cache.hits, cache.misses, detail⟩

def sinkState (sink : String) : Step :=
  withNamed Session.sinks sink fun sink s =>
    match sink with
    | .direct id =>
      match s.outlets.sinks.get? id with
      | some d => (.sink (s.sinkView d.name d.gate d.formatter (detailOf d.destination)), s)
      | none => (.missing, s)
    | .queued id =>
      match s.world.adapters.get? id with
      | some a =>
        (.sink (s.sinkView a.queue.settings.name a.gate a.formatter (.adapter a.queue)), s)
      | none => (.missing, s)

/-! ### Files -/

def closeFile (sink : String) : Step :=
  withNamed Session.sinks sink fun sink s =>
    match sink with
    | .direct id =>
      let (outcome, outlets) := s.outlets.closeFile id
      (.ofOutcome outcome, s.setOutlets outlets)
    | .queued _ => (.missing, s)

def putFile (path : String) (bs : Bytes) : Step := fun s =>
  (.ok, s.setOutlets { s.outlets with disk := s.outlets.disk.put path bs })

def readFile (path : String) : Step := fun s =>
  match s.outlets.disk.read? path with
  | some bs => (.contents bs, s)
  | none => (.noFile, s)

/-- Read a configuration from a file. -/
def readConfig (path : String) : Step := fun s =>
  match (s.outlets.disk.read? path).bind Text.Utf8.decode? with
  | none => (.failed (.whileDoing "reading registry config" path), s)
  | some text =>
    match Config.parse text with
    | .ok c => (.config c, s)
    | .error e => (.failed e, s)

end Logbook.Script.Session
