import Logbook.Entry
import Logbook.Format.Formatter
import Logbook.Notice
import Logbook.Sink.Console
import Logbook.Sink.File
import Logbook.Sink.Probe
import Logbook.Table

/-!
# Sinks

A sink is a place where lines go: memory, a standard stream, a file, or a probe. It has a gate and a formatter
of its own. Formatters may be shared between sinks, and so may their caches; all of them, with the sinks, the
files and the standard streams, are kept together as the outlets.
-/

namespace Logbook

abbrev FormatterId := Nat

abbrev SinkId := Nat

inductive Destination where
  | memory (tape : Tape)
  | console (stream : Stream) (colors : Bool)
  | file (f : FileSink)
  | probe (p : Probe)

/-- The same destination, with nothing collected. -/
def Destination.cleared : Destination → Destination
  | .memory _ => .memory .empty
  | .probe p => .probe { p with tape := .empty }
  | d => d

structure Sink where
  name : String
  gate : Gate
  formatter : FormatterId
  destination : Destination

structure Outlets where
  formatters : Table Formatter
  sinks : Table Sink
  disk : Disk
  out : Tape
  err : Tape
  /-- Are colours shown at all? -/
  colorsOn : Bool

namespace Outlets

def empty : Outlets := ⟨.empty, .empty, .empty, .empty, .empty, true⟩

instance : Inhabited Outlets := ⟨empty⟩

def addFormatter (o : Outlets) (f : Formatter) : FormatterId × Outlets :=
  (o.formatters.next, { o with formatters := o.formatters.push f })

/-- New sinks let everything from `trace` on pass and have a standard formatter of their own. -/
def startGate : Gate := ⟨.trace⟩

def addSink (o : Outlets) (name : String) (d : Destination) : SinkId × Outlets :=
  let (f, o) := o.addFormatter .standard
  (o.sinks.next, { o with sinks := o.sinks.push ⟨name, startGate, f, d⟩ })

/-- Write to a standard stream. -/
def emit (o : Outlets) (stream : Stream) (bs : Bytes) : Outlets :=
  match stream with
  | .out => { o with out := o.out.push bs }
  | .err => { o with err := o.err.push bs }

/-- Print a notice on the error stream. -/
def report (o : Outlets) (n : Notice) : Outlets := o.emit .err (utf8 (n.text ++ "\n"))

def setDestination (o : Outlets) (id : SinkId) (d : Destination) : Outlets :=
  { o with sinks := o.sinks.modify id fun s => { s with destination := d } }

/-- Change where the lines of a sink go, or what it has collected. -/
def modifyDestination (o : Outlets) (id : SinkId) (f : Destination → Destination) : Outlets :=
  { o with sinks := o.sinks.modify id fun s => { s with destination := f s.destination } }

def setLevel (o : Outlets) (id : SinkId) (level : Severity) : Outlets :=
  { o with sinks := o.sinks.modify id ({ · with gate := ⟨level⟩ }) }

def setFormatter (o : Outlets) (id : SinkId) (f : FormatterId) : Outlets :=
  { o with sinks := o.sinks.modify id ({ · with formatter := f }) }

/-- Empty a sink that collects its lines. -/
def clear (o : Outlets) (id : SinkId) : Outlets := o.modifyDestination id (·.cleared)

/-- Render a record with a formatter. -/
def format (o : Outlets) (f : FormatterId) (r : Record) : Written × Outlets :=
  match o.formatters.get? f with
  | some formatter =>
    let (written, formatter) := formatter.format r
    (written, { o with formatters := o.formatters.set f formatter })
  | none => (.empty, o)

/-- Write a line to a sink. A write that is held on a worker has no outcome yet. -/
def write (o : Outlets) (onWorker : Bool) (id : SinkId) (bs : Bytes) : Option Outcome × Outlets :=
  match o.sinks.get? id with
  | none => (some .done, o)
  | some sink =>
    match sink.destination with
    | .memory tape => (some .done, o.setDestination id (.memory (tape.push bs)))
    | .console stream _ => (some .done, o.emit stream bs)
    | .file f =>
      let (outcome, f, disk) := f.write o.disk bs
      (some outcome, { o.setDestination id (.file f) with disk := disk })
    | .probe p =>
      let (outcome, p) := p.write onWorker bs
      (outcome, o.setDestination id (.probe p))

/-- Filter, render and write a record. -/
def log (o : Outlets) (onWorker : Bool) (id : SinkId) (r : Record) : Option Outcome × Outlets :=
  match o.sinks.get? id with
  | none => (some .done, o)
  | some sink =>
    if sink.gate.passes r.severity then
      let (written, o) := o.format sink.formatter r
      match written.stop, sink.destination with
      | some p, _ => (some (.panicked p), o)
      | none, .console stream true =>
        (some .done, o.emit stream (Console.colored o.colorsOn r.severity written.bytes))
      | none, _ => o.write onWorker id written.bytes
    else (some .done, o)

/-- Pass on what a sink keeps back. -/
def flush (o : Outlets) (id : SinkId) : Outcome × Outlets :=
  match o.sinks.get? id with
  | none => (.done, o)
  | some sink =>
    match sink.destination with
    | .memory _ => (.done, o)
    | .console _ _ => (.done, o)
    | .file f =>
      let (outcome, f, disk) := f.flush o.disk
      (outcome, { o.setDestination id (.file f) with disk := disk })
    | .probe p =>
      let (outcome, p) := p.flush
      (outcome, o.setDestination id (.probe p))

/-- Let the held write of a probe go on. -/
def letGo (o : Outlets) (id : SinkId) : Option (Outcome × Outlets) :=
  match o.sinks.get? id with
  | some sink =>
    match sink.destination with
    | .probe p => p.letGo.map fun (outcome, p) => (outcome, o.setDestination id (.probe p))
    | _ => none
  | none => none

/-- Close the file of a sink. -/
def closeFile (o : Outlets) (id : SinkId) : Outcome × Outlets :=
  match o.sinks.get? id with
  | some sink =>
    match sink.destination with
    | .file f =>
      let (outcome, f, disk) := f.close o.disk
      (outcome, { o.setDestination id (.file f) with disk := disk })
    | _ => (.done, o)
  | none => (.done, o)

/-- The end of a sink: a file passes on what it keeps back, and reports a failure. -/
def finalize (o : Outlets) (id : SinkId) : Outlets :=
  match o.sinks.get? id with
  | some sink =>
    match sink.destination with
    | .file f =>
      let (outcome, o) := o.closeFile id
      match outcome with
      | .failed e => o.report (.closingFlushFailed f.path e)
      | _ => o
    | _ => o
  | none => o

/-- The name of a sink. -/
def sinkName (o : Outlets) (id : SinkId) : String := ((o.sinks.get? id).map (·.name)).getD ""

end Outlets

end Logbook
