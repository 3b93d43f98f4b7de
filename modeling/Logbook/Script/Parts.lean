import Logbook.Format.Formatter
import Logbook.Metrics
import Logbook.Script.Trace

/-!
# Scripts for single parts

Short runs of a gate, of the calendar cache, of a logger's counters and of a formatter, each answering step by
step.
-/

namespace Logbook.Script

/-! ### Gates -/

inductive GateStep where
  | set (level : Severity)
  | check (severity : Severity)
  | level

inductive GateAnswer where
  | done
  | passes (b : Bool)
  | level (s : Severity)

def gateStep (g : Gate) : GateStep → GateAnswer × Gate
  | .set level => (.done, ⟨level⟩)
  | .check severity => (.passes (g.passes severity), g)
  | .level => (.level g.level, g)

def runGate (level : Severity) (steps : List GateStep) : List GateAnswer :=
  (run gateStep ⟨level⟩ steps).1

/-! ### Rendering into a buffer -/

/-- What one rendering left behind. -/
structure Rendering where
  out : Bytes
  hits : Nat
  misses : Nat
  stop : Option Panic

/-- Calendar texts through one cache into one buffer; each answer shows what its step appended. -/
def runCache (times : List CivilTime) : Bytes × List Rendering :=
  let step (cache : SecondCache) (t : CivilTime) : Rendering × SecondCache :=
    let (written, cache) := cache.calendar t
    (⟨written.bytes, cache.hits, cache.misses, written.stop⟩, cache)
  let answers := (run step .empty times).1
  ((answers.map (·.out)).flatten, answers)

/-- Render a record behind what a buffer holds. -/
def renderOnto (f : Formatter) (buffer : Bytes) (r : Record) : Rendering × Formatter :=
  let (written, f) := f.format r
  (⟨buffer ++ written.bytes, f.cache.hits, f.cache.misses, written.stop⟩, f)

/-- A formatter with the buffer that it renders into. -/
structure Typesetter where
  formatter : Formatter
  buffer : Bytes

/-- Render one entry into the buffer, which is emptied first unless `append`. An entry that cannot be shown on
the clock panics before it is rendered. -/
def Typesetter.step (isLocal append : Bool) (t : Typesetter) (entry : Entry) :
    Rendering × Typesetter :=
  let start := if append then t.buffer else []
  let cache := t.formatter.cache
  let (rendering, formatter) :=
    match entry.record isLocal with
    | .ok record => renderOnto t.formatter start record
    | .error p => (⟨start, cache.hits, cache.misses, some p⟩, t.formatter)
  (rendering, ⟨formatter, rendering.out⟩)

/-- Render entries one after another; places without an entry are passed by. -/
def runFormatter (layout : Layout) (isLocal append : Bool) (entries : List (Option Entry)) :
    List (Option Rendering) × Formatter :=
  let step (t : Typesetter) : Option Entry → Option Rendering × Typesetter
    | some entry =>
      let (rendering, t) := t.step isLocal append entry
      (some rendering, t)
    | none => (none, t)
  let (answers, t) := run step ⟨.ofLayout layout, []⟩ entries
  (answers, t.formatter)

/-! ### Counters -/

inductive Counter where
  | logged
  | filtered
  | failures

inductive MetricsStep where
  | record (counter : Counter) (times : Nat)
  | reset
  | save
  | current
  | saved
  | describe

inductive MetricsAnswer where
  | done
  | count (n : Nat)
  | metrics (m : Metrics)
  | text (s : String)

/-- Counters and the copy of them that was saved. -/
structure MetricsPair where
  current : Metrics
  saved : Metrics

def Counter.value (m : Metrics) : Counter → Nat
  | logged => m.logged
  | filtered => m.filtered
  | failures => m.failures

def Counter.add (m : Metrics) (n : Nat) : Counter → Metrics
  | logged => { m with logged := m.logged + n }
  | filtered => { m with filtered := m.filtered + n }
  | failures => { m with failures := m.failures + n }

/-- Counting answers with the count before the last step of it. -/
def metricsStep (p : MetricsPair) : MetricsStep → MetricsAnswer × MetricsPair
  | .record _ 0 => (.done, p)
  | .record counter (n + 1) =>
    (.count (counter.value p.current + n), { p with current := counter.add p.current (n + 1) })
  | .reset => (.done, { p with current := .zero })
  | .save => (.done, { p with saved := p.current })
  | .current => (.metrics p.current, p)
  | .saved => (.metrics p.saved, p)
  | .describe => (.text p.current.shown.inline, p)

def runMetrics (steps : List MetricsStep) : List MetricsAnswer :=
  (run metricsStep ⟨.zero, .zero⟩ steps).1

end Logbook.Script
