import Logbook.Async.Adapter
import Logbook.Metrics

/-!
# Loggers

A logger has a name, a gate, and sinks in the order in which they were attached. Every sink is called for every
record; a sink that fails or panics is reported and counted and does not keep the others from being called.
-/

namespace Logbook

abbrev AdapterId := Nat

abbrev LoggerId := Nat

/-- A sink that a logger writes to: directly, or through an adapter's queue. -/
inductive SinkRef where
  | direct (id : SinkId)
  | queued (id : AdapterId)
  deriving DecidableEq, Repr

structure Logger where
  name : String
  gate : Gate
  sinks : List SinkRef
  factory : FactoryId
  localTime : Bool
  countFiltered : Bool
  metrics : Metrics
  deriving DecidableEq, Repr

namespace Logger

/-- The level of new loggers. -/
def standardLevel : Severity := .info

/-- Attach a sink behind the others, unless it is attached. -/
def attach (sinks : List SinkRef) (s : SinkRef) : List SinkRef :=
  if sinks.contains s then sinks else sinks ++ [s]

def addSink (l : Logger) (s : SinkRef) : Logger := { l with sinks := attach l.sinks s }

/-- Detach a sink, if it is attached. -/
def removeSink (l : Logger) (s : SinkRef) : Logger := { l with sinks := l.sinks.filter (· != s) }

def setLevel (l : Logger) (s : Severity) : Logger := { l with gate := ⟨s⟩ }

/-- Count an entry that was turned away, if the logger counts those. -/
def recordFiltered (l : Logger) : Logger :=
  if l.countFiltered then { l with metrics := l.metrics.countFiltered } else l

/-- The notice for a call of a sink that did not end well. -/
def notice? (logger sink : String) : Outcome → Option Notice
  | .done => none
  | .failed e => some (.sinkFailed sink logger e)
  | .panicked p => some (.sinkPanicked sink logger p)

/-- How a logger acts on a state: calls of sinks, their names, and notices. -/
structure Desk (σ : Type) where
  call : SinkRef → σ → Outcome × σ
  nameOf : SinkRef → σ → String
  report : Notice → σ → σ

/-- Call every sink in order, whatever the others do. Gives the number of calls that did not end well. -/
def fanOut {σ : Type} (desk : Desk σ) (logger : String) : List SinkRef → σ → Nat × σ
  | [], s => (0, s)
  | sink :: rest, s =>
    let (outcome, s) := desk.call sink s
    match notice? logger (desk.nameOf sink s) outcome with
    | none => fanOut desk logger rest s
    | some n =>
      let (failures, s) := fanOut desk logger rest (desk.report n s)
      (failures + 1, s)

/-- Count a call of a sink that did not end well. -/
def countFailure (l : Logger) : Logger := { l with metrics := l.metrics.countFailure }

/-- Count a record that every sink was called for. -/
def countLogged (l : Logger) : Logger := { l with metrics := l.metrics.countLogged }

/-- Count a record that went to every sink, and the calls of sinks that did not end well. -/
def countDispatch (l : Logger) (failures : Nat) : Logger :=
  { l with
    metrics := { l.metrics.countLogged with failures := l.metrics.failures + failures } }

/-- Flush every sink, past errors; the first error is the outcome. A panic ends the flush. -/
def flushAll {σ : Type} (desk : Desk σ) : List SinkRef → σ → Outcome × σ
  | [], s => (.done, s)
  | sink :: rest, s =>
    match desk.call sink s with
    | (.done, s) => flushAll desk rest s
    | (.panicked p, s) => (.panicked p, s)
    | (.failed e, s) =>
      let s := desk.report (.flushFailed (desk.nameOf sink s) e) s
      match flushAll desk rest s with
      | (.panicked p, s) => (.panicked p, s)
      | (_, s) => (.failed e, s)

open Text (Shown)

def shown (l : Logger) : Shown :=
  .record "Logger"
    [("name", .text l.name), ("level", .atom l.gate.level.title), ("sinks", .nat l.sinks.length),
     ("local_time", .bool l.localTime), ("count_filtered", .bool l.countFiltered)]

end Logger

end Logbook
