import Logbook.World

/-!
# Runs of a world

Operations on loggers and sinks, one after another. A call of a sink may be followed by steps of any workers.
-/

namespace Logbook.World

/-- The workers that take a step behind the call of a sink, in order. -/
abbrev Schedule := SinkRef → List AdapterId

def Schedule.pace (schedule : Schedule) : Pace := fun sink w => (schedule sink).foldl work w

inductive LogOp where
  | log (logger : LoggerId) (e : Entry) (schedule : Schedule)
  | setLevel (logger : LoggerId) (level : Severity)
  | addSink (logger : LoggerId) (sink : SinkRef)
  | removeSink (logger : LoggerId) (sink : SinkRef)
  | setSinkLevel (sink : SinkRef) (level : Severity)
  | setSinkFormatter (sink : SinkRef) (f : FormatterId)
  | clearSink (id : SinkId)

/-- Logging may panic; the other operations do not. -/
def perform (w : World) : LogOp → Option Panic × World
  | .log logger e schedule => w.log schedule.pace logger e
  | .setLevel logger level => (none, w.modifyLogger logger (·.setLevel level))
  | .addSink logger sink => (none, w.modifyLogger logger (·.addSink sink))
  | .removeSink logger sink => (none, w.modifyLogger logger (·.removeSink sink))
  | .setSinkLevel sink level => (none, w.setSinkLevel sink level)
  | .setSinkFormatter sink f => (none, w.setSinkFormatter sink f)
  | .clearSink id => (none, w.clearSink id)

/-- The world after operations in order. -/
def performAll (w : World) (ops : List LogOp) : World := ops.foldl (fun w op => (w.perform op).2) w

theorem withAdapter_of_some {α : Type} {w : World} {id : AdapterId} {a : Adapter} (ha : w.adapters.get? id = some a) (missing : α)
    (act : Adapter → Plant → α × Adapter × Plant) :
    w.withAdapter id missing act =
      ((act a w.plant).1,
        { w with plant := (act a w.plant).2.2, adapters := w.adapters.set id (act a w.plant).2.1 }) := by
  unfold World.withAdapter
  rw [ha]

end Logbook.World
