import Logbook.Format.Stage
import Logbook.Text.Shown

/-!
# Formatters

A formatter renders records as lines. It is a single stage or a pipeline of stages, with the calendar cache
that its stages share.
-/

namespace Logbook

inductive Layout where
  | single (stage : Stage)
  | pipeline (stages : List Stage)
  deriving DecidableEq, Repr

namespace Layout

def stages : Layout → List Stage
  | single s => [s]
  | pipeline ss => ss

def isPipeline : Layout → Bool
  | single _ => false
  | pipeline _ => true

/-- A further stage at the end; a single stage becomes a pipeline of two. -/
def push (l : Layout) (s : Stage) : Layout := pipeline (l.stages ++ [s])

end Layout

structure Formatter where
  layout : Layout
  cache : SecondCache
  deriving DecidableEq, Repr

namespace Formatter

/-- A formatter with nothing cached. -/
def ofLayout (l : Layout) : Formatter := ⟨l, .empty⟩

/-- The standard line in one stage. -/
def standard : Formatter := ofLayout (.single .standard)

instance : Inhabited Formatter := ⟨standard⟩

/-- What the whole formatter appends when a stage of it renders the record once more: a cache of its own,
and no third rendering. -/
def inner (f : Formatter) (r : Record) : Written :=
  (Stage.writeAll (fun _ => .empty) f.layout.stages r .empty).1

/-- What a formatter appends for a record, and the formatter afterwards. -/
def format (f : Formatter) (r : Record) : Written × Formatter :=
  let (written, cache) := Stage.writeAll (fun _ => f.inner r) f.layout.stages r f.cache
  (written, { f with cache := cache })

open Text (Shown)

def shown (f : Formatter) : Shown :=
  .record "Formatter"
    [("pipeline", .bool f.layout.isPipeline), ("stages", .nat f.layout.stages.length)]

end Formatter

end Logbook
