import Logbook.Proofs.Capture
import Logbook.Proofs.Roster
import Mathlib.Data.List.Nodup
import Mathlib.Data.Nat.Find
import Mathlib.Tactic.MkIffOfInductiveProp

/-!
# Fan-out

Which sinks a logger has, and in which order, is determined by the history of attaching and detaching them. A record
goes to each of them once and in that order: no outcome of a call keeps the later calls from being made.
-/

namespace Logbook

/-! ### Attaching and detaching -/

namespace Logger

variable {sinks : List SinkRef} {sink : SinkRef}

end Logger

inductive SinkChange where
  | attach (sink : SinkRef)
  | detach (sink : SinkRef)
  deriving DecidableEq

namespace SinkChange

def apply (sinks : List SinkRef) : SinkChange → List SinkRef
  | attach sink => Logger.attach sinks sink
  | detach sink => sinks.filter (· != sink)

variable {history : List SinkChange} {c d : SinkChange} {sink key : SinkRef} {sinks : List SinkRef} {i k : Nat}

end SinkChange

/-! ### Sinks over time -/

namespace World

variable {w : World} {l : LoggerId} {logger : Logger}

end World

/-! ### Calls -/

namespace Logger

section

variable {σ : Type} {desk : Desk σ} {name : String} {sinks : List SinkRef} {s : σ}

/-- The same desk, which takes down every call and how it ended. -/
def Desk.noting (desk : Desk σ) : Desk (σ × List (SinkRef × Outcome)) where
  call sink s := ((desk.call sink s.1).1, (desk.call sink s.1).2, s.2 ++ [(sink, (desk.call sink s.1).1)])
  nameOf sink s := desk.nameOf sink s.1
  report n s := (desk.report n s.1, s.2)

end

end Logger

namespace World

end World

end Logbook
