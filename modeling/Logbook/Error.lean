import Logbook.Json.Problem
import Logbook.Panic
import Logbook.System

/-!
# Errors and outcomes

An error says why a call was refused. A call of a sink ends well, with an error, or in a panic.
-/

namespace Logbook

inductive Error where
  /-- The system refused a step; the system's own words are not shown. -/
  | whileDoing (operation message : String)
  /-- The system refused a transfer. -/
  | system (e : SystemError)
  | json (r : Json.Report)
  | invalidLevel (text : String)
  | invalidConfiguration (component message : String)
  | writer (text : String)
  | stopped (sink : String)
  /-- The worker behind a queue is gone. -/
  | disconnected
  | other (text : String)
  deriving DecidableEq, Repr

namespace Error

def message : Error → String
  | whileDoing operation message => s!"IO error while {operation}: {message}"
  | system e => "IO error: " ++ e.message
  | json r => "JSON error: " ++ r.message
  | invalidLevel text => s!"Invalid log level: '{text}'"
  | invalidConfiguration component message => s!"Invalid configuration for {component}: {message}"
  | writer text => s!"Writer error: {text}"
  | stopped sink => s!"Sink '{sink}' already stopped"
  | disconnected => "Failed to send to sink worker: channel disconnected"
  | other text => text

/-- Was the error caused by another one that can be looked at? -/
def hasSource : Error → Bool
  | whileDoing _ _ => true
  | system _ => true
  | json _ => true
  | _ => false

end Error

/-- How a call of a sink ends. -/
inductive Outcome where
  | done
  | failed (e : Error)
  | panicked (p : Panic)
  deriving DecidableEq, Repr

namespace Outcome

def isDone : Outcome → Bool
  | done => true
  | _ => false

end Outcome

end Logbook
