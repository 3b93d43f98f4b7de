import Logbook.Error
import Logbook.Tape

/-!
# Probes

A probe collects what is written to it like a memory sink, counts its calls, and can be told to fail. Its
writes on a worker can also be held: a line that ends in `hold` stays in the write until it is let go.
-/

namespace Logbook

/-- How a call of a probe ends. -/
inductive ProbeMode where
  | ok
  | error
  | other
  | panicFixed
  | panicText
  | panicOther
  deriving DecidableEq, Repr

structure Probe where
  tape : Tape
  writes : Nat
  flushes : Nat
  writeMode : ProbeMode
  /-- Writes act by their mode only if they hold these octets. -/
  trigger : Bytes
  flushMode : ProbeMode
  /-- The line of the write that is being held. -/
  held : Option Bytes

namespace ProbeMode

/-- How a call of the given kind ends. -/
def outcome (call : String) : ProbeMode → Outcome
  | ok => .done
  | error => .failed (.writer (call ++ " unavailable"))
  | other => .failed (.other (call ++ " odd"))
  | panicFixed => .panicked (.text "static panic")
  | panicText => .panicked (.text (call ++ " exploded"))
  | panicOther => .panicked .wordless

end ProbeMode

namespace Probe

def new (writeMode : ProbeMode) (trigger : Bytes) (flushMode : ProbeMode) : Probe :=
  ⟨.empty, 0, 0, writeMode, trigger, flushMode, none⟩

/-- The end of a line that is held. -/
def holdMark : Bytes := utf8 "hold\n"

def isHold (bs : Bytes) : Bool := holdMark.isSuffixOf bs

/-- The rest of a write, from the place where it may have been held. -/
def finish (p : Probe) (bs : Bytes) : Outcome × Probe :=
  let outcome := if p.trigger.holds bs then p.writeMode.outcome "write" else .done
  (outcome, if outcome.isDone then { p with tape := p.tape.push bs } else p)

/-- A write. On a worker it may be held, and then has no outcome yet. -/
def write (p : Probe) (onWorker : Bool) (bs : Bytes) : Option Outcome × Probe :=
  let p := { p with writes := p.writes + 1 }
  if onWorker && isHold bs then (none, { p with held := some bs })
  else
    let (outcome, p) := p.finish bs
    (some outcome, p)

/-- Let the held write go on, if there is one. -/
def letGo (p : Probe) : Option (Outcome × Probe) :=
  p.held.map fun bs => { p with held := none }.finish bs

def flush (p : Probe) : Outcome × Probe :=
  (p.flushMode.outcome "flush", { p with flushes := p.flushes + 1 })

end Probe

end Logbook
