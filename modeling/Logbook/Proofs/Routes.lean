import Logbook.Proofs.Runs

/-!
# Ways to log

An entry is logged as it is. A message is logged under the name of its logger, whose gate is asked before the entry
is made and again when it is logged.
-/

namespace Logbook

inductive Call where
  | entry (e : Entry)
  /-- A message, with the place in the code that it comes from. -/
  | message (severity : Severity) (text file line : Bytes) (time : Timestamp)

def Call.severity : Call → Severity
  | entry e => e.severity
  | message severity .. => severity

/-- The entry that a call on the logger of that name is about. -/
def Call.toEntry (name : String) : Call → Entry
  | entry e => e
  | message severity text file line time => ⟨severity, utf8 name, file, line, text, time⟩

namespace World

variable {w : World} {l : LoggerId} {logger : Logger}

def say (w : World) (pace : Pace) (l : LoggerId) : Call → Option Panic × World
  | .entry e => w.log pace l e
  | .message severity text file line time =>
    match w.loggers.get? l with
    | none => (none, w)
    | some logger =>
      if logger.gate.passes severity then
        w.log pace l ⟨severity, utf8 logger.name, file, line, text, time⟩
      else (none, w.recordFiltered l)

/-- A message that comes from nowhere in particular. -/
theorem say_message (w : World) (pace : Pace) (l : LoggerId) (severity : Severity) (text : Bytes)
    (time : Timestamp) :
    w.say pace l (.message severity text [] [] time) = w.logMessage pace l severity text time := rfl

/-! ### What becomes of an entry -/

theorem log_of_missing (h : w.loggers.get? l = none) (pace : Pace) (e : Entry) : w.log pace l e = (none, w) := by
  unfold log
  rw [h]

theorem log_of_rejected (h : w.loggers.get? l = some logger) (pace : Pace) {e : Entry}
    (hgate : logger.gate.passes e.severity = false) : w.log pace l e = (none, w.recordFiltered l) := by
  unfold log
  rw [h]
  dsimp only
  rw [hgate]
  rfl

theorem log_of_panic (h : w.loggers.get? l = some logger) (pace : Pace) {e : Entry} {p : Panic} {store : Store}
    (hgate : logger.gate.passes e.severity = true)
    (hcapture : Snapshot.capture e logger.localTime (·.acquire logger.factory) w.plant.store = (.error p, store)) :
    w.log pace l e = (some p, w.setStore store) := by
  unfold log
  rw [h]
  dsimp only
  rw [hgate, if_pos rfl, hcapture]

theorem log_of_captured (h : w.loggers.get? l = some logger) (pace : Pace) {e : Entry} {s : Snapshot}
    {store : Store} (hgate : logger.gate.passes e.severity = true)
    (hcapture : Snapshot.capture e logger.localTime (·.acquire logger.factory) w.plant.store = (.ok s, store)) :
    w.log pace l e = (none, ((w.setStore store).dispatch pace l s).setStore
      (s.drop ((w.setStore store).dispatch pace l s).plant.store)) := by
  unfold log
  rw [h]
  dsimp only
  rw [hgate, if_pos rfl, hcapture]

/-- While the level stays, the second question to the gate is answered as the first. -/
theorem say_eq_log (h : w.loggers.get? l = some logger) (pace : Pace) (call : Call) :
    w.say pace l call = w.log pace l (call.toEntry logger.name) := by
  cases call with
  | entry e => rfl
  | message severity text file line time =>
    unfold say
    rw [h]
    dsimp only
    cases hgate : logger.gate.passes severity with
    | true => rfl
    | false => exact (log_of_rejected h pace hgate).symm

theorem say_of_missing (h : w.loggers.get? l = none) (pace : Pace) (call : Call) : w.say pace l call = (none, w) := by
  cases call with
  | entry e => exact log_of_missing h pace e
  | message severity text file line time =>
    unfold say
    rw [h]

end World

end Logbook
