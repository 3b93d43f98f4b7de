import Logbook.Severity
import Logbook.Time.Timestamp

/-!
# Entries and records

An entry is one event as it is reported. A record is what formatters see of it: the same texts, with the
time already split into calendar fields.
-/

namespace Logbook

structure Entry where
  severity : Severity
  name : Bytes
  file : Bytes
  line : Bytes
  message : Bytes
  time : Timestamp
  deriving Repr

structure Record where
  severity : Severity
  name : Bytes
  file : Bytes
  line : Bytes
  message : Bytes
  time : CivilTime
  deriving DecidableEq, Repr

namespace Entry

/-- The texts of an entry in the order in which they are stored. -/
def fields (e : Entry) : List Bytes := [e.name, e.file, e.line, e.message]

/-- All texts of an entry, back to back. -/
def text (e : Entry) : Bytes := e.name ++ e.file ++ e.line ++ e.message

/-- The record of an entry on the given clock. -/
def record (e : Entry) (isLocal : Bool) (offset : Int := Timestamp.localOffset) : Except Panic Record :=
  (e.time.decompose isLocal offset).map fun time =>
    ⟨e.severity, e.name, e.file, e.line, e.message, time⟩

end Entry

end Logbook
