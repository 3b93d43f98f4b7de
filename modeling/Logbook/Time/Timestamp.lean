import Logbook.Panic
import Logbook.Text.Shown
import Logbook.Time.Date

/-!
# Timestamps and civil time

A timestamp counts seconds and nanoseconds from 1970-01-01 00:00:00 UTC. A leap second is the second half of
a doubled nanosecond range; one that is given by its parts stands at the end of a minute. Civil time is the
calendar form of a timestamp, in UTC or at the fixed offset of the local clock.
-/

namespace Logbook

/-- The first second of the first representable year. -/
def Timestamp.first : Int := -8334601228800

/-- The last second of the last representable year. -/
def Timestamp.last : Int := 8210266876799

structure Timestamp where
  second : Int
  nanos : Nat
  first_le : Timestamp.first ≤ second
  le_last : second ≤ Timestamp.last
  nanos_lt : nanos < 2000000000
  deriving DecidableEq, Repr

/-- The fields of a timestamp on the calendar and the clock. The second since the epoch is kept beside
them and does not depend on the clock that shows the time. -/
structure CivilTime where
  year : Int
  month : Nat
  day : Nat
  hour : Nat
  minute : Nat
  second : Nat
  microsecond : Nat
  isLocal : Bool
  epochSecond : Int
  deriving DecidableEq, Repr

namespace CivilTime

/-- Every field zero. -/
def zero : CivilTime := ⟨0, 0, 0, 0, 0, 0, 0, false, 0⟩

/-- The microseconds, rounded to the nearest millisecond. -/
def milliseconds (t : CivilTime) : Nat :=
  t.microsecond / 1000 + if 500 ≤ t.microsecond % 1000 then 1 else 0

open Text (Shown)

def shown (t : CivilTime) : Shown :=
  .record "DecomposedTime"
    [("year", .int t.year), ("month", .nat t.month), ("day", .nat t.day), ("hour", .nat t.hour),
     ("minute", .nat t.minute), ("second", .nat t.second), ("microseconds", .nat t.microsecond),
     ("is_local", .bool t.isLocal), ("epoch_second", .int t.epochSecond)]

end CivilTime

namespace Timestamp

/-- The timestamp of a second and nanoseconds, if they are one. -/
def ofParts? (second : Int) (nanos : Nat) : Option Timestamp :=
  if h : first ≤ second ∧ second ≤ last ∧
      (nanos < 1000000000 ∨ (nanos < 2000000000 ∧ second % 60 = 59)) then
    some ⟨second, nanos, h.1, h.2.1, by omega⟩
  else none

/-- 1970-01-01 00:00:00 UTC. -/
def epoch : Timestamp := ⟨0, 0, by decide, by decide, by decide⟩

instance : Inhabited Timestamp := ⟨epoch⟩

def secondsPerDay : Int := 86400

/-- The local clock is ahead of UTC by five hours and three quarters. -/
def localOffset : Int := 20700

/-- The microseconds within the second; a leap second shows the last one. -/
def microsecond (t : Timestamp) : Nat := min (t.nanos / 1000) 999999

/-- Civil time on a clock that is `offset` seconds ahead of UTC. -/
def atOffset (t : Timestamp) (offset : Int) (isLocal : Bool) : CivilTime :=
  let shown := t.second + offset
  let date := Time.Date.ofDays (shown / secondsPerDay)
  let clock := (shown % secondsPerDay).toNat
  { year := date.year
    month := date.month
    day := date.day
    hour := clock / 3600
    minute := clock / 60 % 60
    second := clock % 60
    microsecond := t.microsecond
    isLocal := isLocal
    epochSecond := t.second }

/-- Civil time in UTC, or on a local clock that is `offset` seconds ahead of it, which panics where it would
leave the representable seconds. -/
def decompose (t : Timestamp) (isLocal : Bool) (offset : Int := localOffset) : Except Panic CivilTime :=
  if isLocal then
    if t.second + offset < first ∨ last < t.second + offset then .error .localTime
    else .ok (t.atOffset offset true)
  else .ok (t.atOffset 0 false)

end Timestamp

end Logbook
