/-!
# Civil dates

Dates of the proleptic Gregorian calendar and the number of days from 1970-01-01 to them. Days are found
from a count of days by cycles of 400 years that start on the first of March, so that the leap day ends
its year.
-/

namespace Logbook.Time

structure Date where
  year : Int
  month : Nat
  day : Nat
  deriving DecidableEq, Repr

/-- Does February of this year have 29 days? -/
def isLeapYear (y : Int) : Bool := y % 4 == 0 && (y % 100 != 0 || y % 400 == 0)

/-- The number of days of a month. -/
def monthLength (y : Int) (m : Nat) : Nat :=
  match m with
  | 2 => if isLeapYear y then 29 else 28
  | 4 | 6 | 9 | 11 => 30
  | _ => 31

namespace Date

/-- Days of a cycle of 400 years. -/
def daysPerCycle : Int := 146097

/-- The days from 0000-03-01 to 1970-01-01. -/
def daysToEpoch : Int := 719468

/-- The year within its cycle, from the day within the cycle. -/
def yearOfCycle (day : Nat) : Nat := (day - day / 1460 + day / 36524 - day / 146096) / 365

/-- The date that lies `days` days after 1970-01-01. -/
def ofDays (days : Int) : Date :=
  let shifted := days + daysToEpoch
  let cycle := shifted / daysPerCycle
  let day := (shifted % daysPerCycle).toNat
  let year := yearOfCycle day
  let yearDay := day - (365 * year + year / 4 - year / 100)
  let marchMonth := (5 * yearDay + 2) / 153
  let month := if marchMonth < 10 then marchMonth + 3 else marchMonth - 9
  { year := year + cycle * 400 + (if month ≤ 2 then 1 else 0)
    month := month
    day := yearDay - (153 * marchMonth + 2) / 5 + 1 }

end Date

end Logbook.Time
