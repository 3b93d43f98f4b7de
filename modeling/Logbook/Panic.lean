import Logbook.Bytes

/-!
# Panics

A panic ends a call where it stands. It carries a text, or something that is not a text.
-/

namespace Logbook

inductive Panic where
  /-- A field width outside one to six. -/
  | padWidth
  /-- A number with more digits than its field. -/
  | tooManyDigits (value width : Nat)
  /-- A time that the local clock cannot show. -/
  | localTime
  /-- A duration of more seconds than can be counted. -/
  | durationOverflow
  /-- A piece of memory that is larger than any can be. -/
  | capacityOverflow
  /-- A queue with more places than can be numbered. -/
  | queueTooLarge
  /-- The name of a worker, given in octets, with a zero in it. -/
  | workerName (name : Bytes)
  /-- A panic raised with a text of its own. -/
  | text (message : String)
  /-- A panic raised with something that is not a text. -/
  | wordless
  deriving DecidableEq, Repr

namespace Panic

/-- The text of a panic, if it has one. -/
def message? : Panic → Option String
  | padWidth => some "pad width must be 1..=6"
  | tooManyDigits n w => some s!"{n} does not fit in {w} digits"
  | localTime => some "Local time out of range for `NaiveDateTime`"
  | durationOverflow => some "overflow in Duration::new"
  | capacityOverflow => some "capacity overflow"
  | queueTooLarge => some "bounded channel capacity is too large"
  | workerName name =>
    let octets := ", ".intercalate (name.map fun b => toString b.toNat)
    some s!"thread name may not contain interior null bytes: NulError({name.idxOf 0}, [{octets}])"
  | text m => some m
  | wordless => none

end Panic

end Logbook
