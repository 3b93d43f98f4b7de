import Logbook.Json.Text

/-!
# Numbers in JSON

A numeral is scanned into its digits first and given a value afterwards. Numerals without a fraction or an
exponent are integers as long as they fit 64 bits; all others are doubles, computed from the digits that fit
64 bits and a power of ten.
-/

namespace Logbook.Json

/-- The digits of a numeral. -/
structure Numeral where
  whole : List Char
  fraction : Option (List Char)
  /-- Is the exponent positive, and its digits. -/
  exponent : Option (Bool × List Char)
  deriving DecidableEq, Repr

inductive Number where
  | natural (n : Nat)
  /-- The opposite of a number that is not zero. -/
  | opposite (n : Nat)
  | real (bits : UInt64)
  deriving DecidableEq, Repr

def isDigit (c : Char) : Bool := '0' ≤ c && c ≤ '9'

def digitValue (c : Char) : Nat := c.toNat - '0'.toNat

def takeDigits (cs : List Char) : List Char × List Char := (cs.takeWhile isDigit, cs.dropWhile isDigit)

/-- What is wrong with a numeral that ends at the end of the text. -/
def Rigor.endInNumber : Rigor → Cause
  | .strict => .endInValue
  | .loose => .invalidNumber

/-- At least one digit. -/
def scanDigits (rigor : Rigor) (cs : List Char) : Except Problem (List Char × List Char) :=
  match takeDigits cs with
  | ([], []) => .error (.within rigor.endInNumber cs)
  | ([], _) => .error (.within .invalidNumber cs)
  | (digits, rest) => .ok (digits, rest)

/-- The digits in front of the point; a zero stands alone. -/
def scanWhole (rigor : Rigor) (cs : List Char) : Except Problem (List Char × List Char) :=
  match cs with
  | '0' :: rest =>
    match rest with
    | c :: _ => if isDigit c then .error (.within .invalidNumber rest) else .ok (['0'], rest)
    | [] => .ok (['0'], rest)
  | _ => scanDigits rigor cs

/-- The digits behind the point, if there is one. -/
def scanFraction (rigor : Rigor) (cs : List Char) :
    Except Problem (Option (List Char) × List Char) :=
  match cs with
  | '.' :: rest => (scanDigits rigor rest).map fun (digits, rest) => (some digits, rest)
  | _ => .ok (none, cs)

/-- The sign of an exponent, which may be left out. -/
def takeSign : List Char → Bool × List Char
  | '+' :: rest => (true, rest)
  | '-' :: rest => (false, rest)
  | cs => (true, cs)

/-- The exponent, if there is one. -/
def scanExponent (rigor : Rigor) (cs : List Char) :
    Except Problem (Option (Bool × List Char) × List Char) :=
  match cs with
  | c :: rest =>
    if c = 'e' ∨ c = 'E' then
      let (positive, rest) := takeSign rest
      (scanDigits rigor rest).map fun (digits, rest) => (some (positive, digits), rest)
    else .ok (none, cs)
  | [] => .ok (none, cs)

/-- A numeral behind its sign. -/
def scanNumeral (rigor : Rigor) (cs : List Char) : Except Problem (Numeral × List Char) := do
  let (whole, rest) ← scanWhole rigor cs
  let (fraction, rest) ← scanFraction rigor rest
  let (exponent, rest) ← scanExponent rigor rest
  return (⟨whole, fraction, exponent⟩, rest)

/-! ### Values -/

/-- The greatest integer that is kept as one. -/
def maxInteger : Nat := Nat.pow 2 64 - 1

/-- The greatest exponent. -/
def maxExponent : Nat := Nat.pow 2 31 - 1

/-- Read digits onto `n` as long as the result is at most `bound`; the digits that are left over start with
the one that did not fit. -/
def absorb (bound : Nat) : Nat → List Char → Nat × List Char
  | n, [] => (n, [])
  | n, c :: rest =>
    let m := n * 10 + digitValue c
    if m ≤ bound then absorb bound m rest else (n, c :: rest)

/-- A power of ten as a double. -/
def powerOfTen (n : Nat) : Float := Float.ofScientific 1 false n

/-- The greatest power of ten that is a finite double. -/
def maxPower : Nat := 308

/-- `x · 10^exponent`, or none if it is out of range. Two steps take every number below the least double,
so `steps` past three changes nothing. -/
def scaleBy (steps : Nat) (x : Float) (exponent : Int) : Option Float :=
  if exponent.natAbs ≤ maxPower then
    if 0 ≤ exponent then
      let y := x * powerOfTen exponent.natAbs
      if y.isInf then none else some y
    else some (x / powerOfTen exponent.natAbs)
  else if x == 0.0 then some x
  else if 0 ≤ exponent then none
  else
    match steps with
    | 0 => some 0.0
    | steps + 1 => scaleBy steps (x / powerOfTen maxPower) (exponent + maxPower)

/-- The double of a numeral. `rest` is what follows it. -/
def Numeral.real (numeral : Numeral) (negative : Bool) (rest : List Char) : Except Problem Number :=
  let signed (x : Float) : Number := .real (if negative then -x else x).toBits
  let (whole, more) := absorb maxInteger 0 numeral.whole
  let fraction := numeral.fraction.getD []
  let (significand, unread) := absorb maxInteger whole fraction
  let start : Int := (more.length : Int) - ((fraction.length - unread.length : Nat) : Int)
  let scaled (exponent : Int) : Except Problem Number :=
    match scaleBy 3 significand.toFloat exponent with
    | some x => .ok (signed x)
    | none => .error (.before .numberOutOfRange rest)
  match numeral.exponent with
  | none => scaled start
  | some (positive, digits) =>
    let (exponent, unread) := absorb maxExponent 0 digits
    match unread with
    | [] => scaled (if positive then start + exponent else start - exponent)
    | _ :: unread =>
      if significand ≠ 0 ∧ positive then
        .error (.placed .numberOutOfRange (octets rest + unread.length))
      else .ok (signed 0.0)

/-- The value of a numeral. `rest` is what follows it. -/
def Numeral.value (numeral : Numeral) (negative : Bool) (rest : List Char) : Except Problem Number :=
  match numeral.fraction, numeral.exponent, absorb maxInteger 0 numeral.whole with
  | none, none, (n, []) =>
    if !negative then .ok (.natural n)
    else if n = 0 ∨ Nat.pow 2 63 < n then .ok (.real (-n.toFloat).toBits)
    else .ok (.opposite n)
  | _, _, _ => numeral.real negative rest

/-- A number that starts here, with its sign if it has one. -/
def readNumber (cs : List Char) : Except Problem (Number × List Char) := do
  let (negative, digits) :=
    match cs with
    | '-' :: rest => (true, rest)
    | _ => (false, cs)
  let (numeral, rest) ← scanNumeral .strict digits
  return (← numeral.value negative rest, rest)

/-- A number as it is named in a report. -/
def Number.found : Number → Found
  | natural n => .integer n
  | opposite n => .integer (-n)
  | real bits => .real bits

end Logbook.Json
