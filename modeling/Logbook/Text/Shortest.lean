/-!
# The shortest decimal of a double

A double is m · 2^q. Decimals that lie nearer to it than to its neighbours read back as it; of those, the
ones with the fewest digits are sought, and of these the nearest. All comparisons are exact.
-/

namespace Logbook.Text

/-- A finite double by sign, whole number and power of two. -/
structure Binary where
  negative : Bool
  mantissa : Nat
  exponent : Int
  deriving DecidableEq, Repr

/-- A positive decimal, `digits · 10^exponent`. -/
structure Decimal where
  digits : Nat
  exponent : Int
  deriving DecidableEq, Repr

namespace Binary

/-- The parts of a double, from its bits. Infinities and NaN come out as large numbers. -/
def ofBits (bits : UInt64) : Binary :=
  let raw := bits.toNat
  let biased := raw / Nat.pow 2 52 % 2048
  let fraction := raw % Nat.pow 2 52
  { negative := raw / Nat.pow 2 63 == 1
    mantissa := if biased = 0 then fraction else fraction + Nat.pow 2 52
    exponent := (max biased 1 : Nat) - 1075 }

/-- A double and the ends of the interval that reads back as it, as whole numbers over one denominator. -/
structure Window where
  value : Nat
  low : Nat
  high : Nat
  denominator : Nat
  closed : Bool

/-- The window of a double: half way to each neighbour. The gap below a power of two is half as wide. -/
def window (b : Binary) : Window :=
  let up := Nat.pow 2 (b.exponent - 2).toNat
  let down := Nat.pow 2 (2 - b.exponent).toNat
  let narrow := b.mantissa = Nat.pow 2 52 ∧ -1074 < b.exponent
  { value := 4 * b.mantissa * up
    low := (4 * b.mantissa - if narrow then 1 else 2) * up
    high := (4 * b.mantissa + 2) * up
    denominator := down
    closed := b.mantissa % 2 == 0 }

/-- The window with its unit scaled to `10^k`. -/
def Window.scaled (w : Window) (k : Int) : Window :=
  let up := Nat.pow 10 (-k).toNat
  { w with
    value := w.value * up
    low := w.low * up
    high := w.high * up
    denominator := w.denominator * Nat.pow 10 k.toNat }

/-- Does the whole number `c` lie in the window? -/
def Window.has (w : Window) (c : Nat) : Bool :=
  let x := c * w.denominator
  if w.closed then w.low ≤ x && x ≤ w.high else w.low < x && x < w.high

/-- The whole number in the window that is nearest to the value, if one is in it. -/
def Window.nearest? (w : Window) : Option Nat :=
  let below := w.value / w.denominator
  let twice := 2 * (w.value % w.denominator)
  let takeBelow := twice < w.denominator || twice == w.denominator && below % 2 == 0
  match 0 < below && w.has below, w.has (below + 1) with
  | true, true => some (if takeBelow then below else below + 1)
  | true, false => some below
  | false, true => some (below + 1)
  | false, false => none

/-- The first power of ten, counted down from `k`, on whose grid a decimal reads back. -/
def shortestFrom (w : Window) : Nat → Int → Decimal
  | 0, k => ⟨0, k⟩
  | steps + 1, k =>
    match (w.scaled k).nearest? with
    | some digits => ⟨digits, k⟩
    | none => shortestFrom w steps (k - 1)

/-- The shortest decimal of a double that is not zero. -/
def shortest (b : Binary) : Decimal := shortestFrom b.window 660 310

end Binary

/-- How a real number is written. -/
structure RealFormat where
  /-- The least exponent that is written positionally. -/
  leastPlain : Int
  /-- The greatest exponent that is written positionally. -/
  greatestPlain : Int

namespace RealFormat

/-- Digits with a point after the first `n` of them. -/
def pointed (digits : List Char) (n : Nat) : List Char :=
  if digits.length ≤ n then digits ++ List.replicate (n - digits.length) '0' ++ ['.', '0']
  else digits.take n ++ '.' :: digits.drop n

/-- The text of a decimal. -/
def write (f : RealFormat) (d : Decimal) : List Char :=
  let digits := Nat.toDigits 10 d.digits
  let exponent := d.exponent + (digits.length - 1 : Nat)
  if f.leastPlain ≤ exponent ∧ exponent ≤ f.greatestPlain then
    if 0 ≤ exponent then pointed digits (exponent.toNat + 1)
    else '0' :: '.' :: List.replicate (exponent.natAbs - 1) '0' ++ digits
  else
    let mantissa :=
      match digits with
      | [] => []
      | [c] => [c]
      | c :: rest => c :: '.' :: rest
    mantissa ++ 'e' :: (if exponent < 0 then '-' else '+') :: Nat.toDigits 10 exponent.natAbs

/-- The text of a finite double, given by its bits. -/
def text (f : RealFormat) (bits : UInt64) : String :=
  let b := Binary.ofBits bits
  let size := if b.mantissa = 0 then ['0', '.', '0'] else f.write b.shortest
  String.ofList (if b.negative then '-' :: size else size)

end RealFormat

end Logbook.Text
