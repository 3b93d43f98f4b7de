import Logbook.Written

/-!
# Decimal numerals

Canonical numerals, numerals of a fixed width, and years. A number that is too wide for its field panics
before anything is written.
-/

namespace Logbook.Text

/-- The octet of the last decimal digit of `n`. -/
def lastDigit (n : Nat) : UInt8 := UInt8.ofNat (48 + n % 10)

/-- The canonical decimal numeral of `n`. -/
def decimal (n : Nat) : Bytes :=
  if n < 10 then [lastDigit n] else decimal (n / 10) ++ [lastDigit n]

/-- The last `width` digits of `n`, zeros in front where it has fewer. -/
def lowDigits : Nat → Nat → Bytes
  | 0, _ => []
  | width + 1, n => lowDigits width (n / 10) ++ [lastDigit n]

theorem length_lowDigits (width n : Nat) : (lowDigits width n).length = width := by
  induction width generalizing n with
  | zero => rfl
  | succ width ih => simp [lowDigits, ih]

/-- `n` in exactly `width` digits, for widths from one to six. -/
def padded (width n : Nat) : Written :=
  if width < 1 ∨ 6 < width then .panic .padWidth
  else if Nat.pow 10 width ≤ n then .panic (.tooManyDigits n width)
  else .text (lowDigits width n)

/-- A year in at least four digits, with a sign before year zero only. -/
def year (y : Int) : Written :=
  let sign := if y < 0 then .char '-' else .empty
  sign ++ if y.natAbs ≤ 9999 then padded 4 y.natAbs else .text (decimal y.natAbs)

end Logbook.Text
