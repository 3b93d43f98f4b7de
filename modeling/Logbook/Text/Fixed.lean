import Logbook.Text.Shortest

/-!
# Doubles with a fixed number of places

The exact value of a double is rounded to a number of decimal places; a value half way between two goes to
the even one.
-/

namespace Logbook.Text

/-- The whole number nearest to `n / d`, the even one of two. -/
def roundEven (n d : Nat) : Nat :=
  let below := n / d
  let twice := 2 * (n % d)
  if twice < d || twice == d && below % 2 == 0 then below else below + 1

/-- A finite double that is not negative, in `places` decimal places. -/
def fixed (places : Nat) (x : Float) : String :=
  let b := Binary.ofBits x.toBits
  let units := roundEven (b.mantissa * Nat.pow 2 b.exponent.toNat * Nat.pow 10 places)
    (Nat.pow 2 (-b.exponent).toNat)
  let digits := Nat.toDigits 10 units
  let padded := List.replicate (places + 1 - digits.length) '0' ++ digits
  let whole := padded.length - places
  String.ofList (padded.take whole ++ if places = 0 then [] else '.' :: padded.drop whole)

end Logbook.Text
