import Logbook.Panic

/-!
# Durations

A duration is shown in the largest unit that it reaches, with as many places as it needs.
-/

namespace Logbook

structure Duration where
  seconds : Nat
  nanos : Nat
  deriving DecidableEq, Repr

namespace Duration

def nanosPerSecond : Nat := 1000000000

/-- The most seconds that can be counted. -/
def maxSeconds : Nat := Nat.pow 2 64 - 1

/-- A duration from seconds and nanoseconds; whole seconds among the nanoseconds are carried over. -/
def ofParts (seconds nanos : Nat) : Except Panic Duration :=
  let total := seconds + nanos / nanosPerSecond
  if maxSeconds < total then .error .durationOverflow else .ok ⟨total, nanos % nanosPerSecond⟩

def ofMillis (ms : Nat) : Duration := ⟨ms / 1000, ms % 1000 * 1000000⟩

/-- A number of `places` decimals below the point, without the zeros at its end; nothing for zero. -/
def fraction (places part : Nat) : String :=
  let digits := Nat.toDigits 10 part
  let padded := List.replicate (places - digits.length) '0' ++ digits
  let kept := (padded.reverse.dropWhile (· == '0')).reverse
  if kept.isEmpty then "" else "." ++ String.ofList kept

/-- The text of a duration: seconds, milliseconds, microseconds or nanoseconds. -/
def text (d : Duration) : String :=
  if 0 < d.seconds then toString d.seconds ++ fraction 9 d.nanos ++ "s"
  else if 1000000 ≤ d.nanos then
    toString (d.nanos / 1000000) ++ fraction 6 (d.nanos % 1000000) ++ "ms"
  else if 1000 ≤ d.nanos then
    toString (d.nanos / 1000) ++ fraction 3 (d.nanos % 1000) ++ "µs"
  else toString d.nanos ++ "ns"

end Duration

end Logbook
