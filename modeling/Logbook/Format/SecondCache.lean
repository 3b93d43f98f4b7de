import Logbook.Time.Layout

/-!
# The calendar text of the last second

Records of one second share their calendar text, so the last one rendered is kept under its second and
clock. A rendering that panics is counted as a miss and leaves what is kept as it was.
-/

namespace Logbook

/-- What tells calendar texts apart: the second since the epoch, and the clock. -/
structure SecondKey where
  epochSecond : Int
  isLocal : Bool
  deriving DecidableEq, Repr

structure SecondCache where
  kept : Option (SecondKey × Bytes)
  hits : Nat
  misses : Nat
  deriving DecidableEq, Repr

namespace SecondCache

def empty : SecondCache := ⟨none, 0, 0⟩

def keyOf (t : CivilTime) : SecondKey := ⟨t.epochSecond, t.isLocal⟩

/-- The text kept under a key. -/
def find? (c : SecondCache) (k : SecondKey) : Option Bytes :=
  match c.kept with
  | some (k', bs) => if k' = k then some bs else none
  | none => none

/-- The calendar text of a time, taken from the cache if it is kept there. -/
def calendar (c : SecondCache) (t : CivilTime) : Written × SecondCache :=
  match c.find? (keyOf t) with
  | some bs => (.text bs, { c with hits := c.hits + 1 })
  | none =>
    let written := t.calendar
    match written.stop with
    | some _ => (written, { c with misses := c.misses + 1 })
    | none => (written, ⟨some (keyOf t, written.bytes), c.hits, c.misses + 1⟩)

/-- Every call is a hit or a miss. -/
theorem calls_calendar (c : SecondCache) (t : CivilTime) :
    (c.calendar t).2.hits + (c.calendar t).2.misses = c.hits + c.misses + 1 := by
  unfold calendar
  split
  · simp only; omega
  · dsimp only
    split <;> simp only <;> omega

end SecondCache

end Logbook
