import Logbook.Bytes

/-!
# Shortened paths

A path is shortened to its last segments, which a slash divides. The cut is found from the end: it lies
behind the slash that ends the segments to leave out.
-/

namespace Logbook.Path

/-- The octet between segments. -/
def slash : UInt8 := ascii '/'

/-- Walk a path from its end, given in reverse, until `segments` slashes have been met; `kept` is what
stands behind. -/
def keepOnto (kept : Bytes) : Nat → Bytes → Bytes
  | 0, _ => kept
  | _ + 1, [] => kept
  | segments + 1, b :: before =>
    if b = slash then
      if segments = 0 then kept else keepOnto (b :: kept) segments before
    else keepOnto (b :: kept) (segments + 1) before

/-- The last `segments` segments of a path, or all of it if it has no more. -/
def lastSegments (segments : Nat) (path : Bytes) : Bytes := keepOnto [] segments path.reverse

/-- The last two segments. -/
def lastTwo (path : Bytes) : Bytes := lastSegments 2 path

end Logbook.Path
