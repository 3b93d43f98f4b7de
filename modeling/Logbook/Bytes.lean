/-!
# Octets

Everything that is logged, buffered or written is a list of octets. Names, paths and messages that come
from configuration are texts; `utf8` is the one way from a text to the octets that are written for it.
-/

namespace Logbook

/-- Logged text, as the octets that are written. -/
abbrev Bytes := List UInt8

/-- The most octets that one piece of memory can have. -/
def maxAllocation : Nat := Nat.pow 2 63 - 1

/-- The octets of a text in UTF-8. -/
def utf8 (s : String) : Bytes := s.toList.flatMap String.utf8EncodeChar

/-- The octet of an ASCII character. -/
def ascii (c : Char) : UInt8 := c.toUInt8

namespace Bytes

/-- Does `part` occur somewhere in the octets? Every text has the empty part. -/
def holds (part : Bytes) : Bytes → Bool
  | [] => part.isEmpty
  | b :: rest => part.isPrefixOf (b :: rest) || holds part rest

/-- `n` copies of `bs`, one after another. -/
def times (n : Nat) (bs : Bytes) : Bytes := (List.replicate n bs).flatten

theorem length_times (n : Nat) (bs : Bytes) : (times n bs).length = n * bs.length := by
  simp [times]

end Bytes

end Logbook
