import Logbook.Bytes

/-!
# Text that only grows

A tape takes octets at its end. It keeps the pieces that were put on it, the latest first, and their total
length.
-/

namespace Logbook

structure Tape where
  pieces : List Bytes
  length : Nat
  length_eq : length = pieces.flatten.length

namespace Tape

def empty : Tape := ⟨[], 0, rfl⟩

instance : Inhabited Tape := ⟨empty⟩

/-- All octets in order. -/
def bytes (t : Tape) : Bytes := t.pieces.reverse.flatten

/-- Put octets at the end. -/
def push (t : Tape) (bs : Bytes) : Tape where
  pieces := bs :: t.pieces
  length := t.length + bs.length
  length_eq := by
    rw [t.length_eq, List.flatten_cons, List.length_append, Nat.add_comm]

/-- A tape that holds `bs`. -/
def ofBytes (bs : Bytes) : Tape := empty.push bs

def isEmpty (t : Tape) : Bool := t.length == 0

@[simp]
theorem bytes_empty : empty.bytes = [] := rfl

@[simp]
theorem bytes_push (t : Tape) (bs : Bytes) : (t.push bs).bytes = t.bytes ++ bs := by
  simp [push, bytes]

theorem length_bytes (t : Tape) : t.bytes.length = t.length := by
  simp [bytes, t.length_eq, List.length_flatten]

end Tape

end Logbook
