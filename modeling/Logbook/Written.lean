import Logbook.Bytes
import Logbook.Panic

/-!
# Text that may stop short

Rendering appends octets step by step, and a step may panic. What was appended before the panic stays.
`Written` is what one rendering appends together with the panic that ended it, if one did; putting one
after another is `++`, where nothing follows a panic.
-/

namespace Logbook

structure Written where
  bytes : Bytes
  stop : Option Panic
  deriving DecidableEq, Repr

namespace Written

/-- All of `bs`, without a panic. -/
def text (bs : Bytes) : Written := ⟨bs, none⟩

/-- A single character. -/
def char (c : Char) : Written := text [ascii c]

/-- Nothing but a panic. -/
def panic (p : Panic) : Written := ⟨[], some p⟩

/-- Nothing at all. -/
def empty : Written := text []

/-- One after another; a panic in the first keeps the second from being written. -/
def append (a b : Written) : Written :=
  match a.stop with
  | some _ => a
  | none => ⟨a.bytes ++ b.bytes, b.stop⟩

instance : Append Written := ⟨append⟩

theorem text_append (bs : Bytes) (b : Written) : text bs ++ b = ⟨bs ++ b.bytes, b.stop⟩ := rfl

theorem panic_append (p : Panic) (b : Written) : panic p ++ b = panic p := rfl

theorem empty_append (b : Written) : empty ++ b = b := rfl

theorem append_empty (a : Written) : a ++ empty = a := by
  obtain ⟨bytes, stop⟩ := a
  cases stop with
  | none => exact congrArg (Written.mk · none) (List.append_nil bytes)
  | some p => rfl

theorem append_assoc (a b c : Written) : a ++ b ++ c = a ++ (b ++ c) := by
  obtain ⟨x, p⟩ := a
  obtain ⟨y, q⟩ := b
  cases p with
  | some p => rfl
  | none =>
    cases q with
    | some q => rfl
    | none => exact congrArg (Written.mk · c.stop) (List.append_assoc x y c.bytes)

end Written

end Logbook
