import Logbook.Text.Unprintable

/-!
# Quoted text

The form in which diagnostic texts show a text: between double quotes, with the quote and the backslash
escaped, the common control characters as a letter, and every other unprintable character as its number.
-/

namespace Logbook.Text

/-- A number in lower-case hexadecimal digits. -/
def hexadecimal (n : Nat) : String := String.ofList (Nat.toDigits 16 n)

/-- A character as it stands between the quotes. -/
def quotedChar (c : Char) : String :=
  match c with
  | '\t' => "\\t"
  | '\r' => "\\r"
  | '\n' => "\\n"
  | '"' => "\\\""
  | '\\' => "\\\\"
  | '\x00' => "\\0"
  | c => if isUnprintable c then "\\u\x7b" ++ hexadecimal c.toNat ++ "\x7d" else c.toString

/-- A text between quotes. -/
def quoted (s : String) : String :=
  "\"" ++ String.join (s.toList.map quotedChar) ++ "\""

end Logbook.Text
