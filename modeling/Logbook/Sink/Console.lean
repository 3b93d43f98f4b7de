import Logbook.Severity
import Logbook.Text.Utf8

/-!
# Console lines

Lines for a terminal, in the colour of their severity. A line that ends the colour itself gets it back.
-/

namespace Logbook

/-- A standard stream. -/
inductive Stream where
  | out
  | err
  deriving DecidableEq, Repr

namespace Stream

/-- The name of the sink that writes to a stream. -/
def sinkName : Stream → String
  | out => "stdout"
  | err => "stderr"

def title : Stream → String
  | out => "Stdout"
  | err => "Stderr"

end Stream

namespace Console

/-- The start of a colour. -/
def colorMark (s : Severity) : List Char := '\x1b' :: '[' :: (Nat.toDigits 10 s.color ++ ['m'])

/-- The end of all colours. -/
def resetMark : List Char := ['\x1b', '[', '0', 'm']

/-- Put `mark` behind every end of colour. `line` comes in reverse. -/
def recolor (mark : List Char) (line : List Char) : List Char → List Char
  | [] => line.reverse
  | '\x1b' :: '[' :: '0' :: 'm' :: rest => recolor mark (mark.reverse ++ resetMark.reverse ++ line) rest
  | c :: rest => recolor mark (c :: line) rest

/-- A text without one line feed at its end. -/
def withoutEnd (cs : List Char) : List Char :=
  match cs.reverse with
  | '\n' :: rest => rest.reverse
  | _ => cs

/-- A line in the colour of a severity, or in none if colours are switched off. -/
def colored (colorsOn : Bool) (s : Severity) (line : Bytes) : Bytes :=
  let body := withoutEnd (Text.Utf8.lossy line).toList
  let mark := colorMark s
  let text := if colorsOn then mark ++ recolor mark [] body ++ resetMark else body
  utf8 (String.ofList (text ++ ['\n']))

end Console

end Logbook
