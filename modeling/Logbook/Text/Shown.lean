import Logbook.Text.Quoted

/-!
# Diagnostic texts

The structure of a value as diagnostics show it, and its two written forms: on one line, and with every part
on a line of its own, indented by four blanks for each depth.
-/

namespace Logbook.Text

inductive Shown where
  /-- A text that stands for itself. -/
  | atom (text : String)
  /-- A name and named parts. -/
  | record (name : String) (parts : List (String × Shown))
  /-- A name and parts in order. -/
  | tuple (name : String) (parts : List Shown)
  /-- Parts in order. -/
  | list (parts : List Shown)

namespace Shown

def nat (n : Nat) : Shown := atom (toString n)

def int (n : Int) : Shown := atom (toString n)

def bool (b : Bool) : Shown := atom (toString b)

def text (s : String) : Shown := atom (quoted s)

def option : Option Shown → Shown
  | some part => tuple "Some" [part]
  | none => atom "None"

mutual

/-- On one line. -/
def inline : Shown → String
  | atom text => text
  | record name [] => name
  | record name (part :: parts) =>
    name ++ " \x7b " ++ ", ".intercalate (inlineFields (part :: parts)) ++ " \x7d"
  | tuple name parts => name ++ "(" ++ ", ".intercalate (inlineAll parts) ++ ")"
  | list parts => "[" ++ ", ".intercalate (inlineAll parts) ++ "]"

def inlineAll : List Shown → List String
  | [] => []
  | part :: parts => inline part :: inlineAll parts

def inlineFields : List (String × Shown) → List String
  | [] => []
  | (name, part) :: parts => (name ++ ": " ++ inline part) :: inlineFields parts

end

/-- The indentation of a depth. -/
def margin (depth : Nat) : String := String.ofList (List.replicate (4 * depth) ' ')

/-- Lines between an opening and a closing mark, each ended by a comma. -/
def block (opening closing : String) (depth : Nat) (lines : List String) : String :=
  match lines with
  | [] => opening ++ closing
  | lines =>
    opening ++ "\n" ++ String.join (lines.map fun line => margin (depth + 1) ++ line ++ ",\n") ++
      margin depth ++ closing

mutual

/-- With every part on a line of its own, for a value that stands at a depth. -/
def lines (depth : Nat) : Shown → String
  | atom text => text
  | record name [] => name
  | record name (part :: parts) =>
    block (name ++ " \x7b") "\x7d" depth (linesFields (depth + 1) (part :: parts))
  | tuple name parts => block (name ++ "(") ")" depth (linesAll (depth + 1) parts)
  | list parts => block "[" "]" depth (linesAll (depth + 1) parts)

def linesAll (depth : Nat) : List Shown → List String
  | [] => []
  | part :: parts => lines depth part :: linesAll depth parts

def linesFields (depth : Nat) : List (String × Shown) → List String
  | [] => []
  | (name, part) :: parts => (name ++ ": " ++ lines depth part) :: linesFields depth parts

end

/-- The text of a value, on one line or on several. -/
def render (pretty : Bool) (s : Shown) : String := if pretty then s.lines 0 else s.inline

end Shown

end Logbook.Text
