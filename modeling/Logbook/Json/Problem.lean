import Logbook.Text.Quoted
import Logbook.Text.Shortest
import Logbook.Bytes

/-!
# What can be wrong with a JSON text

A problem has a cause and a place. Places are given by the number of octets of the text that were still
unread, so a reader needs no more than the rest of its text to report one; line and column follow from the
whole text at the end. Some problems are found only after their value was read, and get their place from
the object or list that encloses them.
-/

namespace Logbook.Json

/-- A value that was found where another kind was expected. -/
inductive Found where
  | null
  | boolean (b : Bool)
  | integer (n : Int)
  /-- A number that is no integer, by the bits of its double. -/
  | real (bits : UInt64)
  | text (s : String)
  | list
  | object
  deriving DecidableEq, Repr

inductive Cause where
  | endInValue
  | endInObject
  | endInList
  | endInText
  | noValue
  | noWord
  | noColon
  | noListComma
  | noObjectComma
  | keyNotText
  | trailingComma
  | trailingCharacters
  | invalidNumber
  | numberOutOfRange
  | invalidEscape
  | controlCharacter
  | loneSurrogate
  | unpairedSurrogate
  | tooDeep
  | wrongKind (found : Found) (expected : String)
  | wrongSign (n : Int) (expected : String)
  | unknownField (name : String) (known : List String)
  | duplicateField (name : String)
  | invalidLevel (text : String)
  deriving DecidableEq, Repr

/-- Reals are written positionally from 10^-5 to below 10^16, and with a signed exponent outside. -/
def realFormat : Text.RealFormat := ⟨-5, 15⟩

namespace Found

def message : Found → String
  | null => "null"
  | boolean b => s!"boolean `{b}`"
  | integer n => s!"integer `{n}`"
  | real bits => "floating point `" ++ realFormat.text bits ++ "`"
  | text s => "string " ++ Text.quoted s
  | list => "sequence"
  | object => "map"

end Found

namespace Cause

def message : Cause → String
  | endInValue => "EOF while parsing a value"
  | endInObject => "EOF while parsing an object"
  | endInList => "EOF while parsing a list"
  | endInText => "EOF while parsing a string"
  | noValue => "expected value"
  | noWord => "expected ident"
  | noColon => "expected `:`"
  | noListComma => "expected `,` or `]`"
  | noObjectComma => "expected `,` or `\x7d`"
  | keyNotText => "key must be a string"
  | trailingComma => "trailing comma"
  | trailingCharacters => "trailing characters"
  | invalidNumber => "invalid number"
  | numberOutOfRange => "number out of range"
  | invalidEscape => "invalid escape"
  | controlCharacter => "control character (\\u0000-\\u001F) found while parsing a string"
  | loneSurrogate => "lone leading surrogate in hex escape"
  | unpairedSurrogate => "unexpected end of hex escape"
  | tooDeep => "recursion limit exceeded"
  | wrongKind found expected => "invalid type: " ++ found.message ++ ", expected " ++ expected
  | wrongSign n expected => s!"invalid value: integer `{n}`, expected {expected}"
  | unknownField name known =>
    s!"unknown field `{name}`, expected one of " ++
      ", ".intercalate (known.map fun field => s!"`{field}`")
  | duplicateField name => s!"duplicate field `{name}`"
  | invalidLevel text => s!"Invalid log level: '{text}'"

end Cause

/-- A problem while its text is being read. -/
inductive Problem where
  /-- With its place: the octets left to read. -/
  | placed (cause : Cause) (left : Nat)
  /-- Without a place, and what follows where it was found. -/
  | floating (cause : Cause) (rest : List Char)
  deriving DecidableEq, Repr

/-- The number of octets of a text. -/
def octets (cs : List Char) : Nat := cs.foldl (fun n c => n + c.utf8Size) 0

namespace Problem

/-- A problem right in front of `rest`. -/
def before (cause : Cause) (rest : List Char) : Problem := placed cause (octets rest)

/-- A problem with the first octet of `rest`, which counts as read if there is one. -/
def within (cause : Cause) (rest : List Char) : Problem := placed cause (octets rest - 1)

/-- Give a problem the place that is reached behind `rest` by `close`, unless it has one. -/
def settle (close : List Char → List Char) : Problem → Problem
  | placed cause left => placed cause left
  | floating cause rest => before cause (close rest)

end Problem

/-- A line, counted from one, and the octets of it that were read. -/
structure Position where
  line : Nat
  column : Nat
  deriving DecidableEq, Repr

namespace Position

def start : Position := ⟨1, 0⟩

/-- The position behind one more octet. -/
def step (p : Position) (b : UInt8) : Position :=
  if b = ascii '\n' then ⟨p.line + 1, 0⟩ else ⟨p.line, p.column + 1⟩

/-- The position behind the first `n` octets of a text. -/
def ofOffset (bs : Bytes) (n : Nat) : Position := (bs.take n).foldl step start

end Position

/-- A problem as it is reported. -/
structure Report where
  cause : Cause
  position : Option Position
  deriving DecidableEq, Repr

namespace Report

def message (r : Report) : String :=
  match r.position with
  | some p => r.cause.message ++ s!" at line {p.line} column {p.column}"
  | none => r.cause.message

end Report

/-- The report of a problem in `text`. -/
def Problem.report (text : String) : Problem → Report
  | .placed cause left =>
    let bs := utf8 text
    ⟨cause, some (Position.ofOffset bs (bs.length - left))⟩
  | .floating cause _ => ⟨cause, none⟩

end Logbook.Json
