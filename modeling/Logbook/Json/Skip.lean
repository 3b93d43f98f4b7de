import Logbook.Json.Reader

/-!
# Passing over values

A value of any kind is checked and thrown away. Open objects and lists are kept on a stack, so a value may be
nested to any depth where it is passed over loosely; a strict reading bounds the depth.
-/

namespace Logbook.Json

/-- An enclosing container. -/
inductive Frame where
  | list
  | object
  deriving DecidableEq, Repr

/-- What comes next. -/
inductive Phase where
  /-- A value. -/
  | value
  /-- The first element or member of the innermost container, or its end. -/
  | opened
  /-- What follows a value: a comma, or the end of the innermost container. -/
  | closed
  deriving DecidableEq, Repr

/-- The deepest nesting of a strict reading. -/
def maxDepth : Nat := 127

namespace Frame

def close : Frame → Char
  | list => ']'
  | object => '}'

def endCause : Frame → Cause
  | list => .endInList
  | object => .endInObject

def commaCause : Frame → Cause
  | list => .noListComma
  | object => .noObjectComma

end Frame

/-- A key with its colon, up to its value. -/
def skipKey (rigor : Rigor) (cs : List Char) : Except Problem (List Char) :=
  match skipBlanks cs with
  | '"' :: rest => do
    let (_, rest) ← readText rigor rest
    readColon rest
  | [] => .error (.within .endInObject [])
  | cs => .error (.within .keyNotText cs)

/-- What must follow a comma: a value in a list, a key and a value in an object. A strict reading says that a
comma in front of the end is one too many. -/
def skipComma (rigor : Rigor) (frame : Frame) (cs : List Char) : Except Problem (List Char) :=
  match rigor, skipBlanks cs with
  | .strict, [] => .error (.within .endInValue [])
  | .strict, c :: rest =>
    if c = frame.close then .error (.within .trailingComma (c :: rest))
    else if frame = .object then skipKey rigor (c :: rest)
    else .ok (c :: rest)
  | .loose, cs => if frame = .object then skipKey rigor cs else .ok cs

/-- A scalar. -/
def skipScalar (rigor : Rigor) (cs : List Char) : Except Problem (List Char) :=
  match cs with
  | 'n' :: rest => readWord "ull".toList rest
  | 't' :: rest => readWord "rue".toList rest
  | 'f' :: rest => readWord "alse".toList rest
  | '"' :: rest => (readText rigor rest).map (·.2)
  | c :: rest =>
    if c = '-' ∨ isDigit c then
      match rigor with
      | .strict => (readNumber cs).map (·.2)
      | .loose => (scanNumeral .loose (if c = '-' then rest else cs)).map (·.2)
    else .error (.within .noValue cs)
  | [] => .error (.within .endInValue [])

/-- Open a container, unless that nests too deep. -/
def openFrame (rigor : Rigor) (frame : Frame) (frames : List Frame) (cs : List Char) :
    Except Problem (List Frame) :=
  if rigor = .strict ∧ maxDepth ≤ frames.length then .error (.within .tooDeep cs)
  else .ok (frame :: frames)

/-- Pass over what is left of a value inside the containers `frames`. Of any two turns one reads a character,
so `fuel` is bounded by twice the length of the text. -/
def skipFrom (rigor : Rigor) : Nat → Phase → List Frame → List Char → Except Problem (List Char)
  | 0, _, _, cs => .error (.before .endInValue cs)
  | fuel + 1, .value, frames, cs => do
    match skipBlanks cs with
    | '[' :: rest =>
      let frames ← openFrame rigor .list frames ('[' :: rest)
      skipFrom rigor fuel .opened frames rest
    | '{' :: rest =>
      let frames ← openFrame rigor .object frames ('{' :: rest)
      skipFrom rigor fuel .opened frames rest
    | cs =>
      let rest ← skipScalar rigor cs
      skipFrom rigor fuel .closed frames rest
  | _ + 1, .opened, [], cs => .ok cs
  | fuel + 1, .opened, frame :: frames, cs =>
    match skipBlanks cs with
    | [] => .error (.within frame.endCause [])
    | c :: rest =>
      if c = frame.close then skipFrom rigor fuel .closed frames rest
      else if frame = .object then do
        let rest ← skipKey rigor (c :: rest)
        skipFrom rigor fuel .value (frame :: frames) rest
      else skipFrom rigor fuel .value (frame :: frames) (c :: rest)
  | _ + 1, .closed, [], cs => .ok cs
  | fuel + 1, .closed, frame :: frames, cs =>
    match skipBlanks cs with
    | [] => .error (.within frame.endCause [])
    | c :: rest =>
      if c = frame.close then skipFrom rigor fuel .closed frames rest
      else if c = ',' then do
        let rest ← skipComma rigor frame rest
        skipFrom rigor fuel .value (frame :: frames) rest
      else .error (.within frame.commaCause (c :: rest))

/-- Pass over one value. -/
def skipValue (rigor : Rigor) : Reader Unit := fun cs =>
  (skipFrom rigor (2 * cs.length + 2) .value [] cs).map ((), ·)

/-- Check that a text is one JSON value. -/
def validate (text : String) : Except Report Unit := readWhole (skipValue .strict) text

end Logbook.Json
