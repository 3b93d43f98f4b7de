import Logbook.Json.Number

/-!
# Reading typed values

A reader takes the text from where it stands and gives a value with the rest of the text, or a problem. Blanks
may stand in front of every token. Objects are folded member by member and lists element by element, so that
each typed reader says only what a key or an element means to it.
-/

namespace Logbook.Json

/-- Reads a value of type `α` from the front of a text. -/
abbrev Reader (α : Type) := List Char → Except Problem (α × List Char)

def isBlank (c : Char) : Bool := c == ' ' || c == '\n' || c == '\t' || c == '\r'

def skipBlanks (cs : List Char) : List Char := cs.dropWhile isBlank

/-- The remaining characters of a word such as `true`. -/
def readWord (word : List Char) (cs : List Char) : Except Problem (List Char) :=
  match word, cs with
  | [], _ => .ok cs
  | _ :: _, [] => .error (.before .endInValue cs)
  | w :: word, c :: rest => if c = w then readWord word rest else .error (.within .noWord cs)

/-- Where an object ends that cannot be read to its end: its brace is taken if it is next. -/
def closeObject (cs : List Char) : List Char :=
  match skipBlanks cs with
  | '}' :: rest => rest
  | rest => rest

/-- Where a list ends that cannot be read to its end: its bracket is taken if it is next, or a comma with the
blanks behind it. -/
def closeList (cs : List Char) : List Char :=
  match skipBlanks cs with
  | ']' :: rest => rest
  | ',' :: rest => skipBlanks rest
  | rest => rest

/-- Read a scalar of the wrong kind to its end and report it. Lists and objects are not entered. -/
def wrongKind (expected : String) (cs : List Char) : Problem :=
  let report (found : Found) (rest : List Char) : Problem := .before (.wrongKind found expected) rest
  let word (w : String) (found : Found) (rest : List Char) : Problem :=
    match readWord w.toList rest with
    | .ok rest => report found rest
    | .error p => p
  match cs with
  | 'n' :: rest => word "ull" .null rest
  | 't' :: rest => word "rue" (.boolean true) rest
  | 'f' :: rest => word "alse" (.boolean false) rest
  | '"' :: rest =>
    match readText .strict rest with
    | .ok (s, rest) => report (.text s) rest
    | .error p => p
  | '[' :: _ => report .list cs
  | '{' :: _ => report .object cs
  | c :: _ =>
    if c = '-' ∨ isDigit c then
      match readNumber cs with
      | .ok (n, rest) => report n.found rest
      | .error p => p
    else .within .noValue cs
  | [] => .within .endInValue cs

/-- A text value. -/
def readString : Reader String := fun cs =>
  match skipBlanks cs with
  | '"' :: rest => readText .strict rest
  | cs => .error (wrongKind "a string" cs)

/-- A truth value. -/
def readBool : Reader Bool := fun cs =>
  match skipBlanks cs with
  | 't' :: rest => (readWord "rue".toList rest).map (true, ·)
  | 'f' :: rest => (readWord "alse".toList rest).map (false, ·)
  | cs => .error (wrongKind "a boolean" cs)

/-- A count, or null for none. -/
def readCount : Reader (Option Nat) := fun cs =>
  match skipBlanks cs with
  | 'n' :: rest => (readWord "ull".toList rest).map (none, ·)
  | c :: rest =>
    if c = '-' ∨ isDigit c then do
      let (n, after) ← readNumber (c :: rest)
      match n with
      | .natural n => return (some n, after)
      | .opposite n => throw (.before (.wrongSign (-n) "usize") after)
      | .real bits => throw (.before (.wrongKind (.real bits) "usize") after)
    else .error (wrongKind "usize" (c :: rest))
  | [] => .error (wrongKind "usize" [])

/-- The colon between a key and its value. -/
def readColon (cs : List Char) : Except Problem (List Char) :=
  match skipBlanks cs with
  | ':' :: rest => .ok rest
  | [] => .error (.within .endInObject [])
  | cs => .error (.within .noColon cs)

/-- Step to the next key of an object, behind its opening quote, or to its closing brace. -/
def nextKey (first : Bool) (cs : List Char) : Except Problem (Bool × List Char) :=
  match skipBlanks cs with
  | [] => .error (.within .endInObject [])
  | '}' :: rest => .ok (false, rest)
  | c :: rest =>
    if first then
      if c = '"' then .ok (true, rest) else .error (.within .keyNotText (c :: rest))
    else if c = ',' then
      match skipBlanks rest with
      | '"' :: rest => .ok (true, rest)
      | '}' :: rest => .error (.within .trailingComma ('}' :: rest))
      | [] => .error (.within .endInValue [])
      | rest => .error (.within .keyNotText rest)
    else .error (.within .noObjectComma (c :: rest))

/-- Fold the members of an object into a state. `fuel` bounds their number; the length of the text does. -/
def foldMembers {σ : Type} (member : σ → String → Reader σ) :
    Nat → Bool → σ → List Char → Except Problem (σ × List Char)
  | 0, _, _, cs => .error (.before .endInObject cs)
  | fuel + 1, first, state, cs => do
    let (more, cs) ← nextKey first cs
    if more then
      let (key, cs) ← readText .strict cs
      let (state, cs) ← member state key cs
      foldMembers member fuel false state cs
    else return (state, cs)

/-- The object behind an opening brace, folded into a state. Problems without a place get it here. -/
def readMembers {σ : Type} (member : σ → String → Reader σ) (state : σ) : Reader σ := fun cs =>
  (foldMembers member (cs.length + 1) true state cs).mapError (.settle closeObject)

/-- Step to the next element of a list, or stay in front of its closing bracket. -/
def nextElement (first : Bool) (cs : List Char) : Except Problem (Bool × List Char) :=
  match skipBlanks cs with
  | [] => .error (.within .endInList [])
  | ']' :: rest => .ok (false, ']' :: rest)
  | c :: rest =>
    if first then .ok (true, c :: rest)
    else if c = ',' then
      match skipBlanks rest with
      | ']' :: rest => .error (.within .trailingComma (']' :: rest))
      | [] => .error (.within .endInValue [])
      | rest => .ok (true, rest)
    else .error (.within .noListComma (c :: rest))

/-- The end of a list that stands for a record. -/
def readListEnd (cs : List Char) : Except Problem (List Char) :=
  match skipBlanks cs with
  | ']' :: rest => .ok rest
  | ',' :: rest =>
    match skipBlanks rest with
    | ']' :: rest => .error (.within .trailingComma (']' :: rest))
    | rest => .error (.within .trailingCharacters rest)
  | [] => .error (.within .endInList [])
  | rest => .error (.within .trailingCharacters rest)

/-- Fold the elements of a list into a state, each by the reader of its place; readers that find no element
are left out. -/
def foldElements {σ : Type} : List (σ → Reader σ) → Bool → σ → List Char →
    Except Problem (σ × List Char)
  | [], _, state, cs => .ok (state, cs)
  | element :: others, first, state, cs => do
    let (more, cs) ← nextElement first cs
    if more then
      let (state, cs) ← element state cs
      foldElements others false state cs
    else return (state, cs)

/-- The list behind an opening bracket, whose elements are the fields of a record in order. -/
def readElements {σ : Type} (elements : List (σ → Reader σ)) (state : σ) : Reader σ := fun cs => do
  let (state, cs) ← (foldElements elements true state cs).mapError (.settle closeList)
  return (state, ← readListEnd cs)

/-- A record: an object, or a list of its fields in order. -/
def readRecord {σ : Type} (expected : String) (member : σ → String → Reader σ)
    (elements : List (σ → Reader σ)) (state : σ) : Reader σ := fun cs =>
  match skipBlanks cs with
  | '{' :: rest => readMembers member state rest
  | '[' :: rest => readElements elements state rest
  | cs => .error (wrongKind expected cs)

/-- A whole text: one value, and nothing but blanks behind it. -/
def readWhole {α : Type} (read : Reader α) (text : String) : Except Report α :=
  let result : Except Problem α := do
    let (a, rest) ← read text.toList
    match skipBlanks rest with
    | [] => return a
    | rest => throw (.within .trailingCharacters rest)
  result.mapError (·.report text)

end Logbook.Json
