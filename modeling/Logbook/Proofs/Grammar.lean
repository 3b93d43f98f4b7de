import Logbook.Json.Skip

/-!
# The grammar of JSON

JSON values as they may be written, with every freedom that the format leaves: blanks between tokens, characters as
themselves or escaped, digits of either case. What is written carries the proof that it is well-formed.
-/

namespace Logbook.Json

/-! ### Blanks -/

/-- Blanks between two tokens. -/
abbrev Gap := { cs : List Char // ∀ c ∈ cs, isBlank c = true }

namespace Gap

def none : Gap := ⟨[], by simp⟩

@[simp]
theorem val_none : none.val = [] := rfl

def space : Gap := ⟨[' '], by simp [isBlank]⟩

end Gap

/-! ### Texts -/

/-- A hexadecimal digit, in either case. -/
def IsHex (c : Char) (n : Nat) : Prop := n < 16 ∧ (c = Nat.digitChar n ∨ c = (Nat.digitChar n).toUpper)

/-- The four digits of a unit of sixteen bits. -/
inductive IsHexUnit (n : Nat) : List Char → Prop where
  | digits {a b c d : Char} (ha : IsHex a (n / 4096)) (hb : IsHex b (n / 256 % 16)) (hc : IsHex c (n / 16 % 16))
      (hd : IsHex d (n % 16)) : IsHexUnit n [a, b, c, d]

/-- The characters that have an escape of one letter. -/
def shortEscapes : List (Char × Char) :=
  [('"', '"'), ('\\', '\\'), ('/', '/'), ('b', '\x08'), ('f', '\x0c'), ('n', '\n'), ('r', '\r'), ('t', '\t')]

/-- The ways to write a character: as itself, by its letter, or by its number in one or two units. -/
inductive Spells : List Char → Char → Prop where
  | plain {c : Char} (hc : 0x20 ≤ c.toNat) (hquote : c ≠ '"') (hslash : c ≠ '\\') : Spells [c] c
  | short {letter c : Char} (h : (letter, c) ∈ shortEscapes) : Spells ['\\', letter] c
  | unit {c : Char} {digits : List Char} (hc : c.toNat < 0x10000) (h : IsHexUnit c.toNat digits) :
      Spells ('\\' :: 'u' :: digits) c
  | pair {c : Char} {lead trail : List Char} (hc : 0x10000 ≤ c.toNat)
      (hlead : IsHexUnit (0xD800 + (c.toNat - 0x10000) / 1024) lead)
      (htrail : IsHexUnit (0xDC00 + (c.toNat - 0x10000) % 1024) trail) :
      Spells ('\\' :: 'u' :: (lead ++ '\\' :: 'u' :: trail)) c

/-- A character as it is written. -/
structure Glyph where
  text : List Char
  char : Char
  spells : Spells text char

/-- A text between quotes. -/
structure Literal where
  glyphs : List Glyph

namespace Literal

def body (l : Literal) : List Char := l.glyphs.flatMap (·.text)

def text (l : Literal) : List Char := '"' :: (l.body ++ ['"'])

def value (l : Literal) : String := String.ofList (l.glyphs.map (·.char))

end Literal

/-! ### Numbers -/

def IsDigits (ds : List Char) : Prop := ds ≠ [] ∧ ∀ c ∈ ds, isDigit c = true

/-- Digits in front of the point: no zero in front of others. -/
def IsWhole (ds : List Char) : Prop := IsDigits ds ∧ (ds.head? = some '0' → ds = ['0'])

inductive IsFraction : List Char → Prop where
  | absent : IsFraction []
  | digits {ds : List Char} (h : IsDigits ds) : IsFraction ('.' :: ds)

inductive IsExponent : List Char → Prop where
  | absent : IsExponent []
  | digits {mark : Char} {sign ds : List Char} (hmark : mark = 'e' ∨ mark = 'E')
      (hsign : sign ∈ [[], ['+'], ['-']]) (h : IsDigits ds) : IsExponent (mark :: (sign ++ ds))

/-! ### Values -/

/-- A member of an object, with the blanks around its tokens. -/
structure Member (α : Type) where
  front : Gap
  key : Literal
  behindKey : Gap
  beforeValue : Gap
  value : α
  behind : Gap

namespace Member

variable {α β : Type}

def name (m : Member α) : String := m.key.value

def map (f : α → β) (m : Member α) : Member β := { m with value := f m.value }

/-- From the end of the key to the end of the value. -/
def colonValue (m : Member (List Char)) : List Char :=
  m.behindKey.val ++ ':' :: (m.beforeValue.val ++ m.value)

def text (m : Member (List Char)) : List Char :=
  m.front.val ++ (m.key.text ++ (m.colonValue ++ m.behind.val))

end Member

/-- An element of a list, with the blanks around it. -/
structure Item where
  front : Gap
  value : List Char
  behind : Gap

def Item.text (i : Item) : List Char := i.front.val ++ (i.value ++ i.behind.val)

def objectText (members : List (Member (List Char))) (inside : Gap) : List Char :=
  '{' :: (List.intercalate [','] (members.map (·.text)) ++ (inside.val ++ ['}']))

def listText (items : List Item) (inside : Gap) : List Char :=
  '[' :: (List.intercalate [','] (items.map (·.text)) ++ (inside.val ++ [']']))

/-- The well-formed values. -/
inductive IsValue : List Char → Prop where
  | null : IsValue "null".toList
  | bool (b : Bool) : IsValue (toString b).toList
  | number {sign whole fraction exponent : List Char} (hsign : sign ∈ [[], ['-']]) (hwhole : IsWhole whole)
      (hfraction : IsFraction fraction) (hexponent : IsExponent exponent) :
      IsValue (sign ++ (whole ++ (fraction ++ exponent)))
  | text (l : Literal) : IsValue l.text
  | list {items : List Item} (inside : Gap) (h : ∀ i ∈ items, IsValue i.value) : IsValue (listText items inside)
  | object {members : List (Member (List Char))} (inside : Gap) (h : ∀ m ∈ members, IsValue m.value) :
      IsValue (objectText members inside)

end Logbook.Json
