import Logbook.Json.Problem

/-!
# Texts in JSON

Reading goes one character at a time: a plain character, an escape, or the closing quote. Writing escapes the
quote, the backslash and control characters and nothing else.
-/

namespace Logbook.Json

/-- How closely texts and numbers are examined. Values that are passed over are read loosely: their
surrogates need no partner and their numbers no bound. -/
inductive Rigor where
  | strict
  | loose
  deriving DecidableEq, Repr

/-- The value of a hexadecimal digit. -/
def hexValue? (c : Char) : Option Nat :=
  if '0' ≤ c ∧ c ≤ '9' then some (c.toNat - '0'.toNat)
  else if 'a' ≤ c ∧ c ≤ 'f' then some (c.toNat - 'a'.toNat + 10)
  else if 'A' ≤ c ∧ c ≤ 'F' then some (c.toNat - 'A'.toNat + 10)
  else none

/-- Four hexadecimal digits, the most significant first. -/
def hexUnit? (a b c d : Char) : Option Nat := do
  let a ← hexValue? a
  let b ← hexValue? b
  let c ← hexValue? c
  let d ← hexValue? d
  return ((a * 16 + b) * 16 + c) * 16 + d

/-- The four digits of a hexadecimal escape. They are counted in octets, so a character of several octets
among them is a bad digit even where fewer than four characters are left. -/
def readHex (cs : List Char) : Except Problem (Nat × List Char) :=
  match cs with
  | a :: b :: c :: d :: rest =>
    match hexUnit? a b c d with
    | some n => .ok (n, rest)
    | none => .error (.placed .invalidEscape (octets cs - 4))
  | _ =>
    if 4 ≤ octets cs then .error (.placed .invalidEscape (octets cs - 4))
    else .error (.placed .endInText 0)

def isLeading (n : Nat) : Bool := 0xD800 ≤ n && n ≤ 0xDBFF

def isTrailing (n : Nat) : Bool := 0xDC00 ≤ n && n ≤ 0xDFFF

/-- The character of a pair of surrogates. -/
def ofSurrogates (lead trail : Nat) : Char :=
  Char.ofNat (0x10000 + (lead - 0xD800) * 1024 + (trail - 0xDC00))

/-- The character of an escape by number, behind its `u`. -/
def readUnit (rigor : Rigor) (cs : List Char) : Except Problem (Char × List Char) := do
  let (n, rest) ← readHex cs
  if rigor = .loose then return (Char.ofNat n, rest)
  if isTrailing n then throw (.before .loneSurrogate rest)
  if !isLeading n then return (Char.ofNat n, rest)
  match rest with
  | [] => throw (.before .endInText rest)
  | '\\' :: rest =>
    match rest with
    | [] => throw (.before .endInText rest)
    | 'u' :: rest =>
      let (m, rest) ← readHex rest
      if isTrailing m then return (ofSurrogates n m, rest)
      else throw (.before .loneSurrogate rest)
    | _ => throw (.within .unpairedSurrogate rest)
  | _ => throw (.within .unpairedSurrogate rest)

/-- The character of an escape, behind its backslash. -/
def readEscape (rigor : Rigor) (cs : List Char) : Except Problem (Char × List Char) :=
  match cs with
  | [] => .error (.before .endInText cs)
  | 'u' :: rest => readUnit rigor rest
  | c :: rest =>
    match c with
    | '"' => .ok ('"', rest)
    | '\\' => .ok ('\\', rest)
    | '/' => .ok ('/', rest)
    | 'b' => .ok ('\x08', rest)
    | 'f' => .ok ('\x0c', rest)
    | 'n' => .ok ('\n', rest)
    | 'r' => .ok ('\r', rest)
    | 't' => .ok ('\t', rest)
    | _ => .error (.within .invalidEscape cs)

/-- The next character of a text, or none at its closing quote. -/
def readChar (rigor : Rigor) (cs : List Char) : Except Problem (Option Char × List Char) :=
  match cs with
  | [] => .error (.before .endInText cs)
  | '"' :: rest => .ok (none, rest)
  | '\\' :: rest => (readEscape rigor rest).map fun (c, rest) => (some c, rest)
  | c :: rest =>
    if c.toNat < 0x20 then
      .error (match rigor with
        | .strict => .within .controlCharacter cs
        | .loose => .before .controlCharacter cs)
    else .ok (some c, rest)

theorem readHex_length {cs rest : List Char} {n : Nat} (h : readHex cs = .ok (n, rest)) :
    rest.length < cs.length := by
  unfold readHex at h
  split at h
  · split at h
    · cases h; simp only [List.length_cons]; omega
    · cases h
  · split at h <;> cases h

theorem readUnit_length {rigor : Rigor} {cs rest : List Char} {c : Char}
    (h : readUnit rigor cs = .ok (c, rest)) : rest.length < cs.length := by
  unfold readUnit at h
  cases hx : readHex cs with
  | error p => rw [hx] at h; cases h
  | ok r =>
    obtain ⟨n, mid⟩ := r
    have first := readHex_length hx
    rw [hx] at h
    simp only [bind, Except.bind, pure, Except.pure, throw, throwThe, MonadExceptOf.throw] at h
    split at h
    · cases h; exact first
    · split at h
      · cases h
      · split at h
        · cases h; exact first
        · split at h
          · cases h
          · split at h
            · cases h
            · rename_i after
              cases hy : readHex after with
              | error p => rw [hy] at h; cases h
              | ok r' =>
                obtain ⟨m, last⟩ := r'
                have second := readHex_length hy
                rw [hy] at h
                simp only at h
                split at h
                · simp only [Except.ok.injEq, Prod.mk.injEq] at h
                  simp only [List.length_cons] at first
                  rw [← h.2]
                  omega
                · cases h
            · cases h
          · cases h

theorem readEscape_length {rigor : Rigor} {cs rest : List Char} {c : Char}
    (h : readEscape rigor cs = .ok (c, rest)) : rest.length < cs.length := by
  unfold readEscape at h
  split at h
  · cases h
  · have := readUnit_length h
    simp only [List.length_cons]
    omega
  · split at h <;> cases h <;> simp

/-- Reading a character shortens the text. -/
theorem readChar_length {rigor : Rigor} {cs rest : List Char} {c : Option Char}
    (h : readChar rigor cs = .ok (c, rest)) : rest.length < cs.length := by
  unfold readChar at h
  split at h
  · cases h
  · cases h; simp
  · rename_i tail
    cases he : readEscape rigor tail with
    | error p => rw [he] at h; cases h
    | ok r =>
      obtain ⟨d, last⟩ := r
      have := readEscape_length he
      rw [he] at h
      cases h
      simp only [List.length_cons]
      omega
  · split at h
    · split at h <;> cases h
    · cases h; simp

/-- The characters of a text behind `done`, both ends in reverse, and what follows its closing quote. -/
def readTextOnto (rigor : Rigor) (done : List Char) (cs : List Char) :
    Except Problem (List Char × List Char) :=
  match _read : readChar rigor cs with
  | .error p => .error p
  | .ok (none, rest) => .ok (done, rest)
  | .ok (some c, rest) => readTextOnto rigor (c :: done) rest
termination_by cs.length
decreasing_by exact readChar_length (by assumption)

/-- A text behind its opening quote, and what follows its closing quote. -/
def readText (rigor : Rigor) (cs : List Char) : Except Problem (String × List Char) :=
  (readTextOnto rigor [] cs).map fun (done, rest) => (String.ofList done.reverse, rest)

/-- Two hexadecimal digits. -/
def hexPair (n : Nat) : List Char := [Nat.digitChar (n / 16), Nat.digitChar (n % 16)]

/-- A character as it stands in a written text. -/
def escapedChar (c : Char) : List Char :=
  match c with
  | '"' => ['\\', '"']
  | '\\' => ['\\', '\\']
  | '\x08' => ['\\', 'b']
  | '\x0c' => ['\\', 'f']
  | '\n' => ['\\', 'n']
  | '\r' => ['\\', 'r']
  | '\t' => ['\\', 't']
  | c => if c.toNat < 0x20 then '\\' :: 'u' :: '0' :: '0' :: hexPair c.toNat else [c]

/-- The written form of a text, with its quotes. -/
def writeText (s : String) : List Char := '"' :: (s.toList.flatMap escapedChar ++ ['"'])

end Logbook.Json
