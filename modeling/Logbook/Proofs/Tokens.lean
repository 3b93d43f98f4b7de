import Logbook.Proofs.Grammar
import Mathlib.Tactic.ByContra

/-!
# Reading tokens

What the readers of single tokens make of the tokens of the grammar: each takes exactly its token and leaves the rest.
-/

namespace Logbook.Json

variable {cs ds rest : List Char} {rigor : Rigor}

theorem map_eq_ok {ε α β : Type} {x : Except ε α} {f : α → β} {b : β} (h : x.map f = .ok b) :
    ∃ a, x = .ok a ∧ f a = b := by
  cases x with
  | error e => cases h
  | ok a =>
    cases h
    exact ⟨a, rfl, rfl⟩

theorem mapError_eq_ok {ε δ α : Type} {x : Except ε α} {f : ε → δ} {a : α} (h : x.mapError f = .ok a) : x = .ok a := by
  cases x with
  | error e => cases h
  | ok b =>
    cases h
    rfl

/-! ### Blanks, words and colons -/

@[simp]
theorem skipBlanks_gap (g : Gap) (cs : List Char) : skipBlanks (g.val ++ cs) = skipBlanks cs :=
  List.dropWhile_append_of_pos g.property

theorem skipBlanks_cons {c : Char} (hc : isBlank c = false) (cs : List Char) : skipBlanks (c :: cs) = c :: cs := by
  unfold skipBlanks
  rw [List.dropWhile_cons, if_neg (by simp [hc])]

@[simp]
theorem readWord_append (word rest : List Char) : readWord word (word ++ rest) = .ok rest := by
  induction word with
  | nil => cases rest <;> rfl
  | cons c word ih =>
    simp only [List.cons_append, readWord, if_pos]
    exact ih

theorem readColon_gap (g : Gap) (rest : List Char) : readColon (g.val ++ ':' :: rest) = .ok rest := by
  unfold readColon
  rw [skipBlanks_gap, skipBlanks_cons (by decide)]
  rfl

/-! ### Texts -/

theorem hexValue?_digitChar : ∀ n < 16,
    hexValue? (Nat.digitChar n) = some n ∧ hexValue? (Nat.digitChar n).toUpper = some n := by
  decide

theorem hexValue?_of_isHex {c : Char} {n : Nat} (h : IsHex c n) : hexValue? c = some n := by
  obtain ⟨hn, hlower | hupper⟩ := h
  · rw [hlower]
    exact (hexValue?_digitChar n hn).1
  · rw [hupper]
    exact (hexValue?_digitChar n hn).2

theorem readHex_unit {n : Nat} {digits : List Char} (h : IsHexUnit n digits) (rest : List Char) :
    readHex (digits ++ rest) = .ok (n, rest) := by
  obtain ⟨ha, hb, hc, hd⟩ := h
  have hunit : ((n / 4096 * 16 + n / 256 % 16) * 16 + n / 16 % 16) * 16 + n % 16 = n := by omega
  simp only [List.cons_append, List.nil_append, readHex, hexUnit?, hexValue?_of_isHex ha, hexValue?_of_isHex hb,
    hexValue?_of_isHex hc, hexValue?_of_isHex hd]
  simp [hunit]

theorem toNat_not_surrogate (c : Char) : isLeading c.toNat = false ∧ isTrailing c.toNat = false := by
  have hvalid := c.valid
  have hval : c.val.toNat = c.toNat := rfl
  simp only [UInt32.isValidChar, Nat.isValidChar, hval] at hvalid
  simp only [isLeading, isTrailing, Bool.and_eq_false_iff, decide_eq_false_iff_not]
  omega

theorem toNat_lt (c : Char) : c.toNat < 0x110000 := by
  have hvalid := c.valid
  have hval : c.val.toNat = c.toNat := rfl
  simp only [UInt32.isValidChar, Nat.isValidChar, hval] at hvalid
  omega

theorem readUnit_unit {c : Char} {digits : List Char} (h : IsHexUnit c.toNat digits) (rest : List Char) :
    readUnit rigor (digits ++ rest) = .ok (c, rest) := by
  obtain ⟨hlead, htrail⟩ := toNat_not_surrogate c
  unfold readUnit
  rw [readHex_unit h]
  cases rigor
  · simp [bind, Except.bind, pure, Except.pure, hlead, htrail]
  · simp [bind, Except.bind, pure, Except.pure]

theorem readUnit_surrogates {n m : Nat} {lead trail : List Char} (hlead : IsHexUnit n lead)
    (htrail : IsHexUnit m trail) (hn : isLeading n = true) (hm : isTrailing m = true) (rest : List Char) :
    readUnit .strict (lead ++ '\\' :: 'u' :: (trail ++ rest)) = .ok (ofSurrogates n m, rest) := by
  have hfirst : isTrailing n = false := by
    simp only [isLeading, isTrailing, Bool.and_eq_true, Bool.and_eq_false_iff, decide_eq_true_eq,
      decide_eq_false_iff_not] at hn ⊢
    omega
  unfold readUnit
  rw [readHex_unit hlead]
  simp [bind, Except.bind, pure, Except.pure, hfirst, hn, readHex_unit htrail, hm]

theorem ofSurrogates_units {n : Nat} (hn : 0x10000 ≤ n) :
    ofSurrogates (0xD800 + (n - 0x10000) / 1024) (0xDC00 + (n - 0x10000) % 1024) = Char.ofNat n := by
  have hsum : 0x10000 + (0xD800 + (n - 0x10000) / 1024 - 0xD800) * 1024 +
      (0xDC00 + (n - 0x10000) % 1024 - 0xDC00) = n := by
    omega
  exact congrArg Char.ofNat hsum

theorem units_surrogates {n : Nat} (hn : n < 0x110000) :
    isLeading (0xD800 + (n - 0x10000) / 1024) = true ∧ isTrailing (0xDC00 + (n - 0x10000) % 1024) = true := by
  simp only [isLeading, isTrailing, Bool.and_eq_true, decide_eq_true_eq]
  omega

theorem readUnit_pair {c : Char} {lead trail : List Char} (hc : 0x10000 ≤ c.toNat)
    (hlead : IsHexUnit (0xD800 + (c.toNat - 0x10000) / 1024) lead)
    (htrail : IsHexUnit (0xDC00 + (c.toNat - 0x10000) % 1024) trail) (rest : List Char) :
    readUnit .strict (lead ++ '\\' :: 'u' :: (trail ++ rest)) = .ok (c, rest) := by
  obtain ⟨hfirst, hsecond⟩ := units_surrogates (toNat_lt c)
  rw [readUnit_surrogates hlead htrail hfirst hsecond, ofSurrogates_units hc, Char.ofNat_toNat]

theorem readEscape_short {letter c : Char} (h : (letter, c) ∈ shortEscapes) (rest : List Char) :
    readEscape rigor (letter :: rest) = .ok (c, rest) := by
  simp only [shortEscapes, List.mem_cons, Prod.mk.injEq, List.not_mem_nil, or_false] at h
  rcases h with ⟨rfl, rfl⟩ | ⟨rfl, rfl⟩ | ⟨rfl, rfl⟩ | ⟨rfl, rfl⟩ | ⟨rfl, rfl⟩ | ⟨rfl, rfl⟩ | ⟨rfl, rfl⟩ |
    ⟨rfl, rfl⟩ <;> rfl

theorem readChar_plain {c : Char} (hc : 0x20 ≤ c.toNat) (hquote : c ≠ '"') (hslash : c ≠ '\\') (rest : List Char) :
    readChar rigor (c :: rest) = .ok (some c, rest) := by
  unfold readChar
  split
  · rename_i h
    cases h
  · rename_i h
    cases h
    exact absurd rfl hquote
  · rename_i h
    cases h
    exact absurd rfl hslash
  · rename_i h
    cases h
    rw [if_neg (by omega)]

theorem readChar_glyph (g : Glyph) (rest : List Char) :
    readChar .strict (g.text ++ rest) = .ok (some g.char, rest) := by
  obtain ⟨text, c, h⟩ := g
  cases h with
  | plain hc hquote hslash => exact readChar_plain hc hquote hslash rest
  | short h =>
    change (readEscape .strict (_ :: rest)).map _ = _
    rw [readEscape_short h]
    rfl
  | unit hc h =>
    change (readUnit .strict (_ ++ rest)).map _ = _
    rw [readUnit_unit h]
    rfl
  | pair hc hlead htrail =>
    dsimp only
    rw [List.cons_append, List.cons_append, List.append_assoc, List.cons_append, List.cons_append]
    change (readUnit .strict (_ ++ '\\' :: 'u' :: (_ ++ rest))).map _ = _
    rw [readUnit_pair hc hlead htrail]
    rfl

theorem readTextOnto_of_char {done : List Char} {c : Char} (h : readChar rigor cs = .ok (some c, rest)) :
    readTextOnto rigor done cs = readTextOnto rigor (c :: done) rest := by
  rw [readTextOnto]
  split
  · rename_i h'
    rw [h] at h'
    cases h'
  · rename_i h'
    rw [h] at h'
    cases h'
  · rename_i h'
    rw [h] at h'
    cases h'
    rfl

theorem readTextOnto_quote (done rest : List Char) : readTextOnto rigor done ('"' :: rest) = .ok (done, rest) := by
  have h : readChar rigor ('"' :: rest) = .ok (none, rest) := rfl
  rw [readTextOnto]
  split
  · rename_i h'
    rw [h] at h'
    cases h'
  · rename_i h'
    rw [h] at h'
    cases h'
    rfl
  · rename_i h'
    rw [h] at h'
    cases h'

theorem readTextOnto_glyphs (glyphs : List Glyph) (done rest : List Char) :
    readTextOnto .strict done (glyphs.flatMap (·.text) ++ '"' :: rest) =
      .ok ((glyphs.map (·.char)).reverse ++ done, rest) := by
  induction glyphs generalizing done with
  | nil => exact readTextOnto_quote done rest
  | cons g glyphs ih =>
    rw [List.flatMap_cons, List.append_assoc, readTextOnto_of_char (readChar_glyph g _), ih]
    simp

theorem readText_literal (l : Literal) (rest : List Char) :
    readText .strict (l.body ++ '"' :: rest) = .ok (l.value, rest) := by
  unfold readText Literal.body Literal.value
  rw [readTextOnto_glyphs]
  simp [Except.map]

/-- Read loosely, the two units of a pair count as two characters. -/
theorem readTextOnto_glyph_loose (g : Glyph) (done rest : List Char) :
    ∃ done', readTextOnto .loose done (g.text ++ rest) = readTextOnto .loose done' rest := by
  obtain ⟨text, c, h⟩ := g
  have hunit : ∀ {n digits rest}, IsHexUnit n digits →
      readChar .loose ('\\' :: 'u' :: (digits ++ rest)) = .ok (some (Char.ofNat n), rest) := by
    intro n digits rest h
    change (readUnit .loose (digits ++ rest)).map _ = _
    unfold readUnit
    rw [readHex_unit h]
    rfl
  cases h with
  | plain hc hquote hslash => exact ⟨_, readTextOnto_of_char (readChar_plain hc hquote hslash rest)⟩
  | short h =>
    refine ⟨_, readTextOnto_of_char (c := c) ?_⟩
    change (readEscape .loose (_ :: rest)).map _ = _
    rw [readEscape_short h]
    rfl
  | unit hc h => exact ⟨_, readTextOnto_of_char (hunit h)⟩
  | pair hc hlead htrail =>
    dsimp only
    rw [List.cons_append, List.cons_append, List.append_assoc, List.cons_append, List.cons_append]
    exact ⟨_, (readTextOnto_of_char (hunit hlead)).trans (readTextOnto_of_char (hunit htrail))⟩

theorem readText_loose (l : Literal) (rest : List Char) :
    ∃ s, readText .loose (l.body ++ '"' :: rest) = .ok (s, rest) := by
  obtain ⟨glyphs⟩ := l
  have hread : ∀ done, ∃ done', readTextOnto .loose done (glyphs.flatMap (·.text) ++ '"' :: rest) =
      .ok (done', rest) := by
    induction glyphs with
    | nil => exact fun done => ⟨done, readTextOnto_quote done rest⟩
    | cons g glyphs ih =>
      intro done
      obtain ⟨done', hglyph⟩ := readTextOnto_glyph_loose g done (glyphs.flatMap (·.text) ++ '"' :: rest)
      rw [List.flatMap_cons, List.append_assoc, hglyph]
      exact ih done'
  obtain ⟨done, h⟩ := hread []
  unfold readText Literal.body
  rw [h]
  exact ⟨_, rfl⟩

/-! ### Written texts -/

theorem isHex_digitChar {n : Nat} (h : n < 16) : IsHex (Nat.digitChar n) n := ⟨h, .inl rfl⟩

theorem spells_escapedChar (c : Char) : Spells (escapedChar c) c := by
  unfold escapedChar
  split
  · exact .short (by decide)
  · exact .short (by decide)
  · exact .short (by decide)
  · exact .short (by decide)
  · exact .short (by decide)
  · exact .short (by decide)
  · exact .short (by decide)
  · rename_i hquote hslash _ _ _ _ _
    split
    · rename_i hsmall
      have hdigits : IsHexUnit c.toNat ['0', '0', Nat.digitChar (c.toNat / 16), Nat.digitChar (c.toNat % 16)] := by
        have hzero : IsHex '0' 0 := isHex_digitChar (by omega)
        refine .digits ?_ ?_ ?_ (isHex_digitChar (by omega))
        · rwa [show c.toNat / 4096 = 0 by omega]
        · rwa [show c.toNat / 256 % 16 = 0 by omega]
        · rw [show c.toNat / 16 % 16 = c.toNat / 16 by omega]
          exact isHex_digitChar (by omega)
      exact .unit (by omega) hdigits
    · exact .plain (by omega) (fun h => hquote h) fun h => hslash h

/-- A text as it is written. -/
def Literal.written (s : String) : Literal := ⟨s.toList.map fun c => ⟨escapedChar c, c, spells_escapedChar c⟩⟩

theorem Literal.text_written (s : String) : (written s).text = writeText s := by
  simp [text, body, written, writeText, List.flatMap_map]

@[simp]
theorem Literal.value_written (s : String) : (written s).value = s := by
  simp [value, written, Function.comp_def]

/-- A member with blanks in front of its key and of its value only. -/
def Member.written {α : Type} (front beforeValue : Gap) (name : String) (a : α) : Member α :=
  ⟨front, .written name, Gap.none, beforeValue, a, Gap.none⟩

@[simp]
theorem Member.value_written {α : Type} (front beforeValue : Gap) (name : String) (a : α) :
    (written front beforeValue name a).value = a := rfl

@[simp]
theorem Member.name_written {α : Type} (front beforeValue : Gap) (name : String) (a : α) :
    (written front beforeValue name a).name = name := Literal.value_written name

/-! ### Numbers -/

/-- What may follow a value: a blank, a comma, the end of a container or of the text. -/
def Delimited (rest : List Char) : Prop :=
  ∀ c ∈ rest.head?, isBlank c = true ∨ c = ',' ∨ c = ']' ∨ c = '}'

theorem Delimited.cons {c : Char} (hc : c = ',' ∨ c = ']' ∨ c = '}') (rest : List Char) : Delimited (c :: rest) := by
  intro d hd
  cases hd
  exact .inr hc

theorem Delimited.gap (g : Gap) (h : Delimited rest) : Delimited (g.val ++ rest) := by
  obtain ⟨blanks, hblank⟩ := g
  cases blanks with
  | nil => exact h
  | cons b blanks =>
    intro d hd
    cases hd
    exact .inl (hblank b List.mem_cons_self)

/-- No digit, point or exponent follows a value. -/
theorem Delimited.head {c : Char} (h : Delimited (c :: rest)) :
    isDigit c = false ∧ c ≠ '.' ∧ c ≠ 'e' ∧ c ≠ 'E' := by
  have hc := h c rfl
  unfold isBlank at hc
  simp only [Bool.or_eq_true, beq_iff_eq] at hc
  rcases hc with (((rfl | rfl) | rfl) | rfl) | rfl | rfl | rfl <;> decide

def NoDigit (rest : List Char) : Prop := ∀ c ∈ rest.head?, isDigit c = false

theorem Delimited.noDigit (h : Delimited rest) : NoDigit rest := by
  cases rest with
  | nil => simp [NoDigit]
  | cons c rest =>
    intro d hd
    cases hd
    exact h.head.1

theorem takeDigits_append (h : ∀ c ∈ ds, isDigit c = true) (hrest : NoDigit rest) :
    takeDigits (ds ++ rest) = (ds, rest) := by
  have hnone : rest.takeWhile isDigit = [] ∧ rest.dropWhile isDigit = rest := by
    cases rest with
    | nil => exact ⟨rfl, rfl⟩
    | cons c rest =>
      have hc := hrest c rfl
      simp [hc]
  unfold takeDigits
  rw [List.takeWhile_append_of_pos h, List.dropWhile_append_of_pos h, hnone.1, hnone.2, List.append_nil]

theorem scanDigits_append (h : IsDigits ds) (hrest : NoDigit rest) :
    scanDigits rigor (ds ++ rest) = .ok (ds, rest) := by
  unfold scanDigits
  rw [takeDigits_append h.2 hrest]
  split
  · rename_i heq
    cases heq
    exact absurd rfl h.1
  · rename_i heq
    cases heq
    exact absurd rfl h.1
  · rename_i heq
    cases heq
    rfl

theorem scanWhole_append (h : IsWhole ds) (hrest : NoDigit rest) :
    scanWhole rigor (ds ++ rest) = .ok (ds, rest) := by
  unfold scanWhole
  split
  · rename_i tail heq
    have hzero : ds = ['0'] := by
      apply h.2
      cases ds with
      | nil => exact absurd rfl h.1.1
      | cons d ds =>
        cases heq
        rfl
    subst hzero
    cases heq
    cases rest with
    | nil => rfl
    | cons c rest =>
      have hc := hrest c rfl
      simp [hc]
  · exact scanDigits_append h.1 hrest

theorem noDigit_exponent (h : IsExponent cs) (hrest : Delimited rest) : NoDigit (cs ++ rest) := by
  cases h with
  | absent => exact hrest.noDigit
  | digits hmark hsign h =>
    intro d hd
    cases hd
    rcases hmark with rfl | rfl <;> decide

theorem noDigit_fraction {fraction exponent : List Char} (hfraction : IsFraction fraction)
    (hexponent : IsExponent exponent) (hrest : Delimited rest) : NoDigit (fraction ++ (exponent ++ rest)) := by
  cases hfraction with
  | absent =>
    rw [List.nil_append]
    exact noDigit_exponent hexponent hrest
  | digits h =>
    intro d hd
    cases hd
    decide

theorem scanFraction_append (rigor : Rigor) {fraction exponent : List Char} (hfraction : IsFraction fraction)
    (hexponent : IsExponent exponent) (hrest : Delimited rest) :
    ∃ f, scanFraction rigor (fraction ++ (exponent ++ rest)) = .ok (f, exponent ++ rest) ∧
      (fraction = [] → f = none) := by
  cases hfraction with
  | absent =>
    refine ⟨none, ?_, fun _ => rfl⟩
    unfold scanFraction
    split
    · rename_i tail heq
      cases hexponent with
      | absent =>
        rw [List.nil_append, List.nil_append] at heq
        rw [heq] at hrest
        exact absurd rfl hrest.head.2.1
      | digits hmark hsign h =>
        cases heq
        rcases hmark with hmark | hmark <;> cases hmark
    · rfl
  | @digits ds h =>
    refine ⟨some ds, ?_, by simp⟩
    change (scanDigits rigor (ds ++ (exponent ++ rest))).map _ = _
    rw [scanDigits_append h (noDigit_exponent hexponent hrest)]
    rfl

theorem takeSign_append {sign : List Char} (hsign : sign ∈ [[], ['+'], ['-']]) (h : IsDigits ds) (rest : List Char) :
    ∃ positive, takeSign (sign ++ (ds ++ rest)) = (positive, ds ++ rest) := by
  simp only [List.mem_cons, List.not_mem_nil, or_false] at hsign
  rcases hsign with rfl | rfl | rfl
  · refine ⟨true, ?_⟩
    cases ds with
    | nil => exact absurd rfl h.1
    | cons d ds =>
      have hd := h.2 d List.mem_cons_self
      unfold takeSign
      split
      · rename_i heq
        cases heq
        cases hd
      · rename_i heq
        cases heq
        cases hd
      · rfl
  · exact ⟨true, rfl⟩
  · exact ⟨false, rfl⟩

theorem scanExponent_append (rigor : Rigor) {exponent : List Char} (h : IsExponent exponent) (hrest : Delimited rest) :
    ∃ e, scanExponent rigor (exponent ++ rest) = .ok (e, rest) ∧ (exponent = [] → e = none) := by
  cases h with
  | absent =>
    refine ⟨none, ?_, fun _ => rfl⟩
    cases rest with
    | nil => rfl
    | cons c rest =>
      obtain ⟨-, -, hlower, hupper⟩ := hrest.head
      simp [scanExponent, hlower, hupper]
  | @digits mark sign ds hmark hsign h =>
    obtain ⟨positive, hpositive⟩ := takeSign_append hsign h rest
    refine ⟨some (positive, ds), ?_, by simp⟩
    simp only [List.cons_append, List.append_assoc, scanExponent, if_pos hmark, hpositive,
      scanDigits_append h hrest.noDigit]
    rfl

theorem scanNumeral_append (rigor : Rigor) {whole fraction exponent : List Char} (hwhole : IsWhole whole)
    (hfraction : IsFraction fraction) (hexponent : IsExponent exponent) (hrest : Delimited rest) :
    ∃ f e, scanNumeral rigor (whole ++ (fraction ++ (exponent ++ rest))) = .ok (⟨whole, f, e⟩, rest) ∧
      (fraction = [] → f = none) ∧ (exponent = [] → e = none) := by
  obtain ⟨f, hf, hnone⟩ := scanFraction_append rigor hfraction hexponent hrest
  obtain ⟨e, he, hnone'⟩ := scanExponent_append rigor hexponent hrest
  refine ⟨f, e, ?_, hnone, hnone'⟩
  unfold scanNumeral
  rw [scanWhole_append hwhole (noDigit_fraction hfraction hexponent hrest)]
  simp only [bind, Except.bind, hf, he]
  rfl

/-! ### Counts -/

theorem absorb_append {bound k m : Nat} (h : absorb bound m ds = (k, [])) (cs : List Char) :
    absorb bound m (ds ++ cs) = absorb bound k cs := by
  induction ds generalizing m with
  | nil =>
    cases h
    rfl
  | cons d ds ih =>
    simp only [absorb, List.cons_append] at h ⊢
    split at h
    · rename_i hle
      rw [if_pos hle]
      exact ih h
    · cases h

theorem digitValue_digitChar : ∀ n < 10, digitValue (Nat.digitChar n) = n := by decide

theorem absorb_toDigits {bound n : Nat} (h : n ≤ bound) : absorb bound 0 (Nat.toDigits 10 n) = (n, []) := by
  induction n using Nat.strongRecOn with
  | ind n ih =>
    by_cases hn : n < 10
    · rw [Nat.toDigits_of_lt_base hn]
      simp [absorb, digitValue_digitChar n hn, h]
    · have hfront := ih (n / 10) (by omega) (by omega)
      have hlast := digitValue_digitChar (n % 10) (by omega)
      have hvalue : n / 10 * 10 + n % 10 = n := by omega
      rw [Nat.toDigits_of_base_le (by omega) (by omega), absorb_append hfront]
      simp [absorb, hlast, hvalue, h]

theorem digitChar_ne_zero : ∀ n < 10, 0 < n → Nat.digitChar n ≠ '0' := by decide

theorem head_toDigits {n : Nat} (h : 0 < n) : (Nat.toDigits 10 n).head? ≠ some '0' := by
  induction n using Nat.strongRecOn with
  | ind n ih =>
    by_cases hn : n < 10
    · rw [Nat.toDigits_of_lt_base hn]
      simpa using digitChar_ne_zero n hn h
    · have hfront := ih (n / 10) (by omega) (by omega)
      obtain ⟨d, tail, hdigits⟩ := List.exists_cons_of_ne_nil (Nat.toDigits_ne_nil (n := n / 10) (b := 10))
      rw [hdigits] at hfront
      rw [Nat.toDigits_of_base_le (by omega) (by omega), hdigits]
      exact hfront

theorem isWhole_toDigits (n : Nat) : IsWhole (Nat.toDigits 10 n) := by
  refine ⟨⟨Nat.toDigits_ne_nil, fun c hc => ?_⟩, fun hzero => ?_⟩
  · have hdigit := Nat.isDigit_of_mem_toDigits (by omega) (by omega) hc
    simpa [Char.isDigit, isDigit, Char.le_def] using hdigit
  · have hn : n = 0 := by
      by_contra hne
      exact head_toDigits (by omega) hzero
    rw [hn]
    rfl

/-- A count as it is written. -/
def countText : Option Nat → List Char
  | some n => Nat.toDigits 10 n
  | none => "null".toList

theorem IsDigits.cons (h : IsDigits ds) : ∃ d tail, ds = d :: tail ∧ isDigit d = true := by
  cases ds with
  | nil => exact absurd rfl h.1
  | cons d tail => exact ⟨d, tail, rfl, h.2 d List.mem_cons_self⟩

theorem isBlank_of_isDigit {c : Char} (h : isDigit c = true) : isBlank c = false := by
  by_contra hblank
  simp only [Bool.not_eq_false, isBlank, Bool.or_eq_true, beq_iff_eq] at hblank
  rcases hblank with ((rfl | rfl) | rfl) | rfl <;> cases h

theorem readNumber_whole {n : Nat} (hn : n ≤ maxInteger) (hrest : Delimited rest) :
    readNumber (Nat.toDigits 10 n ++ rest) = .ok (.natural n, rest) := by
  obtain ⟨f, e, hscan, hf, he⟩ := scanNumeral_append .strict (isWhole_toDigits n) .absent .absent hrest
  obtain ⟨d, tail, hdigits, hd⟩ := (isWhole_toDigits n).1.cons
  have hvalue : (⟨Nat.toDigits 10 n, none, none⟩ : Numeral).value false rest = .ok (.natural n) := by
    unfold Numeral.value
    rw [absorb_toDigits hn]
    rfl
  rw [hf rfl, he rfl, List.nil_append, List.nil_append] at hscan
  unfold readNumber
  split
  rename_i negative digits heq
  have hsign : negative = false ∧ digits = Nat.toDigits 10 n ++ rest := by
    rw [hdigits] at heq ⊢
    split at heq
    · rename_i hminus
      cases hminus
      cases hd
    · cases heq
      exact ⟨rfl, rfl⟩
  rw [hsign.1, hsign.2, hscan]
  simp [bind, Except.bind, pure, Except.pure, hvalue]

/-! ### Scalars -/

theorem readString_literal (g : Gap) (l : Literal) (rest : List Char) :
    readString (g.val ++ (l.text ++ rest)) = .ok (l.value, rest) := by
  unfold readString Literal.text
  rw [skipBlanks_gap, List.cons_append, List.append_assoc, skipBlanks_cons (by decide)]
  exact readText_literal l rest

theorem readBool_text (g : Gap) (b : Bool) (rest : List Char) :
    readBool (g.val ++ ((toString b).toList ++ rest)) = .ok (b, rest) := by
  unfold readBool
  rw [skipBlanks_gap]
  cases b
  · change (readWord "alse".toList ("alse".toList ++ rest)).map _ = _
    rw [readWord_append]
    rfl
  · change (readWord "rue".toList ("rue".toList ++ rest)).map _ = _
    rw [readWord_append]
    rfl

theorem readCount_text (g : Gap) {n : Option Nat} (hn : ∀ k ∈ n, k < Nat.pow 2 64) (hrest : Delimited rest) :
    readCount (g.val ++ (countText n ++ rest)) = .ok (n, rest) := by
  unfold readCount
  rw [skipBlanks_gap]
  cases n with
  | none =>
    change (readWord "ull".toList ("ull".toList ++ rest)).map _ = _
    rw [readWord_append]
    rfl
  | some n =>
    have hmax : n ≤ maxInteger := Nat.le_sub_one_of_lt (hn n rfl)
    have hread := readNumber_whole hmax hrest
    obtain ⟨d, tail, hdigits, hd⟩ := (isWhole_toDigits n).1.cons
    have htext : countText (some n) = d :: tail := hdigits
    rw [hdigits, List.cons_append] at hread
    rw [htext, List.cons_append, skipBlanks_cons (isBlank_of_isDigit hd)]
    split
    · rename_i heq
      cases heq
      cases hd
    · rename_i heq
      cases heq
      rw [if_pos (.inr hd), hread]
      rfl
    · rename_i heq
      cases heq

/-! ### Scalars where any value may stand -/

/-- A reader that succeeds on a value reads it to its end and no further. -/
def Exact {α : Type} (read : Reader α) (v : List Char) : Prop :=
  ∀ (g : Gap) {rest : List Char}, Delimited rest → ∀ {a : α} {rest' : List Char},
    read (g.val ++ (v ++ rest)) = .ok (a, rest') → rest' = rest

theorem number_cons {sign whole : List Char} (hsign : sign ∈ [[], ['-']]) (hwhole : IsWhole whole) (cs : List Char) :
    ∃ c tail, sign ++ (whole ++ cs) = c :: tail ∧ (c = '-' ∨ isDigit c = true) := by
  obtain ⟨d, tail, rfl, hd⟩ := hwhole.1.cons
  simp only [List.mem_cons, List.not_mem_nil, or_false] at hsign
  rcases hsign with rfl | rfl
  · exact ⟨d, tail ++ cs, rfl, .inr hd⟩
  · exact ⟨'-', d :: tail ++ cs, rfl, .inl rfl⟩

/-- What a value is, by the character with which it starts. -/
structure Kind (c : Char) (v : List Char) : Prop where
  blank : isBlank c = false
  bracket : c ≠ ']'
  null : c = 'n' → v = "null".toList
  bool : c = 't' ∨ c = 'f' → ∃ b : Bool, v = (toString b).toList
  text : c = '"' → ∃ l : Literal, v = l.text
  number : c = '-' ∨ isDigit c = true → ∃ sign whole fraction exponent, sign ∈ [[], ['-']] ∧ IsWhole whole ∧
    IsFraction fraction ∧ IsExponent exponent ∧ v = sign ++ (whole ++ (fraction ++ exponent))
  list : c = '[' → ∃ items inside, (∀ i ∈ items, IsValue i.value) ∧ v = listText items inside
  object : c = '{' → ∃ members inside, (∀ m ∈ members, IsValue m.value) ∧ v = objectText members inside

theorem IsValue.kind {v : List Char} (h : IsValue v) : ∃ c tail, v = c :: tail ∧ Kind c v := by
  cases h with
  | null =>
    refine ⟨'n', _, rfl, rfl, by decide, fun _ => rfl, ?_, ?_, ?_, ?_, ?_⟩ <;> exact fun hc => absurd hc (by decide)
  | bool b =>
    cases b
    · refine ⟨'f', _, rfl, rfl, by decide, ?_, fun _ => ⟨false, rfl⟩, ?_, ?_, ?_, ?_⟩ <;>
        exact fun hc => absurd hc (by decide)
    · refine ⟨'t', _, rfl, rfl, by decide, ?_, fun _ => ⟨true, rfl⟩, ?_, ?_, ?_, ?_⟩ <;>
        exact fun hc => absurd hc (by decide)
  | number hsign hwhole hfraction hexponent =>
    obtain ⟨c, tail, heq, hc⟩ := number_cons hsign hwhole (_ ++ _)
    have hother : ∀ d, ¬(d = '-' ∨ isDigit d = true) → c ≠ d := by
      rintro d hd rfl
      exact hd hc
    have hblank : isBlank c = false := by
      rcases hc with rfl | hc
      · rfl
      · exact isBlank_of_isDigit hc
    refine ⟨c, tail, heq, hblank, hother _ (by decide), ?_, ?_, ?_,
      fun _ => ⟨_, _, _, _, hsign, hwhole, hfraction, hexponent, rfl⟩, ?_, ?_⟩
    · exact fun hn => absurd hn (hother _ (by decide))
    · exact fun hb => hb.elim (fun ht => absurd ht (hother _ (by decide))) fun hf => absurd hf (hother _ (by decide))
    · exact fun ht => absurd ht (hother _ (by decide))
    · exact fun hl => absurd hl (hother _ (by decide))
    · exact fun ho => absurd ho (hother _ (by decide))
  | text l =>
    refine ⟨'"', _, rfl, rfl, by decide, ?_, ?_, fun _ => ⟨l, rfl⟩, ?_, ?_, ?_⟩ <;>
      exact fun hc => absurd hc (by decide)
  | list inside h =>
    refine ⟨'[', _, rfl, rfl, by decide, ?_, ?_, ?_, ?_, fun _ => ⟨_, inside, h, rfl⟩, ?_⟩ <;>
      exact fun hc => absurd hc (by decide)
  | object inside h =>
    refine ⟨'{', _, rfl, rfl, by decide, ?_, ?_, ?_, ?_, ?_, fun _ => ⟨_, inside, h, rfl⟩⟩ <;>
      exact fun hc => absurd hc (by decide)

theorem readString_exact {v : List Char} (h : IsValue v) : Exact readString v := by
  intro g rest hrest s rest' hok
  obtain ⟨c, tail, rfl, hkind⟩ := h.kind
  have hread := hok
  unfold readString at hok
  rw [skipBlanks_gap, List.cons_append, skipBlanks_cons hkind.blank] at hok
  split at hok
  · rename_i heq
    cases heq
    obtain ⟨l, hl⟩ := hkind.text rfl
    rw [hl, readString_literal] at hread
    cases hread
    rfl
  · cases hok

theorem readBool_exact {v : List Char} (h : IsValue v) : Exact readBool v := by
  intro g rest hrest b rest' hok
  obtain ⟨c, tail, rfl, hkind⟩ := h.kind
  have hread := hok
  unfold readBool at hok
  rw [skipBlanks_gap, List.cons_append, skipBlanks_cons hkind.blank] at hok
  have hbool : c = 't' ∨ c = 'f' := by
    split at hok
    · rename_i heq
      cases heq
      exact .inl rfl
    · rename_i heq
      cases heq
      exact .inr rfl
    · cases hok
  obtain ⟨b', hb⟩ := hkind.bool hbool
  rw [hb, readBool_text] at hread
  cases hread
  rfl

theorem readNumber_exact {sign whole fraction exponent : List Char} (hsign : sign ∈ [[], ['-']])
    (hwhole : IsWhole whole) (hfraction : IsFraction fraction) (hexponent : IsExponent exponent)
    (hrest : Delimited rest) {n : Number} {rest' : List Char}
    (hok : readNumber (sign ++ (whole ++ (fraction ++ (exponent ++ rest)))) = .ok (n, rest')) : rest' = rest := by
  obtain ⟨f, e, hscan, -, -⟩ := scanNumeral_append .strict hwhole hfraction hexponent hrest
  obtain ⟨d, tail, rfl, hd⟩ := hwhole.1.cons
  unfold readNumber at hok
  split at hok
  rename_i negative digits heq
  have hdigits : digits = (d :: tail) ++ (fraction ++ (exponent ++ rest)) := by
    simp only [List.mem_cons, List.not_mem_nil, or_false] at hsign
    rcases hsign with rfl | rfl
    · rw [List.nil_append] at heq
      split at heq
      · rename_i hminus
        cases hminus
        cases hd
      · cases heq
        rfl
    · cases heq
      rfl
  rw [hdigits, hscan] at hok
  simp only [bind, Except.bind, pure, Except.pure] at hok
  split at hok
  · cases hok
  · cases hok
    rfl

theorem readCount_exact {v : List Char} (h : IsValue v) : Exact readCount v := by
  intro g rest hrest n rest' hok
  obtain ⟨c, tail, hv, hkind⟩ := h.kind
  have hread := hok
  unfold readCount at hok
  rw [skipBlanks_gap, hv, List.cons_append, skipBlanks_cons hkind.blank] at hok
  split at hok
  · rename_i heq
    cases heq
    rw [hkind.null rfl] at hread
    change readCount (g.val ++ (countText none ++ rest)) = _ at hread
    rw [readCount_text g (by simp) hrest] at hread
    cases hread
    rfl
  · rename_i heq
    cases heq
    split at hok
    · rename_i hc
      obtain ⟨sign, whole, fraction, exponent, hsign, hwhole, hfraction, hexponent, hnumber⟩ := hkind.number hc
      rw [← List.cons_append, ← hv, hnumber] at hok
      simp only [List.append_assoc] at hok
      cases hn : readNumber (sign ++ (whole ++ (fraction ++ (exponent ++ rest)))) with
      | error p =>
        rw [hn] at hok
        cases hok
      | ok found =>
        obtain ⟨number, after⟩ := found
        have hafter := readNumber_exact hsign hwhole hfraction hexponent hrest hn
        rw [hn] at hok
        simp only [bind, Except.bind] at hok
        split at hok
        · cases hok
          exact hafter
        · cases hok
        · cases hok
    · cases hok
  · cases hok

end Logbook.Json
