import Logbook.Proofs.Gregorian

/-!
# Written times

A written time is a year and, behind it, columns of fixed width. The columns can be cut off from the end, so no two
times are written alike, whatever their years. In years of four digits every text has the same length, and the texts
are in the order of the times.
-/

namespace Logbook

/-! ### Columns -/

/-- A number in a fixed number of digits, behind a separator. -/
structure Column where
  separator : Char
  width : Nat
  number : Nat

namespace Column

variable {cs ds : List Column}

def written (c : Column) : Written := .char c.separator ++ Text.padded c.width c.number

def text (c : Column) : Bytes := ascii c.separator :: Text.lowDigits c.width c.number

def writeAll (cs : List Column) : Written := cs.foldr (fun c rest => c.written ++ rest) .empty

def textAll (cs : List Column) : Bytes := cs.flatMap text

def Fits (c : Column) : Prop := 1 ≤ c.width ∧ c.width ≤ 6 ∧ c.number < 10 ^ c.width

theorem written_of_fits {c : Column} (h : c.Fits) : c.written = .text c.text := by
  obtain ⟨hone, hsix, hnumber⟩ := h
  have hwidth : ¬ (c.width < 1 ∨ 6 < c.width) := by omega
  have hroom : ¬ Nat.pow 10 c.width ≤ c.number := Nat.not_le.mpr hnumber
  simp only [written, Text.padded, if_neg hwidth, if_neg hroom]
  rfl

theorem stop_written (c : Column) : c.written.stop = none ↔ c.Fits := by
  constructor
  · intro h
    by_contra hfits
    simp only [Fits, not_and_or, Nat.not_le, Nat.not_lt] at hfits
    simp only [written, Text.padded, Written.stop_append] at h
    split at h
    · cases h.2
    · split at h
      · cases h.2
      · rename_i hwidth hroom
        simp only [Nat.pow_eq] at hroom
        omega
  · intro h
    rw [written_of_fits h]
    rfl

theorem stop_writeAll : (writeAll cs).stop = none ↔ ∀ c ∈ cs, c.Fits := by
  induction cs with
  | nil => simp [writeAll, Written.empty, Written.text]
  | cons c cs ih =>
    rw [List.forall_mem_cons, ← ih, ← stop_written]
    exact Written.stop_append _ _

theorem writeAll_of_fits (h : ∀ c ∈ cs, c.Fits) : writeAll cs = .text (textAll cs) := by
  induction cs with
  | nil => rfl
  | cons c cs ih =>
    rw [List.forall_mem_cons] at h
    have hrest : writeAll (c :: cs) = c.written ++ writeAll cs := rfl
    rw [hrest, written_of_fits h.1, ih h.2, Written.text_append]
    rfl

theorem le_of_mem_textAll {k : Nat} (hk : 57 ≤ k) (hsep : ∀ c ∈ cs, (ascii c.separator).toNat ≤ k) :
    ∀ b ∈ textAll cs, b.toNat ≤ k := by
  intro b mem
  obtain ⟨c, hc, hb⟩ := List.mem_flatMap.mp mem
  rcases List.mem_cons.mp hb with rfl | hb
  · exact hsep c hc
  · have hdigit := (Text.isDigit_lowDigits _ _ b hb).2
    omega

/-- The same separators and widths. -/
def Aligned (cs ds : List Column) : Prop :=
  cs.map (fun c => (c.separator, c.width)) = ds.map fun c => (c.separator, c.width)

theorem length_text (c : Column) : c.text.length = c.width + 1 := by
  simp only [text, List.length_cons, Text.length_lowDigits]

theorem length_textAll (cs : List Column) : (textAll cs).length = (cs.map (·.width + 1)).sum := by
  simp only [textAll, List.length_flatMap, length_text]

theorem compare_text {c d : Column} (hsep : c.separator = d.separator) (hwidth : c.width = d.width)
    (hc : c.Fits) (hd : d.Fits) : compare c.text d.text = compare c.number d.number := by
  have hnumber := hc.2.2
  rw [hwidth] at hnumber
  have hsame : compare (ascii d.separator) (ascii d.separator) = .eq := Std.ReflOrd.compare_self
  rw [text, text, hsep, hwidth, List.compare_cons_cons, Text.compare_lowDigits hnumber hd.2.2, hsame]
  rfl

/-- Aligned columns compare as their numbers do, one after another. -/
theorem compare_textAll (h : Aligned cs ds) (hcs : ∀ c ∈ cs, c.Fits) (hds : ∀ d ∈ ds, d.Fits) :
    compare (textAll cs) (textAll ds) = compare (cs.map (·.number)) (ds.map (·.number)) := by
  induction cs generalizing ds with
  | nil =>
    have hnil : ds = [] := by simpa [Aligned] using h.symm
    rw [hnil]
    rfl
  | cons c cs ih =>
    cases ds with
    | nil => simp [Aligned] at h
    | cons d ds =>
      simp only [Aligned, List.map_cons, List.cons.injEq, Prod.mk.injEq] at h
      rw [List.forall_mem_cons] at hcs hds
      have hlength : c.text.length = d.text.length := by rw [length_text, length_text, h.1.2]
      have hrest := ih h.2 hcs.2 hds.2
      have hfirst := compare_text h.1.1 h.1.2 hcs.1 hds.1
      simp only [textAll, List.flatMap_cons] at hrest ⊢
      rw [compare_append hlength, hrest, hfirst, List.map_cons, List.map_cons, List.compare_cons_cons]

theorem textAll_inj (h : Aligned cs ds) (hcs : ∀ c ∈ cs, c.Fits) (hds : ∀ d ∈ ds, d.Fits)
    (heq : textAll cs = textAll ds) : cs.map (·.number) = ds.map (·.number) := by
  rw [← Std.compare_eq_iff_eq, ← compare_textAll h hcs hds, heq]
  exact Std.ReflOrd.compare_self

end Column

/-! ### Years -/

namespace Text

/-- The digits of a year, four at least. -/
def yearDigits (n : Nat) : Bytes := if n ≤ 9999 then lowDigits 4 n else decimal n

def yearText (y : Int) : Bytes := (if y < 0 then [ascii '-'] else []) ++ yearDigits y.natAbs

theorem year_eq (y : Int) : year y = .text (yearText y) := by
  have hdigits : (if y.natAbs ≤ 9999 then padded 4 y.natAbs else .text (decimal y.natAbs)) =
      Written.text (yearDigits y.natAbs) := by
    unfold yearDigits
    split
    · have hfour : ¬ Nat.pow 10 4 ≤ y.natAbs := by
        simp only [Nat.pow_eq]
        omega
      rw [padded, if_neg (by omega), if_neg hfour]
    · rfl
  unfold year yearText
  rw [hdigits]
  split <;> rfl

theorem isNumeral_yearDigits (n : Nat) : IsNumeral (yearDigits n) n := by
  unfold yearDigits
  split
  · exact isNumeral_lowDigits (by omega)
  · exact isNumeral_decimal n

theorem mem_yearText {y : Int} {b : UInt8} (h : b ∈ yearText y) : b.toNat ≤ 57 := by
  unfold yearText at h
  rcases List.mem_append.mp h with h | h
  · split at h
    · rw [List.mem_singleton.mp h]
      decide
    · simp at h
  · exact ((isNumeral_yearDigits _).isDigit b h).2

/- A sign is no digit, so it shows which years are negative; what is left is a numeral. -/
theorem yearText_inj {y z : Int} (h : yearText y = yearText z) : y = z := by
  have hsign (m n : Nat) : ascii '-' :: yearDigits m ≠ yearDigits n := by
    intro heq
    have hdigit := (isNumeral_yearDigits n).isDigit (ascii '-') (heq ▸ List.mem_cons_self)
    exact absurd hdigit.1 (by decide)
  have hnumeral {m n : Nat} (heq : yearDigits m = yearDigits n) : m = n :=
    (isNumeral_yearDigits m).unique (heq ▸ isNumeral_yearDigits n)
  unfold yearText at h
  by_cases hy : y < 0 <;> by_cases hz : z < 0 <;> simp only [hy, hz, if_true, if_false] at h
  · have habs := hnumeral (List.append_cancel_left h)
    omega
  · exact absurd h (hsign _ _)
  · exact absurd h.symm (hsign _ _)
  · have habs := hnumeral h
    omega

end Text

/-! ### Times -/

namespace CivilTime

/-- What stands behind the year. -/
def columns (t : CivilTime) : List Column :=
  [⟨'-', 2, t.month⟩, ⟨'-', 2, t.day⟩, ⟨' ', 2, t.hour⟩, ⟨':', 2, t.minute⟩, ⟨':', 2, t.second⟩, ⟨'.', 6, t.microsecond⟩]

def zone (t : CivilTime) : Bytes := if t.isLocal then [] else [ascii 'Z']

def stamp (t : CivilTime) : Bytes := Text.yearText t.year ++ Column.textAll t.columns ++ t.zone

theorem timestamp_parts (t : CivilTime) :
    t.timestamp = .text (Text.yearText t.year) ++ Column.writeAll t.columns ++ .text t.zone := by
  have hzone : (if t.isLocal then .empty else .char 'Z') = Written.text t.zone := by
    unfold zone
    split <;> rfl
  unfold timestamp calendar subsecond
  rw [hzone, Text.year_eq]
  simp only [columns, Column.writeAll, Column.written, List.foldr_cons, List.foldr_nil, Written.append_empty,
    Written.append_assoc]

theorem fits_iff (t : CivilTime) :
    t.Fits ↔ t.month < 100 ∧ t.day < 100 ∧ t.hour < 100 ∧ t.minute < 100 ∧ t.second < 100 ∧ t.microsecond < 1000000 := by
  constructor
  · intro h
    exact ⟨h.month, h.day, h.hour, h.minute, h.second, h.microsecond⟩
  · rintro ⟨hmonth, hday, hhour, hminute, hsecond, hmicro⟩
    exact ⟨hmonth, hday, hhour, hminute, hsecond, hmicro⟩

theorem fits_iff_columns (t : CivilTime) : t.Fits ↔ ∀ c ∈ t.columns, c.Fits := by
  have htwo (n : Nat) (separator : Char) : Column.Fits ⟨separator, 2, n⟩ ↔ n < 100 := by simp [Column.Fits]
  have hsix (n : Nat) (separator : Char) : Column.Fits ⟨separator, 6, n⟩ ↔ n < 1000000 := by simp [Column.Fits]
  rw [fits_iff]
  simp [columns, htwo, hsix]

theorem stop_timestamp (t : CivilTime) : t.timestamp.stop = none ↔ t.Fits := by
  rw [timestamp_parts, Written.stop_append, Written.stop_append, Column.stop_writeAll, fits_iff_columns]
  simp [Written.text]

theorem Fits.timestamp_eq_stamp {t : CivilTime} (h : t.Fits) : t.timestamp = .text t.stamp := by
  rw [timestamp_parts, Column.writeAll_of_fits (t.fits_iff_columns.mp h)]
  rfl

theorem aligned_columns (a b : CivilTime) : Column.Aligned a.columns b.columns := rfl

theorem length_columns (t : CivilTime) : (Column.textAll t.columns).length = 22 := Column.length_textAll _

/-! ### Reading a time back -/

theorem le_of_mem_columns (t : CivilTime) : ∀ b ∈ Column.textAll t.columns, b.toNat ≤ 58 := by
  apply Column.le_of_mem_textAll (by omega)
  simp only [columns, List.forall_mem_cons]
  decide

/- The letter of UTC is above all digits and separators. -/
theorem mem_stamp (t : CivilTime) : ascii 'Z' ∈ t.stamp ↔ t.isLocal = false := by
  have hyear : ascii 'Z' ∉ Text.yearText t.year := fun mem => absurd (Text.mem_yearText mem) (by decide)
  have hcolumns : ascii 'Z' ∉ Column.textAll t.columns := fun mem => absurd (t.le_of_mem_columns _ mem) (by decide)
  unfold stamp zone
  cases t.isLocal <;> simp [hyear, hcolumns]

theorem stamp_inj {a b : CivilTime} (ha : a.Fits) (hb : b.Fits) (h : a.stamp = b.stamp) :
    { a with epochSecond := 0 } = { b with epochSecond := 0 } := by
  have hlocal : a.isLocal = b.isLocal := by
    have hiff := a.mem_stamp
    rw [h, mem_stamp] at hiff
    rw [Bool.eq_iff_iff, ← not_iff_not]
    simpa using hiff.symm
  have hzone : a.zone = b.zone := by simp only [zone, hlocal]
  unfold stamp at h
  rw [hzone] at h
  have hbody := List.append_cancel_right h
  obtain ⟨hyear, hcolumns⟩ := List.append_inj' hbody (by rw [length_columns, length_columns])
  have hnumbers := Column.textAll_inj (aligned_columns a b) (a.fits_iff_columns.mp ha) (b.fits_iff_columns.mp hb) hcolumns
  simp only [columns, List.map_cons, List.map_nil, List.cons.injEq, and_true] at hnumbers
  simp only [Text.yearText_inj hyear, hlocal, hnumbers]

/-- Writing a time ends without a panic just where its fields fit their columns, and the text of a time, whatever its
year, gives back every field that is written. -/
theorem timestamp_unambiguous (a b : CivilTime) :
    (a.timestamp.stop = none ↔ a.month < 100 ∧ a.day < 100 ∧ a.hour < 100 ∧ a.minute < 100 ∧ a.second < 100 ∧
      a.microsecond < 1000000) ∧
    (a.timestamp.stop = none → b.timestamp.stop = none → a.timestamp.bytes = b.timestamp.bytes →
      a.year = b.year ∧ a.month = b.month ∧ a.day = b.day ∧ a.hour = b.hour ∧ a.minute = b.minute ∧
        a.second = b.second ∧ a.microsecond = b.microsecond ∧ a.isLocal = b.isLocal) := by
  constructor
  · rw [stop_timestamp, fits_iff]
  · intro ha hb h
    rw [stop_timestamp] at ha hb
    rw [ha.timestamp_eq_stamp, hb.timestamp_eq_stamp] at h
    have hfields := stamp_inj ha hb h
    simp only [mk.injEq] at hfields
    tauto

/- The first year of 32 bits and fields that no clock shows. The second since the epoch is not written. -/
theorem timestamp_unambiguous_extreme :
    let a : CivilTime := ⟨-2147483648, 99, 0, 99, 99, 0, 999999, true, 0⟩
    let b : CivilTime := { a with epochSecond := 1 }
    a.timestamp.stop = none ∧ b.timestamp.stop = none ∧ a.timestamp.bytes = b.timestamp.bytes ∧
      (a.year = b.year ∧ a.month = b.month ∧ a.day = b.day ∧ a.hour = b.hour ∧ a.minute = b.minute ∧
        a.second = b.second ∧ a.microsecond = b.microsecond ∧ a.isLocal = b.isLocal) ∧
      ({ a with month := 100 } : CivilTime).timestamp.stop ≠ none := by
  intro a b
  have ha := (timestamp_unambiguous a b).1.mpr (by decide)
  have hb := (timestamp_unambiguous b a).1.mpr (by decide)
  refine ⟨ha, hb, rfl, (timestamp_unambiguous a b).2 ha hb rfl, fun h => ?_⟩
  exact absurd ((timestamp_unambiguous { a with month := 100 } b).1.mp h) (by decide)

/-! ### The order of texts -/

section FourDigits

variable {a b : CivilTime} (hya : 0 ≤ a.year ∧ a.year ≤ 9999) (hyb : 0 ≤ b.year ∧ b.year ≤ 9999)

include hya

theorem yearText_four : Text.yearText a.year = Text.lowDigits 4 a.year.natAbs := by
  rw [Text.yearText, Text.yearDigits, if_neg (by omega), if_pos (by omega)]
  rfl

theorem length_stamp (hutc : a.isLocal = false) : a.stamp.length = 27 := by
  simp only [stamp, zone, hutc, yearText_four hya, List.length_append, length_columns, Text.length_lowDigits]
  rfl

include hyb

theorem compare_stamp (ha : a.Fits) (hb : b.Fits) (hclock : a.isLocal = b.isLocal) :
    compare a.stamp b.stamp = (compare a.year b.year).then
      (compare (a.columns.map (·.number)) (b.columns.map (·.number))) := by
  have hyear : compare (Text.yearText a.year) (Text.yearText b.year) = compare a.year b.year := by
    rw [yearText_four hya, yearText_four hyb, Text.compare_lowDigits (by omega) (by omega)]
    apply compare_congr <;> omega
  have hcolumns := Column.compare_textAll (aligned_columns a b) (a.fits_iff_columns.mp ha) (b.fits_iff_columns.mp hb)
  have hfront : (Text.yearText a.year).length = (Text.yearText b.year).length := by
    rw [yearText_four hya, yearText_four hyb, Text.length_lowDigits, Text.length_lowDigits]
  have hbody : (Text.yearText a.year ++ Column.textAll a.columns).length =
      (Text.yearText b.year ++ Column.textAll b.columns).length := by
    rw [List.length_append, List.length_append, hfront, length_columns, length_columns]
  have hzone : compare a.zone b.zone = .eq := by
    unfold zone
    rw [hclock]
    exact Std.ReflOrd.compare_self
  rw [stamp, stamp, compare_append hbody, hzone, Ordering.then_eq, compare_append hfront, hyear, hcolumns]

end FourDigits

end CivilTime

/-- Texts of times in UTC, from years 0 to 9999, compare octet by octet as the times do, second before microsecond, and
all have the same length. -/
theorem Timestamp.compare_timestamp (a b : Timestamp) :
    ∃ x y, a.decompose false = .ok x ∧ b.decompose false = .ok y ∧
      (0 ≤ x.year ∧ x.year ≤ 9999 → 0 ≤ y.year ∧ y.year ≤ 9999 →
        ∃ s t : Bytes, x.timestamp = .text s ∧ y.timestamp = .text t ∧ s.length = 27 ∧ t.length = 27 ∧
          compare s t = (compare a.second b.second).then
            (compare (min (a.nanos / 1000) 999999) (min (b.nanos / 1000) 999999))) := by
  have hfa := a.fits_atOffset 0 false
  have hfb := b.fits_atOffset 0 false
  have horder := CivilTime.compare_shownSecond (a.valid_atOffset 0 false) (b.valid_atOffset 0 false)
  rw [shownSecond_atOffset, shownSecond_atOffset, Int.add_zero, Int.add_zero] at horder
  refine ⟨a.atOffset 0 false, b.atOffset 0 false, rfl, rfl, fun hya hyb => ?_⟩
  refine ⟨_, _, hfa.timestamp_eq_stamp, hfb.timestamp_eq_stamp, CivilTime.length_stamp hya rfl,
    CivilTime.length_stamp hyb rfl, ?_⟩
  rw [CivilTime.compare_stamp hya hyb hfa hfb rfl, horder]
  simp only [CivilTime.columns, List.map_cons, List.map_nil, List.compare_cons_cons, List.compare_nil_nil,
    Ordering.then_assoc, Ordering.then_eq]
  rfl

/- A leap second at the end of a year of the old century, and the first second of the new one. -/
theorem Timestamp.compare_timestamp_century :
    let a : Timestamp := ⟨946684799, 1999999999, by decide, by decide, by decide⟩
    let b : Timestamp := ⟨946684800, 0, by decide, by decide, by decide⟩
    let x : CivilTime := ⟨1999, 12, 31, 23, 59, 59, 999999, false, 946684799⟩
    let y : CivilTime := ⟨2000, 1, 1, 0, 0, 0, 0, false, 946684800⟩
    a.decompose false = .ok x ∧ b.decompose false = .ok y ∧ (0 ≤ x.year ∧ x.year ≤ 9999) ∧
      (0 ≤ y.year ∧ y.year ≤ 9999) ∧ compare x.timestamp.bytes y.timestamp.bytes = .lt := by
  intro a b x y
  obtain ⟨x', y', hx, hy, horder⟩ := compare_timestamp a b
  have hax : a.decompose false = .ok x := congrArg Except.ok (show a.atOffset 0 false = x by decide)
  have hby : b.decompose false = .ok y := congrArg Except.ok (show b.atOffset 0 false = y by decide)
  cases hax.symm.trans hx
  cases hby.symm.trans hy
  obtain ⟨s, t, hs, ht, -, -, hcompare⟩ := horder (by decide) (by decide)
  refine ⟨hax, hby, by decide, by decide, ?_⟩
  rw [hs, ht]
  exact hcompare

end Logbook
