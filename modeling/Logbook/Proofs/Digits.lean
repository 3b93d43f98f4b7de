import Logbook.Proofs.Stamps
import Mathlib.Data.List.Induction

/-!
# Exact numerals

The canonical numeral of a number is the one text of digits that has its value and no leading zero. Numerals of a
fixed width are canonical numerals with zeros in front. A loop that writes the digits of 32 bits into ten places, from
the last one down, never runs out of places.
-/

namespace Logbook.Text

/-! ### What digits write -/

/-- The number that digits write. -/
def value (bs : Bytes) : Nat := bs.foldl (fun v b => 10 * v + (b.toNat - 48)) 0

theorem value_append_singleton (bs : Bytes) (b : UInt8) : value (bs ++ [b]) = 10 * value bs + (b.toNat - 48) := by
  simp [value]

theorem value_decimal (n : Nat) : value (decimal n) = n := by
  fun_induction decimal n with
  | case1 n h =>
    simp only [value, List.foldl_cons, List.foldl_nil, toNat_lastDigit]
    omega
  | case2 n h ih =>
    rw [value_append_singleton, ih, toNat_lastDigit]
    omega

theorem IsDigit.eq_lastDigit {b : UInt8} (h : IsDigit b) (n : Nat) : b = lastDigit (10 * n + (b.toNat - 48)) := by
  have hb := h.1
  have hb' := h.2
  apply UInt8.toNat_inj.mp
  rw [toNat_lastDigit]
  omega

/-- Digits are a numeral of the number that they write. -/
theorem isNumeral_value {bs : Bytes} (h : ∀ b ∈ bs, IsDigit b) : IsNumeral bs (value bs) := by
  induction bs using List.reverseRecOn with
  | nil => exact ⟨rfl, by decide⟩
  | append_singleton bs b ih =>
    have hb : IsDigit b := h b (by simp)
    have hbs := ih fun c hc => h c (by simp [hc])
    have hlt := hbs.lt
    have hhigh := hb.2
    have hquot : (10 * value bs + (b.toNat - 48)) / 10 = value bs := by omega
    constructor
    · rw [value_append_singleton, List.length_append, List.length_singleton, lowDigits, hquot, ← hbs.digits,
        ← hb.eq_lastDigit]
    · rw [value_append_singleton, List.length_append, List.length_singleton, Nat.pow_succ]
      omega

/-! ### Canonical numerals -/

structure Canonical (bs : Bytes) (n : Nat) : Prop where
  nonempty : bs ≠ []
  digits : ∀ b ∈ bs, IsDigit b
  value : value bs = n
  leading : bs.head? = some (ascii '0') → bs = [ascii '0']

theorem decimal_ne_nil (n : Nat) : decimal n ≠ [] := by
  fun_induction decimal n <;> simp

theorem head_decimal {n : Nat} (h : 0 < n) : (decimal n).head? ≠ some (ascii '0') := by
  fun_induction decimal n with
  | case1 n hn =>
    intro heq
    have hdigit := congrArg UInt8.toNat (Option.some.inj heq)
    rw [toNat_lastDigit, show (ascii '0').toNat = 48 from rfl] at hdigit
    omega
  | case2 n hn ih =>
    rw [List.head?_append_of_ne_nil _ (decimal_ne_nil _)]
    exact ih (by omega)

theorem canonical_decimal (n : Nat) : Canonical (decimal n) n where
  nonempty := decimal_ne_nil n
  digits := (isNumeral_decimal n).isDigit
  value := value_decimal n
  leading h := by
    by_cases hn : 0 < n
    · exact absurd h (head_decimal hn)
    · have hzero : n = 0 := by omega
      rw [hzero, decimal]
      rfl

/-- A first digit other than zero fixes the width. -/
theorem le_value {bs : Bytes} (h : ∀ b ∈ bs, IsDigit b) (hne : bs ≠ []) (hlead : bs.head? ≠ some (ascii '0')) :
    10 ^ (bs.length - 1) ≤ value bs := by
  induction bs using List.reverseRecOn with
  | nil => exact absurd rfl hne
  | append_singleton bs b ih =>
    rw [value_append_singleton, List.length_append, List.length_singleton, Nat.add_sub_cancel]
    by_cases hnil : bs = []
    · subst hnil
      have hb : b ≠ ascii '0' := fun heq => hlead (by simp [heq])
      have hdigit := h b (by simp)
      have hlow := hdigit.1
      have hzero : b.toNat ≠ 48 := fun heq => hb (UInt8.toNat_inj.mp heq)
      simp only [List.length_nil, Nat.pow_zero]
      omega
    · rw [List.head?_append_of_ne_nil _ hnil] at hlead
      have hrest := ih (fun c hc => h c (by simp [hc])) hnil hlead
      have hlength : bs.length = bs.length - 1 + 1 := by
        have hpos := List.length_pos_iff.mpr hnil
        omega
      rw [hlength, Nat.pow_succ]
      omega

theorem Canonical.length_le {bs cs : Bytes} {n : Nat} (hb : Canonical bs n) (hc : Canonical cs n) :
    bs.length ≤ cs.length := by
  have hpos := List.length_pos_iff.mpr hc.nonempty
  by_cases hlead : bs.head? = some (ascii '0')
  · rw [hb.leading hlead]
    exact hpos
  · have hlow := le_value hb.digits hb.nonempty hlead
    have hhigh := (isNumeral_value hc.digits).lt
    rw [hb.value, ← hc.value] at hlow
    have hpow := (Nat.pow_lt_pow_iff_right (by omega : 1 < 10)).mp (Nat.lt_of_le_of_lt hlow hhigh)
    omega

theorem Canonical.unique {bs cs : Bytes} {n : Nat} (hb : Canonical bs n) (hc : Canonical cs n) : bs = cs := by
  have hlength := Nat.le_antisymm (hb.length_le hc) (hc.length_le hb)
  rw [(isNumeral_value hb.digits).digits, (isNumeral_value hc.digits).digits, hb.value, hc.value, hlength]

theorem canonical_iff (bs : Bytes) (n : Nat) : Canonical bs n ↔ bs = decimal n :=
  ⟨fun h => h.unique (canonical_decimal n), fun h => h ▸ canonical_decimal n⟩

/-! ### Zeros in front -/

def zeroPadded (width : Nat) (bs : Bytes) : Bytes := List.replicate (width - bs.length) (ascii '0') ++ bs

theorem length_zeroPadded (width : Nat) (bs : Bytes) : (zeroPadded width bs).length = max width bs.length := by
  simp only [zeroPadded, List.length_append, List.length_replicate]
  omega

theorem lowDigits_zero (width : Nat) : lowDigits width 0 = List.replicate width (ascii '0') := by
  induction width with
  | zero => rfl
  | succ width ih =>
    rw [lowDigits, List.replicate_succ', ih]
    rfl

theorem pos_of_two_digits {width n : Nat} (h : n < 10 ^ width * 10) (hn : ¬ n < 10) : 0 < width := by
  rcases Nat.eq_zero_or_pos width with rfl | hpos
  · omega
  · exact hpos

theorem lowDigits_eq_zeroPadded {width n : Nat} (hwidth : 0 < width) (h : n < 10 ^ width) :
    lowDigits width n = zeroPadded width (decimal n) := by
  induction width generalizing n with
  | zero => omega
  | succ width ih =>
    rw [Nat.pow_succ] at h
    rw [lowDigits, decimal]
    split
    · -- what is in front of a single digit is all zeros
      have hquot : n / 10 = 0 := by omega
      simp [hquot, lowDigits_zero, zeroPadded]
    · rename_i hn
      rw [ih (pos_of_two_digits h hn) (by omega)]
      simp [zeroPadded]

theorem length_decimal_le {width n : Nat} (hwidth : 0 < width) (h : n < 10 ^ width) : (decimal n).length ≤ width := by
  have hlength := congrArg List.length (lowDigits_eq_zeroPadded hwidth h)
  rw [length_lowDigits, length_zeroPadded] at hlength
  omega

theorem padded_of_lt {width n : Nat} (hwidth : 1 ≤ width ∧ width ≤ 6) (h : n < 10 ^ width) :
    padded width n = .text (zeroPadded width (decimal n)) := by
  have hroom : ¬ Nat.pow 10 width ≤ n := Nat.not_le.mpr h
  rw [padded, if_neg (by omega), if_neg hroom, lowDigits_eq_zeroPadded hwidth.1 h]

theorem padded_of_le {width n : Nat} (hwidth : 1 ≤ width ∧ width ≤ 6) (h : 10 ^ width ≤ n) :
    padded width n = .panic (.tooManyDigits n width) := by
  have hroom : Nat.pow 10 width ≤ n := h
  rw [padded, if_neg (by omega), if_pos hroom]

theorem yearDigits_eq (n : Nat) : yearDigits n = zeroPadded 4 (decimal n) := by
  unfold yearDigits
  split
  · exact lowDigits_eq_zeroPadded (by omega) (by omega)
  · rename_i hlarge
    have hlength : 4 - (decimal n).length = 0 := by
      have hlt := (isNumeral_decimal n).lt
      by_contra hshort
      have hpow : 10 ^ (decimal n).length ≤ 10 ^ 3 := Nat.pow_le_pow_right (by omega) (by omega)
      omega
    simp [zeroPadded, hlength]

/-! ### Digits from the last place down -/

/-- Write the digits of `rest` below the place `pos`, the last digit first. None if that takes more places than there
are. The answer has the place of the first digit. -/
def fillDown : Nat → Nat → Bytes → Option (Nat × Bytes)
  | 0, _, _ => none
  | pos + 1, rest, scratch =>
    let scratch := scratch.set pos (lastDigit rest)
    if rest / 10 = 0 then some (pos, scratch) else fillDown pos (rest / 10) scratch

theorem fillDown_eq {front : Bytes} (hfront : 0 < front.length) {n : Nat} (h : n < 10 ^ front.length) (back : Bytes) :
    fillDown front.length n (front ++ back) =
      some (front.length - (decimal n).length,
        front.take (front.length - (decimal n).length) ++ decimal n ++ back) := by
  induction front using List.reverseRecOn generalizing n back with
  | nil => simp at hfront
  | append_singleton front b ih =>
    rw [List.length_append, List.length_singleton, Nat.pow_succ] at h
    have hset : (front ++ [b] ++ back).set front.length (lastDigit n) = front ++ lastDigit n :: back := by
      simp [List.set_append_right]
    rw [List.length_append, List.length_singleton, fillDown, hset, decimal]
    by_cases hone : n < 10
    · have hquot : n / 10 = 0 := by omega
      simp [hone, hquot]
    · have hquot : n / 10 ≠ 0 := by omega
      have htake : front.length - (decimal (n / 10)).length ≤ front.length := by omega
      rw [if_neg hquot, if_neg hone, ih (pos_of_two_digits h hone) (by omega)]
      simp [List.take_append_of_le_length htake]

/-- The digits of `n`, written into the last places of `scratch`. -/
def tailDigits (n : Nat) (scratch : Bytes) : Option Bytes :=
  (fillDown scratch.length n scratch).map fun (pos, filled) => filled.drop pos

theorem tailDigits_eq {scratch : Bytes} (hscratch : 0 < scratch.length) {n : Nat} (h : n < 10 ^ scratch.length) :
    tailDigits n scratch = some (decimal n) := by
  have hfill := fillDown_eq hscratch h []
  rw [List.append_nil, List.append_nil] at hfill
  have htake : (scratch.take (scratch.length - (decimal n).length)).length = scratch.length - (decimal n).length := by
    rw [List.length_take]
    omega
  rw [tailDigits, hfill]
  exact congrArg some (List.drop_left' htake)

/-! ### Words of 32 bits -/

theorem toNat_lt_ten (n : UInt32) : n.toNat < 10 ^ 10 := by
  have hlt := n.toNat_lt
  omega

/- The absolute value of the least number wraps around to itself, which reads as 2^31 without a sign. -/
theorem toNat_abs (y : Int32) : y.abs.toUInt32.toNat = y.toInt.natAbs := by
  have habs : y.abs.toUInt32.toNat = y.toBitVec.abs.toNat := rfl
  have hint : y.toInt = y.toBitVec.toInt := rfl
  have hlt := y.toBitVec.isLt
  rw [habs, hint, BitVec.toNat_abs, BitVec.toInt_eq_msb_cond]
  split <;> omega

/-- The numeral of 32 bits is the canonical one, of one to ten digits, and writing it into ten places never goes below
the first of them. A number that fits a width is written as its numeral with zeros in front, and one that does not fit
panics before anything is written. A year is a sign, if it is negative, and the numeral of its absolute value in four
digits at least. -/
theorem numerals_exact :
    (∀ (n : UInt32) (scratch : Vector UInt8 10),
      let bs := decimal n.toNat
      (∀ cs, Canonical cs n.toNat ↔ cs = bs) ∧ 1 ≤ bs.length ∧ bs.length ≤ 10 ∧
        tailDigits n.toNat scratch.toList = some bs) ∧
    (∀ (width : Nat) (n : UInt32), 1 ≤ width ∧ width ≤ 6 →
      let bs := zeroPadded width (decimal n.toNat)
      (n.toNat < 10 ^ width → padded width n.toNat = .text bs ∧ bs.length = width) ∧
        (10 ^ width ≤ n.toNat → padded width n.toNat = .panic (.tooManyDigits n.toNat width))) ∧
    ∀ y : Int32,
      let n := y.abs.toUInt32
      n.toNat = y.toInt.natAbs ∧
        year y.toInt = .text ((if y.toInt < 0 then [ascii '-'] else []) ++ zeroPadded 4 (decimal n.toNat)) := by
  refine ⟨fun n scratch => ?_, fun width n hwidth => ?_, fun y => ?_⟩
  · have hscratch : scratch.toList.length = 10 := scratch.length_toList
    refine ⟨fun cs => canonical_iff cs n.toNat, List.length_pos_iff.mpr (decimal_ne_nil _),
      length_decimal_le (by omega) (toNat_lt_ten n), ?_⟩
    apply tailDigits_eq
    · omega
    · rw [hscratch]
      exact toNat_lt_ten n
  · refine ⟨fun h => ⟨padded_of_lt hwidth h, ?_⟩, padded_of_le hwidth⟩
    have hlength := length_decimal_le hwidth.1 h
    rw [length_zeroPadded]
    omega
  · refine ⟨toNat_abs y, ?_⟩
    rw [year_eq, yearText, yearDigits_eq, toNat_abs]

theorem numerals_exact_bounds :
    padded 6 42 = .text (utf8 "000042") ∧ padded 6 1000000 = .panic (.tooManyDigits 1000000 6) ∧
      year (-2147483648) = .text (utf8 "-2147483648") := by
  obtain ⟨-, hpadded, hyear⟩ := numerals_exact
  have hfits := ((hpadded 6 42 (by omega)).1 (by decide)).1
  have hwide := (hpadded 6 1000000 (by omega)).2 (by decide)
  have hleast := (hyear Int32.minValue).2
  have hnumber : Int32.minValue.abs.toUInt32.toNat = 2147483648 := by decide
  rw [hnumber] at hleast
  refine ⟨hfits.trans ?_, hwide, hleast.trans ?_⟩
  · simp [decimal, zeroPadded]
    decide
  · simp [decimal, zeroPadded]
    decide

end Logbook.Text
