import Logbook.Text.Decimal
import Mathlib.Algebra.Group.Nat.Defs
import Mathlib.Data.List.Basic
import Mathlib.Order.Lattice

/-!
# Numerals and their order

Numerals of one width are ordered octet by octet as the numbers are that they write, so they write different numbers
differently. The canonical numeral of a number is the one of the least width that holds it.
-/

namespace Logbook

/-! ### Comparing part by part -/

section Compare

variable {α β : Type} [LinearOrder α] [LinearOrder β] {x y : α} {m n : β} {o : Ordering}

/-- Numbers that lie in blocks compare by their blocks first. -/
theorem compare_then (hlt : x < y → m < n) (hgt : y < x → n < m) (heq : x = y → compare m n = o) :
    compare m n = (compare x y).then o := by
  obtain h | h | h := lt_trichotomy x y
  · rw [compare_lt_iff_lt.mpr h, compare_lt_iff_lt.mpr (hlt h)]
    rfl
  · rw [compare_eq_iff_eq.mpr h, heq h]
    rfl
  · rw [compare_gt_iff_gt.mpr h, compare_gt_iff_gt.mpr (hgt h)]
    rfl

theorem compare_congr (hlt : x < y → m < n) (hgt : y < x → n < m) (heq : x = y → m = n) :
    compare m n = compare x y := by
  rw [compare_then hlt hgt fun h => compare_eq_iff_eq.mpr (heq h), Ordering.then_eq]

end Compare

theorem compare_append {as bs cs ds : Bytes} (h : as.length = bs.length) :
    compare (as ++ cs) (bs ++ ds) = (compare as bs).then (compare cs ds) := by
  induction as generalizing bs with
  | nil =>
    have hnil : bs = [] := by simpa using h.symm
    rw [hnil, List.compare_nil_nil]
    rfl
  | cons a as ih =>
    cases bs with
    | nil => simp at h
    | cons b bs =>
      simp only [List.length_cons, Nat.add_right_cancel_iff] at h
      simp only [List.cons_append, List.compare_cons_cons, ih h, Ordering.then_assoc]

namespace Text

/-! ### Digits -/

theorem toNat_lastDigit (n : Nat) : (lastDigit n).toNat = 48 + n % 10 := by
  have hlt : 48 + n % 10 < 256 := by omega
  simp only [lastDigit, UInt8.toNat_ofNat', Nat.mod_eq_of_lt hlt]

theorem compare_lastDigit (m n : Nat) : compare (lastDigit m) (lastDigit n) = compare (m % 10) (n % 10) := by
  rw [UInt8.compare_eq_toNat_compare_toNat, toNat_lastDigit, toNat_lastDigit]
  apply compare_congr <;> omega

def IsDigit (b : UInt8) : Prop := 48 ≤ b.toNat ∧ b.toNat ≤ 57

theorem isDigit_lastDigit (n : Nat) : IsDigit (lastDigit n) := by
  unfold IsDigit
  rw [toNat_lastDigit]
  omega

/-! ### Numerals of a fixed width -/

theorem isDigit_lowDigits (width n : Nat) : ∀ b ∈ lowDigits width n, IsDigit b := by
  induction width generalizing n with
  | zero => simp [lowDigits]
  | succ width ih =>
    intro b mem
    rw [lowDigits, List.mem_append, List.mem_singleton] at mem
    rcases mem with mem | rfl
    · exact ih (n / 10) b mem
    · exact isDigit_lastDigit n

theorem compare_lowDigits {width m n : Nat} (hm : m < 10 ^ width) (hn : n < 10 ^ width) :
    compare (lowDigits width m) (lowDigits width n) = compare m n := by
  induction width generalizing m n with
  | zero =>
    have hzero : m = n := by omega
    rw [hzero, compare_eq_iff_eq.mpr (rfl : n = n)]
    rfl
  | succ width ih =>
    rw [Nat.pow_succ] at hm hn
    have hparts : compare m n = (compare (m / 10) (n / 10)).then (compare (m % 10) (n % 10)) := by
      apply compare_then (by omega) (by omega)
      intro h
      apply compare_congr <;> omega
    have hlength : (lowDigits width (m / 10)).length = (lowDigits width (n / 10)).length := by
      simp only [length_lowDigits]
    rw [lowDigits, lowDigits, compare_append hlength, ih (by omega) (by omega), List.compare_cons_cons,
      compare_lastDigit, List.compare_nil_nil, Ordering.then_eq, hparts]

/-! ### What a numeral writes -/

/-- The octets are a numeral of `n`, of a width that holds it. -/
structure IsNumeral (bs : Bytes) (n : Nat) : Prop where
  digits : bs = lowDigits bs.length n
  lt : n < 10 ^ bs.length

theorem isNumeral_lowDigits {width n : Nat} (h : n < 10 ^ width) : IsNumeral (lowDigits width n) n := by
  constructor <;> rw [length_lowDigits]
  exact h

theorem isNumeral_decimal (n : Nat) : IsNumeral (decimal n) n := by
  fun_induction decimal n with
  | case1 n h => exact ⟨rfl, by simpa using h⟩
  | case2 n h ih =>
    have hlt := ih.lt
    constructor <;> rw [List.length_append, List.length_singleton]
    · rw [lowDigits, ← ih.digits]
    · rw [Nat.pow_succ]
      omega

theorem IsNumeral.unique {bs : Bytes} {m n : Nat} (hm : IsNumeral bs m) (hn : IsNumeral bs n) : m = n := by
  rw [← compare_eq_iff_eq, ← compare_lowDigits hm.lt hn.lt, ← hm.digits, ← hn.digits]
  exact Std.ReflOrd.compare_self

theorem IsNumeral.isDigit {bs : Bytes} {n : Nat} (h : IsNumeral bs n) : ∀ b ∈ bs, IsDigit b := by
  rw [h.digits]
  exact isDigit_lowDigits _ n

end Text

end Logbook
