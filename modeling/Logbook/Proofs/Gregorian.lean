import Logbook.Proofs.Calendar
import Logbook.Proofs.Numerals
import Mathlib.Tactic.IntervalCases
import Mathlib.Tactic.Linarith

/-!
# Counting days

The days from 1970-01-01 to a date, counted by the lengths of the years and of the months in between. The date that is
found from a number of days is a date of the calendar and lies that number of days from 1970-01-01; dates are ordered
as their day counts are.
-/

namespace Logbook.Time

/-! ### Months -/

/-- The days of a year before the first day of a month. -/
def daysBeforeMonth (y : Int) (m : Nat) : Nat := ((List.range' 1 (m - 1)).map (monthLength y)).sum

/-- The days of a year. -/
def yearLength (y : Int) : Nat := daysBeforeMonth y 13

theorem daysBeforeMonth_succ (y : Int) {m : Nat} (hm : 1 ≤ m) :
    daysBeforeMonth y (m + 1) = daysBeforeMonth y m + monthLength y m := by
  obtain ⟨k, rfl⟩ := Nat.exists_eq_add_of_le hm
  have hrange : List.range' 1 (1 + k + 1 - 1) = List.range' 1 (1 + k - 1) ++ [1 + k] := by
    rw [show 1 + k + 1 - 1 = k + 1 by omega, Nat.add_sub_cancel_left]
    exact List.range'_1_concat
  simp only [daysBeforeMonth, hrange, List.map_append, List.sum_append, List.map_singleton, List.sum_singleton]

theorem daysBeforeMonth_mono (y : Int) {m n : Nat} (hm : 1 ≤ m) (h : m ≤ n) :
    daysBeforeMonth y m ≤ daysBeforeMonth y n := by
  induction n, h using Nat.le_induction with
  | base => exact Nat.le_refl _
  | succ n h ih =>
    rw [daysBeforeMonth_succ y (Nat.le_trans hm h)]
    omega

theorem daysBeforeMonth_three (y : Int) : daysBeforeMonth y 3 = if isLeapYear y then 60 else 59 := by
  have hthree : daysBeforeMonth y 3 = 31 + if isLeapYear y then 29 else 28 := rfl
  rw [hthree]
  split <;> rfl

/- From March on months have their lengths in every year, and any five of them 153 days. -/
theorem monthLength_march (y : Int) {k : Nat} (hk : k ≤ 9) :
    monthLength y (k + 3) = (153 * (k + 1) + 2) / 5 - (153 * k + 2) / 5 := by
  interval_cases k <;> rfl

theorem daysBeforeMonth_march (y : Int) {k : Nat} (hk : k ≤ 10) :
    daysBeforeMonth y (k + 3) = daysBeforeMonth y 3 + (153 * k + 2) / 5 := by
  induction k with
  | zero => rfl
  | succ k ih =>
    have hstep := daysBeforeMonth_succ y (show 1 ≤ k + 3 by omega)
    have hlength := monthLength_march y (show k ≤ 9 by omega)
    have hprev := ih (by omega)
    rw [show k + 1 + 3 = k + 3 + 1 by omega, hstep]
    omega

theorem yearLength_eq (y : Int) : yearLength y = daysBeforeMonth y 3 + 306 :=
  daysBeforeMonth_march y (k := 10) (by omega)

/-! ### Years -/

theorem isLeapYear_iff (y : Int) : isLeapYear y = true ↔ y % 4 = 0 ∧ (y % 100 ≠ 0 ∨ y % 400 = 0) := by
  simp [isLeapYear]

/-- The days from 1970-01-01 to the first day of a year, below zero for the years before. -/
def daysBeforeYear (y : Int) : Int :=
  let after : Nat := ((List.range (y - 1970).toNat).map fun k : Nat => yearLength (1970 + k)).sum
  let before : Nat := ((List.range (1970 - y).toNat).map fun k : Nat => yearLength (1969 - k)).sum
  after - before

theorem daysBeforeYear_succ (y : Int) : daysBeforeYear (y + 1) = daysBeforeYear y + yearLength y := by
  unfold daysBeforeYear
  dsimp only
  by_cases hy : 1970 ≤ y
  · have hafter : (y + 1 - 1970).toNat = (y - 1970).toNat + 1 := by omega
    have hbefore : (1970 - (y + 1)).toNat = (1970 - y).toNat := by omega
    have hyear : 1970 + ((y - 1970).toNat : Int) = y := by omega
    rw [hafter, hbefore, List.range_succ, List.map_append, List.sum_append, List.map_singleton, List.sum_singleton,
      hyear]
    omega
  · have hafter : (y + 1 - 1970).toNat = (y - 1970).toNat := by omega
    have hbefore : (1970 - y).toNat = (1970 - (y + 1)).toNat + 1 := by omega
    have hyear : 1969 - ((1970 - (y + 1)).toNat : Int) = y := by omega
    rw [hafter, hbefore, List.range_succ, List.map_append, List.sum_append, List.map_singleton, List.sum_singleton,
      hyear]
    omega

theorem daysBeforeYear_mono {y z : Int} (h : y ≤ z) : daysBeforeYear y ≤ daysBeforeYear z := by
  have hmono : Monotone daysBeforeYear := by
    apply monotone_int_of_le_succ
    intro y
    rw [daysBeforeYear_succ]
    omega
  exact hmono h

theorem daysBeforeMonth_leap (y : Int) :
    (daysBeforeMonth (y + 1) 3 : Int) =
      59 + ((y + 1) / 4 - y / 4) - ((y + 1) / 100 - y / 100) + ((y + 1) / 400 - y / 400) := by
  have hiff := isLeapYear_iff (y + 1)
  rw [daysBeforeMonth_three]
  split
  · have h := hiff.mp ‹_›
    omega
  · have h := mt hiff.mpr ‹_›
    omega

/-- The first of March of a year, from the leap days before it. -/
theorem daysBeforeYear_march (y : Int) :
    daysBeforeYear y + daysBeforeMonth y 3 = 365 * y + y / 4 - y / 100 + y / 400 - Date.daysToEpoch := by
  -- from one year to the next both sides grow alike, and they are the same in 1970
  have hstep (y : Int) : daysBeforeYear (y + 1) + daysBeforeMonth (y + 1) 3 -
      (365 * (y + 1) + (y + 1) / 4 - (y + 1) / 100 + (y + 1) / 400) =
      daysBeforeYear y + daysBeforeMonth y 3 - (365 * y + y / 4 - y / 100 + y / 400) := by
    have hyear := daysBeforeYear_succ y
    have hleap := daysBeforeMonth_leap y
    rw [yearLength_eq] at hyear
    push_cast at hyear
    linarith
  suffices h : daysBeforeYear y + daysBeforeMonth y 3 - (365 * y + y / 4 - y / 100 + y / 400) = -719468 by
    unfold Date.daysToEpoch
    linarith
  induction y using Int.inductionOn' (b := 1970) with
  | zero => decide
  | succ k _ ih => rw [hstep, ih]
  | pred k _ ih =>
    have hk := hstep (k - 1)
    rw [Int.sub_add_cancel] at hk
    rw [← hk, ih]

theorem daysBeforeYear_eq (y : Int) :
    daysBeforeYear y =
      365 * y + y / 4 - y / 100 + y / 400 - Date.daysToEpoch - if isLeapYear y then 60 else 59 := by
  have hmarch := daysBeforeYear_march y
  rw [daysBeforeMonth_three] at hmarch
  push_cast at hmarch
  linarith

/-! ### Dates -/

namespace Date

/-- A month of the year and a day of that month. -/
structure Valid (d : Date) : Prop where
  month : 1 ≤ d.month ∧ d.month ≤ 12
  day : 1 ≤ d.day ∧ d.day ≤ monthLength d.year d.month

/-- The days from 1970-01-01 to a date. -/
def days (d : Date) : Int := daysBeforeYear d.year + daysBeforeMonth d.year d.month + ((d.day : Int) - 1)

/-- The date that lies `d` days after the first of March. -/
def ofMarch (y : Int) (d : Nat) : Date :=
  let m := (5 * d + 2) / 153
  if m < 10 then ⟨y, m + 3, d - (153 * m + 2) / 5 + 1⟩ else ⟨y + 1, m - 9, d - (153 * m + 2) / 5 + 1⟩

theorem days_ofMarch (y : Int) {d : Nat} (hd : d ≤ 365) :
    (ofMarch y d).days = daysBeforeYear y + daysBeforeMonth y 3 + d := by
  unfold ofMarch days
  dsimp only
  split
  · rename_i hm
    have hmonth := daysBeforeMonth_march y (Nat.le_of_lt hm)
    rw [hmonth]
    dsimp only
    omega
  · rename_i hm
    have hyear := daysBeforeYear_succ y
    have hlength := yearLength_eq y
    obtain h | h : (5 * d + 2) / 153 = 10 ∨ (5 * d + 2) / 153 = 11 := by omega
    · have hjanuary : daysBeforeMonth (y + 1) 1 = 0 := rfl
      simp only [h, hjanuary, hyear, hlength]
      omega
    · have hfebruary : daysBeforeMonth (y + 1) 2 = 31 := rfl
      simp only [h, hfebruary, hyear, hlength]
      omega

/- The last of 366 days needs a February of 29. -/
theorem valid_ofMarch {y : Int} {d : Nat} (hd : d ≤ 365) (hleap : d = 365 → isLeapYear (y + 1) = true) :
    (ofMarch y d).Valid := by
  unfold ofMarch
  dsimp only
  split
  · rename_i hm
    have hlength := monthLength_march y (show (5 * d + 2) / 153 ≤ 9 by omega)
    refine ⟨⟨?_, ?_⟩, ?_, ?_⟩ <;> dsimp only <;> omega
  · obtain h | h : (5 * d + 2) / 153 = 10 ∨ (5 * d + 2) / 153 = 11 := by omega
    · have hjanuary : monthLength (y + 1) 1 = 31 := rfl
      have hday : d - 306 + 1 ≤ monthLength (y + 1) 1 := by omega
      simp only [h]
      refine ⟨⟨?_, ?_⟩, ?_, hday⟩ <;> dsimp only <;> omega
    · have hfebruary : monthLength (y + 1) 2 = if isLeapYear (y + 1) then 29 else 28 := rfl
      have hday : d - 337 + 1 ≤ monthLength (y + 1) 2 := by
        rw [hfebruary]
        split
        · omega
        · have hne := mt hleap ‹_›
          omega
      simp only [h]
      refine ⟨⟨?_, ?_⟩, ?_, hday⟩ <;> dsimp only <;> omega

theorem ofDays_eq {n : Int} {c q k d : Nat} (h : CycleDay ((n + daysToEpoch) % daysPerCycle).toNat c q k d) :
    ofDays n = ofMarch (400 * ((n + daysToEpoch) / daysPerCycle) + (100 * c + 4 * q + k : Nat)) d := by
  unfold ofDays ofMarch
  dsimp only
  rw [yearDay_eq h, yearOfCycle_eq h]
  by_cases hm : (5 * d + 2) / 153 < 10
  · rw [if_pos hm, if_pos hm, if_neg (by omega)]
    simp only [mk.injEq, and_true]
    omega
  · have hd := h.yearDay
    rw [if_neg hm, if_neg hm, if_pos (by omega)]
    simp only [mk.injEq, and_true]
    omega

/-- The first of March of a year within a cycle that starts at year `400 * e`. -/
theorem march_of_cycleDay (e : Int) {day c q k d : Nat} (h : CycleDay day c q k d) :
    daysBeforeYear (400 * e + (100 * c + 4 * q + k : Nat)) + daysBeforeMonth (400 * e + (100 * c + 4 * q + k : Nat)) 3 =
      daysPerCycle * e + (day - d : Int) - daysToEpoch := by
  have ⟨hc, hq, hk, hd, hleap, heq⟩ := h
  rw [daysBeforeYear_march]
  generalize hy : 400 * e + ((100 * c + 4 * q + k : Nat) : Int) = y
  have h4 : y / 4 = 100 * e + 25 * c + q := by omega
  have h100 : y / 100 = 4 * e + c := by omega
  have h400 : y / 400 = e := by omega
  rw [h4, h100, h400, ← hy, heq]
  unfold daysPerCycle
  push_cast
  omega

/-- The date found for a number of days is a date of the calendar, and lies that number of days from 1970-01-01. -/
theorem ofDays_spec (n : Int) : (ofDays n).Valid ∧ (ofDays n).days = n := by
  have hcycle : ((n + daysToEpoch) % daysPerCycle).toNat < 146097 := by
    unfold daysPerCycle
    omega
  obtain ⟨c, q, k, d, h⟩ := exists_cycleDay _ hcycle
  have ⟨hc, hq, hk, hd, hleap, heq⟩ := h
  rw [ofDays_eq h]
  constructor
  · apply valid_ofMarch hd
    intro hfull
    have hlast := hleap hfull
    rw [isLeapYear_iff]
    omega
  · have hmarch := march_of_cycleDay ((n + daysToEpoch) / daysPerCycle) h
    have hsplit := Int.mul_ediv_add_emod (n + daysToEpoch) daysPerCycle
    rw [days_ofMarch _ hd, hmarch, Int.toNat_of_nonneg (Int.emod_nonneg _ (by decide))]
    omega

/-! ### Order -/

variable {a b : Date}

theorem Valid.lt_next_month (h : a.Valid) :
    (daysBeforeMonth a.year a.month : Int) + ((a.day : Int) - 1) < daysBeforeMonth a.year (a.month + 1) := by
  have hnext := daysBeforeMonth_succ a.year h.month.1
  have hday := h.day
  omega

theorem Valid.days_lt_next_year (h : a.Valid) : a.days < daysBeforeYear (a.year + 1) := by
  have hmonth := h.lt_next_month
  have hyear := daysBeforeYear_succ a.year
  have hend : daysBeforeMonth a.year (a.month + 1) ≤ yearLength a.year :=
    daysBeforeMonth_mono a.year (by omega) (Nat.succ_le_succ h.month.2)
  unfold days
  omega

theorem Valid.daysBeforeYear_le (h : a.Valid) : daysBeforeYear a.year ≤ a.days := by
  have hday := h.day
  unfold days
  omega

theorem days_lt_of_year_lt (ha : a.Valid) (hb : b.Valid) (h : a.year < b.year) : a.days < b.days := by
  have hbefore := ha.days_lt_next_year
  have hafter := hb.daysBeforeYear_le
  have hmono := daysBeforeYear_mono (show a.year + 1 ≤ b.year by omega)
  omega

theorem days_lt_of_month_lt (ha : a.Valid) (hb : b.Valid) (hyear : a.year = b.year) (h : a.month < b.month) :
    a.days < b.days := by
  have hbefore := ha.lt_next_month
  have hmono := daysBeforeMonth_mono a.year (by omega) (show a.month + 1 ≤ b.month by omega)
  have hday := hb.day
  unfold days
  rw [← hyear]
  omega

end Date

theorem Date.compare_days {a b : Date} (ha : a.Valid) (hb : b.Valid) :
    compare a.days b.days =
      (compare a.year b.year).then ((compare a.month b.month).then (compare a.day b.day)) := by
  apply compare_then (days_lt_of_year_lt ha hb) (days_lt_of_year_lt hb ha)
  intro hyear
  apply compare_then (days_lt_of_month_lt ha hb hyear) (days_lt_of_month_lt hb ha hyear.symm)
  intro hmonth
  unfold days
  rw [hyear, hmonth]
  apply compare_congr <;> omega

end Logbook.Time

/-! ### Times -/

namespace Logbook

open Time (Date)

namespace CivilTime

def date (t : CivilTime) : Date := ⟨t.year, t.month, t.day⟩

/-- The fields of a date and of a time of day. -/
structure Valid (t : CivilTime) : Prop where
  date : t.date.Valid
  hour : t.hour < 24
  minute : t.minute < 60
  second : t.second < 60
  microsecond : t.microsecond ≤ 999999

/-- The seconds from 1970-01-01 00:00:00 to a time, on the clock that shows it. -/
def shownSecond (t : CivilTime) : Int :=
  t.date.days * 86400 + t.hour * 3600 + t.minute * 60 + t.second

/-- Times compare field by field as their seconds do. -/
theorem compare_shownSecond {a b : CivilTime} (ha : a.Valid) (hb : b.Valid) :
    compare a.shownSecond b.shownSecond =
      (compare a.year b.year).then ((compare a.month b.month).then ((compare a.day b.day).then
        ((compare a.hour b.hour).then ((compare a.minute b.minute).then (compare a.second b.second))))) := by
  have ⟨_, hha, hma, hsa, _⟩ := ha
  have ⟨_, hhb, hmb, hsb, _⟩ := hb
  have hdays : compare a.shownSecond b.shownSecond = (compare a.date.days b.date.days).then
      ((compare a.hour b.hour).then ((compare a.minute b.minute).then (compare a.second b.second))) := by
    unfold shownSecond
    apply compare_then (by omega) (by omega)
    intro hday
    rw [hday]
    apply compare_then (by omega) (by omega)
    intro hhour
    rw [hhour]
    apply compare_then (by omega) (by omega)
    intro hminute
    rw [hminute]
    apply compare_congr <;> omega
  rw [hdays, Date.compare_days ha.date hb.date, Ordering.then_assoc, Ordering.then_assoc]
  rfl

/-- The fields are those of the timestamp, on the clock that shows them. -/
structure Recovers (c : CivilTime) (t : Timestamp) (isLocal : Bool) : Prop where
  valid : c.Valid
  second : c.shownSecond = t.second + if isLocal then 20700 else 0
  microsecond : c.microsecond = min (t.nanos / 1000) 999999
  epochSecond : c.epochSecond = t.second
  clock : c.isLocal = isLocal
  year : -262143 ≤ c.year ∧ c.year ≤ 262142

end CivilTime

namespace Timestamp

theorem valid_atOffset (t : Timestamp) (offset : Int) (isLocal : Bool) : (t.atOffset offset isLocal).Valid := by
  have hclock : ((t.second + offset) % secondsPerDay).toNat < 86400 := by
    unfold secondsPerDay
    omega
  refine ⟨(Date.ofDays_spec ((t.second + offset) / secondsPerDay)).1, ?_, ?_, ?_, ?_⟩
  all_goals
    simp only [atOffset, microsecond]
    omega

theorem days_atOffset (t : Timestamp) (offset : Int) (isLocal : Bool) :
    (t.atOffset offset isLocal).date.days = (t.second + offset) / secondsPerDay :=
  (Date.ofDays_spec _).2

theorem shownSecond_atOffset (t : Timestamp) (offset : Int) (isLocal : Bool) :
    (t.atOffset offset isLocal).shownSecond = t.second + offset := by
  unfold CivilTime.shownSecond
  rw [days_atOffset]
  unfold atOffset secondsPerDay
  dsimp only
  omega

/-- The representable seconds are those of the years from -262143 to 262142. -/
theorem year_atOffset {t : Timestamp} {offset : Int} (isLocal : Bool)
    (h : first ≤ t.second + offset ∧ t.second + offset ≤ last) :
    -262143 ≤ (t.atOffset offset isLocal).year ∧ (t.atOffset offset isLocal).year ≤ 262142 := by
  have hvalid := (t.valid_atOffset offset isLocal).date
  have hfirst : Time.daysBeforeYear (-262143) * 86400 = first := by
    rw [Time.daysBeforeYear_eq]
    decide
  have hlast : Time.daysBeforeYear 262143 * 86400 = last + 1 := by
    rw [Time.daysBeforeYear_eq]
    decide
  have hbegin := hvalid.daysBeforeYear_le
  have hend := hvalid.days_lt_next_year
  rw [days_atOffset] at hbegin hend
  unfold secondsPerDay at hbegin hend
  rw [show (t.atOffset offset isLocal).year = (t.atOffset offset isLocal).date.year from rfl]
  generalize (t.atOffset offset isLocal).date.year = y at hbegin hend ⊢
  constructor
  · by_contra hyear
    have hmono := Time.daysBeforeYear_mono (show y + 1 ≤ -262143 by omega)
    omega
  · by_contra hyear
    have hmono := Time.daysBeforeYear_mono (show 262143 ≤ y by omega)
    omega

theorem recovers_atOffset {t : Timestamp} {isLocal : Bool} (h : ¬ (isLocal = true ∧ last < t.second + 20700)) :
    (t.atOffset (if isLocal then 20700 else 0) isLocal).Recovers t isLocal where
  valid := t.valid_atOffset _ _
  second := t.shownSecond_atOffset _ _
  microsecond := rfl
  epochSecond := rfl
  clock := rfl
  year := by
    apply year_atOffset
    have hfirst := t.first_le
    have hlast := t.le_last
    cases isLocal with
    | false => simpa using ⟨hfirst, hlast⟩
    | true =>
      simp only [true_and, if_true] at h ⊢
      omega

theorem decompose_past {t : Timestamp} (h : last < t.second + 20700) : t.decompose true = .error .localTime := by
  simp [decompose, localOffset, h]

theorem decompose_within {t : Timestamp} {isLocal : Bool} (h : ¬ (isLocal = true ∧ last < t.second + 20700)) :
    t.decompose isLocal = .ok (t.atOffset (if isLocal then 20700 else 0) isLocal) := by
  have hfirst := t.first_le
  unfold decompose localOffset
  cases isLocal with
  | false => rfl
  | true =>
    have hrange : ¬ (t.second + 20700 < first ∨ last < t.second + 20700) := by
      simp only [true_and] at h
      omega
    rw [if_pos rfl, if_neg hrange]
    rfl

/-- A timestamp cannot be split just where the local clock is past the last second; all others are, into the fields of
a date and a time of day that give the second back. -/
theorem decompose_reconstructs (t : Timestamp) (isLocal : Bool) :
    (t.decompose isLocal = .error .localTime ↔ isLocal = true ∧ last < t.second + 20700) ∧
    (¬ (isLocal = true ∧ last < t.second + 20700) →
      ∃ c, t.decompose isLocal = .ok c ∧ c.Recovers t isLocal) := by
  refine ⟨⟨fun hpanic => ?_, ?_⟩, fun h => ⟨_, decompose_within h, recovers_atOffset h⟩⟩
  · by_contra h
    rw [decompose_within h] at hpanic
    cases hpanic
  · rintro ⟨rfl, hpast⟩
    exact decompose_past hpast

/- The last second has no local time. A leap second at the end of a year is shown locally in the year after it, and
the first second begins the first year. -/
theorem decompose_reconstructs_bounds :
    (⟨8210266876799, 0, by decide, by decide, by decide⟩ : Timestamp).decompose true = .error .localTime ∧
      (CivilTime.mk 2017 1 1 5 44 59 999999 true 1483228799).Recovers
        ⟨1483228799, 1999999999, by decide, by decide, by decide⟩ true ∧
      (CivilTime.mk (-262143) 1 1 0 0 0 0 false (-8334601228800)).Recovers
        ⟨-8334601228800, 0, by decide, by decide, by decide⟩ false := by
  refine ⟨(decompose_reconstructs _ _).1.mpr (by decide), ?_, ?_⟩
  · obtain ⟨c, hc, hrecovers⟩ := (decompose_reconstructs
      ⟨1483228799, 1999999999, by decide, by decide, by decide⟩ true).2 (by decide)
    cases hc
    exact hrecovers
  · obtain ⟨c, hc, hrecovers⟩ := (decompose_reconstructs
      ⟨-8334601228800, 0, by decide, by decide, by decide⟩ false).2 (by decide)
    cases hc
    exact hrecovers

end Timestamp

end Logbook
