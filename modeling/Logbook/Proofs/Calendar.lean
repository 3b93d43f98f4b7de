import Logbook.Format.SecondCache

/-!
# Dates and their written form

The fields of a time on any clock at a fixed offset have the digits that their columns allow, so writing them
never panics, and the calendar text is fixed by the second and the clock.
-/

namespace Logbook

/-! ### Days within a cycle -/

namespace Time.Date

/-- A day within its cycle, by century, by span of four years, by year and by day of the year. A leap day ends
its year, and the last year of a century has one in the last century only. -/
structure CycleDay (day c q k d : Nat) : Prop where
  century : c ≤ 3
  span : q ≤ 24
  year : k ≤ 3
  yearDay : d ≤ 365
  leap : d = 365 → k = 3 ∧ (q = 24 → c = 3)
  eq : day = 36524 * c + 1461 * q + 365 * k + d

theorem exists_cycleDay (day : Nat) (h : day < 146097) : ∃ c q k d, CycleDay day c q k d := by
  obtain ⟨c, r, hc, hr, hend, hday⟩ :
      ∃ c r, c ≤ 3 ∧ r ≤ 36524 ∧ (r = 36524 → c = 3) ∧ day = 36524 * c + r := by
    by_cases hlast : day = 146096
    · exact ⟨3, 36524, by omega, by omega, by omega, by omega⟩
    · exact ⟨day / 36524, day % 36524, by omega, by omega, by omega, by omega⟩
  obtain ⟨k, d, hk, hd, hleap, hrest⟩ :
      ∃ k d, k ≤ 3 ∧ d ≤ 365 ∧ (d = 365 → k = 3) ∧ r % 1461 = 365 * k + d := by
    by_cases hlast : r % 1461 = 1460
    · exact ⟨3, 365, by omega, by omega, by omega, by omega⟩
    · exact ⟨r % 1461 / 365, r % 1461 % 365, by omega, by omega, by omega, by omega⟩
  refine ⟨c, r / 1461, k, d, hc, by omega, hk, hd, fun hfull => ⟨hleap hfull, ?_⟩, by omega⟩
  intro hspan
  have hk3 := hleap hfull
  apply hend
  omega

/- The divisor 1460 runs ahead of the spans of 1461 days, by one at most within a cycle, and it does so just where
the leap day would otherwise count as a year of its own. -/
theorem yearOfCycle_eq {day c q k d : Nat} (h : CycleDay day c q k d) :
    yearOfCycle day = 100 * c + 4 * q + k := by
  obtain ⟨hc, hq, hk, hd, hleap, heq⟩ := h
  obtain ⟨t, hspan, ht, hfull, hnone⟩ :
      ∃ t, day / 1460 = 25 * c + q + t ∧ t ≤ 1 ∧ (d = 365 → t = 1) ∧ (d = 0 → t = 0) :=
    ⟨(24 * c + q + 365 * k + d) / 1460, by omega, by omega, by omega, by omega⟩
  have hcenturies : day / 36524 = c + day / 146096 := by
    by_cases hlast : day = 146096
    · omega
    · omega
  unfold yearOfCycle
  omega

theorem yearDay_eq {day c q k d : Nat} (h : CycleDay day c q k d) :
    day - (365 * yearOfCycle day + yearOfCycle day / 4 - yearOfCycle day / 100) = d := by
  rw [yearOfCycle_eq h]
  obtain ⟨hc, hq, hk, hd, hleap, heq⟩ := h
  omega

/-- Months and days of dates lie in the ranges of a calendar. -/
theorem ofDays_bounds (days : Int) :
    1 ≤ (ofDays days).month ∧ (ofDays days).month ≤ 12 ∧ 1 ≤ (ofDays days).day ∧ (ofDays days).day ≤ 31 := by
  have hcycle : ((days + daysToEpoch) % daysPerCycle).toNat < 146097 := by
    unfold daysPerCycle
    omega
  obtain ⟨c, q, k, d, hday⟩ := exists_cycleDay _ hcycle
  have hd := hday.yearDay
  unfold ofDays
  dsimp only
  rw [yearDay_eq hday]
  by_cases hm : (5 * d + 2) / 153 < 10
  · rw [if_pos hm]
    omega
  · rw [if_neg hm]
    omega

end Time.Date

/-! ### Times on a clock -/

namespace CivilTime

/-- The fields fit their columns. -/
structure Fits (t : CivilTime) : Prop where
  month : t.month < 100
  day : t.day < 100
  hour : t.hour < 100
  minute : t.minute < 100
  second : t.second < 100
  microsecond : t.microsecond < 1000000

/-- A time as shown in UTC or on a local clock that is `offset` seconds ahead. -/
def IsShown (offset : Int) (t : CivilTime) : Prop :=
  ∃ (s : Timestamp) (isLocal : Bool), s.decompose isLocal offset = .ok t

end CivilTime

namespace Timestamp

theorem fits_atOffset (s : Timestamp) (offset : Int) (isLocal : Bool) : (s.atOffset offset isLocal).Fits := by
  obtain ⟨_, hmonth, _, hday⟩ := Time.Date.ofDays_bounds ((s.second + offset) / secondsPerDay)
  have hclock : ((s.second + offset) % secondsPerDay).toNat < 86400 := by
    unfold secondsPerDay
    omega
  unfold atOffset microsecond
  constructor <;> dsimp only <;> omega

/-- What a clock shows is the time at its offset. -/
theorem eq_atOffset_of_decompose {s : Timestamp} {isLocal : Bool} {offset : Int} {t : CivilTime}
    (h : s.decompose isLocal offset = .ok t) : t = s.atOffset (if isLocal then offset else 0) isLocal := by
  unfold decompose at h
  cases isLocal with
  | false =>
    cases h
    rfl
  | true =>
    rw [if_pos rfl] at h
    split at h
    · cases h
    · cases h
      rfl

theorem calendar_atOffset {s s' : Timestamp} (h : s.second = s'.second) (offset : Int) (isLocal : Bool) :
    (s.atOffset offset isLocal).calendar = (s'.atOffset offset isLocal).calendar := by
  unfold CivilTime.calendar atOffset
  rw [h]

end Timestamp

namespace CivilTime

theorem IsShown.fits {offset : Int} {t : CivilTime} (h : t.IsShown offset) : t.Fits := by
  obtain ⟨s, isLocal, hs⟩ := h
  rw [Timestamp.eq_atOffset_of_decompose hs]
  exact Timestamp.fits_atOffset s _ isLocal

/-- Times of one second on one clock have one calendar text. -/
theorem IsShown.calendar_eq {offset : Int} {a b : CivilTime} (ha : a.IsShown offset) (hb : b.IsShown offset)
    (hkey : SecondCache.keyOf a = SecondCache.keyOf b) : a.calendar = b.calendar := by
  obtain ⟨s, l, hs⟩ := ha
  obtain ⟨s', l', hs'⟩ := hb
  rw [Timestamp.eq_atOffset_of_decompose hs, Timestamp.eq_atOffset_of_decompose hs'] at hkey ⊢
  have hsecond : s.second = s'.second := congrArg SecondKey.epochSecond hkey
  have hlocal : l = l' := congrArg SecondKey.isLocal hkey
  rw [hlocal]
  exact Timestamp.calendar_atOffset hsecond _ l'

end CivilTime

/-! ### Writing -/

namespace Written

theorem stop_append (a b : Written) : (a ++ b).stop = none ↔ a.stop = none ∧ b.stop = none := by
  obtain ⟨x, p⟩ := a
  cases p with
  | none => exact ⟨fun h => ⟨rfl, h⟩, fun h => h.2⟩
  | some p =>
    constructor
    · intro h
      cases h
    · intro h
      cases h.1

theorem eq_text {w : Written} (h : w.stop = none) : w = text w.bytes := by
  obtain ⟨bytes, stop⟩ := w
  cases h
  rfl

end Written

namespace Text

theorem stop_padded {width n : Nat} (hwidth : 1 ≤ width ∧ width ≤ 6) (hn : n < Nat.pow 10 width) :
    (padded width n).stop = none := by
  unfold padded
  rw [if_neg (by omega), if_neg (by omega)]
  rfl

theorem stop_year (y : Int) : (year y).stop = none := by
  unfold year
  rw [Written.stop_append]
  constructor
  · split <;> rfl
  · split
    · rename_i hy
      have hfour : y.natAbs < 10000 := by omega
      exact stop_padded (by omega) hfour
    · rfl

end Text

namespace CivilTime

theorem Fits.stop_calendar {t : CivilTime} (h : t.Fits) : t.calendar.stop = none := by
  have hmonth : (Text.padded 2 t.month).stop = none := Text.stop_padded (by omega) h.month
  have hday : (Text.padded 2 t.day).stop = none := Text.stop_padded (by omega) h.day
  have hhour : (Text.padded 2 t.hour).stop = none := Text.stop_padded (by omega) h.hour
  have hminute : (Text.padded 2 t.minute).stop = none := Text.stop_padded (by omega) h.minute
  have hsecond : (Text.padded 2 t.second).stop = none := Text.stop_padded (by omega) h.second
  unfold calendar
  simp only [Written.stop_append, Text.stop_year, hmonth, hday, hhour, hminute, hsecond, Written.char,
    Written.text, and_self]

theorem Fits.stop_subsecond {t : CivilTime} (h : t.Fits) : t.subsecond.stop = none := by
  have hmicro : (Text.padded 6 t.microsecond).stop = none := Text.stop_padded (by omega) h.microsecond
  unfold subsecond
  simp only [Written.stop_append, hmicro, Written.char, Written.text, true_and]
  split <;> rfl

/-- The whole time, once neither part panics. -/
theorem Fits.timestamp_eq {t : CivilTime} (h : t.Fits) :
    t.timestamp = .text (t.calendar.bytes ++ t.subsecond.bytes) := by
  unfold timestamp
  rw [Written.eq_text h.stop_calendar, Written.eq_text h.stop_subsecond]
  rfl

end CivilTime

end Logbook
