import Logbook.Proofs.Digits
import Logbook.Proofs.Rendering
import Logbook.Script.Parts

/-!
# The last second

Calendar texts are appended to a buffer through one cache, for times whose fields may be anything. What is kept is
always the whole text of the last time that was written anew without a panic. A time under the same key gets that text,
whatever its own fields are; every other time gets its own, up to the panic if there is one.
-/

namespace Logbook

/-! ### Text up to a panic -/

namespace Column

theorem written_of_wide {c : Column} (hwidth : 1 ≤ c.width ∧ c.width ≤ 6) (h : 10 ^ c.width ≤ c.number) :
    c.written = ⟨[ascii c.separator], some (.tooManyDigits c.number c.width)⟩ := by
  rw [written, Text.padded_of_le hwidth h]
  rfl

/-- Columns are written up to the separator of the first one that is too wide. -/
theorem writeAll_cases {cs : List Column} (hwidth : ∀ c ∈ cs, 1 ≤ c.width ∧ c.width ≤ 6) :
    writeAll cs = .text (textAll cs) ∨
      ∃ fit c rest, cs = fit ++ c :: rest ∧ (∀ f ∈ fit, f.Fits) ∧ 10 ^ c.width ≤ c.number ∧
        writeAll cs = ⟨textAll fit ++ [ascii c.separator], some (.tooManyDigits c.number c.width)⟩ := by
  induction cs with
  | nil => exact .inl rfl
  | cons c cs ih =>
    rw [List.forall_mem_cons] at hwidth
    have hcons : writeAll (c :: cs) = c.written ++ writeAll cs := rfl
    by_cases hc : 10 ^ c.width ≤ c.number
    · refine .inr ⟨[], c, cs, rfl, by simp, hc, ?_⟩
      rw [hcons, written_of_wide hwidth.1 hc]
      rfl
    · have hfits : c.Fits := ⟨hwidth.1.1, hwidth.1.2, Nat.lt_of_not_le hc⟩
      rw [hcons, written_of_fits hfits]
      rcases ih hwidth.2 with hall | ⟨fit, d, rest, hsplit, hfit, hwide, hcut⟩
      · rw [hall]
        exact .inl rfl
      · refine .inr ⟨c :: fit, d, rest, by rw [hsplit, List.cons_append], ?_, hwide, ?_⟩
        · rw [List.forall_mem_cons]
          exact ⟨hfits, hfit⟩
        · rw [hcut, Written.text_append, textAll, textAll, List.flatMap_cons, List.append_assoc]

end Column

namespace CivilTime

/-- The columns of date and time of day. -/
def calendarColumns (t : CivilTime) : List Column := t.columns.take 5

theorem calendar_parts (t : CivilTime) :
    t.calendar = .text (Text.yearText t.year) ++ Column.writeAll t.calendarColumns := by
  rw [calendar, Text.year_eq]
  simp [calendarColumns, columns, Column.writeAll, Column.written, Written.append_empty, Written.append_assoc]

theorem stop_calendar {t : CivilTime} (h : t.calendar.stop ≠ none) :
    ∃ fit c rest, t.calendarColumns = fit ++ c :: rest ∧ (∀ f ∈ fit, f.Fits) ∧ 10 ^ c.width ≤ c.number ∧
      t.calendar = ⟨Text.yearText t.year ++ Column.textAll fit ++ [ascii c.separator],
        some (.tooManyDigits c.number c.width)⟩ := by
  have hwidth : ∀ c ∈ t.calendarColumns, 1 ≤ c.width ∧ c.width ≤ 6 := by simp [calendarColumns, columns]
  rw [calendar_parts] at h ⊢
  rcases Column.writeAll_cases hwidth with hall | ⟨fit, c, rest, hsplit, hfit, hwide, hcut⟩
  · rw [hall] at h
    exact absurd rfl h
  · refine ⟨fit, c, rest, hsplit, hfit, hwide, ?_⟩
    rw [hcut, Written.text_append, List.append_assoc]

structure SameCalendar (a b : CivilTime) : Prop where
  year : a.year = b.year
  month : a.month = b.month
  day : a.day = b.day
  hour : a.hour = b.hour
  minute : a.minute = b.minute
  second : a.second = b.second

theorem SameCalendar.calendar_eq {a b : CivilTime} (h : a.SameCalendar b) : a.calendar = b.calendar := by
  simp only [calendar, h.year, h.month, h.day, h.hour, h.minute, h.second]

end CivilTime

/-! ### Looking up -/

namespace SecondCache

def key? (c : SecondCache) : Option SecondKey := c.kept.map (·.1)

theorem find?_of_kept {c : SecondCache} {k : SecondKey} {bs : Bytes} (h : c.kept = some (k, bs)) :
    c.find? k = some bs := by
  simp [find?, h]

theorem find?_of_ne {c : SecondCache} {k : SecondKey} (h : c.key? ≠ some k) : c.find? k = none := by
  cases hfind : c.find? k with
  | none => rfl
  | some bs =>
    have hkept := kept_of_find? hfind
    exact absurd (by simp [key?, hkept]) h

/-- A call finds the text of its key, or writes its time anew, with or without a panic. -/
theorem calendar_cases (c : SecondCache) (t : CivilTime) :
    (c.key? = some (keyOf t) ∧ ∃ bs, c.kept = some (keyOf t, bs) ∧
      c.calendar t = (.text bs, { c with hits := c.hits + 1 })) ∨
    (c.key? ≠ some (keyOf t) ∧ t.calendar.stop = none ∧
      c.calendar t = (t.calendar, ⟨some (keyOf t, t.calendar.bytes), c.hits, c.misses + 1⟩)) ∨
    (c.key? ≠ some (keyOf t) ∧ t.calendar.stop ≠ none ∧
      c.calendar t = (t.calendar, { c with misses := c.misses + 1 })) := by
  by_cases hkey : c.key? = some (keyOf t)
  · obtain ⟨⟨k, bs⟩, hkept, hk⟩ := Option.map_eq_some_iff.mp hkey
    have hk' : k = keyOf t := hk
    subst hk'
    refine .inl ⟨hkey, bs, hkept, ?_⟩
    rw [calendar, find?_of_kept hkept]
  · refine .inr ?_
    by_cases hstop : t.calendar.stop = none
    · exact .inl ⟨hkey, hstop, by simp [calendar, find?_of_ne hkey, hstop]⟩
    · obtain ⟨p, hp⟩ := Option.ne_none_iff_exists'.mp hstop
      exact .inr ⟨hkey, hstop, by simp [calendar, find?_of_ne hkey, hp]⟩

/-! ### Calls one after another -/

def calendarAll (c : SecondCache) (calls : List CivilTime) : SecondCache := calls.foldl (fun c t => (c.calendar t).2) c

/-- The times that are missed in the cache and written anew without a panic. -/
def freshTimes (c : SecondCache) : List CivilTime → List CivilTime
  | [] => []
  | t :: rest =>
    let later := (c.calendar t).2.freshTimes rest
    if c.key? ≠ some (keyOf t) ∧ t.calendar.stop = none then t :: later else later

/-- What is kept of a time. -/
def entryOf (t : CivilTime) : SecondKey × Bytes := (keyOf t, t.calendar.bytes)

theorem kept_calendarAll (c : SecondCache) (calls : List CivilTime) :
    (c.calendarAll calls).kept = ((c.freshTimes calls).getLast?.map entryOf).or c.kept := by
  induction calls generalizing c with
  | nil => rfl
  | cons t rest ih =>
    have hrest := ih (c.calendar t).2
    rw [calendarAll, List.foldl_cons, ← calendarAll, hrest, freshTimes]
    rcases c.calendar_cases t with ⟨hkey, bs, -, heq⟩ | ⟨hkey, hstop, heq⟩ | ⟨hkey, hstop, heq⟩
    · simp [hkey, heq]
    · -- unless a later one follows, this call is the last that was written anew
      have hlast (o : Option CivilTime) : (o.map entryOf).or (some (entryOf t)) = some (entryOf (o.getD t)) := by
        cases o <;> rfl
      have hkept : (c.calendar t).2.kept = some (entryOf t) := by
        rw [heq]
        rfl
      rw [hkept, hlast, if_pos ⟨hkey, hstop⟩, List.getLast?_cons, Option.map_some, Option.some_or]
    · simp [hstop, heq]

theorem counts_calendarAll (c : SecondCache) (calls : List CivilTime) :
    (c.calendarAll calls).hits + (c.calendarAll calls).misses = c.hits + c.misses + calls.length := by
  induction calls generalizing c with
  | nil => rfl
  | cons t rest ih =>
    have hfirst := c.calls_calendar t
    have hrest := ih (c.calendar t).2
    rw [calendarAll, List.foldl_cons, ← calendarAll, List.length_cons]
    omega

theorem mem_freshTimes {c : SecondCache} {calls : List CivilTime} {u : CivilTime} (h : u ∈ c.freshTimes calls) :
    u ∈ calls ∧ u.calendar.stop = none := by
  induction calls generalizing c with
  | nil => simp [freshTimes] at h
  | cons t rest ih =>
    simp only [freshTimes] at h
    split at h
    · rename_i hfresh
      rcases List.mem_cons.mp h with rfl | h
      · exact ⟨List.mem_cons_self, hfresh.2⟩
      · exact ⟨List.mem_cons_of_mem _ (ih h).1, (ih h).2⟩
    · exact ⟨List.mem_cons_of_mem _ (ih h).1, (ih h).2⟩

end SecondCache

/-- A cache, and the buffer that its texts are appended to. -/
structure Sheet where
  cache : SecondCache
  dest : Bytes

namespace Sheet

open SecondCache (keyOf)

def append (s : Sheet) (t : CivilTime) : Written × Sheet :=
  let (written, cache) := s.cache.calendar t
  (written, ⟨cache, s.dest ++ written.bytes⟩)

def appendAll (s : Sheet) (calls : List CivilTime) : Sheet := calls.foldl (fun s t => (s.append t).2) s

theorem cache_appendAll (s : Sheet) (calls : List CivilTime) :
    (s.appendAll calls).cache = s.cache.calendarAll calls := by
  induction calls generalizing s with
  | nil => rfl
  | cons t rest ih => exact ih (s.append t).2

/- The script shows what each call appended; the buffer has all of it behind what it held before. -/
theorem dest_appendAll (dest : Bytes) (calls : List CivilTime) :
    (appendAll ⟨.empty, dest⟩ calls).dest = dest ++ (Script.runCache calls).1 := by
  unfold Script.runCache
  generalize SecondCache.empty = c
  induction calls generalizing c dest with
  | nil => exact (List.append_nil dest).symm
  | cons t rest ih =>
    have hrest := ih (dest ++ (c.calendar t).1.bytes) (c.calendar t).2
    simp only [Script.run_cons, List.map_cons, List.flatten_cons, ← List.append_assoc]
    exact hrest

theorem kept_appendAll (dest : Bytes) (calls : List CivilTime) :
    (appendAll ⟨.empty, dest⟩ calls).cache.kept =
      (SecondCache.empty.freshTimes calls).getLast?.map SecondCache.entryOf := by
  rw [cache_appendAll, SecondCache.kept_calendarAll]
  exact Option.or_none

/-- Times under one key that agree in their fields get the text that they would get without a cache. -/
theorem append_eq_calendar {dest : Bytes} {calls : List CivilTime} {t : CivilTime}
    (h : ∀ u ∈ calls, keyOf u = keyOf t → u.SameCalendar t) :
    ((appendAll ⟨.empty, dest⟩ calls).append t).1 = t.calendar := by
  have hkept := kept_appendAll dest calls
  generalize appendAll ⟨.empty, dest⟩ calls = s at hkept
  rcases s.cache.calendar_cases t with ⟨-, bs, hfound, heq⟩ | ⟨-, -, heq⟩ | ⟨-, -, heq⟩
  · rw [hkept] at hfound
    obtain ⟨u, hlast, hentry⟩ := Option.map_eq_some_iff.mp hfound
    obtain ⟨hmem, hstop⟩ := SecondCache.mem_freshTimes (List.mem_of_getLast? hlast)
    have hkey : keyOf u = keyOf t := congrArg Prod.fst hentry
    have hbytes : u.calendar.bytes = bs := congrArg Prod.snd hentry
    have happend : (s.append t).1 = .text bs := congrArg Prod.fst heq
    rw [happend, ← hbytes, ← Written.eq_text hstop, (h u hmem hkey).calendar_eq]
  · exact congrArg Prod.fst heq
  · exact congrArg Prod.fst heq

/-- Any calls on one cache, into one buffer that holds `dest` at first, and one more. What is kept is the whole text of
the last time that was missed and written without a panic, under its key. The next call, if it has that key, appends
that text; otherwise it appends the text of its own time, which is kept only if it is whole. A text that is cut short
ends with the separator of the first column that is too wide. Every call is counted. -/
theorem keeps_last_fresh (dest : Bytes) (calls : List CivilTime) (t : CivilTime) :
    let s := appendAll ⟨.empty, dest⟩ calls
    let w := (s.append t).1
    let s' := (s.append t).2
    (s.cache.kept = (SecondCache.empty.freshTimes calls).getLast?.map (fun u => (keyOf u, u.calendar.bytes)) ∧
      ∀ u ∈ SecondCache.empty.freshTimes calls, u ∈ calls ∧ u.calendar.stop = none) ∧
    (s.dest = dest ++ (Script.runCache calls).1 ∧ s'.dest = s.dest ++ w.bytes) ∧
    (s.cache.key? = some (keyOf t) → ∃ bs, s.cache.kept = some (keyOf t, bs) ∧ w = .text bs ∧
      s'.cache = { s.cache with hits := s.cache.hits + 1 }) ∧
    (s.cache.key? ≠ some (keyOf t) → w = t.calendar ∧ s'.cache.hits = s.cache.hits ∧
      s'.cache.misses = s.cache.misses + 1 ∧
      s'.cache.kept = if w.stop = none then some (keyOf t, s'.dest.drop s.dest.length) else s.cache.kept) ∧
    (t.calendar.stop ≠ none → ∃ fit c rest, t.calendarColumns = fit ++ c :: rest ∧ (∀ f ∈ fit, f.Fits) ∧
      10 ^ c.width ≤ c.number ∧
      t.calendar = ⟨Text.yearText t.year ++ Column.textAll fit ++ [ascii c.separator],
        some (.tooManyDigits c.number c.width)⟩) ∧
    s.cache.hits + s.cache.misses = calls.length ∧
    ((∀ u ∈ calls, keyOf u = keyOf t → u.SameCalendar t) → w = t.calendar) := by
  intro s w s'
  have hnew : s'.dest.drop s.dest.length = w.bytes := List.drop_left
  refine ⟨⟨kept_appendAll dest calls, fun u => SecondCache.mem_freshTimes⟩, ⟨dest_appendAll dest calls, rfl⟩,
    ?_, ?_, CivilTime.stop_calendar, ?_, append_eq_calendar⟩
  · intro hkey
    rcases s.cache.calendar_cases t with ⟨-, bs, hkept, heq⟩ | ⟨hmiss, -⟩ | ⟨hmiss, -⟩
    · exact ⟨bs, hkept, congrArg Prod.fst heq, congrArg Prod.snd heq⟩
    · exact absurd hkey hmiss
    · exact absurd hkey hmiss
  · intro hkey
    rw [hnew]
    rcases s.cache.calendar_cases t with ⟨hhit, -⟩ | ⟨-, hstop, heq⟩ | ⟨-, hstop, heq⟩
    · exact absurd hhit hkey
    · have hw : w = t.calendar := congrArg Prod.fst heq
      have hcache : s'.cache = _ := congrArg Prod.snd heq
      rw [hw, if_pos hstop, hcache]
      exact ⟨rfl, rfl, rfl, rfl⟩
    · have hw : w = t.calendar := congrArg Prod.fst heq
      have hcache : s'.cache = _ := congrArg Prod.snd heq
      rw [hw, if_neg hstop, hcache]
      exact ⟨rfl, rfl, rfl, rfl⟩
  · have hcounts := SecondCache.empty.counts_calendarAll calls
    have hcache : s.cache = SecondCache.empty.calendarAll calls := cache_appendAll _ calls
    rw [hcache, hcounts]
    simp [SecondCache.empty]

/- A second is kept, another one panics in its month, and the first comes again, with other fields and with its own. -/
theorem keeps_last_fresh_cut :
    let first : CivilTime := ⟨2000, 1, 2, 3, 4, 5, 0, false, 7⟩
    let wide : CivilTime := { first with month := 100, epochSecond := 8 }
    let other : CivilTime := { first with year := 1999, day := 100 }
    let same : CivilTime := { first with microsecond := 9 }
    let s := appendAll ⟨.empty, []⟩ [first]
    let cut := (s.append wide).2
    (s.cache.key? ≠ some (keyOf wide) ∧ (s.append wide).1 = ⟨utf8 "2000-", some (.tooManyDigits 100 2)⟩ ∧
      cut.cache = ⟨s.cache.kept, 0, 2⟩) ∧
    (cut.cache.key? = some (keyOf other) ∧ (cut.append other).1 = .text (utf8 "2000-01-02 03:04:05") ∧
      (cut.append other).2.dest = utf8 "2000-01-02 03:04:052000-2000-01-02 03:04:05" ∧
      (cut.append other).2.cache = ⟨s.cache.kept, 1, 2⟩) ∧
    (cut.append same).1 = same.calendar := by
  intro first wide other same s cut
  have hmiss : s.cache.key? ≠ some (keyOf wide) := by decide
  have hkey : cut.cache.key? = some (keyOf other) := by decide
  have hbs : cut.cache.kept = some (keyOf other, utf8 "2000-01-02 03:04:05") := by decide
  have htext : wide.calendar = ⟨utf8 "2000-", some (.tooManyDigits 100 2)⟩ := by decide
  have hbytes : cut.dest = utf8 "2000-01-02 03:04:052000-" := by decide
  have hcache : cut.cache = ⟨s.cache.kept, 0, 2⟩ := by decide
  have hcut : appendAll ⟨.empty, []⟩ [first, wide] = cut := rfl
  obtain ⟨-, -, -, hwide, -⟩ := keeps_last_fresh [] [first] wide
  obtain ⟨-, ⟨-, hdest⟩, hhit, -⟩ := keeps_last_fresh [] [first, wide] other
  obtain ⟨-, -, -, -, -, -, hsame⟩ := keeps_last_fresh [] [first, wide] same
  rw [hcut] at hdest hhit hsame
  obtain ⟨bs, hkept, hw, hhits⟩ := hhit hkey
  have hfound : bs = utf8 "2000-01-02 03:04:05" := by
    rw [hbs] at hkept
    exact (Prod.mk.inj (Option.some.inj hkept)).2.symm
  rw [hfound] at hw
  rw [hw, hbytes] at hdest
  rw [hcache] at hhits
  refine ⟨⟨hmiss, (hwide hmiss).1.trans htext, hcache⟩, ⟨hkey, hw, hdest.trans (by decide), hhits⟩, hsame ?_⟩
  intro u hu
  have hcases : u = first ∨ u = wide := by simpa using hu
  rcases hcases with rfl | rfl
  · exact fun _ => ⟨rfl, rfl, rfl, rfl, rfl, rfl⟩
  · exact fun h => absurd h (by decide)

end Sheet

end Logbook
