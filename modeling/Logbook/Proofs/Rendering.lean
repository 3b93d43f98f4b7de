import Logbook.Format.Formatter
import Logbook.Proofs.Calendar

/-!
# Rendering without a history

A formatter keeps the calendar text of the last second. For times that a clock at a fixed offset shows, what it
appends does not depend on what it keeps: it is the text that the record alone determines.
-/

namespace Logbook

variable {offset : Int}

/-! ### The cache -/

namespace SecondCache

/-- What is kept is the calendar text of every time under its key. -/
def Sound (offset : Int) (c : SecondCache) : Prop :=
  ∀ k bs, c.kept = some (k, bs) → ∀ t : CivilTime, t.IsShown offset → keyOf t = k → t.calendar = .text bs

theorem sound_empty (offset : Int) : (empty : SecondCache).Sound offset := by
  intro k bs h
  cases h

theorem kept_of_find? {c : SecondCache} {k : SecondKey} {bs : Bytes} (h : c.find? k = some bs) :
    c.kept = some (k, bs) := by
  unfold find? at h
  split at h
  · rename_i k' bs' hkept
    split at h
    · rename_i hk
      cases h
      rw [hkept, hk]
    · cases h
  · cases h

theorem Sound.calendar {c : SecondCache} (h : c.Sound offset) {t : CivilTime} (ht : t.IsShown offset) :
    (c.calendar t).1 = .text t.calendar.bytes ∧ (c.calendar t).2.Sound offset := by
  have hfresh : t.calendar = .text t.calendar.bytes := Written.eq_text ht.fits.stop_calendar
  unfold SecondCache.calendar
  cases hfind : c.find? (keyOf t) with
  | some bs =>
    have hkept := h _ bs (kept_of_find? hfind) t ht rfl
    refine ⟨?_, h⟩
    dsimp only
    rw [hkept]
    rfl
  | none =>
    dsimp only
    rw [ht.fits.stop_calendar]
    refine ⟨hfresh, ?_⟩
    intro k bs hkept t' ht' hkey
    cases hkept
    rw [ht'.calendar_eq ht hkey]
    exact hfresh

end SecondCache

/-! ### Stages -/

namespace Stage

/-- Does the record alone determine what this stage appends? -/
def isPlain : Stage → Bool
  | .cacheCounts | .reenter | .panic _ => false
  | _ => true

/-- What a plain stage appends, with every time written afresh. -/
def plain (r : Record) : Stage → Bytes
  | .timestamp | .plainTimestamp => r.time.timestamp.bytes
  | .severity => severityText r
  | .name => nameText r
  | .location => locationText r
  | .message => messageText r
  | .standard => r.time.timestamp.bytes ++ standardTail r
  | .calendar => r.time.calendar.bytes
  | .millis => Text.decimal r.time.milliseconds
  | .fixed text => text
  | .path segments => Path.lastSegments segments r.file
  | .cacheCounts | .reenter | .panic _ => []

variable {r : Record} {c : SecondCache}

theorem writeTimestamp_eq (hc : c.Sound offset) (ht : r.time.IsShown offset) :
    writeTimestamp r c = (.text r.time.timestamp.bytes, (c.calendar r.time).2) := by
  unfold writeTimestamp
  dsimp only
  rw [(hc.calendar ht).1, Written.eq_text ht.fits.stop_subsecond, ht.fits.timestamp_eq]
  rfl

theorem write_plain (hc : c.Sound offset) (ht : r.time.IsShown offset) {s : Stage} (hs : s.isPlain = true)
    (again : Unit → Written) :
    (s.write again r c).1 = .text (s.plain r) ∧ (s.write again r c).2.Sound offset := by
  have hnext := (hc.calendar ht).2
  cases s with
  | timestamp =>
    rw [write, writeTimestamp_eq hc ht]
    exact ⟨rfl, hnext⟩
  | standard =>
    rw [write, writeTimestamp_eq hc ht]
    exact ⟨rfl, hnext⟩
  | calendar => exact hc.calendar ht
  | plainTimestamp =>
    refine ⟨?_, hc⟩
    rw [write, plain, ht.fits.timestamp_eq]
    rfl
  | severity => exact ⟨rfl, hc⟩
  | name => exact ⟨rfl, hc⟩
  | location => exact ⟨rfl, hc⟩
  | message => exact ⟨rfl, hc⟩
  | millis => exact ⟨rfl, hc⟩
  | fixed text => exact ⟨rfl, hc⟩
  | path segments => exact ⟨rfl, hc⟩
  | cacheCounts => cases hs
  | reenter => cases hs
  | panic text => cases hs

/-- A stage that ends well is followed by the others. -/
theorem writeAll_cons_of_text {again : Unit → Written} {s : Stage} {bs : Bytes}
    (h : (s.write again r c).1 = .text bs) (rest : List Stage) :
    writeAll again (s :: rest) r c =
      (.text bs ++ (writeAll again rest r (s.write again r c).2).1,
        (writeAll again rest r (s.write again r c).2).2) := by
  rw [writeAll]
  dsimp only
  rw [h]
  rfl

theorem writeAll_plain (hc : c.Sound offset) (ht : r.time.IsShown offset) {stages : List Stage}
    (hs : stages.all isPlain = true) (again : Unit → Written) :
    (writeAll again stages r c).1 = .text (stages.flatMap (plain r)) ∧
      (writeAll again stages r c).2.Sound offset := by
  induction stages generalizing c with
  | nil => exact ⟨rfl, hc⟩
  | cons s rest ih =>
    rw [List.all_cons, Bool.and_eq_true] at hs
    obtain ⟨hfirst, hnext⟩ := write_plain hc ht hs.1 again
    obtain ⟨hothers, hend⟩ := ih hnext hs.2
    rw [writeAll_cons_of_text hfirst]
    refine ⟨?_, hend⟩
    dsimp only
    rw [hothers, List.flatMap_cons]
    rfl

end Stage

/-! ### Formatters -/

namespace Layout

def isPlain (l : Layout) : Bool := l.stages.all Stage.isPlain

/-- The line that a layout of plain stages makes of a record. -/
def plain (l : Layout) (r : Record) : Bytes := l.stages.flatMap (Stage.plain r)

end Layout

namespace Formatter

theorem format_plain {f : Formatter} (hf : f.layout.isPlain = true) (hc : f.cache.Sound offset) {r : Record}
    (ht : r.time.IsShown offset) :
    (f.format r).1 = .text (f.layout.plain r) ∧ (f.format r).2.cache.Sound offset :=
  Stage.writeAll_plain hc ht hf fun _ => f.inner r

end Formatter

end Logbook
