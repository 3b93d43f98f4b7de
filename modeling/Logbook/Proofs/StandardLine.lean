import Logbook.Proofs.Capture
import Logbook.Proofs.Rendering
import Logbook.Script.Parts

/-!
# The standard line

The standard formatter and the pipeline of five stages make the same line of a captured entry: its time written
afresh, then severity, name, location and message. Their caches count alike, one lookup for each line.
-/

namespace Logbook

variable {offset : Int}

/-! ### The line of an entry -/

/-- A text against the right edge of a column. -/
def rightAligned (width : Nat) (text : Bytes) : Bytes :=
  List.replicate (width - text.length) (ascii ' ') ++ text

theorem Severity.column_rank (s : Severity) : column s.rank = rightAligned 5 (utf8 s.word) := by
  unfold column token rightAligned
  rw [ofRank?_rank]
  rfl

/-- The line of an entry at a time, part by part. -/
def Entry.lineAt (e : Entry) (t : CivilTime) : Bytes :=
  t.timestamp.bytes ++ utf8 " [" ++ rightAligned 5 (utf8 e.severity.word) ++ utf8 "] " ++ e.name ++ utf8 " " ++
    Path.lastSegments 3 e.file ++ utf8 ":" ++ e.line ++ utf8 " " ++ e.message ++ utf8 "\n"

/-- The line of an entry on a clock, which may be unable to show its time. -/
def Entry.plainLine (e : Entry) (isLocal : Bool) (offset : Int) : Except Panic Bytes :=
  (e.time.decompose isLocal offset).map e.lineAt

/-- The stages that one after another make the standard line. -/
def Layout.fiveStages : Layout := .pipeline [.timestamp, .severity, .name, .location, .message]

/-- The layouts of the standard line. -/
def Layout.standard : List Layout := [.single .standard, .fiveStages]

namespace Layout

theorem isPlain_of_standard {l : Layout} (hl : l ∈ standard) : l.isPlain = true := by
  rcases List.mem_cons.mp hl with rfl | hl
  · rfl
  · cases List.mem_singleton.mp hl
    rfl

theorem plain_of_standard {l : Layout} (hl : l ∈ standard) (r : Record) :
    l.plain r = r.time.timestamp.bytes ++ Stage.standardTail r := by
  rcases List.mem_cons.mp hl with rfl | hl
  · exact List.append_nil _
  · cases List.mem_singleton.mp hl
    simp only [plain, fiveStages, stages, List.flatMap_cons, List.flatMap_nil, Stage.plain, Stage.standardTail,
      List.append_assoc, List.append_nil]

end Layout

namespace Formatter

/- The time is the only part that looks into the cache, and it stands first in both layouts. -/
theorem cache_format_standard {l : Layout} (hl : l ∈ Layout.standard) {c : SecondCache} (hc : c.Sound offset)
    {r : Record} (ht : r.time.IsShown offset) : (format ⟨l, c⟩ r).2.cache = (c.calendar r.time).2 := by
  have hstandard : ∀ again, (Stage.writeAll again [.standard] r c).2 = (c.calendar r.time).2 := by
    intro again
    rw [Stage.writeAll_cons_of_text (Stage.write_plain hc ht (s := .standard) rfl again).1]
    rfl
  have hstages : ∀ again, (Stage.writeAll again [.timestamp, .severity, .name, .location, .message] r c).2 =
      (c.calendar r.time).2 := by
    intro again
    rw [Stage.writeAll_cons_of_text (Stage.write_plain hc ht (s := .timestamp) rfl again).1]
    rfl
  rcases List.mem_cons.mp hl with rfl | hl
  · exact hstandard fun _ => inner ⟨.single .standard, c⟩ r
  · cases List.mem_singleton.mp hl
    exact hstages fun _ => inner ⟨.fiveStages, c⟩ r

end Formatter

/-! ### Formatting snapshots one after another -/

/-- A call of a formatter: a snapshot, captured from an entry with any factory in any store and still intact in
the store `now`, and the buffer to write to with what it holds. -/
structure FormatCall (offset : Int) where
  entry : Entry
  isLocal : Bool
  factory : FactoryId
  store : Store
  snapshot : Snapshot
  captured : Store
  capture_eq : Snapshot.capture entry isLocal (·.acquire factory) store offset = (.ok snapshot, captured)
  now : Store
  intact : now.bytes snapshot.buffer = captured.bytes snapshot.buffer
  target : Bytes

namespace FormatCall

open Script (Rendering renderOnto run run_cons)

def render (f : Formatter) (call : FormatCall offset) : Rendering × Formatter :=
  renderOnto f call.target (call.snapshot.record call.now)

/-- The renderings of calls that follow one another on one formatter. -/
def renderAll (f : Formatter) (calls : List (FormatCall offset)) : List Rendering := (run render f calls).1

/-- What a call is to leave behind, with the counters of a cache. -/
def expected (c : SecondCache) (call : FormatCall offset) : Rendering × SecondCache :=
  let next := (c.calendar call.snapshot.time).2
  (⟨call.target ++ call.entry.lineAt call.snapshot.time, next.hits, next.misses, none⟩, next)

theorem record_eq (call : FormatCall offset) :
    call.entry.record call.isLocal offset = .ok (call.snapshot.record call.now) := by
  have hsame : call.snapshot.record call.now = call.snapshot.record call.captured := by
    unfold Snapshot.record
    rw [call.intact]
  rw [hsame]
  rcases Snapshot.capture_cases call.entry call.isLocal offset call.factory call.store with
    ⟨s, store, heq, hrecord⟩ | ⟨p, store, heq, _⟩
  · rw [call.capture_eq] at heq
    cases heq
    exact hrecord
  · rw [call.capture_eq] at heq
    cases heq

theorem decompose_eq (call : FormatCall offset) :
    call.entry.time.decompose call.isLocal offset = .ok call.snapshot.time := by
  have hrecord := call.record_eq
  unfold Entry.record at hrecord
  cases htime : call.entry.time.decompose call.isLocal offset with
  | error p =>
    rw [htime] at hrecord
    cases hrecord
  | ok t =>
    rw [htime] at hrecord
    exact congrArg (fun r => Except.ok r.time) (Except.ok.inj hrecord)

/-- The line of the snapshot is the line of its entry. -/
theorem plain_eq (call : FormatCall offset) {l : Layout} (hl : l ∈ Layout.standard) :
    l.plain (call.snapshot.record call.now) = call.entry.lineAt call.snapshot.time := by
  have hrecord := call.record_eq
  unfold Entry.record at hrecord
  rw [call.decompose_eq] at hrecord
  have hfields := Except.ok.inj hrecord
  rw [Layout.plain_of_standard hl, ← hfields]
  simp only [Stage.standardTail, Stage.severityText, Stage.nameText, Stage.locationText, Stage.messageText,
    Stage.locationSegments, Entry.lineAt, Severity.column_rank, List.append_assoc]

/-- One call, on either layout: what is expected of it, and a cache that stays sound. -/
theorem render_eq (call : FormatCall offset) {l : Layout} (hl : l ∈ Layout.standard) {c : SecondCache}
    (hc : c.Sound offset) :
    call.render ⟨l, c⟩ = ((call.expected c).1, ⟨l, (call.expected c).2⟩) ∧
      (call.expected c).2.Sound offset := by
  have hshown : (call.snapshot.record call.now).time.IsShown offset := ⟨_, _, call.decompose_eq⟩
  have hwritten := (Formatter.format_plain (f := ⟨l, c⟩) (Layout.isPlain_of_standard hl) hc hshown).1
  have hnext : (Formatter.format ⟨l, c⟩ (call.snapshot.record call.now)).2 = ⟨l, (call.expected c).2⟩ :=
    congrArg (Formatter.mk l) (Formatter.cache_format_standard hl hc hshown)
  refine ⟨?_, (hc.calendar hshown).2⟩
  unfold render renderOnto
  dsimp only
  rw [hwritten, hnext, call.plain_eq hl]
  rfl

theorem renderAll_eq {l : Layout} (hl : l ∈ Layout.standard) {c : SecondCache} (hc : c.Sound offset)
    (calls : List (FormatCall offset)) : renderAll ⟨l, c⟩ calls = (run expected c calls).1 := by
  unfold renderAll
  induction calls generalizing c with
  | nil => rfl
  | cons call rest ih =>
    obtain ⟨hcall, hsound⟩ := call.render_eq hl hc
    rw [run_cons, run_cons, hcall]
    dsimp only
    rw [ih hsound]

/-- The answers to calls are the plain lines of their entries, each behind what its buffer held. None of them
panics, and after each the cache has been asked once more. -/
structure PlainLines (calls : List (FormatCall offset)) (answers : List Rendering) : Prop where
  lines : answers.map (fun a => Except.ok a.out) =
    calls.map fun call => (call.entry.plainLine call.isLocal offset).map (call.target ++ ·)
  stops : answers.map (·.stop) = calls.map fun _ => none
  lookups : answers.map (fun a => a.hits + a.misses) = List.range' 1 calls.length

theorem lines_expected (c : SecondCache) (calls : List (FormatCall offset)) :
    (run expected c calls).1.map (fun a => Except.ok a.out) =
      calls.map fun call => (call.entry.plainLine call.isLocal offset).map (call.target ++ ·) := by
  induction calls generalizing c with
  | nil => rfl
  | cons call rest ih =>
    rw [run_cons, List.map_cons, List.map_cons, ih]
    unfold Entry.plainLine
    rw [call.decompose_eq]
    rfl

theorem stops_expected (c : SecondCache) (calls : List (FormatCall offset)) :
    (run expected c calls).1.map (·.stop) = calls.map fun _ => none := by
  induction calls generalizing c with
  | nil => rfl
  | cons call rest ih =>
    rw [run_cons, List.map_cons, List.map_cons, ih]
    rfl

theorem lookups_expected (c : SecondCache) (calls : List (FormatCall offset)) :
    (run expected c calls).1.map (fun a => a.hits + a.misses) =
      List.range' (c.hits + c.misses + 1) calls.length := by
  induction calls generalizing c with
  | nil => rfl
  | cons call rest ih =>
    have hcount : (call.expected c).1.hits + (call.expected c).1.misses = c.hits + c.misses + 1 :=
      c.calls_calendar call.snapshot.time
    have hnext : (call.expected c).2.hits + (call.expected c).2.misses = c.hits + c.misses + 1 := hcount
    rw [run_cons, List.map_cons, ih, hcount, hnext, List.length_cons, List.range'_succ]

/-- Every entry that the clock can show makes such a call, whatever the factory and the store. -/
theorem exists_of_decompose {e : Entry} {isLocal : Bool} {t : CivilTime}
    (h : e.time.decompose isLocal offset = .ok t) (f : FactoryId) (store : Store) (target : Bytes) :
    ∃ call : FormatCall offset, call.entry = e ∧ call.isLocal = isLocal ∧ call.factory = f ∧
      call.store = store ∧ call.target = target := by
  rcases Snapshot.capture_cases e isLocal offset f store with ⟨s, store', heq, _⟩ | ⟨p, _, _, hrecord⟩
  · exact ⟨⟨e, isLocal, f, store, s, store', heq, store', rfl, target⟩, rfl, rfl, rfl, rfl, rfl⟩
  · unfold Entry.record at hrecord
    rw [h] at hrecord
    cases hrecord

/-- Snapshots formatted one after another, by the standard formatter or by the pipeline of five stages: the
answers are the same, with the same counts of the cache, and they are the plain lines of the entries. -/
theorem renderAll_plainLines (calls : List (FormatCall offset)) :
    renderAll (.ofLayout .fiveStages) calls = renderAll .standard calls ∧
      PlainLines calls (renderAll .standard calls) := by
  have hstages : renderAll (.ofLayout .fiveStages) calls = (run expected .empty calls).1 :=
    renderAll_eq (List.mem_cons_of_mem _ (List.mem_singleton_self _)) (SecondCache.sound_empty offset) calls
  have hstandard : renderAll .standard calls = (run expected .empty calls).1 :=
    renderAll_eq List.mem_cons_self (SecondCache.sound_empty offset) calls
  rw [hstages, hstandard]
  exact ⟨rfl, lines_expected .empty calls, stops_expected .empty calls, lookups_expected .empty calls⟩

end FormatCall

end Logbook
