import Logbook.Outlets
import Logbook.Proofs.Tables
import Mathlib.Order.Monotone.Basic

/-!
# Files grow by whole writes

What a file sink passes on to its file are the writes it was given, whole and in order. Some of the last of them may
wait in its buffer; a flush, closing the sink and its end leave none there.
-/

namespace Logbook

/-! ### Paths that lead to a file -/

namespace Disk

variable {d d' : Disk} {path : String}

/-- The directories of one disk are directories of another. -/
def Spans (d d' : Disk) : Prop := ∀ p, d.isDirectory p = true → d'.isDirectory p = true

theorem spans_of_eq (h : d'.directories = d.directories) : Spans d d' := by
  intro p hp
  unfold isDirectory at hp ⊢
  rw [h]
  exact hp

theorem Spans.trans {d'' : Disk} (h : Spans d d') (h' : Spans d' d'') : Spans d d'' := fun p hp => h' p (h p hp)

theorem Spans.enter (h : Spans d d') {p q : Place} {segment : String} (hq : d.enter p segment = .ok q) :
    d'.enter p segment = .ok q := by
  unfold Disk.enter at hq ⊢
  split
  · rename_i hblank
    rwa [if_pos hblank] at hq
  · rename_i hblank
    rw [if_neg hblank] at hq
    split
    · rename_i hup
      rwa [if_pos hup] at hq
    · rename_i hup
      rw [if_neg hup] at hq
      split
      · rename_i hlong
        rw [if_pos hlong] at hq
        cases hq
      · rename_i hlong
        rw [if_neg hlong] at hq
        by_cases hdir : d.isDirectory (p ++ [segment]) = true
        · rw [if_pos hdir] at hq
          rw [if_pos (h _ hdir)]
          exact hq
        · rw [if_neg hdir] at hq
          split at hq <;> cases hq

theorem Spans.walk (h : Spans d d') {segments : List String} {p q : Place}
    (hq : segments.foldlM d.enter p = .ok q) : segments.foldlM d'.enter p = .ok q := by
  induction segments generalizing p with
  | nil => exact hq
  | cons segment rest ih =>
    rw [List.foldlM_cons] at hq ⊢
    cases hstep : d.enter p segment with
    | error e =>
      rw [hstep] at hq
      cases hq
    | ok next =>
      rw [hstep] at hq
      rw [h.enter hstep]
      exact ih hq

/-- A path that leads somewhere leads there whatever directories are added. -/
theorem Spans.placeOf (h : Spans d d') {p : Place} (hp : d.placeOf path = .ok p) : d'.placeOf path = .ok p := by
  unfold Disk.placeOf at hp ⊢
  split
  · rename_i hunusable
    rw [if_pos hunusable] at hp
    cases hp
  · rename_i hunusable
    rw [if_neg hunusable] at hp
    cases hsegments : (path.splitOn "/").reverse with
    | nil =>
      rw [hsegments] at hp
      cases hp
    | cons last before =>
      rw [hsegments] at hp
      dsimp only at hp ⊢
      cases hwalk : before.reverse.foldlM d.enter (startOf path) with
      | error e =>
        rw [hwalk] at hp
        cases hp
      | ok q =>
        rw [hwalk] at hp
        rw [h.walk hwalk]
        exact hp

theorem spans_addDirectory (d : Disk) (p : Place) : Spans d (d.addDirectory p) := by
  intro q hq
  unfold isDirectory addDirectory NameMap.contains at *
  dsimp only
  rw [NameMap.find?_insert]
  split
  · simp
  · exact hq

theorem spans_descend (d : Disk) (p : Place) (segments : List String) :
    Spans d (d.descend p segments).2 ∧ (d.descend p segments).2.files = d.files := by
  induction segments generalizing d p with
  | nil => exact ⟨fun _ h => h, rfl⟩
  | cons segment rest ih =>
    unfold descend
    split
    · exact ih d _
    · obtain ⟨hspans, hfiles⟩ := ih (d.addDirectory (p ++ [segment])) (p ++ [segment])
      exact ⟨(d.spans_addDirectory _).trans hspans, hfiles⟩
    · exact ⟨fun _ h => h, rfl⟩

theorem spans_makeDirectories (d : Disk) (path : String) :
    Spans d (d.makeDirectories path).2 ∧ (d.makeDirectories path).2.files = d.files := by
  unfold makeDirectories
  split
  · exact ⟨fun _ h => h, rfl⟩
  · exact d.spans_descend _ _

/-- A path leads to a file with these contents. -/
structure Shows (d : Disk) (path key : String) (contents : Bytes) : Prop where
  place : ∃ p, d.placeOf path = .ok p ∧ p.key = key
  file : ∃ tape, d.files.find? key = some tape ∧ tape.bytes = contents

variable {key : String} {contents : Bytes}

theorem Shows.read? (h : d.Shows path key contents) : d.read? path = some contents := by
  obtain ⟨⟨p, hplace, rfl⟩, tape, hfile, rfl⟩ := h
  unfold Disk.read?
  rw [hplace]
  dsimp only
  rw [hfile]
  rfl

theorem shows_of_read? (h : d.read? path = some contents) : ∃ key, d.Shows path key contents := by
  unfold Disk.read? at h
  cases hplace : d.placeOf path with
  | error e =>
    rw [hplace] at h
    cases h
  | ok p =>
    rw [hplace] at h
    obtain ⟨tape, hfile, hbytes⟩ := Option.map_eq_some_iff.mp h
    exact ⟨p.key, ⟨p, hplace, rfl⟩, tape, hfile, hbytes⟩

theorem Shows.append (h : d.Shows path key contents) (bs : Bytes) :
    (d.append (.file key) bs).Shows path key (contents ++ bs) := by
  obtain ⟨⟨p, hplace, rfl⟩, tape, hfile, rfl⟩ := h
  have hspans : Spans d (d.append (.file p.key) bs) := spans_of_eq rfl
  refine ⟨⟨p, hspans.placeOf hplace, rfl⟩, tape.push bs, ?_, tape.bytes_push bs⟩
  unfold Disk.append
  dsimp only
  rw [NameMap.find?_insert, if_pos rfl, hfile]
  rfl

/-- Opening a file leaves what is in it. -/
theorem Shows.openAppend {d₁ : Disk} {target : FileTarget} (h : d.Shows path key contents)
    (hopen : d.openAppend path = some (target, d₁)) : d₁ = d := by
  obtain ⟨⟨p, hplace, rfl⟩, tape, hfile, -⟩ := h
  have hexists : d.isFile p = true := by simp [isFile, NameMap.contains, hfile]
  unfold Disk.openAppend at hopen
  rw [hplace] at hopen
  dsimp only at hopen
  rw [if_pos hexists] at hopen
  split at hopen
  · cases hopen
  · split at hopen
    · cases hopen
      rfl
    · cases hopen
      rfl

theorem shows_openAppend {d₁ : Disk} (hopen : d.openAppend path = some (.file key, d₁)) :
    ∃ contents, d₁.Shows path key contents := by
  unfold Disk.openAppend at hopen
  cases hplace : d.placeOf path with
  | error e =>
    rw [hplace] at hopen
    cases hopen
  | ok p =>
    rw [hplace] at hopen
    dsimp only at hopen
    split at hopen
    · cases hopen
    · split at hopen
      · cases hopen
      · rename_i hdevice
        split at hopen
        · rename_i hfile
          cases hopen
          have hcontains : d.files.contains p.key = true := by simpa [isFile, hdevice] using hfile
          obtain ⟨tape, htape⟩ := Option.isSome_iff_exists.mp hcontains
          exact ⟨tape.bytes, ⟨p, hplace, rfl⟩, tape, htape, rfl⟩
        · cases hopen
          have hspans : Spans d { d with files := d.files.insert p.key .empty } := spans_of_eq rfl
          refine ⟨[], ⟨p, hspans.placeOf hplace, rfl⟩, .empty, ?_, rfl⟩
          dsimp only
          rw [NameMap.find?_insert, if_pos rfl]

/-- Directories may be made before a log file is opened, but no file is touched by that. -/
theorem openAppend_of_openLog {d₁ : Disk} {target : FileTarget} (hopen : d.openLog path = (.ok target, d₁)) :
    ∃ d₀, Spans d d₀ ∧ d₀.files = d.files ∧ d₀.openAppend path = some (target, d₁) := by
  unfold Disk.openLog at hopen
  dsimp only at hopen
  split at hopen
  · split at hopen
    · cases hopen
      exact ⟨d, fun _ h => h, rfl, ‹_›⟩
    · cases hopen
  · split at hopen
    · cases hopen
      exact ⟨d, fun _ h => h, rfl, ‹_›⟩
    · cases hopen
  · rename_i directory _ _
    obtain ⟨hspans, hfiles⟩ := d.spans_makeDirectories directory
    split at hopen
    · rename_i d₀ hmade
      rw [hmade] at hspans hfiles
      split at hopen
      · cases hopen
        exact ⟨d₀, hspans, hfiles, ‹_›⟩
      · cases hopen
    · cases hopen

/-- A log file that could be opened is there, and what was in it before is still in it. -/
theorem shows_openLog {d₁ : Disk} (hopen : d.openLog path = (.ok (.file key), d₁)) :
    ∃ contents, d₁.Shows path key contents ∧ ∀ old, d.read? path = some old → old = contents := by
  obtain ⟨d₀, hspans, hfiles, hopened⟩ := openAppend_of_openLog hopen
  obtain ⟨contents, hshows⟩ := shows_openAppend hopened
  refine ⟨contents, hshows, fun old hold => ?_⟩
  obtain ⟨_, ⟨p, hplace, rfl⟩, tape, hfile, hbytes⟩ := shows_of_read? hold
  rw [← hfiles] at hfile
  have hbefore : d₀.Shows path p.key old := ⟨⟨p, hspans.placeOf hplace, rfl⟩, tape, hfile, hbytes⟩
  have hread := hshows.read?
  rw [hbefore.openAppend hopened, hbefore.read?] at hread
  exact Option.some.inj hread

end Disk

/-! ### Writers -/

/-- A call of a file sink that is open. Writes may come from a worker. -/
inductive FileCall where
  | write (onWorker : Bool) (bs : Bytes)
  | flush

namespace FileCall

/-- The octets that a call adds, as a list of writes. -/
def lines : FileCall → List Bytes
  | write _ bs => [bs]
  | flush => []

/-- What a call does to the writer of a file on a device with space. -/
def transfer (w : FileWriter) : FileCall → Transfer
  | write _ bs => w.write false bs
  | flush => w.flush false

/-- What a call passes on to the file, one portion after another: a write for which there is no room empties the
buffer first. -/
def portions (w : FileWriter) : FileCall → List Bytes
  | write _ bs =>
    if w.spare < bs.length then [(w.flush false).emitted, ((w.flush false).writer.accept false bs).emitted]
    else [(w.write false bs).emitted]
  | flush => [(w.flush false).emitted]

end FileCall

namespace FileWriter

variable {w : FileWriter} {waiting : List Bytes}

/-- The octets that wait are those of whole writes, and they fit into the buffer. -/
structure Waits (w : FileWriter) (waiting : List Bytes) : Prop where
  bytes : w.pending.bytes = waiting.flatten
  room : w.pending.length ≤ w.capacity

/-- A step of a writer passes on whole writes, of those that wait and those that it adds, in groups and in order. -/
structure Passes (waiting added : List Bytes) (portions : List Bytes) (t : Transfer) (left : List Bytes) : Prop where
  waits : t.writer.Waits left
  emitted : t.emitted = portions.flatten
  failure : t.failure = none
  groups : ∃ groups : List (List Bytes), portions = groups.map List.flatten ∧ groups.flatten ++ left = waiting ++ added

/-- Nothing is lost: what waits behind a step is what the step has not passed on. -/
theorem Passes.flatten_eq {added portions left : List Bytes} {t : Transfer} (h : Passes waiting added portions t left) :
    t.emitted ++ left.flatten = waiting.flatten ++ added.flatten := by
  obtain ⟨groups, hgroups, horder⟩ := h.groups
  rw [h.emitted, hgroups, ← List.flatten_flatten, ← List.flatten_append, horder, List.flatten_append]

theorem waits_ofCapacity {capacity : Nat} (h : ofCapacity capacity = .ok w) : w.Waits [] := by
  unfold ofCapacity at h
  split at h
  · cases h
  · cases h
    exact ⟨rfl, Nat.zero_le _⟩

theorem Waits.flush (h : w.Waits waiting) : Passes waiting [] [(w.flush false).emitted] (w.flush false) [] := by
  unfold FileWriter.flush
  split
  · -- nothing waits but empty writes
    rename_i hempty
    have hnone : w.pending.bytes = [] := by
      rw [← List.length_eq_zero_iff, Tape.length_bytes]
      exact beq_iff_eq.mp hempty
    refine ⟨⟨hnone, h.room⟩, rfl, rfl, [waiting], ?_, by simp⟩
    rw [← hnone, h.bytes]
    rfl
  · refine ⟨⟨rfl, Nat.zero_le _⟩, by simp, rfl, [waiting], ?_, by simp⟩
    simp [h.bytes]

theorem Waits.emitted_flush (h : w.Waits waiting) : (w.flush false).emitted = waiting.flatten := by
  simpa using h.flush.flatten_eq

theorem Waits.push (h : w.Waits waiting) {bs : Bytes} (hroom : bs.length ≤ w.spare) :
    Waits { w with pending := w.pending.push bs } (waiting ++ [bs]) where
  bytes := by simp [h.bytes]
  room := by
    have hfits : w.pending.length ≤ w.capacity := h.room
    have hlength : (w.pending.push bs).length = w.pending.length + bs.length := rfl
    unfold spare at hroom
    dsimp only
    omega

/-- A write that fits into the room left, or that finds the buffer empty. -/
theorem Waits.accept (h : w.Waits waiting) (bs : Bytes) (hroom : bs.length ≤ w.spare ∨ w.pending.bytes = []) :
    ∃ left, Passes waiting [bs] [(w.accept false bs).emitted] (w.accept false bs) left := by
  have hlength := w.pending.length_bytes
  have hfits := h.room
  unfold FileWriter.accept
  split
  · rename_i hsmall
    have hspare : bs.length ≤ w.spare := by
      rcases hroom with hroom | hempty
      · exact hroom
      · rw [hempty] at hlength
        unfold spare
        rw [← hlength]
        exact Nat.le_of_lt hsmall
    exact ⟨waiting ++ [bs], h.push hspare, rfl, rfl, [[]], by simp, by simp⟩
  · rename_i hlarge
    -- a write as large as the buffer is passed on only when nothing stands before it
    have hempty : w.pending.bytes = [] := by
      rcases hroom with hroom | hempty
      · rw [← List.length_eq_zero_iff]
        unfold spare at hroom
        omega
      · exact hempty
    refine ⟨[], ⟨⟨hempty, hfits⟩, by simp, rfl, [waiting ++ [bs]], ?_, by simp⟩⟩
    simp [← h.bytes, hempty]

/-- One step after another. -/
theorem Passes.append {added added' portions portions' left left' : List Bytes} {t t' : Transfer}
    (h : Passes waiting added portions t left) (h' : Passes left added' portions' t' left') :
    Passes waiting (added ++ added') (portions ++ portions') { t' with emitted := t.emitted ++ t'.emitted } left' where
  waits := h'.waits
  emitted := by rw [List.flatten_append, ← h.emitted, ← h'.emitted]
  failure := h'.failure
  groups := by
    obtain ⟨first, hfirst, horder⟩ := h.groups
    obtain ⟨second, hsecond, horder'⟩ := h'.groups
    refine ⟨first ++ second, by rw [List.map_append, ← hfirst, ← hsecond], ?_⟩
    rw [List.flatten_append, List.append_assoc, horder', ← List.append_assoc, horder, List.append_assoc]

theorem Waits.write (h : w.Waits waiting) (onWorker : Bool) (bs : Bytes) :
    ∃ left, Passes waiting [bs] (FileCall.portions w (.write onWorker bs)) (w.write false bs) left := by
  unfold FileCall.portions FileWriter.write
  dsimp only
  by_cases htight : w.spare < bs.length
  · have hflush := h.flush
    obtain ⟨left, haccept⟩ := hflush.waits.accept bs (.inr hflush.waits.bytes)
    rw [if_pos htight, if_neg (Nat.lt_asymm htight), if_pos htight, hflush.failure]
    exact ⟨left, hflush.append haccept⟩
  · have hroom : bs.length ≤ w.spare := Nat.le_of_not_lt htight
    rw [if_neg htight, if_neg htight]
    split
    · exact ⟨waiting ++ [bs], h.push hroom, rfl, rfl, [[]], by simp, by simp⟩
    · exact h.accept bs (.inl hroom)

end FileWriter

namespace FileCall

open FileWriter (Waits Passes)

/-- What calls do to the writer of a file, one after another. -/
def transferAll (w : FileWriter) : List FileCall → Transfer
  | [] => ⟨w, [], none⟩
  | c :: rest =>
    let later := transferAll (c.transfer w).writer rest
    { later with emitted := (c.transfer w).emitted ++ later.emitted }

/-- What calls pass on to the file, one portion after another. -/
def passed (w : FileWriter) : List FileCall → List Bytes
  | [] => []
  | c :: rest => c.portions w ++ passed (c.transfer w).writer rest

/-- The writes among calls, in order. -/
def linesOf (calls : List FileCall) : List Bytes := calls.flatMap lines

variable {w : FileWriter} {waiting : List Bytes}

theorem passes_transfer (h : w.Waits waiting) (c : FileCall) :
    ∃ left, Passes waiting c.lines (c.portions w) (c.transfer w) left := by
  cases c with
  | write onWorker bs => exact h.write onWorker bs
  | flush => exact ⟨[], h.flush⟩

theorem passes_transferAll (h : w.Waits waiting) (calls : List FileCall) :
    ∃ left, Passes waiting (linesOf calls) (passed w calls) (transferAll w calls) left := by
  induction calls generalizing w waiting with
  | nil => exact ⟨waiting, h, rfl, rfl, [], rfl, by simp [linesOf]⟩
  | cons c rest ih =>
    obtain ⟨left, hfirst⟩ := passes_transfer h c
    obtain ⟨left', hrest⟩ := ih hfirst.waits
    exact ⟨left', hfirst.append hrest⟩

theorem passed_append (w : FileWriter) (calls more : List FileCall) :
    passed w (calls ++ more) = passed w calls ++ passed (transferAll w calls).writer more := by
  induction calls generalizing w with
  | nil => rfl
  | cons c rest ih =>
    rw [List.cons_append, passed, passed, ih, List.append_assoc]
    rfl

/-- Groups of writes in order, counted. -/
theorem exists_counts {groups : List (List Bytes)} {lines : List Bytes} (h : groups.flatten <+: lines) :
    ∃ k : Nat → Nat, Monotone k ∧
      ∀ n, ((groups.map List.flatten).take n).flatten = (lines.take (k n)).flatten := by
  have hgrows : ∀ {m n}, m ≤ n → (groups.take m).flatten <+: (groups.take n).flatten := by
    intro m n hle
    obtain ⟨rest, hrest⟩ : groups.take m <+: groups.take n := List.take_prefix_take_left hle
    exact ⟨rest.flatten, by rw [← List.flatten_append, hrest]⟩
  refine ⟨fun n => (groups.take n).flatten.length, fun m n hle => (hgrows hle).length_le, fun n => ?_⟩
  have hlines : (groups.take n).flatten <+: lines := by
    obtain ⟨rest, hrest⟩ := List.take_prefix n groups
    exact List.IsPrefix.trans ⟨rest.flatten, by rw [← List.flatten_append, hrest]⟩ h
  rw [← List.prefix_iff_eq_take.mp hlines, List.flatten_flatten, List.map_take]

/-- Make a call. -/
def perform (id : SinkId) (o : Outlets) : FileCall → Option Outcome × Outlets
  | write onWorker bs => o.write onWorker id bs
  | flush => let (outcome, o) := o.flush id; (some outcome, o)

/-- The outlets after calls in order. -/
def performAll (id : SinkId) (o : Outlets) (calls : List FileCall) : Outlets :=
  calls.foldl (fun o c => (c.perform id o).2) o

end FileCall

/-! ### Sinks -/

namespace Outlets

variable {o : Outlets} {id : SinkId} {path key : String} {w : FileWriter} {contents : Bytes}

/-- The sink `id` writes to the file at `path`, through the writer `w` if it is open. -/
structure Feeds (o : Outlets) (id : SinkId) (path key : String) (w : Option FileWriter) (contents : Bytes) : Prop where
  sink : ∃ name gate formatter, o.sinks.get? id = some ⟨name, gate, formatter, .file ⟨path, .file key, w⟩⟩
  disk : o.disk.Shows path key contents

theorem get?_setDestination {sink : Sink} (h : o.sinks.get? id = some sink) (d : Destination) :
    (o.setDestination id d).sinks.get? id = some { sink with destination := d } := by
  unfold setDestination
  dsimp only
  rw [Table.get?_modify, if_pos rfl, h]
  rfl

/-- Putting a destination in its own place changes nothing. -/
theorem setDestination_self {sink : Sink} (h : o.sinks.get? id = some sink) :
    o.setDestination id sink.destination = o := by
  unfold setDestination
  rw [Table.modify_eq_set h, Table.set_of_get? h]

theorem perform_eq {name : String} {gate : Gate} {formatter : FormatterId} (c : FileCall)
    (hsink : o.sinks.get? id = some ⟨name, gate, formatter, .file ⟨path, .file key, some w⟩⟩)
    (hwell : (c.transfer w).failure = none) :
    c.perform id o =
      (some .done,
        { o.setDestination id (.file ⟨path, .file key, some (c.transfer w).writer⟩) with
          disk := o.disk.append (.file key) (c.transfer w).emitted }) := by
  cases c with
  | write onWorker bs =>
    have hwell : (w.write false bs).failure = none := hwell
    simp [FileCall.perform, FileCall.transfer, write, hsink, FileSink.write, FileSink.transfer, FileSink.outcome, hwell]
  | flush =>
    have hwell : (w.flush false).failure = none := hwell
    simp [FileCall.perform, FileCall.transfer, flush, hsink, FileSink.flush, FileSink.transfer, FileSink.outcome, hwell]

/-- A transfer that goes well reaches the file. -/
theorem Feeds.perform (h : o.Feeds id path key (some w) contents) (c : FileCall)
    (hwell : (c.transfer w).failure = none) :
    (c.perform id o).1 = some .done ∧
      (c.perform id o).2.Feeds id path key (some (c.transfer w).writer) (contents ++ (c.transfer w).emitted) := by
  obtain ⟨⟨name, gate, formatter, hsink⟩, hdisk⟩ := h
  rw [perform_eq c hsink hwell]
  exact ⟨rfl, ⟨name, gate, formatter, get?_setDestination hsink _⟩, hdisk.append _⟩

theorem Feeds.performAll {waiting : List Bytes} (h : o.Feeds id path key (some w) contents) (hwaits : w.Waits waiting)
    (calls : List FileCall) :
    (FileCall.performAll id o calls).Feeds id path key (some (FileCall.transferAll w calls).writer)
      (contents ++ (FileCall.transferAll w calls).emitted) := by
  induction calls generalizing o w contents waiting with
  | nil =>
    rw [FileCall.transferAll, List.append_nil]
    exact h
  | cons c rest ih =>
    obtain ⟨left, hfirst⟩ := FileCall.passes_transfer hwaits c
    have hrest := ih (h.perform c hfirst.failure).2 hfirst.waits
    rw [List.append_assoc] at hrest
    exact hrest

/-- Closing a sink passes on what waits, and so does its end. -/
theorem Feeds.close {waiting : List Bytes} (h : o.Feeds id path key (some w) contents) (hwaits : w.Waits waiting) :
    ∃ closed, o.closeFile id = (.done, closed) ∧ closed.Feeds id path key none (contents ++ waiting.flatten) ∧
      o.finalize id = closed ∧ closed.err = o.err := by
  obtain ⟨⟨name, gate, formatter, hsink⟩, hdisk⟩ := h
  have hflush := hwaits.flush
  have hclose : o.closeFile id =
      (.done,
        { o.setDestination id (.file ⟨path, .file key, none⟩) with
          disk := o.disk.append (.file key) (w.flush false).emitted }) := by
    simp [closeFile, hsink, FileSink.close, FileSink.flush, FileSink.transfer, FileSink.outcome, hflush.failure]
  refine ⟨_, hclose, ⟨⟨name, gate, formatter, get?_setDestination hsink _⟩, ?_⟩, ?_, rfl⟩
  · rw [← hwaits.emitted_flush]
    exact hdisk.append _
  · simp [finalize, hsink, hclose]

/-- A closed sink refuses writes and has nothing to pass on. -/
theorem Feeds.closed (h : o.Feeds id path key none contents) :
    (∀ onWorker bs, o.write onWorker id bs = (some (.failed (.stopped path)), o)) ∧
      o.flush id = (.done, o) ∧ o.closeFile id = (.done, o) := by
  obtain ⟨⟨name, gate, formatter, hsink⟩, -⟩ := h
  have hself := setDestination_self hsink
  dsimp only at hself
  refine ⟨fun onWorker bs => ?_, ?_, ?_⟩
  · simp [write, hsink, FileSink.write, FileSink.transfer, hself]
  · simp [flush, hsink, FileSink.flush, FileSink.transfer, hself]
  · simp [closeFile, hsink, FileSink.close, FileSink.flush, FileSink.transfer, hself]

end Outlets

/-- A log file that is opened, written to, flushed and closed through one sink. Its contents are what was in it before,
`initial`, and behind that the first of the writes, whole and in order, at every moment between two portions that are
passed on to it. Nothing but the number of those writes depends on the room of the buffer, and a flush, closing the sink
or its end leave none behind. A closed sink refuses writes under its path, and then nothing changes any more. -/
theorem whole_writes (o : Outlets) {path key : String} {disk : Disk}
    (hopen : o.disk.openLog path = (.ok (.file key), disk)) :
    ∃ initial, disk.read? path = some initial ∧ (∀ old, o.disk.read? path = some old → old = initial) ∧
      ∀ (capacity : Nat) (w : FileWriter), FileWriter.ofCapacity capacity = .ok w → ∀ name : String,
        let opened := { o with disk := disk }.addSink name (.file ⟨path, .file key, some w⟩)
        let id := opened.1
        ∀ calls : List FileCall,
          let lines := FileCall.linesOf calls
          let passed := FileCall.passed w calls
          let after := FileCall.performAll id opened.2 calls
          (after.disk.read? path = some (initial ++ passed.flatten) ∧
            (∃ k : Nat → Nat, Monotone k ∧ ∀ n, (passed.take n).flatten = (lines.take (k n)).flatten) ∧
            (∀ more, passed <+: FileCall.passed w (calls ++ more)) ∧
            ∀ c : FileCall, (c.perform id after).1 = some .done) ∧
          ((after.flush id).2.disk.read? path = some (initial ++ lines.flatten) ∧
            (after.finalize id).disk.read? path = some (initial ++ lines.flatten) ∧
            (after.finalize id).err = after.err) ∧
          ∃ closed, after.closeFile id = (.done, closed) ∧
            closed.disk.read? path = some (initial ++ lines.flatten) ∧
            (∀ onWorker bs, closed.write onWorker id bs = (some (.failed (.stopped path)), closed)) ∧
            closed.flush id = (.done, closed) ∧ closed.closeFile id = (.done, closed) := by
  obtain ⟨initial, hshows, hold⟩ := Disk.shows_openLog hopen
  refine ⟨initial, hshows.read?, hold, ?_⟩
  intro capacity w hroom name opened id calls lines passed after
  have hstart : opened.2.Feeds id path key (some w) initial :=
    ⟨⟨name, Outlets.startGate, _, Table.get?_push_next _ _⟩, hshows⟩
  have hempty := FileWriter.waits_ofCapacity hroom
  have hfeeds := hstart.performAll hempty calls
  obtain ⟨left, hpasses⟩ := FileCall.passes_transferAll hempty calls
  have hwhole : initial ++ (FileCall.transferAll w calls).emitted ++ left.flatten = initial ++ lines.flatten := by
    rw [List.append_assoc, hpasses.flatten_eq]
    rfl
  refine ⟨⟨?_, ?_, ?_, ?_⟩, ?_⟩
  · rw [hfeeds.disk.read?, hpasses.emitted]
  · obtain ⟨groups, hgroups, horder⟩ := hpasses.groups
    have hlines : groups.flatten <+: lines := ⟨left, horder⟩
    obtain ⟨k, hk, hcounts⟩ := FileCall.exists_counts hlines
    rw [← hgroups] at hcounts
    exact ⟨k, hk, hcounts⟩
  · intro more
    rw [FileCall.passed_append]
    exact List.prefix_append _ _
  · intro c
    obtain ⟨_, hnext⟩ := FileCall.passes_transfer hpasses.waits c
    exact (hfeeds.perform c hnext.failure).1
  · obtain ⟨closed, hclose, hclosed, hend, herr⟩ := hfeeds.close hpasses.waits
    have hflushed := (hfeeds.perform .flush hpasses.waits.flush.failure).2
    rw [FileCall.transfer, hpasses.waits.emitted_flush, hwhole] at hflushed
    rw [hwhole] at hclosed
    refine ⟨⟨hflushed.disk.read?, ?_, ?_⟩, closed, hclose, hclosed.disk.read?, hclosed.closed⟩
    · rw [hend]
      exact hclosed.disk.read?
    · rw [hend]
      exact herr

/-- A disk with one file, in a directory, that holds one octet. -/
def oneOctet : Disk := Disk.empty.put "a/b" [120]

/- The functions on texts do not reduce by themselves, so their equations are used one by one. -/
theorem splitOn_nested : "a/b".splitOn "/" = ["a", "b"] := by
  unfold String.splitOn
  rw [if_neg (by decide)]
  rw [String.splitOnAux, if_neg (by decide), if_neg (by decide)]
  rw [String.splitOnAux, if_neg (by decide), if_pos (by decide), if_pos (by decide)]
  rw [String.splitOnAux, if_neg (by decide), if_neg (by decide)]
  rw [String.splitOnAux, if_pos (by decide)]
  decide +kernel

theorem splitOn_single : "a".splitOn "/" = ["a"] := by
  unfold String.splitOn
  rw [if_neg (by decide)]
  rw [String.splitOnAux, if_neg (by decide), if_neg (by decide)]
  rw [String.splitOnAux, if_pos (by decide)]
  decide +kernel

theorem Disk.parent?_nested : parent? "a/b" = some "a" := by
  unfold parent?
  rw [splitOn_nested]
  decide +kernel

theorem Disk.openLog_nested {d d' : Disk} (hmade : d.makeDirectories "a" = (true, d')) {target : FileTarget}
    (hopened : (d'.openAppend "a/b").map (·.1) = some target) : (d.openLog "a/b").1 = .ok target := by
  obtain ⟨⟨_, d''⟩, happend, rfl⟩ := Option.map_eq_some_iff.mp hopened
  unfold openLog
  rw [parent?_nested]
  split
  · next hparent => cases hparent
  · next hparent => exact absurd (Option.some.inj hparent) (by decide)
  · next hparent =>
    cases hparent
    rw [hmade]
    dsimp only
    rw [happend]

theorem openLog_oneOctet : (oneOctet.openLog "a/b").1 = .ok (.file "a/b") := by
  have hmade : oneOctet.makeDirectories "a" = (true, oneOctet) := by
    unfold oneOctet Disk.put Disk.openAppend Disk.placeOf Disk.makeDirectories
    simp only [splitOn_nested, Disk.parent?_nested, Option.getD, splitOn_single]
    rfl
  have hopened : (oneOctet.openAppend "a/b").map (·.1) = some (.file "a/b") := by
    unfold oneOctet Disk.put Disk.openAppend Disk.placeOf Disk.makeDirectories
    simp only [splitOn_nested, Disk.parent?_nested, Option.getD, splitOn_single]
    decide +kernel
  exact Disk.openLog_nested hmade hopened

theorem read?_oneOctet : oneOctet.read? "a/b" = some [120] := by
  unfold oneOctet Disk.read? Disk.put Disk.openAppend Disk.placeOf Disk.makeDirectories
  simp only [splitOn_nested, Disk.parent?_nested, Option.getD, splitOn_single]
  decide +kernel

/-- A buffer with room for two octets, and writes that fit, that do not, and that are empty. -/
theorem whole_writes_narrow :
    let calls := [.write false [97], .write true [98, 99, 100], .write false [], .write false [101], .flush,
      .write false [102]]
    ∃ disk, oneOctet.openLog "a/b" = (.ok (.file "a/b"), disk) ∧
      let opened := { Outlets.empty with disk := disk }.addSink "file"
        (.file ⟨"a/b", .file "a/b", some ⟨2, .empty⟩⟩)
      let after := FileCall.performAll opened.1 opened.2 calls
      after.disk.read? "a/b" = some [120, 97, 98, 99, 100, 101] ∧
        ∃ closed, after.closeFile opened.1 = (.done, closed) ∧
          closed.disk.read? "a/b" = some [120, 97, 98, 99, 100, 101, 102] ∧
          closed.write false opened.1 [103] = (some (.failed (.stopped "a/b")), closed) := by
  intro calls
  rcases hopened : oneOctet.openLog "a/b" with ⟨target, disk⟩
  have htarget := openLog_oneOctet
  rw [hopened] at htarget
  cases htarget
  obtain ⟨initial, -, hold, hcalls⟩ := whole_writes { Outlets.empty with disk := oneOctet } hopened
  cases hold _ read?_oneOctet
  obtain ⟨⟨hafter, -⟩, -, closed, hclose, hclosed, hrefused, -⟩ := hcalls 2 ⟨2, .empty⟩ rfl "file" calls
  exact ⟨disk, rfl, hafter, closed, hclose, hclosed, hrefused false [103]⟩

end Logbook
