import Logbook.Proofs.Capture
import Logbook.Proofs.Receipts
import Logbook.Proofs.Runs

/-!
# Delivery to memory sinks

What a memory sink holds after a run of operations is determined by the history of the run: the plain lines of
the entries that were logged while the sink was attached and both gates let them pass, in order, since the sink
was last cleared.
-/

namespace Logbook.World

/-! ### What a history says -/

/-- The value that the latest operation has set, where `sets` says what an operation sets. Histories have the
latest operation in front. -/
def latest {α : Type} (sets : LogOp → Option α) (start : α) : List LogOp → α
  | [] => start
  | op :: past => (sets op).getD (latest sets start past)

/- What operations set: the level of a logger, whether a sink is attached to it, and the level and the formatter
of a sink. -/

def levelOf (logger : LoggerId) : LogOp → Option Severity
  | .setLevel key level => if key = logger then some level else none
  | _ => none

def attachmentOf (logger : LoggerId) (sink : SinkRef) : LogOp → Option Bool
  | .addSink key other => if key = logger ∧ other = sink then some true else none
  | .removeSink key other => if key = logger ∧ other = sink then some false else none
  | _ => none

def sinkLevelOf (sink : SinkRef) : LogOp → Option Severity
  | .setSinkLevel key level => if key = sink then some level else none
  | _ => none

def formatterOf (sink : SinkRef) : LogOp → Option FormatterId
  | .setSinkFormatter key f => if key = sink then some f else none
  | _ => none

/-- What a sink gets of an entry that is logged after a history: nothing unless it is attached, both gates let the
entry pass and the logger's clock can show its time; else the line that its formatter makes, written afresh. -/
def lineFor (start : World) (past : List LogOp) (id : SinkId) (l : LoggerId) (e : Entry) : Bytes :=
  match start.loggers.get? l, start.plant.outlets.settings? id with
  | some logger, some (gate, f) =>
    if latest (attachmentOf l (.direct id)) (logger.sinks.contains (.direct id)) past = true ∧
        latest (levelOf l) logger.gate.level past ≤ e.severity ∧
        latest (sinkLevelOf (.direct id)) gate.level past ≤ e.severity then
      match e.record logger.localTime with
      | .ok r => start.plant.outlets.plain (latest (formatterOf (.direct id)) f past) r
      | .error _ => []
    else []
  | _, _ => []

/-- What a memory sink that held `held` at the start holds after a history. -/
def delivered (start : World) (id : SinkId) (held : Bytes) : List LogOp → Bytes
  | [] => held
  | .clearSink key :: past => if key = id then [] else delivered start id held past
  | .log l e _ :: past => delivered start id held past ++ start.lineFor past id l e
  | _ :: past => delivered start id held past

/-! ### Worlds without adapters -/

variable {w w' w'' : World}

/-- There are no adapters, so there is no worker that could do anything. -/
def Quiet (w : World) : Prop := ∀ id, w.adapters.get? id = none

theorem withAdapter_of_quiet {α : Type} (h : w.Quiet) (id : AdapterId) (missing : α)
    (act : Adapter → Plant → α × Adapter × Plant) : w.withAdapter id missing act = (missing, w) := by
  unfold withAdapter
  rw [h id]

theorem pace_of_quiet (h : w.Quiet) (schedule : Schedule) (sink : SinkRef) : schedule.pace sink w = w := by
  unfold Schedule.pace
  induction schedule sink with
  | nil => rfl
  | cons id rest ih =>
    rw [List.foldl_cons]
    have hwork : w.work id = w := congrArg Prod.snd (withAdapter_of_quiet h id () _)
    rw [hwork]
    exact ih

/-- From one world to the next, memory sinks grow, and nothing else changes that later calls look at. -/
structure Calm (w w' : World) (gain : SinkId → Bytes) : Prop where
  store : w'.plant.store = w.plant.store
  adapters : w'.adapters = w.adapters
  loggers : w'.loggers = w.loggers
  grows : Outlets.Grows Timestamp.localOffset w.plant.outlets w'.plant.outlets gain

theorem Calm.trans {gain gain' : SinkId → Bytes} (h : Calm w w' gain) (h' : Calm w' w'' gain') :
    Calm w w'' fun id => gain id ++ gain' id where
  store := h'.store.trans h.store
  adapters := h'.adapters.trans h.adapters
  loggers := h'.loggers.trans h.loggers
  grows := h.grows.trans h'.grows

theorem Calm.congr {gain gain' : SinkId → Bytes} (h : Calm w w' gain) (heq : ∀ id, gain id = gain' id) :
    Calm w w' gain' := ⟨h.store, h.adapters, h.loggers, h.grows.congr heq⟩

theorem calm_refl (w : World) : Calm w w fun _ => [] := ⟨rfl, rfl, rfl, Outlets.grows_of_same rfl rfl⟩

theorem calm_report (w : World) (n : Notice) : Calm w (w.report n) fun _ => [] :=
  ⟨rfl, rfl, rfl, Outlets.grows_report _ n⟩

theorem Calm.quiet {gain : SinkId → Bytes} (h : Calm w w' gain) (hq : w.Quiet) : w'.Quiet := by
  intro id
  rw [h.adapters]
  exact hq id

/-- What the memory sinks gain when a record goes to a list of sinks. -/
def shares (o : Outlets) (r : Record) (sinks : List SinkRef) (id : SinkId) : Bytes :=
  if .direct id ∈ sinks then o.share id r else []

theorem lastTicket?_of_quiet (h : w.Quiet) (sink : SinkRef) : w.lastTicket? sink = none := by
  cases sink with
  | direct id => rfl
  | queued id =>
    unfold lastTicket?
    dsimp only
    rw [h id]
    rfl

/-- No worker gets in between, and a caller that had to wait would have nobody to wait for. -/
theorem call_of_quiet {s : Snapshot} {sink : SinkRef} (h : (w.logSink sink s).2.Quiet) (schedule : Schedule) :
    ((logDesk schedule.pace s).call sink w).2 = (w.logSink sink s).2 := by
  unfold logDesk
  dsimp only
  cases hlog : w.logSink sink s with
  | mk outcome w' =>
    rw [hlog] at h
    cases outcome with
    | some outcome => exact pace_of_quiet h schedule sink
    | none =>
      dsimp only
      unfold await
      rw [lastTicket?_of_quiet h]
      exact pace_of_quiet h schedule sink

section Dispatch

variable {s : Snapshot} {r : Record} (hr : r.time.IsShown Timestamp.localOffset)
include hr

theorem calm_logSink (hq : w.Quiet) (hs : w.plant.outlets.Sound Timestamp.localOffset)
    (hrecord : s.record w.plant.store = r) (sink : SinkRef) :
    Calm w (w.logSink sink s).2 (shares w.plant.outlets r [sink]) := by
  cases sink with
  | queued id =>
    unfold logSink
    dsimp only
    rw [withAdapter_of_quiet hq]
    refine ⟨rfl, rfl, rfl, (Outlets.grows_of_same rfl rfl).congr fun key => ?_⟩
    unfold shares
    rw [if_neg (by simp)]
  | direct id =>
    subst hrecord
    refine ⟨rfl, rfl, rfl, (Outlets.grows_log hs false id hr).congr fun key => ?_⟩
    unfold shares
    by_cases hkey : key = id
    · subst hkey
      rw [if_pos rfl, if_pos (List.mem_singleton_self _)]
    · rw [if_neg hkey, if_neg (by simpa using hkey)]

omit hr in
theorem shares_cons (o : Outlets) (r : Record) {sink : SinkRef} {rest : List SinkRef} (h : sink ∉ rest)
    (id : SinkId) : shares o r [sink] id ++ shares o r rest id = shares o r (sink :: rest) id := by
  unfold shares
  by_cases hsink : .direct id = sink
  · subst hsink
    rw [if_pos (List.mem_singleton_self _), if_neg h, if_pos List.mem_cons_self, List.append_nil]
  · have hmem : (.direct id ∈ sink :: rest) = (.direct id ∈ rest) := by simp [hsink]
    rw [if_neg (by simpa using hsink), List.nil_append]
    simp only [hmem]

/- The sinks behind the first see the outlets as the first left them, where every share is the same. -/
theorem calm_fanOut (schedule : Schedule) (name : String) (hq : w.Quiet)
    (hs : w.plant.outlets.Sound Timestamp.localOffset) (hrecord : s.record w.plant.store = r)
    {sinks : List SinkRef} (hnodup : sinks.Nodup) :
    Calm w (Logger.fanOut (logDesk schedule.pace s) name sinks w).2 (shares w.plant.outlets r sinks) := by
  induction sinks generalizing w with
  | nil => exact calm_refl w
  | cons sink rest ih =>
    obtain ⟨hfirst, hrest⟩ := List.nodup_cons.mp hnodup
    have hothers : ∀ w₁, Calm w w₁ (shares w.plant.outlets r [sink]) →
        Calm w (Logger.fanOut (logDesk schedule.pace s) name rest w₁).2
          (shares w.plant.outlets r (sink :: rest)) := by
      intro w₁ h₁
      have hsame : shares w₁.plant.outlets r rest = shares w.plant.outlets r rest := by
        funext id
        unfold shares
        rw [h₁.grows.share_eq]
      have h₂ := ih (h₁.quiet hq) (h₁.grows.sound hs) ((congrArg s.record h₁.store).trans hrecord) hrest
      rw [hsame] at h₂
      exact (h₁.trans h₂).congr (shares_cons w.plant.outlets r hfirst)
    have hcall := calm_logSink hr hq hs hrecord sink
    rw [← call_of_quiet (hcall.quiet hq) schedule] at hcall
    unfold Logger.fanOut
    dsimp only
    split
    · exact hothers _ hcall
    · exact hothers _ ((hcall.trans (calm_report _ _)).congr fun id => List.append_nil _)

/-- Dispatching a record brings every attached memory sink its share, and is counted. -/
theorem dispatch_spec (schedule : Schedule) {l : LoggerId} {logger : Logger} (hl : w.loggers.get? l = some logger)
    (hq : w.Quiet) (hs : w.plant.outlets.Sound Timestamp.localOffset) (hrecord : s.record w.plant.store = r)
    (hnodup : logger.sinks.Nodup) :
    ∃ w₁ failures, Calm w w₁ (shares w.plant.outlets r logger.sinks) ∧
      w.dispatch schedule.pace l s = w₁.modifyLogger l (·.countDispatch failures) := by
  unfold dispatch
  rw [hl]
  exact ⟨_, _, calm_fanOut hr schedule logger.name hq hs hrecord hnodup, rfl⟩

end Dispatch

/-! ### Logging an entry -/

/-- Two states of a logger that differ in their counters at most. -/
structure SameSetup (a b : Logger) : Prop where
  gate : b.gate = a.gate
  sinks : b.sinks = a.sinks
  clock : b.localTime = a.localTime

theorem sameSetup_refl (a : Logger) : SameSetup a a := ⟨rfl, rfl, rfl⟩

theorem sameSetup_recordFiltered (a : Logger) : SameSetup a a.recordFiltered := by
  unfold Logger.recordFiltered
  split
  · exact ⟨rfl, rfl, rfl⟩
  · exact sameSetup_refl a

theorem sameSetup_countDispatch (failures : Nat) (a : Logger) : SameSetup a (a.countDispatch failures) :=
  ⟨rfl, rfl, rfl⟩

/-- What the memory sinks gain when an entry is logged. -/
def gains (w : World) (l : LoggerId) (e : Entry) (id : SinkId) : Bytes :=
  match w.loggers.get? l with
  | none => []
  | some logger =>
    if logger.gate.passes e.severity then
      match e.record logger.localTime with
      | .ok r => shares w.plant.outlets r logger.sinks id
      | .error _ => []
    else []

/-- From one world to the next, entries have been logged: memory sinks have grown and counters have moved. -/
structure Logged (w w' : World) (gain : SinkId → Bytes) : Prop where
  adapters : w'.adapters = w.adapters
  loggers : ∀ l, Option.Rel SameSetup (w.loggers.get? l) (w'.loggers.get? l)
  grows : Outlets.Grows Timestamp.localOffset w.plant.outlets w'.plant.outlets gain

theorem rel_refl (x : Option Logger) : Option.Rel SameSetup x x := by
  cases x with
  | none => exact .none
  | some logger => exact .some (sameSetup_refl logger)

theorem rel_modify (t : Table Logger) (l : LoggerId) {f : Logger → Logger} (hf : ∀ x, SameSetup x (f x))
    (key : LoggerId) : Option.Rel SameSetup (t.get? key) ((t.modify l f).get? key) := by
  rw [Table.get?_modify]
  split
  · cases t.get? key with
    | none => exact .none
    | some logger => exact .some (hf logger)
  · exact rel_refl _

theorem isShown_of_record {e : Entry} {isLocal : Bool} {offset : Int} {r : Record}
    (h : e.record isLocal offset = .ok r) : r.severity = e.severity ∧ r.time.IsShown offset := by
  unfold Entry.record at h
  cases htime : e.time.decompose isLocal offset with
  | error p =>
    rw [htime] at h
    cases h
  | ok t =>
    rw [htime] at h
    cases h
    exact ⟨rfl, e.time, isLocal, htime⟩

theorem logged_log (hq : w.Quiet) (hs : w.plant.outlets.Sound Timestamp.localOffset)
    (hnodup : ∀ l logger, w.loggers.get? l = some logger → logger.sinks.Nodup) (schedule : Schedule)
    (l : LoggerId) (e : Entry) : Logged w (w.log schedule.pace l e).2 (w.gains l e) := by
  unfold log gains
  cases hl : w.loggers.get? l with
  | none => exact ⟨rfl, fun key => rel_refl _, Outlets.grows_of_same rfl rfl⟩
  | some logger =>
    dsimp only
    by_cases hgate : logger.gate.passes e.severity = true
    · simp only [if_pos hgate]
      rcases Snapshot.capture_cases e logger.localTime Timestamp.localOffset logger.factory w.plant.store with
        ⟨s, store, hcapture, hrecord⟩ | ⟨p, store, hcapture, hrecord⟩
      · obtain ⟨w₁, failures, hcalm, hdispatch⟩ := dispatch_spec (w := w.setStore store)
          (isShown_of_record hrecord).2 schedule hl hq hs rfl (hnodup l logger hl)
        rw [hcapture, hrecord]
        dsimp only
        rw [hdispatch]
        refine ⟨hcalm.adapters, fun key => ?_, hcalm.grows⟩
        have hloggers : w₁.loggers = w.loggers := hcalm.loggers
        show Option.Rel SameSetup _ ((w₁.loggers.modify l _).get? key)
        rw [hloggers]
        exact rel_modify w.loggers l (sameSetup_countDispatch failures) key
      · rw [hcapture, hrecord]
        exact ⟨rfl, fun key => rel_refl _, Outlets.grows_of_same rfl rfl⟩
    · simp only [if_neg hgate]
      exact ⟨rfl, rel_modify w.loggers l sameSetup_recordFiltered, Outlets.grows_of_same rfl rfl⟩

/-! ### Following a history -/

/-- The setup of a logger is what a history made of the one it started with. -/
structure LoggerTracks (l : LoggerId) (past : List LogOp) (first now : Logger) : Prop where
  level : now.gate.level = latest (levelOf l) first.gate.level past
  attached : ∀ sink, now.sinks.contains sink =
    latest (attachmentOf l sink) (first.sinks.contains sink) past
  nodup : now.sinks.Nodup
  clock : now.localTime = first.localTime

/-- A world is where a history leads from `start`, as far as memory sinks and what they will receive go. -/
structure Tracks (start : World) (past : List LogOp) (w : World) : Prop where
  quiet : w.Quiet
  sound : w.plant.outlets.Sound Timestamp.localOffset
  layouts : ∀ f, w.plant.outlets.layout? f = start.plant.outlets.layout? f
  loggers : ∀ l, Option.Rel (LoggerTracks l past) (start.loggers.get? l) (w.loggers.get? l)
  settings : ∀ id, w.plant.outlets.settings? id = (start.plant.outlets.settings? id).map fun (gate, f) =>
    (⟨latest (sinkLevelOf (.direct id)) gate.level past⟩, latest (formatterOf (.direct id)) f past)
  memory : ∀ id, w.plant.outlets.memory? id =
    (start.plant.outlets.memory? id).map fun held => start.delivered id held past

variable {start : World} {past : List LogOp}

theorem Tracks.nodup (h : Tracks start past w) (l : LoggerId) (logger : Logger)
    (hl : w.loggers.get? l = some logger) : logger.sinks.Nodup := by
  rcases rel_cases (h.loggers l) with ⟨_, hnone⟩ | ⟨first, now, _, hnow, htracks⟩
  · rw [hnone] at hl
    cases hl
  · rw [hnow] at hl
    cases hl
    exact htracks.nodup

theorem Tracks.plain_eq (h : Tracks start past w) (f : FormatterId) (r : Record) :
    w.plant.outlets.plain f r = start.plant.outlets.plain f r := by
  unfold Outlets.plain
  rw [h.layouts]

theorem Tracks.share_eq (h : Tracks start past w) {id : SinkId} {gate : Gate} {f : FormatterId}
    (hsettings : start.plant.outlets.settings? id = some (gate, f)) (r : Record) :
    w.plant.outlets.share id r =
      if latest (sinkLevelOf (.direct id)) gate.level past ≤ r.severity then
        start.plant.outlets.plain (latest (formatterOf (.direct id)) f past) r
      else [] := by
  unfold Outlets.share
  rw [h.settings, hsettings]
  dsimp only [Option.map]
  rw [h.plain_eq]
  simp only [Gate.passes, decide_eq_true_eq]

/-- What memory sinks gain is what the history says. -/
theorem Tracks.gains_eq (h : Tracks start past w) (l : LoggerId) (e : Entry) (id : SinkId) :
    w.gains l e id = start.lineFor past id l e := by
  unfold gains lineFor
  rcases rel_cases (h.loggers l) with ⟨hfirst, hnow⟩ | ⟨first, now, hfirst, hnow, htracks⟩
  · rw [hfirst, hnow]
  · have hpasses : now.gate.passes e.severity = true ↔
        latest (levelOf l) first.gate.level past ≤ e.severity := by
      rw [← htracks.level]
      exact decide_eq_true_iff
    have hmem : .direct id ∈ now.sinks ↔
        latest (attachmentOf l (.direct id)) (first.sinks.contains (.direct id)) past = true := by
      rw [← htracks.attached]
      exact List.contains_iff_mem.symm
    rw [hfirst, hnow]
    cases hsettings : start.plant.outlets.settings? id with
    | none =>
      have hshare : ∀ r, w.plant.outlets.share id r = [] := by
        intro r
        unfold Outlets.share
        rw [h.settings, hsettings]
        rfl
      dsimp only
      unfold shares
      cases e.record now.localTime with
      | error p => exact ite_self _
      | ok r => simp only [hshare, ite_self]
    | some settings =>
      obtain ⟨gate, f⟩ := settings
      dsimp only
      rw [htracks.clock]
      cases hrecord : e.record first.localTime with
      | error p => exact (ite_self _).trans (ite_self _).symm
      | ok r =>
        dsimp only
        unfold shares
        rw [h.share_eq hsettings, (isShown_of_record hrecord).1]
        simp only [hpasses, hmem]
        by_cases hattached : latest (attachmentOf l (.direct id)) (first.sinks.contains (.direct id)) past = true
        · by_cases hlevel : latest (levelOf l) first.gate.level past ≤ e.severity
          · simp only [hattached, hlevel, if_true, true_and]
          · simp only [hlevel, if_false, false_and, and_false]
        · simp only [hattached, Bool.false_eq_true, if_false, false_and, ite_self]

/-! ### Steps of a logger -/

namespace LoggerTracks

variable {l : LoggerId} {first now now' : Logger}

theorem other (h : LoggerTracks l past first now) {op : LogOp} (hlevel : levelOf l op = none)
    (hattachment : ∀ sink, attachmentOf l sink op = none) (hsame : SameSetup now now') :
    LoggerTracks l (op :: past) first now' where
  level := by
    rw [latest, hlevel, hsame.gate]
    exact h.level
  attached sink := by
    rw [latest, hattachment, hsame.sinks]
    exact h.attached sink
  nodup := by
    rw [hsame.sinks]
    exact h.nodup
  clock := hsame.clock.trans h.clock

theorem setLevel (h : LoggerTracks l past first now) (level : Severity) :
    LoggerTracks l (.setLevel l level :: past) first (now.setLevel level) where
  level := by
    rw [latest, levelOf, if_pos rfl]
    rfl
  attached := h.attached
  nodup := h.nodup
  clock := h.clock

theorem nodup_attach {sinks : List SinkRef} (h : sinks.Nodup) (sink : SinkRef) :
    (Logger.attach sinks sink).Nodup := by
  unfold Logger.attach
  split
  · exact h
  · rename_i hnew
    refine List.nodup_append.mpr ⟨h, List.pairwise_singleton _ _, ?_⟩
    intro a ha b hb heq
    cases List.mem_singleton.mp hb
    exact hnew (List.contains_iff_mem.mpr (heq ▸ ha))

theorem contains_attach (sinks : List SinkRef) (sink key : SinkRef) :
    (Logger.attach sinks sink).contains key = (decide (sink = key) || sinks.contains key) := by
  unfold Logger.attach
  split
  · rename_i hold
    by_cases hkey : sink = key
    · subst hkey
      rw [hold, Bool.or_true]
    · rw [decide_eq_false hkey, Bool.false_or]
  · rw [List.contains_append, List.contains_cons, List.contains_nil, Bool.or_false, Bool.or_comm]
    congr 1
    by_cases hkey : sink = key
    · subst hkey
      simp
    · rw [decide_eq_false hkey, beq_eq_false_iff_ne.mpr (Ne.symm hkey)]

theorem contains_detach (sinks : List SinkRef) (sink key : SinkRef) :
    (sinks.filter (· != sink)).contains key = (decide (sink ≠ key) && sinks.contains key) := by
  rw [Bool.eq_iff_iff]
  simp only [List.contains_iff_mem, List.mem_filter, bne_iff_ne, Bool.and_eq_true, decide_eq_true_eq]
  exact ⟨fun h => ⟨Ne.symm h.2, h.1⟩, fun h => ⟨h.2, Ne.symm h.1⟩⟩

theorem addSink (h : LoggerTracks l past first now) (sink : SinkRef) :
    LoggerTracks l (.addSink l sink :: past) first (now.addSink sink) where
  level := h.level
  attached key := by
    show (Logger.attach now.sinks sink).contains key = _
    rw [contains_attach, latest, attachmentOf, h.attached]
    by_cases hkey : sink = key
    · rw [if_pos ⟨rfl, hkey⟩, decide_eq_true hkey, Bool.true_or]
      rfl
    · rw [if_neg (fun both => hkey both.2), decide_eq_false hkey, Bool.false_or]
      rfl
  nodup := nodup_attach h.nodup sink
  clock := h.clock

theorem removeSink (h : LoggerTracks l past first now) (sink : SinkRef) :
    LoggerTracks l (.removeSink l sink :: past) first (now.removeSink sink) where
  level := h.level
  attached key := by
    show (now.sinks.filter (· != sink)).contains key = _
    rw [contains_detach, latest, attachmentOf, h.attached]
    by_cases hkey : sink = key
    · rw [if_pos ⟨rfl, hkey⟩, decide_eq_false (not_not_intro hkey), Bool.false_and]
      rfl
    · rw [if_neg (fun both => hkey both.2), decide_eq_true hkey, Bool.true_and]
      rfl
  nodup := h.nodup.filter _
  clock := h.clock

end LoggerTracks

theorem rel_step {past' : List LogOp} (t : Table Logger) (l : LoggerId) {f : Logger → Logger} {key : LoggerId}
    {x : Option Logger} (h : Option.Rel (LoggerTracks key past) x (t.get? key))
    (hchanged : ∀ first now, LoggerTracks l past first now → LoggerTracks l past' first (f now))
    (hothers : ∀ first now, key ≠ l → LoggerTracks key past first now → LoggerTracks key past' first now) :
    Option.Rel (LoggerTracks key past') x ((t.modify l f).get? key) := by
  rw [Table.get?_modify]
  rcases rel_cases h with ⟨rfl, hnow⟩ | ⟨first, now, rfl, hnow, htracks⟩
  · rw [hnow]
    simp only [Option.map_none, ite_self]
    exact .none
  · rw [hnow]
    by_cases hkey : key = l
    · subst hkey
      rw [if_pos rfl]
      exact .some (hchanged first now htracks)
    · rw [if_neg hkey]
      exact .some (hothers first now hkey htracks)

/-! ### Steps of a world -/

/- Every operation works on one side, on a logger or on a sink, except that logging moves both. -/

theorem Tracks.loggers_other (h : Tracks start past w) {op : LogOp} (hlevel : ∀ l, levelOf l op = none)
    (hattachment : ∀ l sink, attachmentOf l sink op = none)
    (hsame : ∀ l, Option.Rel SameSetup (w.loggers.get? l) (w'.loggers.get? l)) (l : LoggerId) :
    Option.Rel (LoggerTracks l (op :: past)) (start.loggers.get? l) (w'.loggers.get? l) := by
  rcases rel_cases (hsame l) with ⟨hnow, hnext⟩ | ⟨now, next, hnow, hnext, hsetup⟩
  · rcases rel_cases (h.loggers l) with ⟨hfirst, _⟩ | ⟨_, now, _, hsome, _⟩
    · rw [hfirst, hnext]
      exact .none
    · rw [hnow] at hsome
      cases hsome
  · rcases rel_cases (h.loggers l) with ⟨_, hnone⟩ | ⟨first, other, hfirst, hother, htracks⟩
    · rw [hnow] at hnone
      cases hnone
    · rw [hnow] at hother
      cases hother
      rw [hfirst, hnext]
      exact .some (htracks.other (hlevel l) (hattachment l) hsetup)

theorem Tracks.log (h : Tracks start past w) (l : LoggerId) (e : Entry) (schedule : Schedule) :
    Tracks start (.log l e schedule :: past) (w.log schedule.pace l e).2 := by
  have hlog := logged_log h.quiet h.sound h.nodup schedule l e
  refine ⟨?_, hlog.grows.sound h.sound, fun f => (hlog.grows.layouts f).trans (h.layouts f),
    h.loggers_other (fun _ => rfl) (fun _ _ => rfl) hlog.loggers,
    fun id => (hlog.grows.settings id).trans (h.settings id), fun id => ?_⟩
  · intro id
    rw [hlog.adapters]
    exact h.quiet id
  · rw [hlog.grows.memory, h.memory, Option.map_map, h.gains_eq]
    rfl

theorem Tracks.modifyLogger (h : Tracks start past w) {op : LogOp} {l : LoggerId} {f : Logger → Logger}
    (hsinks : ∀ sink, sinkLevelOf sink op = none ∧ formatterOf sink op = none)
    (hdelivered : ∀ id held, start.delivered id held (op :: past) = start.delivered id held past)
    (hchanged : ∀ first now, LoggerTracks l past first now → LoggerTracks l (op :: past) first (f now))
    (hothers : ∀ key, key ≠ l → levelOf key op = none ∧ ∀ sink, attachmentOf key sink op = none) :
    Tracks start (op :: past) (w.modifyLogger l f) where
  quiet := h.quiet
  sound := h.sound
  layouts := h.layouts
  loggers key := rel_step w.loggers l (h.loggers key) hchanged fun _ _ hkey htracks =>
    htracks.other (hothers key hkey).1 (hothers key hkey).2 (sameSetup_refl _)
  settings id := by
    simp only [latest, hsinks, Option.getD_none]
    exact h.settings id
  memory id := by
    simp only [hdelivered]
    exact h.memory id

theorem Tracks.setOutlets (h : Tracks start past w) {op : LogOp} {o : Outlets}
    (hloggers : ∀ l, levelOf l op = none ∧ ∀ sink, attachmentOf l sink op = none)
    (hformatters : o.formatters = w.plant.outlets.formatters)
    (hsettings : ∀ id, o.settings? id = (start.plant.outlets.settings? id).map fun (gate, f) =>
      (⟨latest (sinkLevelOf (.direct id)) gate.level (op :: past)⟩,
        latest (formatterOf (.direct id)) f (op :: past)))
    (hmemory : ∀ id, o.memory? id =
      (start.plant.outlets.memory? id).map fun held => start.delivered id held (op :: past)) :
    Tracks start (op :: past) (w.setOutlets o) where
  quiet := h.quiet
  sound := by
    unfold Outlets.Sound
    rw [show (w.setOutlets o).plant.outlets = o from rfl, hformatters]
    exact h.sound
  layouts f := by
    have hlayout : o.layout? f = w.plant.outlets.layout? f := by
      unfold Outlets.layout?
      rw [hformatters]
    exact hlayout.trans (h.layouts f)
  loggers := h.loggers_other (fun l => (hloggers l).1) (fun l => (hloggers l).2) fun l => rel_refl (w.loggers.get? l)
  settings := hsettings
  memory := hmemory

theorem Tracks.modifyAdapter (h : Tracks start past w) {op : LogOp} (a : AdapterId) (f : Adapter → Adapter)
    (hloggers : ∀ l, levelOf l op = none ∧ ∀ sink, attachmentOf l sink op = none)
    (hsinks : ∀ id, sinkLevelOf (.direct id) op = none ∧ formatterOf (.direct id) op = none)
    (hdelivered : ∀ id held, start.delivered id held (op :: past) = start.delivered id held past) :
    Tracks start (op :: past) { w with adapters := w.adapters.modify a f } where
  quiet id := by
    dsimp only
    rw [Table.get?_modify, h.quiet id]
    exact ite_self _
  sound := h.sound
  layouts := h.layouts
  loggers := h.loggers_other (fun l => (hloggers l).1) (fun l => (hloggers l).2) fun l => rel_refl (w.loggers.get? l)
  settings id := by
    simp only [latest, hsinks, Option.getD_none]
    exact h.settings id
  memory id := by
    simp only [hdelivered]
    exact h.memory id

theorem Tracks.setSinkLevel (h : Tracks start past w) (sink : SinkRef) (level : Severity) :
    Tracks start (.setSinkLevel sink level :: past) (w.setSinkLevel sink level) := by
  cases sink with
  | queued a =>
    refine h.modifyAdapter a _ (fun _ => ⟨rfl, fun _ => rfl⟩) (fun id => ⟨?_, rfl⟩) fun _ _ => rfl
    simp [sinkLevelOf]
  | direct key =>
    refine h.setOutlets (fun _ => ⟨rfl, fun _ => rfl⟩) rfl (fun id => ?_) fun id => ?_
    · rw [Outlets.settings?_setLevel, h.settings]
      simp only [latest, formatterOf, Option.getD_none, sinkLevelOf, SinkRef.direct.injEq]
      by_cases hkey : id = key
      · subst hkey
        rw [if_pos rfl, if_pos rfl, Option.map_map]
        rfl
      · rw [if_neg hkey, if_neg (Ne.symm hkey)]
        rfl
    · rw [Outlets.memory?_setLevel]
      exact h.memory id

theorem Tracks.setSinkFormatter (h : Tracks start past w) (sink : SinkRef) (f : FormatterId) :
    Tracks start (.setSinkFormatter sink f :: past) (w.setSinkFormatter sink f) := by
  cases sink with
  | queued a =>
    refine h.modifyAdapter a _ (fun _ => ⟨rfl, fun _ => rfl⟩) (fun id => ⟨rfl, ?_⟩) fun _ _ => rfl
    simp [formatterOf]
  | direct key =>
    refine h.setOutlets (fun _ => ⟨rfl, fun _ => rfl⟩) rfl (fun id => ?_) fun id => ?_
    · rw [Outlets.settings?_setFormatter, h.settings]
      simp only [latest, sinkLevelOf, Option.getD_none, formatterOf, SinkRef.direct.injEq]
      by_cases hkey : id = key
      · subst hkey
        rw [if_pos rfl, if_pos rfl, Option.map_map]
        rfl
      · rw [if_neg hkey, if_neg (Ne.symm hkey)]
        rfl
    · rw [Outlets.memory?_setFormatter]
      exact h.memory id

theorem Tracks.clearSink (h : Tracks start past w) (key : SinkId) :
    Tracks start (.clearSink key :: past) (w.clearSink key) := by
  refine h.setOutlets (fun _ => ⟨rfl, fun _ => rfl⟩) rfl (fun id => ?_) fun id => ?_
  · rw [Outlets.settings?_clear]
    exact h.settings id
  · rw [Outlets.memory?_clear, h.memory]
    by_cases hkey : id = key
    · subst hkey
      simp only [delivered, if_true, Option.map_map]
      rfl
    · simp only [delivered, hkey, Ne.symm hkey, if_false]

theorem Tracks.perform (h : Tracks start past w) (op : LogOp) : Tracks start (op :: past) (w.perform op).2 := by
  cases op with
  | log l e schedule => exact h.log l e schedule
  | setLevel l level =>
    exact h.modifyLogger (fun _ => ⟨rfl, rfl⟩) (fun _ _ => rfl) (fun _ _ htracks => htracks.setLevel level)
      fun _ hkey => ⟨if_neg (Ne.symm hkey), fun _ => rfl⟩
  | addSink l sink =>
    exact h.modifyLogger (fun _ => ⟨rfl, rfl⟩) (fun _ _ => rfl) (fun _ _ htracks => htracks.addSink sink)
      fun _ hkey => ⟨rfl, fun _ => if_neg fun both => hkey both.1.symm⟩
  | removeSink l sink =>
    exact h.modifyLogger (fun _ => ⟨rfl, rfl⟩) (fun _ _ => rfl) (fun _ _ htracks => htracks.removeSink sink)
      fun _ hkey => ⟨rfl, fun _ => if_neg fun both => hkey both.1.symm⟩
  | setSinkLevel sink level => exact h.setSinkLevel sink level
  | setSinkFormatter sink f => exact h.setSinkFormatter sink f
  | clearSink id => exact h.clearSink id

theorem Tracks.performAll (h : Tracks start past w) (ops : List LogOp) :
    Tracks start (ops.reverse ++ past) (w.performAll ops) := by
  induction ops generalizing past w with
  | nil => exact h
  | cons op rest ih =>
    rw [List.reverse_cons, List.append_assoc]
    exact ih (h.perform op)

/-! ### Delivery -/

/-- Worlds from which delivery can be followed: no adapters, loggers that hold no sink twice, and formatters of
plain stages whose caches are right, as new ones are. -/
structure Ready (w : World) : Prop where
  quiet : w.Quiet
  nodup : ∀ l logger, w.loggers.get? l = some logger → logger.sinks.Nodup
  sound : w.plant.outlets.Sound Timestamp.localOffset

theorem Ready.tracks (h : w.Ready) : Tracks w [] w where
  quiet := h.quiet
  sound := h.sound
  layouts _ := rfl
  loggers l := by
    cases hl : w.loggers.get? l with
    | none => exact .none
    | some logger => exact .some ⟨rfl, fun _ => rfl, h.nodup l logger hl, rfl⟩
  settings id := by
    simp only [latest]
    cases w.plant.outlets.settings? id <;> rfl
  memory id := by
    simp only [delivered]
    cases w.plant.outlets.memory? id <;> rfl

/-- After any operations, every memory sink holds what the history of the operations delivers to it. -/
theorem memory?_performAll (h : start.Ready) (ops : List LogOp) (id : SinkId) :
    (start.performAll ops).plant.outlets.memory? id =
      (start.plant.outlets.memory? id).map fun held => start.delivered id held ops.reverse := by
  have htracks := h.tracks.performAll ops
  rw [List.append_nil] at htracks
  exact htracks.memory id

/-- Two loggers of level `info` that share a memory sink. -/
def pair : World :=
  let outlets := (Outlets.empty.addFormatter (.ofLayout (.pipeline [.fixed [62], .path 1]))).2
  let outlets := (outlets.addSink "memory" (.memory .empty)).2
  let logger : Logger := ⟨"pair", ⟨.info⟩, [.direct 0], 0, false, false, .zero⟩
  ⟨⟨.empty, outlets⟩, .empty, (Table.empty.push logger).push logger, .empty⟩

theorem ready_pair : pair.Ready where
  quiet _ := rfl
  nodup l logger hl := by
    have hrow := Table.mem_rows_of_get? hl
    simp only [pair, Table.push, Table.empty, List.mem_cons, Prod.mk.injEq, List.not_mem_nil, or_false] at hrow
    rcases hrow with ⟨_, rfl⟩ | ⟨_, rfl⟩
    · exact List.pairwise_singleton _ _
    · exact List.pairwise_singleton _ _
  sound f formatter hf := by
    have hrow := Table.mem_rows_of_get? hf
    simp only [pair, Outlets.addSink, Outlets.addFormatter, Outlets.empty, Table.push, Table.empty,
      List.mem_cons, Prod.mk.injEq, List.not_mem_nil, or_false] at hrow
    rcases hrow with ⟨_, rfl⟩ | ⟨_, rfl⟩
    · exact ⟨rfl, SecondCache.sound_empty _⟩
    · exact ⟨rfl, SecondCache.sound_empty _⟩

/- The entries are told apart by the octet in their file. What is logged before the sink is cleared, below the
level of its logger or of the sink, or while the sink is detached does not show. -/
theorem memory?_pair :
    let entry (severity : Severity) (file : UInt8) : Entry := ⟨severity, [], [file], [], [], .epoch⟩
    let log (l : LoggerId) (severity : Severity) (file : UInt8) : LogOp := .log l (entry severity file) fun _ => []
    pair.Ready ∧ (pair.performAll
      [log 0 .warn 97, .clearSink 0, .setSinkFormatter (.direct 0) 0, log 0 .warn 98, log 1 .debug 99,
       .setLevel 1 .debug, log 1 .debug 100, .removeSink 0 (.direct 0), log 0 .fatal 101,
       .setSinkLevel (.direct 0) .error, log 1 .warn 102, .addSink 0 (.direct 0),
       log 0 .error 103]).plant.outlets.memory? 0 = some [62, 98, 62, 100, 62, 103] := by
  refine ⟨ready_pair, ?_⟩
  rw [memory?_performAll ready_pair]
  decide

end Logbook.World
