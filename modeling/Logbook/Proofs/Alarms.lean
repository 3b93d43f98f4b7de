import Logbook.Proofs.Closing
import Logbook.Proofs.Critical

/-!
# Alarms follow the discards

A queue that raises alerts prints a warning, and tells its listener, on the first discard and on every thousandth.
What an event prints is put down beside its marks, and so a run has its prints as it has its history.
-/

namespace Logbook

/-! ### What is printed on a plant -/

namespace Plant

/-- What may be done to a plant. -/
inductive Deed where
  | log (onWorker : Bool) (id : SinkId) (s : Snapshot)
  | write (onWorker : Bool) (id : SinkId) (bs : Bytes)
  | flush (id : SinkId)
  /-- Take buffers or give them back. -/
  | keep (store : Store)
  | report (n : Notice)

def act (p : Plant) : Deed → Plant
  | .log onWorker id s => (p.log onWorker id s).2
  | .write onWorker id bs => (p.write onWorker id bs).2
  | .flush id => (p.flush id).2
  | .keep store => { p with store := store }
  | .report n => p.report n

def Deed.notice? : Deed → Option Notice
  | .report n => some n
  | _ => none

/-- Deeds lead from one plant to another, and among them these notices are printed, in order. -/
def Prints (p : Plant) (notices : List Notice) (p' : Plant) : Prop :=
  ∃ deeds : List Deed, p' = deeds.foldl act p ∧ deeds.filterMap Deed.notice? = notices

variable {p p' p'' : Plant} {notices notices' : List Notice}

theorem Prints.trans (h : Prints p notices p') (h' : Prints p' notices' p'') : Prints p (notices ++ notices') p'' := by
  obtain ⟨deeds, rfl, rfl⟩ := h
  obtain ⟨deeds', rfl, rfl⟩ := h'
  exact ⟨deeds ++ deeds', List.foldl_append.symm, List.filterMap_append⟩

/-- Nothing is printed at the end. -/
theorem Prints.quietly (h : Prints p notices p') (h' : Prints p' [] p'') : Prints p notices p'' := by
  have hprints := h.trans h'
  rw [List.append_nil] at hprints
  exact hprints

theorem prints_refl (p : Plant) : Prints p [] p := ⟨[], rfl, rfl⟩

theorem prints_act (p : Plant) (d : Deed) : Prints p d.notice?.toList (p.act d) := by
  refine ⟨[d], rfl, ?_⟩
  cases d <;> rfl

theorem prints_reportAll (m : SinkId) (notices : List Notice) (p : Plant) :
    Prints p notices ((host m).reportAll notices p) := by
  unfold Host.reportAll
  induction notices generalizing p with
  | nil => exact prints_refl p
  | cons n rest ih => exact (prints_act p (.report n)).trans (ih _)

theorem prints_discard (m : SinkId) (commands : List Command) (p : Plant) :
    Prints p [] ((host m).discard commands p) := by
  unfold Host.discard
  induction commands.filterMap (·.snapshot?) generalizing p with
  | nil => exact prints_refl p
  | cons s rest ih => exact (prints_act p (.keep (s.drop p.store))).trans (ih _)

theorem prints_perform (m : SinkId) (c : Command) (p : Plant) : Prints p [] ((host m).perform c p).2 := by
  cases c with
  | record s => exact prints_act p (.log true m s)
  | raw bs => exact prints_act p (.write true m bs)
  | flush ticket => exact prints_act p (.flush m)

theorem prints_settle (m : SinkId) (c : Command) (o : Outcome) (q : Queue) (p : Plant) :
    Prints p (q.settle c o).2 ((host m).settle c o q p).2 := by
  unfold Host.settle Host.clearOut
  exact ((prints_reportAll m _ p).quietly (prints_discard m _ _)).quietly (prints_discard m _ _)

end Plant

namespace Adapter

open Queue

/-! ### What events print -/

/-- What an offer prints, and then the call of the inner sink by a caller that delivers a record itself. -/
def offerNotices (a : Adapter) (c : Command) (p : Plant) : List Notice :=
  let (admission, queue, notices) := a.queue.offer c
  match admission, c with
  | .preserved, .record s =>
    let (outcome, _) := (a.host.reportAll notices p).log false a.inner s
    notices ++ (queue.countDelivery (outcome.getD .done)).2
  | _, _ => notices

def notices (a : Adapter) : Event → List Notice
  | .log s p =>
    if a.gate.passes s.severity then a.offerNotices (.record s) { p with store := s.clone p.store } else []
  | .write bs p => a.offerNotices (.raw bs) p
  | .giveUp i => if a.mayGiveUp i then (a.queue.giveUp i).2 else []
  | .finish o =>
    match a.queue.worker with
    | .busy c => (a.queue.settle c o).2
    | _ => []
  | .leave o => if a.queue.canLeave then (a.queue.leave o).2 else []
  | .join timeout => (a.queue.join timeout).2.2
  | _ => []

/-- What a run prints. -/
def printed (a : Adapter) : List Event → List Notice
  | [] => []
  | e :: rest => a.notices e ++ (a.step e).printed rest

/-- The calls of an adapter print what their events print. -/
structure Reports (a : Adapter) : Prop where
  log : ∀ s p, Plant.Prints p (a.notices (.log s p)) (a.log s p).2.2
  write : ∀ bs p, Plant.Prints p (a.notices (.write bs p)) (a.write bs p).2.2
  expire : ∀ p b p', a.expire p = some (b, p') →
    ∃ i, b = a.step (.giveUp i) ∧ Plant.Prints p (a.notices (.giveUp i)) p'
  work : ∀ p, (a.work p).1 = a.run (a.workEvents p) ∧ Plant.Prints p (a.printed (a.workEvents p)) (a.work p).2
  flush : ∀ (pace : Adapter → Plant → Adapter × Plant) (p : Plant),
    if a.queue.isOpen then (a.flush pace p).2.2 = (pace (a.step .askFlush) p).2
    else Plant.Prints p [] (a.flush pace p).2.2
  shutdown : ∀ (pace : Adapter → Plant → Adapter × Plant) (timeout : Duration) (p : Plant),
    ∃ p₀, Plant.Prints p [] p₀ ∧
      let (b, p₁) := pace (a.step .close) p₀
      Plant.Prints p₁ (b.notices (.join timeout)) (a.shutdown pace timeout p).2.2

theorem prints_offer (a : Adapter) (c : Command) (p : Plant) :
    Plant.Prints p (a.offerNotices c p) (a.offer c p).2.2 := by
  unfold offerNotices offer
  rcases a.queue.offer c with ⟨admission, queue, notices⟩
  dsimp only
  have hreport := Plant.prints_reportAll a.inner notices p
  have hdiscard := hreport.quietly (Plant.prints_discard a.inner [c] _)
  cases admission with
  | accepted => exact hreport
  | waits ticket => exact hreport
  | dropped => exact hdiscard
  | refused e => exact hdiscard
  | preserved =>
    cases c with
    | raw bs => exact hreport
    | flush ticket => exact hreport
    | record s =>
      have hlog := hreport.quietly (Plant.prints_act _ (.log false a.inner s))
      exact (hlog.trans (Plant.prints_reportAll a.inner _ _)).quietly (Plant.prints_discard a.inner [.record s] _)

theorem prints_work (a : Adapter) (p : Plant) : Plant.Prints p (a.printed (a.workEvents p)) (a.work p).2 := by
  unfold work workEvents Host.step?
  rw [Queue.take_eq_pull]
  cases hpull : a.queue.pull with
  | none =>
    dsimp only [Option.map]
    cases hleave : a.queue.canLeave with
    | false => exact Plant.prints_refl p
    | true =>
      simp only [if_true, printed, notices, hleave, List.append_nil]
      exact (Plant.prints_act p (.flush a.inner)).trans (Plant.prints_reportAll a.inner _ _)
  | some taken =>
    obtain ⟨c, q⟩ := taken
    have hbusy : (q.enter 0).worker = .busy c := (q.worker_enter 0).trans (Queue.worker_pull hpull)
    have hperform := Plant.prints_perform a.inner c p
    dsimp only [Option.map]
    rw [show a.host.perform c p = (Plant.host a.inner).perform c p from rfl]
    rcases hcall : (Plant.host a.inner).perform c p with ⟨_ | o, p'⟩
    · rw [hcall] at hperform
      simp only [Option.toList, printed, notices, List.append_nil]
      exact hperform
    · rw [hcall] at hperform
      simp only [Option.toList, printed, notices, step, hpull, hbusy, List.nil_append, List.append_nil]
      exact hperform.trans (Plant.prints_settle a.inner c o (q.enter 0) p')

theorem reports (a : Adapter) : a.Reports where
  log s p := by
    simp only [notices, log]
    split
    · exact (Plant.prints_act p (.keep (s.clone p.store))).trans (a.prints_offer _ _)
    · exact Plant.prints_refl p
  write bs p := a.prints_offer _ p
  expire p b p' h := by
    unfold expire at h
    split at h
    · rename_i timeout ticket c hpolicy hlast
      simp only [Option.some.injEq, Prod.mk.injEq] at h
      obtain ⟨rfl, rfl⟩ := h
      have hmay : a.mayGiveUp (a.queue.waiting.length - 1) = true := by
        rw [List.getLast?_eq_getElem?] at hlast
        simp [mayGiveUp, hlast, hpolicy, OverflowPolicy.isTimed]
      refine ⟨a.queue.waiting.length - 1, ?_, ?_⟩
      · simp only [step, hmay, if_true]
      · simp only [notices, hmay, if_true]
        exact (Plant.prints_reportAll a.inner _ p).quietly (Plant.prints_discard a.inner [c] _)
    · cases h
  work p := ⟨a.work_eq_run p, a.prints_work p⟩
  flush pace p := by
    unfold flush
    split
    · rename_i hopen
      have hstep : a.step .askFlush = { a with queue := a.queue.askFlush.2 } := if_pos hopen
      rw [hstep]
      dsimp only
      split
      · rfl
      · split
        · rfl
        · split <;> rfl
      · rfl
    · exact Plant.prints_act p (.flush a.inner)
  shutdown pace timeout p := by
    refine ⟨(a.host.clearOut a.queue.close p).2, Plant.prints_discard a.inner _ p, ?_⟩
    exact Plant.prints_reportAll _ _ _

end Adapter

/-! ### Alarms -/

/-- Are alerts raised about discards? -/
def OverflowPolicy.alarms : OverflowPolicy → Bool
  | .alertAndDrop | .blockFor _ => true
  | _ => false

namespace Notice

def isWarning : Notice → Bool
  | .queueFull _ _ => true
  | _ => false

def isSummary : Notice → Bool
  | .dropSummary _ _ _ => true
  | _ => false

end Notice

/-- The signals of the alert on discard `m`. -/
def QueueSettings.alert (s : QueueSettings) (m : Nat) : List Signal :=
  .warn (.queueFull s.name m) :: if s.hasListener then [.tell m] else []

namespace Queue

/-- The counts among the first `d` discards on which an alert is raised: the first and every thousandth. -/
def alertCounts (d : Nat) : List Nat := (List.range' 1 d).filter fun m => m = 1 ∨ 1000 ∣ m

theorem alertCounts_succ (d : Nat) :
    alertCounts (d + 1) = alertCounts d ++ if isAlert (d + 1) then [d + 1] else [] := by
  have hcount : decide (d + 1 = 1 ∨ 1000 ∣ d + 1) = isAlert (d + 1) := by
    rw [Bool.eq_iff_iff]
    simp [isAlert, Nat.dvd_iff_mod_eq_zero]
  unfold alertCounts
  rw [List.range'_concat, List.filter_append, Nat.one_mul, Nat.add_comm 1 d, List.filter_singleton, hcount]
  cases isAlert (d + 1) <;> rfl

/-- The signals about the first `d` discards. -/
def alertsUpTo (s : QueueSettings) (d : Nat) : List Signal := (alertCounts d).flatMap s.alert

theorem alertsUpTo_succ (q : Queue) :
    alertsUpTo q.settings (q.stats.dropped + 1) = alertsUpTo q.settings q.stats.dropped ++ q.drop.signals := by
  have hdropped : q.drop.stats.dropped = q.stats.dropped + 1 := rfl
  unfold alertsUpTo signals
  rw [alertCounts_succ, List.flatMap_append, hdropped]
  split
  · rw [List.flatMap_singleton]
    rfl
  · rfl

theorem told_alertsUpTo (s : QueueSettings) (d : Nat) :
    (alertsUpTo s d).filterMap Signal.told? = if s.hasListener then alertCounts d else [] := by
  unfold alertsUpTo
  induction alertCounts d with
  | nil => cases s.hasListener <;> rfl
  | cons m rest ih =>
    rw [List.flatMap_cons, List.filterMap_append, ih]
    unfold QueueSettings.alert
    cases s.hasListener <;> rfl

theorem notices_alertsUpTo (s : QueueSettings) (d : Nat) :
    (alertsUpTo s d).filterMap Signal.notice? = (alertCounts d).map (.queueFull s.name) := by
  unfold alertsUpTo
  induction alertCounts d with
  | nil => rfl
  | cons m rest ih =>
    rw [List.flatMap_cons, List.filterMap_append, ih]
    unfold QueueSettings.alert
    cases s.hasListener <;> rfl

theorem filter_signals (q : Queue) :
    (q.signals.filterMap Signal.notice?).filter Notice.isWarning = q.signals.filterMap Signal.notice? := by
  unfold signals
  split
  · cases q.settings.hasListener <;> rfl
  · rfl

end Queue

namespace Adapter

open Queue

/-! ### One event -/

/-- The signals of an event: those of a discard, if the policy is to raise alerts. -/
def signals (a : Adapter) (e : Event) : List Signal :=
  if a.queue.settings.policy.alarms && (a.marks e).any Mark.isDropped then a.queue.drop.signals else []

/-- The signals of a run. -/
def signalled (a : Adapter) : List Event → List Signal
  | [] => []
  | e :: rest => a.signals e ++ (a.step e).signalled rest

/-- What an event does about alerts: it discards nothing; or it does, and raises none; or it does, and gives the
signals that are due. -/
inductive Alarm (q : Queue) (notices : List Notice) (q' : Queue) : Prop where
  | quiet (halerts : q'.alerts = q.alerts) (hdropped : q'.stats.dropped = q.stats.dropped)
      (hnotices : notices.filter Notice.isWarning = [])
  | silent (hpolicy : q.settings.policy.alarms = false) (halerts : q'.alerts = q.alerts)
      (hnotices : notices.filter Notice.isWarning = [])
  | alarm (hpolicy : q.settings.policy.alarms = true) (hdropped : q'.stats.dropped = q.stats.dropped + 1)
      (halerts : q'.alerts = q.alerts ++ q.drop.signals.filterMap Signal.told?)
      (hnotices : notices.filter Notice.isWarning = q.drop.signals.filterMap Signal.notice?)

theorem alarm_alertAndDrop (q : Queue) (waiting : List (Nat × Command)) (hpolicy : q.settings.policy.alarms = true) :
    Alarm q { q with waiting := waiting }.alertAndDrop.2 { q with waiting := waiting }.alertAndDrop.1 :=
  .alarm hpolicy rfl rfl q.drop.filter_signals

theorem warnings_countDelivery (q : Queue) (o : Outcome) : (q.countDelivery o).2.filter Notice.isWarning = [] := by
  cases o <;> rfl

/-- A command for which there is no room is discarded in silence or with an alarm, as the policy has it. -/
theorem alarm_overflow {q : Queue} {c : Command} (hkeep : q.settings.preserves c = false)
    (hpolicy : q.settings.policy.waits = false) :
    ∃ q' notices, q.overflow c = (.dropped, q', notices) ∧ Alarm q notices q' := by
  unfold QueueSettings.preserves at hkeep
  unfold overflow
  rw [hkeep, if_neg Bool.false_ne_true]
  cases hp : q.settings.policy with
  | dropNewest => exact ⟨_, _, rfl, .silent (by rw [hp]; rfl) rfl rfl⟩
  | alertAndDrop => exact ⟨_, _, rfl, alarm_alertAndDrop q q.waiting (by rw [hp]; rfl)⟩
  | block | blockFor timeout =>
    rw [hp] at hpolicy
    cases hpolicy

theorem alarm_offer (a : Adapter) (c : Command) (p : Plant) :
    Alarm a.queue (a.offerNotices c p) (a.offer c p).2.1.queue := by
  unfold offerNotices offer
  rcases offer_cases a.queue c with ⟨-, heq⟩ | ⟨-, -, heq⟩ | ⟨-, -, heq⟩ | ⟨-, -, heq⟩ <;> rw [heq]
  · exact .quiet rfl rfl rfl
  · exact .quiet rfl rfl rfl
  · rcases overflow_cases a.queue c with ⟨-, heq⟩ | ⟨hkeep, hpolicy, -⟩ | ⟨-, -, heq⟩
    · rw [heq]
      cases c with
      | raw bs => exact .quiet rfl rfl rfl
      | flush ticket => exact .quiet rfl rfl rfl
      | record s =>
        dsimp only
        rw [countDelivery_eq]
        exact .quiet rfl rfl (warnings_countDelivery _ _)
    · obtain ⟨queue, notices, heq, halarm⟩ := alarm_overflow hkeep hpolicy
      rw [heq]
      exact halarm
    · rw [heq]
      exact .quiet rfl rfl rfl
  · refine .quiet rfl ?_ rfl
    unfold enqueue
    dsimp only
    split <;> rfl

theorem alarm_giveUp (a : Adapter) (i : Nat) : Alarm a.queue (a.notices (.giveUp i)) (a.step (.giveUp i)).queue := by
  simp only [notices, step]
  split
  · rename_i hmay
    unfold mayGiveUp at hmay
    unfold giveUp
    cases hi : a.queue.waiting[i]? with
    | none => exact .quiet rfl rfl rfl
    | some w =>
      obtain ⟨ticket, c⟩ := w
      rw [hi] at hmay
      dsimp only at hmay ⊢
      split
      · exact .quiet rfl rfl rfl
      · rename_i hline
        have htimed : a.queue.settings.policy.isTimed = true := by simpa [hline] using hmay
        have hpolicy : a.queue.settings.policy.alarms = true := by
          cases hp : a.queue.settings.policy with
          | blockFor timeout => rfl
          | dropNewest | block | alertAndDrop =>
            rw [hp] at htimed
            cases htimed
        exact alarm_alertAndDrop a.queue (a.queue.waiting.eraseIdx i) hpolicy
  · exact .quiet rfl rfl rfl

/-- Alerts go with discards. -/
theorem alerts_change {q q' : Queue} {new : List Mark} (hc : Change q new q')
    (h : new.any Mark.isDropped = false) : q'.alerts = q.alerts := by
  cases hc with
  | drop | giveUp => cases h
  | _ => rfl

theorem dropped_change {q q' : Queue} {new : List Mark} (hc : Change q new q') :
    q'.stats.dropped = q.stats.dropped + new.countP Mark.isDropped := by
  rw [stats_change hc, foldl_count]

/-- An event that discards nothing and prints no warning. -/
theorem alarm_of_quiet {a : Adapter} {e : Event} (hmarks : (a.marks e).any Mark.isDropped = false)
    (hnotices : (a.notices e).filter Notice.isWarning = []) : Alarm a.queue (a.notices e) (a.step e).queue := by
  have hchange := a.change_step e
  have hnone : (a.marks e).countP Mark.isDropped = 0 := by
    rw [List.countP_eq_zero]
    simpa using hmarks
  refine .quiet (alerts_change hchange hmarks) ?_ hnotices
  rw [dropped_change hchange, hnone, Nat.add_zero]

theorem alarm_step (a : Adapter) (e : Event) : Alarm a.queue (a.notices e) (a.step e).queue := by
  cases e with
  | log s p =>
    simp only [notices, step, log]
    split
    · exact a.alarm_offer _ _
    · exact .quiet rfl rfl rfl
  | write bs p => exact a.alarm_offer _ p
  | giveUp i => exact a.alarm_giveUp i
  | askFlush =>
    refine alarm_of_quiet ?_ rfl
    simp only [marks]
    split <;> rfl
  | enter i =>
    refine alarm_of_quiet ?_ rfl
    simp only [marks]
    split
    · split <;> rfl
    · rfl
  | take =>
    refine alarm_of_quiet ?_ rfl
    simp only [marks]
    split <;> rfl
  | finish o =>
    cases hworker : a.queue.worker with
    | busy c =>
      refine alarm_of_quiet ?_ ?_
      · simp only [marks, hworker]
        simp [List.any_map, Function.comp_def]
      · simp only [notices, hworker]
        cases c <;> cases o <;> rfl
    | idle | finished | dead =>
      refine alarm_of_quiet ?_ ?_
      · simp only [marks, hworker]
        rfl
      · simp only [notices, hworker]
        rfl
  | close =>
    refine alarm_of_quiet ?_ rfl
    simp [marks, List.any_map, Function.comp_def]
  | leave o =>
    refine alarm_of_quiet ?_ ?_
    · simp only [marks]
      split <;> rfl
    · simp only [notices]
      split
      · cases o <;> rfl
      · rfl
  | join timeout =>
    refine alarm_of_quiet rfl ?_
    simp only [notices, Queue.join]
    split
    · rfl
    · cases a.queue.worker <;> (dsimp only; split <;> rfl)
  | setLevel level => exact .quiet rfl rfl rfl

/-! ### Runs -/

/-- From one state of an adapter to another, these signals were given and these notices printed. -/
structure Sounds (a : Adapter) (signals : List Signal) (notices : List Notice) (b : Adapter) : Prop where
  settings : b.queue.settings = a.queue.settings
  alerts : b.queue.alerts = a.queue.alerts ++ signals.filterMap Signal.told?
  warnings : notices.filter Notice.isWarning = signals.filterMap Signal.notice?
  counts : a.queue.settings.policy.alarms = true →
    alertsUpTo a.queue.settings a.queue.stats.dropped ++ signals = alertsUpTo a.queue.settings b.queue.stats.dropped
  silence : a.queue.settings.policy.alarms = false → signals = []

theorem sounds_step (a : Adapter) (e : Event) : a.Sounds (a.signals e) (a.notices e) (a.step e) := by
  have hchange := a.change_step e
  have hsettings := settings_change hchange
  have hdropped := dropped_change hchange
  have hany : (a.marks e).countP Mark.isDropped = 0 ↔ (a.marks e).any Mark.isDropped = false := by simp
  cases a.alarm_step e with
  | quiet halerts hsame hnotices =>
    have hnone : a.signals e = [] := by
      have hmarks := hany.mp (by omega)
      simp [signals, hmarks]
    rw [hnone]
    exact ⟨hsettings, by simp [halerts], hnotices, fun _ => by simp [hsame], fun _ => rfl⟩
  | silent hpolicy halerts hnotices =>
    have hnone : a.signals e = [] := by simp [signals, hpolicy]
    rw [hnone]
    exact ⟨hsettings, by simp [halerts], hnotices, fun h => (Bool.false_ne_true (hpolicy ▸ h)).elim, fun _ => rfl⟩
  | alarm hpolicy hnext halerts hnotices =>
    have hsome : a.signals e = a.queue.drop.signals := by
      have hmarks : (a.marks e).any Mark.isDropped = true := by
        rw [← Bool.not_eq_false, ← hany]
        omega
      simp [signals, hpolicy, hmarks]
    rw [hsome]
    refine ⟨hsettings, halerts, hnotices, fun _ => ?_, fun h => (Bool.false_ne_true (h ▸ hpolicy)).elim⟩
    rw [hnext, alertsUpTo_succ]

theorem Sounds.trans {a b c : Adapter} {signals signals' : List Signal} {notices notices' : List Notice}
    (h : a.Sounds signals notices b) (h' : b.Sounds signals' notices' c) :
    a.Sounds (signals ++ signals') (notices ++ notices') c where
  settings := h'.settings.trans h.settings
  alerts := by rw [h'.alerts, h.alerts, List.filterMap_append, List.append_assoc]
  warnings := by rw [List.filter_append, h.warnings, h'.warnings, List.filterMap_append]
  counts hpolicy := by
    have hcounts := h'.counts (h.settings ▸ hpolicy)
    rw [h.settings] at hcounts
    rw [← List.append_assoc, h.counts hpolicy, hcounts]
  silence hpolicy := by rw [h.silence hpolicy, h'.silence (h.settings ▸ hpolicy), List.append_nil]

theorem sounds_run (a : Adapter) (events : List Event) :
    a.Sounds (a.signalled events) (a.printed events) (a.run events) := by
  induction events generalizing a with
  | nil => exact ⟨rfl, (List.append_nil _).symm, rfl, fun _ => List.append_nil _, fun _ => rfl⟩
  | cons e rest ih => exact (a.sounds_step e).trans (ih (a.step e))

/-! ### Summaries -/

theorem summary_join (q : Queue) (timeout : Duration) (h : q.joined = false) :
    (q.join timeout).2.2.filter Notice.isSummary =
      if 0 < q.stats.dropped then [.dropSummary q.settings.name q.stats.dropped q.stats.enqueued] else [] := by
  unfold Queue.join
  rw [h, if_neg Bool.false_ne_true]
  cases q.worker <;> (dsimp only; split <;> rfl)

theorem joined_of_mem (a : Adapter) {timeout : Duration} {events : List Event} (h : .join timeout ∈ events) :
    (a.run events).queue.joined = true := by
  obtain ⟨before, behind, rfl⟩ := List.append_of_mem h
  rw [run_append]
  exact joined_run (joined_join (a.run before).queue timeout) behind

/-- After any run the warnings and the calls of the listener are those that the discards so far ask for, each warning
before its call. Policies that raise no alerts never warn. Who first waits for the worker to end prints a summary if
there was a discard, and whoever does so later prints nothing. -/
theorem alerts_follow_drops (settings : QueueSettings) (formatter : FormatterId) (inner : SinkId)
    (events : List Event) :
    let a := (start settings formatter inner).run events
    let signals := (start settings formatter inner).signalled events
    let printed := (start settings formatter inner).printed events
    let d := (dropped ((start settings formatter inner).trace events)).length
    a.queue.alerts = signals.filterMap Signal.told? ∧
      printed.filter Notice.isWarning = signals.filterMap Signal.notice? ∧
      (settings.policy = .alertAndDrop ∨ (∃ timeout, settings.policy = .blockFor timeout) →
        signals = (alertCounts d).flatMap (fun m =>
          .warn (.queueFull settings.name m) :: if settings.hasListener then [.tell m] else []) ∧
        a.queue.alerts = (if settings.hasListener then alertCounts d else []) ∧
        printed.filter Notice.isWarning = (alertCounts d).map (.queueFull settings.name)) ∧
      (settings.policy = .dropNewest ∨ settings.policy = .block →
        a.queue.alerts = [] ∧ printed.filter Notice.isWarning = []) ∧
      ((∀ timeout, .join timeout ∉ events) → ∀ timeout, (a.notices (.join timeout)).filter Notice.isSummary =
        if 0 < d then [.dropSummary settings.name d a.queue.stats.enqueued] else []) ∧
      ((∃ timeout, .join timeout ∈ events) → ∀ timeout, a.notices (.join timeout) = []) ∧
      a.Reports := by
  intro a signals printed d
  have hsounds : (start settings formatter inner).Sounds signals printed a := sounds_run _ events
  have hsettings : a.queue.settings = settings := hsounds.settings
  have hd : a.queue.stats.dropped = d := by
    rw [(tally_run settings formatter inner events).stats, foldl_count, countP_isDropped]
    exact Nat.zero_add d
  refine ⟨hsounds.alerts, hsounds.warnings, ?_, ?_, ?_, ?_, a.reports⟩
  · intro hpolicy
    have halarms : settings.policy.alarms = true := by
      rcases hpolicy with h | ⟨timeout, h⟩ <;> rw [h] <;> rfl
    have hsignals : signals = alertsUpTo settings d := by
      rw [← hd]
      exact hsounds.counts halarms
    refine ⟨hsignals, ?_, ?_⟩
    · rw [hsounds.alerts, hsignals, told_alertsUpTo]
      rfl
    · rw [hsounds.warnings, hsignals, notices_alertsUpTo]
  · intro hpolicy
    have hnone : signals = [] := by
      apply hsounds.silence
      rcases hpolicy with h | h <;> exact h ▸ rfl
    exact ⟨hsounds.alerts.trans (by rw [hnone]; rfl), hsounds.warnings.trans (by rw [hnone]; rfl)⟩
  · intro hfirst timeout
    have hjoined : a.queue.joined = false := joined_run_of_none hfirst
    rw [← hd, ← hsettings]
    exact summary_join a.queue timeout hjoined
  · rintro ⟨timeout', hmem⟩ timeout
    have hjoined : a.queue.joined = true := joined_of_mem _ hmem
    simp only [notices, Queue.join, hjoined, if_true]

/-- One place, a listener, and callers that wait for a second. -/
def timed : QueueSettings := ⟨"queue", "memory", 1, .blockFor ⟨1, 0⟩, false, true⟩

/-- Two lines and a flush wait too long. -/
def impatient : List Event :=
  [.write [97] .empty, .write [98] .empty, .giveUp 0, .askFlush, .write [99] .empty, .giveUp 1, .giveUp 0]

theorem alerts_follow_drops_timed :
    ((start timed 0 0).run impatient).queue.alerts = [1] ∧
      ((start timed 0 0).printed impatient).filter Notice.isWarning = [.queueFull "queue" 1] ∧
      (((start timed 0 0).run impatient).notices (.join ⟨5, 0⟩)).filter Notice.isSummary =
        [.dropSummary "queue" 2 1] ∧
      ((start timed 0 0).run (impatient ++ [.join ⟨5, 0⟩])).notices (.join ⟨5, 0⟩) = [] := by
  have hd : (dropped ((start timed 0 0).trace impatient)).length = 2 := by decide +kernel
  have henqueued : ((start timed 0 0).run impatient).queue.stats.enqueued = 1 := by decide +kernel
  have hcounts : alertCounts 2 = [1] := by decide
  have hfirst : ∀ timeout, .join timeout ∉ impatient := by simp [impatient]
  obtain ⟨-, -, halarms, -, hsummary, -, -⟩ := alerts_follow_drops timed 0 0 impatient
  obtain ⟨-, -, -, -, -, hlater, -⟩ := alerts_follow_drops timed 0 0 (impatient ++ [.join ⟨5, 0⟩])
  obtain ⟨-, halerts, hwarnings⟩ := halarms (.inr ⟨⟨1, 0⟩, rfl⟩)
  have hsummary := hsummary hfirst ⟨5, 0⟩
  rw [hd, hcounts] at halerts hwarnings
  rw [hd, henqueued] at hsummary
  exact ⟨halerts, hwarnings, hsummary, hlater ⟨⟨5, 0⟩, by simp⟩ ⟨5, 0⟩⟩

end Adapter

end Logbook
