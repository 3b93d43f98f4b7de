import Logbook.Proofs.Backlog
import Logbook.Proofs.Delivery

/-!
# The detour over a queue

A logger that writes to a memory sink through an adapter leaves in it, once it is flushed, what it would have written
there directly.
-/

namespace Logbook

/-- The record that a logger makes of an entry, if its gate lets the entry pass and its clock can show the time. -/
def Logger.hears (logger : Logger) (e : Entry) : Option Record :=
  if logger.gate.passes e.severity then (e.record logger.localTime).toOption else none

theorem Logger.hears_congr {logger now : Logger} (h : World.SameSetup logger now) (e : Entry) :
    now.hears e = logger.hears e := by
  unfold hears
  rw [h.gate, h.clock]

theorem Logger.severity_of_hears {logger : Logger} {e : Entry} {record : Record} (h : logger.hears e = some record) :
    record.severity = e.severity := by
  unfold hears at h
  split at h
  · cases hrecord : e.record logger.localTime with
    | ok record' =>
      rw [hrecord] at h
      cases h
      exact (World.isShown_of_record hrecord).1
    | error p =>
      rw [hrecord] at h
      cases h
  · cases h

namespace Outlets

/-- The outlets after a record was logged on a sink, if there is one. -/
def hear (o : Outlets) (m : SinkId) : Option Record → Outlets
  | some r => (o.log false m r).2
  | none => o

end Outlets

namespace World

/-- The worker of one adapter takes some steps behind every call. -/
def steps (ad : AdapterId) (n : Nat) : Schedule := fun _ => List.replicate n ad

/-! ### Behind an adapter -/

/-- The inner sink of an adapter lags behind `target` by what is on its way. Loggers are as they were. -/
structure Trails (loggers : Table Logger) (ad : AdapterId) (r : Route) (target : Outlets) (held : List BufferId)
    (w : World) : Prop where
  loggers : w.loggers = loggers
  adapter : ∃ a, w.adapters.get? ad = some a ∧ a.Trails r target held w.plant

variable {loggers : Table Logger} {ad : AdapterId} {r : Route} {target target' : Outlets}
  {held held' : List BufferId} {w : World}

theorem Trails.withAdapter {α : Type} (h : w.Trails loggers ad r target held) (missing : α)
    {act : Adapter → Plant → α × Adapter × Plant}
    (hact : ∀ a, w.adapters.get? ad = some a → a.Trails r target held w.plant →
      (act a w.plant).2.1.Trails r target' held' (act a w.plant).2.2) :
    (w.withAdapter ad missing act).2.Trails loggers ad r target' held' := by
  obtain ⟨a, ha, htrails⟩ := h.adapter
  rw [withAdapter_of_some ha]
  refine ⟨h.loggers, (act a w.plant).2.1, ?_, hact a ha htrails⟩
  dsimp only
  rw [Table.get?_set, if_pos rfl, ha]
  rfl

theorem Trails.report (h : w.Trails loggers ad r target held) (n : Notice) :
    (w.report n).Trails loggers ad r target held := by
  obtain ⟨a, ha, htrails⟩ := h.adapter
  refine ⟨h.loggers, a, ha, htrails.route, htrails.queue, ?_⟩
  exact htrails.plant.congr htrails.plant.keeps (fun _ _ => rfl) (Outlets.agrees_report _ n)

theorem Trails.pace (h : w.Trails loggers ad r target held) (n : Nat) (sink : SinkRef) :
    ((steps ad n).pace sink w).Trails loggers ad r target held := by
  unfold Schedule.pace steps
  induction n generalizing w with
  | zero => exact h
  | succ n ih => exact ih (h.withAdapter () fun _ _ htrails => htrails.work)

theorem Trails.drainOne (h : w.Trails loggers ad r target held) : (w.drainOne ad).Trails loggers ad r target held :=
  h.withAdapter () fun _ _ htrails => htrails.drain.1

/-- Nobody gives up who has to wait without a limit. -/
theorem Trails.expire (h : w.Trails loggers ad r target held) (hpolicy : r.settings.policy = .block) :
    (w.expire (.queued ad)).1 = none ∧ (w.expire (.queued ad)).2.Trails loggers ad r target held := by
  have hexpire : ∀ (a : Adapter) (p : Plant), a.Trails r target held p → a.expire p = none := by
    intro a p htrails
    have hsettings : a.queue.settings.policy = .block := by
      rw [← hpolicy, ← htrails.route]
      rfl
    unfold Adapter.expire
    rw [hsettings]
  refine ⟨?_, ?_⟩
  · obtain ⟨a, ha, htrails⟩ := h.adapter
    unfold World.expire
    dsimp only
    rw [withAdapter_of_some ha]
    dsimp only
    rw [hexpire a w.plant htrails]
  · refine h.withAdapter none fun a _ htrails => ?_
    rw [hexpire a w.plant htrails]
    exact htrails

theorem Trails.await (h : w.Trails loggers ad r target held) (hpolicy : r.settings.policy = .block) (n : Nat)
    (sink : SinkRef) : (w.await ((steps ad n).pace sink) (.queued ad)).2.Trails loggers ad r target held := by
  have hlater := h.pace n sink
  unfold World.await
  cases hlast : w.lastTicket? (.queued ad) with
  | none => exact hlater
  | some last =>
    obtain ⟨id, ticket⟩ := last
    have hid : id = ad := by
      simp only [World.lastTicket?, Option.bind_eq_bind, Option.bind_eq_some_iff] at hlast
      obtain ⟨a, _, w', _, heq⟩ := hlast
      cases heq
      rfl
    subst hid
    dsimp only
    split
    · exact hlater
    · obtain ⟨hnone, hexpired⟩ := hlater.expire hpolicy
      split
      · rename_i hsome
        rw [hsome] at hnone
        cases hnone
      · rename_i hsome
        rw [hsome] at hexpired
        exact hexpired.drainOne

/-! ### Logging over a queue -/

/-- An offer to the adapter finds room, or waits for it. -/
def Admits (w : World) (ad : AdapterId) : Prop := ∀ a, w.adapters.get? ad = some a → a.Admits

section

variable {s : Snapshot}

theorem Trails.logSink (h : w.Trails loggers ad r target (s.buffer :: held))
    (hgate : r.gate.passes s.severity = true) (hadmits : w.Admits ad) :
    (w.logSink (.queued ad) s).2.Trails loggers ad r (target.log false r.inner (s.record w.plant.store)).2
        (s.buffer :: held) ∧
      ((w.logSink (.queued ad) s).1 = none → r.settings.policy = .block) := by
  have hlog : ∀ a, w.adapters.get? ad = some a → a.Trails r target (s.buffer :: held) w.plant →
      (a.log s w.plant).2.1.Trails r (target.log false r.inner (s.record w.plant.store)).2 (s.buffer :: held)
        (a.log s w.plant).2.2 ∧ ((a.log s w.plant).1 = none → r.settings.policy = .block) := by
    intro a ha htrails
    have hpasses : a.gate.passes s.severity = true := by
      rw [← htrails.route] at hgate
      exact hgate
    exact htrails.log hpasses (hadmits a ha)
  refine ⟨h.withAdapter (some Outcome.done) fun a ha htrails => (hlog a ha htrails).1, ?_⟩
  obtain ⟨a, ha, htrails⟩ := h.adapter
  unfold World.logSink
  dsimp only
  rw [withAdapter_of_some ha]
  exact (hlog a ha htrails).2

/-- A record that does not pass the adapter's gate goes nowhere. -/
theorem Trails.logSink_of_below (h : w.Trails loggers ad r target held) (hgate : r.gate.passes s.severity = false) :
    (w.logSink (.queued ad) s).1 = some .done ∧ (w.logSink (.queued ad) s).2.Trails loggers ad r target held := by
  have hlog : ∀ (a : Adapter), a.Trails r target held w.plant → a.log s w.plant = (some .done, a, w.plant) := by
    intro a htrails
    have hbelow : a.gate.passes s.severity = false := by
      rw [← htrails.route] at hgate
      exact hgate
    unfold Adapter.log
    rw [hbelow]
    rfl
  refine ⟨?_, h.withAdapter (some Outcome.done) fun a _ htrails => ?_⟩
  · obtain ⟨a, ha, htrails⟩ := h.adapter
    unfold World.logSink
    dsimp only
    rw [withAdapter_of_some ha, hlog a htrails]
  · rw [hlog a htrails]
    exact htrails

/-- The record that goes on its way when a snapshot is logged. -/
def passed (gate : Gate) (record : Record) : Option Record := if gate.passes record.severity then some record else none

theorem hears_bind_passed (logger : Logger) (gate : Gate) (e : Entry) :
    (logger.hears e).bind (passed gate) = if gate.passes e.severity then logger.hears e else none := by
  cases hrecord : logger.hears e with
  | none => split <;> rfl
  | some record =>
    unfold passed
    rw [← Logger.severity_of_hears hrecord]
    rfl

theorem Trails.call (h : w.Trails loggers ad r target (s.buffer :: held))
    (hadmits : r.gate.passes s.severity = true → w.Admits ad) (n : Nat) :
    ((logDesk (steps ad n).pace s).call (.queued ad) w).2.Trails loggers ad r
      (target.hear r.inner (passed r.gate (s.record w.plant.store))) (s.buffer :: held) := by
  unfold logDesk
  dsimp only
  by_cases hgate : r.gate.passes s.severity = true
  · have hpassed : passed r.gate (s.record w.plant.store) = some (s.record w.plant.store) := if_pos hgate
    rw [hpassed]
    obtain ⟨hlater, hwaits⟩ := h.logSink hgate (hadmits hgate)
    split
    · rename_i hlog
      rw [hlog] at hlater
      exact hlater.pace n _
    · rename_i hlog
      rw [hlog] at hlater hwaits
      exact hlater.await (hwaits rfl) n _
  · have hpassed : passed r.gate (s.record w.plant.store) = none := if_neg hgate
    rw [hpassed]
    rw [Bool.not_eq_true] at hgate
    obtain ⟨hdone, hlater⟩ := h.logSink_of_below hgate
    split
    · rename_i hlog
      rw [hlog] at hlater
      exact hlater.pace n _
    · rename_i hlog
      rw [hlog] at hdone
      cases hdone

end

/-- A logger with one sink calls it, and reports at most. -/
theorem fanOut_one {P : World → Prop} (desk : Logger.Desk World) (hreport : ∀ w n, P w → P (desk.report n w))
    (sink : SinkRef) (hcall : P (desk.call sink w).2) (name : String) : P (Logger.fanOut desk name [sink] w).2 := by
  unfold Logger.fanOut
  dsimp only
  split
  · exact hcall
  · exact hreport _ _ hcall

theorem Trails.setStore (h : w.Trails loggers ad r target held) {store : Store}
    (hstore : ∀ bs, w.plant.store.Keeps (held ++ bs) →
      store.Keeps (held' ++ bs) ∧ ∀ b ∈ bs, store.bytes b = w.plant.store.bytes b) :
    (w.setStore store).Trails loggers ad r target held' := by
  obtain ⟨a, ha, htrails⟩ := h.adapter
  obtain ⟨hkeeps, hbytes⟩ := hstore _ htrails.plant.keeps
  exact ⟨h.loggers, a, ha, htrails.route, htrails.queue, htrails.plant.congr hkeeps hbytes (Outlets.agrees_refl _)⟩

theorem Trails.modifyLogger (h : w.Trails loggers ad r target held) (l : LoggerId) (f : Logger → Logger) :
    (w.modifyLogger l f).Trails (loggers.modify l f) ad r target held :=
  ⟨congrArg (Table.modify · l f) h.loggers, h.adapter⟩

variable {l : LoggerId} {logger : Logger}

theorem Trails.dispatch {s : Snapshot} (h : w.Trails loggers ad r target (s.buffer :: held))
    (hl : loggers.get? l = some logger) (hsinks : logger.sinks = [.queued ad])
    (hadmits : r.gate.passes s.severity = true → w.Admits ad) (n : Nat) :
    ∃ failures, (w.dispatch (steps ad n).pace l s).Trails (loggers.modify l (·.countDispatch failures)) ad r
      (target.hear r.inner (passed r.gate (s.record w.plant.store))) (s.buffer :: held) := by
  have hfan := fanOut_one (P := World.Trails loggers ad r _ (s.buffer :: held)) (logDesk (steps ad n).pace s)
    (fun _ n h => h.report n) (.queued ad) (h.call hadmits n) logger.name
  unfold World.dispatch
  rw [h.loggers, hl]
  dsimp only
  rw [hsinks]
  exact ⟨_, hfan.modifyLogger l _⟩

/-- The logger of a number is set up as `logger` is. -/
def Stands (loggers : Table Logger) (l : LoggerId) (logger : Logger) : Prop :=
  ∃ now, loggers.get? l = some now ∧ SameSetup logger now

theorem stands_modify {f : Logger → Logger} (hf : ∀ x, SameSetup x (f x)) (hl : loggers.get? l = some logger) :
    Stands (loggers.modify l f) l logger := by
  refine ⟨f logger, ?_, hf logger⟩
  rw [Table.get?_modify, if_pos rfl, hl]
  rfl

theorem Stands.trans {now : Logger} (h : Stands loggers l now) (hsame : SameSetup logger now) :
    Stands loggers l logger := by
  obtain ⟨later, hlater, hsame'⟩ := h
  exact ⟨later, hlater, hsame'.gate.trans hsame.gate, hsame'.sinks.trans hsame.sinks, hsame'.clock.trans hsame.clock⟩

/-- An entry that a logger hears goes on its way, if it passes the adapter's gate. -/
theorem Trails.logEntry (h : w.Trails loggers ad r target []) (hl : loggers.get? l = some logger)
    (hsinks : logger.sinks = [.queued ad]) (e : Entry) (n : Nat)
    (hadmits : ∀ record, logger.hears e = some record → r.gate.passes e.severity = true → w.Admits ad) :
    ∃ loggers', Stands loggers' l logger ∧
      (w.log (steps ad n).pace l e).2.Trails loggers' ad r
        (target.hear r.inner ((logger.hears e).bind (passed r.gate))) [] := by
  unfold World.log
  rw [h.loggers, hl]
  dsimp only
  by_cases hgate : logger.gate.passes e.severity = true
  · have hhears : logger.hears e = (e.record logger.localTime).toOption := if_pos hgate
    rw [if_pos hgate]
    have hgrown := Snapshot.capture_grown e logger.localTime Timestamp.localOffset logger.factory w.plant.store
    rcases Snapshot.capture_cases e logger.localTime Timestamp.localOffset logger.factory w.plant.store with
      ⟨s, store, hcapture, hrecord⟩ | ⟨p, store, hcapture, hrecord⟩
    · rw [hcapture] at hgrown ⊢
      obtain ⟨hgrown, hnew⟩ := hgrown
      obtain ⟨hnext, hrefs⟩ := hnew s rfl
      rw [hrecord] at hhears
      have hseverity : s.severity = e.severity := (isShown_of_record hrecord).1
      have hcaptured : (w.setStore store).Trails loggers ad r target [s.buffer] :=
        h.setStore fun bs hbs => ⟨hgrown.keeps_cons hbs hnext hrefs, fun b hb => hgrown.bytes_eq hbs hb⟩
      obtain ⟨failures, hlater⟩ := hcaptured.dispatch hl hsinks
        (fun hpasses => hadmits _ hhears (hseverity ▸ hpasses)) n
      refine ⟨_, stands_modify (sameSetup_countDispatch failures) hl, ?_⟩
      rw [hhears]
      exact hlater.setStore fun bs hbs => ⟨hbs.release, fun b hb => hbs.bytes_release hb⟩
    · rw [hcapture] at hgrown ⊢
      obtain ⟨hgrown, _⟩ := hgrown
      rw [hrecord] at hhears
      refine ⟨loggers, ⟨logger, hl, sameSetup_refl logger⟩, ?_⟩
      rw [hhears]
      exact h.setStore fun bs hbs => ⟨hgrown.keeps hbs, fun b hb => hgrown.bytes_eq hbs hb⟩
  · have hhears : logger.hears e = none := if_neg hgate
    rw [if_neg hgate, hhears]
    exact ⟨_, stands_modify sameSetup_recordFiltered hl, h.modifyLogger l _⟩

/-! ### Logging directly -/

section

variable (ad) {m : SinkId} (hl : w.loggers.get? l = some logger) (hsinks : logger.sinks = [.direct m])
  (hm : w.plant.outlets.IsMemory m)
include hl hsinks hm

theorem dispatch_direct (s : Snapshot) :
    Stands (w.dispatch (steps ad 0).pace l s).loggers l logger ∧
      Outlets.Agrees (w.plant.outlets.log false m (s.record w.plant.store)).2
        (w.dispatch (steps ad 0).pace l s).plant.outlets := by
  obtain ⟨o, ho⟩ := hm.log_returns false (s.record w.plant.store)
  have hcall : (logDesk (steps ad 0).pace s).call (.direct m) w =
      (o, w.setOutlets (w.plant.outlets.log false m (s.record w.plant.store)).2) := by
    have hlog : w.logSink (.direct m) s =
        (some o, w.setOutlets (w.plant.outlets.log false m (s.record w.plant.store)).2) := by
      rw [← ho]
      rfl
    unfold logDesk
    dsimp only
    rw [hlog]
    rfl
  have hfan := fanOut_one (P := fun w' => w'.loggers = w.loggers ∧
      Outlets.Agrees (w.plant.outlets.log false m (s.record w.plant.store)).2 w'.plant.outlets)
    (logDesk (steps ad 0).pace s) (fun w' n h => ⟨h.1, h.2.trans (Outlets.agrees_report _ n)⟩) (.direct m)
    (by rw [hcall]; exact ⟨rfl, Outlets.agrees_refl _⟩) logger.name
  unfold World.dispatch
  rw [hl]
  dsimp only
  rw [hsinks]
  refine ⟨?_, hfan.2⟩
  refine stands_modify (sameSetup_countDispatch _) ?_
  rw [hfan.1]
  exact hl

/-- An entry that a logger hears is logged on the sink. -/
theorem log_direct (e : Entry) :
    Stands (w.log (steps ad 0).pace l e).2.loggers l logger ∧
      Outlets.Agrees (w.plant.outlets.hear m (logger.hears e)) (w.log (steps ad 0).pace l e).2.plant.outlets := by
  unfold World.log
  rw [hl]
  dsimp only
  by_cases hgate : logger.gate.passes e.severity = true
  · have hhears : logger.hears e = (e.record logger.localTime).toOption := if_pos hgate
    rw [if_pos hgate]
    rcases Snapshot.capture_cases e logger.localTime Timestamp.localOffset logger.factory w.plant.store with
      ⟨s, store, hcapture, hrecord⟩ | ⟨p, store, hcapture, hrecord⟩
    · rw [hrecord] at hhears
      rw [hcapture, hhears]
      exact dispatch_direct ad (w := w.setStore store) hl hsinks hm s
    · rw [hrecord] at hhears
      rw [hcapture, hhears]
      exact ⟨⟨logger, hl, sameSetup_refl logger⟩, Outlets.agrees_refl _⟩
  · have hhears : logger.hears e = none := if_neg hgate
    rw [if_neg hgate, hhears]
    exact ⟨stands_modify sameSetup_recordFiltered hl, Outlets.agrees_refl _⟩

end

/-! ### Side by side -/

/-- A logger that writes over an adapter, and one like it that writes to the inner sink directly. -/
structure Abreast (l : LoggerId) (logger : Logger) (ad : AdapterId) (r : Route) (w d : World) : Prop where
  trails : w.Trails w.loggers ad r d.plant.outlets []
  queued : Stands w.loggers l { logger with sinks := [.queued ad] }
  direct : Stands d.loggers l { logger with sinks := [.direct r.inner] }

/-- An entry reaches the adapter and finds the queue full. -/
def Overflows (w : World) (l : LoggerId) (ad : AdapterId) (e : Entry) : Prop :=
  ∃ logger a, w.loggers.get? l = some logger ∧ w.adapters.get? ad = some a ∧ (logger.hears e).isSome = true ∧
    a.gate.passes e.severity = true ∧ a.queue.isFull = true

/-- Entries are logged in order, with a number of steps of the worker behind each, and none overflows. -/
def NeverOverflows (w : World) (l : LoggerId) (ad : AdapterId) : List (Entry × Nat) → Prop
  | [] => True
  | (e, n) :: rest => ¬ w.Overflows l ad e ∧ (w.log (steps ad n).pace l e).2.NeverOverflows l ad rest

theorem Trails.target_congr (h : w.Trails loggers ad r target held) (hagrees : Outlets.Agrees target target') :
    w.Trails loggers ad r target' held := by
  obtain ⟨a, ha, htrails⟩ := h.adapter
  exact ⟨h.loggers, a, ha, htrails.route, htrails.queue, htrails.plant.memory, htrails.plant.keeps,
    hagrees.symm.trans htrails.plant.target⟩

/-- The inner sink seen from the target is a memory sink too. -/
theorem Trails.isMemory (h : w.Trails loggers ad r target held) : target.IsMemory r.inner := by
  obtain ⟨a, _, htrails⟩ := h.adapter
  exact (htrails.plant.memory.replay _).congr htrails.plant.target.symm

theorem Abreast.log {d : World} (h : Abreast l logger ad r w d) (e : Entry) (n : Nat)
    (hroom : (r.settings.policy = .block ∧ r.settings.preserveCritical = false) ∨ ¬ w.Overflows l ad e) :
    Abreast l logger ad r (w.log (steps ad n).pace l e).2
      (if r.gate.passes e.severity then (d.log (steps ad 0).pace l e).2 else d) := by
  obtain ⟨now, hl, hsame⟩ := h.queued
  obtain ⟨other, hother, hsame'⟩ := h.direct
  have hadmits : ∀ record, now.hears e = some record → r.gate.passes e.severity = true → w.Admits ad := by
    intro record hhears hpasses a ha
    obtain ⟨a', ha', htrails⟩ := h.trails.adapter
    cases ha.symm.trans ha'
    rw [← htrails.route] at hroom hpasses
    rcases hroom with hroom | hroom
    · exact .inl hroom
    · refine .inr ?_
      cases hfull : a.queue.isFull with
      | false => rfl
      | true => exact absurd ⟨now, a, hl, ha, by rw [hhears]; rfl, hpasses, hfull⟩ hroom
  obtain ⟨loggers', hstands, hlater⟩ := h.trails.logEntry hl hsame.sinks e n hadmits
  rw [hears_bind_passed, Logger.hears_congr hsame] at hlater
  have hloggers := hlater.loggers
  subst hloggers
  by_cases hpasses : r.gate.passes e.severity = true
  -- a record that the adapter turns away is not logged on the other side either
  · obtain ⟨hdirect, hagrees⟩ := log_direct ad hother hsame'.sinks h.trails.isMemory e
    rw [Logger.hears_congr hsame'] at hagrees
    rw [if_pos hpasses] at hlater ⊢
    exact ⟨hlater.target_congr hagrees, hstands.trans hsame, hdirect.trans hsame'⟩
  · rw [if_neg hpasses] at hlater ⊢
    exact ⟨hlater, hstands.trans hsame, h.direct⟩

/-- Entries logged over the adapter, and those of them that pass its gate logged directly. -/
theorem Abreast.logAll {d : World} (h : Abreast l logger ad r w d) (turns : List (Entry × Nat))
    (hroom : (r.settings.policy = .block ∧ r.settings.preserveCritical = false) ∨ w.NeverOverflows l ad turns) :
    Abreast l logger ad r (w.performAll (turns.map fun turn => .log l turn.1 (steps ad turn.2)))
      (d.performAll (((turns.map (·.1)).filter (r.gate.passes ·.severity)).map fun e => .log l e (steps ad 0))) := by
  induction turns generalizing w d with
  | nil => exact h
  | cons turn rest ih =>
    obtain ⟨e, n⟩ := turn
    have hlater := h.log e n (hroom.imp_right fun hnever => hnever.1)
    have hrest := ih hlater (hroom.imp_right fun hnever => hnever.2)
    by_cases hpasses : r.gate.passes e.severity = true
    · rw [if_pos hpasses] at hrest
      rw [List.map_cons, List.map_cons,
        List.filter_cons_of_pos (p := fun e : Entry => r.gate.passes e.severity) hpasses]
      exact hrest
    · rw [if_neg hpasses] at hrest
      rw [List.map_cons, List.map_cons,
        List.filter_cons_of_neg (p := fun e : Entry => r.gate.passes e.severity) hpasses]
      exact hrest

/-- After a flush the inner sink has caught up. -/
theorem Abreast.flush {d : World} (h : Abreast l logger ad r w d) :
    (w.flushLogger l).1 = .done ∧ Outlets.Agrees d.plant.outlets (w.flushLogger l).2.plant.outlets := by
  obtain ⟨now, hl, hsame⟩ := h.queued
  obtain ⟨a, ha, htrails⟩ := h.trails.adapter
  obtain ⟨hdone, hlater, hnone⟩ := htrails.flush
  have hcall : flushDesk.call (.queued ad) w =
      (.done, { w with
        plant := (a.flush Adapter.drain w.plant).2.2
        adapters := w.adapters.set ad (a.flush Adapter.drain w.plant).2.1 }) := by
    unfold flushDesk World.flushSink
    dsimp only
    rw [withAdapter_of_some ha, hdone]
  have hflush : w.flushLogger l = flushDesk.call (.queued ad) w := by
    unfold World.flushLogger
    rw [hl]
    dsimp only
    rw [hsame.sinks]
    unfold Logger.flushAll
    rw [hcall]
    rfl
  have hplant := hlater.plant
  rw [hnone] at hplant
  rw [hflush, hcall]
  exact ⟨rfl, hplant.target⟩

/-- What a logger has written to a memory sink over an adapter, with the worker's steps at any points, is there after
a flush, as if the logger had written the entries that pass the adapter's gate to the sink directly. -/
theorem flushed_eq_direct (w : World) (l : LoggerId) (ad : AdapterId) (m : SinkId) {logger : Logger} {gate : Gate}
    {formatter : FormatterId} {settings : QueueSettings} (hl : w.loggers.get? l = some logger)
    (hsinks : logger.sinks = [.queued ad])
    (ha : w.adapters.get? ad = some ⟨gate, formatter, m, .ofSettings settings⟩)
    (hm : (w.plant.outlets.memory? m).isSome = true) (turns : List (Entry × Nat))
    (hroom : (settings.policy = .block ∧ settings.preserveCritical = false) ∨ w.NeverOverflows l ad turns) :
    let queued := w.performAll (turns.map fun turn => .log l turn.1 (steps ad turn.2))
    let direct := (w.modifyLogger l ({ · with sinks := [.direct m] })).performAll
      (((turns.map (·.1)).filter (gate.passes ·.severity)).map fun e => .log l e (steps ad 0))
    (queued.flushLogger l).1 = .done ∧
      ∃ bytes, (queued.flushLogger l).2.plant.outlets.memory? m = some bytes ∧
        direct.plant.outlets.memory? m = some bytes := by
  intro queued direct
  have hstart : Abreast l logger ad ⟨gate, m, settings⟩ w (w.modifyLogger l ({ · with sinks := [.direct m] })) := by
    have hready : (Queue.ofSettings settings).Ready :=
      ⟨rfl, rfl, fun h => absurd rfl h, fun _ => List.not_mem_nil, fun _ h => absurd h List.not_mem_nil⟩
    have hlags : w.plant.Lags m w.plant.outlets [] [] :=
      ⟨Outlets.isMemory_iff.mpr hm, fun _ => Nat.zero_le _, Outlets.agrees_refl _⟩
    have hdirect : (w.modifyLogger l ({ · with sinks := [.direct m] })).loggers.get? l =
        some { logger with sinks := [.direct m] } := by
      unfold World.modifyLogger
      dsimp only
      rw [Table.get?_modify, if_pos rfl, hl]
      rfl
    exact ⟨⟨rfl, _, ha, rfl, hready, hlags⟩, ⟨logger, hl, rfl, hsinks, rfl⟩, ⟨_, hdirect, sameSetup_refl _⟩⟩
  have hlater := hstart.logAll turns hroom
  obtain ⟨hdone, hagrees⟩ := hlater.flush
  obtain ⟨bytes, hbytes⟩ := Option.isSome_iff_exists.mp (Outlets.isMemory_iff.mp hlater.trails.isMemory)
  exact ⟨hdone, bytes, (hagrees.memory?_eq m).trans hbytes, hbytes⟩

/-- A logger that writes over an adapter of level `info` with room for one command. -/
def narrow : World :=
  let outlets := (Outlets.empty.addFormatter (.ofLayout (.pipeline [.fixed [62], .path 1]))).2
  let outlets := (outlets.addSink "memory" (.memory .empty)).2.setFormatter 0 0
  let adapter : Adapter := ⟨⟨.info⟩, 0, 0, .ofSettings ⟨"queue", "memory", 1, .block, false, false⟩⟩
  ⟨⟨.empty, outlets⟩, Table.empty.push adapter,
    Table.empty.push ⟨"narrow", ⟨.trace⟩, [.queued 0], 0, false, false, .zero⟩, .empty⟩

/- The entry of level `debug` does not pass the adapter's gate. The last two find the queue full: the worker goes
through all of it for the first of them, and takes one step for the other. -/
theorem flushed_narrow :
    let entry (severity : Severity) (file : UInt8) : Entry := ⟨severity, [], [file], [], [], .epoch⟩
    let turns := [(entry .warn 97, 0), (entry .debug 98, 0), (entry .error 99, 0), (entry .info 100, 0),
      (entry .warn 101, 1)]
    ((narrow.performAll (turns.map fun turn => .log 0 turn.1 (steps 0 turn.2))).flushLogger 0).1 = .done ∧
      ((narrow.performAll (turns.map fun turn => .log 0 turn.1 (steps 0 turn.2))).flushLogger 0).2.plant.outlets.memory?
        0 = some [62, 97, 62, 99, 62, 100, 62, 101] := by
  intro entry turns
  obtain ⟨hdone, bytes, hqueued, hdirect⟩ :=
    flushed_eq_direct narrow 0 0 0 rfl rfl rfl rfl turns (.inl ⟨rfl, rfl⟩)
  have hwritten : ((narrow.modifyLogger 0 ({ · with sinks := [.direct 0] })).performAll
      (((turns.map (·.1)).filter ((⟨.info⟩ : Gate).passes ·.severity)).map
        fun e => .log 0 e (steps 0 0))).plant.outlets.memory? 0 =
          some [62, 97, 62, 99, 62, 100, 62, 101] := by decide +kernel
  have hbytes : bytes = [62, 97, 62, 99, 62, 100, 62, 101] := Option.some.inj (hdirect.symm.trans hwritten)
  subst hbytes
  exact ⟨hdone, hqueued⟩

end World

end Logbook
