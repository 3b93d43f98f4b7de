import Logbook.Proofs.Callers
import Logbook.Proofs.Roster

/-!
# A call that nobody gets in the way of

A caller goes through its call while workers go on behind it, and nobody else acts. As long as no worker keeps it in
line for good, it does to the world what the call does as a whole, for every schedule of the workers.
-/

namespace Logbook

def Logger.addFailures (n : Nat) (x : Logger) : Logger :=
  { x with metrics := { x.metrics with failures := x.metrics.failures + n } }

theorem Logger.addFailures_countFailure (n : Nat) (x : Logger) :
    x.countFailure.addFailures n = x.addFailures (n + 1) := by
  unfold addFailures countFailure Metrics.countFailure
  dsimp only
  rw [Nat.add_assoc, Nat.add_comm 1 n]

/-! ### Sinks and workers do not look at loggers -/

namespace World

def withLoggers (w : World) (loggers : Table Logger) : World := { w with loggers := loggers }

section

variable (loggers : Table Logger) (w : World)

theorem withAdapter_withLoggers {α : Type} (id : AdapterId) (missing : α)
    (act : Adapter → Plant → α × Adapter × Plant) :
    (w.withLoggers loggers).withAdapter id missing act =
      ((w.withAdapter id missing act).1, (w.withAdapter id missing act).2.withLoggers loggers) := by
  have hadapters : (w.withLoggers loggers).adapters = w.adapters := rfl
  unfold withAdapter
  rw [hadapters]
  cases w.adapters.get? id <;> rfl

theorem logSink_withLoggers (sink : SinkRef) (s : Snapshot) :
    (w.withLoggers loggers).logSink sink s = ((w.logSink sink s).1, (w.logSink sink s).2.withLoggers loggers) := by
  cases sink with
  | direct id => rfl
  | queued id =>
    unfold logSink
    exact withAdapter_withLoggers loggers w id _ _

theorem work_withLoggers (id : AdapterId) : (w.withLoggers loggers).work id = (w.work id).withLoggers loggers :=
  congrArg Prod.snd (withAdapter_withLoggers loggers w id _ _)

theorem pace_withLoggers (schedule : Schedule) (sink : SinkRef) :
    schedule.pace sink (w.withLoggers loggers) = (schedule.pace sink w).withLoggers loggers := by
  unfold Schedule.pace
  induction schedule sink generalizing w with
  | nil => rfl
  | cons id rest ih =>
    rw [List.foldl_cons, List.foldl_cons, work_withLoggers]
    exact ih (w.work id)

theorem expire_withLoggers (sink : SinkRef) :
    (w.withLoggers loggers).expire sink = ((w.expire sink).1, (w.expire sink).2.withLoggers loggers) := by
  cases sink with
  | direct id => rfl
  | queued id =>
    unfold expire
    exact withAdapter_withLoggers loggers w id _ _

theorem drainOne_withLoggers (id : AdapterId) :
    (w.withLoggers loggers).drainOne id = (w.drainOne id).withLoggers loggers :=
  congrArg Prod.snd (withAdapter_withLoggers loggers w id _ _)

theorem await_withLoggers (schedule : Schedule) (sink : SinkRef) :
    (w.withLoggers loggers).await (schedule.pace sink) sink =
      ((w.await (schedule.pace sink) sink).1, (w.await (schedule.pace sink) sink).2.withLoggers loggers) := by
  have hticket : (w.withLoggers loggers).lastTicket? sink = w.lastTicket? sink := rfl
  have hanswer : ∀ (v : World) id ticket, (v.withLoggers loggers).answer? id ticket = v.answer? id ticket :=
    fun _ _ _ => rfl
  unfold await
  rw [hticket]
  cases w.lastTicket? sink with
  | none => simp only [pace_withLoggers]
  | some x =>
    obtain ⟨id, ticket⟩ := x
    dsimp only
    rw [pace_withLoggers, hanswer, expire_withLoggers]
    cases (schedule.pace sink w).answer? id ticket with
    | some o => rfl
    | none =>
      cases (schedule.pace sink w).expire sink with
      | mk outcome v =>
        cases outcome with
        | some o => rfl
        | none => simp only [drainOne_withLoggers, hanswer]

theorem call_withLoggers (schedule : Schedule) (s : Snapshot) (sink : SinkRef) :
    (logDesk schedule.pace s).call sink (w.withLoggers loggers) =
      (((logDesk schedule.pace s).call sink w).1, ((logDesk schedule.pace s).call sink w).2.withLoggers loggers) := by
  unfold logDesk
  dsimp only
  rw [logSink_withLoggers]
  cases w.logSink sink s with
  | mk outcome v =>
    cases outcome with
    | some o => simp only [pace_withLoggers]
    | none => exact await_withLoggers loggers v schedule sink

theorem fanOut_withLoggers (schedule : Schedule) (s : Snapshot) (name : String) (sinks : List SinkRef) :
    Logger.fanOut (logDesk schedule.pace s) name sinks (w.withLoggers loggers) =
      ((Logger.fanOut (logDesk schedule.pace s) name sinks w).1,
        (Logger.fanOut (logDesk schedule.pace s) name sinks w).2.withLoggers loggers) := by
  induction sinks generalizing w with
  | nil => rfl
  | cons sink rest ih =>
    rw [Logger.fanOut, Logger.fanOut, call_withLoggers]
    have hname : ∀ v : World, (logDesk schedule.pace s).nameOf sink (v.withLoggers loggers) =
        (logDesk schedule.pace s).nameOf sink v := fun _ => by cases sink <;> rfl
    dsimp only
    rw [hname]
    cases Logger.notice? name ((logDesk schedule.pace s).nameOf sink ((logDesk schedule.pace s).call sink w).2)
        ((logDesk schedule.pace s).call sink w).1 with
    | none => exact ih _
    | some n =>
      have hrest := ih (((logDesk schedule.pace s).call sink w).2.report n)
      exact congrArg (fun r => (r.1 + 1, r.2)) hrest

end

/- A failure that was counted before the others is one more of them. -/
theorem addFailures_counted {w v : World} (h : v.loggers = w.loggers) {l : LoggerId} {n : Nat} :
    (v.withLoggers (w.loggers.modify l (·.countFailure))).modifyLogger l (·.addFailures n) =
      v.modifyLogger l (·.addFailures (n + 1)) := by
  unfold modifyLogger withLoggers
  simp only [Table.modify_modify, Logger.addFailures_countFailure, h]

theorem queued_of_lastTicket {w : World} {sink : SinkRef} {id : AdapterId} {ticket : Nat}
    (h : w.lastTicket? sink = some (id, ticket)) : sink = .queued id := by
  cases sink with
  | direct id' => cases h
  | queued id' =>
    simp only [lastTicket?, Option.bind_eq_bind, Option.bind_eq_some_iff] at h
    obtain ⟨a, -, x, -, hx⟩ := h
    cases hx
    rfl

theorem answers_giveUp (q : Queue) (i : Nat) : (q.giveUp i).1.answers = q.answers := by
  unfold Queue.giveUp
  split
  · rfl
  · dsimp only [Queue.alertAndDrop]
    split <;> rfl

/- Whoever gives up has no answer. -/
theorem expire_some {w v : World} {id : AdapterId} {o : Outcome} (h : w.expire (.queued id) = (some o, v))
    (ticket : Nat) :
    o = .done ∧ v.answer? id ticket = w.answer? id ticket := by
  unfold expire at h
  cases ha : w.adapters.get? id with
  | none =>
    simp only [withAdapter, ha] at h
    cases h
  | some a =>
    dsimp only at h
    rw [withAdapter_of_some ha] at h
    cases hexpire : a.expire w.plant with
    | none =>
      rw [hexpire] at h
      cases h
    | some r =>
      obtain ⟨b, p⟩ := r
      rw [hexpire] at h
      cases h
      have hanswers : b.queue.answers = a.queue.answers := by
        unfold Adapter.expire at hexpire
        split at hexpire
        · cases hexpire
          exact answers_giveUp _ _
        · cases hexpire
      refine ⟨rfl, ?_⟩
      unfold answer?
      dsimp only
      rw [Table.get?_set, if_pos rfl, ha]
      exact congrArg (List.lookup ticket) hanswers

theorem fanOut_of_call {pace : Pace} {s : Snapshot} {sink : SinkRef} {w after : World} {o : Outcome}
    (hcall : (logDesk pace s).call sink w = (o, after)) (name : String) (rest : List SinkRef) :
    Logger.fanOut (logDesk pace s) name (sink :: rest) w =
      match Logger.notice? name (after.sinkName sink) o with
      | none => Logger.fanOut (logDesk pace s) name rest after
      | some n => ((Logger.fanOut (logDesk pace s) name rest (after.report n)).1 + 1,
          (Logger.fanOut (logDesk pace s) name rest (after.report n)).2) := by
  rw [Logger.fanOut, hcall]
  rfl

/-! ### Callers that stay in line -/

/-- Does the call of a sink leave its caller in line? -/
def strands (pace : Pace) (s : Snapshot) (sink : SinkRef) (w : World) : Bool :=
  match w.logSink sink s with
  | (some _, _) => false
  | (none, after) => (after.lastTicket? sink).any fun x => ((logDesk pace s).call sink w).2.inLine x.1 x.2

def strandsAny (pace : Pace) (s : Snapshot) (name : String) : List SinkRef → World → Bool
  | [], _ => false
  | sink :: rest, w =>
    w.strands pace s sink || strandsAny pace s name rest (Logger.fanOut (logDesk pace s) name [sink] w).2

/-- Does a call of a logger leave its caller in line before one of the sinks? -/
def holdsUp (w : World) (pace : Pace) (l : LoggerId) (e : Entry) : Bool :=
  (w.loggers.get? l).any fun logger =>
    match Snapshot.capture e logger.localTime (·.acquire logger.factory) w.plant.store with
    | (.ok s, store) => strandsAny pace s logger.name logger.sinks (w.setStore store)
    | (.error _, _) => false

theorem strands_withLoggers (schedule : Schedule) (s : Snapshot) (sink : SinkRef) (loggers : Table Logger) (w : World) :
    (w.withLoggers loggers).strands schedule.pace s sink = w.strands schedule.pace s sink := by
  unfold strands
  rw [logSink_withLoggers, call_withLoggers]
  cases w.logSink sink s with
  | mk outcome v => cases outcome <;> rfl

theorem strandsAny_withLoggers (schedule : Schedule) (s : Snapshot) (name : String) (sinks : List SinkRef)
    (loggers : Table Logger) (w : World) :
    strandsAny schedule.pace s name sinks (w.withLoggers loggers) = strandsAny schedule.pace s name sinks w := by
  induction sinks generalizing w with
  | nil => rfl
  | cons sink rest ih =>
    rw [strandsAny, strandsAny, strands_withLoggers, fanOut_withLoggers]
    exact congrArg _ (ih _)

end World

/-! ### Behind the caller -/

namespace Scene

/-- The next step of the caller's call, or something that goes on at an adapter. -/
def Event.IsOf (i : CallerId) : Event → Prop
  | .caller j .advance => j = i
  | .move _ _ => True
  | _ => False

def Reaches (i : CallerId) (s s' : Scene) : Prop := ∃ events, (∀ e ∈ events, Event.IsOf i e) ∧ s.run events = s'

variable {i : CallerId} {s s' s'' : Scene}

theorem reaches_refl (i : CallerId) (s : Scene) : s.Reaches i s := ⟨[], fun _ he => absurd he List.not_mem_nil, rfl⟩

theorem Reaches.trans (h : s.Reaches i s') (h' : s'.Reaches i s'') : s.Reaches i s'' := by
  obtain ⟨before, hbefore, rfl⟩ := h
  obtain ⟨behind, hbehind, rfl⟩ := h'
  refine ⟨before ++ behind, fun e he => ?_, List.foldl_append⟩
  exact (List.mem_append.mp he).elim (hbefore e) (hbehind e)

theorem run_moves {id : AdapterId} {a : Adapter} (ha : s.world.adapters.get? id = some a) (ms : List Adapter.Move) :
    s.run (ms.map (.move id)) = { s with world := { s.world with
      plant := (a.moves s.world.plant ms).2
      adapters := s.world.adapters.set id (a.moves s.world.plant ms).1 } } := by
  induction ms generalizing s a with
  | nil =>
    rw [Adapter.moves, Table.set_of_get? ha]
    rfl
  | cons m rest ih =>
    have hmove : s.world.move id m = { s.world with
        plant := (a.move s.world.plant m).2
        adapters := s.world.adapters.set id (a.move s.world.plant m).1 } := by
      unfold World.move
      rw [World.withAdapter_of_some ha]
    have hget : (s.step (.move id m)).world.adapters.get? id = some (a.move s.world.plant m).1 := by
      show (s.world.move id m).adapters.get? id = _
      rw [hmove]
      dsimp only
      rw [Table.get?_set, if_pos rfl, ha]
      rfl
    have hrest := ih hget
    have hworld : (s.step (.move id m)).world = s.world.move id m := rfl
    rw [hworld, hmove] at hrest
    dsimp only at hrest
    rw [Table.set_set] at hrest
    exact hrest

/- What an adapter does by moves goes on behind the callers. -/
theorem run_withAdapter {α : Type} {act : Adapter → Plant → α × Adapter × Plant}
    (hact : ∀ a p, ∃ ms, (act a p).2 = a.moves p ms) (s : Scene) (id : AdapterId) (missing : α) :
    ∃ ms : List Adapter.Move,
      s.run (ms.map (.move id)) = { s with world := (s.world.withAdapter id missing act).2 } := by
  cases ha : s.world.adapters.get? id with
  | none =>
    refine ⟨[], ?_⟩
    unfold World.withAdapter
    rw [ha]
    rfl
  | some a =>
    obtain ⟨ms, hms⟩ := hact a s.world.plant
    refine ⟨ms, ?_⟩
    rw [run_moves ha, World.withAdapter_of_some ha, hms]

theorem run_work (s : Scene) (id : AdapterId) :
    ∃ ms : List Adapter.Move, s.run (ms.map (.move id)) = { s with world := s.world.work id } :=
  run_withAdapter (fun a p => ⟨_, a.work_eq_moves p⟩) s id ()

theorem run_drainOne (s : Scene) (id : AdapterId) :
    ∃ ms : List Adapter.Move, s.run (ms.map (.move id)) = { s with world := s.world.drainOne id } :=
  run_withAdapter (fun a p => ⟨_, Adapter.workN_eq_moves (a.queue.pending.length + a.queue.waiting.length + 1) a p⟩)
    s id ()

theorem run_expire (s : Scene) (id : AdapterId) :
    ∃ ms : List Adapter.Move, s.run (ms.map (.move id)) = { s with world := (s.world.expire (.queued id)).2 } := by
  refine run_withAdapter (fun a p => ?_) s id none
  cases hexpire : a.expire p with
  | none => exact ⟨[], rfl⟩
  | some r =>
    obtain ⟨b, p'⟩ := r
    exact ⟨[.giveUp (a.queue.waiting.length - 1)], Adapter.expire_eq_move hexpire⟩

theorem reaches_moves (i : CallerId) {id : AdapterId}
    (h : ∃ ms : List Adapter.Move, s.run (ms.map (.move id)) = s') : s.Reaches i s' := by
  obtain ⟨ms, rfl⟩ := h
  refine ⟨ms.map (.move id), fun e he => ?_, rfl⟩
  obtain ⟨m, -, rfl⟩ := List.mem_map.mp he
  trivial

section

variable (i : CallerId) (w : World) (callers : Table Caller)

theorem reaches_expire (sink : SinkRef) : (⟨w, callers⟩ : Scene).Reaches i ⟨(w.expire sink).2, callers⟩ := by
  cases sink with
  | direct id => exact reaches_refl i _
  | queued id => exact reaches_moves i (run_expire ⟨w, callers⟩ id)

theorem reaches_pace (schedule : World.Schedule) (sink : SinkRef) :
    (⟨w, callers⟩ : Scene).Reaches i ⟨schedule.pace sink w, callers⟩ := by
  unfold World.Schedule.pace
  induction schedule sink generalizing w with
  | nil => exact reaches_refl i _
  | cons id rest ih => exact (reaches_moves i (run_work ⟨w, callers⟩ id)).trans (ih (w.work id))

end

/-! ### One call of a sink -/

section Alone

variable {t : Table Caller} {old : Caller} (hold : t.get? i = some old) {w : World} {c : Caller}
include hold

theorem reaches_advance (w : World) (c : Caller) :
    (⟨w, t.set i c⟩ : Scene).Reaches i ⟨(w.advance c).2, t.set i (w.advance c).1⟩ := by
  have hget : (t.set i c).get? i = some c := by
    rw [Table.get?_set, if_pos rfl, hold]
    rfl
  refine ⟨[.caller i .advance], fun e he => ?_, ?_⟩
  · rw [List.mem_singleton.mp he]
    exact rfl
  · show step ⟨w, t.set i c⟩ (.caller i .advance) = _
    rw [step_of_some hget, Table.set_set]
    rfl

/- A caller that has left the line goes on with its answer. -/
theorem reaches_resume {d : Dispatch} {id : AdapterId} {ticket : Nat} (hphase : c.phase = .blocked d id ticket)
    (hline : w.inLine id ticket = false) :
    (⟨w, t.set i c⟩ : Scene).Reaches i
      ⟨w, t.set i (c.enters (.returning d (.queued id) ((w.answer? id ticket).getD .done)))⟩ := by
  have hadvance := reaches_advance hold w c
  unfold World.advance at hadvance
  rw [hphase] at hadvance
  dsimp only [World.resume] at hadvance
  rw [hline] at hadvance
  exact hadvance

/- While the caller is in line, the workers go on; it gives up or waits for room as the whole call does. -/
theorem reaches_await (schedule : World.Schedule) {d : Dispatch} {id : AdapterId} {ticket : Nat}
    (hphase : c.phase = .blocked d id ticket) (hticket : w.lastTicket? (.queued id) = some (id, ticket))
    (hfree : (w.await (schedule.pace (.queued id)) (.queued id)).2.inLine id ticket = false) :
    (⟨w, t.set i c⟩ : Scene).Reaches i ⟨(w.await (schedule.pace (.queued id)) (.queued id)).2,
      t.set i (c.enters (.returning d (.queued id) (w.await (schedule.pace (.queued id)) (.queued id)).1))⟩ := by
  have hpaced := reaches_pace i w (t.set i c) schedule (.queued id)
  unfold World.await at hfree ⊢
  rw [hticket] at hfree ⊢
  dsimp only at hfree ⊢
  generalize schedule.pace (.queued id) w = paced at hpaced hfree ⊢
  cases hanswer : paced.answer? id ticket with
  | some o =>
    rw [hanswer] at hfree
    have hresume := reaches_resume hold hphase hfree
    rw [hanswer] at hresume
    exact hpaced.trans hresume
  | none =>
    rw [hanswer] at hfree
    have hwaited := hpaced.trans (reaches_expire i paced _ (.queued id))
    dsimp only at hfree ⊢
    cases hexpire : paced.expire (.queued id) with
    | mk given later =>
      rw [hexpire] at hwaited hfree
      cases given with
      | some o =>
        obtain ⟨rfl, hsame⟩ := World.expire_some hexpire ticket
        have hresume := reaches_resume hold hphase hfree
        rw [hsame, hanswer] at hresume
        exact hwaited.trans hresume
      | none =>
        have hdrained := hwaited.trans (reaches_moves i (run_drainOne ⟨later, _⟩ id))
        exact hdrained.trans (reaches_resume hold hphase hfree)

theorem reaches_call (schedule : World.Schedule) {d : Dispatch} {sink : SinkRef}
    (hphase : c.phase = .sending { d with rest := sink :: d.rest })
    (hfree : w.strands schedule.pace d.snapshot sink = false) :
    (⟨w, t.set i c⟩ : Scene).Reaches i
      ⟨((World.logDesk schedule.pace d.snapshot).call sink w).2,
        t.set i (c.enters (.returning d sink ((World.logDesk schedule.pace d.snapshot).call sink w).1))⟩ := by
  have hadvance := reaches_advance hold w c
  have hcall : w.advance c = w.callSink c d sink := by
    unfold World.advance
    rw [hphase]
  rw [hcall] at hadvance
  unfold World.strands at hfree
  unfold World.callSink at hadvance
  unfold World.logDesk at hfree ⊢
  dsimp only at hfree ⊢
  cases hlog : w.logSink sink d.snapshot with
  | mk outcome after =>
    rw [hlog] at hadvance hfree
    cases outcome with
    | some o => exact hadvance.trans (reaches_pace i after _ schedule sink)
    | none =>
      dsimp only at hadvance hfree ⊢
      cases hticket : after.lastTicket? sink with
      | none =>
        rw [hticket] at hadvance
        unfold World.await
        rw [hticket]
        exact hadvance.trans (reaches_pace i after _ schedule sink)
      | some x =>
        obtain ⟨id, ticket⟩ := x
        obtain rfl := World.queued_of_lastTicket hticket
        rw [hticket] at hadvance hfree
        have hwaited := reaches_await hold schedule (c := c.enters (.blocked d id ticket)) rfl hticket hfree
        exact hadvance.trans hwaited

/-! ### A whole call -/

/- The caller goes through its sinks as a desk does, and has counted the failures on the way. -/
theorem reaches_sending (schedule : World.Schedule) {d : Dispatch} (hphase : c.phase = .sending d)
    (hfree : World.strandsAny schedule.pace d.snapshot d.name d.rest w = false) :
    let sent := Logger.fanOut (World.logDesk schedule.pace d.snapshot) d.name d.rest w
    (⟨w, t.set i c⟩ : Scene).Reaches i
      ⟨sent.2.modifyLogger d.logger (·.addFailures sent.1), t.set i (c.enters (.sending { d with rest := [] }))⟩ := by
  obtain ⟨l, name, snapshot, sinks⟩ := d
  dsimp only at hfree ⊢
  induction sinks generalizing w c with
  | nil =>
    have hsame : c.enters (.sending ⟨l, name, snapshot, []⟩) = c := by
      unfold Caller.enters
      rw [← hphase]
    have hnone : w.modifyLogger l (·.addFailures 0) = w :=
      congrArg w.withLoggers (w.loggers.modify_same l fun _ => rfl)
    rw [Logger.fanOut, hsame, hnone]
    exact reaches_refl i _
  | cons sink rest ih =>
    rw [World.strandsAny, Bool.or_eq_false_iff] at hfree
    obtain ⟨hfirst, hrest⟩ := hfree
    have hlook := (reaches_call hold schedule (d := ⟨l, name, snapshot, rest⟩) hphase hfirst).trans
      (reaches_advance hold _ _)
    dsimp only [World.advance, Caller.enters, World.returned] at hlook
    cases hcall : (World.logDesk schedule.pace snapshot).call sink w with
    | mk o after =>
      rw [World.fanOut_of_call hcall] at hrest ⊢
      rw [hcall] at hlook
      dsimp only at hlook
      cases hnotice : Logger.notice? name (after.sinkName sink) o with
      | none =>
        rw [hnotice] at hlook hrest
        exact hlook.trans (ih rfl hrest)
      | some note =>
        rw [hnotice] at hlook hrest
        dsimp only at hlook hrest ⊢
        have hcounted : (after.report note).modifyLogger l (·.countFailure) =
            (after.report note).withLoggers ((after.report note).loggers.modify l (·.countFailure)) := rfl
        have hnext := ih (w := (after.report note).modifyLogger l (·.countFailure))
          (c := c.enters (.sending ⟨l, name, snapshot, rest⟩)) rfl (by
            rw [hcounted, World.strandsAny_withLoggers]
            exact hrest)
        have hlater := (World.sameRoster_fanOut schedule snapshot name rest (after.report note)).loggers
        rw [hcounted, World.fanOut_withLoggers] at hnext
        rw [hcounted] at hlook
        dsimp only at hnext
        generalize Logger.fanOut (World.logDesk schedule.pace snapshot) name rest (after.report note) = sent at *
        rw [World.addFailures_counted hlater] at hnext
        exact hlook.trans hnext

theorem reaches_dispatch (schedule : World.Schedule) {l : LoggerId} {logger : Logger} {snapshot : Snapshot}
    (hl : w.loggers.get? l = some logger) (hphase : c.phase = .sending ⟨l, logger.name, snapshot, logger.sinks⟩)
    (hfree : World.strandsAny schedule.pace snapshot logger.name logger.sinks w = false) :
    let after := w.dispatch schedule.pace l snapshot
    (⟨w, t.set i c⟩ : Scene).Reaches i ⟨after.setStore (snapshot.drop after.plant.store), t.set i (c.ended l none)⟩ := by
  have hsent := reaches_sending hold schedule hphase hfree
  rw [World.dispatch_of_some hl]
  dsimp only at hsent ⊢
  generalize Logger.fanOut (World.logDesk schedule.pace snapshot) logger.name logger.sinks w = sent at hsent ⊢
  have hcounted : (sent.2.modifyLogger l (·.addFailures sent.1)).modifyLogger l (·.countLogged) =
      sent.2.modifyLogger l (·.countDispatch sent.1) :=
    congrArg sent.2.withLoggers (sent.2.loggers.modify_modify l _ _)
  rw [← hcounted]
  exact hsent.trans (reaches_advance hold _ _)

/- From the question to the gate on, the caller does to the world what logging the entry does. -/
theorem reaches_offering (schedule : World.Schedule) {l : LoggerId} {e : Entry} (hphase : c.phase = .offering l e)
    (hfree : w.holdsUp schedule.pace l e = false) :
    (⟨w, t.set i c⟩ : Scene).Reaches i ⟨(w.log schedule.pace l e).2, t.set i { c with
      phase := .idle
      checks := []
      past := ⟨l, c.checks ++ [w.passes l e.severity], (w.log schedule.pace l e).1⟩ :: c.past }⟩ := by
  have hasked := reaches_advance hold w c
  have hfirst : w.advance c = (c.checked l (w.passes l e.severity) (.admitted l e), w) := by
    unfold World.advance
    rw [hphase]
  rw [hfirst] at hasked
  have hnext := hasked.trans (reaches_advance hold _ _)
  cases hl : w.loggers.get? l with
  | none =>
    rw [World.passes_of_none hl] at hnext ⊢
    rw [World.log_of_missing hl]
    have hsame : (w.advance (c.checked l false (.admitted l e))).2 = w := World.recordFiltered_of_none hl
    rw [hsame] at hnext
    exact hnext
  | some logger =>
    rw [World.passes_of_some hl] at hnext ⊢
    cases hpasses : logger.gate.passes e.severity with
    | false =>
      rw [hpasses] at hnext
      rw [World.log_of_rejected hl _ hpasses]
      exact hnext
    | true =>
      rw [hpasses] at hnext
      have hcaptured : w.advance (c.checked l true (.admitted l e)) =
          w.captureFor (c.checked l true (.admitted l e)) l e := rfl
      unfold World.captureFor at hcaptured
      unfold World.holdsUp at hfree
      rw [hl] at hcaptured hfree
      dsimp only [Option.any] at hcaptured hfree
      cases hcapture : Snapshot.capture e logger.localTime (·.acquire logger.factory) w.plant.store with
      | mk result store =>
        rw [hcapture] at hcaptured hfree
        rw [hcaptured] at hnext
        cases result with
        | error p =>
          rw [World.log_of_panic hl _ hpasses hcapture]
          exact hnext
        | ok s =>
          rw [World.log_of_captured hl _ hpasses hcapture]
          exact hnext.trans (reaches_dispatch hold schedule (w := w.setStore store)
            (c := (c.checked l true (.admitted l e)).enters (.sending ⟨l, logger.name, s, logger.sinks⟩)) hl rfl hfree)

/- A caller whose answers come does to the world what the call does, whatever the workers do meanwhile. -/
theorem reaches_say (schedule : World.Schedule) (l : LoggerId) (call : Call) (begun : Nat) (past : List Report)
    (hfree : w.holdsUp schedule.pace l (call.toEntry (w.loggerName l)) = false) :
    ∃ checks, checks.all id = w.passes l call.severity ∧
      (step ⟨w, t.set i ⟨.idle, [], begun, past⟩⟩ (.caller i (.log l call))).Reaches i
        ⟨(w.say schedule.pace l call).2,
          t.set i ⟨.idle, [], begun + 1, ⟨l, checks, (w.say schedule.pace l call).1⟩ :: past⟩⟩ := by
  have hget : (t.set i ⟨.idle, [], begun, past⟩).get? i = some ⟨.idle, [], begun, past⟩ := by
    rw [Table.get?_set, if_pos rfl, hold]
    rfl
  rw [step_of_some hget, Table.set_set]
  cases call with
  | entry e =>
    exact ⟨[w.passes l e.severity], Bool.and_true _,
      reaches_offering hold schedule (c := ⟨.offering l e, [], begun + 1, past⟩) rfl hfree⟩
  | message severity text file line time =>
    let asking : Caller := ⟨.asking l (.message severity text file line time), [], begun + 1, past⟩
    have hasked : (⟨w, t.set i asking⟩ : Scene).Reaches i ⟨w, t.set i (asking.checked l (w.passes l severity)
        (.offering l ⟨severity, utf8 (w.loggerName l), file, line, text, time⟩))⟩ := reaches_advance hold w asking
    have hturned := hasked.trans (reaches_advance hold _ _)
    cases hl : w.loggers.get? l with
    | none =>
      have hpasses := World.passes_of_none hl severity
      refine ⟨[false], hpasses.symm, ?_⟩
      rw [World.say_of_missing hl]
      rw [hpasses] at hturned
      have hsame : (w.advance (asking.checked l false
          (.offering l ⟨severity, utf8 (w.loggerName l), file, line, text, time⟩))).2 = w :=
        World.recordFiltered_of_none hl
      rw [hsame] at hturned
      exact hturned
    | some logger =>
      have hname : w.loggerName l = logger.name := by
        unfold World.loggerName
        rw [hl]
        rfl
      have hgate := World.passes_of_some hl severity
      rw [World.say_eq_log hl]
      cases hpasses : logger.gate.passes severity with
      | false =>
        refine ⟨[false], (hgate.trans hpasses).symm, ?_⟩
        rw [hgate, hpasses] at hturned
        rw [World.log_of_rejected hl _ hpasses]
        exact hturned
      | true =>
        rw [hgate, hpasses, hname] at hasked
        rw [hname] at hfree
        have hoffered := hasked.trans (reaches_offering hold schedule (c := asking.checked l true
          (.offering l ⟨severity, utf8 logger.name, file, line, text, time⟩)) rfl hfree)
        dsimp only at hoffered
        exact ⟨[true, w.passes l severity], Bool.and_true _, hoffered⟩

end Alone

end Scene

end Logbook
