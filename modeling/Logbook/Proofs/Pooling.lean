import Logbook.Proofs.Alike
import Logbook.Proofs.Ledger
import Logbook.Proofs.Receipts
import Logbook.Proofs.Runs
import Logbook.Script.Trace

/-!
# Pooling is not seen from outside

A world whose loggers take their buffers from pools, and the same world with every such factory replaced by one
that makes new buffers, answer every operation alike, write the same octets to every sink and count the same.
-/

namespace Logbook

/-! ### Desks -/

namespace Logger.Desk

variable {σ : Type}

/-- A desk cannot tell related states apart. -/
structure Respects (R : σ → σ → Prop) (desk : Desk σ) : Prop where
  call : ∀ sink {x y}, R x y → Same R (desk.call sink x) (desk.call sink y)
  nameOf : ∀ sink {x y}, R x y → desk.nameOf sink y = desk.nameOf sink x
  report : ∀ n {x y}, R x y → R (desk.report n x) (desk.report n y)

variable {R : σ → σ → Prop} {desk : Desk σ} {x y : σ}

theorem Respects.fanOut (hr : desk.Respects R) (logger : String) (sinks : List SinkRef) (hxy : R x y) :
    Same R (Logger.fanOut desk logger sinks x) (Logger.fanOut desk logger sinks y) := by
  induction sinks generalizing x y with
  | nil => exact ⟨rfl, hxy⟩
  | cons sink rest ih =>
    obtain ⟨hanswer, hcalled⟩ := hr.call sink hxy
    rw [Logger.fanOut, Logger.fanOut]
    dsimp only
    rw [hanswer, hr.nameOf sink hcalled]
    cases notice? logger (desk.nameOf sink (desk.call sink x).2) (desk.call sink x).1 with
    | none => exact ih hcalled
    | some n =>
      obtain ⟨hfailures, hend⟩ := ih (hr.report n hcalled)
      exact ⟨congrArg (· + 1) hfailures, hend⟩

theorem Respects.flushAll (hr : desk.Respects R) (sinks : List SinkRef) (hxy : R x y) :
    Same R (Logger.flushAll desk sinks x) (Logger.flushAll desk sinks y) := by
  induction sinks generalizing x y with
  | nil => exact ⟨rfl, hxy⟩
  | cons sink rest ih =>
    obtain ⟨o, x', y', hx, hy, hcalled⟩ := (hr.call sink hxy).exists_eq
    rw [Logger.flushAll, Logger.flushAll, hx, hy]
    cases o with
    | done => exact ih hcalled
    | panicked p => exact ⟨rfl, hcalled⟩
    | failed e =>
      obtain ⟨o, x'', y'', hx', hy', hend⟩ :=
        (ih (hr.report (.flushFailed (desk.nameOf sink x') e) hcalled)).exists_eq
      dsimp only
      rw [hr.nameOf sink hcalled, hx', hy']
      cases o with
      | done => exact ⟨rfl, hend⟩
      | failed e' => exact ⟨rfl, hend⟩
      | panicked p => exact ⟨rfl, hend⟩

end Logger.Desk

/-! ### Worlds -/

namespace World

/-- The same sinks, adapters and loggers, and stores that read alike. -/
structure Alike (w v : World) : Prop where
  plant : w.plant.Alike v.plant
  adapters : v.adapters = w.adapters
  loggers : v.loggers = w.loggers

namespace Alike

variable {w v : World}

theorem report (h : Alike w v) (n : Notice) : Alike (w.report n) (v.report n) :=
  ⟨h.plant.report n, h.adapters, h.loggers⟩

theorem setStore (h : Alike w v) {s t : Store} (hst : s.Alike t) : Alike (w.setStore s) (v.setStore t) :=
  ⟨⟨hst, h.plant.outlets⟩, h.adapters, h.loggers⟩

theorem modifyLogger (h : Alike w v) (l : LoggerId) (f : Logger → Logger) :
    Alike (w.modifyLogger l f) (v.modifyLogger l f) :=
  ⟨h.plant, h.adapters, congrArg (·.modify l f) h.loggers⟩

theorem withAdapter {α : Type} (h : Alike w v) (id : AdapterId) (missing : α)
    {act : Adapter → Plant → α × Adapter × Plant}
    (hact : ∀ a {p q}, p.Alike q → Same (Same Plant.Alike) (act a p) (act a q)) :
    Same Alike (w.withAdapter id missing act) (v.withAdapter id missing act) := by
  unfold World.withAdapter
  rw [h.adapters]
  cases w.adapters.get? id with
  | none => exact ⟨rfl, h⟩
  | some a =>
    obtain ⟨hanswer, hadapter, hplant⟩ := hact a h.plant
    exact ⟨hanswer, hplant, congrArg (w.adapters.set id) hadapter, h.loggers⟩

theorem work (h : Alike w v) (id : AdapterId) : Alike (w.work id) (v.work id) :=
  (h.withAdapter id () fun a _ _ hp => ⟨rfl, a.alike_work hp⟩).2

theorem drainOne (h : Alike w v) (id : AdapterId) : Alike (w.drainOne id) (v.drainOne id) :=
  (h.withAdapter id () fun a _ _ hp => ⟨rfl, a.alike_drain hp⟩).2

theorem pace (h : Alike w v) (schedule : Schedule) (sink : SinkRef) :
    Alike (schedule.pace sink w) (schedule.pace sink v) := by
  unfold Schedule.pace
  induction schedule sink generalizing w v with
  | nil => exact h
  | cons id rest ih => exact ih (h.work id)

theorem sinkName_eq (h : Alike w v) (sink : SinkRef) : v.sinkName sink = w.sinkName sink := by
  cases sink with
  | direct id =>
    unfold sinkName
    rw [h.plant.outlets]
  | queued id =>
    unfold sinkName
    rw [h.adapters]

theorem answer?_eq (h : Alike w v) (id : AdapterId) (ticket : Nat) : v.answer? id ticket = w.answer? id ticket := by
  unfold answer?
  rw [h.adapters]

theorem lastTicket?_eq (h : Alike w v) (sink : SinkRef) : v.lastTicket? sink = w.lastTicket? sink := by
  cases sink with
  | direct id => rfl
  | queued id =>
    unfold lastTicket?
    rw [h.adapters]

theorem logSink (h : Alike w v) (sink : SinkRef) (s : Snapshot) : Same Alike (w.logSink sink s) (v.logSink sink s) := by
  cases sink with
  | direct id =>
    obtain ⟨hanswer, hplant⟩ := h.plant.log false id s
    exact ⟨hanswer, hplant, h.adapters, h.loggers⟩
  | queued id => exact h.withAdapter id (some .done) fun a _ _ hp => a.alike_log s hp

theorem flushSink (h : Alike w v) (sink : SinkRef) : Same Alike (w.flushSink sink) (v.flushSink sink) := by
  cases sink with
  | direct id =>
    obtain ⟨hanswer, hplant⟩ := h.plant.flush id
    exact ⟨hanswer, hplant, h.adapters, h.loggers⟩
  | queued id => exact h.withAdapter id .done fun a _ _ hp => a.alike_flush hp

theorem expire (h : Alike w v) (sink : SinkRef) : Same Alike (w.expire sink) (v.expire sink) := by
  cases sink with
  | direct id => exact ⟨rfl, h⟩
  | queued id =>
    refine h.withAdapter id none fun a p q hp => ?_
    rcases rel_cases (a.alike_expire hp) with ⟨hx, hy⟩ | ⟨x, y, hx, hy, hexpired⟩
    · rw [hx, hy]
      exact ⟨rfl, rfl, hp⟩
    · obtain ⟨a', p', q', rfl, rfl, hplant⟩ := hexpired.exists_eq
      rw [hx, hy]
      exact ⟨rfl, rfl, hplant⟩

theorem letGo (h : Alike w v) (id : AdapterId) : Same Alike (w.letGo id) (v.letGo id) := by
  refine h.withAdapter id false fun a p q hp => ?_
  rw [hp.outlets]
  split
  · rename_i c outcome outlets _ _
    have hheld : Plant.Alike { p with outlets := outlets } { q with outlets := outlets } := ⟨hp.store, rfl⟩
    obtain ⟨hqueue, hplant⟩ := (Plant.respects_host a.inner).settle c outcome a.queue hheld
    exact ⟨rfl, congrArg (fun queue => { a with queue := queue }) hqueue, hplant⟩
  · exact ⟨rfl, rfl, hp⟩

theorem await (h : Alike w v) (schedule : Schedule) (sink : SinkRef) :
    Same Alike (w.await (schedule.pace sink) sink) (v.await (schedule.pace sink) sink) := by
  have hpaced := h.pace schedule sink
  unfold World.await
  rw [h.lastTicket?_eq]
  cases w.lastTicket? sink with
  | none => exact ⟨rfl, hpaced⟩
  | some last =>
    obtain ⟨id, ticket⟩ := last
    dsimp only
    rw [hpaced.answer?_eq]
    cases (schedule.pace sink w).answer? id ticket with
    | some outcome => exact ⟨rfl, hpaced⟩
    | none =>
      obtain ⟨o, w', v', hx, hy, hexpired⟩ := (hpaced.expire sink).exists_eq
      dsimp only
      rw [hx, hy]
      cases o with
      | some outcome => exact ⟨rfl, hexpired⟩
      | none =>
        have hdrained := hexpired.drainOne id
        dsimp only
        rw [hdrained.answer?_eq]
        exact ⟨rfl, hdrained⟩

theorem call (h : Alike w v) (schedule : Schedule) (s : Snapshot) (sink : SinkRef) :
    Same Alike ((logDesk schedule.pace s).call sink w) ((logDesk schedule.pace s).call sink v) := by
  obtain ⟨o, w', v', hx, hy, hlogged⟩ := (h.logSink sink s).exists_eq
  unfold logDesk
  dsimp only
  rw [hx, hy]
  cases o with
  | some outcome => exact ⟨rfl, hlogged.pace schedule sink⟩
  | none => exact hlogged.await schedule sink

end Alike

theorem respects_logDesk (schedule : Schedule) (s : Snapshot) : (logDesk schedule.pace s).Respects Alike where
  call sink _ _ h := h.call schedule s sink
  nameOf sink _ _ h := h.sinkName_eq sink
  report n _ _ h := h.report n

theorem respects_flushDesk : flushDesk.Respects Alike where
  call sink _ _ h := h.flushSink sink
  nameOf sink _ _ h := h.sinkName_eq sink
  report n _ _ h := h.report n

namespace Alike

variable {w v : World}

theorem dispatch (h : Alike w v) (schedule : Schedule) (l : LoggerId) (s : Snapshot) :
    Alike (w.dispatch schedule.pace l s) (v.dispatch schedule.pace l s) := by
  unfold World.dispatch
  rw [h.loggers]
  cases w.loggers.get? l with
  | none => exact h
  | some logger =>
    obtain ⟨hfailures, hcalled⟩ := (respects_logDesk schedule s).fanOut logger.name logger.sinks h
    dsimp only
    rw [hfailures]
    exact hcalled.modifyLogger l _

theorem log (h : Alike w v) (schedule : Schedule) (l : LoggerId) (e : Entry) :
    Same Alike (w.log schedule.pace l e) (v.log schedule.pace l e) := by
  unfold World.log
  rw [h.loggers]
  cases w.loggers.get? l with
  | none => exact ⟨rfl, h⟩
  | some logger =>
    dsimp only
    split
    · obtain ⟨r, s, t, hx, hy, hst⟩ := (h.plant.store.capture e logger.localTime logger.factory).exists_eq
      rw [hx, hy]
      cases r with
      | error p => exact ⟨rfl, h.setStore hst⟩
      | ok snapshot =>
        have hdispatched := (h.setStore hst).dispatch schedule l snapshot
        exact ⟨rfl, hdispatched.setStore (hdispatched.plant.store.release snapshot.buffer)⟩
    · exact ⟨rfl, h.modifyLogger l _⟩

theorem flushLogger (h : Alike w v) (l : LoggerId) : Same Alike (w.flushLogger l) (v.flushLogger l) := by
  unfold World.flushLogger
  rw [h.loggers]
  cases w.loggers.get? l with
  | none => exact ⟨rfl, h⟩
  | some logger => exact respects_flushDesk.flushAll logger.sinks h

theorem setOutlets (h : Alike w v) (f : Outlets → Outlets) :
    Alike (w.setOutlets (f w.plant.outlets)) (v.setOutlets (f v.plant.outlets)) :=
  ⟨⟨h.plant.store, congrArg f h.plant.outlets⟩, h.adapters, h.loggers⟩

theorem modifyAdapter (h : Alike w v) (id : AdapterId) (f : Adapter → Adapter) :
    Alike { w with adapters := w.adapters.modify id f } { v with adapters := v.adapters.modify id f } :=
  ⟨h.plant, congrArg (·.modify id f) h.adapters, h.loggers⟩

theorem perform (h : Alike w v) (op : LogOp) : Same Alike (w.perform op) (v.perform op) := by
  cases op with
  | log l e schedule => exact h.log schedule l e
  | setLevel l level => exact ⟨rfl, h.modifyLogger l _⟩
  | addSink l sink => exact ⟨rfl, h.modifyLogger l _⟩
  | removeSink l sink => exact ⟨rfl, h.modifyLogger l _⟩
  | clearSink id => exact ⟨rfl, h.setOutlets (·.clear id)⟩
  | setSinkLevel sink level =>
    cases sink with
    | direct id => exact ⟨rfl, h.setOutlets (·.setLevel id level)⟩
    | queued id => exact ⟨rfl, h.modifyAdapter id _⟩
  | setSinkFormatter sink f =>
    cases sink with
    | direct id => exact ⟨rfl, h.setOutlets (·.setFormatter id f)⟩
    | queued id => exact ⟨rfl, h.modifyAdapter id _⟩

end Alike

/-! ### Runs -/

/-- What can be done with a world and its workers. -/
inductive Action where
  | perform (op : LogOp)
  /-- Take a snapshot of an entry, to be dispatched or logged later. -/
  | capture (f : FactoryId) (e : Entry) (isLocal : Bool)
  | dispatch (l : LoggerId) (s : Snapshot) (schedule : Schedule)
  | logSink (sink : SinkRef) (s : Snapshot) (schedule : Schedule)
  | drop (s : Snapshot)
  | flush (l : LoggerId)
  /-- A step of a worker. -/
  | work (a : AdapterId)
  /-- The end of a write in which a worker was held. -/
  | letGo (a : AdapterId)

/-- What an action returns. -/
inductive Reply where
  | nothing
  | logged (stop : Option Panic)
  | captured (s : Except Panic Snapshot)
  | returned (o : Outcome)
  | released (wasHeld : Bool)

def act (w : World) : Action → Reply × World
  | .perform op => ((w.perform op).map .logged id)
  | .capture f e isLocal => (Snapshot.capture e isLocal (·.acquire f) w.plant.store).map .captured w.setStore
  | .dispatch l s schedule => (.nothing, w.dispatch schedule.pace l s)
  | .logSink sink s schedule => ((logDesk schedule.pace s).call sink w).map .returned id
  | .drop s => (.nothing, w.setStore (s.drop w.plant.store))
  | .flush l => (w.flushLogger l).map .returned id
  | .work a => (.nothing, w.work a)
  | .letGo a => (w.letGo a).map .released id

theorem Alike.act {w v : World} (h : Alike w v) (action : Action) : Same Alike (w.act action) (v.act action) := by
  cases action with
  | perform op =>
    obtain ⟨hanswer, hend⟩ := h.perform op
    exact ⟨congrArg Reply.logged hanswer, hend⟩
  | capture f e isLocal =>
    obtain ⟨hanswer, hstore⟩ := h.plant.store.capture e isLocal f
    exact ⟨congrArg Reply.captured hanswer, h.setStore hstore⟩
  | dispatch l s schedule => exact ⟨rfl, h.dispatch schedule l s⟩
  | logSink sink s schedule =>
    obtain ⟨hanswer, hend⟩ := h.call schedule s sink
    exact ⟨congrArg Reply.returned hanswer, hend⟩
  | drop s => exact ⟨rfl, h.setStore (h.plant.store.release s.buffer)⟩
  | flush l =>
    obtain ⟨hanswer, hend⟩ := h.flushLogger l
    exact ⟨congrArg Reply.returned hanswer, hend⟩
  | work a => exact ⟨rfl, h.work a⟩
  | letGo a =>
    obtain ⟨hanswer, hend⟩ := h.letGo a
    exact ⟨congrArg Reply.released hanswer, hend⟩

theorem Alike.run {w v : World} (h : Alike w v) (actions : List Action) :
    Same Alike (Script.run World.act w actions) (Script.run World.act v actions) := by
  induction actions generalizing w v with
  | nil => exact ⟨rfl, h⟩
  | cons action rest ih =>
    obtain ⟨hanswer, hnext⟩ := h.act action
    obtain ⟨hanswers, hend⟩ := ih hnext
    rw [Script.run_cons, Script.run_cons]
    refine ⟨?_, hend⟩
    dsimp only
    rw [hanswer, hanswers]

/-! ### Replacing the pools -/

/-- The same world with every factory that takes from a pool replaced by one that makes new buffers. -/
def onHeap (w : World) : World :=
  w.setStore { w.plant.store with factories := w.plant.store.factories.map Factory.onHeap }

theorem alike_onHeap {w : World} (h : w.plant.store.Clean) : Alike w w.onHeap :=
  ⟨⟨⟨rfl, fun _ => rfl, Table.get?_map _ _, h, h⟩, rfl⟩, rfl, rfl⟩

/-- Whatever is done, a world with pools in any clean state and the same world without them give the same
answers and end with the same sinks, files and streams, the same queues and the same loggers, counters
included. -/
theorem run_onHeap (w : World) (h : w.plant.store.Clean) (actions : List Action) :
    (Script.run act w.onHeap actions).1 = (Script.run act w actions).1 ∧
      (Script.run act w.onHeap actions).2.plant.outlets = (Script.run act w actions).2.plant.outlets ∧
      (Script.run act w.onHeap actions).2.adapters = (Script.run act w actions).2.adapters ∧
      (Script.run act w.onHeap actions).2.loggers = (Script.run act w actions).2.loggers := by
  obtain ⟨hanswers, hend⟩ := (alike_onHeap h).run actions
  exact ⟨hanswers, hend.plant.outlets, hend.adapters, hend.loggers⟩

/-- A logger with a pool that has parts parked. It writes to a memory sink, first through a queue with one place
and then directly. -/
def parked : World :=
  let store := ((Ledger.start [⟨some 1, some 1⟩]).run [.acquire 0, .write 0 (.extend [1]), .drop 0]).store
  let outlets := (Outlets.empty.addFormatter (.ofLayout (.single (.path 1)))).2
  let outlets := (outlets.addSink "memory" (.memory .empty)).2.setFormatter 0 0
  let logger : Logger := ⟨"parked", ⟨.info⟩, [.queued 0, .direct 0], 0, false, false, .zero⟩
  let adapter : Adapter := ⟨Outlets.startGate, 0, 0, .ofSettings ⟨"queue", "memory", 1, .dropNewest, false, false⟩⟩
  ⟨⟨(store.addFactory (.pool 0)).2, outlets⟩, Table.empty.push adapter, Table.empty.push logger, .empty⟩

theorem clean_parked : parked.plant.store.Clean :=
  ((Ledger.inv_start [⟨some 1, some 1⟩]).run [.acquire 0, .write 0 (.extend [1]), .drop 0]).clean

/- The first entry waits in the queue while the second, for which there is no room, takes another buffer. -/
theorem memory?_parked_onHeap :
    let log (file : UInt8) : Action := .perform (.log 0 ⟨.info, [], [file], [], [], .epoch⟩ fun _ => [])
    parked.plant.store.Clean ∧
      (Script.run act parked.onHeap [log 97, log 98, .work 0, log 99, .work 0]).2.plant.outlets.memory? 0 =
        some [97, 98, 97, 99, 99] := by
  refine ⟨clean_parked, ?_⟩
  rw [(run_onHeap parked clean_parked _).2.1]
  decide

end World

end Logbook
