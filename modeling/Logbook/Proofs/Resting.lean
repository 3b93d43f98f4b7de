import Logbook.Proofs.Custody
import Logbook.Proofs.Delivery
import Logbook.Proofs.Routes

/-!
# Pools at rest

A pool is at rest when all that it ever made lies on its free lists, and it made one node and one slot at most. A
logger lends a buffer from its pool for the time of a call. Where no sink keeps snapshots, the buffer is back when
the call ends, by returning or by a panic, so one buffer is enough for any number of calls.
-/

namespace Logbook

/-! ### Parts -/

namespace Parts

variable {α : Type} {p : Parts α} {limit : Option Nat}

/-- All parts that were made are parked: one at most, and there is room for one. -/
structure Rested (p : Parts α) (limit : Option Nat) : Prop where
  length_eq : p.free.length = p.free.items.length
  parked : p.free.length = p.counts.allocated
  single : p.counts.allocated ≤ 1
  room : limit ≠ some 0

/-- The only part that was made is out. -/
structure Lent (p : Parts α) (limit : Option Nat) : Prop where
  nothing : p.free = .empty
  one : p.counts.allocated = 1
  room : limit ≠ some 0

theorem rested_empty (h : limit ≠ some 0) : (empty : Parts α).Rested limit := ⟨rfl, rfl, Nat.zero_le 1, h⟩

theorem Rested.take (h : p.Rested limit) (fresh : α) : (p.take fresh).2.Lent limit := by
  obtain ⟨hlen, hparked, hsingle, hroom⟩ := h
  obtain ⟨a, rest, hitems, htake⟩ | ⟨hitems, htake⟩ := p.take_cases fresh
  · rw [hitems, List.length_cons] at hlen
    have hrest : rest = [] := List.eq_nil_of_length_eq_zero (by omega)
    have hone : p.free.length - 1 = 0 := by omega
    rw [htake, hrest, hone]
    refine ⟨rfl, ?_, hroom⟩
    show p.counts.allocated = 1
    omega
  · rw [hitems, List.length_nil] at hlen
    have hfree : p.free = .empty := by
      cases hp : p.free with
      | mk items length =>
        rw [hp] at hlen hitems
        simp only at hlen hitems
        rw [hlen, hitems]
        rfl
    rw [htake]
    refine ⟨hfree, ?_, hroom⟩
    show p.counts.allocated + 1 = 1
    omega

theorem Lent.park (h : p.Lent limit) (a : α) : (p.park limit a).Rested limit := by
  obtain ⟨hnothing, hone, hroom⟩ := h
  have hfull : p.free.isFull limit = false := by
    rw [hnothing]
    cases limit with
    | none => rfl
    | some n =>
      have hpos : n ≠ 0 := fun hn => hroom (congrArg some hn)
      simp [FreeList.isFull, FreeList.empty, hpos]
  obtain ⟨-, hpark⟩ | ⟨hcontra, -⟩ := p.park_cases limit a
  · rw [hpark, hnothing]
    refine ⟨rfl, hone.symm, ?_, hroom⟩
    show p.counts.allocated ≤ 1
    omega
  · rw [hfull] at hcontra
    cases hcontra

end Parts

namespace Pool

structure Rested (p : Pool) : Prop where
  nodes : p.nodes.Rested p.limits.maxFreeNodes
  slots : p.slots.Rested p.limits.maxFreeSlots

structure Lent (p : Pool) : Prop where
  nodes : p.nodes.Lent p.limits.maxFreeNodes
  slots : p.slots.Lent p.limits.maxFreeSlots

theorem rested_ofLimits {limits : PoolLimits} (hnodes : limits.maxFreeNodes ≠ some 0)
    (hslots : limits.maxFreeSlots ≠ some 0) : (ofLimits limits).Rested :=
  ⟨Parts.rested_empty hnodes, Parts.rested_empty hslots⟩

theorem Rested.take {p : Pool} (h : p.Rested) (fresh : Nat) : (p.take fresh).2.Lent :=
  ⟨h.nodes.take _, h.slots.take _⟩

theorem Lent.recycle {p : Pool} (h : p.Lent) (node : Node) (slot : Slot) : (p.recycle node slot).Rested :=
  ⟨h.nodes.park _, h.slots.park _⟩

end Pool

/-! ### Stores -/

namespace Store

variable {s s' : Store} {p : PoolId} {b : BufferId}

/-- No buffer of the pool is live. -/
structure AtRest (s : Store) (p : PoolId) : Prop where
  live : s.liveOf p = 0
  pool : ∃ pool, s.pools.get? p = some pool ∧ pool.Rested

/-- The only live buffer of the pool is `b`, which has one handle. -/
structure Lends (s : Store) (p : PoolId) (b : BufferId) : Prop where
  live : s.liveOf p = 1
  pool : ∃ pool, s.pools.get? p = some pool ∧ pool.Lent
  buffer : ∃ x, s.buffers.get? b = some x ∧ x.slot.refs = 1 ∧ x.slot.pool = some p

theorem AtRest.acquirePooled (h : s.AtRest p) : (s.acquirePooled p).2.Lends p (s.acquirePooled p).1 := by
  obtain ⟨pool, hp, hrested⟩ := h.pool
  have hlive := liveOf_acquirePooled hp p
  rw [h.live, if_pos rfl] at hlive
  rw [acquirePooled_of_some hp] at hlive ⊢
  refine ⟨hlive, ⟨(pool.take s.buffers.next).2, ?_, hrested.take _⟩, _, Table.get?_push_next _ _, rfl, rfl⟩
  dsimp only
  rw [Table.get?_set, if_pos rfl, hp]
  rfl

theorem Lends.write? (h : s.Lends p b) {f : Node → Node} (hw : s.write? b f = some s') : s'.Lends p b := by
  obtain ⟨x, hx, hrefs, hpool⟩ := h.buffer
  rw [write?_of_unique hx hrefs] at hw
  cases hw
  refine ⟨?_, h.pool, { x with node := f x.node }, ?_, hrefs, hpool⟩
  · rw [liveOf_set { x with node := f x.node } hx rfl]
    exact h.live
  · dsimp only
    rw [Table.get?_set, if_pos rfl, hx]
    rfl

theorem Lends.release (h : s.Lends p b) : (s.release b).AtRest p := by
  obtain ⟨x, hx, hrefs, hpool⟩ := h.buffer
  obtain ⟨pool, hp, hlent⟩ := h.pool
  have herase := Table.total_erase hx fun y => if y.slot.pool = some p then 1 else 0
  have hlive := h.live
  unfold liveOf at hlive
  rw [if_pos hpool] at herase
  rw [release_of_last hx hrefs]
  refine ⟨?_, pool.recycle x.node (lessOne x).slot, ?_, hlent.recycle _ _⟩
  · unfold liveOf
    dsimp only
    omega
  · dsimp only
    rw [get?_poolsAfter, if_pos hpool, hp]
    rfl

end Store

/-- A capture into a buffer of the pool leaves that buffer out, or nothing if it panicked. -/
def Snapshot.Lends (p : PoolId) (factories : Table Factory) : Except Panic Snapshot × Store → Prop
  | (.ok s, store) => store.Lends p s.buffer ∧ store.factories = factories
  | (.error _, store) => store.AtRest p ∧ store.factories = factories

theorem Store.AtRest.capture {s : Store} {p : PoolId} (h : s.AtRest p) {f : FactoryId} {held : List BufferId}
    (hf : s.factories.get? f = some ⟨.pool p, held⟩) (e : Entry) (isLocal : Bool) :
    Snapshot.Lends p s.factories (Snapshot.capture e isLocal (·.acquire f) s) := by
  obtain ⟨x, hid, -, hfactories, -⟩ := s.acquirePooled_push p
  obtain ⟨filled, hw, hcapture⟩ := Snapshot.capture_of_pool e isLocal Timestamp.localOffset hf
  have hlends := h.acquirePooled
  rw [hid] at hlends
  have hfilled := hlends.write? hw
  have hkept : filled.factories = s.factories := by
    obtain ⟨x, -, -, rfl⟩ := Store.eq_of_write? hw
    exact hfactories
  rw [hcapture]
  unfold Snapshot.finish
  cases e.time.decompose isLocal with
  | ok time => exact ⟨hfilled, hkept⟩
  | error panic => exact ⟨hfilled.release, (Store.factories_release filled _).trans hkept⟩

/-! ### Calls of sinks -/

namespace World

variable {w w' w'' : World}

/-- Nothing has changed but sinks. -/
structure Unmoved (w w' : World) : Prop where
  store : w'.plant.store = w.plant.store
  adapters : w'.adapters = w.adapters
  loggers : w'.loggers = w.loggers

theorem Unmoved.trans (h : Unmoved w w') (h' : Unmoved w' w'') : Unmoved w w'' :=
  ⟨h'.store.trans h.store, h'.adapters.trans h.adapters, h'.loggers.trans h.loggers⟩

theorem Unmoved.quiet (h : Unmoved w w') (hq : w.Quiet) : w'.Quiet := by
  intro id
  rw [h.adapters]
  exact hq id

theorem unmoved_report (w : World) (n : Notice) : Unmoved w (w.report n) := ⟨rfl, rfl, rfl⟩

theorem unmoved_logSink (hq : w.Quiet) (sink : SinkRef) (s : Snapshot) : Unmoved w (w.logSink sink s).2 := by
  cases sink with
  | direct id => exact ⟨rfl, rfl, rfl⟩
  | queued id =>
    unfold logSink
    dsimp only
    rw [withAdapter_of_quiet hq]
    exact ⟨rfl, rfl, rfl⟩

theorem unmoved_fanOut (hq : w.Quiet) (schedule : Schedule) (s : Snapshot) (name : String) (sinks : List SinkRef) :
    Unmoved w (Logger.fanOut (logDesk schedule.pace s) name sinks w).2 := by
  induction sinks generalizing w with
  | nil => exact ⟨rfl, rfl, rfl⟩
  | cons sink rest ih =>
    have hcall := unmoved_logSink hq sink s
    rw [← call_of_quiet (hcall.quiet hq) schedule] at hcall
    unfold Logger.fanOut
    dsimp only
    split
    · exact hcall.trans (ih (hcall.quiet hq))
    · rename_i n _
      have hreport := hcall.trans (unmoved_report _ n)
      exact hreport.trans (ih (hreport.quiet hq))

/-! ### Calls of loggers -/

/-- There are no adapters, the pool is at rest, and every logger takes its buffers from it. -/
structure Resting (w : World) (p : PoolId) : Prop where
  quiet : w.Quiet
  rest : w.plant.store.AtRest p
  loggers : ∀ l logger, w.loggers.get? l = some logger →
    ∃ held, w.plant.store.factories.get? logger.factory = some ⟨.pool p, held⟩

variable {p : PoolId} {l : LoggerId} {logger : Logger}

theorem Resting.setStore (h : w.Resting p) {store : Store} (hrest : store.AtRest p)
    (hfactories : store.factories = w.plant.store.factories) : (w.setStore store).Resting p where
  quiet := h.quiet
  rest := hrest
  loggers key x hx := by
    show ∃ held, store.factories.get? x.factory = _
    rw [hfactories]
    exact h.loggers key x hx

theorem Resting.modifyLogger (h : w.Resting p) (l : LoggerId) {f : Logger → Logger}
    (hf : ∀ x, (f x).factory = x.factory) : (w.modifyLogger l f).Resting p where
  quiet := h.quiet
  rest := h.rest
  loggers key x hx := by
    have hget : (w.loggers.modify l f).get? key = some x := hx
    rw [Table.get?_modify] at hget
    split at hget
    · obtain ⟨old, hold, rfl⟩ := Option.map_eq_some_iff.mp hget
      rw [hf]
      exact h.loggers key old hold
    · exact h.loggers key x hget

theorem factory_recordFiltered (x : Logger) : x.recordFiltered.factory = x.factory := by
  unfold Logger.recordFiltered
  split <;> rfl

theorem unmoved_dispatch (hq : w.Quiet) (hl : w.loggers.get? l = some logger) (schedule : Schedule) (s : Snapshot) :
    ∃ w' failures, Unmoved w w' ∧ w.dispatch schedule.pace l s = w'.modifyLogger l (·.countDispatch failures) := by
  unfold World.dispatch
  rw [hl]
  exact ⟨_, _, unmoved_fanOut hq schedule s logger.name logger.sinks, rfl⟩

/- The buffer is out while the sinks are called, and the store does not change in that time. -/
theorem Resting.dispatch (h : w.Resting p) (hl : w.loggers.get? l = some logger) {s : Snapshot} {store : Store}
    (hlends : store.Lends p s.buffer) (hfactories : store.factories = w.plant.store.factories)
    (schedule : Schedule) :
    (((w.setStore store).dispatch schedule.pace l s).setStore
      (s.drop ((w.setStore store).dispatch schedule.pace l s).plant.store)).Resting p := by
  have hback := h.setStore hlends.release ((Store.factories_release store s.buffer).trans hfactories)
  obtain ⟨w', failures, hmove, hdispatch⟩ :=
    unmoved_dispatch (w := w.setStore store) h.quiet hl schedule s
  have hstore : w'.plant.store = store := hmove.store
  rw [hdispatch]
  show ((w'.setStore (s.drop w'.plant.store)).modifyLogger l (·.countDispatch failures)).Resting p
  rw [hstore]
  have hsame : (w'.setStore (s.drop store)).Resting p := by
    refine ⟨hmove.quiet h.quiet, hback.rest, fun key x hx => ?_⟩
    have hget : w.loggers.get? key = some x := hmove.loggers ▸ hx
    exact hback.loggers key x hget
  exact hsame.modifyLogger l fun _ => rfl

theorem Resting.log (h : w.Resting p) (schedule : Schedule) (l : LoggerId) (e : Entry) :
    (w.log schedule.pace l e).2.Resting p := by
  cases hl : w.loggers.get? l with
  | none =>
    rw [log_of_missing hl]
    exact h
  | some logger =>
    cases hgate : logger.gate.passes e.severity with
    | false =>
      rw [log_of_rejected hl _ hgate]
      exact h.modifyLogger l factory_recordFiltered
    | true =>
      obtain ⟨held, hf⟩ := h.loggers l logger hl
      have hlends := h.rest.capture hf e logger.localTime
      cases hcapture : Snapshot.capture e logger.localTime (·.acquire logger.factory) w.plant.store with
      | mk result store =>
        rw [hcapture] at hlends
        cases result with
        | error panic =>
          rw [log_of_panic hl _ hgate hcapture]
          exact h.setStore hlends.1 hlends.2
        | ok s =>
          rw [log_of_captured hl _ hgate hcapture]
          exact h.dispatch hl hlends.1 hlends.2 schedule

theorem Resting.say (h : w.Resting p) (schedule : Schedule) (l : LoggerId) (call : Call) :
    (w.say schedule.pace l call).2.Resting p := by
  cases hl : w.loggers.get? l with
  | none =>
    rw [say_of_missing hl]
    exact h
  | some logger =>
    rw [say_eq_log hl]
    exact h.log schedule l _

/-- A call panics in the capture alone, and then nothing has changed but the buffers. -/
theorem say_of_panic {pace : Pace} {call : Call} {panic : Panic} (h : w.say pace l call = (some panic, w')) :
    ∃ store, w' = w.setStore store := by
  cases hl : w.loggers.get? l with
  | none =>
    rw [say_of_missing hl] at h
    cases h
  | some logger =>
    rw [say_eq_log hl] at h
    cases hgate : logger.gate.passes (call.toEntry logger.name).severity with
    | false =>
      rw [log_of_rejected hl _ hgate] at h
      cases h
    | true =>
      cases hcapture : Snapshot.capture (call.toEntry logger.name) logger.localTime
          (·.acquire logger.factory) w.plant.store with
      | mk result store =>
        cases result with
        | ok s =>
          rw [log_of_captured hl _ hgate hcapture] at h
          cases h
        | error p =>
          rw [log_of_panic hl _ hgate hcapture] at h
          cases h
          exact ⟨store, rfl⟩

/-! ### Whole runs -/

/-- Calls of loggers, and what may happen between them to loggers and sinks. A sink may come to do anything, so it
may fail and panic as it likes. -/
inductive SyncOp where
  | say (l : LoggerId) (call : Call) (schedule : Schedule)
  | setLevel (l : LoggerId) (level : Severity)
  | addSink (l : LoggerId) (sink : SinkRef)
  | removeSink (l : LoggerId) (sink : SinkRef)
  | alter (f : Outlets → Outlets)

def syncStep (w : World) : SyncOp → World
  | .say l call schedule => (w.say schedule.pace l call).2
  | .setLevel l level => w.modifyLogger l (·.setLevel level)
  | .addSink l sink => w.modifyLogger l (·.addSink sink)
  | .removeSink l sink => w.modifyLogger l (·.removeSink sink)
  | .alter f => w.setOutlets (f w.plant.outlets)

def syncRun (w : World) (ops : List SyncOp) : World := ops.foldl syncStep w

theorem Resting.step (h : w.Resting p) (op : SyncOp) : (w.syncStep op).Resting p := by
  cases op with
  | say l call schedule => exact h.say schedule l call
  | setLevel l level => exact h.modifyLogger l fun _ => rfl
  | addSink l sink => exact h.modifyLogger l fun _ => rfl
  | removeSink l sink => exact h.modifyLogger l fun _ => rfl
  | alter f => exact ⟨h.quiet, h.rest, h.loggers⟩

theorem Resting.run (h : w.Resting p) (ops : List SyncOp) : (w.syncRun ops).Resting p := by
  induction ops generalizing w with
  | nil => exact h
  | cons op rest ih => exact ih (h.step op)

/-- Loggers share a pool that is fresh at the start and has room for a node and a slot on its free lists. After any
calls, whether they returned or panicked, no buffer of the pool is live and all that it made is parked, one node and
one slot at most. A call that panics has changed no sink, and of the loggers neither counters nor sinks. -/
theorem rested_run (w : World) (p : PoolId) (limits : PoolLimits) (hquiet : w.Quiet)
    (hpool : w.plant.store.pools.get? p = some (.ofLimits limits)) (hnodes : limits.maxFreeNodes ≠ some 0)
    (hslots : limits.maxFreeSlots ≠ some 0) (hlive : w.plant.store.liveOf p = 0)
    (hloggers : ∀ l logger, w.loggers.get? l = some logger →
      ∃ held, w.plant.store.factories.get? logger.factory = some ⟨.pool p, held⟩)
    (ops : List SyncOp) :
    (w.syncRun ops).plant.store.liveOf p = 0 ∧
    (∃ pool, (w.syncRun ops).plant.store.pools.get? p = some pool ∧
      pool.nodes.free.length = pool.nodes.counts.allocated ∧ pool.nodes.counts.allocated ≤ 1 ∧
      pool.slots.free.length = pool.slots.counts.allocated ∧ pool.slots.counts.allocated ≤ 1) ∧
    ∀ l call (schedule : Schedule) panic w', (w.syncRun ops).say schedule.pace l call = (some panic, w') →
      w'.plant.outlets = (w.syncRun ops).plant.outlets ∧ w'.adapters = (w.syncRun ops).adapters ∧
        w'.loggers = (w.syncRun ops).loggers := by
  have hfirst : w.Resting p := ⟨hquiet, ⟨hlive, _, hpool, Pool.rested_ofLimits hnodes hslots⟩, hloggers⟩
  obtain ⟨pool, hget, hrested⟩ := (hfirst.run ops).rest.pool
  refine ⟨(hfirst.run ops).rest.live, ⟨pool, hget, hrested.nodes.parked, hrested.nodes.single,
    hrested.slots.parked, hrested.slots.single⟩, fun l call schedule panic w' hsay => ?_⟩
  obtain ⟨store, rfl⟩ := say_of_panic hsay
  exact ⟨rfl, rfl, rfl⟩

/-- Two loggers on one pool, one of them with the local clock. Every write to their sink panics. -/
def sharing : World :=
  let store := ((Store.empty.addPool ⟨some 1, none⟩).2.addFactory (.pool 0)).2
  let outlets := (Outlets.empty.addSink "probe" (.probe (.new .panicText [] .ok))).2
  let logger (isLocal : Bool) : Logger := ⟨"sharing", ⟨.info⟩, [.direct 0], 0, isLocal, true, .zero⟩
  ⟨⟨store, outlets⟩, .empty, (Table.empty.push (logger false)).push (logger true), .empty⟩

/- The local clock cannot show the last second, so the second call panics while its buffer is out. -/
theorem rested_run_sharing :
    let last : Timestamp := ⟨Timestamp.last, 0, by decide, by decide, by decide⟩
    let calls : List SyncOp :=
      [.say 0 (.message .error [104, 105] [] [] .epoch) fun _ => [],
        .say 1 (.entry ⟨.warn, [], [], [], [], last⟩) fun _ => [],
        .say 1 (.entry ⟨.info, [], [], [], [], .epoch⟩) fun _ => []]
    ((sharing.syncRun (calls.take 1)).say (fun _ w => w) 1 (.entry ⟨.warn, [], [], [], [], last⟩)).1 = some .localTime ∧
      (sharing.syncRun calls).plant.store.liveOf 0 = 0 ∧
      ∃ pool, (sharing.syncRun calls).plant.store.pools.get? 0 = some pool ∧
        pool.nodes.free.length = pool.nodes.counts.allocated ∧ pool.nodes.counts.allocated ≤ 1 ∧
        pool.slots.free.length = pool.slots.counts.allocated ∧ pool.slots.counts.allocated ≤ 1 := by
  intro last calls
  have hrun := rested_run sharing 0 ⟨some 1, none⟩ (fun _ => rfl) rfl (by decide) (by decide) rfl
    (fun l logger hl => ⟨[], by
      have hfactory : ∀ l logger, sharing.loggers.get? l = some logger → logger.factory = 0 := by
        intro l logger hl
        have hmem := Table.mem_rows_of_get? hl
        simp [sharing, Table.push, Table.empty] at hmem
        rcases hmem with ⟨-, rfl⟩ | ⟨-, rfl⟩ <;> rfl
      rw [hfactory l logger hl]
      rfl⟩) calls
  exact ⟨by decide, hrun.1, hrun.2.1⟩

end World

end Logbook
