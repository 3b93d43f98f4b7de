import Logbook.Proofs.InStep
import Logbook.Proofs.Counting
import Logbook.Proofs.InOrder
import Logbook.Proofs.Outlines
import Logbook.Proofs.Receipts
import Logbook.Proofs.Alone

/-!
# By whatever route

An entry, a message, and a message with its place in the code have the same effect if they say the same: the same
octets go to every sink whose formatter prints neither time nor place, and pools and loggers count the same. This
holds of calls in any order, with workers that lag behind.
-/

namespace Logbook

/-! ### Formatters that print neither time nor place -/

/-- Does the stage print neither time nor place? -/
def Stage.isTerse : Stage → Bool
  | .severity | .name | .message | .cacheCounts | .reenter | .fixed _ | .panic _ => true
  | _ => false

def Layout.isTerse (l : Layout) : Bool := l.stages.all Stage.isTerse

section

variable {r r' : Record} (hgist : r'.gist = r.gist)
include hgist

theorem Stage.write_terse {s : Stage} (h : s.isTerse = true) (again : Unit → Written) (c : SecondCache) :
    s.write again r' c = s.write again r c := by
  obtain ⟨hseverity, hname, hmessage⟩ : r'.severity = r.severity ∧ r'.name = r.name ∧ r'.message = r.message := by
    simpa [Record.gist] using hgist
  cases s with
  | severity => simp only [write, severityText, hseverity]
  | name => simp only [write, nameText, hname]
  | message => simp only [write, messageText, hmessage]
  | cacheCounts | reenter | fixed | panic => rfl
  | _ => cases h

theorem Stage.writeAll_terse {stages : List Stage} (h : stages.all Stage.isTerse = true) (again : Unit → Written)
    (c : SecondCache) : Stage.writeAll again stages r' c = Stage.writeAll again stages r c := by
  induction stages generalizing c with
  | nil => rfl
  | cons s rest ih =>
    obtain ⟨hs, hrest⟩ := Bool.and_eq_true_iff.mp h
    rw [writeAll, writeAll, Stage.write_terse hgist hs]
    simp only [ih hrest]

theorem Formatter.format_terse {f : Formatter} (h : f.layout.isTerse = true) : f.format r' = f.format r := by
  have hinner : f.inner r' = f.inner r := by
    unfold inner
    rw [Stage.writeAll_terse hgist h]
  unfold format
  rw [Stage.writeAll_terse hgist h, hinner]

end

namespace Outlets

variable {o o' : Outlets}

/-- No formatter prints the time or the place. -/
def Terse (o : Outlets) : Prop := ∀ f layout, o.layout? f = some layout → layout.isTerse = true

theorem Terse.congr (h : o.Terse) (hsame : o'.formatters = o.formatters) : o'.Terse := by
  intro f layout hf
  unfold layout? at hf
  rw [hsame] at hf
  exact h f layout hf

theorem Terse.format_eq (h : o.Terse) {r r' : Record} (hgist : r'.gist = r.gist) (f : FormatterId) :
    o.format f r' = o.format f r := by
  cases hf : o.formatters.get? f with
  | none => rw [format_of_none hf, format_of_none hf]
  | some formatter =>
    have hterse : formatter.layout.isTerse = true := h f _ (by unfold layout?; rw [hf]; rfl)
    rw [Outlets.format_eq hf, Outlets.format_eq hf, Formatter.format_terse hgist hterse]

theorem Terse.log_eq (h : o.Terse) {r r' : Record} (hgist : r'.gist = r.gist) (onWorker : Bool) (id : SinkId) :
    o.log onWorker id r' = o.log onWorker id r := by
  have hseverity : r'.severity = r.severity := congrArg Prod.fst hgist
  unfold log
  cases o.sinks.get? id with
  | none => rfl
  | some sink =>
    dsimp only
    rw [hseverity, h.format_eq hgist]

theorem layout?_format (o : Outlets) (f key : FormatterId) (r : Record) :
    (o.format f r).2.layout? key = o.layout? key := by
  cases hf : o.formatters.get? f with
  | none => rw [format_of_none hf]
  | some formatter =>
    rw [Outlets.format_eq hf]
    unfold layout?
    dsimp only
    rw [Table.get?_set]
    split
    · rename_i hkey
      subst hkey
      rw [hf]
      rfl
    · rfl

theorem formatters_emit (o : Outlets) (stream : Stream) (bs : Bytes) :
    (o.emit stream bs).formatters = o.formatters := by
  cases stream <;> rfl

theorem formatters_write (o : Outlets) (onWorker : Bool) (id : SinkId) (bs : Bytes) :
    (o.write onWorker id bs).2.formatters = o.formatters := by
  unfold write
  split
  · rfl
  · split
    · rfl
    · exact o.formatters_emit _ _
    · rfl
    · rfl

theorem Terse.format (h : o.Terse) (f : FormatterId) (r : Record) : (o.format f r).2.Terse := fun key layout hkey =>
  h key layout (layout?_format o f key r ▸ hkey)

theorem Terse.log (h : o.Terse) (onWorker : Bool) (id : SinkId) (r : Record) : (o.log onWorker id r).2.Terse := by
  unfold Outlets.log
  cases o.sinks.get? id with
  | none => exact h
  | some sink =>
    dsimp only
    split
    · have hformat := h.format sink.formatter r
      split
      · exact hformat
      · exact hformat.congr (formatters_emit _ _ _)
      · exact hformat.congr (formatters_write _ _ _ _)
    · exact h

theorem Terse.flush (h : o.Terse) (id : SinkId) : (o.flush id).2.Terse := by
  unfold Outlets.flush
  split
  · exact h
  · split <;> exact h.congr rfl

theorem Terse.letGo (h : o.Terse) {id : SinkId} {outcome : Outcome} (hgo : o.letGo id = some (outcome, o')) :
    o'.Terse := by
  unfold Outlets.letGo at hgo
  split at hgo
  · split at hgo
    · obtain ⟨x, -, hx⟩ := Option.map_eq_some_iff.mp hgo
      cases hx
      exact h.congr rfl
    · cases hgo
  · cases hgo

end Outlets

/-! ### Twin worlds -/

/-- The same outlets, and stores with the same outline in which snapshots that belong together say the same. -/
structure Plant.Twin (R : Pairing) (p q : Plant) : Prop where
  store : p.store.Twin q.store
  outlets : q.outlets = p.outlets
  terse : p.outlets.Terse
  likes : ∀ {x y}, R x y → Snapshot.Like p.store q.store x y

theorem Plant.blurs_twin {R : Pairing} (hR : ∀ {x y}, R x y → y.severity = x.severity) : Blurs R (Twin R) where
  severity := hR
  outlets h := h.outlets
  report h n := ⟨h.store, congrArg (·.report n) h.outlets, h.terse.congr rfl, h.likes⟩
  release {p q} h {x y} hxy := by
    have hbuffer := (h.likes hxy).buffer
    unfold Plant.release Snapshot.drop
    rw [hbuffer]
    exact ⟨h.store.release _, h.outlets, h.terse, fun hold => (h.likes hold).release h.store _⟩
  clone {p q} h {x y} hxy := by
    have hbuffer := (h.likes hxy).buffer
    unfold Snapshot.clone
    rw [hbuffer]
    exact ⟨h.store.clone _, h.outlets, h.terse, fun hold => (h.likes hold).clone _⟩
  log {p q} h {x y} hxy onWorker id := by
    unfold Plant.log
    rw [h.outlets, h.terse.log_eq (h.likes hxy).gist]
    exact ⟨rfl, h.store, rfl, h.terse.log onWorker id _, h.likes⟩
  write {p q} h onWorker id bs := by
    unfold Plant.write
    rw [h.outlets]
    exact ⟨rfl, h.store, rfl, h.terse.congr (p.outlets.formatters_write onWorker id bs), h.likes⟩
  flush h id := by
    unfold Plant.flush
    rw [h.outlets]
    exact ⟨rfl, h.store, rfl, h.terse.flush id, h.likes⟩
  letGo {p q} h {id o outlets} hgo := ⟨h.store, rfl, h.terse.letGo hgo, h.likes⟩

/-! ### More snapshots that belong together -/

section

variable {R S : Pairing} (hRS : ∀ {x y}, R x y → S x y)
include hRS

theorem Command.InStep.mono {c d : Command} (h : c.InStep R d) : c.InStep S d := by
  cases h with
  | record h => exact .record (hRS h)
  | raw bs => exact .raw bs
  | flush ticket => exact .flush ticket

theorem Queue.InStep.mono {q r : Queue} (h : q.InStep R r) : q.InStep S r := by
  cases h with
  | mk hpending hwaiting hworker =>
    refine .mk (hpending.imp fun _ _ hc => hc.mono hRS) (hwaiting.imp fun _ _ hc => ⟨hc.1, hc.2.mono hRS⟩) ?_
    cases hworker with
    | idle => exact .idle
    | busy hc => exact .busy (hc.mono hRS)
    | finished => exact .finished
    | dead => exact .dead

theorem World.InStep.adapters_mono {T : Plant → Plant → Prop} {w v : World} (h : InStep R T w v) (id : AdapterId) :
    Option.Rel (Adapter.InStep S) (w.adapters.get? id) (v.adapters.get? id) := by
  rcases rel_cases (h.adapters id) with ⟨hw, hv⟩ | ⟨a, b, hw, hv, hab⟩
  · rw [hw, hv]
    exact .none
  · rw [hw, hv]
    cases hab with
    | mk hqueue => exact .some (.mk (hqueue.mono hRS))

end

/-- On a logger, two calls say the same, and the times of both can be split or neither's. -/
def Call.Says (logger : Logger) (call call' : Call) : Prop :=
  (call'.toEntry logger.name).gist = (call.toEntry logger.name).gist ∧
    ((call'.toEntry logger.name).time.decompose logger.localTime).isOk =
      ((call.toEntry logger.name).time.decompose logger.localTime).isOk

namespace World

/-- Two worlds between which only snapshots differ, and those say the same. -/
def Twins (w v : World) : Prop :=
  ∃ R : Pairing, (∀ {x y}, R x y → y.severity = x.severity) ∧ InStep R (Plant.Twin R) w v

namespace Twins

variable {w v : World}

theorem log (h : Twins w v) (schedule : Schedule) {l : LoggerId} {e e' : Entry} (hgist : e'.gist = e.gist)
    (hends : ∀ logger, w.loggers.get? l = some logger →
      (e'.time.decompose logger.localTime).isOk = (e.time.decompose logger.localTime).isOk) :
    Twins (w.log schedule.pace l e).2 (v.log schedule.pace l e').2 := by
  obtain ⟨R, hR, hstep⟩ := h
  have hseverity : e'.severity = e.severity := congrArg Prod.fst hgist
  unfold World.log
  rw [hstep.loggers]
  cases hl : w.loggers.get? l with
  | none => exact ⟨R, hR, hstep⟩
  | some logger =>
    dsimp only
    rw [hseverity]
    split
    · have hplant := hstep.plant
      have hcaught := hplant.store.capture (hends logger hl) logger.factory
      have hleft := (Snapshot.capture_grown e logger.localTime Timestamp.localOffset logger.factory w.plant.store).1
      have hright := (Snapshot.capture_grown e' logger.localTime Timestamp.localOffset logger.factory v.plant.store).1
      generalize hx : Snapshot.capture e logger.localTime (·.acquire logger.factory) w.plant.store = x at *
      generalize hy : Snapshot.capture e' logger.localTime (·.acquire logger.factory) v.plant.store = y at *
      cases hcaught with
      | error htwin =>
        refine ⟨R, hR, ⟨htwin, hplant.outlets, hplant.terse, fun hold => ?_⟩, hstep.adapters, hstep.loggers⟩
        exact (hplant.likes hold).grown hplant.store hleft hright
      | @ok a b s t hbuffer htwin =>
        have hlike := Snapshot.like_capture hx hy hbuffer hgist
        let S : Pairing := fun x y => R x y ∨ (x = a ∧ y = b)
        have hS : ∀ {x y}, S x y → y.severity = x.severity := by
          rintro x y (hold | ⟨rfl, rfl⟩)
          · exact hR hold
          · exact hlike.severity
        have hnew : InStep S (Plant.Twin S) (w.setStore s) (v.setStore t) := by
          refine ⟨⟨htwin, hplant.outlets, hplant.terse, ?_⟩, hstep.adapters_mono .inl, hstep.loggers⟩
          rintro x y (hold | ⟨rfl, rfl⟩)
          · exact (hplant.likes hold).grown hplant.store hleft hright
          · exact hlike
        have hsent := hnew.dispatch (Plant.blurs_twin hS) (.inr ⟨rfl, rfl⟩) schedule l
        have hback := (Plant.blurs_twin hS).release hsent.plant (.inr ⟨rfl, rfl⟩)
        exact ⟨S, hS, hback, hsent.adapters, hsent.loggers⟩
    · exact ⟨R, hR, hstep.modifyLogger l _⟩

theorem say (h : Twins w v) (schedule : Schedule) {l : LoggerId} {call call' : Call}
    (hsame : ∀ logger, w.loggers.get? l = some logger → Call.Says logger call call') :
    Twins (w.say schedule.pace l call).2 (v.say schedule.pace l call').2 := by
  have hloggers : v.loggers = w.loggers := by
    obtain ⟨R, -, hstep⟩ := h
    exact hstep.loggers
  cases hl : w.loggers.get? l with
  | none =>
    rw [say_of_missing hl, say_of_missing (hloggers ▸ hl)]
    exact h
  | some logger =>
    obtain ⟨hgist, hends⟩ := hsame logger hl
    rw [say_eq_log hl, say_eq_log (hloggers ▸ hl)]
    refine h.log schedule hgist fun other hother => ?_
    rw [hl] at hother
    cases hother
    exact hends

end Twins

/-! ### Scripts -/

/-- What is done with loggers and workers, one thing after another. -/
inductive Errand where
  | say (l : LoggerId) (call : Call) (schedule : Schedule)
  | flush (l : LoggerId)
  | setLevel (l : LoggerId) (level : Severity)
  | work (id : AdapterId)
  | letGo (id : AdapterId)

def errand (w : World) : Errand → World
  | .say l call schedule => (w.say schedule.pace l call).2
  | .flush l => (w.flushLogger l).2
  | .setLevel l level => w.modifyLogger l (·.setLevel level)
  | .work id => w.work id
  | .letGo id => (w.letGo id).2

def errands (w : World) (es : List Errand) : World := es.foldl errand w

/-- The same errand, but for the route of a call. -/
inductive Errand.Rerouted (w : World) : Errand → Errand → Prop where
  | same (e : Errand) : Rerouted w e e
  | say {l : LoggerId} {call call' : Call} (schedule : Schedule)
      (h : ∀ logger, w.loggers.get? l = some logger → Call.Says logger call call') :
    Rerouted w (.say l call schedule) (.say l call' schedule)

/-- Two scripts that differ in the routes of calls only. -/
inductive Reroutes : World → List Errand → List Errand → Prop where
  | nil (w : World) : Reroutes w [] []
  | cons {w : World} {e e' : Errand} {es es' : List Errand} (h : e.Rerouted w e')
      (hrest : Reroutes (w.errand e) es es') : Reroutes w (e :: es) (e' :: es')

namespace Twins

variable {w v : World}

theorem errand (h : Twins w v) {e e' : Errand} (hsame : e.Rerouted w e') : Twins (w.errand e) (v.errand e') := by
  cases hsame with
  | say schedule hspoken => exact h.say schedule hspoken
  | same e =>
    cases e with
    | say l call schedule => exact h.say schedule fun _ _ => ⟨rfl, rfl⟩
    | flush l =>
      obtain ⟨R, hR, hstep⟩ := h
      exact ⟨R, hR, (hstep.flushLogger (Plant.blurs_twin hR) l).2⟩
    | setLevel l level =>
      obtain ⟨R, hR, hstep⟩ := h
      exact ⟨R, hR, hstep.modifyLogger l _⟩
    | work id =>
      obtain ⟨R, hR, hstep⟩ := h
      exact ⟨R, hR, hstep.work (Plant.blurs_twin hR) id⟩
    | letGo id =>
      obtain ⟨R, hR, hstep⟩ := h
      exact ⟨R, hR, (hstep.letGo (Plant.blurs_twin hR) id).2⟩

theorem errands (h : Twins w v) {es es' : List Errand} (hsame : Reroutes w es es') :
    Twins (w.errands es) (v.errands es') := by
  induction hsame generalizing v with
  | nil => exact h
  | cons hfirst _ ih => exact ih (h.errand hfirst)

end Twins

/-- Queues hold snapshots of buffers only that there have been. -/
def Dated (w : World) : Prop :=
  ∀ id a, w.adapters.get? id = some a →
    ∀ c ∈ a.queue.pending ++ a.queue.waiting.map (·.2) ++ Adapter.inHand a.queue, ∀ x, c.snapshot? = some x →
      x.buffer < w.plant.store.buffers.next

theorem twins_refl {w : World} (hterse : w.plant.outlets.Terse) (hdated : w.Dated) : Twins w w := by
  let R : Pairing := fun x y => y = x ∧ x.buffer < w.plant.store.buffers.next
  have hcommand : ∀ c : Command, (∀ x, c.snapshot? = some x → x.buffer < w.plant.store.buffers.next) →
      c.InStep R c := by
    intro c hc
    cases c with
    | record x => exact .record ⟨rfl, hc x rfl⟩
    | raw bs => exact .raw bs
    | flush ticket => exact .flush ticket
  refine ⟨R, fun h => by rw [h.1], ⟨⟨rfl⟩, rfl, hterse, ?_⟩, fun id => ?_, rfl⟩
  · rintro x y ⟨rfl, hold⟩
    exact ⟨rfl, hold, rfl⟩
  · cases ha : w.adapters.get? id with
    | none => exact .none
    | some a =>
      have hin := fun c hc => hcommand c (hdated id a ha c hc)
      obtain ⟨gate, formatter, inner, ⟨settings, isOpen, pending, waiting, worker, joined, stats, alerts, ticket,
        answers⟩⟩ := a
      refine .some (.mk (.mk ?_ ?_ ?_))
      · exact List.forall₂_same.mpr fun c hc => hin c (by simp [hc])
      · exact List.forall₂_same.mpr fun c hc => ⟨rfl, hin c.2 (by simpa using .inr (.inl ⟨c.1, hc⟩))⟩
      · cases worker with
        | idle => exact .idle
        | busy c => exact .busy (hin c (by simp [Adapter.inHand]))
        | finished => exact .finished
        | dead => exact .dead

/-- What is left of the route of a call: nothing in the sinks, in what adapters and loggers count, or in the pools. -/
structure SameEffect (w v : World) : Prop where
  outlets : v.plant.outlets = w.plant.outlets
  loggers : v.loggers = w.loggers
  pools : ∀ p, (v.plant.store.pools.get? p).map Pool.tally = (w.plant.store.pools.get? p).map Pool.tally
  queues : ∀ id, (v.adapters.get? id).map (·.queue.stats) = (w.adapters.get? id).map (·.queue.stats)

theorem Twins.sameEffect {w v : World} (h : Twins w v) : SameEffect w v := by
  obtain ⟨R, hR, hstep⟩ := h
  refine ⟨hstep.plant.outlets, hstep.loggers, hstep.plant.store.tally_eq, fun id => ?_⟩
  rcases rel_cases (hstep.adapters id) with ⟨hw, hv⟩ | ⟨a, b, hw, hv, hab⟩
  · rw [hw, hv]
  · rw [hw, hv]
    exact congrArg some hab.queue.stats_eq

end World

/-! ### Every call is counted once, by whatever route -/

namespace Scene

/-- The calls that callers have begun since the world was `w` are accounted for. -/
structure CountsOnce (w : World) (s : Scene) : Prop where
  /-- A logger has counted every call that came to its end: as logged if the gate never said no, and else as turned
  away if it counts those. -/
  counted : ∀ l first, w.loggers.get? l = some first → ∃ now, s.world.loggers.get? l = some now ∧
    now.metrics.logged = first.metrics.logged + s.count (·.isLogged l) ∧
    (first.countFiltered = true → now.metrics.logged + now.metrics.filtered =
      first.metrics.logged + first.metrics.filtered + s.count (·.isCounted l)) ∧
    (first.countFiltered = false → now.metrics.filtered = first.metrics.filtered)
  /-- No call is lost: all but the one under way have ended. -/
  begun : ∀ i c, s.callers.get? i = some c → c.begun = c.past.length + if c.phase.isCalling then 1 else 0
  /-- Buffers and sinks are for calls to which the gate never said no. -/
  through : ∀ i c, s.callers.get? i = some c → c.phase.isThrough = true → c.checks.all id = true
  /-- All other calls change nothing, but for the count of those that are turned away. -/
  unadmitted : ∀ i c, s.callers.get? i = some c → c.phase.isCalling = true → c.phase.isThrough = false → ∀ t,
    (s.step (.caller i t)).world = s.world ∨
      ∃ l, c.phase = .rejected l ∧ (s.step (.caller i t)).world = s.world.recordFiltered l
  /-- The steps of a call come to what the call does, if the other callers rest and no worker leaves it in line. -/
  whole : ∀ i c, s.callers.get? i = some c → c.phase = .idle → ∀ (schedule : World.Schedule) l call,
    s.world.holdsUp schedule.pace l (call.toEntry (s.world.loggerName l)) = false →
    ∃ checks, checks.all id = s.world.passes l call.severity ∧
      (s.step (.caller i (.log l call))).Reaches i ⟨(s.world.say schedule.pace l call).2,
        s.callers.set i ⟨.idle, [], c.begun + 1, ⟨l, checks, (s.world.say schedule.pace l call).1⟩ :: c.past⟩⟩

theorem counts_once_run (w : World) (n : Nat) (events : List Event) :
    ((start w n).run events).CountsOnce w ∧
      (w.plant.outlets.Terse → w.Dated → ∀ es es', w.Reroutes es es' →
        (w.errands es).SameEffect (w.errands es')) := by
  have hinv := (inv_start w n).run events
  generalize (start w n).run events = s at hinv ⊢
  refine ⟨⟨fun l first hfirst => ?_, fun i c hc => ?_, fun i c hc hthrough => ?_, ?_, ?_⟩, ?_⟩
  · have hrel := hinv.loggers l
    rw [hfirst] at hrel
    rcases rel_cases hrel with ⟨hnone, _⟩ | ⟨_, now, hsome, hnow, htallied⟩
    · cases hnone
    · cases hsome
      have hfiltered := htallied.filtered
      have hlogged := htallied.logged
      have hcounted := s.count_isCounted l
      refine ⟨now, hnow, hlogged, fun hon => ?_, fun hoff => ?_⟩
      · rw [hon, if_pos rfl] at hfiltered
        omega
      · rw [hoff] at hfiltered
        exact hfiltered
  · exact (hinv.callers i c hc).begun
  · exact (Phase.fits_of_isThrough hthrough _).mp (hinv.callers i c hc).fits
  · intro i c hc hcalling hthrough t
    exact world_of_unadmitted hc hcalling hthrough t
  · intro i c hc hidle schedule l call hfree
    have hchecks : c.checks = [] := by
      have hfits := (hinv.callers i c hc).fits
      rw [hidle] at hfits
      exact hfits
    have hcaller : (⟨.idle, [], c.begun, c.past⟩ : Caller) = c := by rw [← hidle, ← hchecks]
    have hsay := reaches_say hc schedule l call c.begun c.past hfree
    rw [hcaller, Table.set_of_get? hc] at hsay
    exact hsay
  · intro hterse hdated es es' hroutes
    exact ((World.twins_refl hterse hdated).errands hroutes).sameEffect

/-- A logger that writes to a memory sink, first through a queue with one place and then directly. Lines show what is
said and nothing else. -/
def plainspoken : World :=
  let outlets := (Outlets.empty.addFormatter (.ofLayout (.pipeline [.severity, .name, .message]))).2
  let sinks := Table.empty.push ⟨"memory", Outlets.startGate, 0, .memory .empty⟩
  let logger : Logger := ⟨"plain", ⟨.info⟩, [.queued 0, .direct 0], 0, false, true, .zero⟩
  let adapter : Adapter := ⟨Outlets.startGate, 0, 0, .ofSettings ⟨"queue", "memory", 1, .dropNewest, false, false⟩⟩
  ⟨⟨((Store.empty.addPool ⟨none, none⟩).2.addFactory (.pool 0)).2, { outlets with sinks := sinks }⟩,
    Table.empty.push adapter, Table.empty.push logger, .empty⟩

theorem terse_plainspoken : plainspoken.plant.outlets.Terse := by
  intro f layout hf
  have hget : ((Table.empty.push (Formatter.ofLayout (.pipeline [.severity, .name, .message]))).get? f).map
      (·.layout) = some layout := hf
  rw [Table.get?_push] at hget
  split at hget
  · cases hget
    rfl
  · cases hget

theorem dated_plainspoken : plainspoken.Dated := by
  intro id a ha c hc
  have hget : (Table.empty.push _ : Table Adapter).get? id = some a := ha
  rw [Table.get?_push] at hget
  split at hget
  · cases hget
    cases hc
  · cases hget

/- The level is raised between the two questions about the first message, so of two calls one is logged. If the second
caller rests, the first goes through both sinks. -/
theorem counts_once_raised :
    let here : Call := .message .info [104] [102] [49] .epoch
    let entry : Call := .entry ⟨.info, utf8 "plain", [], [], [104], .epoch⟩
    let steps (n : Nat) (i : CallerId) : List Event := List.replicate n (.caller i .advance)
    let events : List Event := [.caller 0 (.log 0 here), .caller 1 (.log 0 entry)] ++ steps 1 0 ++ steps 2 1 ++
      [.setLevel 0 .error] ++ steps 2 0 ++ steps 5 1
    let calls : List World.Errand := [.say 0 here fun _ => [], .say 0 entry fun _ => [0]]
    let entries : List World.Errand := [.say 0 entry fun _ => [], .say 0 here fun _ => [0]]
    (plainspoken.plant.outlets.Terse ∧ plainspoken.Dated ∧ plainspoken.Reroutes calls entries) ∧
      (∃ now, ((start plainspoken 2).run events).world.loggers.get? 0 = some now ∧
        now.metrics.logged = 1 ∧ now.metrics.logged + now.metrics.filtered = 2) ∧
      (∃ checks, checks.all id = true ∧ ((start plainspoken 2).step (.caller 0 (.log 0 here))).Reaches 0
        ⟨(plainspoken.say (World.Schedule.pace fun _ => [0]) 0 here).2,
          (start plainspoken 2).callers.set 0 ⟨.idle, [], 1, [⟨0, checks, none⟩]⟩⟩) ∧
      (plainspoken.errands calls).SameEffect (plainspoken.errands entries) := by
  intro here entry steps events calls entries
  have hspoken : ∀ logger : Logger, logger.name = "plain" → logger.localTime = false →
      Call.Says logger here entry ∧ Call.Says logger entry here := by
    intro logger hname hlocal
    unfold Call.Says
    rw [hlocal]
    simp [here, entry, Call.toEntry, Entry.gist, hname]
  have hroutes : plainspoken.Reroutes calls entries := by
    refine .cons (.say _ fun logger hl => ?_) (.cons (.say _ fun logger hl => ?_) (.nil _))
    · cases hl
      exact (hspoken _ rfl rfl).1
    · have hplate : ((plainspoken.errand (.say 0 here fun _ => [])).loggers.get? 0).map
          (fun logger => (logger.name, logger.localTime)) = some ("plain", false) := by decide
      rw [hl] at hplate
      obtain ⟨hname, hlocal⟩ := Prod.mk.inj (Option.some.inj hplate)
      exact (hspoken logger hname hlocal).2
  obtain ⟨hcounts, hsame⟩ := counts_once_run plainspoken 2 events
  obtain ⟨now, hnow, hlogged, hsum, -⟩ := hcounts.counted 0 _ rfl
  have hwhole := (counts_once_run plainspoken 2 []).1.whole 0 .new rfl rfl (fun _ => [0]) 0 here (by decide)
  refine ⟨⟨terse_plainspoken, dated_plainspoken, hroutes⟩, ⟨now, hnow, ?_, ?_⟩, hwhole,
    hsame terse_plainspoken dated_plainspoken calls entries hroutes⟩
  · rw [hlogged]
    decide
  · rw [hsum rfl]
    decide

end Scene

end Logbook
