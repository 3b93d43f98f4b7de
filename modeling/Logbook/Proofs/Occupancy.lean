import Logbook.Proofs.Detour
import Logbook.Proofs.Resting
import Logbook.Proofs.Turnover
import Logbook.Proofs.Alone

/-!
# How many buffers are out

A logger draws on a pool of its own and writes to one adapter. Behind every live buffer of the pool is a caller in the
middle of a call, a place in the queue, or the command in the worker's hands: a caller that waits for room holds the
buffer of the command that waits. So callers, places and the worker bound how many buffers are ever live.
-/

namespace Logbook

/-- A logger in front of an adapter with so many places, and the pool that the logger draws on. -/
structure Station extends Supply where
  logger : LoggerId
  adapter : AdapterId
  limit : Nat

/-! ### Callers -/

namespace Phase

/-- The handle of a call under way, once its record is captured. -/
def holds : Phase → List BufferId
  | sending d | blocked d _ _ | returning d _ _ => [d.snapshot.buffer]
  | _ => []

/-- The call is one of the station's logger, and its record goes to the station's adapter. -/
def At (σ : Station) : Phase → Prop
  | asking l _ | offering l _ | admitted l _ => l = σ.logger
  | sending d | returning d _ _ => d.rest ⊆ [.queued σ.adapter]
  | blocked d id _ => id = σ.adapter ∧ d.rest ⊆ [.queued σ.adapter]
  | _ => True

def isBlocked : Phase → Bool
  | blocked .. => true
  | _ => false

theorem length_holds_le (phase : Phase) : phase.holds.length ≤ 1 := by
  cases phase <;> simp [holds]

end Phase

/-- The caller waits for room, with a command under this ticket that holds this buffer. -/
def Caller.Waits (c : Caller) (σ : Station) (ticket : Nat) (b : BufferId) : Prop :=
  ∃ d, c.phase = .blocked d σ.adapter ticket ∧ d.snapshot.buffer = b

theorem Caller.not_waits {c : Caller} (h : c.phase.isBlocked = false) (σ : Station) (ticket : Nat) (b : BufferId) :
    ¬ c.Waits σ ticket b := by
  rintro ⟨d, hblocked, -⟩
  rw [hblocked] at h
  cases h

/-! ### Worlds -/

namespace World

variable {σ : Station} {w w' : World} {q q' : Queue} {held held' others : Holdings} {c : Caller}

/-- The station is in order: all handles on buffers of its pool are those in `held` and those in its queue. -/
structure Serves (w : World) (σ : Station) (q : Queue) (held : Holdings) : Prop where
  logger : ∃ logger, w.loggers.get? σ.logger = some logger ∧ logger.sinks = [.queued σ.adapter] ∧
    logger.factory = σ.factory
  adapter : ∃ a, w.adapters.get? σ.adapter = some a ∧ a.queue = q
  limit : q.settings.limit = σ.limit
  room : q.pending.length ≤ q.settings.limit
  store : w.plant.store.Supplies σ.toSupply (held.moreAll q.holds)

namespace Serves

theorem unmoved (h : w.Serves σ q held) (hmove : Unmoved w w') : w'.Serves σ q held where
  logger := by
    rw [hmove.loggers]
    exact h.logger
  adapter := by
    rw [hmove.adapters]
    exact h.adapter
  limit := h.limit
  room := h.room
  store := by
    rw [hmove.store]
    exact h.store

theorem setStore (h : w.Serves σ q held) {store : Store} (hstore : store.Supplies σ.toSupply (held'.moreAll q.holds)) :
    (w.setStore store).Serves σ q held' := ⟨h.logger, h.adapter, h.limit, h.room, hstore⟩

theorem modifyLogger (h : w.Serves σ q held) (l : LoggerId) {f : Logger → Logger}
    (hsinks : ∀ x, (f x).sinks = x.sinks) (hfactory : ∀ x, (f x).factory = x.factory) :
    (w.modifyLogger l f).Serves σ q held := by
  obtain ⟨logger, hl, hls, hlf⟩ := h.logger
  refine ⟨?_, h.adapter, h.limit, h.room, h.store⟩
  show ∃ logger, (w.loggers.modify l f).get? σ.logger = _ ∧ _
  rw [Table.get?_modify, hl]
  split
  · exact ⟨f logger, rfl, (hsinks logger).trans hls, (hfactory logger).trans hlf⟩
  · exact ⟨logger, rfl, hls, hlf⟩

/-- The adapter of the station acts. -/
theorem act (h : w.Serves σ q held) {a : Adapter} (ha : w.adapters.get? σ.adapter = some a) {marks : List Adapter.Mark}
    {a' : Adapter} {plant : Plant} (hchange : Adapter.Change q marks a'.queue)
    (hstore : plant.store.Supplies σ.toSupply (held'.moreAll a'.queue.holds)) :
    ({ w with plant := plant, adapters := w.adapters.set σ.adapter a' } : World).Serves σ a'.queue held' := by
  refine ⟨h.logger, ⟨a', ?_, rfl⟩, ?_, Adapter.room_change h.room hchange, hstore⟩
  · dsimp only
    rw [Table.get?_set, if_pos rfl, ha]
    rfl
  · rw [Adapter.settings_change hchange]
    exact h.limit

theorem log (h : w.Serves σ q held) {s : Snapshot} (hs : 0 < held s.buffer) :
    ∃ a, w.adapters.get? σ.adapter = some a ∧ a.queue = q ∧
      (w.logSink (.queued σ.adapter) s).1 = (a.log s w.plant).1 ∧
      (w.logSink (.queued σ.adapter) s).2.Serves σ (a.log s w.plant).2.1.queue held := by
  obtain ⟨a, ha, rfl⟩ := h.adapter
  refine ⟨a, ha, rfl, ?_⟩
  unfold logSink
  dsimp only
  rw [withAdapter_of_some ha]
  exact ⟨rfl, h.act ha (a.change_step (.log s w.plant)) (Adapter.supplies_log h.store hs)⟩

theorem move (h : w.Serves σ q held) (m : Adapter.Move) :
    ∃ q', (w.move σ.adapter m).Serves σ q' held ∧ q'.waiting ⊆ q.waiting := by
  obtain ⟨a, ha, rfl⟩ := h.adapter
  have hchange := a.change_step (m.event a w.plant)
  rw [← Adapter.move_adapter a w.plant] at hchange
  unfold World.move
  rw [withAdapter_of_some ha]
  exact ⟨_, h.act ha hchange (Adapter.supplies_move h.store m), a.waiting_move w.plant m⟩

/-- A flush holds no buffer. -/
theorem askFlush (h : w.Serves σ q held) {id : AdapterId} {a : Adapter} (ha : w.adapters.get? id = some a)
    (hopen : a.queue.isOpen = true) :
    ∃ q', ({ w with adapters := w.adapters.set id { a with queue := a.queue.askFlush.2 } } : World).Serves σ q' held ∧
      ∀ ticket s, (ticket, .record s) ∈ q'.waiting → (ticket, .record s) ∈ q.waiting := by
  by_cases hid : id = σ.adapter
  · subst hid
    obtain ⟨x, hx, rfl⟩ := h.adapter
    rw [ha] at hx
    cases hx
    obtain ⟨hcount, hwaiting⟩ := Adapter.askFlush_spec a.queue
    have hchange := a.change_askFlush
    unfold Adapter.step at hchange
    rw [if_pos hopen] at hchange
    refine ⟨_, h.act ha hchange (h.store.of_eq fun b => ?_), hwaiting⟩
    exact congrArg (held b + ·) (hcount b)
  · refine ⟨q, ⟨h.logger, ?_, h.limit, h.room, h.store⟩, fun ticket s hmem => hmem⟩
    dsimp only
    rw [Table.get?_set, if_neg (Ne.symm hid)]
    exact h.adapter

end Serves

/-! ### One turn of a caller -/

/-- The station is in order after a turn of the caller `c`. In the line before the queue stand those who stood there,
and the caller if it has come to wait. -/
structure Turned (σ : Station) (others : Holdings) (q : Queue) (c : Caller) (r : Caller × World) : Prop where
  phase : r.1.phase.At σ
  serves : ∃ q', r.2.Serves σ q' (others.moreAll r.1.phase.holds) ∧ ∀ ticket s, (ticket, .record s) ∈ q'.waiting →
    r.1.Waits σ ticket s.buffer ∨ (ticket, .record s) ∈ q.waiting ∧ ¬ c.Waits σ ticket s.buffer

theorem turned_still (hat : c.phase.At σ) (h : w.Serves σ q (others.moreAll c.phase.holds)) :
    Turned σ others q c (c, w) := by
  refine ⟨hat, q, h, fun ticket s hmem => ?_⟩
  by_cases hwaits : c.Waits σ ticket s.buffer
  · exact .inl hwaits
  · exact .inr ⟨hmem, hwaits⟩

/-- A caller that does not wait, and whose turn does not make it wait. -/
theorem turned_of_serves (hfree : c.phase.isBlocked = false) {r : Caller × World} (hat : r.1.phase.At σ)
    (h : r.2.Serves σ q' (others.moreAll r.1.phase.holds))
    (hline : ∀ ticket s, (ticket, .record s) ∈ q'.waiting → (ticket, .record s) ∈ q.waiting) :
    Turned σ others q c r :=
  ⟨hat, q', h, fun ticket s hmem => .inr ⟨hline ticket s hmem, Caller.not_waits hfree σ ticket s.buffer⟩⟩

theorem turned_same (hfree : c.phase.isBlocked = false) {r : Caller × World} (hat : r.1.phase.At σ)
    (h : r.2.Serves σ q (others.moreAll r.1.phase.holds)) : Turned σ others q c r :=
  turned_of_serves hfree hat h fun _ _ hmem => hmem

theorem turned_returned {d : Dispatch} {sink : SinkRef} {o : Outcome} (hphase : c.phase = .returning d sink o)
    (hat : c.phase.At σ) (h : w.Serves σ q (others.moreAll c.phase.holds)) :
    Turned σ others q c (c.enters (.sending d), w.returned d sink o) := by
  have hfree : c.phase.isBlocked = false := by
    rw [hphase]
    rfl
  rw [hphase] at h hat
  refine turned_same hfree hat ?_
  unfold returned
  split
  · exact h
  · exact (h.unmoved (unmoved_report w _)).modifyLogger d.logger (fun _ => rfl) fun _ => rfl

theorem sinks_recordFiltered (x : Logger) : x.recordFiltered.sinks = x.sinks := by
  unfold Logger.recordFiltered
  split <;> rfl

/-- The gate has answered, and nothing is captured yet. -/
theorem turned_checked {next : Phase} (hfree : c.phase.isBlocked = false) (h : w.Serves σ q others) (hnext : next.At σ)
    (hholds : next.holds = []) (l : LoggerId) (passed : Bool) : Turned σ others q c (c.checked l passed next, w) := by
  have hserves : w.Serves σ q (others.moreAll next.holds) := hholds ▸ h
  cases passed with
  | true => exact turned_same hfree hnext hserves
  | false => exact turned_same hfree trivial h

theorem turned_captureFor {e : Entry} (hphase : c.phase = .admitted σ.logger e)
    (h : w.Serves σ q (others.moreAll c.phase.holds)) (hlive : w.plant.store.liveOf σ.pool < σ.bound) :
    Turned σ others q c (w.captureFor c σ.logger e) := by
  have hfree : c.phase.isBlocked = false := by
    rw [hphase]
    rfl
  rw [hphase] at h
  obtain ⟨logger, hl, hsinks, hfactory⟩ := h.logger
  have hdrawn := h.store.capture hlive e logger.localTime
  unfold captureFor
  rw [hl]
  dsimp only
  rw [hfactory]
  cases hcapture : Snapshot.capture e logger.localTime (·.acquire σ.factory) w.plant.store with
  | mk result store =>
    rw [hcapture] at hdrawn
    cases result with
    | error p => exact turned_same hfree trivial (h.setStore hdrawn)
    | ok s =>
      refine turned_same hfree ?_ (h.setStore (hdrawn.of_eq fun b => ?_))
      · show logger.sinks ⊆ _
        rw [hsinks]
        exact List.Subset.refl _
      · simp only [Holdings.more, Holdings.moreAll, Caller.enters, Phase.holds, List.count_nil, List.count_singleton,
          beq_iff_eq]
        omega

theorem turned_conclude {d : Dispatch} (hphase : c.phase = .sending d)
    (h : w.Serves σ q (others.moreAll c.phase.holds)) : Turned σ others q c (w.conclude c d) := by
  have hfree : c.phase.isBlocked = false := by
    rw [hphase]
    rfl
  rw [hphase] at h
  have hstore : (d.snapshot.drop w.plant.store).Supplies σ.toSupply ((others.moreAll []).moreAll q.holds) := by
    refine Store.Supplies.release (h.store.of_eq fun b => ?_)
    simp only [Holdings.more, Holdings.moreAll, Phase.holds, List.count_nil, List.count_singleton, beq_iff_eq]
    omega
  unfold conclude
  refine turned_same hfree trivial ?_
  exact (h.modifyLogger d.logger (f := (·.countLogged)) (fun _ => rfl) fun _ => rfl).setStore hstore

theorem turned_callSink {d : Dispatch} {rest : List SinkRef} (hphase : c.phase = .sending d)
    (hrest : rest ⊆ [.queued σ.adapter]) (h : w.Serves σ q (others.moreAll c.phase.holds)) :
    Turned σ others q c (w.callSink c { d with rest := rest } (.queued σ.adapter)) := by
  have hfree : c.phase.isBlocked = false := by
    rw [hphase]
    rfl
  rw [hphase] at h
  have hs : 0 < others.moreAll (Phase.sending d).holds d.snapshot.buffer := by
    simp [Holdings.moreAll, Phase.holds]
  obtain ⟨a, ha, rfl, hanswer, hserves⟩ := h.log hs
  unfold callSink
  dsimp only
  cases hcall : w.logSink (.queued σ.adapter) d.snapshot with
  | mk answer w' =>
    rw [hcall] at hanswer hserves
    dsimp only at hanswer hserves
    rcases a.log_line d.snapshot w.plant with ⟨o, hsome, hline⟩ | ⟨hnone, ticket, hline⟩
    · rw [hsome] at hanswer
      subst hanswer
      exact turned_of_serves hfree hrest hserves fun _ _ hmem => hline ▸ hmem
    · rw [hnone] at hanswer
      subst hanswer
      obtain ⟨x, hx, hqueue⟩ := hserves.adapter
      have hticket : w'.lastTicket? (.queued σ.adapter) = some (σ.adapter, ticket) := by
        simp [lastTicket?, hx, hqueue, hline]
      dsimp only
      rw [hticket]
      refine ⟨⟨rfl, hrest⟩, _, hserves, fun t s hmem => ?_⟩
      rw [hline] at hmem
      rcases List.mem_append.mp hmem with hold | hnew
      · exact .inr ⟨hold, Caller.not_waits hfree σ t s.buffer⟩
      · simp only [List.mem_singleton, Prod.mk.injEq, Command.record.injEq] at hnew
        obtain ⟨rfl, rfl⟩ := hnew
        exact .inl ⟨{ d with rest := rest }, rfl, rfl⟩

theorem turned_resume {d : Dispatch} {ticket : Nat} (hphase : c.phase = .blocked d σ.adapter ticket)
    (hat : c.phase.At σ) (h : w.Serves σ q (others.moreAll c.phase.holds)) :
    Turned σ others q c (w.resume c d σ.adapter ticket) := by
  unfold resume
  by_cases hline : w.inLine σ.adapter ticket = true
  · rw [if_pos hline]
    exact turned_still hat h
  · rw [if_neg hline]
    rw [hphase] at hat h
    refine ⟨hat.2, q, h, fun t s hmem => .inr ⟨hmem, ?_⟩⟩
    -- what the caller waited with has left the line
    rintro ⟨d', hblocked, -⟩
    rw [hphase] at hblocked
    cases hblocked
    obtain ⟨a, ha, rfl⟩ := h.adapter
    refine hline ?_
    unfold inLine
    rw [ha]
    exact List.any_eq_true.mpr ⟨_, hmem, by simp⟩

section Flushing

variable (hfree : c.phase.isBlocked = false)
include hfree

theorem turned_flushed (h : w.Serves σ q others) (sink : SinkRef) (rest : List SinkRef) (o : Outcome) :
    Turned σ others q c (w.flushed c sink rest o) := by
  cases o with
  | done => exact turned_same hfree trivial h
  | failed e => exact turned_same hfree trivial (h.unmoved (unmoved_report w _))
  | panicked p => exact turned_same hfree trivial h

theorem turned_flushNext (h : w.Serves σ q others) (rest : List SinkRef) (sink : SinkRef) :
    Turned σ others q c (w.flushNext c rest sink) := by
  have hflush : ∀ id, ({ w with plant := (w.plant.flush id).2 } : World).Serves σ q others :=
    fun id => h.unmoved ⟨rfl, rfl, rfl⟩
  cases sink with
  | direct id => exact turned_flushed hfree (hflush id) _ rest _
  | queued id =>
    unfold flushNext
    dsimp only
    cases ha : w.adapters.get? id with
    | none => exact turned_same hfree trivial h
    | some a =>
      dsimp only
      by_cases hopen : a.queue.isOpen = true
      · rw [if_pos hopen]
        obtain ⟨q', hserves, hline⟩ := h.askFlush ha hopen
        cases hask : a.queue.askFlush with
        | mk admission queue =>
          rw [hask] at hserves
          cases admission with
          | waits ticket => exact turned_of_serves hfree trivial hserves hline
          | refused e => exact turned_flushed hfree h _ rest _
          | accepted | preserved | dropped => exact turned_same hfree trivial h
      · rw [if_neg hopen]
        exact turned_flushed hfree (hflush a.inner) _ rest _

end Flushing

/-- A turn keeps the station in order, as long as a caller without a buffer finds one buffer less than there may be. -/
theorem turned_advance (hat : c.phase.At σ) (h : w.Serves σ q (others.moreAll c.phase.holds))
    (hlive : c.phase.holds = [] → w.plant.store.liveOf σ.pool < σ.bound) :
    Turned σ others q c (w.advance c) := by
  unfold advance
  cases hphase : c.phase with
  | idle => exact turned_still hat h
  | asking l call =>
    rw [hphase] at hat h
    exact turned_checked (congrArg Phase.isBlocked hphase) h (show Phase.At σ (.offering l _) from hat) rfl l _
  | offering l e =>
    rw [hphase] at hat h
    exact turned_checked (congrArg Phase.isBlocked hphase) h (show Phase.At σ (.admitted l e) from hat) rfl l _
  | rejected l =>
    rw [hphase] at h
    exact turned_same (hphase ▸ rfl) trivial (h.modifyLogger l sinks_recordFiltered factory_recordFiltered)
  | admitted l e =>
    rw [hphase] at hat
    cases hat
    exact turned_captureFor hphase h (hlive (hphase ▸ rfl))
  | sending d =>
    rw [hphase] at hat
    dsimp only
    cases hrest : d.rest with
    | nil => exact turned_conclude hphase h
    | cons sink rest =>
      have hsub : sink :: rest ⊆ [.queued σ.adapter] := hrest ▸ hat
      have hsink : sink = .queued σ.adapter := List.mem_singleton.mp (hsub List.mem_cons_self)
      subst hsink
      exact turned_callSink hphase (fun x hx => hsub (List.mem_cons_of_mem _ hx)) h
  | blocked d id ticket =>
    have hid := hphase ▸ hat
    obtain ⟨rfl, -⟩ := hid
    exact turned_resume hphase hat h
  | returning d sink o => exact turned_returned hphase hat h
  | flushing rest =>
    rw [hphase] at h
    cases rest with
    | nil => exact turned_same (hphase ▸ rfl) trivial h
    | cons sink rest => exact turned_flushNext (hphase ▸ rfl) h rest sink
  | awaiting id ticket rest =>
    dsimp only
    cases w.answer? id ticket with
    | none => exact turned_still hat h
    | some o =>
      rw [hphase] at h
      exact turned_flushed (hphase ▸ rfl) h _ rest o

theorem turned_turn (hat : c.phase.At σ) (h : w.Serves σ q (others.moreAll c.phase.holds))
    (hlive : c.phase.holds = [] → w.plant.store.liveOf σ.pool < σ.bound) {t : Turn}
    (ht : ∀ l call, t = .log l call → l = σ.logger) : Turned σ others q c (w.turn c t) := by
  cases t with
  | advance => exact turned_advance hat h hlive
  | log l call =>
    unfold turn
    dsimp only
    split
    · rename_i hidle
      rw [hidle] at h
      cases ht l call rfl
      cases call with
      | entry e => exact turned_same (hidle ▸ rfl) rfl h
      | message severity text file line time => exact turned_same (hidle ▸ rfl) rfl h
    · exact turned_still hat h
  | flush l =>
    unfold turn
    dsimp only
    split
    · rename_i hidle _
      rw [hidle] at h
      exact turned_same (hidle ▸ rfl) trivial h
    · exact turned_still hat h
  | lapse e =>
    unfold turn
    dsimp only
    split
    · rename_i hphase
      split
      · exact turned_still hat h
      · rw [hphase] at h
        exact turned_flushed (hphase ▸ rfl) h _ _ _
    · exact turned_still hat h

end World

/-! ### Scenes -/

namespace Scene

variable {σ : Station} {s : Scene}

/-- The handles that callers hold. -/
def held (s : Scene) : Holdings := fun b => s.callers.total fun c => c.phase.holds.count b

/-- What may happen at a station: its logger is called, its adapter goes on behind the callers, loggers are flushed and
levels are set. -/
def Event.At (l : LoggerId) (id : AdapterId) : Event → Prop
  | .caller _ (.log l' _) => l' = l
  | .move id' _ => id' = id
  | _ => True

/-- The station is in order, every call under way is one of its calls, and whatever waits for room is held by a caller
that waits with it. -/
structure Occupied (s : Scene) (σ : Station) : Prop where
  serves : ∃ q, s.world.Serves σ q s.held ∧ ∀ ticket x, (ticket, .record x) ∈ q.waiting →
    ∃ i c, s.callers.get? i = some c ∧ c.Waits σ ticket x.buffer
  callers : ∀ i c, s.callers.get? i = some c → c.phase.At σ
  bound : σ.limit + 1 + s.callers.total (fun _ => 1) ≤ σ.bound

namespace Occupied

theorem mem_handles_waiting {waiting : List (Nat × Command)} {b : BufferId} (h : b ∈ handles (waiting.map (·.2))) :
    ∃ ticket x, (ticket, .record x) ∈ waiting ∧ x.buffer = b := by
  obtain ⟨command, hcommand, hbuffer⟩ := List.mem_filterMap.mp h
  obtain ⟨⟨ticket, command⟩, hentry, rfl⟩ := List.mem_map.mp hcommand
  cases command with
  | raw bs => cases hbuffer
  | flush t => cases hbuffer
  | record x => exact ⟨ticket, x, hentry, Option.some.inj hbuffer⟩

/-- Live buffers are held by callers, stand in the queue or are in the worker's hands. -/
theorem liveOf_le (h : s.Occupied σ) {a : Adapter} (ha : s.world.adapters.get? σ.adapter = some a) :
    s.world.plant.store.liveOf σ.pool ≤ s.callers.total (fun c => c.phase.holds.length) + a.queue.pending.length +
      (Adapter.inHand a.queue).length := by
  obtain ⟨q, hserves, hline⟩ := h.serves
  obtain ⟨x, hx, rfl⟩ := hserves.adapter
  rw [ha] at hx
  cases hx
  let ofCallers := s.callers.gather fun c => c.phase.holds
  have hcallers : ∀ b, 0 < s.held b → b ∈ ofCallers := by
    intro b hb
    apply List.count_pos_iff.mp
    rw [Table.count_gather]
    exact hb
  have hmem : ∀ b, 0 < s.held.moreAll a.queue.holds b →
      b ∈ ofCallers ++ handles (a.queue.pending ++ Adapter.inHand a.queue) := by
    intro b hb
    by_cases hcaller : 0 < s.held b
    · exact List.mem_append_left _ (hcallers b hcaller)
    · unfold Holdings.moreAll at hb
      have hqueue : b ∈ a.queue.holds := List.count_pos_iff.mp (by omega)
      unfold Queue.holds at hqueue
      rw [handles_append] at hqueue
      rcases List.mem_append.mp hqueue with hin | hwaiting
      · exact List.mem_append_right _ hin
      · obtain ⟨ticket, x, hentry, rfl⟩ := mem_handles_waiting hwaiting
        obtain ⟨i, c, hc, d, hblocked, hsame⟩ := hline ticket x hentry
        -- who waits for room holds the buffer too
        have hheld : (Phase.blocked d σ.adapter ticket).holds.count x.buffer ≤ s.held x.buffer :=
          hblocked ▸ Table.le_total hc fun c => c.phase.holds.count x.buffer
        simp only [Phase.holds, hsame, List.count_singleton_self] at hheld
        omega
  have hlive := hserves.store.liveOf_le hmem
  have hpending := length_handles_le (a.queue.pending ++ Adapter.inHand a.queue)
  rw [List.length_append, Table.length_gather] at hlive
  rw [List.length_append] at hpending
  omega

theorem liveOf_le_places (h : s.Occupied σ) :
    s.world.plant.store.liveOf σ.pool ≤ s.callers.total (fun c => c.phase.holds.length) + σ.limit + 1 := by
  obtain ⟨q, hserves, -⟩ := h.serves
  obtain ⟨a, ha, rfl⟩ := hserves.adapter
  have hlive := h.liveOf_le ha
  have hhand := Adapter.length_inHand_le a.queue
  have hroom := hserves.room
  rw [hserves.limit] at hroom
  omega

theorem liveOf_le_bound (h : s.Occupied σ) : s.world.plant.store.liveOf σ.pool ≤ σ.bound := by
  have hlive := h.liveOf_le_places
  have hholds : s.callers.total (fun c => c.phase.holds.length) ≤ s.callers.total fun _ => 1 :=
    Table.total_le_total fun c => c.phase.length_holds_le
  have hbound := h.bound
  omega

/-- A caller that holds nothing leaves a buffer to spare. -/
theorem liveOf_lt (h : s.Occupied σ) {i : CallerId} {c : Caller} (hc : s.callers.get? i = some c)
    (hnone : c.phase.holds = []) : s.world.plant.store.liveOf σ.pool < σ.bound := by
  have hlive := h.liveOf_le_places
  have hholds := Table.total_erase hc fun c => c.phase.holds.length
  have hcallers := Table.total_erase hc fun _ => 1
  have hrest : (s.callers.erase i).total (fun c => c.phase.holds.length) ≤ (s.callers.erase i).total fun _ => 1 :=
    Table.total_le_total fun c => c.phase.length_holds_le
  have hbound := h.bound
  rw [hnone, List.length_nil] at hholds
  omega

theorem caller (h : s.Occupied σ) (i : CallerId) {t : Turn} (ht : ∀ l call, t = .log l call → l = σ.logger) :
    (s.step (.caller i t)).Occupied σ := by
  cases hc : s.callers.get? i with
  | none =>
    rw [step_of_none hc]
    exact h
  | some c =>
    obtain ⟨q, hserves, hline⟩ := h.serves
    -- the handles of all callers are those of this one and those of the others
    let others : Holdings := fun b => (s.callers.erase i).total fun c => c.phase.holds.count b
    have hheld : s.held = others.moreAll c.phase.holds := by
      funext b
      exact Table.total_erase hc fun c => c.phase.holds.count b
    rw [hheld] at hserves
    obtain ⟨hat, q', hafter, hbehind⟩ :=
      World.turned_turn (h.callers i c hc) hserves (fun hnone => h.liveOf_lt hc hnone) ht
    rw [step_of_some hc]
    generalize s.world.turn c t = r at hat hafter hbehind ⊢
    have hget : (s.callers.set i r.1).get? i = some r.1 := by
      rw [Table.get?_set, if_pos rfl, hc]
      rfl
    have hother : ∀ j, j ≠ i → (s.callers.set i r.1).get? j = s.callers.get? j := by
      intro j hj
      rw [Table.get?_set, if_neg hj]
    refine ⟨⟨q', ?_, fun ticket x hmem => ?_⟩, fun j c' hj => ?_, ?_⟩
    · have hheld' : (⟨r.2, s.callers.set i r.1⟩ : Scene).held = others.moreAll r.1.phase.holds := by
        funext b
        have herase := Table.total_erase hget fun c => c.phase.holds.count b
        unfold Table.set at herase
        rw [Table.erase_modify] at herase
        exact herase
      rw [hheld']
      exact hafter
    · rcases hbehind ticket x hmem with hwaits | ⟨hold, hnot⟩
      · exact ⟨i, r.1, hget, hwaits⟩
      · obtain ⟨j, c', hj, hwaits⟩ := hline ticket x hold
        have hji : j ≠ i := by
          rintro rfl
          rw [hc] at hj
          cases hj
          exact hnot hwaits
        exact ⟨j, c', (hother j hji).trans hj, hwaits⟩
    · by_cases hji : j = i
      · subst hji
        rw [hget] at hj
        cases hj
        exact hat
      · exact h.callers j c' ((hother j hji).symm.trans hj)
    · have hcount := Table.total_set hc r.1 fun _ => 1
      have hbound := h.bound
      dsimp only
      omega

theorem step (h : s.Occupied σ) {e : Event} (he : e.At σ.logger σ.adapter) : (s.step e).Occupied σ := by
  cases e with
  | caller i t =>
    refine h.caller i fun l call ht => ?_
    subst ht
    exact he
  | move id m =>
    cases (he : id = σ.adapter)
    obtain ⟨q, hserves, hline⟩ := h.serves
    obtain ⟨q', hafter, hsub⟩ := hserves.move m
    exact ⟨⟨q', hafter, fun ticket x hmem => hline ticket x (hsub hmem)⟩, h.callers, h.bound⟩
  | setLevel l level =>
    obtain ⟨q, hserves, hline⟩ := h.serves
    exact ⟨⟨q, hserves.modifyLogger l (f := (·.setLevel level)) (fun _ => rfl) fun _ => rfl, hline⟩, h.callers, h.bound⟩

theorem run (h : s.Occupied σ) {events : List Event} (hevents : ∀ e ∈ events, e.At σ.logger σ.adapter) :
    (s.run events).Occupied σ := by
  induction events generalizing s with
  | nil => exact h
  | cons e rest ih =>
    exact ih (h.step (hevents e List.mem_cons_self)) fun e' hmem => hevents e' (List.mem_cons_of_mem e hmem)

/-- With nothing queued, nothing in the worker's hands and no call under way, no buffer is live. -/
theorem liveOf_eq_zero (h : s.Occupied σ) {a : Adapter} (ha : s.world.adapters.get? σ.adapter = some a)
    (hpending : a.queue.pending = []) (hworker : a.queue.worker = .idle)
    (hidle : ∀ i c, s.callers.get? i = some c → c.phase = .idle) : s.world.plant.store.liveOf σ.pool = 0 := by
  have hlive := h.liveOf_le ha
  have hcallers : s.callers.total (fun c => c.phase.holds.length) = 0 := by
    refine Table.total_eq_zero fun i c hc => ?_
    rw [hidle i c hc]
    rfl
  rw [hcallers, hpending, Adapter.inHand_of_idle hworker] at hlive
  exact Nat.le_zero.mp hlive

end Occupied

theorem occupied_start {w : World} (n : Nat) (hserves : ∃ q, w.Serves σ q (fun _ => 0) ∧ q.waiting = [])
    (hbound : σ.limit + 1 + n ≤ σ.bound) : (start w n).Occupied σ := by
  obtain ⟨q, hserves, hwaiting⟩ := hserves
  have hheld : (start w n).held = fun _ => 0 := by
    funext b
    exact (total_start w n _).trans (Nat.mul_zero n)
  refine ⟨⟨q, hheld ▸ hserves, fun ticket x hmem => ?_⟩, fun i c hc => ?_, ?_⟩
  · rw [hwaiting] at hmem
    cases hmem
  · rw [get?_start w n hc]
    trivial
  · rw [total_start, Nat.mul_one]
    exact hbound

/-- A logger with a pool of its own, without limits, writes to a new adapter alone. Whatever its callers and the worker
do, in any order, its live buffers are no more than the places of the queue, the worker and the callers together, and
the pool makes no more nodes and slots than that. When nothing is queued, the worker is idle and no call is under way,
all that the pool made is parked. A whole step of the worker, and a caller that waited too long, are among the moves of
the adapter. -/
theorem occupancy_run (w : World) (l : LoggerId) (logger : Logger) (id : AdapterId) (a : Adapter)
    (settings : QueueSettings) (p : PoolId) (kept : List BufferId)
    (hlogger : w.loggers.get? l = some logger) (hsinks : logger.sinks = [.queued id])
    (hadapter : w.adapters.get? id = some a) (hnew : a.queue = .ofSettings settings)
    (hfactory : w.plant.store.factories.get? logger.factory = some ⟨.pool p, kept⟩)
    (hpool : w.plant.store.pools.get? p = some (.ofLimits ⟨none, none⟩)) (hlive : w.plant.store.liveOf p = 0)
    (n : Nat) (events : List Event) (hevents : ∀ e ∈ events, e.At l id) :
    let s := (start w n).run events
    (∃ ms : List Adapter.Move, s.run (ms.map (.move id)) = { s with world := s.world.work id }) ∧
    (∃ ms : List Adapter.Move, s.run (ms.map (.move id)) = { s with world := (s.world.expire (.queued id)).2 }) ∧
    ∃ pool, s.world.plant.store.pools.get? p = some pool ∧
      s.world.plant.store.liveOf p ≤ max 1 settings.capacity + 1 + n ∧
      pool.nodes.counts.allocated ≤ max 1 settings.capacity + 1 + n ∧
      pool.slots.counts.allocated ≤ max 1 settings.capacity + 1 + n ∧
      ∀ b, s.world.adapters.get? id = some b → b.queue.pending = [] → b.queue.worker = .idle →
        (∀ i c, s.callers.get? i = some c → c.phase = .idle) →
        pool.nodes.free.length = pool.nodes.counts.allocated ∧
        pool.slots.free.length = pool.slots.counts.allocated := by
  intro s
  let σ : Station := ⟨⟨p, logger.factory, settings.limit + 1 + n⟩, l, id, settings.limit⟩
  have hstore := Store.supplies_fresh ⟨kept, hfactory⟩ hpool hlive σ.bound
  have hfirst : w.Serves σ a.queue fun _ => 0 := by
    rw [hnew]
    exact ⟨⟨logger, hlogger, hsinks, rfl⟩, ⟨a, hadapter, hnew⟩, rfl, Nat.zero_le _, hstore⟩
  have hend : s.Occupied σ :=
    (occupied_start n ⟨a.queue, hfirst, hnew ▸ rfl⟩ (Nat.le_refl _)).run hevents
  obtain ⟨q, hserves, -⟩ := hend.serves
  obtain ⟨pool, acquired, hget, hbal, hthrifty⟩ := hserves.store.pool
  refine ⟨run_work s id, run_expire s id, pool, hget, ?_, hthrifty.nodes.allocated, hthrifty.slots.allocated,
    fun b hb hpending hworker hidle => ?_⟩
  · exact hend.liveOf_le_bound
  · rw [hend.liveOf_eq_zero hb hpending hworker hidle] at hbal
    exact ⟨hthrifty.nodes.parked hbal.nodes, hthrifty.slots.parked hbal.slots⟩

/-- A logger with a pool of its own, before a queue that has no more room than it must have. -/
def crowded : World :=
  let outlets := (Outlets.empty.addSink "memory" (.memory .empty)).2
  let adapter : Adapter := ⟨Outlets.startGate, 0, 0, .ofSettings ⟨"queue", "memory", 0, .block, false, false⟩⟩
  ⟨⟨((Store.empty.addPool ⟨none, none⟩).2.addFactory (.pool 0)).2, outlets⟩, Table.empty.push adapter,
    Table.empty.push ⟨"crowded", ⟨.info⟩, [.queued 0], 0, false, true, .zero⟩, .empty⟩

/- One record is in the worker's hands, one is queued, and both callers wait for room: that is as many buffers as there
can be. When the worker has gone through them all, four nodes and four slots are parked. -/
theorem occupancy_run_crowded :
    let steps (n : Nat) (i : CallerId) : List Event := List.replicate n (.caller i .advance)
    let logs (n : Nat) (i : CallerId) : List Event :=
      .caller i (.log 0 (.entry ⟨.info, [], [], [], [104], .epoch⟩)) :: steps n i
    let next : List Event := [.move 0 (.finish .done), .move 0 .take, .move 0 (.enter 0)]
    let filling := logs 5 0 ++ .move 0 .take :: logs 5 0 ++ logs 3 0 ++ logs 3 1
    let settling := next ++ next ++ next ++ [.move 0 (.finish .done)] ++ steps 3 0 ++ steps 3 1
    ((start crowded 2).run filling).world.plant.store.liveOf 0 = 4 ∧
      (∃ pool, ((start crowded 2).run filling).world.plant.store.pools.get? 0 = some pool ∧
        pool.nodes.counts.allocated ≤ 4 ∧ pool.slots.counts.allocated ≤ 4) ∧
      ∃ pool, ((start crowded 2).run (filling ++ settling)).world.plant.store.pools.get? 0 = some pool ∧
        pool.nodes.free.length = pool.nodes.counts.allocated ∧
        pool.slots.free.length = pool.slots.counts.allocated := by
  intro steps logs next filling settling
  have hrun := occupancy_run crowded 0 _ 0 _ _ 0 [] rfl rfl rfl rfl rfl rfl rfl 2
  have hfilling : ∀ e ∈ filling, e.At 0 0 := by
    simp [filling, logs, steps, List.replicate, Event.At]
  have hsettling : ∀ e ∈ filling ++ settling, e.At 0 0 := by
    simp [filling, settling, next, logs, steps, List.replicate, Event.At]
  obtain ⟨-, -, pool, hpool, -, hnodes, hslots, -⟩ := hrun filling hfilling
  obtain ⟨-, -, pool', hpool', -, -, -, hparked⟩ := hrun (filling ++ settling) hsettling
  have hphases : ((start crowded 2).run (filling ++ settling)).callers.rows.map (·.2.phase) = [.idle, .idle] := rfl
  refine ⟨by decide, ⟨pool, hpool, hnodes, hslots⟩, pool', hpool', hparked _ rfl rfl rfl fun i c hc => ?_⟩
  have hmem : c.phase ∈ [Phase.idle, .idle] := hphases ▸ List.mem_map_of_mem (Table.mem_rows_of_get? hc)
  simpa using hmem

end Scene

end Logbook
