import Logbook.Proofs.Custody
import Logbook.Proofs.Handover

/-!
# Closing an adapter

Closing is final: a closed queue takes no more offers and is never opened again. If the one who closed it has seen the
worker end, then all that was sent has gone to the inner sink, which was flushed after the last of it.
-/

namespace Logbook

theorem Store.release_clone {s : Store} {b : BufferId} (h : 0 < s.refsOf b) : (s.clone b).release b = s := by
  obtain ⟨x, hx⟩ := exists_of_refsOf_pos h
  have hpos : 0 < x.slot.refs := by
    rw [refsOf_of_some hx] at h
    exact h
  have hmore : (s.clone b).buffers.get? b = some (moreOne x) := by
    rw [clone_of_some hx]
    dsimp only
    rw [Table.get?_set, if_pos rfl, hx]
    rfl
  have hshared : (moreOne x).slot.refs ≠ 1 := by
    have hrefs : (moreOne x).slot.refs = x.slot.refs + 1 := rfl
    omega
  have hback : lessOne (moreOne x) = x := rfl
  rw [release_of_shared hmore hshared, clone_of_some hx, hback]
  dsimp only
  rw [Table.set_set, Table.set_of_get? hx]

namespace Adapter

open Queue

section

variable {past new : List Mark} {q q' : Queue}

/-! ### Closed queues -/

/-- A closed queue. Once its worker is gone, nobody waits and nothing is left in it. -/
structure Closed (q : Queue) : Prop where
  isOpen : q.isOpen = false
  waiting : q.isGone = true → q.waiting = []
  pending : q.isGone = true → q.pending = []

theorem Closed.change (h : Closed q) (hc : Change q new q') : Closed q' := by
  have hopen := h.isOpen
  have hwaiting := h.waiting
  have hpending := h.pending
  constructor
  case isOpen =>
    cases hc with
    | close => rfl
    | _ => exact hopen
  case waiting =>
    intro hgone
    cases hc with
    | _ => simp_all [isGone]
  case pending =>
    intro hgone
    cases hc with
    | enter hi =>
      -- nobody waits for a worker that is gone
      have hnobody := hwaiting hgone
      rw [hnobody] at hi
      cases hi
    | leave o hidle hclosed hnothing => exact hnothing
    | _ => simp_all [isGone]

theorem step_close (a : Adapter) :
    (a.step .close).queue =
      { a.queue with isOpen := false, pending := if a.queue.isGone then [] else a.queue.pending } := by
  have hgone : a.queue.close.isGone = a.queue.isGone := rfl
  simp only [step, clearOut, hgone]
  cases h : a.queue.isGone with
  | true => simp [close]
  | false => simp [close]

theorem closed_step {a : Adapter} (h : Fits past a.queue) : Closed (a.step .close).queue := by
  rw [step_close]
  refine ⟨rfl, fun hgone => h.waiting hgone, fun hgone => ?_⟩
  have hgone' : a.queue.isGone = true := hgone
  dsimp only
  rw [if_pos hgone']

theorem closed_run {a : Adapter} (h : Closed a.queue) (events : List Event) : Closed (a.run events).queue :=
  run_keeps (P := fun _ q => Closed q) (fun hc h => h.change hc) a events [] h

/-! ### Calls of a closed adapter -/

variable {a : Adapter}

theorem offer_of_closed (h : a.queue.isOpen = false) (c : Command) (p : Plant) :
    a.offer c p = (some (.failed (.stopped a.queue.settings.name)), a, a.host.discard [c] p) := by
  have hrefused : a.queue.offer c = (.refused (.stopped a.queue.settings.name), a.queue, []) := by
    unfold Queue.offer
    rw [h]
    rfl
  unfold offer
  rw [hrefused]
  rfl

theorem write_of_closed (h : a.queue.isOpen = false) (bs : Bytes) (p : Plant) :
    a.write bs p = (some (.failed (.stopped a.queue.settings.name)), a, p) := offer_of_closed h (.raw bs) p

/- The handle that was made for the queue is given back. -/
theorem log_of_closed (h : a.queue.isOpen = false) {s : Snapshot} (hgate : a.gate.passes s.severity = true)
    (p : Plant) :
    a.log s p = (some (.failed (.stopped a.queue.settings.name)), a, { p with store := s.drop (s.clone p.store) }) := by
  unfold log
  rw [if_pos hgate, offer_of_closed h]
  rfl

theorem clearOut_of_closed (h : Closed q) : q.close.clearOut = ([], q) := by
  have hopen := h.isOpen
  have hpending := h.pending
  obtain ⟨settings, isOpen, pending, waiting, worker, joined, stats, alerts, nextTicket, answers⟩ := q
  subst hopen
  unfold close clearOut
  split
  · rename_i hgone
    have hnothing : pending = [] := hpending hgone
    rw [hnothing]
  · rfl

theorem shutdown_of_closed (h : Closed a.queue) {pace : Adapter → Plant → Adapter × Plant} {p : Plant}
    (hjoined : (pace a p).1.queue.joined = true) (timeout : Duration) :
    a.shutdown pace timeout p = (true, pace a p) := by
  have hclear : a.host.clearOut a.queue.close p = (a.queue, p) := by
    unfold Host.clearOut
    rw [clearOut_of_closed h]
    rfl
  have hjoin : (pace a p).1.queue.join timeout = (true, (pace a p).1.queue, []) := by
    unfold join
    rw [if_pos hjoined]
  unfold shutdown
  rw [hclear]
  dsimp only
  rw [hjoin]
  rfl

/-! ### Waiting for the worker -/

theorem joined_change (hc : Change q new q') (h : q.joined = true) : q'.joined = true := by
  cases hc with
  | join => rfl
  | _ => exact h

theorem joined_run (h : a.queue.joined = true) (events : List Event) : (a.run events).queue.joined = true :=
  run_keeps (P := fun _ q => q.joined = true) (fun hc h => joined_change hc h) a events [] h

theorem joined_join (q : Queue) (timeout : Duration) : (q.join timeout).2.1.joined = true := by
  unfold join
  split
  · assumption
  · rfl

theorem joined_offer (a : Adapter) (c : Command) (p : Plant) : (a.offer c p).2.1.queue.joined = a.queue.joined := by
  have hqueue : (a.queue.offer c).2.1.joined = a.queue.joined := by
    rcases offer_cases a.queue c with ⟨_, heq⟩ | ⟨_, _, heq⟩ | ⟨_, _, heq⟩ | ⟨_, _, heq⟩ <;> rw [heq]
    · rcases overflow_cases a.queue c with ⟨_, heq⟩ | ⟨_, _, alerts, notices, heq⟩ | ⟨_, _, heq⟩ <;> rw [heq]
    · rfl
  unfold offer
  rcases hoffer : a.queue.offer c with ⟨admission, q, notices⟩
  rw [hoffer] at hqueue
  cases admission with
  | preserved =>
    cases c with
    | record s =>
      dsimp only
      rw [countDelivery_eq]
      exact hqueue
    | raw bs => exact hqueue
    | flush ticket => exact hqueue
  | _ => exact hqueue

/-- Nothing else counts as having waited for the worker. -/
theorem joined_step {e : Event} (h : ∀ timeout, e ≠ .join timeout) :
    (a.step e).queue.joined = a.queue.joined := by
  cases e with
  | log s p =>
    simp only [step, log]
    split
    · exact a.joined_offer _ _
    · rfl
  | write bs p => exact a.joined_offer _ _
  | askFlush =>
    simp only [step, askFlush]
    split
    · split
      · rfl
      · split <;> rfl
    · rfl
  | enter i =>
    simp only [step, enter, enqueue]
    split
    · rfl
    · split
      · rfl
      · split <;> rfl
  | giveUp i =>
    simp only [step, giveUp, alertAndDrop]
    split
    · split
      · rfl
      · split <;> rfl
    · rfl
  | take =>
    rcases pull_cases a.queue with hnone | ⟨c, rest, _, _, hsome⟩
    · simp only [step, hnone]
    · simp only [step, hsome]
  | finish o =>
    have hclear : ∀ q : Queue, q.clearOut.2.joined = q.joined := by
      intro q
      unfold clearOut
      split <;> rfl
    simp only [step]
    split
    · rename_i c _
      dsimp only
      rw [hclear]
      by_cases hends : c.endsWorker o = true
      · rw [settle_of_ends a.queue hends]
      · rw [Bool.not_eq_true] at hends
        rw [settle_of_lives a.queue hends]
    · rfl
  | close => rw [step_close]
  | leave o =>
    simp only [step]
    split
    · cases o <;> rfl
    · rfl
  | join timeout => exact absurd rfl (h timeout)
  | setLevel level => rfl

theorem joined_run_of_none {events : List Event} (h : ∀ timeout, .join timeout ∉ events) :
    (a.run events).queue.joined = a.queue.joined := by
  induction events generalizing a with
  | nil => rfl
  | cons e rest ih =>
    have hrest := ih (a := a.step e) fun timeout hmem => h timeout (List.mem_cons_of_mem _ hmem)
    have hfirst : (a.step e).queue.joined = a.queue.joined :=
      joined_step fun timeout heq => h timeout (heq ▸ List.mem_cons_self)
    exact hrest.trans hfirst

/-- The first to wait for the worker learns whether it is gone. -/
theorem gone_of_join {timeout : Duration} (h : (q.join timeout).1 = true) (hfirst : q.joined = false) :
    q.isGone = true := by
  unfold join at h
  rw [hfirst, if_neg Bool.false_ne_true] at h
  cases hworker : q.worker with
  | finished | dead => simp [isGone, hworker]
  | idle | busy => simp [hworker] at h

theorem finished_of_join {timeout : Duration} (h : (q.join timeout).1 = true) (hfirst : q.joined = false)
    (hdead : q.worker ≠ .dead) : q.worker = .finished := finished_of_gone (gone_of_join h hfirst) hdead

/-! ### The end of the worker -/

/-- Behind the last flush nothing was sent any more, and everything before it had come back from the inner sink. -/
structure Drained (past : List Mark) (q : Queue) : Prop extends Ordered past q where
  last : q.worker = .finished → ∃ front o behind, past = front ++ .left o :: behind ∧ returned front = sent past

theorem Drained.last_change (h : Drained past q) (hc : Change q new q') (hworker : q'.worker = .finished) :
    ∃ front o behind, past ++ new = front ++ .left o :: behind ∧ returned front = sent (past ++ new) := by
  have hold : q.worker = .finished → sent new = [] →
      ∃ front o behind, past ++ new = front ++ .left o :: behind ∧ returned front = sent (past ++ new) := by
    intro hfinished hnone
    obtain ⟨front, o, behind, hsplit, hreturned⟩ := h.last hfinished
    refine ⟨front, o, behind ++ new, by simp [hsplit], ?_⟩
    rw [hreturned, sent, sent, commands_append, show commands Mark.sent? new = [] from hnone, List.append_nil]
  have hlive : q.worker = .finished → q.isGone = false → False := by
    intro hfinished hgone
    simp [isGone, hfinished] at hgone
  cases hc with
  | leave o hidle hclosed hpending =>
    have horder := h.order
    rw [h.intact (by simp [hidle]), hpending, List.append_nil, List.append_nil] at horder
    have hcalls := h.calls
    rw [inHand, hidle, List.append_nil] at hcalls
    exact ⟨past, o, [], rfl, by simp [← horder, hcalls]⟩
  | accept c hc hgone => exact (hlive hworker hgone).elim
  | queueFlush hgone => exact (hlive hworker hgone).elim
  | enter hi =>
    have hnobody := h.waiting (by simp_all [isGone])
    rw [hnobody] at hi
    cases hi
  | take => cases hworker
  | finish => cases hworker
  | die => cases hworker
  | close => exact hold hworker (by simp)
  | _ => exact hold hworker rfl

theorem Drained.change (h : Drained past q) (hc : Change q new q') : Drained (past ++ new) q' where
  toOrdered := h.toOrdered.change hc
  last := h.last_change hc

theorem drained_run (settings : QueueSettings) (formatter : FormatterId) (inner : SinkId) (events : List Event) :
    Drained ((start settings formatter inner).trace events) ((start settings formatter inner).run events).queue :=
  run_keeps (P := Drained) (fun hc h => h.change hc) _ events []
    ⟨(ticketed_ofSettings settings).toOrdered, fun h => by cases h⟩

theorem Drained.taken_eq (h : Drained past q) (hworker : q.worker = .finished) : taken past = sent past := by
  have horder := h.order
  rw [h.intact (by simp [hworker]), (h.finished hworker).2, List.append_nil, List.append_nil] at horder
  exact horder

theorem Drained.returned_eq (h : Drained past q) (hworker : q.worker = .finished) : returned past = sent past := by
  have hcalls := h.calls
  rw [inHand, hworker, List.append_nil] at hcalls
  rw [← hcalls, h.taken_eq hworker]

/- A shutdown is the closing, what goes on while the caller waits, and the end of waiting. -/
theorem shutdown_of_pace {b : Adapter} {pace : Adapter → Plant → Adapter × Plant} {p p' : Plant}
    (hpace : pace (a.step .close) (a.host.clearOut a.queue.close p).2 = (b, p')) (timeout : Duration) :
    a.shutdown pace timeout p =
      ((b.queue.join timeout).1, b.step (.join timeout), b.host.reportAll (b.queue.join timeout).2.2 p') := by
  have hstep : a.step .close = { a with queue := (a.host.clearOut a.queue.close p).1 } := rfl
  unfold shutdown
  dsimp only
  rw [← hstep, hpace]
  rfl

end

/-- Once an adapter has been closed it stays closed: records and lines are refused under its name and leave everything
as it was, and so does every shutdown after the first. `before` is what happened until then, `during` what goes on, here
and in the worker, while the first caller of `shutdown` waits. If that caller saw the worker end, the host has been
called with everything that had been sent, in the order of sending, and after all of it with the last flush. -/
theorem shutdown_final (settings : QueueSettings) (formatter : FormatterId) (inner : SinkId) {σ : Type} (h : Host σ)
    (site : σ) (before during : List (Bench.Step σ)) (f : σ → σ)
    (hcalm : ∀ m ∈ ((start settings formatter inner).bench site).trace h (before ++ .others .close rfl f :: during),
      m.kills = false)
    (hfirst : ∀ timeout, .join timeout ∉
      ((start settings formatter inner).bench site).events h (before ++ .others .close rfl f :: during)) :
    let first := (start settings formatter inner).bench site
    let steps := before ++ .others .close rfl f :: during
    let a := (first.run h before).adapter
    let b := (first.run h steps).adapter
    let past := first.trace h steps
    a.Operates ∧
    ∀ (pace : Adapter → Plant → Adapter × Plant) (timeout : Duration) (p p' : Plant),
      pace (a.step .close) (a.host.clearOut a.queue.close p).2 = (b, p') →
      a.shutdown pace timeout p =
        ((b.queue.join timeout).1, b.step (.join timeout), b.host.reportAll (b.queue.join timeout).2.2 p') ∧
      (a.step .close).Leads (a.shutdown pace timeout p).2.1 ∧
      ((a.shutdown pace timeout p).1 = true →
        taken past = sent past ∧
          (∃ front o, first.noted h steps = front ++ [(.flush, some o)] ∧
            front.map (·.1) = (sent past).map Command.task) ∧
          ∃ earlier o later, past = earlier ++ .left o :: later ∧ returned earlier = sent past) ∧
      (∀ c, (a.step .close).Leads c →
        c.queue.isOpen = false ∧
          (∀ bs p, c.write bs p = (some (.failed (.stopped settings.name)), c, p)) ∧
          ∀ s p, c.gate.passes s.severity = true → ∃ store,
            c.log s p = (some (.failed (.stopped settings.name)), c, { p with store := store }) ∧
              (0 < p.store.refsOf s.buffer → store = p.store)) ∧
      ∀ c, (a.shutdown pace timeout p).2.1.Leads c → ∀ pace' timeout' p', c.Leads (pace' c p').1 →
        c.shutdown pace' timeout' p' = (true, pace' c p') := by
  intro first steps a b past
  refine ⟨a.operates, fun pace timeout p p' hpace => ?_⟩
  have ha : a = (start settings formatter inner).run (first.events h before) := Bench.adapter_run h first before
  have hb : b = (start settings formatter inner).run (first.events h steps) := Bench.adapter_run h first steps
  have hwait : (a.step .close).Leads b :=
    ⟨_, (congrArg Bench.adapter (Bench.run_append h first before _)).trans (Bench.adapter_run h _ during)⟩
  have hclosed : Closed (a.step .close).queue :=
    closed_step (Bench.ticketed_run settings formatter inner h site before).toFits
  have hshutdown := shutdown_of_pace hpace timeout
  refine ⟨hshutdown, ?_, ?_, ?_, ?_⟩
  · obtain ⟨events, hevents⟩ := hwait
    refine ⟨events ++ [.join timeout], ?_⟩
    rw [hshutdown, run_append, ← hevents]
    rfl
  · intro htrue
    rw [hshutdown] at htrue
    have hdrained : Drained past b.queue := by
      rw [hb]
      exact drained_run settings formatter inner _
    have hnobody : b.queue.joined = false := by
      rw [hb]
      exact joined_run_of_none hfirst
    have hworker := finished_of_join htrue hnobody (hdrained.not_dead hcalm)
    obtain ⟨front, o, hnoted, htasks⟩ := (Bench.noted_run settings formatter inner h site steps).last hworker
    rw [hdrained.returned_eq hworker] at htasks
    exact ⟨hdrained.taken_eq hworker, ⟨front, o, hnoted, htasks⟩, hdrained.last hworker⟩
  · rintro c ⟨later, rfl⟩
    have hopen : ((a.step .close).run later).queue.isOpen = false := (closed_run hclosed later).isOpen
    have hname : ((a.step .close).run later).queue.settings = settings := by
      rw [settings_run, settings_change (a.change_step .close), ha]
      exact settings_run _ _
    refine ⟨hopen, ?_, ?_⟩
    · intro bs p
      rw [write_of_closed hopen, hname]
    · intro s p hgate
      refine ⟨_, ?_, fun hheld => Store.release_clone hheld⟩
      rw [log_of_closed hopen hgate, hname]
      rfl
  · rintro c ⟨later, rfl⟩ pace' timeout' p' ⟨events, hevents⟩
    rw [hshutdown] at hevents ⊢
    have hjoined : (b.step (.join timeout)).queue.joined = true := joined_join _ timeout
    have hclosed' : Closed (b.step (.join timeout)).queue := by
      obtain ⟨during', hduring⟩ := hwait
      rw [hduring]
      exact closed_run (closed_run hclosed during') [.join timeout]
    refine shutdown_of_closed (closed_run hclosed' later) ?_ timeout'
    rw [hevents]
    exact joined_run (joined_run hjoined later) events

/- A queue with one place. -/
def narrow : QueueSettings := ⟨"queue", "memory", 1, .block, false, false⟩

/- Two lines, of which the second has to wait for room. -/
def twoLines : List (Bench.Step Plant) := [.others (.write [97] .empty) rfl id, .others (.write [98] .empty) rfl id]

theorem shutdown_final_narrow :
    let first := (start narrow 0 0).bench probed
    let a := (first.run (Plant.host 0) twoLines).adapter
    let ended := a.shutdown drain ⟨1, 0⟩ probed
    let during := Bench.workStepsN (Plant.host 0) 3 ((a.step .close).bench probed)
    let steps := twoLines ++ .others .close rfl id :: during
    ended.1 = true ∧ seen ended.2.2 = some ([97, 98], 2, 1) ∧
      (∃ front o, first.noted (Plant.host 0) steps = front ++ [(.flush, some o)] ∧
        front.map (·.1) = [.write [97], .write [98]]) ∧
      ended.2.1.write [99] ended.2.2 = (some (.failed (.stopped "queue")), ended.2.1, ended.2.2) ∧
      ended.2.1.shutdown drain ⟨0, 0⟩ ended.2.2 = (true, ended.2.1.drain ended.2.2) := by
  intro first a ended during steps
  have hcalm : ∀ m ∈ first.trace (Plant.host 0) steps, m.kills = false := by decide +kernel
  have hfirst : ∀ timeout, .join timeout ∉ first.events (Plant.host 0) steps := by
    have hothers : (first.events (Plant.host 0) steps).all (fun e => match e with | .join _ => false | _ => true) =
        true := by decide +kernel
    exact fun timeout hmem => absurd (List.all_eq_true.mp hothers _ hmem) Bool.false_ne_true
  obtain ⟨-, hshutdown⟩ := shutdown_final narrow 0 0 (Plant.host 0) probed twoLines during id hcalm hfirst
  have hrun : first.run (Plant.host 0) twoLines = a.bench probed := rfl
  have hpace := drain_eq_run hrun (e := .close) rfl rfl (n := 3) (by decide +kernel)
  obtain ⟨-, hleads, hdrained, hrefused, hagain⟩ := hshutdown drain ⟨1, 0⟩ probed _ hpace
  have htrue : ended.1 = true := by decide +kernel
  obtain ⟨-, ⟨front, o, hnoted, htasks⟩, -⟩ := hdrained htrue
  have hsent : (sent (first.trace (Plant.host 0) steps)).map Command.task = [.write [97], .write [98]] := by
    decide +kernel
  have hwrite := (hrefused ended.2.1 hleads).2.1 [99] ended.2.2
  have hstill := hagain ended.2.1 (leads_refl _) drain ⟨0, 0⟩ ended.2.2 (leads_drain _ _)
  exact ⟨htrue, by decide +kernel, ⟨front, o, hnoted, htasks.trans hsent⟩, hwrite, hstill⟩

end Adapter

end Logbook
