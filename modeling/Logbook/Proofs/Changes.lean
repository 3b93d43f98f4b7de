import Logbook.Proofs.Traffic

/-!
# What an event changes

All that an event can do to the queue of an adapter, with the marks that it leaves. What holds of a new queue and is
kept by every change holds after every run.
-/

namespace Logbook

/-- Is the command kept from being dropped by having its caller deliver it? -/
def QueueSettings.preserves (s : QueueSettings) (c : Command) : Bool := s.preserveCritical && c.isCritical

def Outcome.isPanic : Outcome → Bool
  | .panicked _ => true
  | _ => false

namespace Command

/-- Does this outcome of a command end the worker? -/
def endsWorker (c : Command) (o : Outcome) : Bool := !c.isRecord && o.isPanic

/-- What is answered under the ticket of a flush. -/
def answers (c : Command) (o : Outcome) : List (Nat × Outcome) :=
  match c with
  | .flush ticket => [(ticket, o)]
  | _ => []

end Command

namespace QueueStats

/-- A record has gone to the inner sink. -/
def countRecord (s : QueueStats) (o : Outcome) : QueueStats :=
  { s with processed := s.processed + 1, failures := if o.isDone then s.failures else s.failures + 1 }

/-- The worker's call for a command has ended. -/
def countReturn (s : QueueStats) (c : Command) (o : Outcome) : QueueStats :=
  match c, o with
  | .record _, o => s.countRecord o
  | .raw _, .failed _ => { s with failures := s.failures + 1 }
  | _, _ => s

end QueueStats

namespace Adapter

open Queue

inductive Change (q : Queue) : List Mark → Queue → Prop where
  | still : Change q [] q
  | refuse (c : Command) (hc : c.isFlush = false) (hgone : q.isGone = true) (hopen : q.isOpen = true) :
    Change q [.offered c, .refused c] q
  | accept (c : Command) (hc : c.isFlush = false) (hlive : q.isGone = false) (hroom : q.isFull = false) :
    Change q [.offered c, .sent c]
      { q with pending := q.pending ++ [c], stats := { q.stats with enqueued := q.stats.enqueued + 1 } }
  | preserve (c : Command) (o : Outcome) (hc : q.settings.preserves c = true) :
    Change q [.offered c, .overflowed c, .delivered c o]
      { q with stats := { q.stats with preserved := q.stats.preserved + 1 }.countRecord o }
  | drop (c : Command) (alerts : List Nat) (hc : c.isFlush = false) (hkeep : q.settings.preserves c = false)
      (hpolicy : q.settings.policy.waits = false) :
    Change q [.offered c, .overflowed c, .dropped c]
      { q with alerts := alerts, stats := { q.stats with dropped := q.stats.dropped + 1 } }
  | wait (c : Command) (hc : c.isFlush = false) (hlive : q.isGone = false) (hkeep : q.settings.preserves c = false)
      (hpolicy : q.settings.policy.waits = true) :
    Change q [.offered c, .overflowed c]
      { q with
        waiting := q.waiting ++ [(q.nextTicket, c)]
        nextTicket := q.nextTicket + 1
        stats := { q.stats with blocked := q.stats.blocked + 1 } }
  | queueFlush (hlive : q.isGone = false) (hroom : q.isFull = false) :
    Change q [.sent (.flush q.nextTicket)]
      { q with pending := q.pending ++ [.flush q.nextTicket], nextTicket := q.nextTicket + 1 }
  | waitFlush (hlive : q.isGone = false) :
    Change q []
      { q with
        waiting := q.waiting ++ [(q.nextTicket, .flush q.nextTicket)]
        nextTicket := q.nextTicket + 1 }
  | enter {i ticket : Nat} {c : Command} (hc : q.waiting[i]? = some (ticket, c)) (hroom : q.isFull = false) :
    Change q [.sent c]
      { q with
        pending := q.pending ++ [c]
        waiting := q.waiting.eraseIdx i
        answers := if c.isFlush then q.answers else (ticket, .done) :: q.answers
        stats := if c.isFlush then q.stats else { q.stats with enqueued := q.stats.enqueued + 1 } }
  | giveUp {i ticket : Nat} {c : Command} (alerts : List Nat) (hc : q.waiting[i]? = some (ticket, c))
      (hline : c.isFlush = false) :
    Change q [.dropped c]
      { q with
        waiting := q.waiting.eraseIdx i
        alerts := alerts
        stats := { q.stats with dropped := q.stats.dropped + 1 } }
  | giveUpFlush {i ticket : Nat} {c : Command} (hc : q.waiting[i]? = some (ticket, c)) (hflush : c.isFlush = true) :
    Change q [] { q with waiting := q.waiting.eraseIdx i }
  | take {c : Command} {rest : List Command} (hidle : q.worker = .idle) (hnext : q.pending = c :: rest) :
    Change q [.taken c] { q with worker := .busy c, pending := rest }
  | finish {c : Command} {o : Outcome} (hbusy : q.worker = .busy c) (hlives : c.endsWorker o = false) :
    Change q [.returned c o]
      { q with worker := .idle, answers := c.answers o ++ q.answers, stats := q.stats.countReturn c o }
  | die {c : Command} {o : Outcome} (hbusy : q.worker = .busy c) (hends : c.endsWorker o = true) :
    Change q (.returned c o :: (waitingLines q).map .refused ++ (if q.isOpen then [] else q.pending).map .lost)
      { q with
        worker := .dead
        waiting := []
        pending := if q.isOpen then q.pending else []
        answers := bounced c ++ q.waiting.map (fun w => (w.1, .failed .disconnected)) ++ q.answers }
  | close :
    Change q ((if q.isGone then q.pending else []).map .lost)
      { q with isOpen := false, pending := if q.isGone then [] else q.pending }
  | leave (o : Outcome) (hidle : q.worker = .idle) (hclosed : q.isOpen = false) (hpending : q.pending = [])
      (hwaiting : q.waiting = []) :
    Change q [.left o] { q with worker := if o.isPanic then .dead else .finished }
  | join : Change q [] { q with joined := true }

/-! ### Offers -/

/-- What becomes of a command for which there is no room. -/
theorem overflow_cases (q : Queue) (c : Command) :
    (q.settings.preserves c = true ∧
      q.overflow c = (.preserved, { q with stats := { q.stats with preserved := q.stats.preserved + 1 } }, [])) ∨
    (q.settings.preserves c = false ∧ q.settings.policy.waits = false ∧ ∃ alerts notices,
      q.overflow c = (.dropped,
        { q with alerts := alerts, stats := { q.stats with dropped := q.stats.dropped + 1 } }, notices)) ∨
    (q.settings.preserves c = false ∧ q.settings.policy.waits = true ∧
      q.overflow c = (.waits q.nextTicket,
        { q with
          waiting := q.waiting ++ [(q.nextTicket, c)]
          nextTicket := q.nextTicket + 1
          stats := { q.stats with blocked := q.stats.blocked + 1 } }, [])) := by
  unfold overflow
  by_cases hkeep : q.settings.preserves c = true
  · exact .inl ⟨hkeep, if_pos hkeep⟩
  · rw [Bool.not_eq_true] at hkeep
    refine .inr ?_
    unfold QueueSettings.preserves at hkeep ⊢
    rw [hkeep, if_neg Bool.false_ne_true]
    cases q.settings.policy with
    | dropNewest => exact .inl ⟨rfl, rfl, q.alerts, [], rfl⟩
    | block => exact .inr ⟨rfl, rfl, rfl⟩
    | blockFor timeout => exact .inr ⟨rfl, rfl, rfl⟩
    | alertAndDrop => exact .inl ⟨rfl, rfl, _, _, rfl⟩

/-- What becomes of an offer. -/
theorem offer_cases (q : Queue) (c : Command) :
    (q.isOpen = false ∧ q.offer c = (.refused (.stopped q.settings.name), q, [])) ∨
    (q.isOpen = true ∧ q.isGone = true ∧ q.offer c = (.refused .disconnected, q, [])) ∨
    (q.isOpen = true ∧ q.isGone = false ∧ q.offer c = q.overflow c) ∨
    (q.isOpen = true ∧ q.isGone = false ∧ q.offer c = (.accepted, q.enqueue c, [])) := by
  unfold Queue.offer
  cases q.isOpen with
  | false => exact .inl ⟨rfl, rfl⟩
  | true =>
    cases q.isGone with
    | true => exact .inr (.inl ⟨rfl, rfl, rfl⟩)
    | false =>
      cases q.isFull with
      | true => exact .inr (.inr (.inl ⟨rfl, rfl, rfl⟩))
      | false => exact .inr (.inr (.inr ⟨rfl, rfl, rfl⟩))

theorem countDelivery_eq (q : Queue) (o : Outcome) :
    (q.countDelivery o).1 = { q with stats := q.stats.countRecord o } := by
  cases o <;> rfl

theorem change_offer (a : Adapter) {c : Command} (hc : c.isFlush = false) (p : Plant) :
    Change a.queue (a.offerMarks c p) (a.offer c p).2.1.queue := by
  unfold offerMarks offer Queue.offer
  by_cases hopen : a.queue.isOpen = true
  · by_cases hgone : a.queue.isGone = true
    · simp only [hopen, hgone, Bool.not_true, Bool.and_false, if_true, Bool.false_eq_true, if_false]
      exact .refuse c hc hgone hopen
    · rw [Bool.not_eq_true] at hgone
      by_cases hfull : a.queue.isFull = true
      · simp only [hopen, hgone, hfull, Bool.not_true, Bool.not_false, Bool.and_true, if_true, Bool.false_eq_true,
          if_false]
        rcases overflow_cases a.queue c with
          ⟨hkeep, heq⟩ | ⟨hkeep, hpolicy, alerts, notices, heq⟩ | ⟨hkeep, hpolicy, heq⟩
        · rw [heq]
          -- only a record is critical
          cases c with
          | raw bs => cases (Bool.and_eq_true_iff.mp hkeep).2
          | flush ticket => cases hc
          | record s =>
            dsimp only
            rw [countDelivery_eq]
            exact .preserve (.record s) _ hkeep
        · rw [heq]
          exact .drop c alerts hc hkeep hpolicy
        · rw [heq]
          exact .wait c hc hgone hkeep hpolicy
      · rw [Bool.not_eq_true] at hfull
        simp only [hopen, hgone, hfull, Bool.not_true, Bool.false_and, if_true, Bool.false_eq_true, if_false]
        have hsent := Change.accept c hc hgone hfull
        unfold enqueue
        rw [hc]
        exact hsent
  · rw [Bool.not_eq_true] at hopen
    simp only [hopen, Bool.false_eq_true, if_false, Bool.not_false, if_true]
    exact .still

theorem log_of_free {a : Adapter} {s : Snapshot} {p : Plant} (hgate : a.gate.passes s.severity = true)
    (hopen : a.queue.isOpen = true) (hlive : a.queue.isGone = false) (hroom : a.queue.isFull = false) :
    a.log s p = (some .done, { a with queue := a.queue.enqueue (.record s) }, { p with store := s.clone p.store }) := by
  unfold log offer Queue.offer
  simp only [hgate, hopen, hlive, hroom, Bool.not_true, Bool.false_eq_true, if_true, if_false]
  rfl

theorem log_of_blocked {a : Adapter} {s : Snapshot} {p : Plant} (hgate : a.gate.passes s.severity = true)
    (hopen : a.queue.isOpen = true) (hlive : a.queue.isGone = false) (hfull : a.queue.isFull = true)
    (hkeep : a.queue.settings.preserves (.record s) = false) (hpolicy : a.queue.settings.policy.waits = true) :
    a.log s p =
      (none,
        { a with queue := { a.queue with
            waiting := a.queue.waiting ++ [(a.queue.nextTicket, .record s)]
            nextTicket := a.queue.nextTicket + 1
            stats := { a.queue.stats with blocked := a.queue.stats.blocked + 1 } } },
        { p with store := s.clone p.store }) := by
  have hoffer : a.queue.offer (.record s) = a.queue.overflow (.record s) := by
    unfold Queue.offer
    simp only [hopen, hlive, hfull, Bool.not_true, Bool.false_eq_true, if_true, if_false]
  unfold log offer
  rw [if_pos hgate, hoffer]
  rcases overflow_cases a.queue (.record s) with ⟨h, _⟩ | ⟨_, h, _⟩ | ⟨_, _, heq⟩
  · rw [hkeep] at h
    cases h
  · rw [hpolicy] at h
    cases h
  · rw [heq]
    rfl

/-! ### Callers that wait, and the worker -/

theorem change_askFlush (a : Adapter) : Change a.queue (a.marks .askFlush) (a.step .askFlush).queue := by
  simp only [marks, step]
  by_cases hopen : a.queue.isOpen = true
  · by_cases hgone : a.queue.isGone = true
    · simp only [hopen, hgone, askFlush, Bool.not_true, Bool.and_false, Bool.false_and, if_true, Bool.false_eq_true,
        if_false]
      exact .still
    · rw [Bool.not_eq_true] at hgone
      by_cases hfull : a.queue.isFull = true
      · simp only [hopen, hgone, hfull, askFlush, Bool.not_true, Bool.not_false, Bool.and_false, if_true,
          Bool.false_eq_true, if_false]
        exact .waitFlush hgone
      · rw [Bool.not_eq_true] at hfull
        simp only [hopen, hgone, hfull, askFlush, Bool.not_false, Bool.and_true, if_true, Bool.false_eq_true, if_false]
        exact .queueFlush hgone hfull
  · simp only [hopen, Bool.false_and, Bool.false_eq_true, if_false]
    exact .still

theorem change_enter (a : Adapter) (i : Nat) : Change a.queue (a.marks (.enter i)) (a.step (.enter i)).queue := by
  simp only [marks, step, enter]
  cases hi : a.queue.waiting[i]? with
  | none => exact .still
  | some w =>
    obtain ⟨ticket, c⟩ := w
    by_cases hfull : a.queue.isFull = true
    · simp only [hfull, if_true]
      exact .still
    · rw [Bool.not_eq_true] at hfull
      have henter := Change.enter hi hfull
      simp only [hfull, Bool.false_eq_true, if_false, enqueue]
      by_cases hc : c.isFlush = true
      · simp only [hc, if_true] at henter ⊢
        exact henter
      · simp only [hc, Bool.false_eq_true, if_false] at henter ⊢
        exact henter

theorem change_giveUp (a : Adapter) (i : Nat) : Change a.queue (a.marks (.giveUp i)) (a.step (.giveUp i)).queue := by
  simp only [marks, step, giveUp]
  by_cases hmay : a.mayGiveUp i = true
  · cases hi : a.queue.waiting[i]? with
    | none =>
      simp only [hmay, if_true]
      exact .still
    | some w =>
      obtain ⟨ticket, c⟩ := w
      by_cases hc : c.isFlush = true
      · simp only [hmay, hc, Bool.not_true, Bool.and_false, if_true, Bool.false_eq_true, if_false]
        exact .giveUpFlush hi hc
      · rw [Bool.not_eq_true] at hc
        simp only [hmay, hc, Bool.not_false, Bool.and_true, if_true, Bool.false_eq_true, if_false, alertAndDrop]
        exact .giveUp _ hi hc
  · rw [Bool.not_eq_true] at hmay
    simp only [hmay, Bool.false_and, Bool.false_eq_true, if_false]
    cases a.queue.waiting[i]? with
    | none => exact .still
    | some w => exact .still

theorem pull_cases (q : Queue) :
    q.pull = none ∨ ∃ c rest, q.worker = .idle ∧ q.pending = c :: rest ∧
      q.pull = some (c, { q with worker := .busy c, pending := rest }) := by
  unfold pull
  split
  · exact .inr ⟨_, _, ‹_›, ‹_›, rfl⟩
  · exact .inl rfl

theorem change_take (a : Adapter) : Change a.queue (a.marks .take) (a.step .take).queue := by
  simp only [marks, step]
  rcases pull_cases a.queue with hnone | ⟨c, rest, hidle, hnext, hsome⟩
  · rw [hnone]
    exact .still
  · rw [hsome]
    exact .take hidle hnext

theorem settle_of_lives (q : Queue) {c : Command} {o : Outcome} (h : c.endsWorker o = false) :
    (q.settle c o).1 =
      { q with worker := .idle, answers := c.answers o ++ q.answers, stats := q.stats.countReturn c o } := by
  cases c <;> cases o <;> first | rfl | cases h

theorem settle_of_ends (q : Queue) {c : Command} {o : Outcome} (h : c.endsWorker o = true) :
    (q.settle c o).1 =
      { q with
        worker := .dead
        waiting := []
        answers := bounced c ++ q.waiting.map (fun w => (w.1, .failed .disconnected)) ++ q.answers } := by
  cases c <;> cases o <;> first | rfl | cases h

theorem change_finish (a : Adapter) (o : Outcome) :
    Change a.queue (a.marks (.finish o)) (a.step (.finish o)).queue := by
  simp only [marks, step]
  cases hworker : a.queue.worker with
  | idle => exact .still
  | finished => exact .still
  | dead => exact .still
  | busy c =>
    dsimp only
    by_cases hends : c.endsWorker o = true
    · have hdie := Change.die hworker hends
      rw [settle_of_ends a.queue hends]
      by_cases hopen : a.queue.isOpen = true
      · simp only [hopen, if_true] at hdie
        simp only [clearOut, isGone, hopen, Bool.not_true, Bool.false_and, Bool.false_eq_true, if_true, if_false]
        exact hdie
      · simp only [hopen, Bool.false_eq_true, if_false] at hdie
        simp only [clearOut, isGone, hopen, Bool.not_false, Bool.and_true, if_true]
        exact hdie
    · rw [Bool.not_eq_true] at hends
      have hfinish := Change.finish hworker hends
      rw [settle_of_lives a.queue hends]
      simp only [clearOut, isGone, Bool.and_false, Bool.false_eq_true, if_false]
      exact hfinish

theorem change_close (a : Adapter) : Change a.queue (a.marks .close) (a.step .close).queue := by
  have hclose := Change.close (q := a.queue)
  have hgone : a.queue.close.isGone = a.queue.isGone := rfl
  simp only [marks, step, clearOut, hgone]
  by_cases h : a.queue.isGone = true
  · simp only [h, if_true] at hclose
    simp only [close, h, Bool.not_false, Bool.and_true, if_true]
    exact hclose
  · simp only [h, Bool.false_eq_true, if_false] at hclose
    simp only [close, h, Bool.and_false, Bool.false_eq_true, if_false]
    exact hclose

theorem idle_of_canLeave {q : Queue} (h : q.canLeave = true) : q.worker = .idle := by
  unfold canLeave at h
  split at h
  · assumption
  · cases h

theorem change_leave (a : Adapter) (o : Outcome) :
    Change a.queue (a.marks (.leave o)) (a.step (.leave o)).queue := by
  simp only [marks, step]
  by_cases h : a.queue.canLeave = true
  · simp only [h, if_true]
    unfold canLeave at h
    split at h
    · rename_i hidle
      simp only [Bool.and_eq_true, Bool.not_eq_true', List.isEmpty_iff] at h
      have hleave := Change.leave o hidle h.1.1 h.1.2 h.2
      cases o <;> exact hleave
    · cases h
  · simp only [h, Bool.false_eq_true, if_false]
    exact .still

theorem change_join (a : Adapter) (timeout : Duration) :
    Change a.queue (a.marks (.join timeout)) (a.step (.join timeout)).queue := by
  simp only [marks, step, join]
  split
  · exact .still
  · exact .join

theorem change_step (a : Adapter) (e : Event) : Change a.queue (a.marks e) (a.step e).queue := by
  cases e with
  | log s p =>
    simp only [marks, step, log]
    split
    · exact a.change_offer rfl _
    · exact .still
  | write bs p => exact a.change_offer rfl p
  | askFlush => exact a.change_askFlush
  | enter i => exact a.change_enter i
  | giveUp i => exact a.change_giveUp i
  | take => exact a.change_take
  | finish o => exact a.change_finish o
  | close => exact a.change_close
  | leave o => exact a.change_leave o
  | join timeout => exact a.change_join timeout
  | setLevel level => exact .still

/-- What every change keeps, with the marks that it leaves, is kept by a run with its history. -/
theorem run_keeps {P : List Mark → Queue → Prop}
    (hstep : ∀ {past new q q'}, Change q new q' → P past q → P (past ++ new) q')
    (a : Adapter) (events : List Event) (past : List Mark) (h : P past a.queue) :
    P (past ++ a.trace events) (a.run events).queue := by
  induction events generalizing a past with
  | nil =>
    rw [trace, List.append_nil]
    exact h
  | cons e rest ih =>
    have hrest := ih (a.step e) _ (hstep (a.change_step e) h)
    rw [List.append_assoc] at hrest
    exact hrest

end Adapter

end Logbook
