import Logbook.Proofs.Closing
import Logbook.Proofs.Tally

/-!
# Panics of the inner sink

A record on which the inner sink panics is counted as a failure, and the worker goes on. A finished line on which it
panics ends the worker: what is queued is never taken, whoever comes later is refused, and this one failure is not
counted.
-/

namespace Logbook

namespace Adapter

open Queue

namespace Mark

/-- Did the inner sink fail or panic on a record or a line? -/
@[simp] def isFault : Mark → Bool
  | returned c o => !c.isFlush && !o.isDone
  | delivered _ o => !o.isDone
  | _ => false

/-- Did the inner sink panic on a line? -/
@[simp] def isRawPanic : Mark → Bool
  | returned (.raw _) o => o.isPanic
  | _ => false

/-- Did the inner sink panic in a flush? -/
@[simp] def isFlushPanic : Mark → Bool
  | returned c o => c.isFlush && o.isPanic
  | left o => o.isPanic
  | _ => false

theorem kills_eq (m : Mark) : m.kills = (m.isRawPanic || m.isFlushPanic) := by
  cases m with
  | returned c o => cases c <;> cases o <;> rfl
  | _ => rfl

theorem isFault_eq (m : Mark) : m.isFault.toNat = m.isFailure.toNat + m.isRawPanic.toNat := by
  cases m with
  | returned c o => cases c <;> cases o <;> rfl
  | _ => rfl

end Mark

section

variable {past new : List Mark} {q q' : Queue} {a : Adapter}

theorem countP_isFault (past : List Mark) :
    past.countP Mark.isFault = past.countP Mark.isFailure + past.countP Mark.isRawPanic := by
  induction past with
  | nil => rfl
  | cons m rest ih =>
    have hmark := m.isFault_eq
    simp only [countP_mark, ih]
    omega

/-! ### The end of the worker -/

theorem Fits.dead_of_gone (h : Fits past q) (hopen : q.isOpen = true) (hgone : q.isGone = true) :
    q.worker = .dead := by
  have hfinished := h.finished
  cases hworker : q.worker with
  | dead => rfl
  | finished =>
    rw [hopen] at hfinished
    cases (hfinished hworker).1
  | idle | busy => simp [isGone, hworker] at hgone

/-- The worker ends by one panic at most, and nobody is refused before it has. -/
structure Mortal (past : List Mark) (q : Queue) : Prop extends Tally past q where
  deaths : past.countP Mark.kills = if q.worker = .dead then 1 else 0
  refusals : q.worker ≠ .dead → ∀ c, .refused c ∉ past

theorem Mortal.deaths_change (h : Mortal past q) (hc : Change q new q') :
    (past ++ new).countP Mark.kills = if q'.worker = .dead then 1 else 0 := by
  have hold := h.deaths
  rw [List.countP_append]
  cases hc with
  | finish hbusy hlives => simp_all [Mark.kills]
  | die hbusy hends => simp_all [Mark.kills, Function.comp_def]
  | leave o hidle => cases o <;> simp_all [Mark.kills, Outcome.isPanic]
  | close => simp_all [Mark.kills, Function.comp_def]
  | take hidle => simp_all [Mark.kills]
  | _ => simpa [Mark.kills] using hold

theorem Mortal.refusals_change (h : Mortal past q) (hc : Change q new q') (hlive : q'.worker ≠ .dead) (c : Command) :
    .refused c ∉ past ++ new := by
  have hold := h.refusals
  rw [List.mem_append, not_or]
  cases hc with
  | refuse c' hline hgone hopen => exact absurd (h.dead_of_gone hopen hgone) hlive
  | die => exact absurd rfl hlive
  | take hidle => simp_all
  | finish hbusy => simp_all
  | leave o hidle => simp_all
  | _ => exact ⟨hold hlive c, by simp⟩

theorem Mortal.change (h : Mortal past q) (hc : Change q new q') : Mortal (past ++ new) q' where
  toTally := h.toTally.change hc
  deaths := h.deaths_change hc
  refusals := h.refusals_change hc

theorem mortal_run (settings : QueueSettings) (formatter : FormatterId) (inner : SinkId) (events : List Event) :
    Mortal ((start settings formatter inner).trace events) ((start settings formatter inner).run events).queue := by
  refine run_keeps (P := Mortal) (fun hc h => h.change hc) _ events [] ?_
  exact ⟨tally_run settings formatter inner [], rfl, fun _ _ => List.not_mem_nil⟩

theorem dead_change (hc : Change q new q') (h : q.worker = .dead) : q'.worker = .dead ∧ taken new = [] := by
  cases hc with
  | take hidle => simp [h] at hidle
  | finish hbusy => simp [h] at hbusy
  | die hbusy => simp [h] at hbusy
  | leave o hidle => simp [h] at hidle
  | close => exact ⟨h, by simp⟩
  | _ => exact ⟨h, rfl⟩

/-- Nothing is taken any more after the end of the worker. -/
theorem taken_of_dead (h : a.queue.worker = .dead) (events : List Event) : taken (a.trace events) = [] := by
  induction events generalizing a with
  | nil => rfl
  | cons e rest ih =>
    obtain ⟨hdead, hnone⟩ := dead_change (a.change_step e) h
    have hrest := ih hdead
    simp only [trace, commands_append, hnone, hrest, List.append_nil]

/-! ### Sending -/

theorem offer_of_dead (hopen : a.queue.isOpen = true) (h : a.queue.worker = .dead) (c : Command) (p : Plant) :
    (a.offer c p).1 = some (.failed .disconnected) := by
  have hgone : a.queue.isGone = true := by simp [isGone, h]
  unfold offer
  rcases offer_cases a.queue c with ⟨hclosed, -⟩ | ⟨-, -, heq⟩ | ⟨-, hlive, -⟩ | ⟨-, hlive, -⟩
  · simp [hopen] at hclosed
  · rw [heq]
  · simp [hgone] at hlive
  · simp [hgone] at hlive

theorem offer_ne_disconnected (h : a.queue.isOpen = true → a.queue.isGone = false) (c : Command) (p : Plant) :
    (a.offer c p).1 ≠ some (.failed .disconnected) := by
  unfold offer
  rcases offer_cases a.queue c with ⟨-, heq⟩ | ⟨hopen, hgone, -⟩ | ⟨-, -, heq⟩ | ⟨-, -, heq⟩
  · rw [heq]
    simp
  · rw [h hopen] at hgone
    cases hgone
  · rw [heq]
    rcases overflow_cases a.queue c with ⟨-, heq⟩ | ⟨-, -, alerts, notices, heq⟩ | ⟨-, -, heq⟩
    · rw [heq]
      cases c <;> simp
    · rw [heq]
      simp
    · rw [heq]
      simp
  · rw [heq]
    simp

theorem log_ne_disconnected (h : a.queue.isOpen = true → a.queue.isGone = false) (s : Snapshot) (p : Plant) :
    (a.log s p).1 ≠ some (.failed .disconnected) := by
  unfold log
  split
  · exact offer_ne_disconnected h _ _
  · simp

/-! ### What is still to be done -/

/-- The worker ends the call that it is in and does all that is queued, with these outcomes. -/
def serving (o : Command → Outcome) (q : Queue) : List Event :=
  (inHand q).map (fun c => .finish (o c)) ++ q.pending.flatMap fun c => [.take, .finish (o c)]

theorem finish_of_lives {c : Command} {o : Outcome} (hbusy : a.queue.worker = .busy c)
    (hlives : c.endsWorker o = false) :
    a.marks (.finish o) = [.returned c o] ∧ (a.step (.finish o)).queue.worker = .idle ∧
      (a.step (.finish o)).queue.pending = a.queue.pending := by
  simp [marks, step, hbusy, settle_of_lives a.queue hlives, clearOut, isGone]

theorem take_of_idle {c : Command} {rest : List Command} (hidle : a.queue.worker = .idle)
    (hnext : a.queue.pending = c :: rest) :
    a.marks .take = [.taken c] ∧ (a.step .take).queue.worker = .busy c ∧ (a.step .take).queue.pending = rest := by
  simp [marks, step, pull, hidle, hnext]

theorem trace_of_idle {o : Command → Outcome} (ho : ∀ c : Command, c.endsWorker (o c) = false) {cs : List Command}
    (hidle : a.queue.worker = .idle) (hpending : a.queue.pending = cs) :
    a.trace (cs.flatMap fun c => [.take, .finish (o c)]) = cs.flatMap fun c => [.taken c, .returned c (o c)] := by
  induction cs generalizing a with
  | nil => rfl
  | cons c rest ih =>
    obtain ⟨htake, hbusy, hrest⟩ := take_of_idle hidle hpending
    obtain ⟨hfinish, hagain, hsame⟩ := finish_of_lives hbusy (ho c)
    have hlater := ih hagain (hsame.trans hrest)
    simp only [List.flatMap_cons, List.cons_append, List.nil_append, trace, htake, hfinish, hlater]

theorem trace_serving {o : Command → Outcome} (ho : ∀ c : Command, c.endsWorker (o c) = false)
    (hlive : a.queue.isGone = false) :
    a.trace (serving o a.queue) = (inHand a.queue).map (fun c => .returned c (o c)) ++
      a.queue.pending.flatMap fun c => [.taken c, .returned c (o c)] := by
  unfold serving
  cases hworker : a.queue.worker with
  | idle =>
    simp only [inHand, hworker, List.map_nil, List.nil_append]
    exact trace_of_idle ho hworker rfl
  | busy c =>
    obtain ⟨hfinish, hidle, hpending⟩ := finish_of_lives hworker (ho c)
    simp only [inHand, hworker, List.map_cons, List.map_nil, List.cons_append, List.nil_append, trace, hfinish]
    rw [trace_of_idle ho hidle hpending]
  | finished | dead => simp [isGone, hworker] at hlive

/-- Whatever was sent is still handed over, if the worker lives. -/
theorem Mortal.taken_serving (h : Mortal past a.queue) (hlive : a.queue.worker ≠ .dead) {o : Command → Outcome}
    (ho : ∀ c : Command, c.endsWorker (o c) = false) :
    taken (past ++ a.trace (serving o a.queue)) = sent (past ++ a.trace (serving o a.queue)) := by
  have horder := h.order_of_live hlive
  cases hgone : a.queue.isGone with
  | false =>
    have hserved : ∀ cs : List Command,
        taken (cs.flatMap fun c => [.taken c, .returned c (o c)]) = cs ∧
          sent (cs.flatMap fun c => [.taken c, .returned c (o c)]) = [] := by
      intro cs
      induction cs with
      | nil => exact ⟨rfl, rfl⟩
      | cons c rest ih => simp [ih]
    rw [trace_serving ho hgone]
    simp [hserved, horder]
  | true =>
    have hfinished := finished_of_gone hgone hlive
    have hpending := (h.finished hfinished).2
    rw [hpending, List.append_nil] at horder
    simp [serving, inHand, hfinished, hpending, trace, horder]

end

/-- Let no flush panic. The worker ends by a panic just if the inner sink has panicked on a line, and that panic is the
one failure that is not counted. As long as there is none, the worker does all that was sent in order, nobody is told
that it is gone, and every error and panic of the inner sink is counted. Once there is one, nothing more is ever taken,
and whoever sends is told. -/
theorem raw_panic_ends_worker (settings : QueueSettings) (formatter : FormatterId) (inner : SinkId)
    (events : List Event)
    (hflush : ∀ m ∈ (start settings formatter inner).trace events, m.isFlushPanic = false) :
    let a := (start settings formatter inner).run events
    let past := (start settings formatter inner).trace events
    (a.queue.worker = .dead ↔ ∃ m ∈ past, m.isRawPanic = true) ∧
      ((∀ m ∈ past, m.isRawPanic = false) →
        taken past ++ a.queue.pending = sent past ∧
        (∀ o : Command → Outcome, (∀ c : Command, c.endsWorker (o c) = false) →
          taken (past ++ a.trace (serving o a.queue)) = sent (past ++ a.trace (serving o a.queue))) ∧
        (∀ c, .refused c ∉ past) ∧
        (∀ s p, (a.log s p).1 ≠ some (.failed .disconnected)) ∧
        (∀ bs p, (a.write bs p).1 ≠ some (.failed .disconnected)) ∧
        a.queue.stats.failures = past.countP Mark.isFault) ∧
      ((∃ m ∈ past, m.isRawPanic = true) →
        (∀ later, taken (a.trace later) = []) ∧
        (a.queue.isOpen = true →
          (∀ s p, a.gate.passes s.severity = true → (a.log s p).1 = some (.failed .disconnected)) ∧
          ∀ bs p, (a.write bs p).1 = some (.failed .disconnected)) ∧
        a.queue.stats.failures + 1 = past.countP Mark.isFault) ∧
      (∀ p, (a.work p).1 = a.run (a.workEvents p)) ∧ a.Operates ∧
      ∀ later, (start settings formatter inner).HandsOver (events ++ later) := by
  intro a past
  have h : Mortal past a.queue := mortal_run settings formatter inner events
  have hfailures : past.countP Mark.isFault = a.queue.stats.failures + past.countP Mark.isRawPanic := by
    rw [h.stats, foldl_count, countP_isFault]
    simp [QueueStats.zero]
  have hdeaths : past.countP Mark.isRawPanic = if a.queue.worker = .dead then 1 else 0 := by
    rw [← h.deaths]
    refine List.countP_congr fun m hm => ?_
    rw [m.kills_eq, hflush m hm, Bool.or_false]
  have hdead : a.queue.worker = .dead ↔ ∃ m ∈ past, m.isRawPanic = true := by
    rw [← List.countP_pos_iff, hdeaths]
    split <;> simp_all
  refine ⟨hdead, ?_, ?_, a.work_eq_run, a.operates, fun later => handsOver settings formatter inner _⟩
  · intro hcalm
    have hlives : a.queue.worker ≠ .dead := by
      rw [Ne, hdead]
      rintro ⟨m, hm, hpanic⟩
      rw [hcalm m hm] at hpanic
      cases hpanic
    have hlive : a.queue.isOpen = true → a.queue.isGone = false := by
      intro hopen
      cases hgone : a.queue.isGone with
      | false => rfl
      | true => exact absurd (h.dead_of_gone hopen hgone) hlives
    refine ⟨h.order_of_live hlives, fun o ho => h.taken_serving hlives ho, h.refusals hlives,
      fun s p => log_ne_disconnected hlive s p, fun bs p => offer_ne_disconnected hlive _ p, ?_⟩
    rw [hfailures, hdeaths, if_neg hlives, Nat.add_zero]
  · intro hpanic
    have hends := hdead.mpr hpanic
    refine ⟨fun later => taken_of_dead hends later, fun hopen => ⟨?_, ?_⟩, ?_⟩
    · intro s p hgate
      unfold log
      rw [if_pos hgate]
      exact offer_of_dead hopen hends _ _
    · exact fun bs p => offer_of_dead hopen hends _ p
    · rw [hfailures, hdeaths, if_pos hends]

/-- The inner sink panics on a record, and then a line is sent. -/
def recordPanics : List Event :=
  [.log ⟨.fatal, 0, ⟨0, 0⟩, ⟨0, 0⟩, ⟨0, 0⟩, ⟨0, 0⟩, ⟨2000, 1, 1, 0, 0, 0, 0, false, 946684800⟩⟩ .empty, .take,
    .write [97] .empty, .finish (.panicked .wordless)]

/-- The inner sink panics on a line while another is queued. -/
def linePanics : List Event := [.write [98] .empty, .take, .write [97] .empty, .finish (.panicked .wordless)]

theorem raw_panic_ends_worker_narrow :
    (((start narrow 0 0).run recordPanics).queue.pending = [.raw [97]] ∧
      (((start narrow 0 0).run recordPanics).write [99] .empty).1 ≠ some (.failed .disconnected) ∧
      ((start narrow 0 0).run recordPanics).queue.stats.failures =
        ((start narrow 0 0).trace recordPanics).countP Mark.isFault) ∧
    ((start narrow 0 0).run linePanics).queue.pending = [.raw [97]] ∧
      (∀ later, taken (((start narrow 0 0).run linePanics).trace later) = []) ∧
      (((start narrow 0 0).run linePanics).write [99] .empty).1 = some (.failed .disconnected) ∧
      ((start narrow 0 0).run linePanics).queue.stats.failures + 1 =
        ((start narrow 0 0).trace linePanics).countP Mark.isFault := by
  have hrecord := raw_panic_ends_worker narrow 0 0 recordPanics (by decide +kernel)
  have hline := raw_panic_ends_worker narrow 0 0 linePanics (by decide +kernel)
  obtain ⟨-, -, -, -, hwrite, hcounted⟩ := hrecord.2.1 (by decide +kernel)
  obtain ⟨htaken, hsend, hmissed⟩ := hline.2.2.1 (by decide +kernel)
  exact ⟨⟨by decide +kernel, hwrite [99] .empty, hcounted⟩, by decide +kernel, htaken,
    (hsend (by decide +kernel)).2 [99] .empty, hmissed⟩

end Adapter

end Logbook
