import Logbook.Proofs.RawPanics

/-!
# Flushing a closed adapter

The flush of an open adapter is queued behind what was sent before it. A closed adapter has no queue to go through: its
flush asks the inner sink at once and answers as that does. It waits for nothing, so it says nothing about what is still
queued. Where the worker was seen to end, nothing is; where the wait for it was given up, the worker may still have all
of it before it.
-/

namespace Logbook.Adapter

open Queue

section

variable {a : Adapter} {past new : List Mark} {q q' : Queue}

theorem flush_of_closed (h : a.queue.isOpen = false) (pace : Adapter → Plant → Adapter × Plant) (p : Plant) :
    a.flush pace p = ((p.flush a.inner).1, a, (p.flush a.inner).2) := by
  unfold flush
  rw [h, if_neg Bool.false_ne_true]

theorem inner_offer (a : Adapter) (c : Command) (p : Plant) : (a.offer c p).2.1.inner = a.inner := by
  unfold offer
  rcases a.queue.offer c with ⟨admission, q, notices⟩
  cases admission with
  | preserved => cases c <;> rfl
  | _ => rfl

theorem inner_step (a : Adapter) (e : Event) : (a.step e).inner = a.inner := by
  cases e with
  | log s p =>
    simp only [step, log]
    split
    · exact a.inner_offer _ _
    · rfl
  | write bs p => exact a.inner_offer _ _
  | askFlush | giveUp | take | finish | leave =>
    simp only [step]
    split <;> rfl
  | enter | close | join | setLevel => rfl

theorem inner_run (a : Adapter) (events : List Event) : (a.run events).inner = a.inner := by
  induction events generalizing a with
  | nil => rfl
  | cons e rest ih => exact (ih (a.step e)).trans (a.inner_step e)

theorem gone_change (hc : Change q new q') (h : q.isGone = true) : q'.isGone = true := by
  cases hc with
  | take hidle | leave o hidle => simp [isGone, hidle] at h
  | finish hbusy | die hbusy => simp [isGone, hbusy] at h
  | _ => exact h

theorem gone_run (h : a.queue.isGone = true) (events : List Event) : (a.run events).queue.isGone = true :=
  run_keeps (P := fun _ q => q.isGone = true) (fun hc h => gone_change hc h) a events [] h

/-- Closing, what goes on meanwhile, and the end of the wait. -/
theorem shutdown_eq_run {during : List Event} {pace : Adapter → Plant → Adapter × Plant} {p : Plant}
    (hpace : (pace (a.step .close) (a.host.clearOut a.queue.close p).2).1 = (a.step .close).run during)
    (timeout : Duration) :
    (a.shutdown pace timeout p).2.1 = (a.step .close).run (during ++ [.join timeout]) := by
  have hjoin : (a.shutdown pace timeout p).2.1 =
      (pace (a.step .close) (a.host.clearOut a.queue.close p).2).1.step (.join timeout) := rfl
  rw [hjoin, hpace, run_append]
  rfl

/-- What was sent has been handed over once what was queued has been taken. -/
theorem Ordered.handed_over_iff (h : Ordered past q) (hlive : q.worker ≠ .dead) (new : List Mark) :
    lines (sent past) <+: lines (taken (past ++ new)) ↔ lines q.pending <+: lines (taken new) := by
  have horder := h.order_of_live hlive
  rw [← horder, taken, taken, commands_append, lines_append, lines_append, List.prefix_append_right_inj]

end

/-- An adapter is shut down after `before`, where `during` goes on until the wait for the worker ends, and is flushed
after `later`. The flush answers as the inner sink does and waits for nothing. As it returns, `meanwhile` having gone
on, the records and lines that were sent before it have been handed over just if the worker has taken meanwhile what was
queued. If the first shutdown has seen the worker end, nothing is queued any more, and so they have. Otherwise the flush
may be done before they are: they are handed over later. -/
theorem flush_after_shutdown (settings : QueueSettings) (formatter : FormatterId) (inner : SinkId)
    (before during later : List Event) (timeout : Duration)
    (hcalm : ∀ m ∈ (start settings formatter inner).trace (before ++ (.close :: during ++ [.join timeout]) ++ later),
      m.kills = false) :
    let a := (start settings formatter inner).run before
    let past := (start settings formatter inner).trace (before ++ (.close :: during ++ [.join timeout]) ++ later)
    ∀ (pace : Adapter → Plant → Adapter × Plant) (p : Plant),
      (pace (a.step .close) (a.host.clearOut a.queue.close p).2).1 = (a.step .close).run during →
      let b := (a.shutdown pace timeout p).2.1.run later
      (∀ pace' p', b.flush pace' p' = ((p'.flush inner).1, b, (p'.flush inner).2)) ∧
      (∀ meanwhile, lines (sent past) <+: lines (taken (past ++ b.trace meanwhile)) ↔
        lines b.queue.pending <+: lines (taken (b.trace meanwhile))) ∧
      ((∀ t, .join t ∉ before ++ during) → (a.shutdown pace timeout p).1 = true →
        b.queue.pending = [] ∧ taken past = sent past) ∧
      (∀ o : Command → Outcome, (∀ c : Command, c.endsWorker (o c) = false) →
        taken (past ++ b.trace (serving o b.queue)) = sent (past ++ b.trace (serving o b.queue))) ∧
      b.Operates ∧
      ∀ meanwhile, (start settings formatter inner).HandsOver
        (before ++ (.close :: during ++ [.join timeout]) ++ later ++ meanwhile) := by
  intro a past pace p hpace b
  have hb : b = ((a.step .close).run (during ++ [.join timeout])).run later :=
    congrArg (run · later) (shutdown_eq_run hpace timeout)
  have hrun : b = (start settings formatter inner).run (before ++ (.close :: during ++ [.join timeout]) ++ later) := by
    rw [run_append, run_append]
    exact hb
  have h : Mortal past b.queue := by
    rw [hrun]
    exact mortal_run settings formatter inner _
  have hlive : b.queue.worker ≠ .dead := h.not_dead hcalm
  refine ⟨fun pace' p' => ?_, fun meanwhile => h.handed_over_iff hlive _, fun hfirst htrue => ?_,
    fun o ho => h.taken_serving hlive ho, b.operates, fun meanwhile => handsOver settings formatter inner _⟩
  · have hclosed : Closed (a.step .close).queue := closed_step (ticketed_run settings formatter inner before).toFits
    have hopen : b.queue.isOpen = false := by
      rw [hb]
      exact (closed_run (closed_run hclosed _) later).isOpen
    have hinner : b.inner = inner := by
      rw [hrun]
      exact inner_run (start settings formatter inner) _
    rw [flush_of_closed hopen, hinner]
  · have hjoined : ((a.step .close).run during).queue.joined = false := by
      have hbehind : (start settings formatter inner).run (before ++ .close :: during) = (a.step .close).run during :=
        run_append _ before (.close :: during)
      rw [← hbehind]
      refine joined_run_of_none fun t hmem => ?_
      rcases List.mem_append.mp hmem with hmem | hmem
      · exact hfirst t (List.mem_append_left _ hmem)
      · exact hfirst t (List.mem_append_right _ ((List.mem_cons.mp hmem).resolve_left (by simp)))
    have hjoin : (((a.step .close).run during).queue.join timeout).1 = true := by
      rw [← hpace]
      exact htrue
    have hgone : b.queue.isGone = true := by
      rw [hb, run_append]
      exact gone_run (gone_run (gone_of_join hjoin hjoined) _) later
    have hfinished := finished_of_gone hgone hlive
    have hdrained : Drained past b.queue := by
      rw [hrun]
      exact drained_run settings formatter inner _
    exact ⟨(hdrained.finished hfinished).2, hdrained.taken_eq hfinished⟩

/-- The worker is in one line while another is queued. -/
def halfway : List Event := [.write [97] .empty, .take, .write [98] .empty]

/-- The worker takes what is queued and ends. -/
def ending : List Event := [.finish .done, .take, .finish .done, .leave .done]

/- The wait is given up while a line is queued, and the flush is done all the same; a wait that is long enough leaves
nothing behind. -/
theorem flush_after_shutdown_narrow :
    let plant : Plant := ⟨.empty, (Outlets.empty.addSink "memory" (.memory .empty)).2⟩
    let a := (start narrow 0 0).run halfway
    let short := a.shutdown (fun b p => (b, p)) ⟨0, 1⟩ plant
    let past := (start narrow 0 0).trace (halfway ++ (.close :: [] ++ [.join ⟨0, 1⟩]) ++ [])
    let long := a.shutdown (fun b p => (b.run ending, p)) ⟨1, 0⟩ plant
    let whole := (start narrow 0 0).trace (halfway ++ (.close :: ending ++ [.join ⟨1, 0⟩]) ++ [])
    (short.1 = false ∧ (short.2.1.flush (fun b p => (b.run ending, p)) plant).1 = .done ∧
      sent past = [.raw [97], .raw [98]] ∧ ¬ lines (sent past) <+: lines (taken past)) ∧
    long.1 = true ∧ (long.2.1.flush (fun b p => (b, p)) plant).1 = .done ∧ taken whole = sent whole := by
  intro plant a short past long whole
  obtain ⟨hflush, hhanded, -⟩ :=
    flush_after_shutdown narrow 0 0 halfway [] [] ⟨0, 1⟩ (by decide +kernel) (fun b p => (b, p)) plant rfl
  obtain ⟨hflush', -, hended, -⟩ :=
    flush_after_shutdown narrow 0 0 halfway ending [] ⟨1, 0⟩ (by decide +kernel) (fun b p => (b.run ending, p)) plant
      rfl
  have htrue : long.1 = true := by decide +kernel
  have hqueued : ¬ lines short.2.1.queue.pending <+: [] := by decide +kernel
  have hdone : (plant.flush 0).1 = .done := by decide +kernel
  refine ⟨⟨by decide +kernel, ?_, by decide +kernel, ?_⟩, htrue, ?_, (hended (by simp [halfway, ending]) htrue).2⟩
  · exact (congrArg Prod.fst (hflush _ plant)).trans hdone
  · have hlate := (hhanded []).not.mpr hqueued
    rw [trace, List.append_nil] at hlate
    exact hlate
  · exact (congrArg Prod.fst (hflush' _ plant)).trans hdone

end Logbook.Adapter
