import Logbook.Proofs.Tally

/-!
# Critical records are kept

With critical records preserved, the record of an error is queued or delivered by its caller, and never discarded,
whatever the policy and however full the queue.
-/

namespace Logbook.Adapter

open Queue

@[simp] def Mark.dropped? : Mark → Option Command
  | dropped c => some c
  | _ => none

abbrev dropped (past : List Mark) : List Command := commands Mark.dropped? past

/-- Commands that were discarded, and commands that might still be, are not critical. -/
structure Spares (past : List Mark) (q : Queue) : Prop where
  preserving : q.settings.preserveCritical = true
  dropped : ∀ c ∈ dropped past, c.isCritical = false ∧ c.isFlush = false
  waiting : ∀ w ∈ q.waiting, w.2.isCritical = false

section

variable {past new : List Mark} {q q' : Queue}

theorem Spares.not_critical (h : Spares past q) {c : Command} (hc : q.settings.preserves c = false) :
    c.isCritical = false := by
  unfold QueueSettings.preserves at hc
  rw [h.preserving, Bool.true_and] at hc
  exact hc

theorem Spares.dropped_change (h : Spares past q) (hc : Change q new q') :
    ∀ c ∈ Adapter.dropped (past ++ new), c.isCritical = false ∧ c.isFlush = false := by
  have hold := h.dropped
  intro c hmem
  rw [Adapter.dropped, commands_append, List.mem_append] at hmem
  rcases hmem with hmem | hmem
  · exact hold c hmem
  · cases hc with
    | drop c' alerts hline hkeep =>
      simp at hmem
      rw [hmem]
      exact ⟨h.not_critical hkeep, hline⟩
    | giveUp alerts hi hline =>
      simp at hmem
      rw [hmem]
      exact ⟨h.waiting _ (List.mem_of_getElem? hi), hline⟩
    | _ => simp at hmem

theorem Spares.waiting_change (h : Spares past q) (hc : Change q new q') :
    ∀ w ∈ q'.waiting, w.2.isCritical = false := by
  have hold := h.waiting
  cases hc with
  | wait c hline hlive hkeep =>
    intro w hw
    rcases List.mem_append.mp hw with hw | hw
    · exact hold w hw
    · rw [List.mem_singleton.mp hw]
      exact h.not_critical hkeep
  | waitFlush =>
    intro w hw
    rcases List.mem_append.mp hw with hw | hw
    · exact hold w hw
    · rw [List.mem_singleton.mp hw]
      rfl
  | enter | giveUp | giveUpFlush => exact fun w hw => hold w (List.mem_of_mem_eraseIdx hw)
  | die => exact fun w hw => absurd hw List.not_mem_nil
  | _ => exact hold

theorem Spares.change (h : Spares past q) (hc : Change q new q') : Spares (past ++ new) q' where
  preserving := by
    rw [settings_change hc]
    exact h.preserving
  dropped := h.dropped_change hc
  waiting := h.waiting_change hc

theorem countP_isDropped (past : List Mark) : past.countP Mark.isDropped = (Adapter.dropped past).length := by
  induction past with
  | nil => rfl
  | cons m rest ih =>
    have hdropped : Adapter.dropped (m :: rest) = m.dropped?.toList ++ Adapter.dropped rest := commands_cons _ m rest
    rw [countP_mark, hdropped, List.length_append, ih]
    cases m <;> rfl

end

/-! ### Logging a critical record -/

/-- What a caller prints that has delivered a record itself is no alert. -/
theorem not_alert (q : Queue) (o : Outcome) :
    ∀ n ∈ (q.countDelivery o).2, ∀ queue count, n ≠ .queueFull queue count := by
  intro n hn queue count
  cases o with
  | done => cases hn
  | failed e =>
    rw [List.mem_singleton.mp hn]
    exact Notice.noConfusion
  | panicked p =>
    rw [List.mem_singleton.mp hn]
    exact Notice.noConfusion

theorem log_of_preserved {a : Adapter} {s : Snapshot} {p p' : Plant} {outcome : Option Outcome}
    (hgate : a.gate.passes s.severity = true) (hopen : a.queue.isOpen = true) (hlive : a.queue.isGone = false)
    (hfull : a.queue.isFull = true) (hkeep : a.queue.settings.preserves (.record s) = true)
    (hlog : Plant.log { p with store := s.clone p.store } false a.inner s = (outcome, p')) :
    a.log s p =
      (some .done,
        { a with queue := { a.queue with
            stats := { a.queue.stats with
              preserved := a.queue.stats.preserved + 1 }.countRecord (outcome.getD .done) } },
        a.host.discard [.record s] (a.host.reportAll (a.queue.countDelivery (outcome.getD .done)).2 p')) := by
  unfold QueueSettings.preserves at hkeep
  unfold log offer Queue.offer overflow
  simp only [hgate, hopen, hlive, hfull, hkeep, Bool.not_true, Bool.false_eq_true, if_true, if_false]
  simp only [Host.reportAll, List.foldl_nil, hlog]
  cases outcome with
  | none => rfl
  | some o => cases o <;> rfl

/-- A record of an error is queued, or else delivered by its caller, and nothing that tells of discards moves. What
was discarded are lines and lesser records. -/
theorem critical_never_dropped (settings : QueueSettings) (formatter : FormatterId) (inner : SinkId)
    (events : List Event) (hkeep : settings.preserveCritical = true) :
    let a := (start settings formatter inner).run events
    let past := (start settings formatter inner).trace events
    (a.queue.stats.dropped = (dropped past).length ∧
      ∀ c ∈ dropped past, (∃ bs, c = .raw bs) ∨ ∃ s, c = .record s ∧ s.severity < .error) ∧
    ∀ (s : Snapshot) (p : Plant), a.queue.isOpen = true → a.queue.isGone = false → .error ≤ s.severity →
      a.gate.passes s.severity = true →
      let held : Plant := { p with store := s.clone p.store }
      ∃ q plant, a.log s p = (some .done, { a with queue := q }, plant) ∧
        ((q.pending = a.queue.pending ++ [.record s] ∧ plant = held) ∨
          (q.pending = a.queue.pending ∧ ∃ notices,
            plant = a.host.discard [.record s] (a.host.reportAll notices (held.log false a.inner s).2) ∧
            ∀ n ∈ notices, ∀ queue count, n ≠ .queueFull queue count)) ∧
        q.waiting = a.queue.waiting ∧ q.stats.dropped = a.queue.stats.dropped ∧
        q.stats.blocked = a.queue.stats.blocked ∧ q.alerts = a.queue.alerts := by
  intro a past
  have htally : Tally past a.queue := tally_run settings formatter inner events
  have hspares : Spares past a.queue := by
    refine run_keeps (P := Spares) (fun hc h => h.change hc) _ events [] ⟨hkeep, ?_, ?_⟩
    · exact fun c hc => absurd hc List.not_mem_nil
    · exact fun w hw => absurd hw List.not_mem_nil
  refine ⟨⟨?_, ?_⟩, ?_⟩
  · rw [htally.stats, foldl_count, ← countP_isDropped]
    exact Nat.zero_add _
  · intro c hc
    obtain ⟨hcritical, hline⟩ := hspares.dropped c hc
    cases c with
    | raw bs => exact .inl ⟨bs, rfl⟩
    | record s => exact .inr ⟨s, rfl, Nat.lt_of_not_le (of_decide_eq_false hcritical)⟩
    | flush t => cases hline
  · intro s p hopen hlive hseverity hgate held
    by_cases hfull : a.queue.isFull = true
    · have hcritical : a.queue.settings.preserves (.record s) = true := by
        unfold QueueSettings.preserves
        rw [hspares.preserving, Bool.true_and]
        exact decide_eq_true hseverity
      have hlog := log_of_preserved hgate hopen hlive hfull hcritical (p := p) rfl
      exact ⟨_, _, hlog, .inr ⟨rfl, _, rfl, not_alert _ _⟩, rfl, rfl, rfl, rfl⟩
    · rw [Bool.not_eq_true] at hfull
      exact ⟨_, _, log_of_free hgate hopen hlive hfull, .inl ⟨rfl, rfl⟩, rfl, rfl, rfl, rfl⟩

/-- With one place and a line in it, a fatal record goes past the queue, while a further line is dropped. -/
theorem critical_never_dropped_one_place :
    let settings : QueueSettings := ⟨"queue", "probe", 1, .alertAndDrop, true, true⟩
    let events : List Event := [.write [97] .empty, .write [98] .empty]
    let critical : Snapshot :=
      ⟨.fatal, 0, ⟨0, 0⟩, ⟨0, 0⟩, ⟨0, 0⟩, ⟨0, 0⟩, ⟨2000, 1, 1, 0, 0, 0, 0, false, 946684800⟩⟩
    let a := (start settings 0 0).run events
    dropped ((start settings 0 0).trace events) = [.raw [98]] ∧ a.queue.isFull = true ∧
      ∃ q plant, a.log critical probed = (some .done, { a with queue := q }, plant) ∧
        q.pending = [.raw [97]] ∧ (seen plant).map (·.2) = some (1, 0) ∧
        q.stats.dropped = a.queue.stats.dropped ∧ q.alerts = a.queue.alerts := by
  intro settings events critical a
  have hopen : ((start settings 0 0).run events).queue.isOpen = true := by decide +kernel
  have hlive : ((start settings 0 0).run events).queue.isGone = false := by decide +kernel
  have hgate : ((start settings 0 0).run events).gate.passes critical.severity = true := by decide +kernel
  have hlog := (critical_never_dropped settings 0 0 events rfl).2 critical probed hopen hlive (by decide) hgate
  obtain ⟨q, plant, heq, _, _, hdropped, _, halerts⟩ := hlog
  have hpending : q.pending = [.raw [97]] :=
    (congrArg (·.2.1.queue.pending) heq).symm.trans (by decide +kernel)
  have hseen : (seen plant).map (·.2) = some (1, 0) :=
    (congrArg (fun r => (seen r.2.2).map (·.2)) heq).symm.trans (by decide +kernel)
  exact ⟨by decide +kernel, by decide +kernel, q, plant, heq, hpending, hseen, hdropped, halerts⟩

end Logbook.Adapter
