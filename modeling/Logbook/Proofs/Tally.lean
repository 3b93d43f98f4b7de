import Logbook.Proofs.Bench
import Logbook.Proofs.InOrder
import Mathlib.Data.List.Perm.Basic

/-!
# The counters of a queue

What the counters show is a matter of the history: every mark counts as it should, and nothing else is counted.
-/

namespace Logbook

/-- Does this outcome of a command count as a failure? -/
def Command.fails (c : Command) (o : Outcome) : Bool :=
  match c, o with
  | .record _, .failed _ | .record _, .panicked _ | .raw _, .failed _ => true
  | _, _ => false

def QueueStats.counters (s : QueueStats) : List Nat :=
  [s.enqueued, s.processed, s.dropped, s.blocked, s.preserved, s.failures]

namespace Adapter

namespace Mark

@[simp] def isOffered : Mark → Bool
  | offered _ => true
  | _ => false

@[simp] def isRefused : Mark → Bool
  | refused _ => true
  | _ => false

@[simp] def isDropped : Mark → Bool
  | dropped _ => true
  | _ => false

@[simp] def isDelivered : Mark → Bool
  | delivered _ _ => true
  | _ => false

/-- Has a record or a line entered the queue? -/
@[simp] def isEntry : Mark → Bool
  | sent c => !c.isFlush
  | _ => false

/-- Has an offer come to an end? -/
@[simp] def isFate : Mark → Bool
  | sent c => !c.isFlush
  | refused _ | dropped _ | delivered _ _ => true
  | _ => false

/-- Has a call ended that handed a record to the inner sink? -/
@[simp] def isLogCall : Mark → Bool
  | returned c _ => c.isRecord
  | delivered _ _ => true
  | _ => false

/-- Has a call of the inner sink failed? -/
@[simp] def isFailure : Mark → Bool
  | returned c o => c.fails o
  | delivered _ o => !o.isDone
  | _ => false

/-- Did an offer find the queue full, so that its caller had to wait? -/
@[simp] def isBlocked (s : QueueSettings) : Mark → Bool
  | overflowed c => s.policy.waits && !s.preserves c
  | _ => false

/-- The command of a mark. -/
@[simp] def command? : Mark → Option Command
  | offered c | overflowed c | sent c | refused c | dropped c | delivered c _ | taken c | returned c _ | lost c =>
    some c
  | left _ => none

end Mark

/-- What a mark adds to the counters. -/
def count (s : QueueSettings) (stats : QueueStats) (m : Mark) : QueueStats where
  enqueued := stats.enqueued + m.isEntry.toNat
  processed := stats.processed + m.isLogCall.toNat
  dropped := stats.dropped + m.isDropped.toNat
  blocked := stats.blocked + (m.isBlocked s).toNat
  preserved := stats.preserved + m.isDelivered.toNat
  failures := stats.failures + m.isFailure.toNat

section

variable {s : QueueSettings} {past new : List Mark} {q q' : Queue}

/-! ### Counting marks -/

theorem countP_mark (f : Mark → Bool) (m : Mark) (past : List Mark) :
    (m :: past).countP f = (f m).toNat + past.countP f := by
  rw [List.countP_cons, Nat.add_comm]
  cases f m <;> rfl

/-! ### One change -/

theorem count_refused (cs : List Command) (stats : QueueStats) :
    (cs.map Mark.refused).foldl (count s) stats = stats := by
  induction cs with
  | nil => rfl
  | cons c rest ih => exact ih

theorem count_lost (cs : List Command) (stats : QueueStats) : (cs.map Mark.lost).foldl (count s) stats = stats := by
  induction cs with
  | nil => rfl
  | cons c rest ih => exact ih

theorem countReturn_eq (stats : QueueStats) (c : Command) (o : Outcome) :
    stats.countReturn c o = count s stats (.returned c o) := by
  cases c <;> cases o <;> rfl

theorem countReturn_of_ends {c : Command} {o : Outcome} (h : c.endsWorker o = true) (stats : QueueStats) :
    stats.countReturn c o = stats := by
  cases c <;> cases o <;> first | rfl | cases h

/-- The counters move as the marks say. -/
theorem stats_change (hc : Change q new q') : q'.stats = new.foldl (count q.settings) q.stats := by
  cases hc with
  | preserve c o hkeep => cases o <;> simp [count, QueueStats.countRecord, Outcome.isDone, hkeep]
  | accept c hline => simp [count, hline]
  | drop c alerts hline hkeep hpolicy => simp [count, hpolicy]
  | wait c hline hlive hkeep hpolicy => simp [count, hpolicy, hkeep]
  | @enter i ticket c hi => cases hflush : c.isFlush <;> simp [count, hflush]
  | finish => exact countReturn_eq _ _ _
  | @die c o hbusy hends =>
    -- no counter shows the command that ends the worker
    simp only [List.cons_append, List.foldl_cons, List.foldl_append, count_refused, count_lost]
    rw [← countReturn_eq, countReturn_of_ends hends]
  | close => exact (count_lost _ _).symm
  | _ => rfl

/-- Flushes are not counted. -/
theorem stats_of_flushes (hc : Change q new q') (h : ∀ m ∈ new, ∀ c, m.command? = some c → c.isFlush = true) :
    q'.stats = q.stats := by
  cases hc with
  | accept c hline | drop c _ hline | wait c hline | giveUp _ _ hline =>
    have hflush := h _ List.mem_cons_self _ rfl
    rw [hline] at hflush
    cases hflush
  | preserve c o hkeep =>
    have hflush := h _ List.mem_cons_self _ rfl
    cases c with
    | flush ticket => simp [QueueSettings.preserves, Command.isCritical] at hkeep
    | record | raw => cases hflush
  | enter =>
    have hflush := h _ List.mem_cons_self _ rfl
    simp [hflush]
  | @finish c o =>
    have hflush := h _ List.mem_cons_self _ rfl
    cases c with
    | flush ticket => rfl
    | record | raw => cases hflush
  | _ => rfl

/-- A counter moves by one at most. -/
theorem counters_change (hc : Change q new q') {n : Nat} (h : ∀ x ∈ q.stats.counters, x ≤ n) :
    ∀ x ∈ q'.stats.counters, x ≤ n + 1 := by
  simp only [QueueStats.counters, List.forall_mem_cons, List.not_mem_nil, false_imp_iff, implies_true,
    and_true] at h ⊢
  cases hc with
  | preserve c o => cases o <;> simp [QueueStats.countRecord, Outcome.isDone] <;> omega
  | @finish c o =>
    cases c <;> cases o <;> simp [QueueStats.countReturn, QueueStats.countRecord, Outcome.isDone] <;> omega
  | @enter i ticket c => cases c.isFlush <;> simp <;> omega
  | still | refuse => omega
  | _ =>
    simp
    omega

/-! ### A whole history -/

theorem foldl_count (past : List Mark) (stats : QueueStats) :
    past.foldl (count s) stats =
      { enqueued := stats.enqueued + past.countP Mark.isEntry
        processed := stats.processed + past.countP Mark.isLogCall
        dropped := stats.dropped + past.countP Mark.isDropped
        blocked := stats.blocked + past.countP (Mark.isBlocked s)
        preserved := stats.preserved + past.countP Mark.isDelivered
        failures := stats.failures + past.countP Mark.isFailure } := by
  induction past generalizing stats with
  | nil => rfl
  | cons m rest ih =>
    rw [List.foldl_cons, ih]
    simp only [count, countP_mark, Nat.add_assoc]

theorem countP_isEntry (past : List Mark) : past.countP Mark.isEntry = (sent past).countP (!·.isFlush) := by
  induction past with
  | nil => rfl
  | cons m rest ih => cases m <;> simp_all [sent, List.countP_cons, Nat.add_comm]

theorem countP_isFate (past : List Mark) :
    past.countP Mark.isFate = past.countP Mark.isEntry + past.countP Mark.isDropped + past.countP Mark.isDelivered +
      past.countP Mark.isRefused := by
  induction past with
  | nil => rfl
  | cons m rest ih =>
    simp only [countP_mark, ih]
    cases m <;> simp <;> omega

theorem countP_isLogCall (past : List Mark) :
    past.countP Mark.isLogCall = (returned past).countP Command.isRecord + past.countP Mark.isDelivered := by
  induction past with
  | nil => rfl
  | cons m rest ih =>
    have hreturned : returned (m :: rest) = m.returned?.toList ++ returned rest := commands_cons _ m rest
    rw [countP_mark, countP_mark, ih, hreturned, List.countP_append]
    cases m with
    | returned c o =>
      cases c <;> simp [Command.isRecord]
      omega
    | delivered =>
      simp
      omega
    | _ => simp

theorem length_waitingLines (q : Queue) : (waitingLines q).length = q.waiting.countP (!·.2.isFlush) := by
  unfold waitingLines
  rw [← List.countP_eq_length_filter, List.countP_map]
  rfl

theorem countP_eraseIdx {waiting : List (Nat × Command)} {i ticket : Nat} {c : Command}
    (hi : waiting[i]? = some (ticket, c)) :
    waiting.countP (!·.2.isFlush) = (waiting.eraseIdx i).countP (!·.2.isFlush) + (!c.isFlush).toNat := by
  obtain ⟨hlt, hget⟩ := List.getElem?_eq_some_iff.mp hi
  have hperm := (List.getElem_cons_eraseIdx_perm hlt).countP_eq (!·.2.isFlush)
  rw [← hperm, hget, List.countP_cons]
  cases c.isFlush <;> rfl

/-- Every offer comes to an end or has its caller wait. -/
theorem offers_change (hc : Change q new q') :
    new.countP Mark.isOffered + (waitingLines q).length = new.countP Mark.isFate + (waitingLines q').length := by
  rw [length_waitingLines, length_waitingLines]
  cases hc with
  | accept c hline | wait c hline => simp [countP_mark, hline, Nat.add_comm]
  | @enter i ticket c hi =>
    rw [countP_eraseIdx hi]
    cases hflush : c.isFlush <;> simp [hflush, Nat.add_comm]
  | giveUp _ hi hline =>
    rw [countP_eraseIdx hi]
    simp [hline, Nat.add_comm]
  | giveUpFlush hi hflush =>
    rw [countP_eraseIdx hi]
    simp [hflush]
  -- all callers that wait for a record or a line are refused
  | die => simp [Function.comp_def, length_waitingLines]
  | close => simp [Function.comp_def]
  | queueFlush | waitFlush => simp [Command.isFlush]
  | _ => simp [countP_mark]

/-- The counters show what the history says, and every offer is accounted for. -/
structure Tally (past : List Mark) (q : Queue) : Prop extends Ordered past q where
  stats : q.stats = past.foldl (count q.settings) .zero
  offers : past.countP Mark.isOffered = past.countP Mark.isFate + (waitingLines q).length

theorem Tally.change (h : Tally past q) (hc : Change q new q') : Tally (past ++ new) q' where
  toOrdered := h.toOrdered.change hc
  stats := by
    rw [settings_change hc, List.foldl_append, ← h.stats]
    exact stats_change hc
  offers := by
    have hold := h.offers
    have hnew := offers_change hc
    simp only [List.countP_append]
    omega

/-! ### Runs -/

theorem tally_run (settings : QueueSettings) (formatter : FormatterId) (inner : SinkId) (events : List Event) :
    Tally ((start settings formatter inner).trace events) ((start settings formatter inner).run events).queue :=
  run_keeps (P := Tally) (fun hc h => h.change hc) _ events [] ⟨(ticketed_ofSettings settings).toOrdered, rfl, rfl⟩

theorem counters_run (a : Adapter) (events : List Event) {n : Nat} (h : ∀ x ∈ a.queue.stats.counters, x ≤ n) :
    ∀ x ∈ (a.run events).queue.stats.counters, x ≤ n + events.length := by
  induction events generalizing a n with
  | nil => exact h
  | cons e rest ih =>
    have hrest := ih (a.step e) (counters_change (a.change_step e) h)
    intro x hx
    have hle := hrest x hx
    rw [List.length_cons]
    omega

end

/-- Between calls, the counters account for every offer, for every command that was queued and for every call of the
inner sink, and flushes do not move them. -/
theorem counters_balance (settings : QueueSettings) (formatter : FormatterId) (inner : SinkId) (events : List Event)
    (hcalm : ∀ m ∈ (start settings formatter inner).trace events, m.kills = false)
    (hcallers : ((start settings formatter inner).run events).queue.waiting = [])
    (hworker : inHand ((start settings formatter inner).run events).queue = []) (hsteps : events.length < UInt64.size) :
    let a := (start settings formatter inner).run events
    let past := (start settings formatter inner).trace events
    let stats := a.queue.stats
    past.countP Mark.isOffered = stats.enqueued + stats.dropped + stats.preserved + past.countP Mark.isRefused ∧
      stats.enqueued = (taken past).countP (!·.isFlush) + a.queue.pending.countP (!·.isFlush) ∧
      stats.processed = (taken past).countP Command.isRecord + stats.preserved ∧
      stats.failures = past.countP Mark.isFailure ∧
      stats.blocked = past.countP (Mark.isBlocked settings) ∧
      (∀ x ∈ stats.counters, x < UInt64.size) ∧
      (∀ e, (∀ m ∈ a.marks e, ∀ c, m.command? = some c → c.isFlush = true) → (a.step e).queue.stats = stats) ∧
      (∀ p, (a.work p).1 = a.run (a.workEvents p)) ∧ a.Operates := by
  intro a past stats
  have h : Tally past a.queue := tally_run settings formatter inner events
  have hsettings : a.queue.settings = settings := settings_run (start settings formatter inner) events
  have hstats : stats = past.foldl (count settings) .zero := by
    rw [← hsettings]
    exact h.stats
  rw [foldl_count] at hstats
  simp only [QueueStats.zero, Nat.zero_add] at hstats
  have horder : taken past ++ a.queue.pending = sent past := h.order_of_calm hcalm
  have hcalls : taken past = returned past := by
    have hcalls := h.calls
    rw [hworker, List.append_nil] at hcalls
    exact hcalls
  have hwaiting : (waitingLines a.queue).length = 0 := by
    rw [length_waitingLines, hcallers]
    rfl
  refine ⟨?_, ?_, ?_, ?_, ?_, ?_, ?_, a.work_eq_run, a.operates⟩
  · rw [h.offers, hwaiting, countP_isFate, hstats]
    rfl
  · rw [hstats, ← List.countP_append, horder]
    exact countP_isEntry past
  · rw [hstats, hcalls]
    exact countP_isLogCall past
  · rw [hstats]
  · rw [hstats]
  · have hzero : ∀ x ∈ (start settings formatter inner).queue.stats.counters, x ≤ 0 := by
      have hstart : (start settings formatter inner).queue.stats.counters = [0, 0, 0, 0, 0, 0] := rfl
      rw [hstart]
      decide
    have hbound := counters_run _ events hzero
    intro x hx
    have hle := hbound x hx
    omega
  · exact fun e he => stats_of_flushes (a.change_step e) he

/-- A queue with one place, with a line that waits too long, an error that its caller delivers, a line that fails
and a flush. -/
theorem counters_balance_one_place :
    let settings : QueueSettings := ⟨"queue", "memory", 1, .blockFor ⟨1, 0⟩, true, false⟩
    let critical : Snapshot :=
      ⟨.fatal, 0, ⟨0, 0⟩, ⟨0, 0⟩, ⟨0, 0⟩, ⟨0, 0⟩, ⟨2000, 1, 1, 0, 0, 0, 0, false, 946684800⟩⟩
    let events : List Event := [.write [97] .empty, .write [98] .empty, .giveUp 0, .log critical .empty, .take,
      .finish (.failed .disconnected), .askFlush, .take, .finish .done]
    ((start settings 0 0).run events).queue.stats = ⟨1, 1, 1, 1, 1, 1⟩ ∧
      ((start settings 0 0).trace events).countP Mark.isOffered =
        1 + 1 + 1 + ((start settings 0 0).trace events).countP Mark.isRefused := by
  intro settings critical events
  have hstats : ((start settings 0 0).run events).queue.stats = ⟨1, 1, 1, 1, 1, 1⟩ := by decide +kernel
  have hcalm : ∀ m ∈ (start settings 0 0).trace events, m.kills = false := by decide +kernel
  have hcallers : ((start settings 0 0).run events).queue.waiting = [] := by decide +kernel
  have hworker : inHand ((start settings 0 0).run events).queue = [] := by decide +kernel
  have hsteps : events.length < UInt64.size := by decide
  have hoffers := (counters_balance settings 0 0 events hcalm hcallers hworker hsteps).1
  rw [hstats] at hoffers
  exact ⟨hstats, hoffers⟩

end Adapter

end Logbook
