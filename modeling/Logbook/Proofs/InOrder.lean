import Logbook.Proofs.Changes
import Mathlib.Data.List.Perm.Basic

/-!
# Commands are delivered in order

What the worker has taken, followed by what is queued, is what was sent, in the order of sending. A flush is sent
like any other command, so its answer says that everything before it has reached the inner sink.
-/

namespace Logbook.Adapter

open Queue

/-! ### Reading a history -/

namespace Mark

@[simp] def sent? : Mark → Option Command
  | sent c => some c
  | _ => none

@[simp] def taken? : Mark → Option Command
  | taken c => some c
  | _ => none

@[simp] def returned? : Mark → Option Command
  | returned c _ => some c
  | _ => none

@[simp] def lost? : Mark → Option Command
  | lost c => some c
  | _ => none

/-- Has a panic ended the worker, in a raw write or in a flush? -/
def kills : Mark → Bool
  | returned c o => c.endsWorker o
  | left o => o.isPanic
  | _ => false

end Mark

/-- The commands that `f` finds in a history, in order. -/
def commands (f : Mark → Option Command) (past : List Mark) : List Command := past.filterMap f

section

variable (f : Mark → Option Command) (m : Mark) (past new : List Mark)

@[simp] theorem commands_nil : commands f [] = [] := rfl

@[simp] theorem commands_cons : commands f (m :: past) = (f m).toList ++ commands f past := by
  cases h : f m <;> simp [commands, h]

@[simp] theorem commands_append : commands f (past ++ new) = commands f past ++ commands f new :=
  List.filterMap_append

@[simp] theorem commands_map (g : Command → Mark) (cs : List Command) :
    commands f (cs.map g) = cs.filterMap fun c => f (g c) := List.filterMap_map

end

abbrev sent (past : List Mark) : List Command := commands Mark.sent? past

abbrev taken (past : List Mark) : List Command := commands Mark.taken? past

abbrev returned (past : List Mark) : List Command := commands Mark.returned? past

abbrev lost (past : List Mark) : List Command := commands Mark.lost? past

theorem mem_sent_iff {past : List Mark} {c : Command} : c ∈ sent past ↔ .sent c ∈ past := by
  simp only [commands, List.mem_filterMap]
  constructor
  · rintro ⟨m, hm, hc⟩
    cases m with
    | sent c' =>
      cases hc
      exact hm
    | _ => cases hc
  · exact fun hm => ⟨_, hm, rfl⟩

/-! ### What is known of the worker -/

/-- The command that the worker is in. -/
def inHand (q : Queue) : List Command :=
  match q.worker with
  | .busy c => [c]
  | _ => []

/-- The state of the worker fits the history. -/
structure Fits (past : List Mark) (q : Queue) : Prop where
  calls : taken past = returned past ++ inHand q
  finished : q.worker = .finished → q.isOpen = false ∧ q.pending = []
  waiting : q.isGone = true → q.waiting = []
  dead : q.worker = .dead → ∃ m ∈ past, m.kills = true

section

variable {past new : List Mark} {q q' : Queue}

theorem Fits.change (h : Fits past q) (hc : Change q new q') : Fits (past ++ new) q' := by
  constructor
  case calls =>
    have hcalls := h.calls
    cases hc with
    | take hidle => simp_all [inHand]
    | finish hbusy => simp_all [inHand]
    | die hbusy => cases q.isOpen <;> simp_all [inHand]
    | leave o hidle => cases o <;> simp_all [inHand, Outcome.isPanic]
    | close => cases q.isGone <;> simp_all [inHand]
    | _ => simp_all [inHand]
  case finished =>
    intro hworker
    have hold := h.finished
    cases hc with
    | leave o hidle hclosed hpending => exact ⟨hclosed, hpending⟩
    | enter hc =>
      -- nobody waits for a worker that is gone
      have hnobody := h.waiting (by simp_all [isGone])
      rw [hnobody] at hc
      cases hc
    | _ => simp_all [isGone]
  case waiting =>
    intro hgone
    have hold := h.waiting
    cases hc with
    | _ => simp_all [isGone]
  case dead =>
    intro hworker
    cases hc with
    | die _ hends => exact ⟨_, List.mem_append_right _ List.mem_cons_self, hends⟩
    | leave o =>
      refine ⟨.left o, List.mem_append_right _ List.mem_cons_self, ?_⟩
      cases o with
      | panicked p => rfl
      | done | failed => cases hworker
    | take | finish => cases hworker
    | _ =>
      obtain ⟨m, hm, hkills⟩ := h.dead hworker
      exact ⟨m, List.mem_append_left _ hm, hkills⟩

theorem Fits.mem_taken (h : Fits past q) {c : Command} (hbusy : q.worker = .busy c) : c ∈ taken past := by
  rw [h.calls]
  exact List.mem_append_right _ (by simp [inHand, hbusy])

theorem Fits.mem_taken_of_returned (h : Fits past q) {c : Command} {o : Outcome} (hmem : .returned c o ∈ past) :
    c ∈ taken past := by
  rw [h.calls]
  exact List.mem_append_left _ (List.mem_filterMap.mpr ⟨_, hmem, rfl⟩)

theorem Fits.not_dead (h : Fits past q) (hcalm : ∀ m ∈ past, m.kills = false) : q.worker ≠ .dead := by
  intro hworker
  obtain ⟨m, hm, hkills⟩ := h.dead hworker
  rw [hcalm m hm] at hkills
  cases hkills

theorem Fits.live (h : Fits past q) (hopen : q.isOpen = true) (hcalm : ∀ m ∈ past, m.kills = false) :
    q.isGone = false := by
  have hdead := h.not_dead hcalm
  have hfinished := h.finished
  cases hworker : q.worker with
  | idle | busy => simp [isGone, hworker]
  | finished => simp_all
  | dead => exact absurd hworker hdead

theorem finished_of_gone (h : q.isGone = true) (hdead : q.worker ≠ .dead) : q.worker = .finished := by
  cases hworker : q.worker with
  | finished => rfl
  | dead => exact absurd hworker hdead
  | idle | busy => simp [isGone, hworker] at h

/-- What was taken and what is queued make up what was sent, unless a closed queue was given up. -/
structure Ordered (past : List Mark) (q : Queue) : Prop extends Fits past q where
  order : taken past ++ lost past ++ q.pending = sent past
  room : q.pending.length ≤ q.settings.limit
  intact : q.worker ≠ .dead → lost past = []

theorem Ordered.order_change (h : Ordered past q) (hc : Change q new q') :
    taken (past ++ new) ++ lost (past ++ new) ++ q'.pending = sent (past ++ new) := by
  have horder := h.order
  cases hc with
  | take hidle hnext =>
    -- what was lost would stand between the command and those that were taken
    have hlost := h.intact (by simp [hidle])
    simp [← horder, hlost, hnext]
  | die => cases q.isOpen <;> simp [← horder]
  | close => cases q.isGone <;> simp [← horder]
  | _ => simp [← horder]

theorem isFull_eq_false : q.isFull = false ↔ q.pending.length < q.settings.limit := by simp [isFull]

theorem room_change (hroom : q.pending.length ≤ q.settings.limit) (hc : Change q new q') :
    q'.pending.length ≤ q'.settings.limit := by
  cases hc with
  | accept c _ _ hfree | queueFlush _ hfree | enter _ hfree =>
    rw [isFull_eq_false] at hfree
    simpa using Nat.succ_le_of_lt hfree
  | take _ hnext =>
    rw [hnext, List.length_cons] at hroom
    exact Nat.le_of_succ_le hroom
  | die =>
    dsimp only
    split
    · exact hroom
    · exact Nat.zero_le _
  | close =>
    dsimp only
    split
    · exact Nat.zero_le _
    · exact hroom
  | _ => exact hroom

theorem Ordered.intact_change (h : Ordered past q) (hc : Change q new q') (hworker : q'.worker ≠ .dead) :
    lost (past ++ new) = [] := by
  have hlost := h.intact
  have hfinished := h.finished
  cases hc with
  | die => exact absurd rfl hworker
  | close =>
    -- a worker that has finished leaves nothing behind
    cases hw : q.worker with
    | idle | busy c | finished => simp_all [isGone]
    | dead => exact absurd hw hworker
  | _ => simp_all

theorem Ordered.change (h : Ordered past q) (hc : Change q new q') : Ordered (past ++ new) q' where
  toFits := h.toFits.change hc
  order := h.order_change hc
  room := room_change h.room hc
  intact := h.intact_change hc

theorem Ordered.order_of_live (h : Ordered past q) (hlive : q.worker ≠ .dead) : taken past ++ q.pending = sent past := by
  have horder := h.order
  rw [h.intact hlive, List.append_nil] at horder
  exact horder

theorem Ordered.order_of_calm (h : Ordered past q) (hcalm : ∀ m ∈ past, m.kills = false) :
    taken past ++ q.pending = sent past := h.order_of_live (h.not_dead hcalm)

theorem Ordered.mem_sent (h : Ordered past q) {c : Command} (hc : c ∈ taken past) : c ∈ sent past := by
  rw [← h.order, List.append_assoc]
  exact List.mem_append_left _ hc

/-! ### Tickets -/

/-- Tickets have been given out in order. -/
structure Ticketed (past : List Mark) (q : Queue) : Prop extends Ordered past q where
  flushes : ∀ t, .flush t ∈ sent past → t < q.nextTicket
  callers : ∀ w ∈ q.waiting, w.1 < q.nextTicket ∧ ∀ t, w.2 = .flush t → t < q.nextTicket
  answered : ∀ x ∈ q.answers, x.1 < q.nextTicket
  single : ∀ t, (sent past).count (.flush t) + (q.waiting.map (·.2)).count (.flush t) ≤ 1

theorem Ticketed.flushes_change (h : Ticketed past q) (hc : Change q new q') (t : Nat)
    (ht : .flush t ∈ sent (past ++ new)) : t < q'.nextTicket := by
  rw [sent, commands_append, List.mem_append] at ht
  have hold := h.flushes t
  cases hc with
  | queueFlush =>
    rcases ht with ht | ht
    · exact Nat.lt_succ_of_lt (hold ht)
    · simp at ht
      rw [ht]
      exact Nat.lt_succ_self _
  | enter hi =>
    rcases ht with ht | ht
    · exact hold ht
    · simp at ht
      exact (h.callers _ (List.mem_of_getElem? hi)).2 t ht.symm
  | wait | waitFlush =>
    simp at ht
    exact Nat.lt_succ_of_lt (hold ht)
  | accept c hline =>
    simp at ht
    rcases ht with ht | rfl
    · exact hold ht
    · cases hline
  | _ =>
    simp at ht
    exact hold ht

theorem Ticketed.callers_change (h : Ticketed past q) (hc : Change q new q') :
    ∀ w ∈ q'.waiting, w.1 < q'.nextTicket ∧ ∀ t, w.2 = .flush t → t < q'.nextTicket := by
  have hold := h.callers
  have hlater : ∀ w ∈ q.waiting, w.1 < q.nextTicket + 1 ∧ ∀ t, w.2 = .flush t → t < q.nextTicket + 1 :=
    fun w hw => ⟨Nat.lt_succ_of_lt (hold w hw).1, fun t ht => Nat.lt_succ_of_lt ((hold w hw).2 t ht)⟩
  cases hc with
  | wait c hline =>
    intro w hw
    rcases List.mem_append.mp hw with hw | hw
    · exact hlater w hw
    · cases List.mem_singleton.mp hw
      refine ⟨Nat.lt_succ_self _, fun t ht => ?_⟩
      cases ht
      cases hline
  | waitFlush =>
    intro w hw
    rcases List.mem_append.mp hw with hw | hw
    · exact hlater w hw
    · cases List.mem_singleton.mp hw
      refine ⟨Nat.lt_succ_self _, fun t ht => ?_⟩
      cases ht
      exact Nat.lt_succ_self _
  | queueFlush => exact hlater
  | enter | giveUp | giveUpFlush => exact fun w hw => hold w (List.mem_of_mem_eraseIdx hw)
  | die => exact fun w hw => absurd hw List.not_mem_nil
  | _ => exact hold

theorem Ticketed.answered_change (h : Ticketed past q) (hc : Change q new q') :
    ∀ x ∈ q'.answers, x.1 < q'.nextTicket := by
  have hold := h.answered
  have hbusy : ∀ t, q.worker = .busy (.flush t) → t < q.nextTicket := fun t ht =>
    h.flushes t (h.toOrdered.mem_sent (h.mem_taken ht))
  cases hc with
  | wait | waitFlush | queueFlush => exact fun x hx => Nat.lt_succ_of_lt (hold x hx)
  | enter hi =>
    intro x hx
    dsimp only at hx
    split at hx
    · exact hold x hx
    · rcases List.mem_cons.mp hx with rfl | hx
      · exact (h.callers _ (List.mem_of_getElem? hi)).1
      · exact hold x hx
  | @finish c o hworker =>
    intro x hx
    rcases List.mem_append.mp hx with hx | hx
    · cases c with
      | flush t =>
        cases List.mem_singleton.mp hx
        exact hbusy t hworker
      | record | raw => cases hx
    · exact hold x hx
  | @die c o hworker =>
    intro x hx
    rcases List.mem_append.mp hx with hx | hx
    · rcases List.mem_append.mp hx with hx | hx
      · cases c with
        | flush t =>
          cases List.mem_singleton.mp hx
          exact hbusy t hworker
        | record | raw => cases hx
      · obtain ⟨w, hw, rfl⟩ := List.mem_map.mp hx
        exact (h.callers w hw).1
    · exact hold x hx
  | _ => exact hold

/- Flushes are sent by those who waited with them, but for the one whose ticket is given out now. -/
theorem count_flush_change (hc : Change q new q') (t : Nat) :
    (sent new).count (.flush t) + (q'.waiting.map (·.2)).count (.flush t) ≤
      (q.waiting.map (·.2)).count (.flush t) + if t = q.nextTicket then 1 else 0 := by
  have hother : ∀ {c : Command}, c.isFlush = false → [c].count (.flush t) = 0 := by
    intro c hline
    refine List.count_eq_zero.mpr fun hmem => ?_
    cases List.mem_singleton.mp hmem
    cases hline
  have hfresh : [Command.flush q.nextTicket].count (.flush t) = if t = q.nextTicket then 1 else 0 := by
    rw [List.count_singleton]
    by_cases ht : t = q.nextTicket
    · simp [ht]
    · have hne : Command.flush q.nextTicket ≠ .flush t := fun heq => ht (Command.flush.inj heq).symm
      rw [if_neg ht, if_neg (by simpa using hne)]
  cases hc with
  | accept c hline | wait c hline => simp [hother hline]
  | queueFlush | waitFlush => simp [hfresh, Nat.add_comm]
  | @enter i ticket c hi =>
    obtain ⟨hlt, hget⟩ := List.getElem?_eq_some_iff.mp hi
    have hperm := (List.getElem_cons_eraseIdx_perm hlt).map (·.2)
    rw [← hperm.count_eq, hget, List.map_cons, List.count_cons]
    simp [List.count_singleton]
    omega
  | giveUp | giveUpFlush =>
    simp only [sent, commands_cons, commands_nil, Mark.sent?, Option.toList, List.append_nil, List.count_nil,
      Nat.zero_add]
    exact Nat.le_add_right_of_le (((List.eraseIdx_sublist q.waiting _).map (·.2)).count_le _)
  | _ => simp

theorem Ticketed.single_change (h : Ticketed past q) (hc : Change q new q') (t : Nat) :
    (sent (past ++ new)).count (.flush t) + (q'.waiting.map (·.2)).count (.flush t) ≤ 1 := by
  have hold := h.single t
  have hchange := count_flush_change hc t
  have happend : (sent (past ++ new)).count (.flush t) = (sent past).count (.flush t) + (sent new).count (.flush t) := by
    rw [sent, commands_append, List.count_append]
  split at hchange
  · rename_i hfresh
    -- the ticket is on no flush yet
    have hsent : (sent past).count (.flush t) = 0 :=
      List.count_eq_zero.mpr fun hmem => absurd (h.flushes t hmem) (hfresh ▸ Nat.lt_irrefl _)
    have hwaiting : (q.waiting.map (·.2)).count (.flush t) = 0 := by
      refine List.count_eq_zero.mpr fun hmem => ?_
      obtain ⟨w, hw, hflush⟩ := List.mem_map.mp hmem
      exact absurd ((h.callers w hw).2 t hflush) (hfresh ▸ Nat.lt_irrefl _)
    omega
  · omega

theorem Ticketed.change (h : Ticketed past q) (hc : Change q new q') : Ticketed (past ++ new) q' where
  toOrdered := h.toOrdered.change hc
  flushes := h.flushes_change hc
  callers := h.callers_change hc
  answered := h.answered_change hc
  single := h.single_change hc

theorem ticketed_ofSettings (settings : QueueSettings) : Ticketed [] (.ofSettings settings) where
  calls := rfl
  finished h := by cases h
  waiting _ := rfl
  dead h := by cases h
  order := rfl
  room := Nat.zero_le _
  intact _ := rfl
  flushes _ h := by cases h
  callers _ h := by cases h
  answered _ h := by cases h
  single _ := Nat.zero_le 1

/-! ### Waiting for a flush -/

/-- Someone waits for the flush with ticket `t`: an answer under it is the outcome of that flush. -/
structure Awaits (t : Nat) (past : List Mark) (q : Queue) : Prop where
  given : t < q.nextTicket
  caller : ∀ w ∈ q.waiting, w.1 = t → w.2 = .flush t
  answer : ∀ o, (t, o) ∈ q.answers → q.worker = .dead ∨ .returned (.flush t) o ∈ past

variable {t : Nat}

theorem Awaits.caller_change (h : Awaits t past q) (hc : Change q new q') :
    ∀ w ∈ q'.waiting, w.1 = t → w.2 = .flush t := by
  have hold := h.caller
  have hgiven := h.given
  cases hc with
  | wait | waitFlush =>
    intro w hw hticket
    rcases List.mem_append.mp hw with hw | hw
    · exact hold w hw hticket
    · cases List.mem_singleton.mp hw
      exact absurd hticket (Nat.ne_of_gt hgiven)
  | enter | giveUp | giveUpFlush => exact fun w hw => hold w (List.mem_of_mem_eraseIdx hw)
  | die => exact fun w hw => absurd hw List.not_mem_nil
  | _ => exact hold

theorem Awaits.answer_change (h : Awaits t past q) (hc : Change q new q') (o : Outcome) (ho : (t, o) ∈ q'.answers) :
    q'.worker = .dead ∨ .returned (.flush t) o ∈ past ++ new := by
  have hold : (t, o) ∈ q.answers → q.worker = .dead ∨ .returned (.flush t) o ∈ past ++ new := fun hmem =>
    (h.answer o hmem).imp_right (List.mem_append_left new)
  cases hc with
  | enter hi =>
    dsimp only at ho
    split at ho
    · exact hold ho
    · rename_i hline
      rcases List.mem_cons.mp ho with heq | ho
      · -- a caller under this ticket waits for the flush itself, and has no answer as it gets in
        cases heq
        have hflush := h.caller _ (List.mem_of_getElem? hi) rfl
        exact absurd (congrArg Command.isFlush hflush) hline
      · exact hold ho
  | @finish c o' hworker =>
    have hlive : q.worker ≠ .dead := by simp [hworker]
    rcases List.mem_append.mp ho with ho | ho
    · cases c with
      | flush t' =>
        cases List.mem_singleton.mp ho
        exact .inr (List.mem_append_right _ List.mem_cons_self)
      | record | raw => cases ho
    · exact .inr ((hold ho).resolve_left hlive)
  | die => exact .inl rfl
  | take hidle | leave o' hidle => exact .inr ((hold ho).resolve_left (by simp [hidle]))
  | _ => exact hold ho

theorem Awaits.change (h : Awaits t past q) (hc : Change q new q') : Awaits t (past ++ new) q' where
  given := by
    have hgiven := h.given
    cases hc with
    | wait | waitFlush | queueFlush => exact Nat.lt_succ_of_lt hgiven
    | _ => exact hgiven
  caller := h.caller_change hc
  answer := h.answer_change hc

/-- Asking for a flush takes a ticket under which nothing has been answered. -/
theorem Ticketed.awaits (h : Ticketed past q) (hlive : q.isGone = false) (new : List Mark) :
    Awaits q.nextTicket new q.askFlush.2 := by
  have hanswer : ∀ o, (q.nextTicket, o) ∈ q.answers →
      q.worker = .dead ∨ .returned (.flush q.nextTicket) o ∈ new :=
    fun o ho => absurd (h.answered _ ho) (Nat.lt_irrefl _)
  have hcaller : ∀ w ∈ q.waiting, w.1 ≠ q.nextTicket := fun w hw => Nat.ne_of_lt (h.callers w hw).1
  unfold askFlush
  rw [hlive, if_neg Bool.false_ne_true]
  dsimp only
  split
  · refine ⟨Nat.lt_succ_self _, fun w hw hticket => ?_, hanswer⟩
    rcases List.mem_append.mp hw with hw | hw
    · exact absurd hticket (hcaller w hw)
    · cases List.mem_singleton.mp hw
      rfl
  · exact ⟨Nat.lt_succ_self _, fun w hw hticket => absurd hticket (hcaller w hw), hanswer⟩

end

/-! ### Delivery in order -/

/-- How a flush ends that nobody answers in time. -/
def lateFlush (a : Adapter) : Outcome :=
  .failed (.other (if a.queue.isFull then
    s!"async sink '{a.queue.settings.name}' flush not accepted within " ++ standardTimeout.text
  else s!"async sink '{a.queue.settings.name}' flush timed out after " ++ standardTimeout.text))

section

variable {a : Adapter} {pace : Adapter → Plant → Adapter × Plant} {p : Plant}

theorem askFlush_of_live {q : Queue} (hlive : q.isGone = false) : q.askFlush.1 = .waits q.nextTicket := by
  unfold askFlush
  rw [hlive, if_neg Bool.false_ne_true]
  dsimp only
  split <;> rfl

theorem flush_of_answer (hopen : a.queue.isOpen = true) (hlive : a.queue.isGone = false) {o : Outcome}
    (hanswer : (pace (a.step .askFlush) p).1.queue.answer? a.queue.nextTicket = some o) :
    a.flush pace p = (o, pace (a.step .askFlush) p) := by
  have hstep : a.step .askFlush = { a with queue := a.queue.askFlush.2 } := if_pos hopen
  rw [hstep] at hanswer ⊢
  unfold flush
  rw [if_pos hopen]
  dsimp only
  rw [askFlush_of_live hlive]
  dsimp only
  rw [hanswer]

theorem flush_of_late (hopen : a.queue.isOpen = true) (hlive : a.queue.isGone = false)
    (hanswer : (pace (a.step .askFlush) p).1.queue.answer? a.queue.nextTicket = none) :
    (a.flush pace p).1 = a.lateFlush := by
  have hstep : a.step .askFlush = { a with queue := a.queue.askFlush.2 } := if_pos hopen
  rw [hstep] at hanswer
  unfold flush lateFlush
  rw [if_pos hopen]
  dsimp only
  rw [askFlush_of_live hlive]
  dsimp only
  rw [hanswer]
  dsimp only
  split <;> rfl

end

theorem settings_change {q q' : Queue} {new : List Mark} (hc : Change q new q') : q'.settings = q.settings := by
  cases hc <;> rfl

theorem settings_run (a : Adapter) (events : List Event) : (a.run events).queue.settings = a.queue.settings :=
  run_keeps (P := fun _ q => q.settings = a.queue.settings) (fun hc h => (settings_change hc).trans h) a events
    [] rfl

theorem ticketed_run (settings : QueueSettings) (formatter : FormatterId) (inner : SinkId) (events : List Event) :
    Ticketed ((start settings formatter inner).trace events) ((start settings formatter inner).run events).queue :=
  run_keeps (P := Ticketed) (fun hc h => h.change hc) _ events [] (ticketed_ofSettings settings)

/- An answer to a flush that was asked for is what the flush came to. -/
theorem Ticketed.returned_of_answer {past : List Mark} {a : Adapter} (h : Ticketed past a.queue)
    (hopen : a.queue.isOpen = true) (hlive : a.queue.isGone = false) {during : List Event} {o : Outcome}
    (hend : (a.run (.askFlush :: during)).queue.worker ≠ .dead)
    (hanswer : (a.run (.askFlush :: during)).queue.answer? a.queue.nextTicket = some o) :
    .returned (.flush a.queue.nextTicket) o ∈ a.trace (.askFlush :: during) := by
  have hstep : (a.step .askFlush).queue = a.queue.askFlush.2 := congrArg Adapter.queue (if_pos hopen)
  have hawaits : Awaits a.queue.nextTicket (a.trace (.askFlush :: during)) (a.run (.askFlush :: during)).queue := by
    refine run_keeps (P := Awaits a.queue.nextTicket) (fun hc h => h.change hc) (a.step .askFlush) during
      (a.marks .askFlush) ?_
    rw [hstep]
    exact h.awaits hlive _
  obtain ⟨earlier, rest, hanswers, -⟩ := List.lookup_eq_some_iff.mp hanswer
  exact (hawaits.answer o (by simp [hanswers])).resolve_left hend

theorem eq_of_count_le_one {c : Command} {front behind front' behind' : List Command}
    (h : front ++ c :: behind = front' ++ c :: behind') (hone : (front' ++ c :: behind').count c ≤ 1) :
    front = front' := by
  have habsent : ∀ {xs ys : List Command}, (xs ++ c :: ys).count c ≤ 1 → c ∉ xs := by
    intro xs ys hcount
    rw [List.count_append, List.count_cons_self] at hcount
    exact List.count_eq_zero.mp (by omega)
  have hindex := congrArg (List.idxOf c) h
  rw [List.idxOf_append_of_notMem (habsent (h ▸ hone)), List.idxOf_append_of_notMem (habsent hone),
    List.idxOf_cons_self, List.idxOf_cons_self] at hindex
  exact (List.append_inj h (by omega)).1

theorem prefix_of_fresh {past new before behind : List Mark} {m : Mark} (h : past ++ new = before ++ m :: behind)
    (hm : m ∉ past) : past <+: before := by
  rcases List.append_eq_append_iff.mp h with ⟨rest, hbefore, _⟩ | ⟨rest, hpast, hrest⟩
  · exact ⟨rest, hbefore.symm⟩
  · cases rest with
    | nil =>
      rw [List.append_nil] at hpast
      exact hpast ▸ List.prefix_rfl
    | cons m' rest =>
      rw [hpast, ← (List.cons.inj hrest).1] at hm
      exact absurd (List.mem_append_right _ List.mem_cons_self) hm

/-- What came back before a flush did is what was sent before the flush. -/
theorem Ticketed.returned_before {past : List Mark} {q : Queue} (h : Ticketed past q) {t : Nat} {o : Outcome}
    (hmem : .returned (.flush t) o ∈ past) :
    ∃ before behind earlier later, past = before ++ .sent (.flush t) :: behind ∧
      past = earlier ++ .returned (.flush t) o :: later ∧ returned earlier = sent before := by
  have hsent : .sent (.flush t) ∈ past := mem_sent_iff.mp (h.mem_sent (h.mem_taken_of_returned hmem))
  obtain ⟨before, behind, hbefore⟩ := List.append_of_mem hsent
  obtain ⟨earlier, later, hearlier⟩ := List.append_of_mem hmem
  have hsplit : sent past = sent before ++ .flush t :: sent behind := by simp [hbefore]
  have hcalls : returned past = returned earlier ++ .flush t :: returned later := by simp [hearlier]
  have hone : (sent past).count (.flush t) ≤ 1 := Nat.le_of_add_right_le (h.single t)
  have horder := h.order
  rw [h.calls, hcalls, hsplit] at horder
  rw [hsplit] at hone
  simp only [List.append_assoc, List.cons_append] at horder
  exact ⟨before, behind, earlier, later, hbefore, hearlier, eq_of_count_le_one horder hone⟩

end Logbook.Adapter
