import Logbook.Proofs.Bench
import Logbook.Proofs.InOrder
import Mathlib.Data.List.Forall2

/-!
# Commands are handed over in order

A host can take notes of the calls that are made of it, and nobody notices. The notes say what the worker has handed
over: what it has taken, in order and once each, and after the last of it the flush with which it ends. So whatever
the inner sink is and whoever else is at it, it is asked for what was sent, in the order of sending.
-/

namespace Logbook

/- What the inner sink is asked for. -/
inductive Task where
  | log (s : Snapshot)
  | write (bs : Bytes)
  | flush
  deriving DecidableEq

namespace Task

def command? : Task → Option Command
  | log s => some (.record s)
  | write bs => some (.raw bs)
  | flush => none

end Task

def Command.task : Command → Task
  | .record s => .log s
  | .raw bs => .write bs
  | .flush _ => .flush

/-- A call, and what it came to unless it was held up. -/
abbrev Note := Task × Option Outcome

namespace Note

/- What is known of a call fits the note about it. A flush is never held up. -/
def Agrees (n known : Note) : Prop := n.1 = known.1 ∧ (n.2 = known.2 ∨ n.2 = none ∧ n.1 ≠ .flush)

theorem agrees_refl (n : Note) : n.Agrees n := ⟨rfl, .inl rfl⟩

theorem eq_of_agrees_flush {n : Note} {o : Option Outcome} (h : n.Agrees (.flush, o)) : n = (.flush, o) :=
  Prod.ext h.1 (h.2.resolve_right fun hheld => hheld.2 h.1)

theorem map_of_agrees {notes known : List Note} (h : List.Forall₂ Agrees notes known) :
    notes.map (·.1) = known.map (·.1) := by
  induction h with
  | nil => rfl
  | cons hn _ ih => exact congrArg₂ List.cons hn.1 ih

end Note

/- The records and lines that were handed over. -/
def handed (notes : List Note) : List Command := (notes.map (·.1)).filterMap Task.command?

/-! ### A host that takes notes -/

namespace Host

variable {σ : Type} (h : Host σ)

def noting : Host (σ × List Note) where
  log s x := ((h.log s x.1).1, (h.log s x.1).2, x.2 ++ [(.log s, (h.log s x.1).1)])
  write bs x := ((h.write bs x.1).1, (h.write bs x.1).2, x.2 ++ [(.write bs, (h.write bs x.1).1)])
  flush x := ((h.flush x.1).1, (h.flush x.1).2, x.2 ++ [(.flush, some (h.flush x.1).1)])
  release s x := (h.release s x.1, x.2)
  report n x := (h.report n x.1, x.2)

theorem perform_noting (c : Command) (s : σ) (notes : List Note) :
    h.noting.perform c (s, notes) =
      ((h.perform c s).1, (h.perform c s).2, notes ++ [(c.task, (h.perform c s).1)]) := by
  cases c <;> rfl

theorem flush_noting (s : σ) (notes : List Note) :
    h.noting.flush (s, notes) = ((h.flush s).1, (h.flush s).2, notes ++ [(.flush, some (h.flush s).1)]) := rfl

theorem reportAll_noting (notices : List Notice) (s : σ) (notes : List Note) :
    h.noting.reportAll notices (s, notes) = (h.reportAll notices s, notes) := by
  unfold reportAll
  induction notices generalizing s with
  | nil => rfl
  | cons n rest ih => exact ih (h.report n s)

theorem discard_noting (cs : List Command) (s : σ) (notes : List Note) :
    h.noting.discard cs (s, notes) = (h.discard cs s, notes) := by
  unfold discard
  induction cs.filterMap (·.snapshot?) generalizing s with
  | nil => rfl
  | cons x rest ih => exact ih (h.release x s)

theorem settle_noting (c : Command) (o : Outcome) (q : Queue) (s : σ) (notes : List Note) :
    h.noting.settle c o q (s, notes) = ((h.settle c o q s).1, (h.settle c o q s).2, notes) := by
  unfold settle clearOut
  simp only [reportAll_noting, discard_noting]

end Host

namespace Bench

variable {σ : Type}

def Step.noting : Step σ → Step (σ × List Note)
  | .others e he f => .others e he fun x => (f x.1, x.2)
  | .take => .take
  | .finish o => .finish o
  | .leave => .leave

def noting (b : Bench σ) (notes : List Note) : Bench (σ × List Note) := ⟨b.adapter, (b.site, notes), b.due⟩

/- What a host that takes notes has put down in a run. -/
def noted (h : Host σ) (b : Bench σ) (steps : List (Step σ)) : List Note :=
  ((b.noting []).run h.noting (steps.map Step.noting)).site.2

/- The call of one step. -/
def call (h : Host σ) (b : Bench σ) : Step σ → List Note
  | .take =>
    match b.adapter.queue.pull with
    | some (c, _) => [(c.task, (h.perform c b.site).1)]
    | none => []
  | .leave => if b.adapter.queue.canLeave then [(.flush, some (h.flush b.site).1)] else []
  | _ => []

def calls (h : Host σ) (b : Bench σ) : List (Step σ) → List Note
  | [] => []
  | x :: rest => b.call h x ++ (b.step h x).calls h rest

theorem step_noting (h : Host σ) (b : Bench σ) (notes : List Note) (x : Step σ) :
    (b.noting notes).step h.noting x.noting = (b.step h x).noting (notes ++ b.call h x) := by
  cases x with
  | others e he f => simp [step, Step.noting, noting, call]
  | take =>
    simp only [step, Step.noting, noting, call]
    cases b.adapter.queue.pull with
    | none => simp
    | some taken => simp [Host.perform_noting]
  | finish o =>
    simp only [step, Step.noting, noting, call]
    cases b.adapter.queue.worker with
    | busy c => simp [Host.settle_noting]
    | idle | finished | dead => simp
  | leave =>
    by_cases hleave : b.adapter.queue.canLeave = true
    · simp [step, Step.noting, noting, call, hleave, Host.flush_noting, Host.reportAll_noting]
    · simp [step, Step.noting, noting, call, hleave]

/- The run is the same, and the notes are its calls. -/
theorem run_noting (h : Host σ) (b : Bench σ) (notes : List Note) (steps : List (Step σ)) :
    (b.noting notes).run h.noting (steps.map Step.noting) = (b.run h steps).noting (notes ++ b.calls h steps) := by
  induction steps generalizing b notes with
  | nil =>
    rw [calls, List.append_nil]
    rfl
  | cons x rest ih =>
    have hrest := ih (b.step h x) (notes ++ b.call h x)
    rw [← step_noting, List.append_assoc] at hrest
    exact hrest

theorem noted_eq (h : Host σ) (b : Bench σ) (steps : List (Step σ)) : b.noted h steps = b.calls h steps := by
  unfold noted
  rw [run_noting]
  rfl

end Bench

/-! ### What the notes say -/

namespace Adapter

open Queue

/- The records and lines among commands. -/
def lines (cs : List Command) : List Command := cs.filter (!·.isFlush)

theorem lines_append (cs ds : List Command) : lines (cs ++ ds) = lines cs ++ lines ds := List.filter_append cs ds

theorem command?_task (cs : List Command) : (cs.map Command.task).filterMap Task.command? = lines cs := by
  induction cs with
  | nil => rfl
  | cons c rest ih =>
    cases c with
    | record s => exact congrArg (Command.record s :: ·) ih
    | raw bs => exact congrArg (Command.raw bs :: ·) ih
    | flush t => exact ih

namespace Mark

/- What is known of the call that a mark is about, when it has come back. -/
@[simp] def answer? : Mark → Option Note
  | returned c o => some (c.task, some o)
  | _ => none

@[simp] def last? : Mark → Option Note
  | left o => some (.flush, some o)
  | _ => none

/- Not the worker's. -/
def isQuiet : Mark → Bool
  | taken _ | returned _ _ | left _ => false
  | _ => true

end Mark

theorem quiet_offerMarks (a : Adapter) (c : Command) (p : Plant) : ∀ m ∈ a.offerMarks c p, m.isQuiet = true := by
  unfold offerMarks
  intro m hm
  split at hm
  · simp only [List.cons_append, List.mem_cons, List.mem_append] at hm
    rcases hm with rfl | hm | hm
    · rfl
    · split at hm
      · rw [List.mem_singleton.mp hm]
        rfl
      · cases hm
    · cases hoffer : (a.queue.offer c).1 with
      | waits ticket =>
        rw [hoffer] at hm
        cases hm
      | accepted | preserved | dropped | refused =>
        rw [hoffer] at hm
        rw [List.mem_singleton.mp hm]
        rfl
  · cases hm

theorem quiet_marks (a : Adapter) {e : Event} (he : e.isWorkers = false) : ∀ m ∈ a.marks e, m.isQuiet = true := by
  intro m hm
  cases e with
  | log s p =>
    simp only [marks] at hm
    split at hm
    · exact a.quiet_offerMarks _ _ m hm
    · cases hm
  | write bs p => exact a.quiet_offerMarks _ _ m hm
  | askFlush =>
    simp only [marks] at hm
    split at hm
    · rw [List.mem_singleton.mp hm]
      rfl
    · cases hm
  | enter i =>
    simp only [marks] at hm
    split at hm
    · split at hm
      · cases hm
      · rw [List.mem_singleton.mp hm]
        rfl
    · cases hm
  | giveUp i =>
    simp only [marks] at hm
    split at hm
    · split at hm
      · rw [List.mem_singleton.mp hm]
        rfl
      · cases hm
    · cases hm
  | close =>
    obtain ⟨c, -, rfl⟩ := List.mem_map.mp hm
    rfl
  | join | setLevel => cases hm
  | take | finish | leave => cases he

section

variable {past new : List Mark} {q q' : Queue}

theorem worker_change (hc : Change q new q') (hquiet : ∀ m ∈ new, m.isQuiet = true) : q'.worker = q.worker := by
  cases hc with
  | take | finish | die | leave => cases hquiet _ List.mem_cons_self
  | _ => rfl

theorem answer?_of_quiet (m : Mark) (hm : m.isQuiet = true) : m.answer? = none := by
  cases m <;> first | rfl | cases hm

theorem last?_of_quiet (m : Mark) (hm : m.isQuiet = true) : m.last? = none := by
  cases m <;> first | rfl | cases hm

theorem filterMap_quiet {f : Mark → Option Note} (hf : ∀ m, m.isQuiet = true → f m = none)
    (hquiet : ∀ m ∈ new, m.isQuiet = true) : (past ++ new).filterMap f = past.filterMap f := by
  have hnone : new.filterMap f = [] := List.filterMap_eq_nil_iff.mpr fun m hm => hf m (hquiet m hm)
  rw [List.filterMap_append, hnone, List.append_nil]

/- The call that the worker is in has come back. -/
theorem finish_spec {a : Adapter} {c : Command} (hworker : a.queue.worker = .busy c) (o : Outcome) :
    (∃ rest, a.marks (.finish o) = .returned c o :: rest ∧ ∀ m ∈ rest, m.isQuiet = true) ∧
      ((a.step (.finish o)).queue.worker = .idle ∨ (a.step (.finish o)).queue.worker = .dead) := by
  have hclear : ∀ q : Queue, q.clearOut.2.worker = q.worker := by
    intro q
    unfold clearOut
    split <;> rfl
  constructor
  · simp only [marks, hworker]
    refine ⟨_, rfl, fun m hm => ?_⟩
    rcases List.mem_append.mp hm with hm | hm
    · obtain ⟨_, -, rfl⟩ := List.mem_map.mp hm
      rfl
    · obtain ⟨_, -, rfl⟩ := List.mem_map.mp hm
      rfl
  · simp only [step, hworker, hclear]
    cases hends : c.endsWorker o with
    | true =>
      rw [settle_of_ends a.queue hends]
      exact .inr rfl
    | false =>
      rw [settle_of_lives a.queue hends]
      exact .inl rfl

end

end Adapter

theorem forall₂_append_right {α β : Type} {R : α → β → Prop} {l : List α} {front back : List β}
    (h : List.Forall₂ R l (front ++ back)) :
    ∃ l₁ l₂, l = l₁ ++ l₂ ∧ List.Forall₂ R l₁ front ∧ List.Forall₂ R l₂ back :=
  ⟨_, _, (List.take_append_drop front.length l).symm, List.forall₂_take_append l front back h,
    List.forall₂_drop_append l front back h⟩

namespace Bench

open Adapter Queue

variable {σ : Type}

/- What is known of the calls so far: those that came back, the one under way, and the flush at the end. -/
def known (past : List Mark) (b : Bench σ) : List Note :=
  past.filterMap Mark.answer? ++ (inHand b.adapter.queue).map (fun c => (c.task, b.due)) ++ past.filterMap Mark.last?

structure Noted (past : List Mark) (b : Bench σ) (notes : List Note) : Prop where
  agrees : List.Forall₂ Note.Agrees notes (known past b)
  prompt : ∀ t, b.adapter.queue.worker = .busy (.flush t) → b.due ≠ none
  live : b.adapter.queue.isGone = false → past.filterMap Mark.last? = []
  finished : b.adapter.queue.worker = .finished → ∃ o, past.filterMap Mark.last? = [(.flush, some o)]

variable {past : List Mark} {b : Bench σ} {notes : List Note}

theorem Noted.others (hn : Noted past b notes) {e : Event} (he : e.isWorkers = false) (f : σ → σ) :
    Noted (past ++ b.adapter.marks e) ⟨b.adapter.step e, f b.site, b.due⟩ notes := by
  have hquiet := b.adapter.quiet_marks he
  have hworker : (b.adapter.step e).queue.worker = b.adapter.queue.worker :=
    worker_change (b.adapter.change_step e) hquiet
  have hanswers : (past ++ b.adapter.marks e).filterMap Mark.answer? = past.filterMap Mark.answer? :=
    filterMap_quiet answer?_of_quiet hquiet
  have hlasts : (past ++ b.adapter.marks e).filterMap Mark.last? = past.filterMap Mark.last? :=
    filterMap_quiet last?_of_quiet hquiet
  constructor
  case agrees =>
    have hsame := hn.agrees
    simp only [known, inHand, hanswers, hlasts, hworker] at hsame ⊢
    exact hsame
  case prompt =>
    intro t ht
    exact hn.prompt t (hworker ▸ ht)
  case live =>
    intro hlive
    rw [hlasts]
    exact hn.live (by simpa [isGone, hworker] using hlive)
  case finished =>
    intro hfinished
    rw [hlasts]
    exact hn.finished (hworker ▸ hfinished)

theorem Noted.still (hn : Noted past b notes) : Noted (past ++ []) b (notes ++ []) := by
  rw [List.append_nil, List.append_nil]
  exact hn

theorem Noted.take (hn : Noted past b notes) (h : Host σ) :
    Noted (past ++ b.adapter.marks .take) (b.step h .take) (notes ++ b.call h .take) := by
  simp only [marks, step, call, Adapter.step]
  rcases pull_cases b.adapter.queue with hnone | ⟨c, rest, hidle, hnext, hsome⟩
  · rw [hnone]
    exact hn.still
  · rw [hsome]
    have hlast := hn.live (by simp [isGone, hidle])
    have hold := hn.agrees
    simp only [known, inHand, hidle, hlast, List.map_nil, List.append_nil] at hold
    constructor
    case agrees =>
      have hnew := List.rel_append hold (.cons (Note.agrees_refl (c.task, (h.perform c b.site).1)) .nil)
      simpa [known, inHand, hlast, List.filterMap_cons] using hnew
    case prompt =>
      intro t ht
      cases ht
      exact Option.some_ne_none _
    case live => exact fun _ => by simp [hlast, List.filterMap_cons]
    case finished => exact fun hfinished => by cases hfinished

/- The last note is about the command in hand, and what was due is what it came to. -/
theorem Noted.answered (hn : Noted past b notes) {c : Command} (hworker : b.adapter.queue.worker = .busy c)
    (o : Outcome) :
    List.Forall₂ Note.Agrees notes (past.filterMap Mark.answer? ++ [(c.task, some (b.due.getD o))]) := by
  have hlast := hn.live (by simp [isGone, hworker])
  have hold := hn.agrees
  simp only [known, inHand, hworker, hlast, List.map_cons, List.map_nil, List.append_nil] at hold
  obtain ⟨front, back, rfl, hfront, hback⟩ := forall₂_append_right hold
  obtain ⟨⟨task, outcome⟩, rest, ⟨rfl, houtcome⟩, hrest, rfl⟩ := List.forall₂_cons_right_iff.mp hback
  rw [List.forall₂_nil_right_iff.mp hrest]
  refine List.rel_append hfront (.cons ⟨rfl, ?_⟩ .nil)
  cases hdue : b.due with
  | some x => simpa [hdue] using houtcome
  | none =>
    rw [hdue] at houtcome
    refine .inr ⟨houtcome.elim id And.left, ?_⟩
    cases c with
    | flush t => exact absurd hdue (hn.prompt t hworker)
    | record | raw => exact Task.noConfusion

theorem Noted.finish (hn : Noted past b notes) (h : Host σ) (o : Outcome) :
    Noted (past ++ b.adapter.marks (.finish (b.due.getD o))) (b.step h (.finish o)) notes := by
  cases hworker : b.adapter.queue.worker with
  | idle | finished | dead =>
    simp only [marks, step, hworker, List.append_nil]
    exact hn
  | busy c =>
    have hlast := hn.live (by simp [isGone, hworker])
    obtain ⟨⟨rest, hmarks, hquiet⟩, hafter⟩ := finish_spec hworker (b.due.getD o)
    have hsplit : past ++ b.adapter.marks (.finish (b.due.getD o)) =
        past ++ [.returned c (b.due.getD o)] ++ rest := by simp [hmarks]
    have hanswers : (past ++ [Mark.returned c (b.due.getD o)] ++ rest).filterMap Mark.answer? =
        past.filterMap Mark.answer? ++ [(c.task, some (b.due.getD o))] := by
      rw [filterMap_quiet answer?_of_quiet hquiet, List.filterMap_append]
      rfl
    have hlasts : (past ++ [Mark.returned c (b.due.getD o)] ++ rest).filterMap Mark.last? = [] := by
      rw [filterMap_quiet last?_of_quiet hquiet, List.filterMap_append, hlast]
      rfl
    have hhand : inHand (b.adapter.step (.finish (b.due.getD o))).queue = [] := by
      rcases hafter with hidle | hdead
      · simp [inHand, hidle]
      · simp [inHand, hdead]
    simp only [step, hworker, hsplit]
    constructor
    case agrees =>
      simp only [known, hhand, hanswers, hlasts, List.map_nil, List.append_nil]
      exact hn.answered hworker o
    case prompt =>
      intro t ht
      rw [ht] at hafter
      simp at hafter
    case live => exact fun _ => hlasts
    case finished =>
      intro hfinished
      rw [hfinished] at hafter
      simp at hafter

theorem Noted.leave (hn : Noted past b notes) (h : Host σ) :
    Noted (past ++ b.adapter.marks (.leave (h.flush b.site).1)) (b.step h .leave) (notes ++ b.call h .leave) := by
  by_cases hleave : b.adapter.queue.canLeave = true
  · have hidle := idle_of_canLeave hleave
    have hlast := hn.live (by simp [isGone, hidle])
    have hold := hn.agrees
    simp only [known, inHand, hidle, hlast, List.map_nil, List.append_nil] at hold
    have hnew := List.rel_append hold (.cons (Note.agrees_refl (.flush, some (h.flush b.site).1)) .nil)
    simp only [marks, step, call, Adapter.step, hleave, if_true, Queue.leave]
    constructor
    case agrees =>
      cases hflush : (h.flush b.site).1 <;> rw [hflush] at hnew <;>
        simpa [known, inHand, hlast, List.filterMap_cons] using hnew
    case prompt =>
      intro t ht
      cases hflush : (h.flush b.site).1 <;> rw [hflush] at ht <;> cases ht
    case live =>
      intro hlive
      cases hflush : (h.flush b.site).1 <;> rw [hflush] at hlive <;> cases hlive
    case finished => exact fun _ => ⟨(h.flush b.site).1, by simp [hlast]⟩
  · simp only [marks, step, call, hleave]
    exact hn.still

theorem Noted.step (hn : Noted past b notes) (h : Host σ) (x : Step σ) :
    Noted (past ++ b.adapter.marks (b.event h x)) (b.step h x) (notes ++ b.call h x) := by
  cases x with
  | others e he f =>
    simp only [call, List.append_nil]
    exact hn.others he f
  | take => exact hn.take h
  | finish o =>
    simp only [call, List.append_nil]
    exact hn.finish h o
  | leave => exact hn.leave h

theorem Noted.run (hn : Noted past b notes) (h : Host σ) (steps : List (Step σ)) :
    Noted (past ++ b.trace h steps) (b.run h steps) (notes ++ b.calls h steps) := by
  induction steps generalizing past b notes with
  | nil => exact hn.still
  | cons x rest ih =>
    have hrest := ih (hn.step h x)
    have htrace : b.trace h (x :: rest) = b.adapter.marks (b.event h x) ++ (b.step h x).trace h rest := by
      rw [trace, trace, adapter_step]
      rfl
    rw [List.append_assoc, List.append_assoc, ← htrace] at hrest
    exact hrest

theorem map_answers (past : List Mark) :
    (past.filterMap Mark.answer?).map (·.1) = (returned past).map Command.task := by
  unfold returned commands
  rw [List.map_filterMap, List.map_filterMap]
  refine congrArg (List.filterMap · past) (funext fun m => ?_)
  cases m <;> rfl

/- The notes are about what was taken, in order and once each, and then about the flush at the end. -/
theorem Noted.tasks (hn : Noted past b notes) (hf : Fits past b.adapter.queue) :
    notes.map (·.1) = (taken past).map Command.task ++ (past.filterMap Mark.last?).map (·.1) := by
  rw [Note.map_of_agrees hn.agrees, known, List.map_append, List.map_append, map_answers, hf.calls, List.map_append,
    List.map_map]
  rfl

theorem Noted.handed_eq (hn : Noted past b notes) (hf : Fits past b.adapter.queue) :
    handed notes = lines (taken past) := by
  have hlast : ((past.filterMap Mark.last?).map (·.1)).filterMap Task.command? = [] := by
    refine List.filterMap_eq_nil_iff.mpr fun task htask => ?_
    obtain ⟨n, hn, rfl⟩ := List.mem_map.mp htask
    obtain ⟨m, -, hm⟩ := List.mem_filterMap.mp hn
    cases m with
    | left o =>
      cases hm
      rfl
    | _ => cases hm
  rw [handed, hn.tasks hf, List.filterMap_append, hlast, List.append_nil, command?_task]

/- What was noted before a flush that came back. -/
theorem Noted.split (hn : Noted past b notes) {before behind : List Mark} {t : Nat} {o : Outcome}
    (hpast : past = before ++ .returned (.flush t) o :: behind) :
    ∃ front rest, notes = front ++ (.flush, some o) :: rest ∧ front.map (·.1) = (returned before).map Command.task := by
  have hagrees := hn.agrees
  rw [known, hpast, List.filterMap_append, List.append_assoc, List.append_assoc] at hagrees
  obtain ⟨front, back, rfl, hfront, hback⟩ := forall₂_append_right hagrees
  obtain ⟨n, rest, hnote, -, rfl⟩ := List.forall₂_cons_right_iff.mp hback
  rw [Note.eq_of_agrees_flush hnote]
  exact ⟨front, rest, rfl, (Note.map_of_agrees hfront).trans (map_answers before)⟩

theorem Noted.last (hn : Noted past b notes) (hfinished : b.adapter.queue.worker = .finished) :
    ∃ front o, notes = front ++ [(.flush, some o)] ∧ front.map (·.1) = (returned past).map Command.task := by
  obtain ⟨o, hlast⟩ := hn.finished hfinished
  have hagrees := hn.agrees
  simp only [known, inHand, hfinished, hlast, List.map_nil, List.append_nil] at hagrees
  obtain ⟨front, back, rfl, hfront, hback⟩ := forall₂_append_right hagrees
  obtain ⟨n, rest, hnote, hrest, rfl⟩ := List.forall₂_cons_right_iff.mp hback
  rw [List.forall₂_nil_right_iff.mp hrest, Note.eq_of_agrees_flush hnote]
  exact ⟨front, o, rfl, (Note.map_of_agrees hfront).trans (map_answers past)⟩

theorem noted_run (settings : QueueSettings) (formatter : FormatterId) (inner : SinkId) (h : Host σ) (site : σ)
    (steps : List (Step σ)) :
    let first := (start settings formatter inner).bench site
    Noted (first.trace h steps) (first.run h steps) (first.noted h steps) := by
  intro first
  have hstart : Noted [] first [] := by
    constructor
    case agrees => exact .nil
    case prompt => exact fun t ht => by cases ht
    case live => exact fun _ => rfl
    case finished => exact fun hfinished => by cases hfinished
  rw [noted_eq]
  exact hstart.run h steps

/- A worker that lives, or that has ended as it should, has flushed at its end and not before. -/
theorem Noted.tasks_of_live (hn : Noted past b notes) (hf : Fits past b.adapter.queue)
    (hlive : b.adapter.queue.worker ≠ .dead) :
    notes.map (·.1) =
      (taken past).map Command.task ++ if b.adapter.queue.isGone then [.flush] else [] := by
  rw [hn.tasks hf]
  cases hgone : b.adapter.queue.isGone with
  | false => rw [hn.live hgone, List.map_nil, if_neg Bool.false_ne_true]
  | true =>
    obtain ⟨o, hlast⟩ := hn.finished (finished_of_gone hgone hlive)
    rw [hlast]
    rfl

theorem ticketed_run (settings : QueueSettings) (formatter : FormatterId) (inner : SinkId) (h : Host σ) (site : σ)
    (steps : List (Step σ)) :
    let first := (start settings formatter inner).bench site
    Ticketed (first.trace h steps) (first.run h steps).adapter.queue := by
  intro first
  rw [adapter_run]
  exact Adapter.ticketed_run settings formatter inner (first.events h steps)

theorem trace_append (h : Host σ) (b : Bench σ) (before behind : List (Step σ)) :
    b.trace h (before ++ behind) = b.trace h before ++ (b.run h before).trace h behind := by
  rw [trace, events_append, Adapter.trace_append, trace, trace, adapter_run]

end Bench

namespace Adapter

/- However the worker came to these events, its host was called with what was taken. -/
def HandsOver (a : Adapter) (events : List Event) : Prop :=
  ∀ {σ : Type} (h : Host σ) (site : σ) (steps : List (Bench.Step σ)), (a.bench site).events h steps = events →
    handed ((a.bench site).noted h steps) = lines (taken (a.trace events))

theorem handsOver (settings : QueueSettings) (formatter : FormatterId) (inner : SinkId) (events : List Event) :
    (start settings formatter inner).HandsOver events := by
  rintro σ h site steps rfl
  exact (Bench.noted_run settings formatter inner h site steps).handed_eq
    (Bench.ticketed_run settings formatter inner h site steps).toFits

/-- Whatever the host is that the worker calls, and whoever else is at it: what was sent is handed over once each and in
the order of sending, the queue stays within its limit, and a flush that is answered has been made behind everything
that was sent before it. `pace` is whatever goes on while the caller of the flush waits. The steps are those that an
adapter makes on a plant. -/
theorem delivers_in_order (settings : QueueSettings) (formatter : FormatterId) (inner : SinkId) {σ : Type} (h : Host σ)
    (site : σ) (steps : List (Bench.Step σ))
    (hcalm : ∀ m ∈ ((start settings formatter inner).bench site).trace h steps, m.kills = false) :
    let first := (start settings formatter inner).bench site
    let a := (first.run h steps).adapter
    let past := first.trace h steps
    let notes := first.noted h steps
    handed notes ++ lines a.queue.pending = lines (sent past) ∧
      taken past ++ a.queue.pending = sent past ∧
      notes.map (·.1) = (taken past).map Command.task ++ (if a.queue.isGone then [.flush] else []) ∧
      a.queue.pending.length ≤ max 1 settings.capacity ∧
      a.Operates ∧
      ∀ later : List (Bench.Step σ), a.queue.isOpen = true →
        let all := steps ++ .others .askFlush rfl id :: later
        let b := (first.run h all).adapter
        (∀ m ∈ first.trace h all, m.kills = false) →
        ∀ pace p p', pace (a.step .askFlush) p = (b, p') →
          let t := a.queue.nextTicket
          (b.queue.answer? t = none ∧ (a.flush pace p).1 = a.lateFlush) ∨
          ∃ o before behind front rest, a.flush pace p = (o, b, p') ∧
            first.trace h all = before ++ .sent (.flush t) :: behind ∧ past <+: before ∧
            first.noted h all = front ++ (.flush, some o) :: rest ∧
            front.map (·.1) = (sent before).map Command.task := by
  intro first a past notes
  have hpast : Ticketed past a.queue := Bench.ticketed_run settings formatter inner h site steps
  have hnotes : Bench.Noted past (first.run h steps) notes := Bench.noted_run settings formatter inner h site steps
  have horder : taken past ++ a.queue.pending = sent past := hpast.order_of_calm hcalm
  refine ⟨?_, horder, hnotes.tasks_of_live hpast.toFits (hpast.not_dead hcalm), ?_, a.operates, ?_⟩
  · rw [hnotes.handed_eq hpast.toFits, ← lines_append, horder]
  · have hsettings : a.queue.settings = settings := by
      rw [show a = _ from Bench.adapter_run h first steps]
      exact settings_run _ _
    have hroom := hpast.room
    rw [hsettings] at hroom
    exact hroom
  · intro later hopen all b hcalm' pace p p' hpace t
    have hlive : a.queue.isGone = false := hpast.live hopen hcalm
    have hall : Ticketed (first.trace h all) b.queue := Bench.ticketed_run settings formatter inner h site all
    have hnoted : Bench.Noted (first.trace h all) (first.run h all) (first.noted h all) :=
      Bench.noted_run settings formatter inner h site all
    cases hanswer : b.queue.answer? t with
    | none =>
      refine .inl ⟨rfl, flush_of_late hopen hlive ?_⟩
      rw [hpace]
      exact hanswer
    | some o =>
      have hflush : a.flush pace p = (o, b, p') := by
        rw [← hpace]
        refine flush_of_answer hopen hlive ?_
        rw [hpace]
        exact hanswer
      have hdead := hall.not_dead hcalm'
      have hreturned : .returned (.flush t) o ∈ first.trace h all := by
        rw [Bench.trace_append]
        have hrun : b = a.run (.askFlush ::
            ((first.run h steps).step h (.others .askFlush rfl id)).events h later) := by
          rw [show b = _ from congrArg Bench.adapter (Bench.run_append h first steps _), Bench.adapter_run]
          rfl
        rw [hrun] at hanswer hdead
        exact List.mem_append_right _ (hpast.returned_of_answer hopen hlive hdead hanswer)
      obtain ⟨before, behind, earlier, rest, hsent, hback, hsame⟩ := hall.returned_before hreturned
      obtain ⟨front, rest', hfront, htasks⟩ := hnoted.split hback
      have hfresh : .sent (.flush t) ∉ past := fun hm =>
        absurd (hpast.flushes t (mem_sent_iff.mpr hm)) (Nat.lt_irrefl _)
      have hsplit := hsent
      rw [Bench.trace_append] at hsplit
      exact .inr ⟨o, before, behind, front, rest', hflush, hsent, prefix_of_fresh hsplit hfresh, hfront,
        hsame ▸ htasks⟩

/- A queue with one place, in which a second line and then a flush have to wait. -/
theorem delivers_in_order_one_place :
    let first := (start ⟨"queue", "probe", 0, .block, false, false⟩ 0 0).bench probed
    let steps : List (Bench.Step Plant) := [.others (.write [97] .empty) rfl id, .others (.write [98] .empty) rfl id]
    let a := (first.run (Plant.host 0) steps).adapter
    let later := Bench.workStepsN (Plant.host 0) 4 ((a.step .askFlush).bench probed)
    let all := steps ++ .others .askFlush rfl id :: later
    a.queue.waiting.map (·.2) = [.raw [98]] ∧ (a.flush drain probed).1 = .done ∧
      seen (a.flush drain probed).2.2 = some ([97, 98], 2, 1) ∧
      handed (first.noted (Plant.host 0) all) = [.raw [97], .raw [98]] ∧
      ∃ before behind front rest, first.trace (Plant.host 0) all = before ++ .sent (.flush 1) :: behind ∧
        first.noted (Plant.host 0) all = front ++ (.flush, some .done) :: rest ∧
        front.map (·.1) = (sent before).map Command.task := by
  intro first steps a later all
  obtain ⟨-, -, -, -, -, hflush⟩ :=
    delivers_in_order ⟨"queue", "probe", 0, .block, false, false⟩ 0 0 (Plant.host 0) probed steps (by decide +kernel)
  have hrun : first.run (Plant.host 0) steps = a.bench probed := rfl
  have hpace := drain_eq_run hrun (e := .askFlush) rfl rfl (n := 4) (by decide +kernel)
  have hdone : (a.flush drain probed).1 = .done := by decide +kernel
  refine ⟨by decide +kernel, hdone, by decide +kernel, by decide +kernel, ?_⟩
  rcases hflush later (by decide +kernel) (by decide +kernel) drain probed _ hpace with
    ⟨-, hlate⟩ | ⟨o, before, behind, front, rest, hflushed, htrace, -, hnoted, htasks⟩
  · rw [hdone] at hlate
    cases hlate
  · rw [hflushed] at hdone
    exact ⟨before, behind, front, rest, htrace, hdone ▸ hnoted, htasks⟩

end Adapter

end Logbook
