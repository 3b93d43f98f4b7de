import Logbook.Proofs.Changes

/-!
# The worker at its bench

An adapter with the surroundings that its worker acts on, through any host. The worker takes a command and calls the
inner sink with it; what the call has come to is due when the command is finished, unless the call was held up. In
between callers act on the queue, and whoever there is on the surroundings. A step at the bench is an event of the
adapter, and what an adapter does on a plant is made of such steps.
-/

namespace Logbook

open Adapter (Event)

def Adapter.Event.isWorkers : Event → Bool
  | .take | .finish _ | .leave _ => true
  | _ => false

structure Bench (σ : Type) where
  adapter : Adapter
  site : σ
  /-- What the call under way has come to, if it has come back. -/
  due : Option Outcome

/- The worker is between two commands, or held up in one. -/
def Adapter.bench {σ : Type} (a : Adapter) (site : σ) : Bench σ := ⟨a, site, none⟩

namespace Bench

variable {σ : Type}

inductive Step (σ : Type) where
  /-- An event that is not the worker's, and whatever happens to the surroundings with it. -/
  | others (e : Event) (he : e.isWorkers = false) (f : σ → σ)
  | take
  /-- The command is finished. A call that was held up has come to this. -/
  | finish (o : Outcome)
  | leave

def event (h : Host σ) (b : Bench σ) : Step σ → Event
  | .others e _ _ => e
  | .take => .take
  | .finish o => .finish (b.due.getD o)
  | .leave => .leave (h.flush b.site).1

def step (h : Host σ) (b : Bench σ) : Step σ → Bench σ
  | .others e _ f => ⟨b.adapter.step e, f b.site, b.due⟩
  | .take =>
    match b.adapter.queue.pull with
    | some (c, _) => ⟨b.adapter.step .take, (h.perform c b.site).2, (h.perform c b.site).1⟩
    | none => b
  | .finish o =>
    match b.adapter.queue.worker with
    | .busy c =>
      let o := b.due.getD o
      ⟨b.adapter.step (.finish o), (h.settle c o b.adapter.queue b.site).2, none⟩
    | _ => b
  | .leave =>
    if b.adapter.queue.canLeave then
      ⟨b.adapter.step (.leave (h.flush b.site).1),
        h.reportAll (b.adapter.queue.leave (h.flush b.site).1).2 (h.flush b.site).2, b.due⟩
    else b

def run (h : Host σ) (b : Bench σ) (steps : List (Step σ)) : Bench σ := steps.foldl (step h) b

def events (h : Host σ) (b : Bench σ) : List (Step σ) → List Event
  | [] => []
  | x :: rest => b.event h x :: (b.step h x).events h rest

/- The history of a run. -/
def trace (h : Host σ) (b : Bench σ) (steps : List (Step σ)) : List Adapter.Mark :=
  b.adapter.trace (b.events h steps)

variable {h : Host σ} {b c d : Bench σ}

theorem run_append (h : Host σ) (b : Bench σ) (before behind : List (Step σ)) :
    b.run h (before ++ behind) = (b.run h before).run h behind := List.foldl_append

theorem events_append (h : Host σ) (b : Bench σ) (before behind : List (Step σ)) :
    b.events h (before ++ behind) = b.events h before ++ (b.run h before).events h behind := by
  induction before generalizing b with
  | nil => rfl
  | cons x rest ih => exact congrArg (b.event h x :: ·) (ih (b.step h x))

theorem adapter_step (h : Host σ) (b : Bench σ) (x : Step σ) :
    (b.step h x).adapter = b.adapter.step (b.event h x) := by
  cases x with
  | others e he f => rfl
  | take =>
    simp only [step, event]
    cases hpull : b.adapter.queue.pull with
    | none => simp [Adapter.step, hpull]
    | some taken => rfl
  | finish o =>
    simp only [step, event]
    cases hworker : b.adapter.queue.worker with
    | busy c => rfl
    | idle | finished | dead => simp [Adapter.step, hworker]
  | leave =>
    simp only [step, event]
    cases hleave : b.adapter.queue.canLeave with
    | true => rfl
    | false => simp [Adapter.step, hleave]

theorem adapter_run (h : Host σ) (b : Bench σ) (steps : List (Step σ)) :
    (b.run h steps).adapter = b.adapter.run (b.events h steps) := by
  induction steps generalizing b with
  | nil => rfl
  | cons x rest ih =>
    have hrest := ih (b.step h x)
    rw [adapter_step] at hrest
    exact hrest

/-! ### The worker alone -/

/- A step of the worker: a command from its place in the queue to its end, or the end of the worker. -/
def workSteps (h : Host σ) (b : Bench σ) : List (Step σ) :=
  match b.adapter.queue.pull with
  | some (c, _) =>
    .take :: .others (.enter 0) rfl id :: if (h.perform c b.site).1.isSome then [.finish .done] else []
  | none => if b.adapter.queue.canLeave then [.leave] else []

theorem run_workSteps (h : Host σ) (a : Adapter) (s : σ) :
    (a.bench s).run h ((a.bench s).workSteps h) =
      (h.step? a.queue s).elim (a.bench s) fun r => { a with queue := r.1 }.bench r.2 := by
  have hqueue : (a.bench s).adapter.queue = a.queue := rfl
  have hsite : (a.bench s).site = s := rfl
  unfold workSteps Host.step?
  rw [Queue.take_eq_pull, hqueue, hsite]
  cases hpull : a.queue.pull with
  | none =>
    dsimp only [Option.map]
    cases hleave : a.queue.canLeave with
    | false => rfl
    | true => simp [run, step, Adapter.bench, Adapter.step, hleave]
  | some taken =>
    obtain ⟨c, q⟩ := taken
    have hbusy : (q.enter 0).worker = .busy c := (q.worker_enter 0).trans (Queue.worker_pull hpull)
    dsimp only [Option.map]
    cases hcall : h.perform c s with
    | mk outcome s' =>
      cases outcome with
      | none => simp [run, step, Adapter.bench, Adapter.step, hpull, hcall]
      | some o =>
        simp only [run, List.foldl_cons, List.foldl_nil, step, Adapter.bench, Adapter.step, hpull, hcall, hbusy,
          Option.isSome_some, if_true, id, Option.getD_some]
        rfl

def workStepsN (h : Host σ) : Nat → Bench σ → List (Step σ)
  | 0, _ => []
  | n + 1, b => b.workSteps h ++ workStepsN h n (b.run h (b.workSteps h))

theorem run_of_rest {h : Host σ} {q : Queue} {s : σ} (hrest : h.step? q s = none) (n : Nat) : h.run n q s = (q, s) := by
  cases n with
  | zero => rfl
  | succ n => rw [Host.run, hrest]

theorem run_workStepsN (h : Host σ) (n : Nat) (a : Adapter) (s : σ) :
    (a.bench s).run h (workStepsN h n (a.bench s)) =
      { a with queue := (h.run n a.queue s).1 }.bench (h.run n a.queue s).2 := by
  induction n generalizing a s with
  | zero => rfl
  | succ n ih =>
    rw [workStepsN, run_append, run_workSteps, Host.run]
    cases hstep : h.step? a.queue s with
    | none =>
      have hstill := ih a s
      rw [run_of_rest hstep] at hstill
      exact hstill
    | some r => exact ih { a with queue := r.1 } r.2

/-! ### Steps in which the worker alone calls the inner sink -/

/- Others do no more than to print notices and to give buffers back. -/
def Step.IsTidy (h : Host σ) : Step σ → Prop
  | .others _ _ f => ∃ cs notices, f = fun s => h.discard cs (h.reportAll notices s)
  | _ => True

def Enacts (h : Host σ) (b c : Bench σ) : Prop := ∃ steps, (∀ x ∈ steps, x.IsTidy h) ∧ b.run h steps = c

theorem enacts_refl (h : Host σ) (b : Bench σ) : b.Enacts h b := ⟨[], fun _ hx => absurd hx List.not_mem_nil, rfl⟩

theorem Enacts.trans (hbc : b.Enacts h c) (hcd : c.Enacts h d) : b.Enacts h d := by
  obtain ⟨before, htidy, rfl⟩ := hbc
  obtain ⟨behind, htidy', rfl⟩ := hcd
  refine ⟨before ++ behind, fun x hx => ?_, run_append h b before behind⟩
  exact (List.mem_append.mp hx).elim (htidy x) (htidy' x)

theorem Enacts.leads (hbc : b.Enacts h c) : b.adapter.Leads c.adapter := by
  obtain ⟨steps, -, rfl⟩ := hbc
  exact ⟨_, adapter_run h b steps⟩

theorem enacts_step (b : Bench σ) {x : Step σ} (hx : x.IsTidy h) : b.Enacts h (b.step h x) := by
  refine ⟨[x], fun y hy => ?_, rfl⟩
  rw [List.mem_singleton.mp hy]
  exact hx

theorem enacts_others (b : Bench σ) {e : Event} (he : e.isWorkers = false) (cs : List Command)
    (notices : List Notice) :
    b.Enacts h ⟨b.adapter.step e, h.discard cs (h.reportAll notices b.site), b.due⟩ :=
  b.enacts_step (x := .others e he fun s => h.discard cs (h.reportAll notices s)) ⟨cs, notices, rfl⟩

theorem isTidy_workSteps (h : Host σ) (b : Bench σ) : ∀ x ∈ b.workSteps h, x.IsTidy h := by
  have hquiet : (Step.others (.enter 0) rfl id : Step σ).IsTidy h := ⟨[], [], rfl⟩
  unfold workSteps
  intro x hx
  split at hx
  · rcases List.mem_cons.mp hx with rfl | hx
    · trivial
    · rcases List.mem_cons.mp hx with rfl | hx
      · exact hquiet
      · split at hx
        · rw [List.mem_singleton.mp hx]
          trivial
        · cases hx
  · split at hx
    · rw [List.mem_singleton.mp hx]
      trivial
    · cases hx

theorem isTidy_workStepsN (h : Host σ) (n : Nat) (b : Bench σ) : ∀ x ∈ workStepsN h n b, x.IsTidy h := by
  induction n generalizing b with
  | zero => exact fun x hx => absurd hx List.not_mem_nil
  | succ n ih =>
    intro x hx
    exact (List.mem_append.mp hx).elim (isTidy_workSteps h b x) (ih _ x)

end Bench

namespace Adapter

/-! ### What an adapter does on a plant -/

/- Up to `n` steps of the worker. -/
def workN (n : Nat) (a : Adapter) (p : Plant) : Adapter × Plant :=
  ({ a with queue := (a.host.run n a.queue p).1 }, (a.host.run n a.queue p).2)

/- Someone acts, and then the worker does all it can. -/
theorem drain_eq_run {first : Bench Plant} {steps : List (Bench.Step Plant)} {a : Adapter} {p : Plant} {inner : SinkId}
    (hrun : first.run (Plant.host inner) steps = a.bench p) {e : Event} (he : e.isWorkers = false)
    (hinner : (a.step e).inner = inner) {n : Nat}
    (hn : (a.step e).queue.pending.length + (a.step e).queue.waiting.length + 1 = n) :
    let last := first.run (Plant.host inner)
      (steps ++ .others e he id :: Bench.workStepsN (Plant.host inner) n ((a.step e).bench p))
    (a.step e).drain p = (last.adapter, last.site) := by
  subst hinner hn
  rw [Bench.run_append, hrun]
  have hwork := Bench.run_workStepsN (a.step e).host ((a.step e).queue.pending.length + (a.step e).queue.waiting.length + 1)
    (a.step e) p
  exact (congrArg (fun b => (b.adapter, b.site)) hwork).symm

theorem enacts_workN (n : Nat) (a : Adapter) (p : Plant) :
    (a.bench p).Enacts a.host ((a.workN n p).1.bench (a.workN n p).2) :=
  ⟨_, Bench.isTidy_workStepsN a.host n _, Bench.run_workStepsN a.host n a p⟩

theorem leads_drain (a : Adapter) (p : Plant) : a.Leads (a.drain p).1 :=
  (enacts_workN (a.queue.pending.length + a.queue.waiting.length + 1) a p).leads

theorem enacts_expire {a b : Adapter} {p p' : Plant} (h : a.expire p = some (b, p')) :
    (a.bench p).Enacts a.host (b.bench p') := by
  unfold expire at h
  split at h
  · rename_i timeout ticket c hpolicy hlast
    have hmay : a.mayGiveUp (a.queue.waiting.length - 1) = true := by
      rw [List.getLast?_eq_getElem?] at hlast
      simp [mayGiveUp, hlast, hpolicy, OverflowPolicy.isTimed]
    have hgives := (a.bench p).enacts_others (h := a.host) (e := .giveUp (a.queue.waiting.length - 1)) rfl [c]
      (a.queue.giveUp (a.queue.waiting.length - 1)).2
    simp only [bench, step, hmay, if_true] at hgives
    cases h
    exact hgives
  · cases h

theorem enacts_settle {a : Adapter} {c : Command} (hworker : a.queue.worker = .busy c) (o : Outcome) (p : Plant) :
    (a.bench p).Enacts a.host
      ({ a with queue := (a.host.settle c o a.queue p).1 }.bench (a.host.settle c o a.queue p).2) := by
  have hfinish := (a.bench p).enacts_step (h := a.host) (x := .finish o) trivial
  simp only [Bench.step, bench, hworker, Option.getD_none, step] at hfinish
  exact hfinish

/- The worker lets in those who came first, so the last of the callers that wait stays the last. -/

theorem waiting_enter (q : Queue) : (q.enter 0).waiting <:+ q.waiting := by
  obtain ⟨settings, isOpen, pending, waiting, worker, joined, stats, alerts, nextTicket, answers⟩ := q
  unfold Queue.enter Queue.enqueue
  cases waiting with
  | nil => exact List.suffix_rfl
  | cons w rest =>
    dsimp only [List.getElem?_cons_zero, List.eraseIdx_zero, List.tail_cons]
    split
    · exact List.suffix_rfl
    · split <;> exact List.suffix_cons w rest

theorem waiting_settle (q : Queue) (c : Command) (o : Outcome) : (q.settle c o).1.clearOut.2.waiting <:+ q.waiting := by
  have hclear : ∀ q : Queue, q.clearOut.2.waiting = q.waiting := by
    intro q
    unfold Queue.clearOut
    split <;> rfl
  rw [hclear]
  cases c <;> cases o <;> first | exact List.suffix_rfl | exact List.nil_suffix

theorem waiting_step? {σ : Type} {h : Host σ} {q : Queue} {s : σ} {r : Queue × σ} (hstep : h.step? q s = some r) :
    r.1.waiting <:+ q.waiting := by
  unfold Host.step? at hstep
  rw [Queue.take_eq_pull] at hstep
  cases hpull : q.pull with
  | none =>
    rw [hpull] at hstep
    dsimp only [Option.map] at hstep
    split at hstep
    · cases hstep
      cases (h.flush s).1 <;> exact List.suffix_rfl
    · cases hstep
  | some taken =>
    obtain ⟨c, q'⟩ := taken
    have hsame : q'.waiting = q.waiting := by
      unfold Queue.pull at hpull
      split at hpull
      · cases hpull
        rfl
      · cases hpull
    have henter := hsame ▸ waiting_enter q'
    rw [hpull] at hstep
    dsimp only [Option.map] at hstep
    split at hstep
    · cases hstep
      exact (waiting_settle ..).trans henter
    · cases hstep
      exact henter

theorem waiting_run {σ : Type} (h : Host σ) (n : Nat) (q : Queue) (s : σ) : (h.run n q s).1.waiting <:+ q.waiting := by
  induction n generalizing q s with
  | zero => exact List.suffix_rfl
  | succ n ih =>
    rw [Host.run]
    cases hstep : h.step? q s with
    | none => exact List.suffix_rfl
    | some r => exact (ih r.1 r.2).trans (waiting_step? hstep)

theorem enacts_giveUp {a : Adapter} {line : List (Nat × Command)} {t ticket : Nat} (p : Plant)
    (h : a.queue.waiting <:+ line ++ [(t, .flush ticket)]) :
    (a.bench p).Enacts a.host ({ a with queue := (a.queue.giveUp (a.queue.waiting.length - 1)).1 }.bench p) := by
  rcases List.suffix_concat_iff.mp h with hnil | ⟨before, hline, -⟩
  · have hsame : (a.queue.giveUp (a.queue.waiting.length - 1)).1 = a.queue := by simp [Queue.giveUp, hnil]
    rw [hsame]
    exact Bench.enacts_refl _ _
  · have hmay : a.mayGiveUp (a.queue.waiting.length - 1) = true := by
      simp [mayGiveUp, hline, Command.isFlush]
    have hgives := (a.bench p).enacts_others (h := a.host) (e := .giveUp (a.queue.waiting.length - 1)) rfl [] []
    simp only [bench, step, hmay, if_true] at hgives
    exact hgives

theorem waiting_askFlush {q : Queue} {ticket : Nat} (hfull : q.isFull = true)
    (h : q.askFlush.1 = .waits ticket) :
    q.askFlush.2.waiting = q.waiting ++ [(q.nextTicket, .flush q.nextTicket)] := by
  unfold Queue.askFlush at h ⊢
  split at h
  · cases h
  · rename_i hlive
    simp only [hlive, hfull]
    rfl

/- Nothing but the worker goes on while a caller waits. -/
def Paced (pace : Adapter → Plant → Adapter × Plant) : Prop := ∀ a p, ∃ n, pace a p = a.workN n p

section

variable {pace : Adapter → Plant → Adapter × Plant}

/- A flush that was not let in gives up the place of its caller, who came last. -/
theorem enacts_flush (hpace : Paced pace) {a : Adapter} (hopen : a.queue.isOpen = true) (p : Plant) :
    (a.bench p).Enacts a.host ((a.flush pace p).2.1.bench (a.flush pace p).2.2) := by
  have hask := (a.bench p).enacts_others (h := a.host) (e := .askFlush) rfl [] []
  simp only [bench, step, hopen, if_true] at hask
  obtain ⟨n, hn⟩ := hpace { a with queue := a.queue.askFlush.2 } p
  have hpaced := Bench.Enacts.trans hask (enacts_workN n { a with queue := a.queue.askFlush.2 } p)
  have hsuffix := waiting_run a.host n a.queue.askFlush.2 p
  unfold flush
  rw [if_pos hopen]
  dsimp only
  rw [hn]
  split
  · exact hpaced
  · rename_i ticket hasked
    split
    · exact hpaced
    · split
      · rename_i hfull
        rw [waiting_askFlush hfull hasked] at hsuffix
        have hgives := enacts_giveUp (a := (workN n { a with queue := a.queue.askFlush.2 } p).1)
          (workN n { a with queue := a.queue.askFlush.2 } p).2 hsuffix
        exact hpaced.trans hgives
      · exact hpaced
  · exact hpaced

theorem enacts_shutdown (hpace : Paced pace) (a : Adapter) (timeout : Duration) (p : Plant) :
    (a.bench p).Enacts a.host ((a.shutdown pace timeout p).2.1.bench (a.shutdown pace timeout p).2.2) := by
  have hclose := (a.bench p).enacts_others (h := a.host) (e := .close) rfl a.queue.close.clearOut.1 []
  obtain ⟨n, hn⟩ := hpace (a.step .close) (a.host.clearOut a.queue.close p).2
  have hpaced := Bench.Enacts.trans hclose (enacts_workN n (a.step .close) (a.host.clearOut a.queue.close p).2)
  rw [← hn] at hpaced
  exact hpaced.trans (Bench.enacts_others _ (e := .join timeout) rfl [] _)

end

/- The calls that the worker makes are calls of the inner sink on the plant, and what an adapter does there is made of
steps at its bench. -/
structure Operates (a : Adapter) : Prop where
  log : ∀ s p, a.host.log s p = p.log true a.inner s
  write : ∀ bs p, a.host.write bs p = p.write true a.inner bs
  flush : ∀ p, a.host.flush p = p.flush a.inner
  work : ∀ p, (a.bench p).run a.host ((a.bench p).workSteps a.host) = (a.work p).1.bench (a.work p).2
  drain : ∀ p, ∃ n, (a.bench p).run a.host (Bench.workStepsN a.host n (a.bench p)) = (a.drain p).1.bench (a.drain p).2
  /-- A call that was held up ends. -/
  settle : ∀ c o p, a.queue.worker = .busy c → (a.bench p).Enacts a.host
    ({ a with queue := (a.host.settle c o a.queue p).1 }.bench (a.host.settle c o a.queue p).2)
  expire : ∀ p b p', a.expire p = some (b, p') → (a.bench p).Enacts a.host (b.bench p')
  ask : ∀ pace, Paced pace → a.queue.isOpen = true → ∀ p,
    (a.bench p).Enacts a.host ((a.flush pace p).2.1.bench (a.flush pace p).2.2)
  shutdown : ∀ pace, Paced pace → ∀ timeout p,
    (a.bench p).Enacts a.host ((a.shutdown pace timeout p).2.1.bench (a.shutdown pace timeout p).2.2)

theorem operates (a : Adapter) : a.Operates where
  log _ _ := rfl
  write _ _ := rfl
  flush _ := rfl
  work p := by
    rw [Bench.run_workSteps]
    unfold work
    cases a.host.step? a.queue p with
    | none => rfl
    | some r => rfl
  drain p := ⟨a.queue.pending.length + a.queue.waiting.length + 1, Bench.run_workStepsN a.host _ a p⟩
  settle _ o p hworker := enacts_settle hworker o p
  expire _ _ _ h := enacts_expire h
  ask _ hpace hopen p := enacts_flush hpace hopen p
  shutdown _ hpace timeout p := enacts_shutdown hpace a timeout p

/-! ### A plant to look into -/

/- A plant whose one sink is a probe that lets everything pass. -/
def probed : Plant := ⟨.empty, (Outlets.empty.addSink "probe" (.probe (.new .ok [] .ok))).2⟩

/- What a probe has collected, and how often it was called to write and to flush. -/
def seen (p : Plant) : Option (Bytes × Nat × Nat) :=
  (p.outlets.sinks.get? 0).bind fun sink =>
    match sink.destination with
    | .probe x => some (x.tape.bytes, x.writes, x.flushes)
    | _ => none

end Adapter

end Logbook
