import Logbook.Async.Adapter

/-!
# The traffic of an adapter

Any number of callers use an adapter at once, and its worker goes on behind them. Whatever the order, what they do
is a list of events: calls that begin, callers that get in or give up after they had to wait, commands that the
worker takes, and calls of the inner sink that end in whatever way. What happens at an event is put down in marks,
and the marks of a run are its history.
-/

namespace Logbook

namespace OverflowPolicy

/-- Do callers wait for room? -/
def waits : OverflowPolicy → Bool
  | .block | .blockFor _ => true
  | _ => false

/-- Do callers that wait give up after a time? -/
def isTimed : OverflowPolicy → Bool
  | .blockFor _ => true
  | _ => false

end OverflowPolicy

def Command.isRecord : Command → Bool
  | .record _ => true
  | _ => false

namespace Queue

/-! ### The parts of a worker's step -/

/-- The worker takes the next command, and nobody is let in yet. -/
def pull (q : Queue) : Option (Command × Queue) :=
  match q.worker, q.pending with
  | .idle, c :: rest => some (c, { q with worker := .busy c, pending := rest })
  | _, _ => none

/-- The caller at place `i` among the waiting puts its command into the queue, if there is room. -/
def enter (q : Queue) (i : Nat) : Queue :=
  match q.waiting[i]? with
  | none => q
  | some (ticket, c) =>
    if q.isFull then q
    else
      let q := { q with waiting := q.waiting.eraseIdx i }.enqueue c
      if c.isFlush then q else { q with answers := (ticket, .done) :: q.answers }

theorem letIn_eq_enter (q : Queue) : q.letIn = q.enter 0 := by
  unfold letIn enter
  cases q.waiting with
  | nil => rfl
  | cons w rest => rfl

theorem take_eq_pull (q : Queue) : q.take = q.pull.map fun (c, q) => (c, q.enter 0) := by
  obtain ⟨settings, isOpen, pending, waiting, worker, joined, stats, alerts, nextTicket, answers⟩ := q
  cases worker with
  | idle =>
    cases pending with
    | nil => rfl
    | cons c rest => simp only [take, pull, letIn_eq_enter, Option.map_some]
  | busy c => rfl
  | finished => rfl
  | dead => rfl

theorem worker_enter (q : Queue) (i : Nat) : (q.enter i).worker = q.worker := by
  unfold enter enqueue
  split
  · rfl
  · split
    · rfl
    · split <;> rfl

theorem worker_pull {q q' : Queue} {c : Command} (h : q.pull = some (c, q')) : q'.worker = .busy c := by
  unfold pull at h
  split at h
  · cases h
    rfl
  · cases h

end Queue

namespace Adapter

/-! ### Events -/

inductive Event where
  /-- A caller logs a snapshot, with the plant as it is then. -/
  | log (s : Snapshot) (p : Plant)
  /-- A caller writes a finished line. -/
  | write (bs : Bytes) (p : Plant)
  /-- A caller asks for a flush. -/
  | askFlush
  /-- A caller that waits for room gets in. -/
  | enter (i : Nat)
  /-- A caller that waits for room has waited long enough. -/
  | giveUp (i : Nat)
  /-- The worker takes the next command and calls the inner sink. -/
  | take
  /-- The call of the inner sink ends. -/
  | finish (o : Outcome)
  /-- The queue is closed. -/
  | close
  /-- The worker ends, with the outcome of the last flush. -/
  | leave (o : Outcome)
  /-- Someone has waited for the worker to end. -/
  | join (timeout : Duration)
  | setLevel (level : Severity)

/-- May the caller at place `i` give up? Flushes may, and others only if the policy sets a limit. -/
def mayGiveUp (a : Adapter) (i : Nat) : Bool :=
  match a.queue.waiting[i]? with
  | some (_, c) => c.isFlush || a.queue.settings.policy.isTimed
  | none => false

def step (a : Adapter) : Event → Adapter
  | .log s p => (a.log s p).2.1
  | .write bs p => (a.write bs p).2.1
  | .askFlush => if a.queue.isOpen then { a with queue := a.queue.askFlush.2 } else a
  | .enter i => { a with queue := a.queue.enter i }
  | .giveUp i => if a.mayGiveUp i then { a with queue := (a.queue.giveUp i).1 } else a
  | .take =>
    match a.queue.pull with
    | some (_, q) => { a with queue := q }
    | none => a
  | .finish o =>
    match a.queue.worker with
    | .busy c => { a with queue := (a.queue.settle c o).1.clearOut.2 }
    | _ => a
  | .close => { a with queue := a.queue.close.clearOut.2 }
  | .leave o => if a.queue.canLeave then { a with queue := (a.queue.leave o).1 } else a
  | .join timeout => { a with queue := (a.queue.join timeout).2.1 }
  | .setLevel level => { a with gate := ⟨level⟩ }

/-- The adapter after events in order. -/
def run (a : Adapter) (events : List Event) : Adapter := events.foldl step a

/-- A new adapter. -/
def start (settings : QueueSettings) (formatter : FormatterId) (inner : SinkId) : Adapter :=
  ⟨Outlets.startGate, formatter, inner, .ofSettings settings⟩

/-! ### Marks -/

inductive Mark where
  /-- A record or a line was offered while the queue was open. -/
  | offered (c : Command)
  /-- The offer found the queue full. -/
  | overflowed (c : Command)
  /-- The command entered the queue. -/
  | sent (c : Command)
  /-- The caller was told that the worker is gone. -/
  | refused (c : Command)
  /-- The command was discarded and counted. -/
  | dropped (c : Command)
  /-- The caller called the inner sink itself, and how that ended. -/
  | delivered (c : Command) (o : Outcome)
  /-- The worker took the command and called the inner sink. -/
  | taken (c : Command)
  /-- The worker's call of the inner sink ended. -/
  | returned (c : Command) (o : Outcome)
  /-- The command was left in a closed queue whose worker is gone. -/
  | lost (c : Command)
  /-- The worker flushed the inner sink a last time and ended. -/
  | left (o : Outcome)
  deriving DecidableEq

/-- How the inner sink answers a caller that delivers a record itself. -/
def ownOutcome (a : Adapter) (c : Command) (p : Plant) : Outcome :=
  match c with
  | .record s => (p.log false a.inner s).1.getD .done
  | _ => .done

/-- The marks of an offer. -/
def offerMarks (a : Adapter) (c : Command) (p : Plant) : List Mark :=
  if a.queue.isOpen then
    let overflow := if a.queue.isFull && !a.queue.isGone then [.overflowed c] else []
    let fate := match (a.queue.offer c).1 with
      | .accepted => [.sent c]
      | .preserved => [.delivered c (a.ownOutcome c p)]
      | .dropped => [.dropped c]
      | .waits _ => []
      | .refused _ => [.refused c]
    .offered c :: overflow ++ fate
  else []

/-- The records and lines among the commands of callers that wait. -/
def waitingLines (q : Queue) : List Command := (q.waiting.map (·.2)).filter (!·.isFlush)

def marks (a : Adapter) : Event → List Mark
  | .log s p =>
    if a.gate.passes s.severity then a.offerMarks (.record s) { p with store := s.clone p.store } else []
  | .write bs p => a.offerMarks (.raw bs) p
  | .askFlush =>
    if a.queue.isOpen && !a.queue.isGone && !a.queue.isFull then [.sent (.flush a.queue.nextTicket)] else []
  | .enter i =>
    match a.queue.waiting[i]? with
    | some (_, c) => if a.queue.isFull then [] else [.sent c]
    | none => []
  | .giveUp i =>
    match a.queue.waiting[i]? with
    | some (_, c) => if a.mayGiveUp i && !c.isFlush then [.dropped c] else []
    | none => []
  | .take =>
    match a.queue.pull with
    | some (c, _) => [.taken c]
    | none => []
  | .finish o =>
    match a.queue.worker with
    | .busy c =>
      let after := (a.queue.settle c o).1
      let bounced := if after.isGone then waitingLines a.queue else []
      .returned c o :: bounced.map .refused ++ after.clearOut.1.map .lost
    | _ => []
  | .close => a.queue.close.clearOut.1.map .lost
  | .leave o => if a.queue.canLeave then [.left o] else []
  | .join _ => []
  | .setLevel _ => []

/-- The history of a run. -/
def trace (a : Adapter) : List Event → List Mark
  | [] => []
  | e :: rest => a.marks e ++ (a.step e).trace rest

theorem run_append (a : Adapter) (before behind : List Event) :
    a.run (before ++ behind) = (a.run before).run behind := List.foldl_append

theorem trace_append (a : Adapter) (before behind : List Event) :
    a.trace (before ++ behind) = a.trace before ++ (a.run before).trace behind := by
  induction before generalizing a with
  | nil => rfl
  | cons e rest ih =>
    rw [List.cons_append, trace, trace, ih, List.append_assoc]
    rfl

/-! ### The operations of an adapter -/

/-- A step of the worker as events: it takes a command and calls the inner sink with it, and what that call returns, if
it returns, is what the command ends with. -/
def workEvents (a : Adapter) (p : Plant) : List Event :=
  match a.queue.pull with
  | some (c, _) => .take :: .enter 0 :: ((a.host.perform c p).1.map Event.finish).toList
  | none => if a.queue.canLeave then [.leave (a.host.flush p).1] else []

theorem work_eq_run (a : Adapter) (p : Plant) : (a.work p).1 = a.run (a.workEvents p) := by
  unfold work workEvents Host.step?
  rw [Queue.take_eq_pull]
  cases hpull : a.queue.pull with
  | none =>
    dsimp only [Option.map]
    cases hleave : a.queue.canLeave with
    | false => rfl
    | true => simp [run, step, hleave]
  | some taken =>
    obtain ⟨c, q⟩ := taken
    have hbusy : (q.enter 0).worker = .busy c := (q.worker_enter 0).trans (Queue.worker_pull hpull)
    dsimp only [Option.map]
    rcases a.host.perform c p with ⟨_ | o, p'⟩
    · simp [run, step, hpull]
    · simp only [Option.toList, run, List.foldl_cons, List.foldl_nil, step, hpull, hbusy]
      rfl

/-- Events lead from one state of an adapter to another. -/
def Leads (a b : Adapter) : Prop := ∃ events, b = a.run events

theorem leads_refl (a : Adapter) : a.Leads a := ⟨[], rfl⟩

end Adapter

end Logbook
