import Logbook.Proofs.Bench
import Logbook.Proofs.Routes
import Logbook.Proofs.Tables

/-!
# Callers side by side

Any number of callers log and flush at once, each one call after another, while levels are set and the workers of
adapters go on. A call is taken apart into the steps between which others may act: every question to a gate, the
capture, every call of a sink, every wait, the count of a call that failed, and the count at the end.
-/

namespace Logbook

/-! ### Behind the callers -/

namespace Adapter

/-- What goes on at an adapter behind its callers. -/
inductive Move where
  | enter (i : Nat)
  | giveUp (i : Nat)
  | take
  | finish (o : Outcome)
  | leave

def Move.event (a : Adapter) (p : Plant) : Move → Event
  | enter i => .enter i
  | giveUp i => .giveUp i
  | take => .take
  | finish o => .finish o
  | leave => .leave (a.host.flush p).1

/-- A move with what it does to sinks and buffers. The worker calls the inner sink when it takes a command, gives the
buffer back when that call ends, and flushes the inner sink before it leaves. -/
def move (a : Adapter) (p : Plant) : Move → Adapter × Plant
  | .enter i => ({ a with queue := a.queue.enter i }, p)
  | .giveUp i =>
    if a.mayGiveUp i then
      let (queue, notices) := a.queue.giveUp i
      ({ a with queue := queue },
        a.host.discard ((a.queue.waiting[i]?).toList.map (·.2)) (a.host.reportAll notices p))
    else (a, p)
  | .take =>
    match a.queue.pull with
    | some (c, queue) => ({ a with queue := queue }, (a.host.perform c p).2)
    | none => (a, p)
  | .finish o =>
    match a.queue.worker with
    | .busy c =>
      let (queue, p) := a.host.settle c o a.queue p
      ({ a with queue := queue }, p)
    | _ => (a, p)
  | .leave =>
    if a.queue.canLeave then
      let (o, p) := a.host.flush p
      let (queue, notices) := a.queue.leave o
      ({ a with queue := queue }, a.host.reportAll notices p)
    else (a, p)

theorem move_adapter (a : Adapter) (p : Plant) (m : Move) : (a.move p m).1 = a.step (m.event a p) := by
  cases m with
  | enter i => rfl
  | giveUp i =>
    simp only [move, step, Move.event]
    split <;> rfl
  | take =>
    simp only [move, step, Move.event]
    cases a.queue.pull <;> rfl
  | finish o =>
    simp only [move, step, Move.event]
    cases a.queue.worker <;> rfl
  | leave =>
    simp only [move, step, Move.event]
    split <;> rfl

/-- Moves in a row. -/
def moves (a : Adapter) (p : Plant) : List Move → Adapter × Plant
  | [] => (a, p)
  | m :: rest => (a.move p m).1.moves (a.move p m).2 rest

theorem moves_append (a : Adapter) (p : Plant) (before behind : List Move) :
    a.moves p (before ++ behind) = (a.moves p before).1.moves (a.moves p before).2 behind := by
  induction before generalizing a p with
  | nil => rfl
  | cons m rest ih => exact ih (a.move p m).1 (a.move p m).2

/-- A step of the worker as moves: it takes a command, lets a caller in, and finishes the command unless the inner sink
holds it up; or it leaves. -/
def workMoves (a : Adapter) (p : Plant) : List Move :=
  match a.queue.pull with
  | some (c, _) => .take :: .enter 0 :: (a.host.perform c p).1.toList.map .finish
  | none => [.leave]

theorem work_eq_moves (a : Adapter) (p : Plant) : a.work p = a.moves p (a.workMoves p) := by
  unfold work workMoves Host.step?
  rw [Queue.take_eq_pull]
  cases hpull : a.queue.pull with
  | none =>
    simp only [Option.map_none, moves, move]
    by_cases hleave : a.queue.canLeave = true
    · simp [hleave]
    · simp [hleave]
  | some taken =>
    obtain ⟨c, q⟩ := taken
    have hfirst : a.move p .take = ({ a with queue := q }, (a.host.perform c p).2) := by
      simp only [move, hpull]
    have hbusy : (q.enter 0).worker = .busy c := by
      rw [Queue.worker_enter, Queue.worker_pull hpull]
    dsimp only [Option.map]
    rw [moves, hfirst]
    cases hcall : a.host.perform c p with
    | mk outcome p' =>
      cases outcome with
      | none => rfl
      | some o =>
        show _ = ({ a with queue := q.enter 0 } : Adapter).move p' (.finish o)
        simp only [move, hbusy]
        rfl

def workMovesN : Nat → Adapter → Plant → List Move
  | 0, _, _ => []
  | n + 1, a, p => a.workMoves p ++ workMovesN n (a.work p).1 (a.work p).2

theorem workN_eq_moves (n : Nat) (a : Adapter) (p : Plant) : a.workN n p = a.moves p (workMovesN n a p) := by
  induction n generalizing a p with
  | zero => rfl
  | succ n ih =>
    rw [workMovesN, moves_append, ← work_eq_moves, ← ih]
    unfold workN work
    rw [Host.run]
    cases hstep : a.host.step? a.queue p with
    | none =>
      dsimp only
      rw [Bench.run_of_rest hstep]
    | some r => rfl

/-- A caller that gives up after a time makes a move. -/
theorem expire_eq_move {a : Adapter} {p : Plant} {r : Adapter × Plant} (h : a.expire p = some r) :
    r = a.move p (.giveUp (a.queue.waiting.length - 1)) := by
  unfold expire at h
  split at h
  · rename_i timeout ticket c hpolicy hlast
    have hget : a.queue.waiting[a.queue.waiting.length - 1]? = some (ticket, c) := by
      rw [← hlast, List.getLast?_eq_getElem?]
    have hmay : a.mayGiveUp (a.queue.waiting.length - 1) = true := by
      unfold mayGiveUp
      rw [hget]
      simp [hpolicy, OverflowPolicy.isTimed]
    unfold move
    dsimp only
    rw [if_pos hmay, hget]
    exact (Option.some.inj h).symm
  · cases h

end Adapter

def World.move (w : World) (id : AdapterId) (m : Adapter.Move) : World :=
  (w.withAdapter id () fun a p => ((), a.move p m)).2

/-! ### Callers -/

abbrev CallerId := Nat

/-- A call of a logger that has ended. -/
structure Report where
  logger : LoggerId
  /-- What the gate answered, from the first question on. -/
  checks : List Bool
  /-- The panic that ended the call, if one did. -/
  panic : Option Panic

/-- A snapshot on its way to the sinks of a logger. -/
structure Dispatch where
  logger : LoggerId
  name : String
  snapshot : Snapshot
  /-- The sinks that are still to be called. -/
  rest : List SinkRef

/-- Where a caller stands. -/
inductive Phase where
  | idle
  /-- About to ask the gate whether to make an entry. -/
  | asking (l : LoggerId) (call : Call)
  /-- About to ask the gate for an entry. -/
  | offering (l : LoggerId) (e : Entry)
  | rejected (l : LoggerId)
  | admitted (l : LoggerId) (e : Entry)
  | sending (d : Dispatch)
  /-- Waits for room at an adapter. -/
  | blocked (d : Dispatch) (id : AdapterId) (ticket : Nat)
  /-- The call of a sink has returned, and is not looked at yet. -/
  | returning (d : Dispatch) (sink : SinkRef) (o : Outcome)
  | flushing (rest : List SinkRef)
  /-- Waits for the answer to a flush. -/
  | awaiting (id : AdapterId) (ticket : Nat) (rest : List SinkRef)

/-- Where a call begins: for an entry, the gate is asked once. -/
def Phase.ofCall (l : LoggerId) : Call → Phase
  | .entry e => .offering l e
  | .message severity text file line time => .asking l (.message severity text file line time)

structure Caller where
  phase : Phase
  /-- What the gate has answered in the call under way. -/
  checks : List Bool
  /-- How many calls of loggers were begun. -/
  begun : Nat
  /-- Those that ended, the latest first. -/
  past : List Report

namespace Caller

def new : Caller := ⟨.idle, [], 0, []⟩

/-- The gate has answered. -/
def checked (c : Caller) (l : LoggerId) (passed : Bool) (next : Phase) : Caller :=
  { c with checks := c.checks ++ [passed], phase := if passed then next else .rejected l }

/-- A call of a logger has ended. -/
def ended (c : Caller) (l : LoggerId) (panic : Option Panic) : Caller :=
  { c with phase := .idle, checks := [], past := ⟨l, c.checks, panic⟩ :: c.past }

def enters (c : Caller) (phase : Phase) : Caller := { c with phase := phase }

end Caller

/-- What a caller may do next. -/
inductive Turn where
  | log (l : LoggerId) (call : Call)
  | flush (l : LoggerId)
  /-- Take the next step of the call under way. -/
  | advance
  /-- Wait no longer for the answer to a flush. -/
  | lapse (e : Error)

namespace World

def passes (w : World) (l : LoggerId) (severity : Severity) : Bool :=
  (w.loggers.get? l).any (·.gate.passes severity)

theorem passes_of_none {w : World} {l : LoggerId} (h : w.loggers.get? l = none) (severity : Severity) :
    w.passes l severity = false := by
  unfold passes
  rw [h]
  rfl

theorem passes_of_some {w : World} {l : LoggerId} {logger : Logger} (h : w.loggers.get? l = some logger)
    (severity : Severity) : w.passes l severity = logger.gate.passes severity := by
  unfold passes
  rw [h]
  rfl

theorem recordFiltered_of_none {w : World} {l : LoggerId} (h : w.loggers.get? l = none) : w.recordFiltered l = w := by
  unfold recordFiltered modifyLogger
  rw [Table.modify_of_none h]

def loggerName (w : World) (l : LoggerId) : String := ((w.loggers.get? l).map (·.name)).getD ""

/-- Does the command of that ticket wait for room? -/
def inLine (w : World) (id : AdapterId) (ticket : Nat) : Bool :=
  (w.adapters.get? id).any (·.queue.waiting.any (·.1 == ticket))

/-! ### The steps of a log call -/

def captureFor (w : World) (c : Caller) (l : LoggerId) (e : Entry) : Caller × World :=
  match w.loggers.get? l with
  | none => (c.ended l none, w)
  | some logger =>
    match Snapshot.capture e logger.localTime (·.acquire logger.factory) w.plant.store with
    | (.error p, store) => (c.ended l (some p), w.setStore store)
    | (.ok s, store) => (c.enters (.sending ⟨l, logger.name, s, logger.sinks⟩), w.setStore store)

def callSink (w : World) (c : Caller) (d : Dispatch) (sink : SinkRef) : Caller × World :=
  match w.logSink sink d.snapshot with
  | (some o, w) => (c.enters (.returning d sink o), w)
  | (none, w) =>
    match w.lastTicket? sink with
    | some (id, ticket) => (c.enters (.blocked d id ticket), w)
    | none => (c.enters (.returning d sink .done), w)

/-- A caller whose command has left the line goes on: with the answer, or without one if it gave up. -/
def resume (w : World) (c : Caller) (d : Dispatch) (id : AdapterId) (ticket : Nat) : Caller × World :=
  if w.inLine id ticket then (c, w)
  else (c.enters (.returning d (.queued id) ((w.answer? id ticket).getD .done)), w)

/-- A call that did not end well is reported and counted. -/
def returned (w : World) (d : Dispatch) (sink : SinkRef) (o : Outcome) : World :=
  match Logger.notice? d.name (w.sinkName sink) o with
  | none => w
  | some n => (w.report n).modifyLogger d.logger (·.countFailure)

/-- Every sink has been called: the record is counted and its buffer given back. -/
def conclude (w : World) (c : Caller) (d : Dispatch) : Caller × World :=
  (c.ended d.logger none, (w.modifyLogger d.logger (·.countLogged)).setStore (d.snapshot.drop w.plant.store))

/-! ### The steps of a flush -/

def flushed (w : World) (c : Caller) (sink : SinkRef) (rest : List SinkRef) : Outcome → Caller × World
  | .done => (c.enters (.flushing rest), w)
  | .failed e => (c.enters (.flushing rest), w.report (.flushFailed (w.sinkName sink) e))
  | .panicked _ => (c.enters .idle, w)

def flushNext (w : World) (c : Caller) (rest : List SinkRef) : SinkRef → Caller × World
  | .direct id =>
    let (o, plant) := w.plant.flush id
    { w with plant := plant }.flushed c (.direct id) rest o
  | .queued id =>
    match w.adapters.get? id with
    | none => (c.enters (.flushing rest), w)
    | some a =>
      if a.queue.isOpen then
        match a.queue.askFlush with
        | (.waits ticket, queue) =>
          (c.enters (.awaiting id ticket rest), { w with adapters := w.adapters.set id { a with queue := queue } })
        | (.refused e, _) => w.flushed c (.queued id) rest (.failed e)
        | _ => (c.enters (.flushing rest), w)
      else
        let (o, plant) := w.plant.flush a.inner
        { w with plant := plant }.flushed c (.queued id) rest o

/-! ### One turn -/

def advance (w : World) (c : Caller) : Caller × World :=
  match c.phase with
  | .idle => (c, w)
  | .asking l call =>
    (c.checked l (w.passes l call.severity) (.offering l (call.toEntry (w.loggerName l))), w)
  | .offering l e => (c.checked l (w.passes l e.severity) (.admitted l e), w)
  | .rejected l => (c.ended l none, w.recordFiltered l)
  | .admitted l e => w.captureFor c l e
  | .sending d =>
    match d.rest with
    | [] => w.conclude c d
    | sink :: rest => w.callSink c { d with rest := rest } sink
  | .blocked d id ticket => w.resume c d id ticket
  | .returning d sink o => (c.enters (.sending d), w.returned d sink o)
  | .flushing [] => (c.enters .idle, w)
  | .flushing (sink :: rest) => w.flushNext c rest sink
  | .awaiting id ticket rest =>
    match w.answer? id ticket with
    | some o => w.flushed c (.queued id) rest o
    | none => (c, w)

/-- A caller begins a call only between two calls. -/
def turn (w : World) (c : Caller) : Turn → Caller × World
  | .log l call =>
    match c.phase with
    | .idle => ({ c with phase := .ofCall l call, begun := c.begun + 1 }, w)
    | _ => (c, w)
  | .flush l =>
    match c.phase, w.loggers.get? l with
    | .idle, some logger => (c.enters (.flushing logger.sinks), w)
    | _, _ => (c, w)
  | .advance => w.advance c
  | .lapse e =>
    match c.phase with
    | .awaiting id ticket rest =>
      if w.inLine id ticket then (c, w) else w.flushed c (.queued id) rest (.failed e)
    | _ => (c, w)

end World

/-! ### Scenes -/

/-- A world with its callers. -/
structure Scene where
  world : World
  callers : Table Caller

namespace Scene

inductive Event where
  | caller (i : CallerId) (t : Turn)
  | move (id : AdapterId) (m : Adapter.Move)
  | setLevel (l : LoggerId) (level : Severity)

/-- `n` callers that have done nothing yet. -/
def start (w : World) (n : Nat) : Scene := ⟨w, n.repeat (fun t => t.push .new) .empty⟩

def step (s : Scene) : Event → Scene
  | .caller i t =>
    match s.callers.get? i with
    | none => s
    | some c => ⟨(s.world.turn c t).2, s.callers.set i (s.world.turn c t).1⟩
  | .move id m => { s with world := s.world.move id m }
  | .setLevel l level => { s with world := s.world.modifyLogger l (·.setLevel level) }

def run (s : Scene) (events : List Event) : Scene := events.foldl step s

theorem step_of_some {s : Scene} {i : CallerId} {c : Caller} (h : s.callers.get? i = some c) (t : Turn) :
    s.step (.caller i t) = ⟨(s.world.turn c t).2, s.callers.set i (s.world.turn c t).1⟩ := by
  simp only [step, h]

theorem step_of_none {s : Scene} {i : CallerId} (h : s.callers.get? i = none) (t : Turn) :
    s.step (.caller i t) = s := by
  simp only [step, h]

/-! ### The start -/

theorem get?_start (w : World) (n : Nat) {i : CallerId} {c : Caller} (h : (start w n).callers.get? i = some c) :
    c = .new := by
  unfold start at h
  induction n with
  | zero => cases h
  | succ n ih =>
    have hpush : ((n.repeat (fun t : Table Caller => t.push .new) .empty).push .new).get? i = some c := h
    rw [Table.get?_push] at hpush
    split at hpush
    · cases hpush
      rfl
    · exact ih hpush

theorem total_start (w : World) (n : Nat) (f : Caller → Nat) : (start w n).callers.total f = n * f .new := by
  unfold start
  induction n with
  | zero =>
    rw [Nat.zero_mul]
    rfl
  | succ n ih =>
    show ((n.repeat (fun t : Table Caller => t.push .new) .empty).push .new).total f = (n + 1) * f .new
    dsimp only at ih
    rw [Table.total_push, ih, Nat.succ_mul, Nat.add_comm]

end Scene

end Logbook
