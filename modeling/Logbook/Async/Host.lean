import Logbook.Async.Queue

/-!
# The worker's surroundings

The worker of a queue acts on an inner sink and on the buffers of its commands. A host says how, over a state
of any kind; a call of the inner sink that has not returned yet gives no outcome, and leaves the worker in the
middle of its command.
-/

namespace Logbook

structure Host (σ : Type) where
  /-- Log a record on the inner sink. -/
  log : Snapshot → σ → Option Outcome × σ
  /-- Write a finished line to the inner sink. -/
  write : Bytes → σ → Option Outcome × σ
  /-- Flush the inner sink. -/
  flush : σ → Outcome × σ
  /-- Give back the buffer of a snapshot. -/
  release : Snapshot → σ → σ
  /-- Print a notice. -/
  report : Notice → σ → σ

namespace Host

variable {σ : Type}

/-- Hand a command to the inner sink. -/
def perform (h : Host σ) (c : Command) (s : σ) : Option Outcome × σ :=
  match c with
  | .record snapshot => h.log snapshot s
  | .raw bs => h.write bs s
  | .flush _ =>
    let (outcome, s) := h.flush s
    (some outcome, s)

def reportAll (h : Host σ) (notices : List Notice) (s : σ) : σ :=
  notices.foldl (fun s n => h.report n s) s

/-- Give back the buffers of commands that are done with. -/
def discard (h : Host σ) (commands : List Command) (s : σ) : σ :=
  (commands.filterMap (·.snapshot?)).foldl (fun s snapshot => h.release snapshot s) s

/-- Take commands out of a queue that nobody can reach any more, and give them back. -/
def clearOut (h : Host σ) (q : Queue) (s : σ) : Queue × σ :=
  let (left, q) := q.clearOut
  (q, h.discard left s)

/-- Settle the command that the worker is in. If that ends the worker, the commands that wait for room are
given back. -/
def settle (h : Host σ) (c : Command) (o : Outcome) (q : Queue) (s : σ) : Queue × σ :=
  let (after, notices) := q.settle c o
  let bounced := if after.isGone then q.waiting.map (·.2) else []
  h.clearOut after (h.discard (c :: bounced) (h.reportAll notices s))

/-- One step of the worker: a command, or the end of a closed queue. None if there is nothing to do, or if
the worker is in the middle of a command. -/
def step? (h : Host σ) (q : Queue) (s : σ) : Option (Queue × σ) :=
  match q.take with
  | some (c, q) =>
    match h.perform c s with
    | (some o, s) => some (h.settle c o q s)
    | (none, s) => some (q, s)
  | none =>
    if q.canLeave then
      let (o, s) := h.flush s
      let (q, notices) := q.leave o
      some (q, h.reportAll notices s)
    else none

/-- Up to `fuel` steps of the worker. -/
def run (h : Host σ) : Nat → Queue → σ → Queue × σ
  | 0, q, s => (q, s)
  | fuel + 1, q, s =>
    match h.step? q s with
    | some (q, s) => run h fuel q s
    | none => (q, s)

/-- Steps of the worker until there is nothing to do. Every step but the last takes a command, so their number
is bounded. -/
def drain (h : Host σ) (q : Queue) (s : σ) : Queue × σ :=
  h.run (q.pending.length + q.waiting.length + 1) q s

end Host

end Logbook
