import Logbook.Async.Host
import Logbook.Outlets

/-!
# Adapters

An adapter is a sink in front of another one: records that pass its own gate are queued, and its worker logs
them on the inner sink. Buffers and outlets together are the plant that both work on.
-/

namespace Logbook

structure Plant where
  store : Store
  outlets : Outlets

namespace Plant

def empty : Plant := ⟨.empty, .empty⟩

instance : Inhabited Plant := ⟨empty⟩

def report (p : Plant) (n : Notice) : Plant := { p with outlets := p.outlets.report n }

def release (p : Plant) (s : Snapshot) : Plant := { p with store := s.drop p.store }

/-- Log a snapshot on a sink. -/
def log (p : Plant) (onWorker : Bool) (id : SinkId) (s : Snapshot) : Option Outcome × Plant :=
  let (outcome, outlets) := p.outlets.log onWorker id (s.record p.store)
  (outcome, { p with outlets := outlets })

def write (p : Plant) (onWorker : Bool) (id : SinkId) (bs : Bytes) : Option Outcome × Plant :=
  let (outcome, outlets) := p.outlets.write onWorker id bs
  (outcome, { p with outlets := outlets })

def flush (p : Plant) (id : SinkId) : Outcome × Plant :=
  let (outcome, outlets) := p.outlets.flush id
  (outcome, { p with outlets := outlets })

/-- The surroundings of a worker whose inner sink is `id`. -/
def host (id : SinkId) : Host Plant where
  log s p := p.log true id s
  write bs p := p.write true id bs
  flush p := p.flush id
  release s p := p.release s
  report n p := p.report n

end Plant

structure Adapter where
  gate : Gate
  formatter : FormatterId
  inner : SinkId
  queue : Queue

namespace Adapter

/-- A new adapter, if there can be such a queue. -/
def ofSettings (settings : QueueSettings) (formatter : FormatterId) (inner : SinkId) :
    Except Panic Adapter :=
  match settings.obstacle? with
  | some p => .error p
  | none => .ok ⟨Outlets.startGate, formatter, inner, .ofSettings settings⟩

/-- How long a flush, and the end of an adapter, wait. -/
def standardTimeout : Duration := ⟨5, 0⟩

def host (a : Adapter) : Host Plant := Plant.host a.inner

/-- Let the worker do all it can. -/
def drain (a : Adapter) (p : Plant) : Adapter × Plant :=
  let (queue, p) := a.host.drain a.queue p
  ({ a with queue := queue }, p)

/-- Let the worker take one step, if there is one to take. -/
def work (a : Adapter) (p : Plant) : Adapter × Plant :=
  match a.host.step? a.queue p with
  | some (queue, p) => ({ a with queue := queue }, p)
  | none => (a, p)

/-- Offer a command; a preserved record is delivered at once. None if the caller has to wait. A command that
did not get into the queue is given back. -/
def offer (a : Adapter) (c : Command) (p : Plant) : Option Outcome × Adapter × Plant :=
  let (admission, queue, notices) := a.queue.offer c
  let a := { a with queue := queue }
  let p := a.host.reportAll notices p
  match admission with
  | .accepted => (some .done, a, p)
  | .waits _ => (none, a, p)
  | .dropped => (some .done, a, a.host.discard [c] p)
  | .refused e => (some (.failed e), a, a.host.discard [c] p)
  | .preserved =>
    match c with
    | .record s =>
      let (outcome, p) := p.log false a.inner s
      let (queue, notices) := a.queue.countDelivery (outcome.getD .done)
      (some .done, { a with queue := queue }, a.host.discard [c] (a.host.reportAll notices p))
    | _ => (some .done, a, p)

/-- Queue a record. -/
def log (a : Adapter) (s : Snapshot) (p : Plant) : Option Outcome × Adapter × Plant :=
  if a.gate.passes s.severity then a.offer (.record s) { p with store := s.clone p.store }
  else (some .done, a, p)

/-- Queue a finished line. -/
def write (a : Adapter) (bs : Bytes) (p : Plant) : Option Outcome × Adapter × Plant :=
  a.offer (.raw bs) p

/-- The last caller that waits for room gives up, if the policy sets it a limit. -/
def expire (a : Adapter) (p : Plant) : Option (Adapter × Plant) :=
  match a.queue.settings.policy, a.queue.waiting.getLast? with
  | .blockFor _, some (_, c) =>
    let (queue, notices) := a.queue.giveUp (a.queue.waiting.length - 1)
    let a := { a with queue := queue }
    some (a, a.host.discard [c] (a.host.reportAll notices p))
  | _, _ => none

/-- Flush. A closed adapter flushes the inner sink itself. An open one queues the flush behind everything else
and waits while `pace` runs; a flush that is not answered then is late. -/
def flush (a : Adapter) (pace : Adapter → Plant → Adapter × Plant) (p : Plant) :
    Outcome × Adapter × Plant :=
  if a.queue.isOpen then
    let name := a.queue.settings.name
    let wasFull := a.queue.isFull
    let (admission, queue) := a.queue.askFlush
    let (a, p) := pace { a with queue := queue } p
    match admission with
    | .refused e => (.failed e, a, p)
    | .waits ticket =>
      match a.queue.answer? ticket with
      | some outcome => (outcome, a, p)
      | none =>
        if wasFull then
          let (queue, _) := a.queue.giveUp (a.queue.waiting.length - 1)
          (.failed (.other (s!"async sink '{name}' flush not accepted within " ++
            standardTimeout.text)), { a with queue := queue }, p)
        else
          (.failed (.other (s!"async sink '{name}' flush timed out after " ++
            standardTimeout.text)), a, p)
    | _ => (.done, a, p)
  else
    let (outcome, p) := p.flush a.inner
    (outcome, a, p)

/-- Close the queue and wait for the worker to end, while `pace` runs. -/
def shutdown (a : Adapter) (pace : Adapter → Plant → Adapter × Plant) (timeout : Duration) (p : Plant) :
    Bool × Adapter × Plant :=
  let (queue, p) := a.host.clearOut a.queue.close p
  let (a, p) := pace { a with queue := queue } p
  let (finished, queue, notices) := a.queue.join timeout
  (finished, { a with queue := queue }, a.host.reportAll notices p)

open Text (Shown)

def shownPolicy : OverflowPolicy → Shown
  | .blockFor timeout => .tuple "BlockWithTimeout" [.atom timeout.text]
  | policy => .atom policy.text

def shown (a : Adapter) : Shown :=
  .record "AsyncSink"
    [("name", .text a.queue.settings.name), ("inner", .text a.queue.settings.inner),
     ("policy", shownPolicy a.queue.settings.policy), ("queue_len", .nat a.queue.length)]

end Adapter

end Logbook
