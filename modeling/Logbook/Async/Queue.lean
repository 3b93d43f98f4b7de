import Logbook.Notice
import Logbook.Overflow
import Logbook.Snapshot

/-!
# Command queues

A bounded queue between callers and one worker. Callers offer commands; the worker takes them in order, one at
a time, hands each to the inner sink and settles it. What happens to a command that finds the queue full is the
policy's affair, except that records of errors may be kept from being dropped by having the caller deliver them.

A caller that waits, for room or for a flush to be done, has a ticket, and finds its answer under that ticket.
Closing the queue lets the worker finish what is queued, flush the inner sink a last time and end. A panic in a
raw write or in a flush ends the worker at once; what was queued then stays until the queue is closed.
-/

namespace Logbook

/-- What the worker is asked to do. -/
inductive Command where
  /-- Log a record. -/
  | record (s : Snapshot)
  /-- Write a finished line. -/
  | raw (bs : Bytes)
  /-- Flush, and answer under the ticket. -/
  | flush (ticket : Nat)
  deriving DecidableEq, Repr

namespace Command

/-- Is this the record of an error, or worse? -/
def isCritical : Command → Bool
  | record s => Severity.error ≤ s.severity
  | _ => false

def isFlush : Command → Bool
  | flush _ => true
  | _ => false

/-- The snapshot that a command holds. -/
def snapshot? : Command → Option Snapshot
  | record s => some s
  | _ => none

end Command

inductive Worker where
  /-- Between two commands. -/
  | idle
  /-- In the middle of a command. -/
  | busy (c : Command)
  /-- Ended after the queue was closed. -/
  | finished
  /-- Ended by a panic. -/
  | dead
  deriving DecidableEq, Repr

structure QueueStats where
  /-- Commands that entered the queue. -/
  enqueued : Nat
  /-- Records handed to the inner sink. -/
  processed : Nat
  /-- Commands discarded because the queue was full. -/
  dropped : Nat
  /-- Times a caller had to wait for room. -/
  blocked : Nat
  /-- Records that a caller delivered because the queue was full. -/
  preserved : Nat
  /-- Errors and panics of the inner sink. -/
  failures : Nat
  deriving DecidableEq, Repr

def QueueStats.zero : QueueStats := ⟨0, 0, 0, 0, 0, 0⟩

/-- Dropped commands for each hundred offered. -/
def QueueStats.dropRate (s : QueueStats) : Float := Metrics.percentage s.dropped (s.enqueued + s.dropped)

structure QueueSettings where
  name : String
  /-- The name of the inner sink. -/
  inner : String
  capacity : Nat
  policy : OverflowPolicy
  preserveCritical : Bool
  /-- Are alerts passed to a listener? -/
  hasListener : Bool
  deriving DecidableEq, Repr

namespace QueueSettings

def standardCapacity : Nat := 8192

/-- The most commands that may be queued; there is room for one at least. -/
def limit (s : QueueSettings) : Nat := max 1 s.capacity

/-- The octets of one place in a queue. -/
def placeOctets : Nat := 136

/-- Places are numbered together with a lap and a mark, which takes two bits of 64. -/
def maxPlaces : Nat := Nat.pow 2 62 - 1

/-- The name of the worker, in octets. -/
def workerName (s : QueueSettings) : Bytes := utf8 ("ldgr-" ++ s.name)

/-- Why there can be no such queue: too many places, more memory than there can be, or a worker whose name
has a zero in it. -/
def obstacle? (s : QueueSettings) : Option Panic :=
  if maxPlaces < s.limit then some .queueTooLarge
  else if maxAllocation < s.limit * placeOctets then some .capacityOverflow
  else if s.workerName.contains 0 then some (.workerName s.workerName)
  else none

end QueueSettings

structure Queue where
  settings : QueueSettings
  isOpen : Bool
  pending : List Command
  /-- Callers that wait for room, with their tickets. -/
  waiting : List (Nat × Command)
  worker : Worker
  /-- Has someone waited for the worker to end? -/
  joined : Bool
  stats : QueueStats
  /-- Counts that the listener was told. -/
  alerts : List Nat
  nextTicket : Nat
  /-- Answers to callers that wait. -/
  answers : List (Nat × Outcome)
  deriving DecidableEq, Repr

/-- What is done about an alert. -/
inductive Signal where
  | warn (n : Notice)
  /-- Tell the listener how many commands were discarded. -/
  | tell (dropped : Nat)
  deriving DecidableEq, Repr

namespace Signal

def notice? : Signal → Option Notice
  | warn n => some n
  | _ => none

def told? : Signal → Option Nat
  | tell dropped => some dropped
  | _ => none

end Signal

/-- What becomes of an offer. -/
inductive Admission where
  | accepted
  /-- The caller is to deliver the record itself. -/
  | preserved
  | dropped
  /-- The caller waits for room. -/
  | waits (ticket : Nat)
  | refused (e : Error)
  deriving DecidableEq, Repr

namespace Queue

def ofSettings (s : QueueSettings) : Queue :=
  ⟨s, true, [], [], .idle, false, .zero, [], 0, []⟩

def isFull (q : Queue) : Bool := q.settings.limit ≤ q.pending.length

/-- Commands that are waiting for the worker, as seen from outside: a closed queue shows none. -/
def length (q : Queue) : Nat := if q.isOpen then q.pending.length else 0

def isGone (q : Queue) : Bool :=
  match q.worker with
  | .finished | .dead => true
  | _ => false

/-- Put a command at the end. Flushes are not counted. -/
def enqueue (q : Queue) (c : Command) : Queue :=
  { q with
    pending := q.pending ++ [c]
    stats := if c.isFlush then q.stats else { q.stats with enqueued := q.stats.enqueued + 1 } }

/-- Wait for room. -/
def wait (q : Queue) (c : Command) : Admission × Queue :=
  (.waits q.nextTicket,
    { q with waiting := q.waiting ++ [(q.nextTicket, c)], nextTicket := q.nextTicket + 1 })

/-- Discard a command and count it. -/
def drop (q : Queue) : Queue := { q with stats := { q.stats with dropped := q.stats.dropped + 1 } }

/-- Does this count of discards raise an alert? -/
def isAlert (dropped : Nat) : Bool := dropped == 1 || dropped % 1000 == 0

/-- The signals of the latest discard: a warning, and after it the listener is told. -/
def signals (q : Queue) : List Signal :=
  if isAlert q.stats.dropped then
    .warn (.queueFull q.settings.name q.stats.dropped) ::
      if q.settings.hasListener then [.tell q.stats.dropped] else []
  else []

/-- Discard a command, with an alert on the first discard and on every thousandth. -/
def alertAndDrop (q : Queue) : Queue × List Notice :=
  let q := q.drop
  ({ q with alerts := q.alerts ++ q.signals.filterMap Signal.told? }, q.signals.filterMap Signal.notice?)

/-- What becomes of a record or a line for which there is no room. -/
def overflow (q : Queue) (c : Command) : Admission × Queue × List Notice :=
  if q.settings.preserveCritical && c.isCritical then
    (.preserved, { q with stats := { q.stats with preserved := q.stats.preserved + 1 } }, [])
  else
    match q.settings.policy with
    | .dropNewest => (.dropped, q.drop, [])
    | .alertAndDrop =>
      let (q, notices) := q.alertAndDrop
      (.dropped, q, notices)
    | .block | .blockFor _ =>
      let (admission, q) :=
        { q with stats := { q.stats with blocked := q.stats.blocked + 1 } }.wait c
      (admission, q, [])

/-- Offer a record or a line. -/
def offer (q : Queue) (c : Command) : Admission × Queue × List Notice :=
  if !q.isOpen then (.refused (.stopped q.settings.name), q, [])
  else if q.isGone then (.refused .disconnected, q, [])
  else if q.isFull then q.overflow c
  else (.accepted, q.enqueue c, [])

/-- A caller has waited long enough: its command, found by its place among the waiting, is discarded. -/
def giveUp (q : Queue) (i : Nat) : Queue × List Notice :=
  match q.waiting[i]? with
  | none => (q, [])
  | some (_, c) =>
    let q := { q with waiting := q.waiting.eraseIdx i }
    if c.isFlush then (q, []) else q.alertAndDrop

/-- Ask an open queue for a flush. -/
def askFlush (q : Queue) : Admission × Queue :=
  if q.isGone then (.refused .disconnected, q)
  else
    let ticket := q.nextTicket
    if q.isFull then q.wait (.flush ticket)
    else (.waits ticket, { q.enqueue (.flush ticket) with nextTicket := ticket + 1 })

/-- The answer that a caller waits for. -/
def answer? (q : Queue) (ticket : Nat) : Option Outcome := q.answers.lookup ticket

/-! ### The worker -/

/-- Let the first caller in that waits for room, if there is room. -/
def letIn (q : Queue) : Queue :=
  match q.waiting with
  | [] => q
  | (ticket, c) :: rest =>
    if q.isFull then q
    else
      let q := { q with waiting := rest }.enqueue c
      if c.isFlush then q else { q with answers := (ticket, .done) :: q.answers }

/-- The worker takes the next command. -/
def take (q : Queue) : Option (Command × Queue) :=
  match q.worker, q.pending with
  | .idle, c :: rest => some (c, { q with worker := .busy c, pending := rest }.letIn)
  | _, _ => none

/-- The answer of a disconnected worker to whoever waits for a command. -/
def bounced : Command → List (Nat × Outcome)
  | .flush ticket => [(ticket, .failed .disconnected)]
  | _ => []

/-- The end of the worker by a panic in the middle of a command: whoever waits for that command, or for room,
is told. What is queued stays. -/
def die (q : Queue) (c : Command) : Queue :=
  { q with
    worker := .dead
    waiting := []
    answers := bounced c ++ q.waiting.map (fun w => (w.1, .failed .disconnected)) ++ q.answers }

/-- Count a record that was handed to the inner sink. -/
def countDelivery (q : Queue) (o : Outcome) : Queue × List Notice :=
  let stats := { q.stats with processed := q.stats.processed + 1 }
  let failed := { stats with failures := stats.failures + 1 }
  match o with
  | .done => ({ q with stats := stats }, [])
  | .failed e => ({ q with stats := failed }, [.deliveryFailed q.settings.name q.settings.inner e])
  | .panicked _ => ({ q with stats := failed }, [.deliveryPanicked q.settings.name q.settings.inner])

/-- The outcome of the command that the worker is in. -/
def settle (q : Queue) (c : Command) (o : Outcome) : Queue × List Notice :=
  let q := { q with worker := .idle }
  match c, o with
  | .record _, o => q.countDelivery o
  | .raw _, .done => (q, [])
  | .raw _, .failed e =>
    ({ q with stats := { q.stats with failures := q.stats.failures + 1 } },
      [.rawFailed q.settings.name e])
  | .flush ticket, .done => ({ q with answers := (ticket, .done) :: q.answers }, [])
  | .flush ticket, .failed e => ({ q with answers := (ticket, .failed e) :: q.answers }, [])
  | c, .panicked _ => (q.die c, [])

/-- May the worker end? It does once the queue is closed and nothing is left to do. -/
def canLeave (q : Queue) : Bool :=
  match q.worker with
  | .idle => !q.isOpen && q.pending.isEmpty && q.waiting.isEmpty
  | _ => false

/-- The worker ends after the last flush of the inner sink. -/
def leave (q : Queue) (o : Outcome) : Queue × List Notice :=
  match o with
  | .done => ({ q with worker := .finished }, [])
  | .failed e => ({ q with worker := .finished }, [.lastFlushFailed q.settings.name e])
  | .panicked _ => ({ q with worker := .dead }, [])

/-! ### Closing -/

/-- Take no more offers. -/
def close (q : Queue) : Queue := { q with isOpen := false }

/-- The commands that nobody can reach any more, as the queue is closed and its worker is gone. They leave the
queue. -/
def clearOut (q : Queue) : List Command × Queue :=
  if !q.isOpen && q.isGone then (q.pending, { q with pending := [] }) else ([], q)

/-- Wait for the worker to end, for a time. The first to do so reports what was lost; later ones find
nothing to wait for. -/
def join (q : Queue) (timeout : Duration) : Bool × Queue × List Notice :=
  if q.joined then (true, q, [])
  else
    let (finished, notices) : Bool × List Notice :=
      match q.worker with
      | .finished => (true, [])
      | .dead => (true, [.workerPanicked q.settings.name])
      | _ => (false, [.workerLate q.settings.name timeout])
    let summary : List Notice :=
      if 0 < q.stats.dropped then [.dropSummary q.settings.name q.stats.dropped q.stats.enqueued]
      else []
    (finished, { q with joined := true }, notices ++ summary)

end Queue

end Logbook
