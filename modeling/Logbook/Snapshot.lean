import Logbook.Buffer.Store
import Logbook.Entry
import Logbook.Text.Utf8

/-!
# Snapshots

A snapshot is a copy of an entry that outlives the call: its four texts stand back to back in one buffer, and
spans say where each of them lies. It holds one handle on its buffer.
-/

namespace Logbook

/-- A stretch of a buffer. -/
structure Span where
  start : Nat
  stop : Nat
  deriving DecidableEq, Repr

namespace Span

def of (s : Span) (bs : Bytes) : Bytes := (bs.drop s.start).take (s.stop - s.start)

/-- The stretch of `bs` that follows this one. -/
def next (s : Span) (bs : Bytes) : Span := ⟨s.stop, s.stop + bs.length⟩

end Span

structure Snapshot where
  severity : Severity
  buffer : BufferId
  name : Span
  file : Span
  line : Span
  message : Span
  time : CivilTime
  deriving DecidableEq, Repr

namespace Snapshot

/-- The record that a snapshot shows, read from its buffer. -/
def record (s : Snapshot) (store : Store) : Record :=
  let bs := store.bytes s.buffer
  { severity := s.severity
    name := s.name.of bs
    file := s.file.of bs
    line := s.line.of bs
    message := s.message.of bs
    time := s.time }

/-- The snapshot of an entry whose texts fill a buffer. -/
def ofFilled (e : Entry) (b : BufferId) (time : CivilTime) : Snapshot :=
  let name : Span := ⟨0, e.name.length⟩
  let file := name.next e.file
  let line := file.next e.line
  let message := line.next e.message
  ⟨e.severity, b, name, file, line, message, time⟩

/-- Split the time of an entry whose texts are in a buffer; if that panics, the buffer is given back. -/
def finish (e : Entry) (isLocal : Bool) (b : BufferId) (store : Store)
    (offset : Int := Timestamp.localOffset) : Except Panic Snapshot × Store :=
  match e.time.decompose isLocal offset with
  | .ok time => (.ok (ofFilled e b time), store)
  | .error p => (.error p, store.release b)

/-- Copy an entry into a buffer that `acquire` gives. A buffer that others hold too is left as it is, and a
new one takes its place. -/
def capture (e : Entry) (isLocal : Bool) (acquire : Store → BufferId × Store) (store : Store)
    (offset : Int := Timestamp.localOffset) : Except Panic Snapshot × Store :=
  let (b, store) := acquire store
  match store.write? b (·.refill e.text) with
  | some store => finish e isLocal b store offset
  | none =>
    let (c, store) := store.acquireUnpooled
    let (result, store) := finish e isLocal c ((store.write? c (·.refill e.text)).getD store) offset
    (result, store.release b)

/-- One handle more on the buffer. -/
def clone (s : Snapshot) (store : Store) : Store := store.clone s.buffer

/-- The end of a snapshot. -/
def drop (s : Snapshot) (store : Store) : Store := store.release s.buffer

open Text (Shown)

def shown (s : Snapshot) (store : Store) : Shown :=
  let r := s.record store
  let text (bs : Bytes) : Shown := .text (Text.Utf8.lossy bs)
  .record "Snapshot"
    [("severity", .atom s.severity.title), ("name", text r.name), ("file", text r.file),
     ("line", text r.line), ("message", text r.message), ("time", s.time.shown)]

end Snapshot

end Logbook
