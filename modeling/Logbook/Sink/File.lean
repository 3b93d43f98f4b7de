import Logbook.Sink.Disk
import Logbook.Text.Shown

/-!
# File sinks

Lines go to a file through a write buffer. A write that does not fit into the room left empties the buffer
first; a write that is as large as the buffer is passed straight on. A transfer to a device without space
fails and leaves the buffer as it is.
-/

namespace Logbook

/-- Octets on their way to a file, and how many of them may wait. -/
structure FileWriter where
  capacity : Nat
  pending : Tape

/-- What a step of a writer leads to: the octets that reached the file, and the failure if there was one. -/
structure Transfer where
  writer : FileWriter
  emitted : Bytes
  failure : Option SystemError

namespace FileWriter

/-- The room of a writer unless another is asked for. -/
def standardCapacity : Nat := 64 * 1024

/-- A writer with nothing waiting. Its room has to fit into memory. -/
def ofCapacity (capacity : Nat) : Except Panic FileWriter :=
  if maxAllocation < capacity then .error .capacityOverflow else .ok ⟨capacity, .empty⟩

def spare (w : FileWriter) : Nat := w.capacity - w.pending.length

/-- Pass on what is waiting. -/
def flush (w : FileWriter) (full : Bool) : Transfer :=
  if w.pending.isEmpty then ⟨w, [], none⟩
  else if full then ⟨w, [], some .noSpace⟩
  else ⟨{ w with pending := .empty }, w.pending.bytes, none⟩

/-- Take octets into the buffer, or pass them on if they are as large as it. -/
def accept (w : FileWriter) (full : Bool) (bs : Bytes) : Transfer :=
  if bs.length < w.capacity then ⟨{ w with pending := w.pending.push bs }, [], none⟩
  else if full && !bs.isEmpty then ⟨w, [], some .noSpace⟩
  else ⟨w, bs, none⟩

/-- Write octets. -/
def write (w : FileWriter) (full : Bool) (bs : Bytes) : Transfer :=
  if bs.length < w.spare then ⟨{ w with pending := w.pending.push bs }, [], none⟩
  else if w.spare < bs.length then
    let first := w.flush full
    match first.failure with
    | some _ => first
    | none =>
      let second := first.writer.accept full bs
      { second with emitted := first.emitted ++ second.emitted }
  else w.accept full bs

end FileWriter

/-- A log file and its writer, which is gone once the file is closed. -/
structure FileSink where
  path : String
  target : FileTarget
  writer : Option FileWriter

namespace FileSink

open Text (Shown)

def outcome : Option SystemError → Outcome
  | some e => .failed (.system e)
  | none => .done

/-- Let the writer make a step, and put what it emits on the disk. -/
def transfer (f : FileSink) (disk : Disk) (step : FileWriter → Bool → Transfer) (closed : Outcome) :
    Outcome × FileSink × Disk :=
  match f.writer with
  | none => (closed, f, disk)
  | some w =>
    let t := step w (f.target = .fullDevice)
    (outcome t.failure, { f with writer := some t.writer }, disk.append f.target t.emitted)

/-- Write octets; a closed file refuses them. -/
def write (f : FileSink) (disk : Disk) (bs : Bytes) : Outcome × FileSink × Disk :=
  f.transfer disk (·.write · bs) (.failed (.stopped f.path))

/-- Pass on what is waiting. -/
def flush (f : FileSink) (disk : Disk) : Outcome × FileSink × Disk :=
  f.transfer disk (·.flush ·) .done

/-- Pass on what is waiting and close the file, whether that went well or not. -/
def close (f : FileSink) (disk : Disk) : Outcome × FileSink × Disk :=
  let (outcome, f, disk) := f.flush disk
  (outcome, { f with writer := none }, disk)

def shown (f : FileSink) : Shown := .record "FileSink" [("path", .text f.path)]

end FileSink

end Logbook
