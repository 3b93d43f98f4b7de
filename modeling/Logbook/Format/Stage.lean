import Logbook.Entry
import Logbook.Format.SecondCache
import Logbook.Path

/-!
# Stages

A stage appends one part of a line. It sees the record and the calendar cache of its formatter. The stage
`reenter` renders the record once more with the whole formatter; that inner rendering works on a cache of
its own, and in it the stage does nothing.
-/

namespace Logbook

inductive Stage where
  /-- Time, through the cache. -/
  | timestamp
  /-- ` [SEV] ` -/
  | severity
  /-- The logger's name and a blank. -/
  | name
  /-- `file:line `, the file shortened. -/
  | location
  /-- The message and a line feed. -/
  | message
  /-- The five parts above in that order. -/
  | standard
  /-- Date and time of day, through the cache. -/
  | calendar
  /-- Time, past the cache. -/
  | plainTimestamp
  /-- The milliseconds as a number. -/
  | millis
  /-- The counters of the cache. -/
  | cacheCounts
  /-- The whole formatter again. -/
  | reenter
  /-- A fixed text. -/
  | fixed (text : Bytes)
  /-- The last segments of the file. -/
  | path (segments : Nat)
  /-- A panic. -/
  | panic (message : String)
  deriving DecidableEq, Repr

namespace Stage

/-- Segments of the file that the location shows. -/
def locationSegments : Nat := 3

/-- `YYYY-MM-DD HH:MM:SS.ssssss[Z]`, the calendar part through the cache. -/
def writeTimestamp (r : Record) (c : SecondCache) : Written × SecondCache :=
  let (date, c) := c.calendar r.time
  (date ++ r.time.subsecond, c)

/-- ` [SEV] ` -/
def severityText (r : Record) : Bytes :=
  utf8 " [" ++ Severity.column r.severity.rank ++ utf8 "] "

def nameText (r : Record) : Bytes := r.name ++ utf8 " "

def locationText (r : Record) : Bytes :=
  Path.lastSegments locationSegments r.file ++ utf8 ":" ++ r.line ++ utf8 " "

def messageText (r : Record) : Bytes := r.message ++ utf8 "\n"

/-- Everything that follows the time in a standard line. -/
def standardTail (r : Record) : Bytes :=
  severityText r ++ nameText r ++ locationText r ++ messageText r

/-- What a stage appends, and the cache after it. `again` is the inner rendering of a stage that renders
the record once more. -/
def write (again : Unit → Written) (s : Stage) (r : Record) (c : SecondCache) :
    Written × SecondCache :=
  match s with
  | .timestamp => writeTimestamp r c
  | .severity => (.text (severityText r), c)
  | .name => (.text (nameText r), c)
  | .location => (.text (locationText r), c)
  | .message => (.text (messageText r), c)
  | .standard =>
    let (time, c) := writeTimestamp r c
    (time ++ .text (standardTail r), c)
  | .calendar => c.calendar r.time
  | .plainTimestamp => (r.time.timestamp, c)
  | .millis => (.text (Text.decimal r.time.milliseconds), c)
  | .cacheCounts =>
    (.text (Text.decimal c.hits ++ utf8 "/" ++ Text.decimal c.misses ++ utf8 ";"), c)
  | .reenter => (again (), c)
  | .fixed text => (.text text, c)
  | .path segments => (.text (Path.lastSegments segments r.file), c)
  | .panic text => (.panic (.text text), c)

/-- Stages one after another; a panic ends the line. -/
def writeAll (again : Unit → Written) : List Stage → Record → SecondCache → Written × SecondCache
  | [], _, c => (.empty, c)
  | s :: rest, r, c =>
    let (first, c) := s.write again r c
    match first.stop with
    | some _ => (first, c)
    | none =>
      let (others, c) := writeAll again rest r c
      (first ++ others, c)

end Stage

end Logbook
