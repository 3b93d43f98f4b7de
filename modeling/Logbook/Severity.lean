import Logbook.Bytes
import Logbook.Text.Upper

/-!
# Severities and gates

Seven severities in a fixed order, their spellings, and the gate that decides which of them pass. A gate at
level `l` lets `s` pass exactly when `l ≤ s`, so `off`, the least severity, is the widest gate.
-/

namespace Logbook

inductive Severity where
  | off
  | trace
  | debug
  | info
  | warn
  | error
  | fatal
  deriving DecidableEq, Repr

namespace Severity

/-- Every severity, from the least to the greatest. -/
def all : List Severity := [off, trace, debug, info, warn, error, fatal]

/-- New loggers and configurations start here. -/
instance : Inhabited Severity := ⟨info⟩

/-- The place of a severity in the order, which is also its number outside. -/
def rank : Severity → Nat
  | off => 0
  | trace => 1
  | debug => 2
  | info => 3
  | warn => 4
  | error => 5
  | fatal => 6

/-- The severity of a number, if there is one. -/
def ofRank? : Nat → Option Severity
  | 0 => some off
  | 1 => some trace
  | 2 => some debug
  | 3 => some info
  | 4 => some warn
  | 5 => some error
  | 6 => some fatal
  | _ => none

instance : LE Severity := ⟨fun a b => a.rank ≤ b.rank⟩

instance : LT Severity := ⟨fun a b => a.rank < b.rank⟩

instance (a b : Severity) : Decidable (a ≤ b) := inferInstanceAs (Decidable (a.rank ≤ b.rank))

instance (a b : Severity) : Decidable (a < b) := inferInstanceAs (Decidable (a.rank < b.rank))

theorem ofRank?_rank (s : Severity) : ofRank? s.rank = some s := by cases s <;> rfl

theorem rank_injective {a b : Severity} (h : a.rank = b.rank) : a = b := by
  have := ofRank?_rank a
  rw [h, ofRank?_rank] at this
  exact (Option.some.inj this).symm

/-- The word that is written into log lines. -/
def word : Severity → String
  | off => "OFF"
  | trace => "TRACE"
  | debug => "DEBUG"
  | info => "INFO"
  | warn => "WARN"
  | error => "ERROR"
  | fatal => "FATAL"

/-- The word that configurations use. -/
def key : Severity → String
  | off => "off"
  | trace => "trace"
  | debug => "debug"
  | info => "info"
  | warn => "warn"
  | error => "error"
  | fatal => "fatal"

/-- The word that diagnostic texts use. -/
def title : Severity → String
  | off => "Off"
  | trace => "Trace"
  | debug => "Debug"
  | info => "Info"
  | warn => "Warn"
  | error => "Error"
  | fatal => "Fatal"

/-- The severity that a word in upper case stands for; warnings have two spellings. -/
def ofWord? : String → Option Severity
  | "OFF" => some off
  | "TRACE" => some trace
  | "DEBUG" => some debug
  | "INFO" => some info
  | "WARN" => some warn
  | "WARNING" => some warn
  | "ERROR" => some error
  | "FATAL" => some fatal
  | _ => none

/-- Read a severity from a word in any case. Blanks are not skipped. -/
def parse? (s : String) : Option Severity := ofWord? (Text.upper s)

/-- The number of the terminal colour of a severity's lines. -/
def color : Severity → Nat
  | off => 37
  | trace => 90
  | debug => 34
  | info => 32
  | warn => 33
  | error => 31
  | fatal => 91

/-- The severities below `s`, ascending. -/
def below (s : Severity) : List Severity := all.filter (· < s)

/-- The word for a severity's number, which may be out of range. -/
def token (raw : Nat) : String := ((ofRank? raw).map word).getD "<unknown>"

/-- The width of the column that holds the word. -/
def columnWidth : Nat := 5

/-- The word for a severity's number, set against the right edge of its column. -/
def column (raw : Nat) : Bytes :=
  let text := utf8 (token raw)
  List.replicate (columnWidth - text.length) (ascii ' ') ++ text

end Severity

/-- A gate holds the least severity that may pass. -/
structure Gate where
  level : Severity
  deriving DecidableEq, Repr

namespace Gate

def passes (g : Gate) (s : Severity) : Bool := g.level ≤ s

/-- How many of the severities pass. -/
def width (g : Gate) : Nat := (Severity.all.filter g.passes).length

theorem passes_iff (g : Gate) (s : Severity) : g.passes s = true ↔ g.level ≤ s := by
  simp [passes]

end Gate

end Logbook
