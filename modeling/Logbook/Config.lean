import Logbook.Buffer.Limits
import Logbook.Error
import Logbook.Json.Skip
import Logbook.NameMap
import Logbook.Severity

/-!
# Configuration of a registry

The settings of a registry as data: the level and the clock of new loggers, levels of loggers by name, and the
limits of the buffer pool. They are read from JSON and written as JSON.

Reading takes an object whose members are optional and come in any order, or a list of the fields in order. A
field that is unknown or given twice is refused, except that unknown fields of the pool are passed over. In
`levels` the last of several members with one name counts.
-/

namespace Logbook

structure Config where
  defaultLevel : Severity
  localTime : Bool
  levels : NameMap Severity
  pool : PoolLimits
  deriving DecidableEq, Repr

namespace Config

def default : Config := ⟨.info, false, .empty, .unbounded⟩

instance : Inhabited Config := ⟨default⟩

/-- Every logger needs a name. -/
def validate (c : Config) : Except Error Unit :=
  if c.levels.contains "" then
    .error (.invalidConfiguration "levels" "logger names must not be empty")
  else .ok ()

/-! ### Reading -/

open Json (Reader)

/-- A severity by its word. -/
def readSeverity : Reader Severity := fun cs => do
  let (text, rest) ← Json.readString cs
  match Severity.parse? text with
  | some s => return (s, rest)
  | none => throw (.floating (.invalidLevel text) rest)

/-- One member of the levels. -/
def levelMember (levels : NameMap Severity) (name : String) : Reader (NameMap Severity) := fun cs => do
  let (level, rest) ← readSeverity (← Json.readColon cs)
  return (levels.insert name level, rest)

/-- An object of levels by name. -/
def readLevels : Reader (NameMap Severity) := fun cs =>
  match Json.skipBlanks cs with
  | '{' :: rest => Json.readMembers levelMember .empty rest
  | cs => .error (Json.wrongKind "a map" cs)

/-- A field read once; a second occurrence is refused before its value is looked at. -/
def readOnce {α σ : Type} (name : String) (field : Option α) (read : Reader α) (store : α → σ) :
    Reader σ := fun cs =>
  match field with
  | some _ => .error (.floating (.duplicateField name) cs)
  | none => do
    let (a, rest) ← read (← Json.readColon cs)
    return (store a, rest)

/-- The limits of the pool as far as they have been read. -/
structure LimitsDraft where
  nodes : Option (Option Nat)
  slots : Option (Option Nat)

namespace LimitsDraft

def none : LimitsDraft := ⟨.none, .none⟩

def complete (p : LimitsDraft) : PoolLimits := ⟨p.nodes.join, p.slots.join⟩

/-- One member of the pool limits. -/
def member (p : LimitsDraft) (name : String) : Reader LimitsDraft :=
  match name with
  | "max_free_nodes" => readOnce name p.nodes Json.readCount ({ p with nodes := some · })
  | "max_free_slots" => readOnce name p.slots Json.readCount ({ p with slots := some · })
  | _ => fun cs => do
    let (_, rest) ← Json.skipValue .loose (← Json.readColon cs)
    return (p, rest)

/-- The fields in order. -/
def elements : List (LimitsDraft → Reader LimitsDraft) :=
  [fun p cs => (Json.readCount cs).map fun (n, rest) => ({ p with nodes := some n }, rest),
   fun p cs => (Json.readCount cs).map fun (n, rest) => ({ p with slots := some n }, rest)]

end LimitsDraft

/-- The limits of the pool. -/
def readLimits : Reader PoolLimits := fun cs =>
  (Json.readRecord "struct PoolLimits" LimitsDraft.member LimitsDraft.elements .none cs).map
    fun (p, rest) => (p.complete, rest)

/-- A configuration as far as it has been read. -/
structure Draft where
  defaultLevel : Option Severity
  localTime : Option Bool
  levels : Option (NameMap Severity)
  pool : Option PoolLimits

namespace Draft

def none : Draft := ⟨.none, .none, .none, .none⟩

/-- Fields that were left out have their defaults. -/
def complete (p : Draft) : Config :=
  { defaultLevel := p.defaultLevel.getD default.defaultLevel
    localTime := p.localTime.getD default.localTime
    levels := p.levels.getD default.levels
    pool := p.pool.getD default.pool }

/-- The names of the fields in order. -/
def fields : List String := ["default_level", "local_time", "levels", "pool"]

/-- One member of a configuration. -/
def member (p : Draft) (name : String) : Reader Draft :=
  match name with
  | "default_level" => readOnce name p.defaultLevel readSeverity ({ p with defaultLevel := some · })
  | "local_time" => readOnce name p.localTime Json.readBool ({ p with localTime := some · })
  | "levels" => readOnce name p.levels readLevels ({ p with levels := some · })
  | "pool" => readOnce name p.pool readLimits ({ p with pool := some · })
  | _ => fun cs => .error (.floating (.unknownField name fields) cs)

/-- The fields in order. -/
def elements : List (Draft → Reader Draft) :=
  [fun p cs => (readSeverity cs).map fun (s, rest) => ({ p with defaultLevel := some s }, rest),
   fun p cs => (Json.readBool cs).map fun (b, rest) => ({ p with localTime := some b }, rest),
   fun p cs => (readLevels cs).map fun (m, rest) => ({ p with levels := some m }, rest),
   fun p cs => (readLimits cs).map fun (l, rest) => ({ p with pool := some l }, rest)]

end Draft

/-- A configuration. -/
def read : Reader Config := fun cs =>
  (Json.readRecord "struct RegistryConfig" Draft.member Draft.elements .none cs).map
    fun (p, rest) => (p.complete, rest)

/-- Read a configuration from a text and check it. -/
def parse (text : String) : Except Error Config := do
  let config ← (Json.readWhole read text).mapError .json
  config.validate
  return config

/-! ### Writing -/

/-- A line break and an indentation of so many steps. -/
def newline (depth : Nat) : List Char := '\n' :: List.replicate (2 * depth) ' '

/-- A key with its colon. -/
def writeKey (name : String) : List Char := Json.writeText name ++ [':', ' ']

/-- The members of an object that stands at a depth. -/
def writeMembers (depth : Nat) (members : List (List Char)) : List Char :=
  match members with
  | [] => ['{', '}']
  | members =>
    let lines := members.map (newline (depth + 1) ++ ·)
    '{' :: (List.intercalate [','] lines ++ newline depth ++ ['}'])

def writeSeverity (s : Severity) : List Char := Json.writeText s.key

def writeCount : Option Nat → List Char
  | some n => Nat.toDigits 10 n
  | none => "null".toList

def writeLevels (levels : NameMap Severity) : List Char :=
  writeMembers 1 (levels.entries.map fun (name, s) => writeKey name ++ writeSeverity s)

def writeLimits (l : PoolLimits) : List Char :=
  writeMembers 1
    [writeKey "max_free_nodes" ++ writeCount l.maxFreeNodes,
     writeKey "max_free_slots" ++ writeCount l.maxFreeSlots]

/-- A configuration as JSON, indented by two blanks for each depth. -/
def write (c : Config) : String :=
  String.ofList <| writeMembers 0
    [writeKey "default_level" ++ writeSeverity c.defaultLevel,
     writeKey "local_time" ++ (toString c.localTime).toList,
     writeKey "levels" ++ writeLevels c.levels,
     writeKey "pool" ++ writeLimits c.pool]

end Config

/-- Read a severity from a JSON text. -/
def Severity.parseJson (text : String) : Except Error Severity :=
  (Json.readWhole Config.readSeverity text).mapError .json

/-- Read a severity from a word. -/
def Severity.parse (text : String) : Except Error Severity :=
  match Severity.parse? text with
  | some s => .ok s
  | none => .error (.invalidLevel text)

end Logbook
