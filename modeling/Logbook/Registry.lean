import Logbook.Config
import Logbook.Logger

/-!
# Registries

A registry makes loggers on demand and keeps one for each name. New loggers share its default sink and its
factory. The root logger exists from the start.
-/

namespace Logbook

structure Registry where
  loggers : NameMap LoggerId
  defaultSink : SinkRef
  factory : FactoryId
  defaultLevel : Severity
  localTime : Bool
  root : LoggerId

namespace Registry

/-- The name of the logger that exists from the start. -/
def rootName : String := "ROOT"

/-- A logger as the registry makes it. -/
def newLogger (r : Registry) (name : String) : Logger :=
  { name := name
    gate := ⟨r.defaultLevel⟩
    sinks := [r.defaultSink]
    factory := r.factory
    localTime := r.localTime
    countFiltered := true
    metrics := .zero }

/-- The logger of a name, made if there is none. -/
def get (r : Registry) (name : String) (loggers : Table Logger) : LoggerId × Registry × Table Logger :=
  match r.loggers.find? name with
  | some id => (id, r, loggers)
  | none =>
    let id := loggers.next
    (id, { r with loggers := r.loggers.insert name id }, loggers.push (r.newLogger name))

/-- Give a logger a level, making it if there is none. -/
def setLevel (r : Registry) (loggers : Table Logger) (name : String) (level : Severity) :
    Registry × Table Logger :=
  let (id, r, loggers) := r.get name loggers
  (r, loggers.modify id (·.setLevel level))

/-- Give loggers the levels of a configuration. -/
def applyLevels (r : Registry) (levels : NameMap Severity) (loggers : Table Logger) :
    Registry × Table Logger :=
  levels.entries.foldl (fun (r, loggers) (name, level) => r.setLevel loggers name level) (r, loggers)

open Text (Shown)

def shown (r : Registry) : Shown :=
  .record "LogRegistry"
    [("loggers", .list (r.loggers.names.map .text)),
     ("default_level", .atom r.defaultLevel.title), ("local_time", .bool r.localTime)]

end Registry

/-- The settings of a registry before it is made. -/
structure RegistryPlan where
  sink : Option SinkRef
  source : Option Source
  level : Severity
  localTime : Bool
  limits : PoolLimits
  levels : NameMap Severity

namespace RegistryPlan

def standard : RegistryPlan := ⟨none, none, Logger.standardLevel, false, .unbounded, .empty⟩

instance : Inhabited RegistryPlan := ⟨standard⟩

/-- Take over all that a configuration says. -/
def configure (p : RegistryPlan) (c : Config) : RegistryPlan :=
  { p with
    level := c.defaultLevel
    localTime := c.localTime
    limits := c.pool
    levels := c.levels }

/-- Make the factory: the given one, or one over a new pool. -/
def makeFactory (p : RegistryPlan) (store : Store) : FactoryId × Store :=
  match p.source with
  | some source => store.addFactory source
  | none =>
    let (pool, store) := store.addPool p.limits
    store.addFactory (.pool pool)

/-- Make the registry. Without a sink of its own it writes to `console`. -/
def build (p : RegistryPlan) (console : SinkRef) (store : Store) (loggers : Table Logger) :
    Registry × Store × Table Logger :=
  let (factory, store) := p.makeFactory store
  let bare : Registry :=
    { loggers := .empty
      defaultSink := p.sink.getD console
      factory := factory
      defaultLevel := p.level
      localTime := p.localTime
      root := loggers.next }
  let (_, registry, loggers) := bare.get Registry.rootName loggers
  let (registry, loggers) := registry.applyLevels p.levels loggers
  (registry, store, loggers)

end RegistryPlan

end Logbook
