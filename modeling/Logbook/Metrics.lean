import Logbook.Text.Shown

/-!
# Counters of a logger

Entries delivered, entries turned away by the logger's gate, and sink calls that failed.
-/

namespace Logbook

structure Metrics where
  logged : Nat
  filtered : Nat
  failures : Nat
  deriving DecidableEq, Repr

namespace Metrics

def zero : Metrics := ⟨0, 0, 0⟩

def countLogged (m : Metrics) : Metrics := { m with logged := m.logged + 1 }

def countFiltered (m : Metrics) : Metrics := { m with filtered := m.filtered + 1 }

def countFailure (m : Metrics) : Metrics := { m with failures := m.failures + 1 }

/-- A share of a whole in per cent; zero where the whole is. -/
def percentage (part whole : Nat) : Float :=
  if whole = 0 then 0.0 else part.toFloat / whole.toFloat * 100.0

/-- Failures for each hundred entries delivered. -/
def failureRate (m : Metrics) : Float := percentage m.failures m.logged

open Text (Shown)

def shown (m : Metrics) : Shown :=
  .record "LoggerMetrics"
    [("total_logged", .nat m.logged), ("filtered", .nat m.filtered), ("sink_failures", .nat m.failures)]

end Metrics

end Logbook
