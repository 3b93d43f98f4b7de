/-!
# Limits of a pool

How many released nodes and slots a pool keeps for reuse. No limit is `none`.
-/

namespace Logbook

structure PoolLimits where
  maxFreeNodes : Option Nat
  maxFreeSlots : Option Nat
  deriving DecidableEq, Repr

namespace PoolLimits

def unbounded : PoolLimits := ⟨none, none⟩

instance : Inhabited PoolLimits := ⟨unbounded⟩

end PoolLimits

end Logbook
