import Logbook.Proofs.Ledger
import Mathlib.Data.List.Infix
import Mathlib.Order.Bounds.Basic

/-!
# Peak use

A pool that gives up nothing makes a new part only while all others are in use. What it has made is then the largest
number of its buffers that were ever live at one time. Nodes and slots have limits of their own, and the law holds of
each kind that has none.
-/

namespace Logbook

namespace Parts

variable {α : Type} {p : Parts α} {limit : Option Nat} {live acquired peak : Nat}

/- Nothing was given up, and as many parts were made as were ever in use at one time. -/
structure Peaked (p : Parts α) (peak : Nat) : Prop where
  freed : p.counts.freed = 0
  allocated : p.counts.allocated = peak

theorem Peaked.max_live (h : p.Peaked peak) (hbal : p.Balanced limit live acquired) : p.Peaked (max live peak) := by
  have hconserved := hbal.conserved
  have hmade := h.allocated
  refine ⟨h.freed, ?_⟩
  omega

theorem Peaked.take (h : p.Peaked peak) (hbal : p.Balanced limit live acquired) (fresh : α) :
    (p.take fresh).2.Peaked (max (live + 1) peak) := by
  have hlen := hbal.within.length_eq
  have hconserved := hbal.conserved
  have hfreed := h.freed
  have hmade := h.allocated
  obtain ⟨a, rest, hitems, htake⟩ | ⟨hitems, htake⟩ := p.take_cases fresh
  · -- one is parked, so the buffer is within what was made
    rw [hitems, List.length_cons] at hlen
    rw [htake]
    refine ⟨hfreed, ?_⟩
    show p.counts.allocated = max (live + 1) peak
    omega
  · -- none is parked, so all that were made are in use and this is a new peak
    rw [hitems, List.length_nil] at hlen
    rw [htake]
    refine ⟨hfreed, ?_⟩
    show p.counts.allocated + 1 = max (live + 1) peak
    omega

theorem Peaked.park (h : p.Peaked peak) (a : α) : (p.park none a).Peaked peak := by
  obtain ⟨-, hpark⟩ | ⟨hfull, -⟩ := p.park_cases none a
  · rw [hpark]
    exact ⟨h.freed, h.allocated⟩
  · cases hfull

end Parts

namespace Pool

variable {pool : Pool} {live acquired peak : Nat}

/- The law of each kind of part, where it has no limit. -/
structure Peaked (pool : Pool) (peak : Nat) : Prop where
  nodes : pool.limits.maxFreeNodes = none → pool.nodes.Peaked peak
  slots : pool.limits.maxFreeSlots = none → pool.slots.Peaked peak

theorem peaked_ofLimits (limits : PoolLimits) : (ofLimits limits).Peaked 0 :=
  ⟨fun _ => ⟨rfl, rfl⟩, fun _ => ⟨rfl, rfl⟩⟩

theorem Peaked.max_live (h : pool.Peaked peak) (hbal : pool.Balanced live acquired) : pool.Peaked (max live peak) :=
  ⟨fun hnone => (h.nodes hnone).max_live hbal.nodes, fun hnone => (h.slots hnone).max_live hbal.slots⟩

theorem Peaked.take (h : pool.Peaked peak) (hbal : pool.Balanced live acquired) (fresh : Nat) :
    (pool.take fresh).2.Peaked (max (live + 1) peak) :=
  ⟨fun hnone => (h.nodes hnone).take hbal.nodes _, fun hnone => (h.slots hnone).take hbal.slots _⟩

theorem Peaked.recycle (h : pool.Peaked peak) (node : Node) (slot : Slot) : (pool.recycle node slot).Peaked peak := by
  refine ⟨fun hnone => ?_, fun hnone => ?_⟩
  · have hlimit : pool.limits.maxFreeNodes = none := hnone
    show (pool.nodes.park pool.limits.maxFreeNodes node.clear).Peaked peak
    rw [hlimit]
    exact (h.nodes hlimit).park _
  · have hlimit : pool.limits.maxFreeSlots = none := hnone
    show (pool.slots.park pool.limits.maxFreeSlots { slot with pool := none }).Peaked peak
    rw [hlimit]
    exact (h.slots hlimit).park _

end Pool

/-! ### What operations do to one pool -/

namespace Store

variable {s s' : Store} {p : PoolId} {pool : Pool}

/-- A pool stays as it is, hands out a buffer, or takes back the parts of one. -/
inductive Turns (s s' : Store) (p : PoolId) (pool : Pool) : Prop where
  | stays (hpool : s'.pools.get? p = some pool) (hlive : s'.liveOf p = s.liveOf p)
  | takes (fresh : Nat) (hpool : s'.pools.get? p = some (pool.take fresh).2) (hlive : s'.liveOf p = s.liveOf p + 1)
  | recycles (node : Node) (slot : Slot) (hpool : s'.pools.get? p = some (pool.recycle node slot))
    (hlive : s'.liveOf p + 1 = s.liveOf p)

theorem turns_acquirePooled (hp : s.pools.get? p = some pool) (q : PoolId) :
    s.Turns (s.acquirePooled q).2 p pool := by
  cases hq : s.pools.get? q with
  | none =>
    rw [acquirePooled_of_none hq]
    exact .stays hp (liveOf_acquireUnpooled s p)
  | some other =>
    have hlive := liveOf_acquirePooled hq p
    have hget : (s.acquirePooled q).2.pools.get? p =
        if p = q then (s.pools.get? p).map fun _ => (other.take s.buffers.next).2 else s.pools.get? p := by
      rw [acquirePooled_of_some hq]
      exact Table.get?_set _ _ _ _
    by_cases hpq : p = q
    · subst hpq
      obtain rfl : other = pool := by simpa [hp] using hq.symm
      rw [if_pos rfl] at hget hlive
      exact .takes s.buffers.next (by rw [hget, hp]; rfl) hlive
    · rw [if_neg hpq] at hget
      rw [if_neg (Ne.symm hpq)] at hlive
      exact .stays (hget.trans hp) hlive

theorem turns_set (hp : s.pools.get? p = some pool) {b : BufferId} {old : Buffer} (new : Buffer)
    (hold : s.buffers.get? b = some old) (hpool : new.slot.pool = old.slot.pool) :
    s.Turns { s with buffers := s.buffers.set b new } p pool :=
  .stays hp (liveOf_set new hold hpool p)

theorem turns_clone (hp : s.pools.get? p = some pool) (b : BufferId) : s.Turns (s.clone b) p pool := by
  cases hb : s.buffers.get? b with
  | none =>
    rw [clone_of_none hb]
    exact .stays hp rfl
  | some x =>
    rw [clone_of_some hb]
    exact turns_set hp (moreOne x) hb rfl

theorem turns_write? (hp : s.pools.get? p = some pool) (b : BufferId) (f : Node → Node) :
    s.Turns ((s.write? b f).getD s) p pool := by
  cases hb : s.buffers.get? b with
  | none =>
    rw [write?_of_none hb]
    exact .stays hp rfl
  | some x =>
    by_cases hrefs : x.slot.refs = 1
    · rw [write?_of_unique hb hrefs]
      exact turns_set hp { x with node := f x.node } hb rfl
    · rw [write?_of_shared hb hrefs]
      exact .stays hp rfl

theorem turns_release (hp : s.pools.get? p = some pool) (b : BufferId) : s.Turns (s.release b) p pool := by
  cases hb : s.buffers.get? b with
  | none =>
    rw [release_of_none hb]
    exact .stays hp rfl
  | some x =>
    by_cases hrefs : x.slot.refs = 1
    · have herase := Table.total_erase hb fun y => if y.slot.pool = some p then 1 else 0
      have hget := s.get?_poolsAfter x p
      rw [release_of_last hb hrefs]
      by_cases hpool : x.slot.pool = some p
      · rw [if_pos hpool] at herase hget
        exact .recycles x.node (lessOne x).slot (by rw [hget, hp]; rfl) herase.symm
      · rw [if_neg hpool] at herase hget
        exact .stays (hget.trans hp) herase.symm
    · rw [release_of_shared hb hrefs]
      exact turns_set hp (lessOne x) hb rfl

theorem Turns.peaked (h : s.Turns s' p pool) {acquired peak : Nat} (hbal : pool.Balanced (s.liveOf p) acquired)
    (hpeaked : pool.Peaked peak) :
    ∃ pool', s'.pools.get? p = some pool' ∧ pool'.Peaked (max (s'.liveOf p) peak) := by
  cases h with
  | stays hpool hlive =>
    rw [hlive]
    exact ⟨pool, hpool, hpeaked.max_live hbal⟩
  | takes fresh hpool hlive =>
    rw [hlive]
    exact ⟨_, hpool, hpeaked.take hbal fresh⟩
  | recycles node slot hpool hlive =>
    rw [← hlive] at hbal
    exact ⟨_, hpool, (hpeaked.recycle node slot).max_live (hbal.recycle node slot)⟩

end Store

/-! ### Runs -/

namespace Ledger

variable {limits : List PoolLimits} {p : PoolId}

theorem turns_step {l : Ledger} {pool : Pool} (hp : l.store.pools.get? p = some pool) (op : HandleOp) :
    l.store.Turns (l.step op).store p pool := by
  -- an operation on a handle that is gone does nothing
  have hhandle : ∀ (h : HandleId) (act : BufferId → Ledger), (∀ b, l.store.Turns (act b).store p pool) →
      l.store.Turns (l.withHandle h act).store p pool := by
    intro h act hact
    cases hget : l.handles.get? h with
    | none =>
      rw [withHandle_of_none hget]
      exact .stays hp rfl
    | some b =>
      rw [withHandle_of_some hget]
      exact hact b
  cases op with
  | acquire q => exact Store.turns_acquirePooled hp q
  | acquireUnpooled => exact .stays hp (Store.liveOf_acquireUnpooled l.store p)
  | clone h => exact hhandle h _ fun b => Store.turns_clone hp b
  | write h edit => exact hhandle h _ fun b => Store.turns_write? hp b edit.run
  | drop h => exact hhandle h _ fun b => Store.turns_release hp b

/-- How many buffers of a pool were live at the points of a run, its start and its end included. -/
def lives (limits : List PoolLimits) (p : PoolId) (ops : List HandleOp) : Set Nat :=
  { n | ∃ past, past <+: ops ∧ ((start limits).run past).store.liveOf p = n }

theorem lives_nil : lives limits p [] = {0} := by
  have hzero : (start limits).store.liveOf p = 0 := by
    unfold Store.liveOf
    rw [buffers_start]
    rfl
  ext n
  simp only [lives, List.prefix_nil, exists_eq_left, Set.mem_ofPred_eq, Set.mem_singleton_iff]
  exact ⟨fun h => h.symm.trans hzero, fun h => hzero.trans h.symm⟩

theorem lives_concat (ops : List HandleOp) (op : HandleOp) :
    lives limits p (ops ++ [op]) =
      insert (((start limits).run (ops ++ [op])).store.liveOf p) (lives limits p ops) := by
  ext n
  simp only [lives, List.prefix_concat_iff, Set.mem_ofPred_eq, Set.mem_insert_iff, or_and_right, exists_or,
    exists_eq_left, eq_comm]

theorem run_concat (l : Ledger) (ops : List HandleOp) (op : HandleOp) : l.run (ops ++ [op]) = (l.run ops).step op := by
  simp [run]

/- The peak of a run is the greater of the peak before its last operation and what is live behind it. -/
theorem exists_peak (hp : p < limits.length) (ops : List HandleOp) :
    ∃ peak pool, IsGreatest (lives limits p ops) peak ∧
      ((start limits).run ops).store.pools.get? p = some pool ∧ pool.Peaked peak := by
  induction ops using List.reverseRecOn with
  | nil =>
    refine ⟨0, .ofLimits limits[p], ?_, ?_, Pool.peaked_ofLimits _⟩
    · rw [lives_nil]
      exact isGreatest_singleton
    · have hpool := pools_start limits p
      rw [List.getElem?_eq_getElem hp] at hpool
      exact hpool
  | append_singleton ops op ih =>
    obtain ⟨peak, pool, hpeak, hpool, hpeaked⟩ := ih
    have hbal := ((inv_start limits).run ops).balanced p pool hpool
    obtain ⟨pool', hpool', hpeaked'⟩ := (turns_step hpool op).peaked hbal hpeaked
    refine ⟨_, pool', ?_, ?_, hpeaked'⟩
    · rw [lives_concat, run_concat]
      exact hpeak.insert _
    · rw [run_concat]
      exact hpool'

/-- A pool whose nodes have no limit has made as many as its buffers that were live at one time, at the point of the
run at which they were most, and has given up none; and so for slots. While no more than `k` buffers are live, `k`
nodes and `k` slots are enough. No count passes the number of operations. -/
theorem allocated_eq_peak (limits : List PoolLimits) (p : PoolId) (hp : p < limits.length) (ops : List HandleOp) :
    ∃ pool, ((start limits).run ops).store.pools.get? p = some pool ∧ pool.limits = limits[p] ∧
      (limits[p].maxFreeNodes = none →
        IsGreatest (lives limits p ops) pool.nodes.counts.allocated ∧ pool.nodes.counts.freed = 0) ∧
      (limits[p].maxFreeSlots = none →
        IsGreatest (lives limits p ops) pool.slots.counts.allocated ∧ pool.slots.counts.freed = 0) ∧
      (∀ k, (∀ past, past <+: ops → ((start limits).run past).store.liveOf p ≤ k) →
        (limits[p].maxFreeNodes = none → pool.nodes.counts.allocated ≤ k) ∧
        (limits[p].maxFreeSlots = none → pool.slots.counts.allocated ≤ k)) ∧
      pool.nodes.counts.allocated ≤ ops.length ∧ pool.slots.counts.allocated ≤ ops.length := by
  obtain ⟨peak, pool, hpeak, hpool, hpeaked⟩ := exists_peak hp ops
  have hlimits : pool.limits = limits[p] := by
    have hrun := limitsOf_run (start limits) ops p
    unfold Store.limitsOf at hrun
    rw [hpool, pools_start, List.getElem?_eq_getElem hp] at hrun
    exact Option.some.inj hrun
  obtain ⟨hnodes, hslots⟩ := hpeaked
  rw [hlimits] at hnodes hslots
  have hbal := ((inv_start limits).run ops).balanced p pool hpool
  have hcount : ops.countP (·.isAcquire p) ≤ ops.length := List.countP_le_length
  refine ⟨pool, hpool, hlimits, fun hnone => ?_, fun hnone => ?_, fun k hk => ?_, ?_, ?_⟩
  · exact ⟨(hnodes hnone).allocated ▸ hpeak, (hnodes hnone).freed⟩
  · exact ⟨(hslots hnone).allocated ▸ hpeak, (hslots hnone).freed⟩
  · obtain ⟨past, hpast, hlive⟩ := hpeak.1
    have hle := hk past hpast
    refine ⟨fun hnone => ?_, fun hnone => ?_⟩
    · rw [(hnodes hnone).allocated, ← hlive]
      exact hle
    · rw [(hslots hnone).allocated, ← hlive]
      exact hle
  · have hout := hbal.nodes.handedOut
    omega
  · have hout := hbal.slots.handedOut
    omega

/- The first buffer lives on in its clone while the second comes and goes and comes again. The nodes of the pool have no
limit, and of its slots one is given up in the end. -/
theorem allocated_eq_peak_cloned :
    let limits : List PoolLimits := [⟨some 0, some 0⟩, ⟨none, some 1⟩]
    let ops : List HandleOp :=
      [.acquire 1, .clone 0, .acquire 1, .drop 0, .drop 2, .acquire 1, .acquire 0, .drop 1, .drop 3]
    limits[1].maxFreeNodes = none ∧ IsGreatest (lives limits 1 ops) 2 ∧
      ∃ pool, ((start limits).run ops).store.pools.get? 1 = some pool ∧
        pool.nodes.counts = ⟨2, 1, 0⟩ ∧ pool.slots.counts = ⟨2, 1, 1⟩ := by
  intro limits ops
  obtain ⟨pool, hpool, -, hnodes, -⟩ := allocated_eq_peak limits 1 (by decide) ops
  have hcounts : (((start limits).run ops).store.pools.get? 1).map (fun x => (x.nodes.counts, x.slots.counts)) =
      some (⟨2, 1, 0⟩, ⟨2, 1, 1⟩) := by decide
  rw [hpool, Option.map_some, Option.some.injEq, Prod.mk.injEq] at hcounts
  refine ⟨rfl, ?_, pool, hpool, hcounts.1, hcounts.2⟩
  have hpeak := (hnodes rfl).1
  rw [hcounts.1] at hpeak
  exact hpeak

end Ledger

end Logbook
