import Logbook.Proofs.Accounts
import Logbook.Proofs.Ledger

/-!
# Exclusive writing

Handles and snapshots that are out on the buffers of one store. Handles are acquired, cloned, written through and
dropped, entries are captured, snapshots are cloned and dropped, and anyone may take a handle on the buffer of a
snapshot. On every such run a buffer can be written through its only handle and not otherwise, so that nobody else
sees a write, and a snapshot shows what it showed when it was captured for as long as it or a clone of it is there.
-/

namespace Logbook

abbrev SnapshotId := Nat

/-- A snapshot that is out, and what it showed when it was captured. A clone carries the same. -/
structure Captured where
  snapshot : Snapshot
  shown : Record

structure Shelf extends Ledger where
  snapshots : Table Captured

/-- What callers do with handles and snapshots. Those that are gone are passed by. -/
inductive ShelfOp where
  | handle (op : HandleOp)
  /-- Take a handle from a factory. -/
  | acquire (f : FactoryId)
  | capture (f : FactoryId) (e : Entry) (isLocal : Bool) (offset : Int)
  | cloneSnapshot (i : SnapshotId)
  /-- Take a handle on the buffer of a snapshot. -/
  | share (i : SnapshotId)
  | dropSnapshot (i : SnapshotId)
  | dropFactory (f : FactoryId)

theorem Snapshot.record_congr {s : Snapshot} {store store' : Store}
    (h : store'.bytes s.buffer = store.bytes s.buffer) : s.record store' = s.record store := by
  unfold Snapshot.record
  rw [h]

namespace Shelf

/-- Fresh pools and factories, numbered in order. Nothing is out. -/
def start (limits : List PoolLimits) (sources : List Source) : Shelf where
  store := sources.foldl (fun s source => (s.addFactory source).2) (Ledger.start limits).store
  handles := .empty
  snapshots := .empty

/-- Let `act` work on a snapshot, if it is out. -/
def withSnapshot (sh : Shelf) (i : SnapshotId) (act : Captured → Shelf) : Shelf :=
  match sh.snapshots.get? i with
  | some k => act k
  | none => sh

def step (sh : Shelf) : ShelfOp → Shelf
  | .handle op => { sh with toLedger := sh.toLedger.step op }
  | .acquire f =>
    let (b, store) := sh.store.acquire f
    { sh with store := store, handles := sh.handles.push b }
  | .capture f e isLocal offset =>
    match Snapshot.capture e isLocal (·.acquire f) sh.store offset with
    | (.ok s, store) => { sh with store := store, snapshots := sh.snapshots.push ⟨s, s.record store⟩ }
    | (.error _, store) => { sh with store := store }
  | .cloneSnapshot i => sh.withSnapshot i fun k =>
    { sh with store := k.snapshot.clone sh.store, snapshots := sh.snapshots.push k }
  | .share i => sh.withSnapshot i fun k =>
    { sh with store := sh.store.clone k.snapshot.buffer, handles := sh.handles.push k.snapshot.buffer }
  | .dropSnapshot i => sh.withSnapshot i fun k =>
    { sh with store := k.snapshot.drop sh.store, snapshots := sh.snapshots.erase i }
  | .dropFactory f => { sh with store := sh.store.dropFactory f }

def run (sh : Shelf) (ops : List ShelfOp) : Shelf := ops.foldl step sh

/-! ### What is out -/

/-- How many snapshots lie on a buffer. -/
def snapshotCount (sh : Shelf) (b : BufferId) : Nat :=
  sh.snapshots.total fun k => if k.snapshot.buffer = b then 1 else 0

def holdings (sh : Shelf) : Holdings := fun b => sh.handleCount b + sh.snapshotCount b

variable {sh : Shelf} {h : HandleId} {i : SnapshotId} {b : BufferId} {k : Captured}

theorem handleCount_pos (hget : sh.handles.get? h = some b) : 0 < sh.handleCount b := by
  have hle := Table.le_total hget fun c => if c = b then 1 else 0
  rw [if_pos rfl] at hle
  exact hle

theorem snapshotCount_pos (hget : sh.snapshots.get? i = some k) : 0 < sh.snapshotCount k.snapshot.buffer := by
  have hle := Table.le_total hget fun x => if x.snapshot.buffer = k.snapshot.buffer then 1 else 0
  rw [if_pos rfl] at hle
  exact hle

/-- The account is right, and every snapshot shows what it showed at first. -/
structure Inv (sh : Shelf) : Prop where
  accounted : sh.store.Accounted sh.holdings
  shows : ∀ i k, sh.snapshots.get? i = some k → k.snapshot.record sh.store = k.shown

theorem Inv.held_handle (hinv : sh.Inv) (hget : sh.handles.get? h = some b) : 0 < sh.store.refsOf b := by
  have hrefs := hinv.accounted.refs b
  have hpos := handleCount_pos hget
  unfold holdings at hrefs
  omega

theorem Inv.held_snapshot (hinv : sh.Inv) (hget : sh.snapshots.get? i = some k) :
    0 < sh.store.refsOf k.snapshot.buffer := by
  have hrefs := hinv.accounted.refs k.snapshot.buffer
  have hpos := snapshotCount_pos hget
  unfold holdings at hrefs
  omega

/-- Where the buffers of the snapshots keep their contents, the snapshots keep what they show. -/
theorem Inv.shows_of_bytes (hinv : sh.Inv) {store : Store}
    (hbytes : ∀ b, 0 < sh.snapshotCount b → store.bytes b = sh.store.bytes b) (hget : sh.snapshots.get? i = some k) :
    k.snapshot.record store = k.shown :=
  (Snapshot.record_congr (hbytes _ (snapshotCount_pos hget))).trans (hinv.shows i k hget)

theorem holdings_pos (hb : 0 < sh.snapshotCount b) : 0 < sh.holdings b := by
  unfold holdings
  omega

/-! ### One step -/

/- A new handle comes with a store in which only new buffers have changed. -/
theorem Inv.acquired (hinv : sh.Inv) {store : Store} (hgrown : Store.Grown sh.store store)
    (hacc : store.Accounted (sh.holdings.more b)) :
    ({ sh with store := store, handles := sh.handles.push b } : Shelf).Inv where
  accounted := hacc.congr fun c => by
    simp only [holdings, Ledger.handleCount, snapshotCount, Table.total_push, Holdings.more]
    omega
  shows _ _ hget := hinv.shows_of_bytes (fun _ hc => hinv.accounted.bytes_of_grown hgrown (holdings_pos hc)) hget

theorem Inv.clone_handle (hinv : sh.Inv) (hb : 0 < sh.store.refsOf b) :
    ({ sh with store := sh.store.clone b, handles := sh.handles.push b } : Shelf).Inv where
  accounted := (hinv.accounted.clone hb).congr fun c => by
    simp only [holdings, Ledger.handleCount, snapshotCount, Table.total_push, Holdings.more]
    omega
  shows _ _ hget := hinv.shows_of_bytes (fun _ _ => sh.store.bytes_clone b _) hget

/-- A buffer that a snapshot lies on is not written. -/
theorem Inv.bytes_write? (hinv : sh.Inv) (hget : sh.handles.get? h = some b) (f : Node → Node) {c : BufferId}
    (hc : 0 < sh.snapshotCount c) : ((sh.store.write? b f).getD sh.store).bytes c = sh.store.bytes c := by
  refine hinv.accounted.bytes_write? f fun he => ?_
  have hpos := handleCount_pos hget
  subst he
  unfold holdings
  omega

theorem Inv.write (hinv : sh.Inv) (hget : sh.handles.get? h = some b) (edit : Edit) :
    ({ sh with store := (sh.store.write? b edit.run).getD sh.store } : Shelf).Inv where
  accounted := hinv.accounted.write?_getD edit.keeps_id
  shows _ _ hk := hinv.shows_of_bytes (fun _ hc => hinv.bytes_write? hget edit.run hc) hk

theorem Inv.drop_handle (hinv : sh.Inv) (hget : sh.handles.get? h = some b) :
    ({ sh with store := sh.store.release b, handles := sh.handles.erase h } : Shelf).Inv := by
  have hacc : sh.store.Accounted
      (({ sh with store := sh.store.release b, handles := sh.handles.erase h } : Shelf).holdings.more b) := by
    refine hinv.accounted.congr fun c => ?_
    have herase := Table.total_erase hget fun x => if x = c then 1 else 0
    simp only [holdings, Ledger.handleCount, snapshotCount, Holdings.more]
    omega
  refine ⟨hacc.release, fun i k hk => hinv.shows_of_bytes (fun c hc => ?_) hk⟩
  exact hacc.bytes_release (holdings_pos hc)

theorem Inv.handle (hinv : sh.Inv) (op : HandleOp) : (sh.step (.handle op)).Inv := by
  cases op with
  | acquire p =>
    obtain ⟨x, hid, hpush, -⟩ := sh.store.acquirePooled_push p
    have hacc := hinv.accounted.acquirePooled p
    rw [← hid] at hacc
    exact hinv.acquired (Store.grown_push hpush) hacc
  | acquireUnpooled => exact hinv.acquired (Store.grown_push rfl) hinv.accounted.acquireUnpooled
  | clone h =>
    cases hget : sh.handles.get? h with
    | none =>
      rw [step, Ledger.step, Ledger.withHandle_of_none hget]
      exact hinv
    | some b =>
      rw [step, Ledger.step, Ledger.withHandle_of_some hget]
      exact hinv.clone_handle (hinv.held_handle hget)
  | write h edit =>
    cases hget : sh.handles.get? h with
    | none =>
      rw [step, Ledger.step, Ledger.withHandle_of_none hget]
      exact hinv
    | some b =>
      rw [step, Ledger.step, Ledger.withHandle_of_some hget]
      exact hinv.write hget edit
  | drop h =>
    cases hget : sh.handles.get? h with
    | none =>
      rw [step, Ledger.step, Ledger.withHandle_of_none hget]
      exact hinv
    | some b =>
      rw [step, Ledger.step, Ledger.withHandle_of_some hget]
      exact hinv.drop_handle hget

theorem Inv.capture (hinv : sh.Inv) (f : FactoryId) (e : Entry) (isLocal : Bool) (offset : Int) :
    (sh.step (.capture f e isLocal offset)).Inv := by
  have hentered := Snapshot.capture_entered e isLocal offset hinv.accounted f
  have hgrown := (Snapshot.capture_grown e isLocal offset f sh.store).1
  rw [step]
  cases hcapture : Snapshot.capture e isLocal (·.acquire f) sh.store offset with
  | mk result store =>
    rw [hcapture] at hentered hgrown
    have hbytes : ∀ b, 0 < sh.snapshotCount b → store.bytes b = sh.store.bytes b :=
      fun _ hb => hinv.accounted.bytes_of_grown hgrown (holdings_pos hb)
    cases result with
    | error p => exact ⟨hentered, fun i k hget => hinv.shows_of_bytes hbytes hget⟩
    | ok s =>
      refine ⟨Store.Accounted.congr hentered fun c => ?_, fun i k hget => ?_⟩
      · simp only [holdings, Ledger.handleCount, snapshotCount, Table.total_push, Holdings.more]
        omega
      · dsimp only at hget ⊢
        rw [Table.get?_push] at hget
        split at hget
        · cases hget
          rfl
        · exact hinv.shows_of_bytes hbytes hget

theorem Inv.clone_snapshot (hinv : sh.Inv) (hget : sh.snapshots.get? i = some k) :
    ({ sh with store := k.snapshot.clone sh.store, snapshots := sh.snapshots.push k } : Shelf).Inv := by
  refine ⟨(hinv.accounted.clone (hinv.held_snapshot hget)).congr fun c => ?_, fun j k' hk => ?_⟩
  · simp only [holdings, Ledger.handleCount, snapshotCount, Table.total_push, Holdings.more]
    omega
  · have hbytes : ∀ c, 0 < sh.snapshotCount c → (k.snapshot.clone sh.store).bytes c = sh.store.bytes c :=
      fun c _ => sh.store.bytes_clone _ c
    dsimp only at hk ⊢
    rw [Table.get?_push] at hk
    split at hk
    · cases hk
      exact hinv.shows_of_bytes hbytes hget
    · exact hinv.shows_of_bytes hbytes hk

theorem Inv.drop_snapshot (hinv : sh.Inv) (hget : sh.snapshots.get? i = some k) :
    ({ sh with store := k.snapshot.drop sh.store, snapshots := sh.snapshots.erase i } : Shelf).Inv := by
  have hacc : sh.store.Accounted (({ sh with
      store := k.snapshot.drop sh.store, snapshots := sh.snapshots.erase i } : Shelf).holdings.more
        k.snapshot.buffer) := by
    refine hinv.accounted.congr fun c => ?_
    have herase := Table.total_erase hget fun x => if x.snapshot.buffer = c then 1 else 0
    simp only [holdings, Ledger.handleCount, snapshotCount, Holdings.more]
    omega
  refine ⟨hacc.release, fun j k' hk => ?_⟩
  have hpos := holdings_pos (snapshotCount_pos hk)
  dsimp only at hk ⊢
  rw [Table.get?_erase] at hk
  split at hk
  · cases hk
  · exact (Snapshot.record_congr (hacc.bytes_release hpos)).trans (hinv.shows j k' hk)

theorem withSnapshot_of_some (hget : sh.snapshots.get? i = some k) (act : Captured → Shelf) :
    sh.withSnapshot i act = act k := by
  unfold withSnapshot
  rw [hget]

theorem withSnapshot_of_none (hget : sh.snapshots.get? i = none) (act : Captured → Shelf) :
    sh.withSnapshot i act = sh := by
  unfold withSnapshot
  rw [hget]

theorem Inv.step (hinv : sh.Inv) (op : ShelfOp) : (sh.step op).Inv := by
  cases op with
  | handle op => exact hinv.handle op
  | acquire f =>
    obtain ⟨hgrown, hid⟩ := sh.store.acquire_grown f
    have hacc := hinv.accounted.acquire f
    rw [← hid] at hacc
    exact hinv.acquired hgrown hacc
  | capture f e isLocal offset => exact hinv.capture f e isLocal offset
  | cloneSnapshot i =>
    cases hget : sh.snapshots.get? i with
    | none =>
      rw [Shelf.step, withSnapshot_of_none hget]
      exact hinv
    | some k =>
      rw [Shelf.step, withSnapshot_of_some hget]
      exact hinv.clone_snapshot hget
  | share i =>
    cases hget : sh.snapshots.get? i with
    | none =>
      rw [Shelf.step, withSnapshot_of_none hget]
      exact hinv
    | some k =>
      rw [Shelf.step, withSnapshot_of_some hget]
      exact hinv.clone_handle (hinv.held_snapshot hget)
  | dropSnapshot i =>
    cases hget : sh.snapshots.get? i with
    | none =>
      rw [Shelf.step, withSnapshot_of_none hget]
      exact hinv
    | some k =>
      rw [Shelf.step, withSnapshot_of_some hget]
      exact hinv.drop_snapshot hget
  | dropFactory f =>
    exact ⟨hinv.accounted.dropFactory f, fun i k hget => hinv.shows_of_bytes
      (fun c hc => hinv.accounted.bytes_dropFactory f (holdings_pos hc)) hget⟩

/-! ### Whole runs -/

theorem Inv.run (hinv : sh.Inv) (ops : List ShelfOp) : (sh.run ops).Inv := by
  induction ops generalizing sh with
  | nil => exact hinv
  | cons op rest ih => exact ih (hinv.step op)

theorem snapshots_push_le (t : Table Captured) (k : Captured) (hi : i < t.next) :
    i < (t.push k).next ∧ ((t.push k).get? i = t.get? i ∨ (t.push k).get? i = none) := by
  refine ⟨Nat.lt_succ_of_lt hi, .inl ?_⟩
  rw [Table.get?_push, if_neg (Nat.ne_of_lt hi)]

/-- Numbers of snapshots are not used again: what is found under one is what was there before, or nothing. -/
theorem snapshots_step (op : ShelfOp) (hi : i < sh.snapshots.next) :
    i < (sh.step op).snapshots.next ∧
      ((sh.step op).snapshots.get? i = sh.snapshots.get? i ∨ (sh.step op).snapshots.get? i = none) := by
  have hsame : i < sh.snapshots.next ∧
      (sh.snapshots.get? i = sh.snapshots.get? i ∨ sh.snapshots.get? i = none) := ⟨hi, .inl rfl⟩
  cases op with
  | handle op => exact hsame
  | acquire f => exact hsame
  | capture f e isLocal offset =>
    rw [step]
    split
    · exact snapshots_push_le _ _ hi
    · exact hsame
  | cloneSnapshot j =>
    rw [step]
    unfold withSnapshot
    split
    · exact snapshots_push_le _ _ hi
    · exact hsame
  | share j =>
    rw [step]
    unfold withSnapshot
    split <;> exact hsame
  | dropSnapshot j =>
    rw [step]
    unfold withSnapshot
    split
    · refine ⟨hi, ?_⟩
      dsimp only
      rw [Table.get?_erase]
      split
      · exact .inr rfl
      · exact .inl rfl
    · exact hsame
  | dropFactory f => exact hsame

theorem snapshots_run (ops : List ShelfOp) (hi : i < sh.snapshots.next) :
    (sh.run ops).snapshots.get? i = sh.snapshots.get? i ∨ (sh.run ops).snapshots.get? i = none := by
  induction ops generalizing sh with
  | nil => exact .inl rfl
  | cons op rest ih =>
    obtain ⟨hlt, hstep⟩ := snapshots_step op hi
    rcases ih hlt with hrest | hrest
    · have heq : (sh.run (op :: rest)).snapshots.get? i = (sh.step op).snapshots.get? i := hrest
      rw [heq]
      exact hstep
    · exact .inr hrest

/-! ### The start -/

theorem factories_addPools (limits : List PoolLimits) (s : Store) :
    (limits.foldl (fun s l => (s.addPool l).2) s).factories = s.factories := by
  induction limits generalizing s with
  | nil => rfl
  | cons l rest ih => exact ih (s.addPool l).2

theorem accounted_pools (limits : List PoolLimits) : (Ledger.start limits).store.Accounted Holdings.none := by
  have hstart := Ledger.inv_start limits
  refine ⟨hstart.nodes, hstart.slots, ⟨_, hstart.balanced⟩, hstart.counted, fun b => ?_⟩
  have hfactories : (Ledger.start limits).store.factories = .empty := factories_addPools limits .empty
  have hkept : (Ledger.start limits).store.kept b = 0 := by
    unfold Store.kept
    rw [hfactories]
    rfl
  rw [hstart.refs b, hkept]
  rfl

theorem accounted_addFactories (sources : List Source) {s : Store} {held : Holdings} (hacc : s.Accounted held) :
    (sources.foldl (fun s source => (s.addFactory source).2) s).Accounted held := by
  induction sources generalizing s with
  | nil => exact hacc
  | cons source rest ih =>
    refine ih ⟨hacc.nodes, hacc.slots, hacc.balanced, hacc.counted, fun b => ?_⟩
    have hkept : (s.addFactory source).2.kept b = s.kept b := by
      show (s.factories.push ⟨source, []⟩).total _ = _
      rw [Table.total_push, List.count_nil, Nat.zero_add]
      rfl
    rw [hkept]
    exact hacc.refs b

theorem inv_start (limits : List PoolLimits) (sources : List Source) : (start limits sources).Inv where
  accounted := accounted_addFactories sources (accounted_pools limits)
  shows _ _ hget := nomatch hget

/-! ### Writing -/

/-- Nobody but the handle `h` holds the buffer: no other handle, no snapshot and no factory. -/
def Alone (sh : Shelf) (h : HandleId) (b : BufferId) : Prop :=
  (∀ g, sh.handles.get? g = some b → g = h) ∧
  (∀ i k, sh.snapshots.get? i = some k → k.snapshot.buffer ≠ b) ∧
  ∀ f factory, sh.store.factories.get? f = some factory → b ∉ factory.held

theorem alone_iff (hget : sh.handles.get? h = some b) :
    sh.Alone h b ↔ sh.holdings b + sh.store.kept b = 1 := by
  have herase := Table.total_erase hget fun c => if c = b then 1 else 0
  rw [if_pos rfl] at herase
  unfold holdings Ledger.handleCount snapshotCount Store.kept
  rw [herase]
  constructor
  · rintro ⟨hhandles, hsnapshots, hfactories⟩
    have hzero : (sh.handles.erase h).total (fun c => if c = b then 1 else 0) = 0 := by
      refine Table.total_eq_zero fun g c hg => if_neg fun hc => ?_
      rw [Table.get?_erase] at hg
      split at hg
      · cases hg
      · rename_i hne
        exact hne (hhandles g (hc ▸ hg))
    have hnone : sh.snapshots.total (fun k => if k.snapshot.buffer = b then 1 else 0) = 0 :=
      Table.total_eq_zero fun i k hk => if_neg (hsnapshots i k hk)
    have hkept : sh.store.factories.total (fun f => f.held.count b) = 0 :=
      Table.total_eq_zero fun f factory hf => List.count_eq_zero_of_not_mem (hfactories f factory hf)
    omega
  · intro hone
    refine ⟨fun g hg => ?_, fun i k hk he => ?_, fun f factory hf hmem => ?_⟩
    · refine Classical.byContradiction fun hne => ?_
      have hother : (sh.handles.erase h).get? g = some b := by rw [Table.get?_erase, if_neg hne, hg]
      have hle := Table.le_total hother fun c => if c = b then 1 else 0
      rw [if_pos rfl] at hle
      omega
    · have hle := Table.le_total hk fun k => if k.snapshot.buffer = b then 1 else 0
      rw [if_pos he] at hle
      omega
    · have hle := Table.le_total hf fun f => f.held.count b
      have hpos : 0 < factory.held.count b := List.count_pos_iff.mpr hmem
      omega

theorem Inv.write?_iff (hinv : sh.Inv) (hget : sh.handles.get? h = some b) (f : Node → Node) :
    (sh.store.write? b f).isSome ↔ sh.Alone h b := by
  have hpos : 0 < sh.holdings b := Nat.lt_of_lt_of_le (handleCount_pos hget) (Nat.le_add_right _ _)
  exact (hinv.accounted.write?_isSome_iff hpos f).trans (alone_iff hget).symm

theorem step_write (hget : sh.handles.get? h = some b) (edit : Edit) :
    sh.step (.handle (.write h edit)) = { sh with store := (sh.store.write? b edit.run).getD sh.store } := by
  rw [step, Ledger.step, Ledger.withHandle_of_some hget]

/-- Another handle reads the same before and after a write. -/
theorem Inv.bytes_other (hinv : sh.Inv) (edit : Edit) {g : HandleId} {c : BufferId} (hne : g ≠ h)
    (hg : sh.handles.get? g = some c) :
    (sh.step (.handle (.write h edit))).store.bytes c = sh.store.bytes c := by
  cases hget : sh.handles.get? h with
  | none => rw [Shelf.step, Ledger.step, Ledger.withHandle_of_none hget]
  | some b =>
    rw [step_write hget]
    refine hinv.accounted.bytes_write? edit.run fun he => ?_
    subst he
    have htwo := Table.add_le_total hne hg hget fun c => if c = b then 1 else 0
    rw [if_pos rfl] at htwo
    exact Nat.lt_of_lt_of_le htwo (Nat.le_add_right _ _)

theorem Inv.record_write (hinv : sh.Inv) (edit : Edit) (hk : sh.snapshots.get? i = some k) :
    k.snapshot.record (sh.step (.handle (.write h edit))).store = k.snapshot.record sh.store :=
  ((hinv.step (.handle (.write h edit))).shows i k hk).trans (hinv.shows i k hk).symm

/-- A write through the only handle puts in place what the edit makes of the node. -/
theorem Inv.bytes_written (hinv : sh.Inv) (hget : sh.handles.get? h = some b) (halone : sh.Alone h b)
    (edit : Edit) : ∃ x, sh.store.buffers.get? b = some x ∧
      (sh.step (.handle (.write h edit))).store.bytes b = (edit.run x.node).bytes := by
  have hsome := (hinv.write?_iff hget edit.run).mpr halone
  obtain ⟨store, hw⟩ := Option.isSome_iff_exists.mp hsome
  obtain ⟨x, hx, -, rfl⟩ := Store.eq_of_write? hw
  refine ⟨x, hx, ?_⟩
  rw [step_write hget, hw]
  refine Store.bytes_of_some (x := { x with node := edit.run x.node }) ?_
  dsimp only [Option.getD_some]
  rw [Table.get?_set, if_pos rfl, hx]
  rfl

/-! ### Exclusive writing and lasting snapshots -/

/-- Whoever writes does so alone, and snapshots last. -/
structure Exclusive (sh : Shelf) : Prop where
  /-- A handle writes exactly when it is the only one. -/
  writes_iff : ∀ h b (edit : Edit), sh.handles.get? h = some b →
    ((sh.store.write? b edit.run).isSome ↔ sh.Alone h b)
  /-- Then the write takes place. -/
  written : ∀ h b (edit : Edit), sh.handles.get? h = some b → sh.Alone h b →
    ∃ x, sh.store.buffers.get? b = some x ∧
      (sh.step (.handle (.write h edit))).store.bytes b = (edit.run x.node).bytes
  /-- Different buffers lie in different nodes, and none of these is parked: a write to one reaches no other. -/
  apart : ∀ b c x y, b ≠ c → sh.store.buffers.get? b = some x → sh.store.buffers.get? c = some y →
    x.node.id ≠ y.node.id
  unparked : ∀ b x p pool, sh.store.buffers.get? b = some x → sh.store.pools.get? p = some pool →
    x.node.id ∉ pool.nodes.free.items.map (·.id)
  /-- No other handle sees a write. -/
  unseen : ∀ h (edit : Edit) g c, g ≠ h → sh.handles.get? g = some c →
    (sh.step (.handle (.write h edit))).store.bytes c = sh.store.bytes c
  /-- No snapshot sees a write. -/
  untouched : ∀ h (edit : Edit) i k, sh.snapshots.get? i = some k →
    k.snapshot.record (sh.step (.handle (.write h edit))).store = k.snapshot.record sh.store
  /-- A new snapshot shows its entry. -/
  captured : ∀ f e isLocal offset r, e.record isLocal offset = .ok r →
    ∃ s, (sh.step (.capture f e isLocal offset)).snapshots.get? sh.snapshots.next = some ⟨s, r⟩
  /-- Snapshots and their clones show what was captured. -/
  shows : ∀ i k, sh.snapshots.get? i = some k → k.snapshot.record sh.store = k.shown
  /-- Whatever is done, a snapshot that is still there is the same one and shows the same. -/
  lasts : ∀ ops i k, sh.snapshots.get? i = some k →
    (sh.run ops).snapshots.get? i = none ∨
    ((sh.run ops).snapshots.get? i = some k ∧ k.snapshot.record (sh.run ops).store = k.snapshot.record sh.store)

theorem captured_record (sh : Shelf) (f : FactoryId) {e : Entry} {isLocal : Bool} {offset : Int} {r : Record}
    (hr : e.record isLocal offset = .ok r) :
    ∃ s, (sh.step (.capture f e isLocal offset)).snapshots.get? sh.snapshots.next = some ⟨s, r⟩ := by
  rcases Snapshot.capture_cases e isLocal offset f sh.store with ⟨s, store, hcap, hrec⟩ | ⟨p, store, -, hrec⟩
  · rw [hr] at hrec
    cases hrec
    rw [step, hcap]
    exact ⟨s, Table.get?_push_next _ _⟩
  · rw [hr] at hrec
    cases hrec

theorem Inv.lasts (hinv : sh.Inv) (ops : List ShelfOp) (hk : sh.snapshots.get? i = some k) :
    (sh.run ops).snapshots.get? i = none ∨
    ((sh.run ops).snapshots.get? i = some k ∧
      k.snapshot.record (sh.run ops).store = k.snapshot.record sh.store) := by
  rcases snapshots_run ops (Table.lt_next_of_get? hk) with hsame | hgone
  · rw [hk] at hsame
    exact .inr ⟨hsame, ((hinv.run ops).shows i k hsame).trans (hinv.shows i k hk).symm⟩
  · exact .inl hgone

theorem exclusive_run (limits : List PoolLimits) (sources : List Source) (ops : List ShelfOp) :
    ((start limits sources).run ops).Exclusive := by
  have hinv := (inv_start limits sources).run ops
  constructor
  case writes_iff => exact fun h b edit hget => hinv.write?_iff hget edit.run
  case written => exact fun h b edit hget halone => hinv.bytes_written hget halone edit
  case apart => exact fun b c x y hbc hb hc => hinv.accounted.nodes.ne_of_ne hbc hb hc
  case unparked => exact fun b x p pool hb hp => hinv.accounted.nodes.not_parked hb hp
  case unseen => exact fun h edit g c hne hg => hinv.bytes_other edit hne hg
  case untouched => exact fun h edit i k hk => hinv.record_write edit hk
  case captured => exact fun f e isLocal offset r hr => captured_record _ f hr
  case shows => exact hinv.shows
  case lasts => exact fun later i k hk => hinv.lasts later hk

end Shelf

end Logbook
