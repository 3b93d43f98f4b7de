import Logbook.Proofs.Alike
import Logbook.Proofs.Custody

/-!
# Outlines of stores

The outline of a store is the store with every node as if it were new: which buffers there are, who counts as holding
them, which parts are parked and what the pools have counted. What is written into buffers does not show in it, and no
operation needs more than it to tell what becomes of it.
-/

namespace Logbook

/-! ### Pools -/

/-- The same number, and nothing of what was written. -/
def Node.outline (n : Node) : Node := .fresh n.id

namespace Parts

variable {α β : Type} (p : Parts α) (g : α → β)

def map : Parts β := ⟨⟨p.free.items.map g, p.free.length⟩, p.counts⟩

theorem map_take (fresh : α) : (p.map g).take (g fresh) = (g (p.take fresh).1, (p.take fresh).2.map g) := by
  obtain ⟨⟨items, length⟩, counts⟩ := p
  cases items <;> rfl

theorem map_park (limit : Option Nat) (a : α) : (p.map g).park limit (g a) = (p.park limit a).map g := by
  unfold park FreeList.push
  have hfull : (p.map g).free.isFull limit = p.free.isFull limit := rfl
  rw [hfull]
  cases p.free.isFull limit <;> rfl

end Parts

namespace Pool

def outline (p : Pool) : Pool := { p with nodes := p.nodes.map Node.outline }

theorem outline_take (p : Pool) (fresh : Nat) :
    p.outline.take fresh = (((p.take fresh).1.1.outline, (p.take fresh).1.2), (p.take fresh).2.outline) := by
  have hnodes := p.nodes.map_take Node.outline (.fresh fresh)
  have hfresh : (Node.fresh fresh).outline = .fresh fresh := rfl
  rw [hfresh] at hnodes
  unfold take outline
  dsimp only
  rw [hnodes]

theorem outline_recycle (p : Pool) (node : Node) (slot : Slot) :
    p.outline.recycle node.outline slot = (p.recycle node slot).outline := by
  have hnodes := p.nodes.map_park Node.outline p.limits.maxFreeNodes node.clear
  have hclear : node.clear.outline = node.outline.clear := rfl
  rw [hclear] at hnodes
  unfold recycle outline
  dsimp only
  rw [hnodes]

/-- What a pool shows of itself: how many parts are parked, and its counts. -/
def tally (p : Pool) : Nat × PartCounts × Nat × PartCounts :=
  (p.nodes.free.length, p.nodes.counts, p.slots.free.length, p.slots.counts)

end Pool

/-! ### Stores -/

def Buffer.outline (b : Buffer) : Buffer := { b with node := b.node.outline }

namespace Store

def outline (s : Store) : Store := ⟨s.pools.map Pool.outline, s.buffers.map Buffer.outline, s.factories⟩

section

variable (s : Store)

theorem get?_outline (b : BufferId) : s.outline.buffers.get? b = (s.buffers.get? b).map Buffer.outline :=
  Table.get?_map ..

theorem outline_acquireUnpooled :
    s.outline.acquireUnpooled = (s.acquireUnpooled.1, s.acquireUnpooled.2.outline) := rfl

theorem outline_acquirePooled (p : PoolId) :
    s.outline.acquirePooled p = ((s.acquirePooled p).1, (s.acquirePooled p).2.outline) := by
  have hpool : s.outline.pools.get? p = (s.pools.get? p).map Pool.outline := Table.get?_map ..
  unfold acquirePooled
  rw [hpool]
  cases s.pools.get? p with
  | none => exact s.outline_acquireUnpooled
  | some pool =>
    dsimp only [Option.map_some]
    rw [pool.outline_take]
    unfold outline
    dsimp only
    rw [Table.map_set]
    rfl

theorem outline_clone (b : BufferId) : s.outline.clone b = (s.clone b).outline := by
  have hbuffers : (s.buffers.modify b moreOne).map Buffer.outline = (s.buffers.map Buffer.outline).modify b moreOne :=
    Table.map_modify _ _ b fun _ => rfl
  show (⟨_, _, _⟩ : Store) = ⟨_, (s.buffers.modify b moreOne).map Buffer.outline, _⟩
  rw [hbuffers]
  rfl

theorem outline_release (b : BufferId) : s.outline.release b = (s.release b).outline := by
  have hget := s.get?_outline b
  cases hb : s.buffers.get? b with
  | none =>
    rw [hb] at hget
    rw [release_of_none hget, release_of_none hb]
  | some x =>
    rw [hb] at hget
    by_cases hlast : x.slot.refs = 1
    · rw [release_of_last hget hlast, release_of_last hb hlast]
      unfold poolsAfter outline
      dsimp only [Buffer.outline]
      rw [Table.map_erase]
      cases x.slot.pool with
      | none => rfl
      | some p =>
        have hpools : (s.pools.modify p (·.recycle x.node (lessOne x).slot)).map Pool.outline =
            (s.pools.map Pool.outline).modify p (·.recycle x.node.outline (lessOne x).slot) :=
          Table.map_modify _ _ p fun pool => (pool.outline_recycle x.node (lessOne x).slot).symm
        dsimp only
        rw [hpools]
        rfl
    · rw [release_of_shared hget hlast, release_of_shared hb hlast]
      unfold outline
      dsimp only
      rw [Table.map_set]
      rfl

theorem outline_write? (b : BufferId) {f : Node → Node} (hf : ∀ n, (f n).id = n.id) :
    (s.write? b f).map outline = s.outline.write? b id := by
  have hget := s.get?_outline b
  cases hb : s.buffers.get? b with
  | none =>
    rw [hb] at hget
    rw [write?_of_none hget, write?_of_none hb]
    rfl
  | some x =>
    rw [hb] at hget
    by_cases hunique : x.slot.refs = 1
    · rw [write?_of_unique hget hunique, write?_of_unique hb hunique]
      unfold outline
      dsimp only [Option.map_some]
      rw [Table.map_set]
      unfold Buffer.outline Node.outline
      dsimp only
      rw [hf]
      rfl
    · rw [write?_of_shared hget hunique, write?_of_shared hb hunique]
      rfl

end

/-- Stores with the same outline. -/
structure Twin (s t : Store) : Prop where
  outline : t.outline = s.outline

namespace Twin

variable {s t : Store}

theorem next_eq (h : Twin s t) : t.buffers.next = s.buffers.next := by
  have hnext := congrArg (fun s : Store => s.buffers.next) h.outline
  exact hnext

theorem factories_eq (h : Twin s t) : t.factories = s.factories := by
  have hfactories := congrArg Store.factories h.outline
  exact hfactories

theorem refsOf_eq (h : Twin s t) (b : BufferId) : t.refsOf b = s.refsOf b := by
  have hrefs : ∀ s : Store, s.outline.refsOf b = s.refsOf b := by
    intro s
    unfold refsOf
    rw [get?_outline, Option.map_map]
    rfl
  rw [← hrefs, ← hrefs s, h.outline]

theorem tally_eq (h : Twin s t) (p : PoolId) :
    (t.pools.get? p).map Pool.tally = (s.pools.get? p).map Pool.tally := by
  have htally : ∀ s : Store, (s.outline.pools.get? p).map Pool.tally = (s.pools.get? p).map Pool.tally := by
    intro s
    have hpool : s.outline.pools.get? p = (s.pools.get? p).map Pool.outline := Table.get?_map ..
    rw [hpool, Option.map_map]
    rfl
  rw [← htally, ← htally s, h.outline]

theorem clone (h : Twin s t) (b : BufferId) : Twin (s.clone b) (t.clone b) := by
  constructor
  rw [← outline_clone, ← outline_clone, h.outline]

theorem release (h : Twin s t) (b : BufferId) : Twin (s.release b) (t.release b) := by
  constructor
  rw [← outline_release, ← outline_release, h.outline]

theorem acquireUnpooled (h : Twin s t) : Same Twin s.acquireUnpooled t.acquireUnpooled := by
  have hs := s.outline_acquireUnpooled
  have ht := t.outline_acquireUnpooled
  rw [h.outline, hs] at ht
  exact ⟨(congrArg Prod.fst ht).symm, ⟨(congrArg Prod.snd ht).symm⟩⟩

theorem acquirePooled (h : Twin s t) (p : PoolId) : Same Twin (s.acquirePooled p) (t.acquirePooled p) := by
  have hs := s.outline_acquirePooled p
  have ht := t.outline_acquirePooled p
  rw [h.outline, hs] at ht
  exact ⟨(congrArg Prod.fst ht).symm, ⟨(congrArg Prod.snd ht).symm⟩⟩

theorem write? (h : Twin s t) (b : BufferId) {f g : Node → Node} (hf : ∀ n, (f n).id = n.id)
    (hg : ∀ n, (g n).id = n.id) : Option.Rel Twin (s.write? b f) (t.write? b g) := by
  have hs := s.outline_write? b hf
  have ht := t.outline_write? b hg
  rw [h.outline, ← hs] at ht
  cases hx : s.write? b f with
  | none =>
    rw [hx] at ht
    rw [Option.map_eq_none_iff.mp ht]
    exact .none
  | some s' =>
    rw [hx] at ht
    obtain ⟨t', hy, htwin⟩ := Option.map_eq_some_iff.mp ht
    rw [hy]
    exact .some ⟨htwin⟩

theorem getD (h : Twin s t) {x y : Option Store} (hxy : Option.Rel Twin x y) : Twin (x.getD s) (y.getD t) := by
  cases hxy with
  | none => exact h
  | some h => exact h

theorem setFactory (h : Twin s t) (f : FactoryId) (x : Factory) :
    Twin { s with factories := s.factories.set f x } { t with factories := t.factories.set f x } := by
  have hpools : t.pools.map Pool.outline = s.pools.map Pool.outline := congrArg Store.pools h.outline
  have hbuffers : t.buffers.map Buffer.outline = s.buffers.map Buffer.outline := congrArg Store.buffers h.outline
  constructor
  unfold Store.outline
  dsimp only
  rw [hpools, hbuffers, h.factories_eq]

theorem acquire (h : Twin s t) (f : FactoryId) : Same Twin (s.acquire f) (t.acquire f) := by
  have hft : t.factories.get? f = s.factories.get? f := by rw [h.factories_eq]
  cases hf : s.factories.get? f with
  | none =>
    rw [hf] at hft
    rw [acquire_of_none hf, acquire_of_none hft]
    exact h.acquireUnpooled
  | some factory =>
    obtain ⟨source, held⟩ := factory
    rw [hf] at hft
    cases source with
    | heap =>
      rw [acquire_heap hf, acquire_heap hft]
      exact h.acquireUnpooled
    | pool p =>
      rw [acquire_pool hf, acquire_pool hft]
      exact h.acquirePooled p
    | aliasing p =>
      obtain ⟨hid, hnew⟩ := h.acquirePooled p
      rw [acquire_aliasing hf, acquire_aliasing hft, hid]
      exact ⟨rfl, (hnew.clone _).setFactory f _⟩
    | stale p =>
      obtain ⟨hid, hnew⟩ := h.acquirePooled p
      rw [acquire_stale hf, acquire_stale hft, hid]
      exact ⟨rfl, hnew.getD (hnew.write? _ (fun _ => rfl) fun _ => rfl)⟩

/-- What becomes of two captures: both fail, or their snapshots have the same buffer. -/
inductive Caught : Except Panic Snapshot × Store → Except Panic Snapshot × Store → Prop where
  | ok {x y : Snapshot} {s t : Store} (hbuffer : y.buffer = x.buffer) (h : Twin s t) : Caught (.ok x, s) (.ok y, t)
  | error {p q : Panic} {s t : Store} (h : Twin s t) : Caught (.error p, s) (.error q, t)

variable {e e' : Entry} {isLocal : Bool}
  (hends : (e'.time.decompose isLocal).isOk = (e.time.decompose isLocal).isOk)
include hends

theorem finish (h : Twin s t) (b : BufferId) :
    Caught (Snapshot.finish e isLocal b s) (Snapshot.finish e' isLocal b t) := by
  unfold Snapshot.finish
  cases he : e.time.decompose isLocal <;> cases he' : e'.time.decompose isLocal
  · exact .error (h.release b)
  · rw [he, he'] at hends
    cases hends
  · rw [he, he'] at hends
    cases hends
  · exact .ok rfl h

theorem capture (h : Twin s t) (f : FactoryId) :
    Caught (Snapshot.capture e isLocal (·.acquire f) s) (Snapshot.capture e' isLocal (·.acquire f) t) := by
  have hfill : ∀ {s t : Store}, Twin s t → ∀ b,
      Option.Rel Twin (s.write? b (·.refill e.text)) (t.write? b (·.refill e'.text)) :=
    fun h b => h.write? b (fun _ => rfl) fun _ => rfl
  obtain ⟨hid, hacquired⟩ := h.acquire f
  unfold Snapshot.capture
  dsimp only
  rw [hid]
  rcases rel_cases (hfill hacquired (s.acquire f).1) with ⟨hs, ht⟩ | ⟨s', t', hs, ht, hwritten⟩
  · rw [hs, ht]
    obtain ⟨hnewid, hnew⟩ := hacquired.acquireUnpooled
    have hfilled := hnew.getD (hfill hnew (s.acquire f).2.acquireUnpooled.1)
    dsimp only
    rw [hnewid]
    have hfinished := finish hends hfilled (s.acquire f).2.acquireUnpooled.1
    generalize Snapshot.finish e isLocal _ _ = x at hfinished
    generalize Snapshot.finish e' isLocal _ _ = y at hfinished
    cases hfinished with
    | ok hbuffer h => exact .ok hbuffer (h.release _)
    | error h => exact .error (h.release _)
  · rw [hs, ht]
    exact finish hends hwritten (s.acquire f).1

end Twin

/-- A buffer whose last handle goes reads as empty from then on. -/
theorem bytes_release_eq (s : Store) (b c : BufferId) :
    (s.release b).bytes c = if c = b ∧ s.refsOf b = 1 then [] else s.bytes c := by
  by_cases hcb : c = b
  · subst hcb
    cases hc : s.buffers.get? c with
    | none =>
      rw [release_of_none hc, refsOf_of_none hc]
      exact (if_neg fun h => Nat.zero_ne_one h.2).symm
    | some x =>
      rw [refsOf_of_some hc]
      by_cases hlast : x.slot.refs = 1
      · rw [if_pos ⟨rfl, hlast⟩, release_of_last hc hlast]
        unfold bytes
        dsimp only
        rw [Table.get?_erase, if_pos rfl]
      · rw [if_neg fun h => hlast h.2, release_of_shared hc hlast, bytes_of_some hc]
        unfold bytes
        dsimp only
        rw [Table.get?_set, if_pos rfl, hc]
        rfl
  · rw [if_neg fun h => hcb h.1]
    exact bytes_release_of_ne hcb

end Store

/-! ### Snapshots that say the same -/

/-- What a record says, without when and where. -/
def Record.gist (r : Record) : Severity × Bytes × Bytes := (r.severity, r.name, r.message)

def Entry.gist (e : Entry) : Severity × Bytes × Bytes := (e.severity, e.name, e.message)

theorem Entry.gist_record {e : Entry} {isLocal : Bool} {r : Record} (h : e.record isLocal = .ok r) :
    r.gist = e.gist := by
  unfold Entry.record at h
  cases he : e.time.decompose isLocal with
  | error p =>
    rw [he] at h
    cases h
  | ok time =>
    rw [he] at h
    cases h
    rfl

namespace Snapshot

open Store (Grown)

/-- In their stores, two snapshots with the same buffer say the same. -/
structure Like (s t : Store) (x y : Snapshot) : Prop where
  buffer : y.buffer = x.buffer
  old : x.buffer < s.buffers.next
  gist : (y.record t).gist = (x.record s).gist

namespace Like

variable {s t s' t' : Store} {x y : Snapshot}

theorem severity (h : Like s t x y) : y.severity = x.severity := congrArg Prod.fst h.gist

theorem congr (h : Like s t x y) (hnext : s.buffers.next ≤ s'.buffers.next)
    (hs : s'.bytes x.buffer = s.bytes x.buffer) (ht : t'.bytes y.buffer = t.bytes y.buffer) : Like s' t' x y := by
  have hgist := h.gist
  refine ⟨h.buffer, Nat.lt_of_lt_of_le h.old hnext, ?_⟩
  unfold record at hgist ⊢
  rw [hs, ht]
  exact hgist

theorem clone (h : Like s t x y) (b : BufferId) : Like (s.clone b) (t.clone b) x y :=
  h.congr (Nat.le_refl _) (s.bytes_clone b _) (t.bytes_clone b _)

theorem release (h : Like s t x y) (htwin : s.Twin t) (b : BufferId) : Like (s.release b) (t.release b) x y := by
  by_cases hlast : x.buffer = b ∧ s.refsOf b = 1
  · -- both are empty now
    have hs := s.bytes_release_eq b x.buffer
    have ht := t.bytes_release_eq b y.buffer
    rw [if_pos hlast] at hs
    rw [h.buffer, htwin.refsOf_eq, if_pos hlast] at ht
    refine ⟨h.buffer, ?_, ?_⟩
    · rw [Store.next_release]
      exact h.old
    · unfold record
      rw [h.buffer, hs, ht]
      simp [Record.gist, Span.of, h.severity]
  · refine h.congr (Nat.le_of_eq (s.next_release b).symm) ?_ ?_
    · rw [Store.bytes_release_eq, if_neg hlast]
    · rw [Store.bytes_release_eq, h.buffer, htwin.refsOf_eq, if_neg hlast]

theorem grown (h : Like s t x y) (htwin : s.Twin t) (hs : Grown s s') (ht : Grown t t') : Like s' t' x y := by
  have hold : y.buffer < t.buffers.next := by
    rw [htwin.next_eq, h.buffer]
    exact h.old
  refine h.congr hs.next ?_ ?_
  · unfold Store.bytes
    rw [hs.buffers _ h.old]
  · unfold Store.bytes
    rw [ht.buffers _ hold]

end Like

/-- Snapshots of entries that say the same. -/
theorem like_capture {s t s' t' : Store} {e e' : Entry} {isLocal : Bool} {f : FactoryId} {x y : Snapshot}
    (hx : capture e isLocal (·.acquire f) s = (.ok x, s')) (hy : capture e' isLocal (·.acquire f) t = (.ok y, t'))
    (hbuffer : y.buffer = x.buffer) (hgist : e'.gist = e.gist) : Like s' t' x y := by
  have hshows : ∀ {e : Entry} {s s' : Store} {x : Snapshot}, capture e isLocal (·.acquire f) s = (.ok x, s') →
      (x.record s').gist = e.gist := by
    intro e s s' x hx
    rcases capture_cases e isLocal Timestamp.localOffset f s with ⟨_, _, heq, hrecord⟩ | ⟨_, _, heq, _⟩
    · rw [hx] at heq
      cases heq
      exact Entry.gist_record hrecord
    · rw [hx] at heq
      cases heq
  have hnew := (capture_grown e isLocal Timestamp.localOffset f s).2
  rw [hx] at hnew
  obtain ⟨b, hb⟩ := Store.exists_of_refsOf_pos (hnew x rfl).2
  refine ⟨hbuffer, Table.lt_next_of_get? hb, ?_⟩
  rw [hshows hx, hshows hy, hgist]

end Snapshot

end Logbook
