import Logbook.Async.Adapter
import Logbook.Proofs.Capture

/-!
# Stores that read alike

Two stores read alike if they have the same buffers, with the same octets and as many handles, and the same
factories, except that the second takes from the heap what the first takes from a pool. No operation tells them
apart, and neither does a worker.
-/

namespace Logbook

/-- The same answer, and states that are related. -/
def Same {α σ : Type} (R : σ → σ → Prop) (x y : α × σ) : Prop := y.1 = x.1 ∧ R x.2 y.2

theorem Same.exists_eq {α σ : Type} {R : σ → σ → Prop} {x y : α × σ} (h : Same R x y) :
    ∃ answer s t, x = (answer, s) ∧ y = (answer, t) ∧ R s t := by
  obtain ⟨hanswer, hstate⟩ := h
  exact ⟨x.1, x.2, y.2, rfl, hanswer ▸ rfl, hstate⟩

/-! ### Stores -/

/-- The source without pooling. -/
def Source.onHeap : Source → Source
  | .pool _ => .heap
  | source => source

def Factory.onHeap (f : Factory) : Factory := { f with source := f.source.onHeap }

/-- What can be read of a buffer. -/
def Buffer.view (b : Buffer) : Bytes × Nat := (b.node.bytes, b.slot.refs)

namespace Store

structure Alike (s t : Store) : Prop where
  next : t.buffers.next = s.buffers.next
  buffers : ∀ b, (t.buffers.get? b).map Buffer.view = (s.buffers.get? b).map Buffer.view
  factories : ∀ f, t.factories.get? f = (s.factories.get? f).map Factory.onHeap
  cleanLeft : s.Clean
  cleanRight : t.Clean

namespace Alike

variable {s t s' t' : Store}

/-- A buffer of one store has its like in the other. -/
theorem cases (h : Alike s t) (b : BufferId) :
    (s.buffers.get? b = none ∧ t.buffers.get? b = none) ∨
    ∃ x y, s.buffers.get? b = some x ∧ t.buffers.get? b = some y ∧ y.node.bytes = x.node.bytes ∧
      y.slot.refs = x.slot.refs := by
  have hb := h.buffers b
  cases hs : s.buffers.get? b with
  | none =>
    rw [hs] at hb
    exact .inl ⟨rfl, Option.map_eq_none_iff.mp hb⟩
  | some x =>
    rw [hs] at hb
    obtain ⟨y, hy, hview⟩ := Option.map_eq_some_iff.mp hb
    exact .inr ⟨x, y, rfl, hy, congrArg Prod.fst hview, congrArg Prod.snd hview⟩

theorem bytes_eq (h : Alike s t) (b : BufferId) : t.bytes b = s.bytes b := by
  rcases h.cases b with ⟨hs, ht⟩ | ⟨x, y, hs, ht, hbytes, _⟩
  · unfold bytes
    rw [hs, ht]
  · rw [bytes_of_some hs, bytes_of_some ht]
    exact hbytes

theorem record_eq (h : Alike s t) (snapshot : Snapshot) : snapshot.record t = snapshot.record s := by
  unfold Snapshot.record
  rw [h.bytes_eq]

/-- New buffers that read alike. -/
theorem push (h : Alike s t) {x y : Buffer} (hxy : y.view = x.view) (hs : s'.buffers = s.buffers.push x)
    (ht : t'.buffers = t.buffers.push y) (hfs : s'.factories = s.factories) (hft : t'.factories = t.factories)
    (hcs : s'.Clean) (hct : t'.Clean) : Alike s' t' where
  next := by
    rw [hs, ht]
    exact congrArg (· + 1) h.next
  buffers b := by
    rw [hs, ht, Table.get?_push, Table.get?_push, h.next]
    split
    · exact congrArg some hxy
    · exact h.buffers b
  factories f := by
    rw [hfs, hft]
    exact h.factories f
  cleanLeft := hcs
  cleanRight := hct

theorem acquireUnpooled (h : Alike s t) : Same Alike s.acquireUnpooled t.acquireUnpooled := by
  have hview : (ofHeap t.buffers.next).view = (ofHeap s.buffers.next).view := rfl
  exact ⟨h.next, h.push hview rfl rfl rfl rfl h.cleanLeft h.cleanRight⟩

theorem acquirePooled (h : Alike s t) (p : PoolId) : Same Alike (s.acquirePooled p) (t.acquirePooled p) := by
  obtain ⟨x, hsid, hspush, hsf, hxrefs, hxbytes⟩ := s.acquirePooled_push p
  obtain ⟨y, htid, htpush, htf, hyrefs, hybytes⟩ := t.acquirePooled_push p
  have hview : y.view = x.view := by
    unfold Buffer.view
    rw [hxrefs, hyrefs, hxbytes h.cleanLeft, hybytes h.cleanRight]
  refine ⟨?_, h.push hview hspush htpush hsf htf (h.cleanLeft.acquirePooled p) (h.cleanRight.acquirePooled p)⟩
  rw [hsid, htid]
  exact h.next

/-- A buffer of a clean pool reads like a new one. -/
theorem acquirePooled_heap (h : Alike s t) (p : PoolId) : Same Alike (s.acquirePooled p) t.acquireUnpooled := by
  obtain ⟨x, hid, hpush, hf, hrefs, hbytes⟩ := s.acquirePooled_push p
  have hview : (ofHeap t.buffers.next).view = x.view := by
    unfold Buffer.view
    rw [hrefs, hbytes h.cleanLeft]
    rfl
  refine ⟨?_, h.push hview hpush rfl hf rfl (h.cleanLeft.acquirePooled p) h.cleanRight⟩
  rw [hid]
  exact h.next

/-- The same change to buffers that read alike. -/
theorem set (h : Alike s t) {b : BufferId} {x y : Buffer} (hxy : y.view = x.view)
    (hs : s'.buffers = s.buffers.set b x) (ht : t'.buffers = t.buffers.set b y)
    (hfs : s'.factories = s.factories) (hft : t'.factories = t.factories)
    (hcs : s'.pools = s.pools) (hct : t'.pools = t.pools) : Alike s' t' where
  next := by
    rw [hs, ht]
    exact h.next
  buffers key := by
    rw [hs, ht, Table.get?_set, Table.get?_set]
    split
    · rename_i hkey
      subst hkey
      rcases h.cases key with ⟨hsb, htb⟩ | ⟨x', y', hsb, htb, _⟩
      · rw [hsb, htb]
        rfl
      · rw [hsb, htb]
        exact congrArg some hxy
    · exact h.buffers key
  factories f := by
    rw [hfs, hft]
    exact h.factories f
  cleanLeft := by
    unfold Clean
    rw [hcs]
    exact h.cleanLeft
  cleanRight := by
    unfold Clean
    rw [hct]
    exact h.cleanRight

theorem clone (h : Alike s t) (b : BufferId) : Alike (s.clone b) (t.clone b) := by
  rcases h.cases b with ⟨hs, ht⟩ | ⟨x, y, hs, ht, hbytes, hrefs⟩
  · rw [clone_of_none hs, clone_of_none ht]
    exact h
  · have hview : (moreOne y).view = (moreOne x).view := by
      unfold Buffer.view moreOne
      rw [hbytes, hrefs]
    rw [clone_of_some hs, clone_of_some ht]
    exact h.set hview rfl rfl rfl rfl rfl rfl

theorem release (h : Alike s t) (b : BufferId) : Alike (s.release b) (t.release b) := by
  have hcs := h.cleanLeft.release b
  have hct := h.cleanRight.release b
  rcases h.cases b with ⟨hs, ht⟩ | ⟨x, y, hs, ht, hbytes, hrefs⟩
  · rw [release_of_none hs, release_of_none ht]
    exact h
  · by_cases hlast : x.slot.refs = 1
    · rw [release_of_last hs hlast] at hcs ⊢
      rw [release_of_last ht (hrefs.trans hlast)] at hct ⊢
      refine ⟨h.next, fun key => ?_, h.factories, hcs, hct⟩
      dsimp only
      rw [Table.get?_erase, Table.get?_erase]
      split
      · rfl
      · exact h.buffers key
    · have hview : (lessOne y).view = (lessOne x).view := by
        unfold Buffer.view lessOne
        rw [hbytes, hrefs]
      rw [release_of_shared hs hlast, release_of_shared ht (by rwa [hrefs])]
      exact h.set hview rfl rfl rfl rfl rfl rfl

/-- A write that acts on the octets alone. -/
theorem write? (h : Alike s t) (b : BufferId) {f : Node → Node} {g : Bytes → Bytes}
    (hf : ∀ n, (f n).bytes = g n.bytes) : Option.Rel Alike (s.write? b f) (t.write? b f) := by
  rcases h.cases b with ⟨hs, ht⟩ | ⟨x, y, hs, ht, hbytes, hrefs⟩
  · rw [write?_of_none hs, write?_of_none ht]
    exact .none
  · by_cases hunique : x.slot.refs = 1
    · have hview : Buffer.view { y with node := f y.node } = Buffer.view { x with node := f x.node } := by
        unfold Buffer.view
        rw [hf, hf, hbytes, hrefs]
      rw [write?_of_unique hs hunique, write?_of_unique ht (hrefs.trans hunique)]
      exact .some (h.set hview rfl rfl rfl rfl rfl rfl)
    · rw [write?_of_shared hs hunique, write?_of_shared ht (by rwa [hrefs])]
      exact .none

theorem getD (h : Alike s t) {x y : Option Store} (hxy : Option.Rel Alike x y) : Alike (x.getD s) (y.getD t) := by
  cases hxy with
  | none => exact h
  | some h => exact h

theorem setFactory (h : Alike s t) (f : FactoryId) (x : Factory) :
    Alike { s with factories := s.factories.set f x } { t with factories := t.factories.set f x.onHeap } := by
  refine ⟨h.next, h.buffers, fun key => ?_, h.cleanLeft, h.cleanRight⟩
  dsimp only
  rw [Table.get?_set, Table.get?_set, h.factories key]
  split
  · rw [Option.map_map, Option.map_map]
    rfl
  · rfl

theorem acquire (h : Alike s t) (f : FactoryId) : Same Alike (s.acquire f) (t.acquire f) := by
  have hft := h.factories f
  cases hf : s.factories.get? f with
  | none =>
    rw [hf] at hft
    rw [acquire_of_none hf, acquire_of_none hft]
    exact h.acquireUnpooled
  | some factory =>
    obtain ⟨source, held⟩ := factory
    rw [hf] at hft
    cases source with
    | heap =>
      rw [acquire_heap hf, acquire_heap hft]
      exact h.acquireUnpooled
    | pool p =>
      rw [acquire_pool hf, acquire_heap hft]
      exact h.acquirePooled_heap p
    | aliasing p =>
      obtain ⟨hid, hnew⟩ := h.acquirePooled p
      rw [acquire_aliasing hf, acquire_aliasing hft, hid]
      have hcloned := hnew.clone (s.acquirePooled p).1
      exact ⟨rfl, hcloned.setFactory f ⟨.aliasing p, held ++ [(s.acquirePooled p).1]⟩⟩
    | stale p =>
      obtain ⟨hid, hnew⟩ := h.acquirePooled p
      rw [acquire_stale hf, acquire_stale hft, hid]
      exact ⟨rfl, hnew.getD (hnew.write? (s.acquirePooled p).1 (g := (· ++ staleText)) fun _ => rfl)⟩

theorem finish (h : Alike s t) (e : Entry) (isLocal : Bool) (b : BufferId) :
    Same Alike (Snapshot.finish e isLocal b s) (Snapshot.finish e isLocal b t) := by
  unfold Snapshot.finish
  cases e.time.decompose isLocal with
  | ok time => exact ⟨rfl, h⟩
  | error p => exact ⟨rfl, h.release b⟩

theorem capture (h : Alike s t) (e : Entry) (isLocal : Bool) (f : FactoryId) :
    Same Alike (Snapshot.capture e isLocal (·.acquire f) s) (Snapshot.capture e isLocal (·.acquire f) t) := by
  obtain ⟨hid, hacquired⟩ := h.acquire f
  have hfill : ∀ {s t : Store}, Alike s t → ∀ b,
      Option.Rel Alike (s.write? b (·.refill e.text)) (t.write? b (·.refill e.text)) :=
    fun h b => h.write? b (g := fun _ => e.text) fun _ => rfl
  unfold Snapshot.capture
  dsimp only
  rw [hid]
  rcases rel_cases (hfill hacquired (s.acquire f).1) with ⟨hs, ht⟩ | ⟨s', t', hs, ht, hwritten⟩
  · rw [hs, ht]
    obtain ⟨hnewid, hnew⟩ := hacquired.acquireUnpooled
    have hfilled := hnew.getD (hfill hnew (s.acquire f).2.acquireUnpooled.1)
    dsimp only
    rw [hnewid]
    obtain ⟨hanswer, hend⟩ := hfilled.finish e isLocal (s.acquire f).2.acquireUnpooled.1
    exact ⟨hanswer, hend.release _⟩
  · rw [hs, ht]
    exact hwritten.finish e isLocal (s.acquire f).1

end Alike

end Store

/-! ### Workers -/

namespace Host

variable {σ : Type}

/-- A host cannot tell related states apart. -/
structure Respects (R : σ → σ → Prop) (h : Host σ) : Prop where
  log : ∀ snapshot {x y}, R x y → Same R (h.log snapshot x) (h.log snapshot y)
  write : ∀ bs {x y}, R x y → Same R (h.write bs x) (h.write bs y)
  flush : ∀ {x y}, R x y → Same R (h.flush x) (h.flush y)
  release : ∀ snapshot {x y}, R x y → R (h.release snapshot x) (h.release snapshot y)
  report : ∀ n {x y}, R x y → R (h.report n x) (h.report n y)

namespace Respects

variable {R : σ → σ → Prop} {h : Host σ} {x y : σ}

theorem perform (hr : h.Respects R) (c : Command) (hxy : R x y) : Same R (h.perform c x) (h.perform c y) := by
  cases c with
  | record snapshot => exact hr.log snapshot hxy
  | raw bs => exact hr.write bs hxy
  | flush ticket =>
    obtain ⟨hanswer, hstate⟩ := hr.flush hxy
    exact ⟨congrArg some hanswer, hstate⟩

theorem reportAll (hr : h.Respects R) (notices : List Notice) (hxy : R x y) :
    R (h.reportAll notices x) (h.reportAll notices y) := by
  unfold Host.reportAll
  induction notices generalizing x y with
  | nil => exact hxy
  | cons n rest ih => exact ih (hr.report n hxy)

theorem discard (hr : h.Respects R) (commands : List Command) (hxy : R x y) :
    R (h.discard commands x) (h.discard commands y) := by
  unfold Host.discard
  induction commands.filterMap (·.snapshot?) generalizing x y with
  | nil => exact hxy
  | cons snapshot rest ih => exact ih (hr.release snapshot hxy)

theorem clearOut (hr : h.Respects R) (q : Queue) (hxy : R x y) : Same R (h.clearOut q x) (h.clearOut q y) :=
  ⟨rfl, hr.discard q.clearOut.1 hxy⟩

theorem settle (hr : h.Respects R) (c : Command) (o : Outcome) (q : Queue) (hxy : R x y) :
    Same R (h.settle c o q x) (h.settle c o q y) :=
  hr.clearOut _ (hr.discard _ (hr.reportAll _ hxy))

theorem step? (hr : h.Respects R) (q : Queue) (hxy : R x y) :
    Option.Rel (Same R) (h.step? q x) (h.step? q y) := by
  unfold Host.step?
  cases q.take with
  | some taken =>
    obtain ⟨c, q⟩ := taken
    obtain ⟨o, x', y', hx, hy, hstate⟩ := (hr.perform c hxy).exists_eq
    dsimp only
    rw [hx, hy]
    cases o with
    | none => exact .some ⟨rfl, hstate⟩
    | some o => exact .some (hr.settle c o q hstate)
  | none =>
    dsimp only
    split
    · obtain ⟨hanswer, hstate⟩ := hr.flush hxy
      rw [hanswer]
      exact .some ⟨rfl, hr.reportAll _ hstate⟩
    · exact .none

theorem run (hr : h.Respects R) (fuel : Nat) (q : Queue) (hxy : R x y) :
    Same R (h.run fuel q x) (h.run fuel q y) := by
  induction fuel generalizing q x y with
  | zero => exact ⟨rfl, hxy⟩
  | succ fuel ih =>
    rw [Host.run, Host.run]
    rcases rel_cases (hr.step? q hxy) with ⟨hx, hy⟩ | ⟨a, b, hx, hy, hstep⟩
    · rw [hx, hy]
      exact ⟨rfl, hxy⟩
    · obtain ⟨q', x', y', rfl, rfl, hstate⟩ := hstep.exists_eq
      rw [hx, hy]
      exact ih q' hstate

theorem drain (hr : h.Respects R) (q : Queue) (hxy : R x y) : Same R (h.drain q x) (h.drain q y) :=
  hr.run _ q hxy

end Respects

end Host

/-! ### Plants -/

namespace Plant

/-- The same outlets, and stores that read alike. -/
structure Alike (p q : Plant) : Prop where
  store : p.store.Alike q.store
  outlets : q.outlets = p.outlets

namespace Alike

variable {p q : Plant}

theorem report (h : Alike p q) (n : Notice) : Alike (p.report n) (q.report n) :=
  ⟨h.store, congrArg (·.report n) h.outlets⟩

theorem release (h : Alike p q) (s : Snapshot) : Alike (p.release s) (q.release s) :=
  ⟨h.store.release s.buffer, h.outlets⟩

theorem clone (h : Alike p q) (s : Snapshot) :
    Alike { p with store := s.clone p.store } { q with store := s.clone q.store } :=
  ⟨h.store.clone s.buffer, h.outlets⟩

theorem log (h : Alike p q) (onWorker : Bool) (id : SinkId) (s : Snapshot) :
    Same Alike (p.log onWorker id s) (q.log onWorker id s) := by
  unfold Plant.log
  rw [h.store.record_eq, h.outlets]
  exact ⟨rfl, h.store, rfl⟩

theorem write (h : Alike p q) (onWorker : Bool) (id : SinkId) (bs : Bytes) :
    Same Alike (p.write onWorker id bs) (q.write onWorker id bs) := by
  unfold Plant.write
  rw [h.outlets]
  exact ⟨rfl, h.store, rfl⟩

theorem flush (h : Alike p q) (id : SinkId) : Same Alike (p.flush id) (q.flush id) := by
  unfold Plant.flush
  rw [h.outlets]
  exact ⟨rfl, h.store, rfl⟩

end Alike

theorem respects_host (id : SinkId) : (host id).Respects Alike where
  log s _ _ h := h.log true id s
  write bs _ _ h := h.write true id bs
  flush h := h.flush id
  release s _ _ h := h.release s
  report n _ _ h := h.report n

end Plant

/-! ### Adapters -/

namespace Adapter

open Plant (Alike)

variable {p q : Plant}

theorem alike_drain (a : Adapter) (h : Alike p q) : Same Alike (a.drain p) (a.drain q) := by
  obtain ⟨hqueue, hplant⟩ := (Plant.respects_host a.inner).drain a.queue h
  exact ⟨congrArg (fun queue => { a with queue := queue }) hqueue, hplant⟩

theorem alike_work (a : Adapter) (h : Alike p q) : Same Alike (a.work p) (a.work q) := by
  unfold work host
  rcases rel_cases ((Plant.respects_host a.inner).step? a.queue h) with ⟨hp, hq⟩ | ⟨x, y, hp, hq, hstep⟩
  · rw [hp, hq]
    exact ⟨rfl, h⟩
  · obtain ⟨queue, p', q', rfl, rfl, hplant⟩ := hstep.exists_eq
    rw [hp, hq]
    exact ⟨rfl, hplant⟩

theorem alike_offer (a : Adapter) (c : Command) (h : Alike p q) :
    Same (Same Alike) (a.offer c p) (a.offer c q) := by
  have hr := Plant.respects_host a.inner
  unfold offer
  rcases a.queue.offer c with ⟨admission, queue, notices⟩
  have hreported := hr.reportAll notices h
  cases admission with
  | accepted => exact ⟨rfl, rfl, hreported⟩
  | waits ticket => exact ⟨rfl, rfl, hreported⟩
  | dropped => exact ⟨rfl, rfl, hr.discard [c] hreported⟩
  | refused e => exact ⟨rfl, rfl, hr.discard [c] hreported⟩
  | preserved =>
    cases c with
    | raw bs => exact ⟨rfl, rfl, hreported⟩
    | flush ticket => exact ⟨rfl, rfl, hreported⟩
    | record s =>
      -- the caller delivers the record itself, past the queue
      obtain ⟨hanswer, hlogged⟩ := hreported.log false a.inner s
      dsimp only [host] at hanswer hlogged ⊢
      rw [hanswer]
      exact ⟨rfl, rfl, hr.discard [.record s] (hr.reportAll _ hlogged)⟩

theorem alike_log (a : Adapter) (s : Snapshot) (h : Alike p q) : Same (Same Alike) (a.log s p) (a.log s q) := by
  unfold log
  split
  · exact a.alike_offer (.record s) (h.clone s)
  · exact ⟨rfl, rfl, h⟩

theorem alike_expire (a : Adapter) (h : Alike p q) : Option.Rel (Same Alike) (a.expire p) (a.expire q) := by
  have hr := Plant.respects_host a.inner
  unfold expire
  split
  · exact .some ⟨rfl, hr.discard _ (hr.reportAll _ h)⟩
  · exact .none

theorem alike_flush (a : Adapter) (h : Alike p q) :
    Same (Same Alike) (a.flush drain p) (a.flush drain q) := by
  unfold flush
  split
  · obtain ⟨hadapter, hplant⟩ := alike_drain { a with queue := a.queue.askFlush.2 } h
    dsimp only
    rw [hadapter]
    cases a.queue.askFlush.1 with
    | accepted => exact ⟨rfl, rfl, hplant⟩
    | preserved => exact ⟨rfl, rfl, hplant⟩
    | dropped => exact ⟨rfl, rfl, hplant⟩
    | refused e => exact ⟨rfl, rfl, hplant⟩
    | waits ticket =>
      dsimp only
      split
      · exact ⟨rfl, rfl, hplant⟩
      · split
        · exact ⟨rfl, rfl, hplant⟩
        · exact ⟨rfl, rfl, hplant⟩
  · obtain ⟨hanswer, hplant⟩ := h.flush a.inner
    exact ⟨hanswer, rfl, hplant⟩

end Adapter

end Logbook
