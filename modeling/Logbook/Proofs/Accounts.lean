import Logbook.Proofs.Custody

/-!
# Accounts of handles

A store whose buffers count exactly the handles that are out: those that callers hold and those that factories
keep. Acquiring, cloning, writing, releasing and capturing move such an account by the handles that they give
out and take back, and by nothing else.
-/

namespace Logbook

/-- How many handles callers hold on every buffer. -/
abbrev Holdings := BufferId → Nat

namespace Holdings

def none : Holdings := fun _ => 0

/-- One handle more on `b`. -/
def more (held : Holdings) (b : BufferId) : Holdings := fun c => held c + if b = c then 1 else 0

/-- As many handles more as `bs` names. -/
def moreAll (held : Holdings) (bs : List BufferId) : Holdings := fun c => held c + bs.count c

theorem more_self (held : Holdings) (b : BufferId) : held.more b b = held b + 1 := by
  simp [more]

theorem more_of_ne (held : Holdings) {b c : BufferId} (h : b ≠ c) : held.more b c = held c := by
  simp [more, h]

theorem le_more (held : Holdings) (b c : BufferId) : held c ≤ held.more b c := Nat.le_add_right _ _

theorem moreAll_cons (held : Holdings) (b : BufferId) (bs : List BufferId) :
    held.moreAll (b :: bs) = (held.moreAll bs).more b := by
  funext c
  simp only [moreAll, more, List.count_cons, beq_iff_eq]
  omega

end Holdings

namespace Store

variable {s s' : Store} {held : Holdings} {b c : BufferId}

/-- How many handles on a buffer the factories keep. -/
def kept (s : Store) (b : BufferId) : Nat := s.factories.total fun f => f.held.count b

theorem releaseAll_factories (s : Store) (factories : Table Factory) (bs : List BufferId) :
    ({ s with factories := factories } : Store).releaseAll bs =
      { s.releaseAll bs with factories := factories } := by
  induction bs generalizing s with
  | nil => rfl
  | cons b rest ih =>
    have hone : ({ s with factories := factories } : Store).release b =
        { s.release b with factories := factories } := by
      unfold release
      dsimp only
      split
      · rfl
      · split <;> rfl
    show (({ s with factories := factories } : Store).release b).releaseAll rest = _
    rw [hone, ih]
    rfl

/-- The books are in order, and every buffer counts the handles that are out on it. -/
structure Accounted (s : Store) (held : Holdings) : Prop where
  nodes : s.Distinct .nodes
  slots : s.Distinct .slots
  balanced : ∃ acquired, s.Balanced acquired
  counted : s.Counted
  refs : ∀ b, s.refsOf b = held b + s.kept b

namespace Accounted

theorem congr (h : s.Accounted held) {held' : Holdings} (heq : ∀ b, held' b = held b) : s.Accounted held' :=
  funext heq ▸ h

theorem alive (h : s.Accounted held) (hb : 0 < held b) : ∃ x, s.buffers.get? b = some x := by
  apply exists_of_refsOf_pos
  have hrefs := h.refs b
  omega

/-- Handles are out on buffers of the past only. -/
theorem lt_next (h : s.Accounted held) (hb : 0 < held b) : b < s.buffers.next := by
  obtain ⟨x, hx⟩ := h.alive hb
  exact Table.lt_next_of_get? hx

theorem bytes_of_grown (h : s.Accounted held) (hgrown : Grown s s') (hb : 0 < held b) : s'.bytes b = s.bytes b := by
  unfold bytes
  rw [hgrown.buffers b (h.lt_next hb)]

/-! ### Acquiring -/

theorem acquireUnpooled (h : s.Accounted held) : s.acquireUnpooled.2.Accounted (held.more s.buffers.next) := by
  obtain ⟨acquired, hbal⟩ := h.balanced
  refine ⟨h.nodes.acquireUnpooled PartIds.lawful_nodes, h.slots.acquireUnpooled PartIds.lawful_slots,
    ⟨acquired, hbal.acquireUnpooled⟩, h.counted.push rfl rfl, fun b => ?_⟩
  have hrefs : s.acquireUnpooled.2.refsOf b = s.refsOf b + _ := refsOf_push rfl rfl b
  have hb := h.refs b
  have hkept : s.acquireUnpooled.2.kept b = s.kept b := rfl
  simp only [Holdings.more]
  omega

theorem acquirePooled (h : s.Accounted held) (p : PoolId) :
    (s.acquirePooled p).2.Accounted (held.more s.buffers.next) := by
  obtain ⟨acquired, hbal⟩ := h.balanced
  obtain ⟨x, -, hpush, hfactories, hone, -⟩ := s.acquirePooled_push p
  refine ⟨h.nodes.acquirePooled PartIds.lawful_nodes p, h.slots.acquirePooled PartIds.lawful_slots p,
    ⟨_, hbal.acquirePooled p fun q => rfl⟩, h.counted.push hpush hone, fun b => ?_⟩
  have hrefs := refsOf_push hpush hone b
  have hb := h.refs b
  have hkept : (s.acquirePooled p).2.kept b = s.kept b := by
    unfold kept
    rw [hfactories]
  simp only [Holdings.more]
  omega

/-! ### Cloning and writing -/

/- Both change a buffer in place: its parts and its pool stay, and what it counts afterwards has to be what is out. -/
theorem set (h : s.Accounted held) {x : Buffer} (y : Buffer) (hx : s.buffers.get? b = some x)
    (hnode : y.node.id = x.node.id) (hslot : y.slot.id = x.slot.id) (hpool : y.slot.pool = x.slot.pool)
    {held' : Holdings} (hout : ∀ c, held' c = held c + if b = c then held' b - held b else 0)
    (hrefs : y.slot.refs + held b = x.slot.refs + held' b) (hpos : 0 < y.slot.refs) :
    ({ s with buffers := s.buffers.set b y } : Store).Accounted held' := by
  obtain ⟨acquired, hbal⟩ := h.balanced
  refine ⟨h.nodes.of_le rfl fun i => Nat.le_of_eq (uses_set_buffer PartIds.lawful_nodes y hx hnode hslot i),
    h.slots.of_le rfl fun i => Nat.le_of_eq (uses_set_buffer PartIds.lawful_slots y hx hnode hslot i),
    ⟨acquired, hbal.set y hx hpool⟩, h.counted.set y hpos, fun c => ?_⟩
  have hc := h.refs c
  have houtc := hout c
  have hkept : ({ s with buffers := s.buffers.set b y } : Store).kept c = s.kept c := rfl
  rw [refsOf_set y hx, hkept]
  by_cases hcb : c = b
  · subst hcb
    rw [refsOf_of_some hx] at hc
    rw [if_pos rfl]
    omega
  · rw [if_neg hcb]
    rw [if_neg (Ne.symm hcb)] at houtc
    omega

theorem clone (h : s.Accounted held) (hb : 0 < s.refsOf b) : (s.clone b).Accounted (held.more b) := by
  obtain ⟨x, hx⟩ := exists_of_refsOf_pos hb
  rw [clone_of_some hx]
  refine h.set (moreOne x) hx rfl rfl rfl (fun c => ?_) ?_ (Nat.succ_pos _)
  · simp [Holdings.more]
  · have hmore := held.more_self b
    have hone : (moreOne x).slot.refs = x.slot.refs + 1 := rfl
    omega

theorem write? (h : s.Accounted held) {f : Node → Node} (hf : ∀ n, (f n).id = n.id)
    (hw : s.write? b f = some s') : s'.Accounted held := by
  obtain ⟨x, hx, hrefs, rfl⟩ := eq_of_write? hw
  refine h.set { x with node := f x.node } hx (hf x.node) rfl rfl (fun c => ?_) rfl ?_
  · simp
  · show 0 < x.slot.refs
    omega

theorem write?_getD (h : s.Accounted held) {f : Node → Node} (hf : ∀ n, (f n).id = n.id) :
    ((s.write? b f).getD s).Accounted held := by
  cases hw : s.write? b f with
  | none => exact h
  | some s' => exact h.write? hf hw

/-- Whoever holds a handle beside the one that is written through sees nothing of it. -/
theorem bytes_write? (h : s.Accounted held) (f : Node → Node) (hshared : b = c → 1 < held b) :
    ((s.write? b f).getD s).bytes c = s.bytes c := by
  cases hw : s.write? b f with
  | none => rfl
  | some s' =>
    obtain ⟨x, hx, hone, rfl⟩ := eq_of_write? hw
    have hne : c ≠ b := by
      intro he
      have hrefs := h.refs b
      have htwo := hshared he.symm
      rw [refsOf_of_some hx] at hrefs
      omega
    unfold bytes
    dsimp only [Option.getD_some]
    rw [Table.get?_set, if_neg hne]

/-- Writing needs the only handle there is. -/
theorem write?_isSome_iff (h : s.Accounted held) (hb : 0 < held b) (f : Node → Node) :
    (s.write? b f).isSome ↔ held b + s.kept b = 1 := by
  obtain ⟨x, hx⟩ := h.alive hb
  have hrefs := h.refs b
  rw [refsOf_of_some hx] at hrefs
  by_cases hone : x.slot.refs = 1
  · rw [write?_of_unique hx hone]
    simp only [Option.isSome_some, true_iff]
    omega
  · rw [write?_of_shared hx hone]
    simp only [Option.isSome_none, Bool.false_eq_true, false_iff]
    omega

/-! ### Releasing -/

theorem release (h : s.Accounted (held.more b)) : (s.release b).Accounted held := by
  have hmore := held.more_self b
  obtain ⟨x, hx⟩ := h.alive (b := b) (by omega)
  obtain ⟨acquired, hbal⟩ := h.balanced
  refine ⟨h.nodes.release PartIds.lawful_nodes b, h.slots.release PartIds.lawful_slots b,
    ⟨acquired, hbal.release b⟩, h.counted.release b, fun c => ?_⟩
  have hc := h.refs c
  have hrel := refsOf_release hx (h.counted b x hx) c
  have hkept : (s.release b).kept c = s.kept c := by
    unfold kept
    rw [factories_release]
  simp only [Holdings.more] at hc
  omega

theorem releaseAll {bs : List BufferId} (h : s.Accounted (held.moreAll bs)) :
    (s.releaseAll bs).Accounted held := by
  induction bs generalizing s with
  | nil => exact h
  | cons b rest ih =>
    rw [Holdings.moreAll_cons] at h
    exact ih h.release

/-- Those who still hold a handle see nothing of a release. -/
theorem bytes_release (h : s.Accounted (held.more b)) (hc : 0 < held c) : (s.release b).bytes c = s.bytes c := by
  by_cases hcb : c = b
  · subst hcb
    have hmore := held.more_self c
    obtain ⟨x, hx⟩ := h.alive (b := c) (by omega)
    have hrefs := h.refs c
    rw [refsOf_of_some hx] at hrefs
    rw [release_of_shared hx (by omega)]
    unfold bytes
    dsimp only
    rw [Table.get?_set, if_pos rfl, hx]
    rfl
  · exact bytes_release_of_ne hcb

theorem bytes_releaseAll {bs : List BufferId} (h : s.Accounted (held.moreAll bs)) (hc : 0 < held c) :
    (s.releaseAll bs).bytes c = s.bytes c := by
  induction bs generalizing s with
  | nil => rfl
  | cons b rest ih =>
    rw [Holdings.moreAll_cons] at h
    have hrest : 0 < held.moreAll rest c := Nat.lt_of_lt_of_le hc (Nat.le_add_right _ _)
    exact (ih h.release).trans (h.bytes_release hrest)

/-! ### Handles that factories keep -/

theorem keep (h : s.Accounted (held.more b)) {f : FactoryId} {source : Source} {bs : List BufferId}
    (hf : s.factories.get? f = some ⟨source, bs⟩) :
    ({ s with factories := s.factories.set f ⟨source, bs ++ [b]⟩ } : Store).Accounted held := by
  refine ⟨h.nodes, h.slots, h.balanced, h.counted, fun c => ?_⟩
  have hc := h.refs c
  have hset := Table.total_set hf ⟨source, bs ++ [b]⟩ fun f => f.held.count c
  have hcount : (bs ++ [b]).count c = bs.count c + if b = c then 1 else 0 := by
    simp only [List.count_append, List.count_singleton, beq_iff_eq]
  have hrefs : ({ s with factories := s.factories.set f ⟨source, bs ++ [b]⟩ } : Store).refsOf c = s.refsOf c := rfl
  simp only [Holdings.more] at hc
  unfold kept at hc ⊢
  dsimp only at hset ⊢
  omega

theorem handBack (h : s.Accounted held) {f : FactoryId} {factory : Factory}
    (hf : s.factories.get? f = some factory) :
    ({ s with factories := s.factories.erase f } : Store).Accounted (held.moreAll factory.held) := by
  refine ⟨h.nodes, h.slots, h.balanced, h.counted, fun c => ?_⟩
  have hc := h.refs c
  have herase := Table.total_erase hf fun f => f.held.count c
  have hrefs : ({ s with factories := s.factories.erase f } : Store).refsOf c = s.refsOf c := rfl
  simp only [Holdings.moreAll]
  unfold kept at hc ⊢
  dsimp only at herase ⊢
  omega

theorem dropFactory (h : s.Accounted held) (f : FactoryId) : (s.dropFactory f).Accounted held := by
  unfold Store.dropFactory
  cases hf : s.factories.get? f with
  | none => exact h
  | some factory =>
    have hback := (h.handBack hf).releaseAll
    rw [releaseAll_factories] at hback
    exact hback

theorem bytes_dropFactory (h : s.Accounted held) (f : FactoryId) (hc : 0 < held c) :
    (s.dropFactory f).bytes c = s.bytes c := by
  unfold Store.dropFactory
  cases hf : s.factories.get? f with
  | none => rfl
  | some factory =>
    have hback := (h.handBack hf).bytes_releaseAll hc
    rw [releaseAll_factories] at hback
    exact hback

/-- What every factory gives out is a new handle. -/
theorem acquire (h : s.Accounted held) (f : FactoryId) : (s.acquire f).2.Accounted (held.more s.buffers.next) := by
  cases hf : s.factories.get? f with
  | none =>
    rw [acquire_of_none hf]
    exact h.acquireUnpooled
  | some factory =>
    obtain ⟨source, bs⟩ := factory
    cases source with
    | heap =>
      rw [acquire_heap hf]
      exact h.acquireUnpooled
    | pool p =>
      rw [acquire_pool hf]
      exact h.acquirePooled p
    | aliasing p =>
      obtain ⟨x, hid, hpush, hfactories, hone, -⟩ := s.acquirePooled_push p
      have hnew := h.acquirePooled p
      have hrefs : 0 < (s.acquirePooled p).2.refsOf s.buffers.next := by
        rw [refsOf_push hpush hone, if_pos rfl]
        omega
      have hboth := hnew.clone hrefs
      rw [acquire_aliasing hf, hid]
      refine hboth.keep ?_
      show (s.acquirePooled p).2.factories.get? f = _
      rw [hfactories, hf]
    | stale p =>
      rw [acquire_stale hf]
      exact (h.acquirePooled p).write?_getD fun _ => rfl

end Accounted

end Store

/-! ### Captures -/

namespace Snapshot

open Store

variable (e : Entry) (isLocal : Bool) (offset : Int)

/-- A capture leaves one handle more, that of the snapshot, or none if it panicked. -/
def Entered (held : Holdings) : Except Panic Snapshot × Store → Prop
  | (.ok snapshot, store) => store.Accounted (held.more snapshot.buffer)
  | (.error _, store) => store.Accounted held

theorem finish_entered {filled : Store} {held : Holdings} {b : BufferId}
    (h : filled.Accounted (held.more b)) : Entered held (finish e isLocal b filled offset) := by
  unfold finish
  cases e.time.decompose isLocal offset with
  | ok time => exact h
  | error p => exact h.release

theorem capture_entered {s : Store} {held : Holdings} (h : s.Accounted held) (f : FactoryId) :
    Entered held (capture e isLocal (·.acquire f) s offset) := by
  have hid := (s.acquire_grown f).2
  have hnew := h.acquire f
  unfold capture
  dsimp only
  rw [hid]
  cases hw : (s.acquire f).2.write? s.buffers.next (·.refill e.text) with
  | some filled => exact finish_entered e isLocal offset (hnew.write? (f := (·.refill e.text)) (fun _ => rfl) hw)
  | none =>
    -- two buffers are out until the one that others hold too is given back
    have hfilled := hnew.acquireUnpooled.write?_getD (b := (s.acquire f).2.buffers.next)
      (f := (·.refill e.text)) fun _ => rfl
    have hend := finish_entered e isLocal offset hfilled
    revert hend
    rw [acquireUnpooled_eq]
    dsimp only
    cases finish e isLocal _ _ offset with
    | mk result store =>
      cases result with
      | ok snapshot =>
        intro hend
        refine Accounted.release (hend.congr fun c => ?_)
        simp only [Holdings.more]
        omega
      | error p =>
        intro hend
        exact Accounted.release hend

end Snapshot

end Logbook
