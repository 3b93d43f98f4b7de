import Logbook.Proofs.Bookkeeping
import Logbook.Snapshot

/-!
# Captured entries

A snapshot shows the entry that it was captured from, whatever factory its buffer came from: one that is empty,
one that holds old text, or one that others hold too.
-/

namespace Logbook

/-! ### Spans -/

theorem Span.of_append (before part behind : Bytes) :
    (⟨before.length, before.length + part.length⟩ : Span).of (before ++ part ++ behind) = part := by
  unfold Span.of
  rw [List.append_assoc, List.drop_left, Nat.add_sub_cancel_left, List.take_left]

/-- A snapshot over a buffer that holds the texts of an entry shows that entry. -/
theorem Snapshot.record_ofFilled {e : Entry} {b : BufferId} {store : Store} (h : store.bytes b = e.text)
    (time : CivilTime) :
    (ofFilled e b time).record store = ⟨e.severity, e.name, e.file, e.line, e.message, time⟩ := by
  have hname := Span.of_append [] e.name (e.file ++ e.line ++ e.message)
  have hfile := Span.of_append e.name e.file (e.line ++ e.message)
  have hline := Span.of_append (e.name ++ e.file) e.line e.message
  have hmessage := Span.of_append (e.name ++ e.file ++ e.line) e.message []
  simp only [List.length_nil, Nat.zero_add, List.nil_append, List.append_nil, List.length_append,
    ← List.append_assoc] at hname hfile hline hmessage
  simp only [record, ofFilled, h, Entry.text, Span.next, hname, hfile, hline, hmessage]

/-! ### Buffers of a factory -/

namespace Store

variable {s : Store}

theorem bytes_of_some {b : BufferId} {x : Buffer} (h : s.buffers.get? b = some x) : s.bytes b = x.node.bytes := by
  unfold bytes
  rw [h]

/-- Only a buffer with a single handle can be written. -/
theorem eq_of_write? {b : BufferId} {f : Node → Node} {s' : Store} (h : s.write? b f = some s') :
    ∃ x : Buffer, s.buffers.get? b = some x ∧ x.slot.refs = 1 ∧
      s' = { s with buffers := s.buffers.set b { x with node := f x.node } } := by
  cases hb : s.buffers.get? b with
  | none =>
    rw [write?_of_none hb] at h
    cases h
  | some x =>
    by_cases hrefs : x.slot.refs = 1
    · rw [write?_of_unique hb hrefs] at h
      cases h
      exact ⟨x, rfl, hrefs, rfl⟩
    · rw [write?_of_shared hb hrefs] at h
      cases h

theorem get?_write? {b : BufferId} {f : Node → Node} {s' : Store} (h : s.write? b f = some s') :
    ∃ x : Buffer, s'.buffers.get? b = some { x with node := f x.node } := by
  obtain ⟨x, hb, -, rfl⟩ := eq_of_write? h
  refine ⟨x, ?_⟩
  dsimp only
  rw [Table.get?_set, if_pos rfl, hb]
  rfl

theorem bytes_refill {b : BufferId} {bs : Bytes} {s' : Store} (h : s.write? b (·.refill bs) = some s') :
    s'.bytes b = bs := by
  obtain ⟨x, hx⟩ := get?_write? h
  rw [bytes_of_some hx]
  rfl

/-- A new buffer can be written. -/
theorem write?_acquireUnpooled (s : Store) (f : Node → Node) :
    ∃ s', s.acquireUnpooled.2.write? s.acquireUnpooled.1 f = some s' :=
  ⟨_, write?_of_unique (Table.get?_push_next s.buffers (ofHeap s.buffers.next)) rfl f⟩

/-- Releasing one buffer leaves the others as they are. -/
theorem get?_release_of_ne {b c : BufferId} (hc : c ≠ b) : (s.release b).buffers.get? c = s.buffers.get? c := by
  cases hb : s.buffers.get? b with
  | none => rw [release_of_none hb]
  | some x =>
    by_cases hrefs : x.slot.refs = 1
    · rw [release_of_last hb hrefs]
      dsimp only
      rw [Table.get?_erase, if_neg hc]
    · rw [release_of_shared hb hrefs]
      dsimp only
      rw [Table.get?_set, if_neg hc]

theorem bytes_release_of_ne {b c : BufferId} (hc : c ≠ b) : (s.release b).bytes c = s.bytes c := by
  unfold bytes
  rw [get?_release_of_ne hc]

theorem acquirePooled_alive (s : Store) (p : PoolId) :
    ∃ x, (s.acquirePooled p).2.buffers.get? (s.acquirePooled p).1 = some x := by
  obtain ⟨x, hid, hpush, _⟩ := s.acquirePooled_push p
  refine ⟨x, ?_⟩
  rw [hid, hpush, Table.get?_push_next]

/-- Every factory gives out buffers that are alive. -/
theorem acquire_alive (s : Store) (f : FactoryId) :
    ∃ x, (s.acquire f).2.buffers.get? (s.acquire f).1 = some x := by
  have hheap : ∃ x, s.acquireUnpooled.2.buffers.get? s.acquireUnpooled.1 = some x :=
    ⟨_, Table.get?_push_next _ _⟩
  cases hf : s.factories.get? f with
  | none =>
    rw [acquire_of_none hf]
    exact hheap
  | some factory =>
    obtain ⟨source, held⟩ := factory
    cases source with
    | heap =>
      rw [acquire_heap hf]
      exact hheap
    | pool p =>
      rw [acquire_pool hf]
      exact s.acquirePooled_alive p
    | aliasing p =>
      obtain ⟨x, hx⟩ := s.acquirePooled_alive p
      rw [acquire_aliasing hf, clone_of_some hx]
      refine ⟨moreOne x, ?_⟩
      dsimp only
      rw [Table.get?_set, if_pos rfl, hx]
      rfl
    | stale p =>
      obtain ⟨x, hx⟩ := s.acquirePooled_alive p
      rw [acquire_stale hf]
      cases hw : (s.acquirePooled p).2.write? (s.acquirePooled p).1 (·.extend staleText) with
      | none => exact ⟨x, hx⟩
      | some s' =>
        obtain ⟨y, hy⟩ := get?_write? hw
        exact ⟨_, hy⟩

end Store

/-! ### Capturing -/

namespace Snapshot

variable (e : Entry) (isLocal : Bool) (offset : Int)

/- A buffer that the factory alone could not write is given back at the end, and that leaves the new one alone. -/
theorem capture_eq (f : FactoryId) (store : Store) :
    ∃ (b : BufferId) (filled : Store) (close : Store → Store),
      filled.bytes b = e.text ∧ (∀ s : Store, (close s).bytes b = s.bytes b) ∧
      capture e isLocal (·.acquire f) store offset =
        ((finish e isLocal b filled offset).1, close (finish e isLocal b filled offset).2) := by
  obtain ⟨x, hx⟩ := store.acquire_alive f
  unfold capture
  dsimp only
  cases hw : (store.acquire f).2.write? (store.acquire f).1 (·.refill e.text) with
  | some filled => exact ⟨(store.acquire f).1, filled, id, Store.bytes_refill hw, fun _ => rfl, rfl⟩
  | none =>
    have hne : (store.acquire f).2.acquireUnpooled.1 ≠ (store.acquire f).1 :=
      Nat.ne_of_gt (Table.lt_next_of_get? hx)
    obtain ⟨filled, hfilled⟩ := (store.acquire f).2.write?_acquireUnpooled (·.refill e.text)
    refine ⟨(store.acquire f).2.acquireUnpooled.1, filled, (·.release (store.acquire f).1),
      Store.bytes_refill hfilled, fun s => Store.bytes_release_of_ne hne, ?_⟩
    rw [hfilled]
    rfl

/-- A buffer from a pool has a single handle, so the entry is written into it. -/
theorem capture_of_pool {f : FactoryId} {store : Store} {p : PoolId} {kept : List BufferId}
    (hf : store.factories.get? f = some ⟨.pool p, kept⟩) :
    ∃ filled, (store.acquirePooled p).2.write? store.buffers.next (·.refill e.text) = some filled ∧
      capture e isLocal (·.acquire f) store offset = finish e isLocal store.buffers.next filled offset := by
  obtain ⟨x, hid, hpush, -, hone, -⟩ := store.acquirePooled_push p
  have hget : (store.acquirePooled p).2.buffers.get? store.buffers.next = some x := by
    rw [hpush]
    exact Table.get?_push_next _ _
  have hfilled := Store.write?_of_unique hget hone (·.refill e.text)
  refine ⟨_, hfilled, ?_⟩
  unfold capture
  dsimp only
  rw [Store.acquire_pool hf, hid, hfilled]

/-- A capture ends as the splitting of the entry's time does, and its snapshot shows the entry. -/
theorem capture_cases (f : FactoryId) (store : Store) :
    (∃ s store', capture e isLocal (·.acquire f) store offset = (.ok s, store') ∧
      e.record isLocal offset = .ok (s.record store')) ∨
    (∃ p store', capture e isLocal (·.acquire f) store offset = (.error p, store') ∧
      e.record isLocal offset = .error p) := by
  obtain ⟨b, filled, close, hfilled, hclose, heq⟩ := capture_eq e isLocal offset f store
  rw [heq]
  unfold finish Entry.record
  cases htime : e.time.decompose isLocal offset with
  | ok time =>
    refine .inl ⟨ofFilled e b time, close filled, rfl, ?_⟩
    rw [record_ofFilled ((hclose filled).trans hfilled)]
    rfl
  | error p => exact .inr ⟨p, _, rfl, rfl⟩

end Snapshot

end Logbook
