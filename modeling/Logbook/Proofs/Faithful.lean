import Logbook.Proofs.Capture

/-!
# Faithful captures

Whatever buffer a factory hands out, with old text in it or shared with others, a capture ends with a snapshot that
shows the entry and nothing else. The texts are put into a buffer one after another. Room for all of them is made
before, so that the buffer grows once and by no more than they need.
-/

namespace Logbook

/-! ### Laying texts into a node -/

namespace Node

/-- Room for so many octets behind those that are there. If there is too little, just that much is made. -/
def reserve (n : Node) (more : Nat) : Node := { n with capacity := max n.capacity (n.bytes.length + more) }

/-- Put texts behind one another and note where each of them comes to lie. -/
def lay (n : Node) : List Bytes → Node × List Span
  | [] => (n, [])
  | bs :: rest =>
    let (last, spans) := (n.extend bs).lay rest
    (last, ⟨n.bytes.length, (n.extend bs).bytes.length⟩ :: spans)

theorem extend_of_room {n : Node} {bs : Bytes} (h : n.bytes.length + bs.length ≤ n.capacity) :
    n.extend bs = { n with bytes := n.bytes ++ bs } := by
  simp [extend, Nat.not_lt.mpr h]

theorem lay_of_room {n : Node} {texts : List Bytes} (h : n.bytes.length + texts.flatten.length ≤ n.capacity) :
    (n.lay texts).1 = { n with bytes := n.bytes ++ texts.flatten } := by
  induction texts generalizing n with
  | nil => simp [lay]
  | cons bs rest ih =>
    rw [List.flatten_cons, List.length_append] at h
    have hfirst : n.extend bs = { n with bytes := n.bytes ++ bs } := extend_of_room (by omega)
    have hrest := ih (n := n.extend bs) (by simp only [hfirst, List.length_append]; omega)
    show ((n.extend bs).lay rest).1 = _
    rw [hrest, hfirst, List.flatten_cons, List.append_assoc]

/- The texts of an entry find the room that was made for them, and each begins where the one before it ends. -/
theorem lay_fields (n : Node) (e : Entry) (b : BufferId) (time : CivilTime) :
    (n.clear.reserve e.text.length).lay e.fields =
      (n.refill e.text, [(Snapshot.ofFilled e b time).name, (Snapshot.ofFilled e b time).file,
        (Snapshot.ofFilled e b time).line, (Snapshot.ofFilled e b time).message]) := by
  have htext : e.fields.flatten = e.text := by simp [Entry.fields, Entry.text]
  refine Prod.ext ?_ ?_
  · rw [lay_of_room]
    · simp [htext, reserve, clear, refill]
    · simp only [htext, reserve, clear, List.length_nil, Nat.zero_add]
      exact Nat.le_max_right _ _
  · simp only [lay, Entry.fields, extend, reserve, clear, Snapshot.ofFilled, Span.next, List.nil_append,
      List.length_nil, List.length_append]

end Node

/-! ### The two ways of a capture -/

namespace Snapshot

variable {e : Entry} {isLocal : Bool} {offset : Int} {acquire : Store → BufferId × Store} {store given : Store}
  {b : BufferId} {x : Buffer} {time : CivilTime}

theorem capture_of_unique (hacquire : acquire store = (b, given)) (hx : given.buffers.get? b = some x)
    (hrefs : x.slot.refs = 1) (htime : e.time.decompose isLocal offset = .ok time) :
    capture e isLocal acquire store offset =
      (.ok (ofFilled e b time),
        { given with buffers := given.buffers.set b { x with node := x.node.refill e.text } }) := by
  simp only [capture, hacquire, Store.write?_of_unique hx hrefs, finish, htime]

/- A new buffer has one handle, so that a capture into it does not look for another. -/
theorem capture_of_shared (e : Entry) (isLocal : Bool) (offset : Int) (hacquire : acquire store = (b, given))
    (hx : given.buffers.get? b = some x) (hrefs : x.slot.refs ≠ 1) :
    capture e isLocal acquire store offset =
      ((capture e isLocal (·.acquireUnpooled) given offset).1,
        (capture e isLocal (·.acquireUnpooled) given offset).2.release b) := by
  obtain ⟨filled, hfilled⟩ := given.write?_acquireUnpooled (·.refill e.text)
  simp only [capture, hacquire, Store.write?_of_shared hx hrefs, hfilled, Option.getD_some]

/-- A snapshot is a copy of an entry: it shows its severity and its texts, with the time split up. The texts are all that
is in the buffer, and their spans follow each other from its start to its end. -/
structure Copies (s : Snapshot) (store : Store) (e : Entry) (time : CivilTime) : Prop where
  record : s.record store = ⟨e.severity, e.name, e.file, e.line, e.message, time⟩
  severity : s.severity = e.severity
  moment : s.time = time
  bytes : store.bytes s.buffer = e.name ++ e.file ++ e.line ++ e.message
  name : s.name.start = 0
  file : s.file.start = s.name.stop
  line : s.line.start = s.file.stop
  message : s.message.start = s.line.stop
  stop : s.message.stop = (store.bytes s.buffer).length

theorem copies_ofFilled (h : store.bytes b = e.text) (time : CivilTime) :
    (ofFilled e b time).Copies store e time := by
  refine ⟨record_ofFilled h time, rfl, rfl, h, rfl, rfl, rfl, rfl, ?_⟩
  show _ = (store.bytes b).length
  simp only [h, Entry.text, ofFilled, Span.next, List.length_append]

theorem capture_unpooled (given : Store) (htime : e.time.decompose isLocal offset = .ok time) :
    ∃ filled, capture e isLocal (·.acquireUnpooled) given offset = (.ok (ofFilled e given.buffers.next time), filled) ∧
      filled.buffers.get? given.buffers.next =
        some { Store.ofHeap given.buffers.next with node := (Node.fresh given.buffers.next).refill e.text } ∧
      ∀ c, c ≠ given.buffers.next → filled.buffers.get? c = given.buffers.get? c := by
  have hnew : given.acquireUnpooled.2.buffers.get? given.buffers.next = some (Store.ofHeap given.buffers.next) :=
    Table.get?_push_next _ _
  refine ⟨_, @capture_of_unique e isLocal offset (·.acquireUnpooled) given _ _ _ time rfl hnew rfl htime, ?_, ?_⟩
  · dsimp only
    rw [Table.get?_set, if_pos rfl]
    exact congrArg (Option.map _) hnew
  · intro c hc
    dsimp only
    rw [Table.get?_set, if_neg hc]
    exact (Table.get?_push _ _ c).trans (if_neg hc)

/-- A capture of an entry whose time can be split up returns a copy of it. Of a factory nothing is asked but a handle
on a live buffer. If that is the only handle, the texts are laid into the buffer in place of what was there, and its
room is then what it had or what the texts need. If there are others, the buffer loses the handle and nothing else,
and the copy is in a new buffer that belongs to no pool. -/
theorem capture_faithful (e : Entry) (isLocal : Bool) (offset : Int) (acquire : Store → BufferId × Store)
    (store given : Store) (b : BufferId) (x : Buffer) (time : CivilTime) (hacquire : acquire store = (b, given))
    (hx : given.buffers.get? b = some x) (htime : e.time.decompose isLocal offset = .ok time) :
    ∃ s store', capture e isLocal acquire store offset = (.ok s, store') ∧ s.Copies store' e time ∧
      (x.slot.refs = 1 → s.buffer = b ∧
        ∃ node, store'.buffers.get? b = some ⟨node, x.slot⟩ ∧
          (x.node.clear.reserve e.text.length).lay e.fields = (node, [s.name, s.file, s.line, s.message]) ∧
          node.capacity = max x.node.capacity e.text.length) ∧
      (1 < x.slot.refs → given.buffers.get? s.buffer = none ∧
        (∃ node slot, store'.buffers.get? s.buffer = some ⟨node, slot⟩ ∧ slot.refs = 1 ∧ slot.pool = none) ∧
        store'.bytes b = given.bytes b ∧
        store'.buffers.get? b = some ⟨x.node, { x.slot with refs := x.slot.refs - 1 }⟩) := by
  by_cases hone : x.slot.refs = 1
  · have hbytes := Store.bytes_refill (Store.write?_of_unique hx hone (·.refill e.text))
    have hnow : (given.buffers.set b { x with node := x.node.refill e.text }).get? b =
        some ⟨x.node.refill e.text, x.slot⟩ := by
      rw [Table.get?_set, if_pos rfl, hx]
      rfl
    refine ⟨_, _, capture_of_unique hacquire hx hone htime, copies_ofFilled hbytes time, fun _ => ?_, fun hmore => ?_⟩
    · exact ⟨rfl, _, hnow, Node.lay_fields x.node e b time, rfl⟩
    · omega
  · obtain ⟨filled, hcapture, hnew, hother⟩ := capture_unpooled given htime
    have hlt : b < given.buffers.next := Table.lt_next_of_get? hx
    have hb : filled.buffers.get? b = some x := (hother b (Nat.ne_of_lt hlt)).trans hx
    -- the buffer that was handed out is not the new one, so giving it back leaves the copy alone
    have hkept : (filled.release b).buffers.get? given.buffers.next = _ :=
      (Store.get?_release_of_ne (Nat.ne_of_gt hlt)).trans hnew
    have hback : (filled.release b).buffers.get? b = some (Store.lessOne x) := by
      rw [Store.release_of_shared hb hone]
      dsimp only
      rw [Table.get?_set, if_pos rfl, hb]
      rfl
    have hshared := capture_of_shared e isLocal offset hacquire hx hone
    rw [hcapture] at hshared
    refine ⟨_, _, hshared, copies_ofFilled (Store.bytes_of_some hkept) time, fun h => absurd h hone, fun _ => ?_⟩
    refine ⟨Table.get?_next _, ⟨_, _, hkept, rfl, rfl⟩, ?_, hback⟩
    rw [Store.bytes_of_some hback, Store.bytes_of_some hx]
    rfl

/- One factory keeps a handle on what it gives out, the other gives out old text. -/
theorem capture_faithful_lent :
    let store := (((Store.empty.addPool .unbounded).2.addFactory (.aliasing 0)).2.addFactory (.stale 0)).2
    let e : Entry := ⟨.warn, [1], [], [2], [3, 4], .epoch⟩
    let time := Timestamp.epoch.atOffset 20700 true
    (∃ s store', capture e true (·.acquire 0) store 20700 = (.ok s, store') ∧ s.Copies store' e time ∧
      (store.acquire 0).2.buffers.get? s.buffer = none ∧ store'.bytes 0 = []) ∧
    ∃ s store', capture e true (·.acquire 1) store 20700 = (.ok s, store') ∧ s.Copies store' e time ∧
      s.buffer = 0 ∧ ∃ y, store'.buffers.get? 0 = some y ∧ y.node.capacity = 1024 := by
  intro store e time
  constructor
  · obtain ⟨s, store', hcapture, hcopies, -, hshared⟩ :=
      capture_faithful e true 20700 (·.acquire 0) store _ 0 _ time rfl rfl rfl
    obtain ⟨hnew, -, hbytes, -⟩ := hshared (by decide)
    exact ⟨s, store', hcapture, hcopies, hnew, hbytes⟩
  · obtain ⟨s, store', hcapture, hcopies, hunique, -⟩ :=
      capture_faithful e true 20700 (·.acquire 1) store _ 0 _ time rfl rfl rfl
    obtain ⟨hbuffer, node, hnode, -, hroom⟩ := hunique (by decide)
    exact ⟨s, store', hcapture, hcopies, hbuffer, _, hnode, hroom.trans (by decide)⟩

end Snapshot

end Logbook
