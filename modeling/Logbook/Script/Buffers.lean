import Logbook.Script.Session

/-!
# Operations on pools, buffers, snapshots and formatters
-/

namespace Logbook.Script.Session

/-! ### Pools -/

def addPool (id : String) (limits : PoolLimits) : Step := fun s =>
  let (pool, store) := s.store.addPool limits
  (.ok, { s.setStore store with pools := s.pools.insert id pool })

def clonePool (pool id : String) : Step :=
  withNamed Session.pools pool fun p s => (.ok, { s with pools := s.pools.insert id p })

def forgetPool (pool : String) : Step := fun s =>
  (.existed (s.pools.contains pool), { s with pools := s.pools.erase pool })

def poolState (pool : String) : Step :=
  withNamed Session.pools pool fun p s =>
    match s.store.pools.get? p with
    | some pool => (.pool pool, s)
    | none => (.missing, s)

/-! ### Buffers -/

/-- Take `n` buffers from a factory, put in front of `taken` in reverse. -/
def acquireOnto (f : FactoryId) : Nat → List BufferId → Store → List BufferId × Store
  | 0, taken, store => (taken, store)
  | n + 1, taken, store =>
    let (b, store) := store.acquire f
    acquireOnto f n (b :: taken) store

/-- Take buffers, count those that are not empty, and give them back in the order in which they came. -/
def churn (source : SourceRef) (n : Nat) : Step :=
  withFactory source fun f s =>
    let (taken, store) := acquireOnto f n [] s.store
    let dirty := (taken.filter fun b => !(store.bytes b).isEmpty).length
    (.dirty dirty, s.setStore (store.releaseAll taken.reverse))

def bufferAnswer (s : Session) (b : BufferId) : Answer :=
  match s.store.buffers.get? b with
  | some buffer => .buffer buffer
  | none => .missing

/-- Answer with a buffer and then name it. -/
def answerBuffer (id : String) (b : BufferId) : Step := fun s => (s.bufferAnswer b, s.nameBuffer id b)

/-- Take a buffer from a factory that ends as soon as the buffer is there. -/
def acquire (id : String) (source : SourceRef) : Step := fun s =>
  match s.source? source with
  | none => (.missing, s)
  | some source =>
    let (factory, store) := s.store.addFactory source
    let (b, store) := store.acquire factory
    answerBuffer id b (s.setStore (store.dropFactory factory))

def acquireFrom (id registry : String) : Step :=
  withNamed Session.registries registry fun r s =>
    match s.world.registries.get? r with
    | some registry =>
      let (b, store) := s.store.acquire registry.factory
      answerBuffer id b (s.setStore store)
    | none => (.missing, s)

def writeBuffer (buffer : String) (bs : Bytes) : Step :=
  withNamed Session.buffers buffer fun b s =>
    let (done, s) :=
      match s.store.write? b (·.extend bs) with
      | some store => (true, s.setStore store)
      | none => (false, s)
    match s.store.buffers.get? b with
    | some buffer => (.wrote done buffer.node.bytes.length buffer.node.capacity, s)
    | none => (.missing, s)

def cloneBuffer (buffer id : String) : Step :=
  withNamed Session.buffers buffer fun b s =>
    let s := s.setStore (s.store.clone b)
    (s.bufferAnswer b, s.nameBuffer id b)

def forgetBuffer (buffer : String) : Step := fun s =>
  match s.buffers.find? buffer with
  | some b =>
    let s := { s with buffers := s.buffers.erase buffer }
    (.existed true, s.setStore (s.store.release b))
  | none => (.existed false, s)

def bufferState (buffer : String) : Step :=
  withNamed Session.buffers buffer fun b s => (s.bufferAnswer b, s)

def compareBuffers (buffer other : String) : Step :=
  withNamed Session.buffers buffer fun a =>
    withNamed Session.buffers other fun b s =>
      (.comparison (a == b) (s.store.bytes a == s.store.bytes b), s)

/-! ### Snapshots -/

def snapshotAnswer (s : Session) (snapshot : Snapshot) : Answer :=
  match s.store.buffers.get? snapshot.buffer with
  | some buffer => .snapshot snapshot buffer
  | none => .missing

/-- Capture an entry and name the snapshot. The factory outlives the snapshot that had the name. -/
def capture (id : String) (source : SourceRef) (isLocal : Bool) (e : Option Entry) : Step :=
  match e with
  | none => fun s => (.badTimestamp, s)
  | some e =>
    withFactory source fun f s =>
      match Snapshot.capture e isLocal (·.acquire f) s.store with
      | (.error p, store) => (.panicked p, s.setStore store)
      | (.ok snapshot, store) =>
        let s := s.setStore store
        (s.snapshotAnswer snapshot, s.nameSnapshot id snapshot)

def cloneSnapshot (snapshot id : String) : Step :=
  withNamed Session.snapshots snapshot fun snapshot s =>
    let s := s.setStore (snapshot.clone s.store)
    (.ok, s.nameSnapshot id snapshot)

def snapshotBuffer (snapshot id : String) : Step :=
  withNamed Session.snapshots snapshot fun snapshot s =>
    let s := s.setStore (snapshot.clone s.store)
    (.ok, s.nameBuffer id snapshot.buffer)

def forgetSnapshot (snapshot : String) : Step := fun s =>
  match s.snapshots.find? snapshot with
  | some old => (.existed true, { s with snapshots := s.snapshots.erase snapshot }.dropSnapshot old)
  | none => (.existed false, s)

def snapshotState (snapshot : String) : Step :=
  withNamed Session.snapshots snapshot fun snapshot s => (s.snapshotAnswer snapshot, s)

/-! ### Formatters -/

def addFormatter (id : String) (layout : Layout) : Step := fun s =>
  let (f, outlets) := s.outlets.addFormatter (.ofLayout layout)
  (.ok, { s.setOutlets outlets with formatters := s.formatters.insert id f })

def formatterState (formatter : String) : Step :=
  withNamed Session.formatters formatter fun f s =>
    match s.outlets.formatters.get? f with
    | some formatter => (.formatter formatter, s)
    | none => (.missing, s)

end Logbook.Script.Session
