import Logbook.Buffer.Store
import Logbook.Proofs.Tables

/-!
# Parts of a pool

What taking and parking do to a free list and to the counts beside it. Nodes and slots follow one rule, so
everything is said of parts of any kind first.
-/

namespace Logbook

/-! ### Free lists -/

/-- The list knows its height and keeps to its limit. -/
structure FreeList.Within {α : Type} (l : FreeList α) (limit : Option Nat) : Prop where
  length_eq : l.length = l.items.length
  le_limit : ∀ n, limit = some n → l.length ≤ n

/-- Taking a part never counts below zero. -/
theorem FreeList.Within.pop_length {α : Type} {l rest : FreeList α} {limit : Option Nat} {a : α}
    (h : l.Within limit) (hpop : l.pop = (some a, rest)) : rest.length + 1 = l.length := by
  have hlen := h.length_eq
  unfold FreeList.pop at hpop
  split at hpop
  · cases hpop
  · rename_i hitems
    cases hpop
    rw [hitems, List.length_cons] at hlen
    show l.length - 1 + 1 = l.length
    omega

namespace Parts

variable {α : Type}

/-! ### Taking and parking -/

/-- A part is taken off the list, or made because none is parked. -/
theorem take_cases (p : Parts α) (fresh : α) :
    (∃ a rest, p.free.items = a :: rest ∧
      p.take fresh = (a, ⟨⟨rest, p.free.length - 1⟩, { p.counts with reused := p.counts.reused + 1 }⟩)) ∨
    (p.free.items = [] ∧
      p.take fresh = (fresh, { p with counts := { p.counts with allocated := p.counts.allocated + 1 } })) := by
  unfold take FreeList.pop
  cases hitems : p.free.items with
  | nil => exact .inr ⟨rfl, rfl⟩
  | cons a rest => exact .inl ⟨a, rest, rfl, rfl⟩

/-- A part is put on the list, or given up because the list is full. -/
theorem park_cases (p : Parts α) (limit : Option Nat) (a : α) :
    (p.free.isFull limit = false ∧
      p.park limit a = { p with free := ⟨a :: p.free.items, p.free.length + 1⟩ }) ∨
    (p.free.isFull limit = true ∧
      p.park limit a = { p with counts := { p.counts with freed := p.counts.freed + 1 } }) := by
  unfold park FreeList.push
  cases hfull : p.free.isFull limit with
  | false => exact .inl ⟨rfl, rfl⟩
  | true => exact .inr ⟨rfl, rfl⟩

/-- What holds of all parked parts and of a new one holds of the part that is taken, and still of the parked. -/
theorem take_all (P : α → Prop) {p : Parts α} (fresh : α) (hfresh : P fresh)
    (h : ∀ a ∈ p.free.items, P a) :
    P (p.take fresh).1 ∧ ∀ a ∈ (p.take fresh).2.free.items, P a := by
  obtain ⟨a, rest, hitems, htake⟩ | ⟨hitems, htake⟩ := p.take_cases fresh
  · rw [htake]
    rw [hitems] at h
    exact ⟨h a List.mem_cons_self, fun b mem => h b (List.mem_cons_of_mem _ mem)⟩
  · rw [htake]
    exact ⟨hfresh, h⟩

theorem park_all (P : α → Prop) {p : Parts α} {limit : Option Nat} {a : α} (ha : P a)
    (h : ∀ b ∈ p.free.items, P b) : ∀ b ∈ (p.park limit a).free.items, P b := by
  obtain ⟨_, hpark⟩ | ⟨_, hpark⟩ := p.park_cases limit a
  · rw [hpark]
    intro b mem
    rcases List.mem_cons.mp mem with rfl | mem
    · exact ha
    · exact h b mem
  · rw [hpark]
    exact h

/-! ### The balance of parts -/

/-- The books of one kind of part, while `live` of them are in use and `acquired` have been handed out so far. -/
structure Balanced (p : Parts α) (limit : Option Nat) (live acquired : Nat) : Prop where
  within : p.free.Within limit
  conserved : p.counts.allocated = p.free.length + live + p.counts.freed
  handedOut : p.counts.allocated + p.counts.reused = acquired

theorem balanced_empty (limit : Option Nat) : (empty : Parts α).Balanced limit 0 0 where
  within := ⟨rfl, fun n _ => Nat.zero_le n⟩
  conserved := rfl
  handedOut := rfl

theorem Balanced.take {p : Parts α} {limit : Option Nat} {live acquired : Nat}
    (h : p.Balanced limit live acquired) (fresh : α) :
    (p.take fresh).2.Balanced limit (live + 1) (acquired + 1) := by
  obtain ⟨⟨hlen, hle⟩, hcons, hout⟩ := h
  obtain ⟨a, rest, hitems, htake⟩ | ⟨hitems, htake⟩ := p.take_cases fresh
  · rw [htake]
    rw [hitems, List.length_cons] at hlen
    refine ⟨⟨?_, ?_⟩, ?_, ?_⟩
    · show p.free.length - 1 = rest.length
      omega
    · intro n hn
      have := hle n hn
      show p.free.length - 1 ≤ n
      omega
    · show p.counts.allocated = p.free.length - 1 + (live + 1) + p.counts.freed
      omega
    · show p.counts.allocated + (p.counts.reused + 1) = acquired + 1
      omega
  · rw [htake]
    refine ⟨⟨hlen, hle⟩, ?_, ?_⟩
    · show p.counts.allocated + 1 = p.free.length + (live + 1) + p.counts.freed
      omega
    · show p.counts.allocated + 1 + p.counts.reused = acquired + 1
      omega

theorem Balanced.park {p : Parts α} {limit : Option Nat} {live acquired : Nat}
    (h : p.Balanced limit (live + 1) acquired) (a : α) : (p.park limit a).Balanced limit live acquired := by
  obtain ⟨⟨hlen, hle⟩, hcons, hout⟩ := h
  obtain ⟨hfull, hpark⟩ | ⟨_, hpark⟩ := p.park_cases limit a
  · rw [hpark]
    refine ⟨⟨?_, ?_⟩, ?_, hout⟩
    · show p.free.length + 1 = (a :: p.free.items).length
      rw [List.length_cons, hlen]
    · intro n hn
      rw [hn] at hfull
      have hroom : ¬ n ≤ p.free.length := by simpa [FreeList.isFull] using hfull
      show p.free.length + 1 ≤ n
      omega
    · show p.counts.allocated = p.free.length + 1 + live + p.counts.freed
      omega
  · rw [hpark]
    refine ⟨⟨hlen, hle⟩, ?_, hout⟩
    show p.counts.allocated = p.free.length + live + (p.counts.freed + 1)
    omega

/-! ### Which parts are parked -/

theorem take_ids (p : Parts α) (fresh : α) (id : α → Nat) :
    p.free.items.map id = id (p.take fresh).1 :: (p.take fresh).2.free.items.map id ∨
    ((p.take fresh).1 = fresh ∧ (p.take fresh).2.free.items.map id = p.free.items.map id) := by
  obtain ⟨a, rest, hitems, htake⟩ | ⟨_, htake⟩ := p.take_cases fresh
  · left
    rw [htake, hitems]
    rfl
  · right
    rw [htake]
    exact ⟨rfl, rfl⟩

theorem park_ids (p : Parts α) (limit : Option Nat) (a : α) (id : α → Nat) :
    (p.park limit a).free.items.map id = id a :: p.free.items.map id ∨
    (p.park limit a).free.items.map id = p.free.items.map id := by
  obtain ⟨_, hpark⟩ | ⟨_, hpark⟩ := p.park_cases limit a
  · left
    rw [hpark]
    rfl
  · right
    rw [hpark]

end Parts

namespace Pool

/-- Parked nodes hold nothing and parked slots name no pool. -/
structure Clean (p : Pool) : Prop where
  nodes : ∀ n ∈ p.nodes.free.items, n.bytes = []
  slots : ∀ s ∈ p.slots.free.items, s.pool = none

/-- The books of a pool, of whose buffers `live` are in use and `acquired` have been handed out. -/
structure Balanced (p : Pool) (live acquired : Nat) : Prop where
  nodes : p.nodes.Balanced p.limits.maxFreeNodes live acquired
  slots : p.slots.Balanced p.limits.maxFreeSlots live acquired

theorem clean_ofLimits (limits : PoolLimits) : (ofLimits limits).Clean where
  nodes := fun _ mem => nomatch mem
  slots := fun _ mem => nomatch mem

theorem balanced_ofLimits (limits : PoolLimits) : (ofLimits limits).Balanced 0 0 :=
  ⟨Parts.balanced_empty _, Parts.balanced_empty _⟩

/-- A clean pool hands out an empty node. -/
theorem Clean.take {p : Pool} (h : p.Clean) (fresh : Nat) :
    (p.take fresh).1.1.bytes = [] ∧ (p.take fresh).2.Clean := by
  have hn := Parts.take_all (·.bytes = []) (Node.fresh fresh) rfl h.nodes
  have hs := Parts.take_all (·.pool = none) (Slot.fresh fresh) rfl h.slots
  exact ⟨hn.1, ⟨hn.2, hs.2⟩⟩

theorem Clean.recycle {p : Pool} (h : p.Clean) (node : Node) (slot : Slot) : (p.recycle node slot).Clean where
  nodes := Parts.park_all (fun n : Node => n.bytes = []) rfl h.nodes
  slots := Parts.park_all (fun s : Slot => s.pool = none) rfl h.slots

theorem Balanced.take {p : Pool} {live acquired : Nat} (h : p.Balanced live acquired) (fresh : Nat) :
    (p.take fresh).2.Balanced (live + 1) (acquired + 1) :=
  ⟨h.nodes.take _, h.slots.take _⟩

theorem Balanced.recycle {p : Pool} {live acquired : Nat} (h : p.Balanced (live + 1) acquired)
    (node : Node) (slot : Slot) : (p.recycle node slot).Balanced live acquired :=
  ⟨h.nodes.park _, h.slots.park _⟩

end Pool

end Logbook
