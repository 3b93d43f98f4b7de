/-!
# Numbered objects

Objects that are referred to by number. Numbers are given out in order and never again, so a reference to an
object that is gone finds nothing. Rows are kept with the latest in front.
-/

namespace Logbook

structure Table (α : Type) where
  /-- The number of the next object. -/
  next : Nat
  rows : List (Nat × α)
  below : ∀ row ∈ rows, row.1 < next
  descending : rows.Pairwise (fun a b => b.1 < a.1)

namespace Table

variable {α : Type}

def empty : Table α := ⟨0, [], by simp, .nil⟩

instance : Inhabited (Table α) := ⟨empty⟩

/-- The object of a number. -/
def get? (t : Table α) (id : Nat) : Option α := t.rows.lookup id

/-- The objects, the latest first. -/
def values (t : Table α) : List α := t.rows.map (·.2)

/-- A new object under the next number. -/
def push (t : Table α) (a : α) : Table α where
  next := t.next + 1
  rows := (t.next, a) :: t.rows
  below := by
    intro row mem
    rcases List.mem_cons.mp mem with rfl | mem
    · exact Nat.lt_succ_self _
    · exact Nat.lt_succ_of_lt (t.below row mem)
  descending := List.pairwise_cons.mpr ⟨t.below, t.descending⟩

/-- Change the object of a number, if there is one. -/
def modify (t : Table α) (id : Nat) (f : α → α) : Table α where
  next := t.next
  rows := t.rows.map fun row => if row.1 = id then (row.1, f row.2) else row
  below := by
    intro row mem
    obtain ⟨old, kept, rfl⟩ := List.mem_map.mp mem
    have := t.below old kept
    split <;> exact this
  descending := by
    rw [List.pairwise_map]
    refine t.descending.imp ?_
    intro a b lt
    split <;> split <;> exact lt

/-- Put another object in the place of one. -/
def set (t : Table α) (id : Nat) (a : α) : Table α := t.modify id fun _ => a

/-- Take an object out. -/
def erase (t : Table α) (id : Nat) : Table α where
  next := t.next
  rows := t.rows.filter (·.1 != id)
  below := fun row mem => t.below row (List.mem_filter.mp mem).1
  descending := t.descending.filter _

/-! ### Looking up -/

theorem lookup_row (id k : Nat) (a : α) (rest : List (Nat × α)) :
    ((k, a) :: rest).lookup id = if id = k then some a else rest.lookup id := by
  by_cases h : id = k
  · rw [if_pos h, List.lookup_cons, beq_iff_eq.mpr h]
  · rw [if_neg h, List.lookup_cons, beq_eq_false_iff_ne.mpr h]

theorem get?_push (t : Table α) (a : α) (id : Nat) :
    (t.push a).get? id = if id = t.next then some a else t.get? id :=
  lookup_row id t.next a t.rows

theorem get?_modify (t : Table α) (id key : Nat) (f : α → α) :
    (t.modify id f).get? key = if key = id then (t.get? key).map f else t.get? key := by
  show (t.rows.map _).lookup key = if key = id then (t.rows.lookup key).map f else t.rows.lookup key
  induction t.rows with
  | nil => simp
  | cons row rest ih =>
    obtain ⟨k, a⟩ := row
    rw [List.map_cons, lookup_row]
    by_cases hk : k = id
    · rw [if_pos hk, lookup_row, ih]
      by_cases h : key = k
      · rw [if_pos h, if_pos (h.trans hk), if_pos h]; rfl
      · rw [if_neg h, if_neg h]
    · rw [if_neg hk, lookup_row, ih]
      by_cases h : key = k
      · rw [if_pos h, if_neg (h ▸ hk), if_pos h]
      · rw [if_neg h, if_neg h]

theorem get?_erase (t : Table α) (id key : Nat) :
    (t.erase id).get? key = if key = id then none else t.get? key := by
  show (t.rows.filter _).lookup key = if key = id then none else t.rows.lookup key
  induction t.rows with
  | nil => simp
  | cons row rest ih =>
    obtain ⟨k, a⟩ := row
    rw [lookup_row]
    by_cases hk : k = id
    · rw [List.filter_cons_of_neg (by simp [hk]), ih]
      by_cases h : key = id
      · rw [if_pos h, if_pos h]
      · rw [if_neg h, if_neg h, if_neg (hk ▸ h)]
    · rw [List.filter_cons_of_pos (by simp [hk]), lookup_row, ih]
      by_cases h : key = k
      · rw [if_pos h, if_pos h, if_neg (h ▸ hk)]
      · rw [if_neg h, if_neg h]

end Table

end Logbook
