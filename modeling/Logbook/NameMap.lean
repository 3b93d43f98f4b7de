/-!
# Maps from names

A map from names to values as its list of entries in ascending order of names. No name occurs twice, and the
order is part of the type, so maps with the same entries are equal.
-/

namespace Logbook

structure NameMap (α : Type) where
  entries : List (String × α)
  ascending : entries.Pairwise (fun a b => a.1 < b.1)

namespace NameMap

variable {α : Type}

def empty : NameMap α := ⟨[], .nil⟩

instance : Inhabited (NameMap α) := ⟨empty⟩

instance [DecidableEq α] : DecidableEq (NameMap α) := fun a b =>
  decidable_of_iff (a.entries = b.entries)
    ⟨fun h => by cases a; cases b; cases h; rfl, fun h => h ▸ rfl⟩

instance [Repr α] : Repr (NameMap α) := ⟨fun m n => reprPrec m.entries n⟩

/-- The names, ascending. -/
def names (m : NameMap α) : List String := m.entries.map (·.1)

def values (m : NameMap α) : List α := m.entries.map (·.2)

/-- The value of a name. -/
def find? (m : NameMap α) (name : String) : Option α := m.entries.lookup name

def contains (m : NameMap α) (name : String) : Bool := (m.find? name).isSome

/-- Put an entry at its place, in place of the entry of its name if there is one. -/
def insertInto (name : String) (a : α) : List (String × α) → List (String × α)
  | [] => [(name, a)]
  | (n, b) :: rest =>
    if name < n then (name, a) :: (n, b) :: rest
    else if n = name then (name, a) :: rest
    else (n, b) :: insertInto name a rest

theorem lt_of_not_lt_of_ne {a b : String} (h : ¬a < b) (ne : b ≠ a) : b < a := by
  rcases Decidable.em (b < a) with lt | ge
  · exact lt
  · exact absurd (String.le_antisymm h ge) ne

theorem mem_insertInto {name : String} {a : α} {rows : List (String × α)} {row : String × α}
    (h : row ∈ insertInto name a rows) : row = (name, a) ∨ row ∈ rows := by
  induction rows with
  | nil => exact .inl (List.mem_singleton.mp h)
  | cons head rest ih =>
    obtain ⟨n, b⟩ := head
    unfold insertInto at h
    split at h
    · exact List.mem_cons.mp h
    · split at h
      · rcases List.mem_cons.mp h with h | h
        · exact .inl h
        · exact .inr (List.mem_cons_of_mem _ h)
      · rcases List.mem_cons.mp h with h | h
        · exact .inr (h ▸ List.mem_cons_self)
        · exact (ih h).imp id (List.mem_cons_of_mem _)

theorem ascending_insertInto {name : String} {a : α} {rows : List (String × α)}
    (h : rows.Pairwise (fun x y => x.1 < y.1)) :
    (insertInto name a rows).Pairwise (fun x y => x.1 < y.1) := by
  induction rows with
  | nil => exact List.pairwise_singleton _ _
  | cons head rest ih =>
    obtain ⟨n, b⟩ := head
    obtain ⟨below, tail⟩ := List.pairwise_cons.mp h
    unfold insertInto
    split
    · rename_i lt
      refine List.pairwise_cons.mpr ⟨fun row mem => ?_, h⟩
      rcases List.mem_cons.mp mem with rfl | mem
      · exact lt
      · exact String.lt_trans lt (below row mem)
    · rename_i ge
      split
      · rename_i eq
        exact List.pairwise_cons.mpr ⟨fun row mem => eq ▸ below row mem, tail⟩
      · rename_i ne
        refine List.pairwise_cons.mpr ⟨fun row mem => ?_, ih tail⟩
        rcases mem_insertInto mem with rfl | mem
        · exact lt_of_not_lt_of_ne ge ne
        · exact below row mem

/-- Give a name a value. -/
def insert (m : NameMap α) (name : String) (a : α) : NameMap α :=
  ⟨insertInto name a m.entries, ascending_insertInto m.ascending⟩

/-- Take a name out. -/
def erase (m : NameMap α) (name : String) : NameMap α :=
  ⟨m.entries.filter (·.1 != name), m.ascending.filter _⟩

/-- The map of a list of entries; of two with one name the later counts. -/
def ofList (rows : List (String × α)) : NameMap α :=
  rows.foldl (fun m row => m.insert row.1 row.2) empty

theorem names_ascending (m : NameMap α) : m.names.Pairwise (· < ·) :=
  List.pairwise_map.mpr m.ascending

theorem lookup_row (key n : String) (b : α) (rest : List (String × α)) :
    ((n, b) :: rest).lookup key = if key = n then some b else rest.lookup key := by
  by_cases h : key = n
  · rw [if_pos h, List.lookup_cons, beq_iff_eq.mpr h]
  · rw [if_neg h, List.lookup_cons, beq_eq_false_iff_ne.mpr h]

theorem lookup_insertInto (name key : String) (a : α) (rows : List (String × α)) :
    (insertInto name a rows).lookup key = if key = name then some a else rows.lookup key := by
  induction rows with
  | nil => exact lookup_row key name a []
  | cons head rest ih =>
    obtain ⟨n, b⟩ := head
    unfold insertInto
    split
    · exact lookup_row key name a _
    · split
      · rename_i eq
        rw [lookup_row, lookup_row, eq]
        split <;> rfl
      · rename_i ne
        rw [lookup_row, lookup_row, ih]
        by_cases h : key = n
        · rw [if_pos h, if_pos h, if_neg (h ▸ ne)]
        · rw [if_neg h, if_neg h]

/-- Looking up after an insertion. -/
theorem find?_insert (m : NameMap α) (name key : String) (a : α) :
    (m.insert name a).find? key = if key = name then some a else m.find? key :=
  lookup_insertInto name key a m.entries

end NameMap

end Logbook
