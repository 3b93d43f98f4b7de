import Logbook.Table

/-!
# Sums over tables

What all objects of a table add up to, and how pushing, changing and erasing one object moves that sum.
-/

namespace Logbook

namespace Table

variable {α : Type}

/-! ### Rows and numbers -/

theorem mem_rows_of_get? {t : Table α} {id : Nat} {a : α} (h : t.get? id = some a) : (id, a) ∈ t.rows := by
  unfold get? at h
  revert h
  induction t.rows with
  | nil => intro h; cases h
  | cons row rest ih =>
    obtain ⟨k, b⟩ := row
    intro h
    rw [lookup_row] at h
    split at h
    · rename_i e
      cases h
      exact e ▸ List.mem_cons_self
    · exact List.mem_cons_of_mem _ (ih h)

theorem lt_next_of_get? {t : Table α} {id : Nat} {a : α} (h : t.get? id = some a) : id < t.next :=
  t.below _ (mem_rows_of_get? h)

theorem get?_eq_none_of_next_le {t : Table α} {id : Nat} (h : t.next ≤ id) : t.get? id = none := by
  cases e : t.get? id with
  | none => rfl
  | some a => exact absurd (lt_next_of_get? e) (by omega)

theorem get?_next (t : Table α) : t.get? t.next = none := get?_eq_none_of_next_le (Nat.le_refl _)

@[simp]
theorem get?_push_next (t : Table α) (a : α) : (t.push a).get? t.next = some a := by
  rw [get?_push, if_pos rfl]

theorem get?_set (t : Table α) (id key : Nat) (a : α) :
    (t.set id a).get? key = if key = id then (t.get? key).map fun _ => a else t.get? key :=
  get?_modify t id key _

theorem modify_congr {t : Table α} {id : Nat} {f g : α → α}
    (h : ∀ row ∈ t.rows, row.1 = id → f row.2 = g row.2) : t.modify id f = t.modify id g := by
  unfold modify
  simp only [mk.injEq, true_and]
  refine List.map_congr_left fun row mem => ?_
  split
  · rename_i he
    rw [h row mem he]
  · rfl

theorem get?_eq_some_of_mem {t : Table α} {id : Nat} {a : α} (h : (id, a) ∈ t.rows) : t.get? id = some a := by
  have order := t.descending
  unfold get?
  revert h order
  induction t.rows with
  | nil => intro h; cases h
  | cons row rest ih =>
    obtain ⟨k, b⟩ := row
    intro h order
    obtain ⟨below, tail⟩ := List.pairwise_cons.mp order
    rw [lookup_row]
    rcases List.mem_cons.mp h with he | mem
    · cases he
      rw [if_pos rfl]
    · have hlt := below (id, a) mem
      dsimp only at hlt
      rw [if_neg (by omega), ih mem tail]

theorem modify_eq_set {t : Table α} {id : Nat} {a : α} (h : t.get? id = some a) (f : α → α) :
    t.modify id f = t.set id (f a) := by
  refine modify_congr fun row mem he => ?_
  subst he
  rw [get?_eq_some_of_mem mem] at h
  cases h
  rfl

theorem modify_of_none {t : Table α} {id : Nat} (h : t.get? id = none) (f : α → α) : t.modify id f = t := by
  have hrows : t.rows.map (fun row => if row.1 = id then (row.1, f row.2) else row) = t.rows := by
    refine (List.map_congr_left fun row mem => ?_).trans t.rows.map_id
    refine if_neg fun he => ?_
    subst he
    rw [get?_eq_some_of_mem mem] at h
    cases h
  unfold modify
  congr 1

theorem modify_modify (t : Table α) (id : Nat) (f g : α → α) :
    (t.modify id f).modify id g = t.modify id fun a => g (f a) := by
  unfold modify
  simp only [mk.injEq, true_and, List.map_map]
  refine List.map_congr_left fun row _ => ?_
  by_cases h : row.1 = id
  · simp [h]
  · simp [h]

theorem set_set (t : Table α) (id : Nat) (a b : α) : (t.set id a).set id b = t.set id b :=
  modify_modify t id (fun _ => a) fun _ => b

theorem set_of_get? {t : Table α} {id : Nat} {a : α} (h : t.get? id = some a) : t.set id a = t := by
  have hrows : t.rows.map (fun row => if row.1 = id then (row.1, a) else row) = t.rows := by
    refine (List.map_congr_left fun row mem => ?_).trans t.rows.map_id
    split
    · rename_i he
      subst he
      rw [get?_eq_some_of_mem mem] at h
      cases h
      rfl
    · rfl
  unfold set modify
  congr 1

theorem modify_same (t : Table α) (id : Nat) {f : α → α} (h : ∀ a, f a = a) : t.modify id f = t := by
  cases hget : t.get? id with
  | none => exact modify_of_none hget f
  | some a => rw [modify_eq_set hget, h, set_of_get? hget]

theorem set_push_next (t : Table α) (a b : α) : (t.push a).set t.next b = t.push b := by
  have hrows : t.rows.map (fun row => if row.1 = t.next then (row.1, b) else row) = t.rows := by
    refine (List.map_congr_left fun row mem => ?_).trans t.rows.map_id
    exact if_neg (Nat.ne_of_lt (t.below row mem))
  unfold set modify push
  simp [hrows]

/-! ### Changing every object -/

/-- The same numbers, with every object changed. -/
def map {β : Type} (t : Table α) (f : α → β) : Table β where
  next := t.next
  rows := t.rows.map fun row => (row.1, f row.2)
  below := by
    intro row mem
    obtain ⟨old, kept, rfl⟩ := List.mem_map.mp mem
    exact t.below old kept
  descending := List.pairwise_map.mpr t.descending

theorem get?_map {β : Type} (t : Table α) (f : α → β) (id : Nat) : (t.map f).get? id = (t.get? id).map f := by
  show (t.rows.map _).lookup id = (t.rows.lookup id).map f
  induction t.rows with
  | nil => rfl
  | cons row rest ih =>
    obtain ⟨k, a⟩ := row
    rw [List.map_cons, lookup_row, lookup_row, ih]
    split
    · rfl
    · rfl

theorem map_push {β : Type} (t : Table α) (g : α → β) (a : α) : (t.push a).map g = (t.map g).push (g a) := rfl

theorem map_modify {β : Type} (t : Table α) (g : α → β) (id : Nat) {f : α → α} {f' : β → β}
    (h : ∀ a, g (f a) = f' (g a)) : (t.modify id f).map g = (t.map g).modify id f' := by
  unfold map modify
  simp only [mk.injEq, true_and, List.map_map]
  refine List.map_congr_left fun row _ => ?_
  by_cases hrow : row.1 = id
  · simp only [Function.comp, if_pos hrow, h]
  · simp only [Function.comp, if_neg hrow]

theorem map_set {β : Type} (t : Table α) (g : α → β) (id : Nat) (a : α) :
    (t.set id a).map g = (t.map g).set id (g a) :=
  t.map_modify g id fun _ => rfl

theorem map_erase {β : Type} (t : Table α) (g : α → β) (id : Nat) : (t.erase id).map g = (t.map g).erase id := by
  unfold map erase
  simp only [mk.injEq, true_and, List.filter_map]
  rfl

/-- Tables that look alike through `g` hold objects that do, under the same numbers. -/
theorem get?_cases_of_map_eq {β : Type} {t u : Table α} {g : α → β} (h : t.map g = u.map g) (id : Nat) :
    (t.get? id = none ∧ u.get? id = none) ∨ ∃ a b, t.get? id = some a ∧ u.get? id = some b ∧ g a = g b := by
  have hget := congrArg (·.get? id) h
  simp only [get?_map] at hget
  cases ht : t.get? id with
  | none =>
    rw [ht, Option.map_none, eq_comm, Option.map_eq_none_iff] at hget
    exact .inl ⟨rfl, hget⟩
  | some a =>
    rw [ht, Option.map_some, eq_comm, Option.map_eq_some_iff] at hget
    obtain ⟨b, hu, hab⟩ := hget
    exact .inr ⟨a, b, rfl, hu, hab.symm⟩

/-! ### Sums -/

/-- The sum of `f` over the objects in rows. -/
def sumRows (f : α → Nat) : List (Nat × α) → Nat
  | [] => 0
  | row :: rest => f row.2 + sumRows f rest

/-- The sum of `f` over all objects. -/
def total (t : Table α) (f : α → Nat) : Nat := sumRows f t.rows

@[simp]
theorem total_push (t : Table α) (a : α) (f : α → Nat) : (t.push a).total f = f a + t.total f := rfl

theorem total_add (t : Table α) (f g : α → Nat) : t.total (fun a => f a + g a) = t.total f + t.total g := by
  unfold total
  induction t.rows with
  | nil => rfl
  | cons row rest ih =>
    rw [sumRows, sumRows, sumRows, ih]
    omega

/- Numbers descend along the rows, so the row that a lookup finds is the only one of its number. -/
theorem sumRows_split {rows : List (Nat × α)} (order : rows.Pairwise fun a b => b.1 < a.1)
    {id : Nat} {a : α} (h : rows.lookup id = some a) (f : α → Nat) :
    sumRows f rows = sumRows f (rows.filter (·.1 != id)) + f a := by
  induction rows with
  | nil => cases h
  | cons row rest ih =>
    obtain ⟨k, b⟩ := row
    obtain ⟨below, tail⟩ := List.pairwise_cons.mp order
    rw [lookup_row] at h
    by_cases hk : id = k
    · subst hk
      rw [if_pos rfl] at h
      cases h
      have hrest : rest.filter (·.1 != id) = rest := by
        rw [List.filter_eq_self]
        intro row mem
        have hlt := below row mem
        simp only [bne_iff_ne, ne_eq]
        omega
      rw [List.filter_cons_of_neg (by simp), hrest, sumRows, Nat.add_comm]
    · rw [if_neg hk] at h
      have hkeep : ((k, b) :: rest).filter (·.1 != id) = (k, b) :: rest.filter (·.1 != id) :=
        List.filter_cons_of_pos (by simpa using Ne.symm hk)
      rw [hkeep, sumRows, sumRows, ih tail h]
      omega

/-- What one object adds, taken out of the sum. -/
theorem total_erase {t : Table α} {id : Nat} {a : α} (h : t.get? id = some a) (f : α → Nat) :
    t.total f = (t.erase id).total f + f a :=
  sumRows_split t.descending h f

theorem erase_modify (t : Table α) (id : Nat) (g : α → α) : (t.modify id g).erase id = t.erase id := by
  have hrows : ((t.modify id g).erase id).rows = (t.erase id).rows := by
    show (t.rows.map _).filter _ = t.rows.filter _
    induction t.rows with
    | nil => rfl
    | cons row rest ih =>
      obtain ⟨k, a⟩ := row
      rw [List.map_cons]
      by_cases hk : k = id
      · rw [if_pos hk, List.filter_cons_of_neg (by simp [hk]), List.filter_cons_of_neg (by simp [hk]), ih]
      · rw [if_neg hk, List.filter_cons_of_pos (by simp [hk]), List.filter_cons_of_pos (by simp [hk]), ih]
  unfold erase at hrows ⊢
  simp only [mk.injEq]
  exact ⟨rfl, hrows⟩

/-- Changing one object moves the sum by what the object adds before and after. -/
theorem total_modify {t : Table α} {id : Nat} {a : α} (h : t.get? id = some a) (g : α → α) (f : α → Nat) :
    (t.modify id g).total f + f a = t.total f + f (g a) := by
  have hafter : (t.modify id g).get? id = some (g a) := by
    rw [get?_modify, if_pos rfl, h]
    rfl
  have h1 := total_erase h f
  have h2 := total_erase hafter f
  rw [erase_modify] at h2
  omega

theorem total_set {t : Table α} {id : Nat} {a : α} (h : t.get? id = some a) (b : α) (f : α → Nat) :
    (t.set id b).total f + f a = t.total f + f b := total_modify h _ f

theorem le_total {t : Table α} {id : Nat} {a : α} (h : t.get? id = some a) (f : α → Nat) : f a ≤ t.total f := by
  have := total_erase h f
  omega

/-- Two objects of different numbers add up within the sum. -/
theorem add_le_total {t : Table α} {i j : Nat} {a b : α} (hij : i ≠ j) (hi : t.get? i = some a)
    (hj : t.get? j = some b) (f : α → Nat) : f a + f b ≤ t.total f := by
  have hrest : (t.erase i).get? j = some b := by rw [get?_erase, if_neg (Ne.symm hij), hj]
  have h1 := total_erase hi f
  have h2 := le_total hrest f
  omega

theorem total_eq_zero {t : Table α} {f : α → Nat} (h : ∀ id a, t.get? id = some a → f a = 0) :
    t.total f = 0 := by
  have hrows : ∀ row ∈ t.rows, f row.2 = 0 := fun row mem => h row.1 row.2 (get?_eq_some_of_mem mem)
  unfold total
  revert hrows
  induction t.rows with
  | nil => intro _; rfl
  | cons row rest ih =>
    intro hrows
    have hrow := hrows row List.mem_cons_self
    have hrest := ih fun other mem => hrows other (List.mem_cons_of_mem _ mem)
    rw [sumRows, hrow, hrest]

theorem total_le_total {t : Table α} {f g : α → Nat} (h : ∀ a, f a ≤ g a) : t.total f ≤ t.total g := by
  unfold total
  induction t.rows with
  | nil => exact Nat.le_refl _
  | cons row rest ih =>
    have hrow := h row.2
    rw [sumRows, sumRows]
    omega

/-! ### Lists of all objects -/

variable {β : Type}

/-- What `f` lists of all objects, one after another. -/
def gather (t : Table α) (f : α → List β) : List β := t.rows.flatMap fun row => f row.2

theorem length_gather (t : Table α) (f : α → List β) : (t.gather f).length = t.total fun a => (f a).length := by
  unfold gather total
  induction t.rows with
  | nil => rfl
  | cons row rest ih => rw [List.flatMap_cons, List.length_append, ih, sumRows]

theorem count_gather [BEq β] (t : Table α) (f : α → List β) (b : β) :
    (t.gather f).count b = t.total fun a => (f a).count b := by
  unfold gather total
  induction t.rows with
  | nil => rfl
  | cons row rest ih => rw [List.flatMap_cons, List.count_append, ih, sumRows]

end Table

/-! ### Related lookups -/

theorem rel_cases {α β : Type} {R : α → β → Prop} {x : Option α} {y : Option β} (h : Option.Rel R x y) :
    (x = none ∧ y = none) ∨ ∃ a b, x = some a ∧ y = some b ∧ R a b := by
  cases h with
  | none => exact .inl ⟨rfl, rfl⟩
  | some h => exact .inr ⟨_, _, rfl, rfl, h⟩

end Logbook
