import Logbook.Bytes
import Logbook.NameMap
import Mathlib.Data.List.Lex
import Mathlib.Tactic.SplitIfs

/-!
# Maps from names

What is found in a map decides what the map is. Names ascend in the order of their octets.
-/

namespace Logbook

/-! ### The order of octets -/

theorem ofNat_lt_ofNat {m n : Nat} (hm : m < 256) (hn : n < 256) : UInt8.ofNat m < UInt8.ofNat n ↔ m < n := by
  rw [UInt8.lt_iff_toNat_lt, UInt8.toNat_ofNat', UInt8.toNat_ofNat']
  omega

theorem ofNat_eq_ofNat {m n : Nat} (hm : m < 256) (hn : n < 256) : UInt8.ofNat m = UInt8.ofNat n ↔ m = n := by
  rw [← UInt8.toNat_inj, UInt8.toNat_ofNat', UInt8.toNat_ofNat']
  omega

theorem code_lt (c : Char) : c.val.toNat < 0x110000 := by
  have hvalid := c.valid
  simp only [UInt32.isValidChar, Nat.isValidChar] at hvalid
  omega

/-- The last digit to base 64 decides between numbers that agree in the others. -/
theorem lt_base {m n : Nat} (h : m < n) : m / 64 < n / 64 ∨ m / 64 = n / 64 ∧ m % 64 < n % 64 := by omega

theorem encodeChar_lt {c d : Char} (h : c < d) (cs ds : Bytes) :
    String.utf8EncodeChar c ++ cs < String.utf8EncodeChar d ++ ds := by
  have hlt : c.val.toNat < d.val.toNat := h
  have hc := code_lt c
  have hd := code_lt d
  unfold String.utf8EncodeChar
  dsimp only
  generalize c.val.toNat = m at *
  generalize d.val.toNat = n at *
  have hthree : ∀ v : Nat, v / 4096 = v / 64 / 64 := fun v => (Nat.div_div_eq_div_mul v 64 64).symm
  have hfour : ∀ v : Nat, v / 262144 = v / 64 / 64 / 64 := by
    intro v
    rw [Nat.div_div_eq_div_mul, Nat.div_div_eq_div_mul]
  have hlast := lt_base hlt
  have hthird : m / 64 < n / 64 → _ := lt_base
  have hsecond : m / 64 / 64 < n / 64 / 64 → _ := lt_base
  -- a longer form starts with a greater octet, and forms of one length are numerals to base 64
  split_ifs <;>
    simp (disch := omega) only [List.cons_append, List.nil_append, List.cons_lt_cons_iff, ofNat_lt_ofNat,
      ofNat_eq_ofNat, hthree, hfour] <;>
    omega

theorem encodeChar_ne_nil (c : Char) : String.utf8EncodeChar c ≠ [] := by
  unfold String.utf8EncodeChar
  dsimp only
  split_ifs <;> exact List.cons_ne_nil _ _

theorem utf8_lt {s t : String} (h : s < t) : utf8 s < utf8 t := by
  rw [String.lt_iff] at h
  unfold utf8
  generalize s.toList = cs at h
  generalize t.toList = ds at h
  induction cs generalizing ds with
  | nil =>
    cases ds with
    | nil => exact absurd h (List.not_lt_nil _)
    | cons d ds =>
      obtain ⟨b, bs, hd⟩ := List.exists_cons_of_ne_nil (encodeChar_ne_nil d)
      rw [List.flatMap_cons, hd]
      exact List.nil_lt_cons _ _
  | cons c cs ih =>
    cases ds with
    | nil => exact absurd h (List.not_lt_nil _)
    | cons d ds =>
      rw [List.flatMap_cons, List.flatMap_cons]
      rcases List.cons_lt_cons_iff.mp h with hlt | ⟨rfl, hlt⟩
      · exact encodeChar_lt hlt _ _
      · exact List.append_left_lt (ih ds hlt)

namespace NameMap

variable {α : Type}

theorem octets_ascending (m : NameMap α) : (m.names.map utf8).Pairwise (· < ·) :=
  List.pairwise_map.mpr (m.names_ascending.imp utf8_lt)

/-! ### What is found -/

theorem mem_of_lookup {rows : List (String × α)} {name : String} {a : α} (h : rows.lookup name = some a) :
    (name, a) ∈ rows := by
  induction rows with
  | nil => cases h
  | cons row rest ih =>
    obtain ⟨n, b⟩ := row
    rw [lookup_row] at h
    split at h
    · rename_i heq
      cases h
      exact heq ▸ List.mem_cons_self
    · exact List.mem_cons_of_mem _ (ih h)

theorem lookup_of_mem {rows : List (String × α)} (horder : rows.Pairwise fun a b => a.1 < b.1) {name : String} {a : α}
    (h : (name, a) ∈ rows) : rows.lookup name = some a := by
  induction rows with
  | nil => cases h
  | cons row rest ih =>
    obtain ⟨n, b⟩ := row
    obtain ⟨habove, hrest⟩ := List.pairwise_cons.mp horder
    rw [lookup_row]
    rcases List.mem_cons.mp h with heq | hmem
    · cases heq
      rw [if_pos rfl]
    · have hlt := habove _ hmem
      have hne : name ≠ n := fun heq => String.lt_irrefl n (heq ▸ hlt)
      rw [if_neg hne, ih hrest hmem]

theorem find?_eq_some_iff {m : NameMap α} {name : String} {a : α} :
    m.find? name = some a ↔ (name, a) ∈ m.entries :=
  ⟨mem_of_lookup, lookup_of_mem m.ascending⟩

theorem mem_names_iff {m : NameMap α} {name : String} : name ∈ m.names ↔ ∃ a, m.find? name = some a := by
  unfold names
  constructor
  · intro h
    obtain ⟨row, hmem, rfl⟩ := List.mem_map.mp h
    exact ⟨row.2, find?_eq_some_iff.mpr hmem⟩
  · rintro ⟨a, h⟩
    exact List.mem_map.mpr ⟨(name, a), find?_eq_some_iff.mp h, rfl⟩

theorem not_mem_names_iff {m : NameMap α} {name : String} : name ∉ m.names ↔ m.find? name = none := by
  rw [mem_names_iff]
  cases m.find? name <;> simp

theorem mem_names_insert {m : NameMap α} {name key : String} {a : α} :
    key ∈ (m.insert name a).names ↔ key ∈ m.names ∨ key = name := by
  rw [mem_names_iff, mem_names_iff, find?_insert]
  by_cases h : key = name
  · simp [h]
  · simp [h]

theorem contains_iff {m : NameMap α} {name : String} : m.contains name = true ↔ name ∈ m.names := by
  rw [mem_names_iff]
  unfold contains
  exact Option.isSome_iff_exists

theorem lookup_append (rows more : List (String × α)) (name : String) :
    (rows ++ more).lookup name = (rows.lookup name).or (more.lookup name) := by
  induction rows with
  | nil => rfl
  | cons row rest ih =>
    obtain ⟨n, b⟩ := row
    rw [List.cons_append, lookup_row, lookup_row, ih]
    by_cases h : name = n
    · rw [if_pos h, if_pos h, Option.some_or]
    · rw [if_neg h, if_neg h]

/-- Of several rows with one name the last counts. -/
theorem find?_ofList (rows : List (String × α)) (name : String) :
    (ofList rows).find? name = rows.reverse.lookup name := by
  have hfold : ∀ m : NameMap α, (rows.foldl (fun m row => m.insert row.1 row.2) m).find? name =
      (rows.reverse.lookup name).or (m.find? name) := by
    induction rows with
    | nil => exact fun m => rfl
    | cons row rest ih =>
      intro m
      rw [List.foldl_cons, ih, List.reverse_cons, lookup_append, Option.or_assoc, find?_insert, lookup_row]
      by_cases h : name = row.1
      · rw [if_pos h, if_pos h, Option.some_or]
      · rw [if_neg h, if_neg h]
        rfl
  have hempty := hfold empty
  have hnone : (empty : NameMap α).find? name = none := rfl
  rw [hnone, Option.or_none] at hempty
  exact hempty

theorem insertInto_last {rows : List (String × α)} {name : String} (h : ∀ row ∈ rows, row.1 < name) (a : α) :
    insertInto name a rows = rows ++ [(name, a)] := by
  induction rows with
  | nil => rfl
  | cons row rest ih =>
    have hlt := h row List.mem_cons_self
    have hne : row.1 ≠ name := fun heq => String.lt_irrefl name (heq ▸ hlt)
    have hnot : ¬name < row.1 := fun hgt => String.lt_irrefl name (String.lt_trans hgt hlt)
    unfold insertInto
    rw [if_neg hnot, if_neg hne, ih fun r hr => h r (List.mem_cons_of_mem _ hr)]
    rfl

theorem ofList_entries (m : NameMap α) : ofList m.entries = m := by
  have hfold : ∀ (rows : List (String × α)) (start : NameMap α),
      (start.entries ++ rows).Pairwise (fun a b => a.1 < b.1) →
      (rows.foldl (fun m row => m.insert row.1 row.2) start).entries = start.entries ++ rows := by
    intro rows
    induction rows with
    | nil => exact fun start _ => (List.append_nil _).symm
    | cons row rest ih =>
      intro start horder
      have hlast : (start.insert row.1 row.2).entries = start.entries ++ [row] :=
        insertInto_last (fun r hr => (List.pairwise_append.mp horder).2.2 r hr row List.mem_cons_self) row.2
      rw [List.foldl_cons, ih _ (by rw [hlast, List.append_assoc]; exact horder), hlast, List.append_assoc]
      rfl
  have hentries := hfold m.entries empty m.ascending
  obtain ⟨entries, ascending⟩ := m
  unfold ofList
  generalize entries.foldl (fun m row => m.insert row.1 row.2) empty = built at hentries ⊢
  obtain ⟨entries', ascending'⟩ := built
  cases hentries
  rfl

end NameMap

end Logbook
