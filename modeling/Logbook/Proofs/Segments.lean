import Logbook.Path
import Mathlib.Data.List.DropRight

/-!
# The segments of a path

A path is its segments with slashes between them. Shortening it leaves the last of them, so what is left of a path
that is shortened twice is given by the smaller number.
-/

namespace Logbook.Path

/-- The pieces between slashes. A slash at an end of the path or next to another one makes an empty piece. -/
def segments (path : Bytes) : List Bytes := path.splitOn slash

/-- Segments in order, with slashes between them. -/
def joined (pieces : List Bytes) : Bytes := [slash].intercalate pieces

theorem joined_segments (path : Bytes) : joined (segments path) = path := List.intercalate_splitOn slash

theorem slash_not_mem_segments (path : Bytes) : ∀ piece ∈ segments path, slash ∉ piece := by
  induction path with
  | nil =>
    intro piece hpiece
    rw [List.mem_singleton.mp hpiece]
    exact List.not_mem_nil
  | cons b rest ih =>
    have hcons : segments (b :: rest) =
        if b == slash then [] :: segments rest else (segments rest).modifyHead (b :: ·) :=
      List.splitOn_cons_eq_if_modifyHead b rest
    rw [hcons]
    split
    · exact List.forall_mem_cons.mpr ⟨List.not_mem_nil, ih⟩
    · rename_i hb
      cases hrest : segments rest with
      | nil => exact absurd hrest (List.splitOn_ne_nil slash rest)
      | cons first more =>
        rw [hrest, List.forall_mem_cons] at ih
        rw [beq_iff_eq] at hb
        refine List.forall_mem_cons.mpr ⟨?_, ih.2⟩
        exact List.not_mem_cons_of_ne_of_not_mem (Ne.symm hb) ih.1

theorem joined_append {front back : List Bytes} (hfront : front ≠ []) (hback : back ≠ []) :
    joined (front ++ back) = joined front ++ slash :: joined back := by
  unfold joined
  induction front with
  | nil => exact absurd rfl hfront
  | cons piece rest ih =>
    cases rest with
    | nil => simp [List.intercalate_cons_of_ne_nil hback]
    | cons next rest =>
      rw [List.cons_append, List.cons_append, List.intercalate_cons_cons, ← List.cons_append, ih (List.cons_ne_nil _ _),
        List.intercalate_cons_cons]
      simp

/-! ### Walking back -/

/-- The walk takes a piece without a slash whole. -/
theorem keepOnto_piece {piece : Bytes} (h : slash ∉ piece) (kept before : Bytes) (count : Nat) :
    keepOnto kept (count + 1) (piece.reverse ++ before) = keepOnto (piece ++ kept) (count + 1) before := by
  induction piece using List.reverseRecOn generalizing kept with
  | nil => rfl
  | append_singleton front b ih =>
    rw [List.mem_append, List.mem_singleton, not_or] at h
    rw [List.reverse_concat, List.cons_append, keepOnto, if_neg (Ne.symm h.2), ih h.1, List.append_assoc]
    rfl

theorem keepOnto_joined {pieces : List Bytes} (h : ∀ piece ∈ pieces, slash ∉ piece) (kept : Bytes) (count : Nat) :
    keepOnto kept count (joined pieces).reverse = joined (pieces.rtake count) ++ kept := by
  -- the walk meets the last piece first
  induction pieces using List.reverseRecOn generalizing kept count with
  | nil => cases count <;> simp [joined, keepOnto]
  | append_singleton front last ih =>
    cases count with
    | zero => simp [joined, keepOnto]
    | succ count =>
      have hlast : slash ∉ last := h last (by simp)
      have hfront : ∀ piece ∈ front, slash ∉ piece := fun piece hpiece => h piece (List.mem_append_left _ hpiece)
      rw [List.rtake_concat_succ]
      rcases eq_or_ne front [] with rfl | hne
      · have hwhole := keepOnto_piece hlast kept [] count
        rw [List.append_nil] at hwhole
        simp [joined, hwhole, keepOnto]
      · have hsplit : (joined (front ++ [last])).reverse = last.reverse ++ slash :: (joined front).reverse := by
          rw [joined_append hne (List.cons_ne_nil _ _)]
          simp [joined]
        rw [hsplit, keepOnto_piece hlast, keepOnto, if_pos rfl]
        cases count with
        | zero => simp [joined]
        | succ count =>
          have hsome : front.rtake (count + 1) ≠ [] := by
            have hlength : 0 < front.length := List.length_pos_iff.mpr hne
            intro hnone
            have hzero := congrArg List.length hnone
            simp [List.rtake] at hzero
            omega
          rw [if_neg (Nat.succ_ne_zero _), ih hfront, joined_append hsome (List.cons_ne_nil _ _)]
          simp [joined]

/-! ### Shortened paths -/

theorem lastSegments_joined {pieces : List Bytes} (h : ∀ piece ∈ pieces, slash ∉ piece) (count : Nat) :
    lastSegments count (joined pieces) = joined (pieces.rtake count) := by
  rw [lastSegments, keepOnto_joined h, List.append_nil]

theorem joined_rtake_suffix (pieces : List Bytes) (count : Nat) : joined (pieces.rtake count) <:+ joined pieces := by
  have hsplit : pieces.rdrop count ++ pieces.rtake count = pieces := List.take_append_drop _ _
  rcases eq_or_ne (pieces.rdrop count) [] with hnone | hfront
  · rw [hnone, List.nil_append] at hsplit
    exact ⟨[], congrArg joined hsplit⟩
  · rcases eq_or_ne (pieces.rtake count) [] with hnone | hback
    · rw [hnone]
      exact List.nil_suffix
    · refine ⟨joined (pieces.rdrop count) ++ [slash], ?_⟩
      conv_rhs => rw [← hsplit, joined_append hfront hback]
      simp

theorem rtake_rtake (pieces : List Bytes) (j k : Nat) : (pieces.rtake j).rtake k = pieces.rtake (min j k) := by
  simp only [List.rtake_eq_reverse_take_reverse, List.reverse_reverse, List.take_take, Nat.min_comm]

/-- A shortened path is the end of the path that consists of its last segments: all of them if there are no more than
asked for, and none if none is asked for. A path that is shortened twice keeps the smaller number of segments. -/
theorem lastSegments_eq (path : Bytes) (j k : Nat) :
    lastSegments k path <:+ path ∧
      lastSegments k path = joined ((segments path).rtake k) ∧
      ((segments path).length ≤ k → lastSegments k path = path) ∧
      lastSegments 0 path = [] ∧
      lastSegments k (lastSegments j path) = lastSegments (min j k) path ∧
      lastTwo path = lastSegments 2 path := by
  have hfree := slash_not_mem_segments path
  have hshort : ∀ count, lastSegments count path = joined ((segments path).rtake count) := by
    intro count
    rw [← lastSegments_joined hfree, joined_segments]
  refine ⟨?_, hshort k, ?_, ?_, ?_, rfl⟩
  · have hsuffix := joined_rtake_suffix (segments path) k
    rw [joined_segments] at hsuffix
    rw [hshort]
    exact hsuffix
  · intro hfew
    rw [hshort, List.rtake, Nat.sub_eq_zero_of_le hfew, List.drop_zero, joined_segments]
  · rw [hshort, List.rtake_zero]
    rfl
  · have hkept : ∀ piece ∈ (segments path).rtake j, slash ∉ piece := fun piece hpiece =>
      hfree piece (List.mem_of_mem_drop hpiece)
    rw [hshort j, lastSegments_joined hkept, rtake_rtake, hshort]

/-- A path with a slash at either end and two in a row. -/
theorem lastSegments_eq_awkward :
    let path := utf8 "/a//b/"
    (segments path).length = 5 ∧ lastSegments 5 path = path ∧ lastSegments 3 path = utf8 "/b/" ∧
      lastSegments 1 path = [] ∧ lastSegments 2 (lastSegments 3 path) = utf8 "b/" := by
  intro path
  have hfive := (lastSegments_eq path 0 5).2.2.1 (by decide)
  have htwice := (lastSegments_eq path 3 2).2.2.2.2.1
  refine ⟨by decide, hfive, by decide, by decide, ?_⟩
  rw [htwice]
  decide

end Logbook.Path
