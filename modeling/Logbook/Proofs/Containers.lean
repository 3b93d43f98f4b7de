import Logbook.Proofs.Tokens

/-!
# Reading objects and lists

An object of the grammar is read to its end if each of its members is. Conversely, where reading an object succeeds, it
has read all members and nothing else, whatever their values are.
-/

namespace Logbook.Json

variable {σ : Type} {member : σ → String → Reader σ}

/-! ### Texts between commas -/

/-- Texts with commas between them; behind an earlier text, with a comma in front as well. -/
def joined (first : Bool) : List (List Char) → List Char
  | [] => []
  | t :: ts => (if first then t else ',' :: t) ++ joined false ts

theorem intercalate_eq (ts : List (List Char)) : List.intercalate [','] ts = joined true ts := by
  induction ts with
  | nil => rfl
  | cons t ts ih =>
    cases ts with
    | nil => simp [joined]
    | cons t' ts =>
      rw [List.intercalate_cons_cons, ih]
      simp [joined]

theorem delimited_joined (ts : List (List Char)) (inside : Gap) {c : Char} (hc : c = ']' ∨ c = '}') (rest : List Char) :
    Delimited (joined false ts ++ (inside.val ++ c :: rest)) := by
  cases ts with
  | nil => exact (Delimited.cons (.inr hc) rest).gap inside
  | cons t ts => exact Delimited.cons (.inl rfl) _

theorem objectText_append (members : List (Member (List Char))) (inside : Gap) (rest : List Char) :
    objectText members inside ++ rest =
      '{' :: (joined true (members.map (·.text)) ++ (inside.val ++ '}' :: rest)) := by
  simp [objectText, intercalate_eq]

theorem listText_append (items : List Item) (inside : Gap) (rest : List Char) :
    listText items inside ++ rest =
      '[' :: (joined true (items.map (·.text)) ++ (inside.val ++ ']' :: rest)) := by
  simp [listText, intercalate_eq]

/-! ### Objects -/

theorem nextKey_member (first : Bool) (g : Gap) (m : Member (List Char)) (cs : List Char) :
    nextKey first (g.val ++ ((if first then m.text else ',' :: m.text) ++ cs)) =
      .ok (true, m.key.body ++ '"' :: (m.colonValue ++ (m.behind.val ++ cs))) := by
  have hkey : skipBlanks (m.text ++ cs) = '"' :: (m.key.body ++ '"' :: (m.colonValue ++ (m.behind.val ++ cs))) := by
    unfold Member.text
    rw [List.append_assoc, skipBlanks_gap]
    simp [Literal.text, skipBlanks_cons (c := '"') (by decide)]
  unfold nextKey
  rw [skipBlanks_gap]
  cases first
  · rw [if_neg (by decide), List.cons_append, skipBlanks_cons (by decide)]
    simp [hkey]
  · rw [if_pos rfl, hkey]
    rfl

theorem nextKey_end (first : Bool) (g inside : Gap) (rest : List Char) :
    nextKey first (g.val ++ (inside.val ++ '}' :: rest)) = .ok (false, rest) := by
  unfold nextKey
  rw [skipBlanks_gap, skipBlanks_gap]
  rfl

/-- Reading members one after another takes a state to another. -/
inductive Runs (member : σ → String → Reader σ) : σ → List (Member (List Char)) → σ → Prop where
  | nil {s : σ} : Runs member s [] s
  | cons {s s' s'' : σ} {m : Member (List Char)} {members : List (Member (List Char))}
      (hread : ∀ {rest}, Delimited rest → member s m.name (m.colonValue ++ rest) = .ok (s', rest))
      (hmore : Runs member s' members s'') : Runs member s (m :: members) s''

theorem foldMembers_of_runs {s s' : σ} {members : List (Member (List Char))} (h : Runs member s members s')
    {fuel : Nat} (hfuel : members.length < fuel) (first : Bool) (g inside : Gap) (rest : List Char) :
    foldMembers member fuel first s (g.val ++ (joined first (members.map (·.text)) ++ (inside.val ++ '}' :: rest))) =
      .ok (s', rest) := by
  -- The blanks behind a value are left to the step to the next key, so they are generalized as `g`.
  induction h generalizing fuel first g with
  | nil =>
    obtain ⟨fuel, rfl⟩ := Nat.exists_eq_add_one_of_ne_zero (Nat.ne_of_gt hfuel)
    unfold foldMembers
    rw [List.map_nil, joined, List.nil_append, nextKey_end]
    rfl
  | @cons s s' s'' m members hread hmore ih =>
    rw [List.length_cons] at hfuel
    obtain ⟨fuel, rfl⟩ := Nat.exists_eq_add_one_of_ne_zero (show fuel ≠ 0 by omega)
    have hrest := ih (show members.length < fuel by omega) false m.behind
    have hvalue := hread ((delimited_joined (members.map (·.text)) inside (.inr rfl) rest).gap m.behind)
    have hname : m.key.value = m.name := rfl
    unfold foldMembers
    rw [List.map_cons, joined, List.append_assoc, nextKey_member]
    simp only [bind, Except.bind, if_true, readText_literal, hname, hvalue]
    exact hrest

theorem length_le_joined (first : Bool) (members : List (Member (List Char))) :
    members.length ≤ (joined first (members.map (·.text))).length := by
  induction members generalizing first with
  | nil => exact Nat.le_refl 0
  | cons m members ih =>
    have htext : 0 < m.text.length := by
      simp only [Member.text, Literal.text, List.length_append, List.length_cons]
      omega
    have hmore := ih false
    cases first <;> simp [joined] <;> omega

theorem readMembers_of_runs {s s' : σ} {members : List (Member (List Char))} (h : Runs member s members s')
    (inside : Gap) (rest : List Char) :
    readMembers member s (joined true (members.map (·.text)) ++ (inside.val ++ '}' :: rest)) = .ok (s', rest) := by
  have hlength := length_le_joined true members
  have hfuel : members.length < (joined true (members.map (·.text)) ++ (inside.val ++ '}' :: rest)).length + 1 := by
    rw [List.length_append]
    omega
  have hfold := foldMembers_of_runs h hfuel true Gap.none inside rest
  rw [Gap.val_none, List.nil_append] at hfold
  unfold readMembers
  rw [hfold]
  rfl

/-- Members of these names were read one after another, wherever they stood. -/
inductive Takes (member : σ → String → Reader σ) : σ → List String → σ → Prop where
  | nil {s : σ} : Takes member s [] s
  | cons {s s' s'' : σ} {name : String} {names : List String} {cs rest : List Char}
      (hread : member s name cs = .ok (s', rest)) (hmore : Takes member s' names s'') :
      Takes member s (name :: names) s''

/-- Reading a member, where it succeeds, reads it to its end and no further. -/
def ExactMember (member : σ → String → Reader σ) (m : Member (List Char)) : Prop :=
  ∀ {s : σ} {rest : List Char}, Delimited rest → ∀ {s' : σ} {rest' : List Char},
    member s m.name (m.colonValue ++ rest) = .ok (s', rest') → rest' = rest

theorem foldMembers_exact {members : List (Member (List Char))} (hexact : ∀ m ∈ members, ExactMember member m)
    {fuel : Nat} {first : Bool} {g inside : Gap} {rest rest' : List Char} {s s' : σ}
    (hok : foldMembers member fuel first s
      (g.val ++ (joined first (members.map (·.text)) ++ (inside.val ++ '}' :: rest))) = .ok (s', rest')) :
    rest' = rest ∧ Takes member s (members.map (·.name)) s' := by
  induction members generalizing fuel first g s with
  | nil =>
    cases fuel with
    | zero => cases hok
    | succ fuel =>
      unfold foldMembers at hok
      rw [List.map_nil, joined, List.nil_append, nextKey_end] at hok
      cases hok
      exact ⟨rfl, .nil⟩
  | cons m members ih =>
    cases fuel with
    | zero => cases hok
    | succ fuel =>
      have hname : m.key.value = m.name := rfl
      unfold foldMembers at hok
      rw [List.map_cons, joined, List.append_assoc, nextKey_member] at hok
      simp only [bind, Except.bind, if_true, readText_literal, hname] at hok
      split at hok
      · cases hok
      · rename_i found hread
        obtain ⟨s₁, after⟩ := found
        -- Only because the member ends where its value does, the next key is the one of the grammar.
        have hafter := hexact m List.mem_cons_self ((delimited_joined _ _ (.inr rfl) rest).gap m.behind) hread
        subst hafter
        obtain ⟨hrest, htakes⟩ := ih (fun m' hm' => hexact m' (List.mem_cons_of_mem _ hm')) hok
        exact ⟨hrest, .cons hread htakes⟩

theorem readMembers_exact {members : List (Member (List Char))} (hexact : ∀ m ∈ members, ExactMember member m)
    {inside : Gap} {rest rest' : List Char} {s s' : σ}
    (hok : readMembers member s (joined true (members.map (·.text)) ++ (inside.val ++ '}' :: rest)) =
      .ok (s', rest')) : rest' = rest ∧ Takes member s (members.map (·.name)) s' := by
  have hfold := mapError_eq_ok hok
  exact foldMembers_exact hexact (g := Gap.none) hfold

/-! ### Lists that stand for records -/

theorem nextElement_comma (g : Gap) (cs : List Char) :
    nextElement false (g.val ++ ',' :: cs) =
      match skipBlanks cs with
      | ']' :: rest => .error (.within .trailingComma (']' :: rest))
      | [] => .error (.within .endInValue [])
      | rest => .ok (true, rest) := by
  unfold nextElement
  rw [skipBlanks_gap, skipBlanks_cons (by decide)]
  rfl

theorem nextElement_item (first : Bool) (g : Gap) {i : Item} (hi : IsValue i.value) (cs : List Char) :
    nextElement first (g.val ++ ((if first then i.text else ',' :: i.text) ++ cs)) =
      .ok (true, i.value ++ (i.behind.val ++ cs)) := by
  obtain ⟨c, tail, hv, hkind⟩ := hi.kind
  have hvalue : skipBlanks (i.text ++ cs) = c :: (tail ++ (i.behind.val ++ cs)) := by
    unfold Item.text
    rw [List.append_assoc, skipBlanks_gap, hv]
    simp [skipBlanks_cons hkind.blank]
  rw [hv]
  cases first
  · rw [if_neg (by decide), List.cons_append, nextElement_comma, hvalue]
    split
    · rename_i heq
      cases heq
      exact absurd rfl hkind.bracket
    · rename_i heq
      cases heq
    · rfl
  · unfold nextElement
    rw [skipBlanks_gap, if_pos rfl, hvalue]
    split
    · rename_i heq
      cases heq
    · rename_i heq
      cases heq
      exact absurd rfl hkind.bracket
    · rename_i heq
      cases heq
      rfl

theorem nextElement_end (first : Bool) (g inside : Gap) (rest : List Char) :
    nextElement first (g.val ++ (inside.val ++ ']' :: rest)) = .ok (false, ']' :: rest) := by
  unfold nextElement
  rw [skipBlanks_gap, skipBlanks_gap]
  rfl

/-- Where the elements of a record end, the rest of the list is left, if it has any. -/
theorem foldElements_exact {elements : List (σ → Reader σ)} {items : List Item}
    (hvalues : ∀ i ∈ items, IsValue i.value) (hexact : ∀ e ∈ elements, ∀ i ∈ items, ∀ s, Exact (e s) i.value)
    {first : Bool} (hfirst : first = true → elements ≠ []) {g inside : Gap} {rest cs : List Char} {s s' : σ}
    (hok : foldElements elements first s
      (g.val ++ (joined first (items.map (·.text)) ++ (inside.val ++ ']' :: rest))) = .ok (s', cs)) :
    ∃ (g' inside' : Gap) (items' : List Item),
      cs = g'.val ++ (joined false (items'.map (·.text)) ++ (inside'.val ++ ']' :: rest)) := by
  induction elements generalizing first items g s with
  | nil =>
    cases first with
    | true => exact absurd rfl (hfirst rfl)
    | false =>
      cases hok
      exact ⟨g, inside, items, rfl⟩
  | cons e elements ih =>
    unfold foldElements at hok
    cases items with
    | nil =>
      -- The bracket is not taken, but the blanks in front of it are.
      rw [List.map_nil, joined, List.nil_append, nextElement_end] at hok
      cases hok
      exact ⟨Gap.none, Gap.none, [], rfl⟩
    | cons i items =>
      rw [List.map_cons, joined, List.append_assoc, nextElement_item first g (hvalues i List.mem_cons_self)] at hok
      simp only [bind, Except.bind, if_true] at hok
      split at hok
      · cases hok
      · rename_i found hread
        obtain ⟨s₁, after⟩ := found
        have hafter := hexact e List.mem_cons_self i List.mem_cons_self s Gap.none
          ((delimited_joined _ _ (.inl rfl) rest).gap i.behind) hread
        subst hafter
        refine ih (fun i' hi' => hvalues i' (List.mem_cons_of_mem _ hi')) ?_ (by simp) hok
        exact fun e' he' i' hi' => hexact e' (List.mem_cons_of_mem _ he') i' (List.mem_cons_of_mem _ hi')

theorem readListEnd_comma (g : Gap) (cs : List Char) :
    readListEnd (g.val ++ ',' :: cs) =
      match skipBlanks cs with
      | ']' :: rest => .error (.within .trailingComma (']' :: rest))
      | rest => .error (.within .trailingCharacters rest) := by
  unfold readListEnd
  rw [skipBlanks_gap, skipBlanks_cons (by decide)]
  rfl

theorem readListEnd_exact {g inside : Gap} {items : List Item} {rest rest' : List Char}
    (hok : readListEnd (g.val ++ (joined false (items.map (·.text)) ++ (inside.val ++ ']' :: rest))) = .ok rest') :
    rest' = rest := by
  cases items with
  | nil =>
    unfold readListEnd at hok
    rw [List.map_nil, joined, List.nil_append, skipBlanks_gap, skipBlanks_gap] at hok
    cases hok
    rfl
  | cons i items =>
    rw [List.map_cons, joined, if_neg (by decide), List.append_assoc, List.cons_append, readListEnd_comma] at hok
    split at hok <;> cases hok

theorem readElements_ok {elements : List (σ → Reader σ)} {cs rest : List Char} {s s' : σ}
    (hok : readElements elements s cs = .ok (s', rest)) :
    ∃ cs', foldElements elements true s cs = .ok (s', cs') ∧ readListEnd cs' = .ok rest := by
  unfold readElements at hok
  simp only [bind, Except.bind] at hok
  split at hok
  · cases hok
  · rename_i found hmapped
    split at hok
    · cases hok
    · rename_i hend
      cases hok
      exact ⟨found.2, mapError_eq_ok hmapped, hend⟩

theorem readElements_exact {elements : List (σ → Reader σ)} (hne : elements ≠ []) {items : List Item}
    (hvalues : ∀ i ∈ items, IsValue i.value) (hexact : ∀ e ∈ elements, ∀ i ∈ items, ∀ s, Exact (e s) i.value)
    {inside : Gap} {rest rest' : List Char} {s s' : σ}
    (hok : readElements elements s (joined true (items.map (·.text)) ++ (inside.val ++ ']' :: rest)) =
      .ok (s', rest')) : rest' = rest := by
  obtain ⟨cs, hfold, hend⟩ := readElements_ok hok
  obtain ⟨g, inside', items', rfl⟩ := foldElements_exact hvalues hexact (fun _ => hne) (g := Gap.none) hfold
  exact readListEnd_exact hend

theorem readRecord_object (expected : String) (elements : List (σ → Reader σ)) (s : σ) (g : Gap)
    (members : List (Member (List Char))) (inside : Gap) (rest : List Char) :
    readRecord expected member elements s (g.val ++ (objectText members inside ++ rest)) =
      readMembers member s (joined true (members.map (·.text)) ++ (inside.val ++ '}' :: rest)) := by
  unfold readRecord
  rw [skipBlanks_gap, objectText_append, skipBlanks_cons (by decide)]
  rfl

theorem readRecord_exact {expected : String} {elements : List (σ → Reader σ)} {s : σ} (hne : elements ≠ [])
    {v : List Char} (h : IsValue v) (hmember : ∀ m, IsValue m.value → ExactMember member m)
    (helement : ∀ e ∈ elements, ∀ {u}, IsValue u → ∀ s, Exact (e s) u) :
    Exact (readRecord expected member elements s) v := by
  intro g rest hrest s' rest' hok
  obtain ⟨c, tail, hv, hkind⟩ := h.kind
  unfold readRecord at hok
  rw [skipBlanks_gap, hv, List.cons_append, skipBlanks_cons hkind.blank] at hok
  split at hok
  · rename_i heq
    obtain ⟨members, inside, hvalues, hobject⟩ := hkind.object (List.cons.inj heq).1
    rw [← List.cons_append, ← hv, hobject, objectText_append] at heq
    cases heq
    exact (readMembers_exact (fun m hm => hmember m (hvalues m hm)) hok).1
  · rename_i heq
    obtain ⟨items, inside, hvalues, hlist⟩ := hkind.list (List.cons.inj heq).1
    rw [← List.cons_append, ← hv, hlist, listText_append] at heq
    cases heq
    exact readElements_exact hne hvalues (fun e he i hi => helement e he (hvalues i hi)) hok
  · cases hok

theorem readWhole_ok {α : Type} {reader : Reader α} {text : String} {a : α}
    (h : readWhole reader text = .ok a) : ∃ rest, reader text.toList = .ok (a, rest) := by
  have hresult := mapError_eq_ok h
  simp only [bind, Except.bind] at hresult
  split at hresult
  · cases hresult
  · rename_i found hread
    split at hresult
    · cases hresult
      exact ⟨found.2, hread⟩
    · cases hresult

/-! ### What reading keeps -/

section

variable {P : σ → Prop} {elements : List (σ → Reader σ)}

theorem foldMembers_keeps (hmember : ∀ {s name cs s' rest}, P s → member s name cs = .ok (s', rest) → P s')
    {fuel : Nat} {first : Bool} {s s' : σ} {cs rest : List Char} (h : P s)
    (hok : foldMembers member fuel first s cs = .ok (s', rest)) : P s' := by
  induction fuel generalizing first s cs with
  | zero => cases hok
  | succ fuel ih =>
    unfold foldMembers at hok
    simp only [bind, Except.bind] at hok
    split at hok
    · cases hok
    · split at hok
      · split at hok
        · cases hok
        · split at hok
          · cases hok
          · rename_i hread
            exact ih (hmember h hread) hok
      · cases hok
        exact h

theorem foldElements_keeps (helement : ∀ e ∈ elements, ∀ {s cs s' rest}, P s → e s cs = .ok (s', rest) → P s')
    {first : Bool} {s s' : σ} {cs rest : List Char} (h : P s)
    (hok : foldElements elements first s cs = .ok (s', rest)) : P s' := by
  induction elements generalizing first s cs with
  | nil =>
    cases hok
    exact h
  | cons e elements ih =>
    unfold foldElements at hok
    simp only [bind, Except.bind] at hok
    split at hok
    · cases hok
    · split at hok
      · split at hok
        · cases hok
        · rename_i hread
          have hfirst := helement e List.mem_cons_self h hread
          exact ih (fun e' he' => helement e' (List.mem_cons_of_mem _ he')) hfirst hok
      · cases hok
        exact h

theorem readRecord_keeps (hmember : ∀ {s name cs s' rest}, P s → member s name cs = .ok (s', rest) → P s')
    (helement : ∀ e ∈ elements, ∀ {s cs s' rest}, P s → e s cs = .ok (s', rest) → P s')
    {expected : String} {s s' : σ} {cs rest : List Char} (h : P s)
    (hok : readRecord expected member elements s cs = .ok (s', rest)) : P s' := by
  unfold readRecord at hok
  split at hok
  · exact foldMembers_keeps hmember h (mapError_eq_ok hok)
  · obtain ⟨cs', hfold, -⟩ := readElements_ok hok
    exact foldElements_keeps helement h hfold
  · cases hok

end

end Logbook.Json
