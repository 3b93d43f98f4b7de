import Logbook.Proofs.Containers

/-!
# Passing over values

Every value of the grammar is passed over to its end, whatever it holds and however deep it is nested, within the turns
that the length of the text allows.
-/

namespace Logbook.Json

/-- From the front of a value to its end in at most twice as many turns as it has characters. -/
def Passes (v : List Char) : Prop :=
  ∃ turns, turns ≤ 2 * v.length ∧ ∀ (g : Gap) {rest : List Char}, Delimited rest → ∀ fuel frames,
    skipFrom .loose (fuel + turns) .value frames (g.val ++ (v ++ rest)) = skipFrom .loose fuel .closed frames rest

/-! ### Scalars -/

theorem passes_of_skipScalar {c : Char} {tail : List Char} (hblank : isBlank c = false) (hlist : c ≠ '[')
    (hobject : c ≠ '{')
    (hskip : ∀ {rest}, Delimited rest → skipScalar .loose ((c :: tail) ++ rest) = .ok rest) : Passes (c :: tail) := by
  refine ⟨1, by simp only [List.length_cons]; omega, fun g rest hrest fuel frames => ?_⟩
  have hscalar := hskip hrest
  rw [List.cons_append] at hscalar ⊢
  simp only [skipFrom, skipBlanks_gap, skipBlanks_cons hblank]
  split
  · rename_i heq
    exact absurd (List.cons.inj heq).1 hlist
  · rename_i heq
    exact absurd (List.cons.inj heq).1 hobject
  · rw [hscalar]
    rfl

theorem passes_number {sign whole fraction exponent : List Char} (hsign : sign ∈ [[], ['-']]) (hwhole : IsWhole whole)
    (hfraction : IsFraction fraction) (hexponent : IsExponent exponent) :
    Passes (sign ++ (whole ++ (fraction ++ exponent))) := by
  obtain ⟨c, tail, heq, hc⟩ := number_cons hsign hwhole (fraction ++ exponent)
  obtain ⟨c', tail', heq', hkind⟩ := (IsValue.number hsign hwhole hfraction hexponent).kind
  obtain ⟨rfl, rfl⟩ := List.cons.inj (heq.symm.trans heq')
  have hother : ∀ d, ¬(d = '-' ∨ isDigit d = true) → c ≠ d := by
    rintro d hd rfl
    exact hd hc
  rw [heq]
  refine passes_of_skipScalar hkind.blank (hother _ (by decide)) (hother _ (by decide)) fun {rest} hrest => ?_
  obtain ⟨f, e, hscan, -, -⟩ := scanNumeral_append .loose hwhole hfraction hexponent hrest
  have hdigits : (if c = '-' then tail ++ rest else (c :: tail) ++ rest) =
      whole ++ (fraction ++ (exponent ++ rest)) := by
    simp only [List.mem_cons, List.not_mem_nil, or_false] at hsign
    obtain ⟨d, ds, rfl, hd⟩ := hwhole.1.cons
    rcases hsign with rfl | rfl
    · cases heq
      rw [if_neg (by rintro rfl; cases hd)]
      simp
    · cases heq
      rw [if_pos rfl]
      simp
  rw [List.cons_append] at hdigits ⊢
  unfold skipScalar
  split
  · rename_i heq
    exact absurd (List.cons.inj heq).1 (hother _ (by decide))
  · rename_i heq
    exact absurd (List.cons.inj heq).1 (hother _ (by decide))
  · rename_i heq
    exact absurd (List.cons.inj heq).1 (hother _ (by decide))
  · rename_i heq
    exact absurd (List.cons.inj heq).1 (hother _ (by decide))
  · rename_i heq
    cases heq
    simp only [if_pos hc, hdigits, hscan]
    rfl
  · rename_i heq
    cases heq

/-! ### Containers -/

/-- What stands between two commas of a container: what comes in front of a value, the value, and blanks. -/
structure Part where
  lead : List Char
  value : List Char
  behind : Gap

def Part.text (p : Part) : List Char := p.lead ++ (p.value ++ p.behind.val)

/-- In front of the first part of a container, and in front of the comma of another. -/
def partPhase (first : Bool) : Phase := if first then .opened else .closed

/-- One turn leads to the value of a part. -/
def Enters (frame : Frame) (p : Part) : Prop :=
  ∃ g : Gap, ∀ (first : Bool) (g₀ : Gap) (rest : List Char) fuel frames,
    skipFrom .loose (fuel + 1) (partPhase first) (frame :: frames)
        (g₀.val ++ ((if first then p.lead else ',' :: p.lead) ++ (p.value ++ rest))) =
      skipFrom .loose fuel .value (frame :: frames) (g.val ++ (p.value ++ rest))

theorem skipFrom_close (frame : Frame) (first : Bool) (g inside : Gap) (rest : List Char) (fuel : Nat)
    (frames : List Frame) :
    skipFrom .loose (fuel + 1) (partPhase first) (frame :: frames) (g.val ++ (inside.val ++ frame.close :: rest)) =
      skipFrom .loose fuel .closed frames rest := by
  cases frame <;> cases first <;>
    simp [partPhase, skipFrom, Frame.close, skipBlanks_cons (c := ']'), skipBlanks_cons (c := '}'), isBlank]

theorem skipFrom_parts (frame : Frame) {parts : List Part} (h : ∀ p ∈ parts, Enters frame p ∧ Passes p.value)
    (first : Bool) :
    ∃ turns, turns ≤ 2 * (joined first (parts.map (·.text))).length + 1 + first.toNat ∧
      ∀ (g inside : Gap) (rest : List Char) fuel frames,
        skipFrom .loose (fuel + turns) (partPhase first) (frame :: frames)
            (g.val ++ (joined first (parts.map (·.text)) ++ (inside.val ++ frame.close :: rest))) =
          skipFrom .loose fuel .closed frames rest := by
  induction parts generalizing first with
  | nil => exact ⟨1, by omega, fun g inside rest fuel frames => skipFrom_close frame first g inside rest fuel frames⟩
  | cons p parts ih =>
    obtain ⟨⟨g', henters⟩, turnsV, hboundV, hpasses⟩ := h p List.mem_cons_self
    obtain ⟨turns, hbound, hparts⟩ := ih (fun p' hp' => h p' (List.mem_cons_of_mem _ hp')) false
    -- One turn to enter the part, then the turns of its value. The comma in front pays for the first; the first part
    -- of all has none, which is why the bound allows one more there.
    refine ⟨turns + turnsV + 1, ?_, fun g inside rest fuel frames => ?_⟩
    · have hlength : p.value.length + (joined false (parts.map (·.text))).length + 1 ≤
          (joined first ((p :: parts).map (·.text))).length + first.toNat := by
        cases first <;> simp [joined, Part.text] <;> omega
      cases first <;> simp only [Bool.toNat_false, Bool.toNat_true] at hbound hlength ⊢ <;> omega
    · have hclose : frame.close = ']' ∨ frame.close = '}' := by cases frame <;> simp [Frame.close]
      have htext : (if first then p.text else ',' :: p.text) =
          (if first then p.lead else ',' :: p.lead) ++ (p.value ++ p.behind.val) := by
        cases first <;> simp [Part.text]
      have hturns : fuel + (turns + turnsV + 1) = fuel + turns + turnsV + 1 := by omega
      rw [List.map_cons, joined, htext, hturns]
      simp only [List.append_assoc]
      rw [henters, hpasses g' ((delimited_joined _ _ hclose rest).gap p.behind)]
      exact hparts p.behind inside rest fuel frames

theorem passes_container (frame : Frame) (bracket : Char) (hbracket : (frame, bracket) ∈ [(.list, '['), (.object, '{')])
    {parts : List Part} (h : ∀ p ∈ parts, Enters frame p ∧ Passes p.value) (inside : Gap) :
    Passes (bracket :: (joined true (parts.map (·.text)) ++ (inside.val ++ [frame.close]))) := by
  obtain ⟨turns, hbound, hparts⟩ := skipFrom_parts frame h true
  refine ⟨turns + 1, ?_, fun g rest hrest fuel frames => ?_⟩
  · simp only [Bool.toNat_true] at hbound
    simp only [List.length_cons, List.length_append, List.length_nil]
    omega
  · have hopen : ∀ cs fuel, skipFrom .loose (fuel + 1) .value frames (g.val ++ bracket :: cs) =
        skipFrom .loose fuel .opened (frame :: frames) cs := by
      intro cs fuel
      simp only [List.mem_cons, Prod.mk.injEq, List.not_mem_nil, or_false] at hbracket
      rcases hbracket with ⟨rfl, rfl⟩ | ⟨rfl, rfl⟩
      · simp only [skipFrom, skipBlanks_gap, skipBlanks_cons (c := '[') (by decide)]
        rfl
      · simp only [skipFrom, skipBlanks_gap, skipBlanks_cons (c := '{') (by decide)]
        rfl
    have hrun := hparts Gap.none inside rest fuel frames
    rw [Gap.val_none, List.nil_append] at hrun
    rw [List.cons_append, ← Nat.add_assoc, hopen]
    simp only [List.append_assoc, List.cons_append, List.nil_append]
    exact hrun

/-- A member as a part: the key and the colon lead to the value. -/
def Member.part (m : Member (List Char)) : Part where
  lead := m.front.val ++ (m.key.text ++ (m.behindKey.val ++ ':' :: m.beforeValue.val))
  value := m.value
  behind := m.behind

theorem Member.text_part (m : Member (List Char)) : m.part.text = m.text := by
  simp [part, Part.text, text, colonValue]

theorem Member.enters (m : Member (List Char)) : Enters .object m.part := by
  refine ⟨m.beforeValue, fun first g₀ rest fuel frames => ?_⟩
  have hlead : skipBlanks (m.part.lead ++ (m.value ++ rest)) =
      '"' :: (m.key.body ++ '"' :: (m.behindKey.val ++ ':' :: (m.beforeValue.val ++ (m.value ++ rest)))) := by
    simp [part, Literal.text, skipBlanks_cons (c := '"') (by decide)]
  have hkey : skipKey .loose
      ('"' :: (m.key.body ++ '"' :: (m.behindKey.val ++ ':' :: (m.beforeValue.val ++ (m.value ++ rest))))) =
      .ok (m.beforeValue.val ++ (m.value ++ rest)) := by
    obtain ⟨s, hread⟩ := readText_loose m.key (m.behindKey.val ++ ':' :: (m.beforeValue.val ++ (m.value ++ rest)))
    unfold skipKey
    rw [skipBlanks_cons (by decide)]
    simp only [hread, bind, Except.bind]
    exact readColon_gap m.behindKey _
  have hvalue : m.part.value = m.value := rfl
  rw [hvalue]
  cases first
  · have hcomma := skipBlanks_cons (c := ',') (by decide) (m.part.lead ++ (m.value ++ rest))
    simp [partPhase, skipFrom, hcomma, Frame.close, skipComma, hlead, hkey, bind, Except.bind]
  · simp [partPhase, skipFrom, hlead, Frame.close, hkey, bind, Except.bind]

def Item.part (i : Item) : Part where
  lead := i.front.val
  value := i.value
  behind := i.behind

theorem Item.enters {i : Item} (hi : IsValue i.value) : Enters .list i.part := by
  refine ⟨Gap.none, fun first g₀ rest fuel frames => ?_⟩
  obtain ⟨c, tail, hv, hkind⟩ := hi.kind
  have hlead : skipBlanks (i.part.lead ++ (c :: (tail ++ rest))) = c :: (tail ++ rest) := by
    simp [part, skipBlanks_cons hkind.blank]
  have hvalue : i.part.value ++ rest = c :: (tail ++ rest) := by
    simp [part, hv]
  rw [hvalue]
  cases first
  · have hcomma := skipBlanks_cons (c := ',') (by decide) (i.part.lead ++ (c :: (tail ++ rest)))
    simp [partPhase, skipFrom, hcomma, Frame.close, skipComma, hlead, bind, Except.bind]
  · simp [partPhase, skipFrom, hlead, Frame.close, hkind.bracket]

theorem IsValue.passes {v : List Char} (h : IsValue v) : Passes v := by
  induction h with
  | null =>
    refine passes_of_skipScalar (by decide) (by decide) (by decide) fun {rest} _ => ?_
    exact readWord_append "ull".toList rest
  | bool b =>
    cases b
    · refine passes_of_skipScalar (by decide) (by decide) (by decide) fun {rest} _ => ?_
      exact readWord_append "alse".toList rest
    · refine passes_of_skipScalar (by decide) (by decide) (by decide) fun {rest} _ => ?_
      exact readWord_append "rue".toList rest
  | number hsign hwhole hfraction hexponent => exact passes_number hsign hwhole hfraction hexponent
  | text l =>
    refine passes_of_skipScalar (by decide) (by decide) (by decide) fun {rest} _ => ?_
    obtain ⟨s, hread⟩ := readText_loose l rest
    rw [List.cons_append, List.append_assoc]
    change (readText .loose (l.body ++ '"' :: rest)).map _ = _
    rw [hread]
    rfl
  | @list items inside hvalues ih =>
    have hparts : ∀ p ∈ items.map (·.part), Enters .list p ∧ Passes p.value := by
      intro p hp
      obtain ⟨i, hi, rfl⟩ := List.mem_map.mp hp
      exact ⟨Item.enters (hvalues i hi), ih i hi⟩
    have hpasses := passes_container .list '[' (by simp) hparts inside
    rw [List.map_map] at hpasses
    unfold listText
    rw [intercalate_eq]
    exact hpasses
  | @object members inside hvalues ih =>
    have hparts : ∀ p ∈ members.map (·.part), Enters .object p ∧ Passes p.value := by
      intro p hp
      obtain ⟨m, hm, rfl⟩ := List.mem_map.mp hp
      exact ⟨m.enters, ih m hm⟩
    have hpasses := passes_container .object '{' (by simp) hparts inside
    have htext : (members.map (·.part)).map (·.text) = members.map (·.text) := by
      rw [List.map_map]
      exact List.map_congr_left fun m _ => m.text_part
    rw [htext] at hpasses
    unfold objectText
    rw [intercalate_eq]
    exact hpasses

theorem skipValue_value {v rest : List Char} (h : IsValue v) (g : Gap) (hrest : Delimited rest) :
    skipValue .loose (g.val ++ (v ++ rest)) = .ok ((), rest) := by
  obtain ⟨turns, hbound, hpasses⟩ := h.passes
  have hlength : (g.val ++ (v ++ rest)).length = g.val.length + v.length + rest.length := by
    simp only [List.length_append]
    omega
  have hfuel : 2 * (g.val ++ (v ++ rest)).length + 2 =
      (2 * (g.val.length + v.length + rest.length) + 1 - turns) + 1 + turns := by
    omega
  unfold skipValue
  rw [hfuel, hpasses g hrest]
  rfl

end Logbook.Json
