import Logbook.Proofs.Documents
import Mathlib.Data.List.Nodup

/-!
# Which configurations are accepted

Reading a configuration succeeds on the text of every document. On an object with any other field, or with a field
twice, it fails, whatever the values of the fields are.
-/

namespace Logbook.Config

open Json (Gap Literal Member IsValue Delimited objectText Exact ExactMember Takes)

variable {σ α : Type} {m : Member (List Char)} {v : List Char}

/-! ### Where any value may stand -/

theorem readOnce_ok {name : String} {field : Option α} {read : Json.Reader α} {store : α → σ} {cs rest : List Char}
    {s : σ} (h : readOnce name field read store cs = .ok (s, rest)) :
    field = none ∧ ∃ cs' a, Json.readColon cs = .ok cs' ∧ read cs' = .ok (a, rest) ∧ s = store a := by
  unfold readOnce at h
  cases field with
  | some _ => cases h
  | none =>
    simp only [bind, Except.bind] at h
    split at h
    · cases h
    · rename_i cs' hcolon
      split at h
      · cases h
      · rename_i found hread
        cases h
        exact ⟨rfl, cs', found.1, hcolon, hread, rfl⟩

theorem readOnce_exact {name : String} {field : Option α} {read : Json.Reader α} {store : α → σ}
    (hread : Exact read m.value) {rest rest' : List Char} (hrest : Delimited rest) {s : σ}
    (h : readOnce name field read store (m.colonValue ++ rest) = .ok (s, rest')) : rest' = rest := by
  obtain ⟨-, cs', a, hcolon, hok, -⟩ := readOnce_ok h
  rw [readColon_value] at hcolon
  cases hcolon
  exact hread m.beforeValue hrest hok

theorem readSeverity_exact (h : IsValue v) : Exact readSeverity v := by
  intro g rest hrest level rest' hok
  unfold readSeverity at hok
  cases hread : Json.readString (g.val ++ (v ++ rest)) with
  | error p =>
    rw [hread] at hok
    cases hok
  | ok found =>
    have hafter := Json.readString_exact h g hrest hread
    rw [hread] at hok
    simp only [bind, Except.bind] at hok
    split at hok
    · cases hok
      exact hafter
    · cases hok

theorem levelMember_exact (h : IsValue m.value) : ExactMember levelMember m := by
  intro levels rest hrest levels' rest' hok
  unfold levelMember at hok
  rw [readColon_value] at hok
  simp only [bind, Except.bind] at hok
  split at hok
  · cases hok
  · rename_i found hread
    cases hok
    exact readSeverity_exact h m.beforeValue hrest hread

theorem readLevels_exact (h : IsValue v) : Exact readLevels v := by
  intro g rest hrest levels rest' hok
  obtain ⟨c, tail, hv, hkind⟩ := h.kind
  unfold readLevels at hok
  rw [Json.skipBlanks_gap, hv, List.cons_append, Json.skipBlanks_cons hkind.blank] at hok
  split at hok
  · rename_i heq
    obtain ⟨members, inside, hvalues, hobject⟩ := hkind.object (List.cons.inj heq).1
    rw [← List.cons_append, ← hv, hobject, Json.objectText_append] at heq
    cases heq
    exact (Json.readMembers_exact (fun m hm => levelMember_exact (hvalues m hm)) hok).1
  · cases hok

theorem LimitsDraft.member_exact (h : IsValue m.value) : ExactMember LimitsDraft.member m := by
  intro p rest hrest p' rest' hok
  by_cases hknown : m.name ∈ Limit.known
  · simp only [Limit.known, List.mem_cons, List.not_mem_nil, or_false] at hknown
    rcases hknown with hname | hname
    · rw [hname, member_nodes] at hok
      exact readOnce_exact (Json.readCount_exact h) hrest hok
    · rw [hname, member_slots] at hok
      exact readOnce_exact (Json.readCount_exact h) hrest hok
  · rw [member_other hknown, readColon_value] at hok
    simp only [bind, Except.bind, Json.skipValue_value h m.beforeValue hrest] at hok
    cases hok
    rfl

theorem map_exact {β : Type} {read : Json.Reader α} (hread : Exact read v) (f : α → β) :
    Exact (fun cs => (read cs).map fun (a, rest) => (f a, rest)) v := by
  intro g rest hrest b rest' hok
  obtain ⟨⟨a, after⟩, hfound, heq⟩ := Json.map_eq_ok hok
  cases heq
  exact hread g hrest hfound

theorem readLimits_exact (h : IsValue v) : Exact readLimits v := by
  have helements : ∀ e ∈ LimitsDraft.elements, ∀ {u}, IsValue u → ∀ p, Exact (e p) u := by
    intro e he u hu p
    simp only [LimitsDraft.elements, List.mem_cons, List.not_mem_nil, or_false] at he
    rcases he with rfl | rfl
    · exact map_exact (Json.readCount_exact hu) fun n => { p with nodes := some n }
    · exact map_exact (Json.readCount_exact hu) fun n => { p with slots := some n }
  exact map_exact (Json.readRecord_exact (by simp [LimitsDraft.elements]) h (fun m hm => LimitsDraft.member_exact hm)
    helements) LimitsDraft.complete

/-! ### The fields that were read -/

namespace Draft

theorem member_unknown {p : Draft} {name : String} (hname : name ∉ fields) (cs : List Char) :
    p.member name cs = .error (.floating (.unknownField name fields) cs) := by
  simp only [fields, List.mem_cons, List.not_mem_nil, or_false, not_or] at hname
  unfold member
  split
  · exact absurd rfl hname.1
  · exact absurd rfl hname.2.1
  · exact absurd rfl hname.2.2.1
  · exact absurd rfl hname.2.2.2
  · rfl

/-- The readers of the four fields. -/
theorem member_cases (p : Draft) {name : String} (hname : name ∈ fields) :
    ∃ (β : Type) (field : Option β) (read : Json.Reader β) (store : β → Draft),
      p.member name = readOnce name field read store ∧ (field = .none → ¬p.Has name) ∧
        (∀ b other, (store b).Has other ↔ other = name ∨ p.Has other) ∧ ∀ {v}, IsValue v → Exact read v := by
  simp only [fields, List.mem_cons, List.not_mem_nil, or_false] at hname
  rcases hname with rfl | rfl | rfl | rfl
  · refine ⟨Severity, p.defaultLevel, readSeverity, ({ p with defaultLevel := some · }), rfl,
      fun hnone => by simp [Has, hnone], fun b other => ?_, readSeverity_exact⟩
    simp [Has]
    tauto
  · refine ⟨Bool, p.localTime, Json.readBool, ({ p with localTime := some · }), rfl,
      fun hnone => by simp [Has, hnone], fun b other => ?_, Json.readBool_exact⟩
    simp [Has]
    tauto
  · refine ⟨NameMap Severity, p.levels, readLevels, ({ p with levels := some · }), rfl,
      fun hnone => by simp [Has, hnone], fun b other => ?_, readLevels_exact⟩
    simp [Has]
    tauto
  · refine ⟨PoolLimits, p.pool, readLimits, ({ p with pool := some · }), rfl,
      fun hnone => by simp [Has, hnone], fun b other => ?_, readLimits_exact⟩
    simp [Has]
    tauto

theorem member_exact (h : IsValue m.value) : ExactMember member m := by
  intro p rest hrest p' rest' hok
  by_cases hknown : m.name ∈ fields
  · obtain ⟨β, field, read, store, hmember, -, -, hread⟩ := p.member_cases hknown
    rw [hmember] at hok
    exact readOnce_exact (hread h) hrest hok
  · rw [member_unknown hknown] at hok
    cases hok

theorem member_ok {p p' : Draft} {name : String} {cs rest : List Char} (h : p.member name cs = .ok (p', rest)) :
    name ∈ fields ∧ ¬p.Has name ∧ ∀ other, p'.Has other ↔ other = name ∨ p.Has other := by
  by_cases hknown : name ∈ fields
  · obtain ⟨β, field, read, store, hmember, hnew, hstore, -⟩ := p.member_cases hknown
    rw [hmember] at h
    obtain ⟨hnone, cs', b, -, -, rfl⟩ := readOnce_ok h
    exact ⟨hknown, hnew hnone, hstore b⟩
  · rw [member_unknown hknown] at h
    cases h

/-- Fields that were read one after another are known, and none was read before. -/
theorem takes_fields {p p' : Draft} {names : List String} (h : Takes member p names p') :
    names.Nodup ∧ ∀ name ∈ names, name ∈ fields ∧ ¬p.Has name := by
  induction h with
  | nil => simp
  | @cons p p₁ p' name names cs rest hread hmore ih =>
    obtain ⟨hknown, hnew, hhas⟩ := member_ok hread
    obtain ⟨hnodup, hnames⟩ := ih
    refine ⟨List.nodup_cons.mpr ⟨fun hmem => ?_, hnodup⟩, fun other hother => ?_⟩
    · exact (hnames name hmem).2 ((hhas name).mpr (.inl rfl))
    · rcases List.mem_cons.mp hother with rfl | hmem
      · exact ⟨hknown, hnew⟩
      · exact ⟨(hnames other hmem).1, fun hbefore => (hnames other hmem).2 ((hhas other).mpr (.inr hbefore))⟩

end Draft

theorem readWhole_fields {front inside behind : Gap} {members : List (Member (List Char))}
    (hvalues : ∀ m ∈ members, IsValue m.value) {c : Config}
    (h : Json.readWhole read (layout front members inside behind) = .ok c) :
    (members.map (·.name)).Nodup ∧ ∀ name ∈ members.map (·.name), name ∈ Draft.fields := by
  obtain ⟨rest, hfound⟩ := Json.readWhole_ok h
  obtain ⟨⟨p, after⟩, hrecord, -⟩ := Json.map_eq_ok hfound
  unfold layout at hrecord
  rw [String.toList_ofList, Json.readRecord_object] at hrecord
  obtain ⟨-, htakes⟩ := Json.readMembers_exact (fun m hm => Draft.member_exact (hvalues m hm)) hrecord
  obtain ⟨hnodup, hnames⟩ := Draft.takes_fields htakes
  exact ⟨hnodup, fun name hname => (hnames name hname).1⟩

theorem Limit.isValue (l : Limit) : IsValue l.text := by
  have hcount : ∀ n, IsValue (Json.countText n) := by
    intro n
    cases n with
    | none => exact .null
    | some n =>
      have h : IsValue ([] ++ (Nat.toDigits 10 n ++ ([] ++ []))) :=
        .number (by simp) (Json.isWhole_toDigits n) .absent .absent
      rwa [List.nil_append, List.append_nil, List.append_nil] at h
  cases l with
  | nodes n => exact hcount n.val
  | slots n => exact hcount n.val
  | other v hv => exact hv

theorem Setting.isValue (s : Setting) : IsValue s.text := by
  cases s with
  | defaultLevel word => exact .text word.literal
  | localTime b => exact .bool b
  | levels rows inside =>
    refine .object inside fun m hm => ?_
    obtain ⟨row, -, rfl⟩ := List.mem_map.mp hm
    exact .text row.value.literal
  | pool limits =>
    refine .object limits.inside fun m hm => ?_
    obtain ⟨limit, -, rfl⟩ := List.mem_map.mp hm
    exact limit.value.isValue

/-! ### Parsing -/

theorem parse_of_readWhole {text : String} {c : Config} (h : Json.readWhole read text = .ok c)
    (hnames : "" ∉ c.levels.names) : parse text = .ok c := by
  have hvalid : c.validate = .ok () := by
    unfold validate
    rw [if_neg (fun hcontains => hnames (NameMap.contains_iff.mp hcontains))]
  unfold parse
  rw [h]
  simp only [Except.mapError, bind, Except.bind, hvalid]
  rfl

theorem parse_of_unreadable {text : String} (h : ∀ c, Json.readWhole read text ≠ .ok c) :
    ∃ r, parse text = .error (.json r) := by
  cases hread : Json.readWhole read text with
  | ok c => exact absurd hread (h c)
  | error r =>
    refine ⟨r, ?_⟩
    unfold parse
    rw [hread]
    rfl

/-- The text of a document is accepted, and says what the document says; of several levels of one name the last counts.
With a member more, at any place, that has a key of no field or the key of a field that is there, it is refused. -/
theorem parse_document (d : Document) (hnames : "" ∉ d.rows.map (·.1)) :
    parse d.text = .ok d.config ∧
      (∀ name, d.config.levels.find? name = d.rows.reverse.lookup name) ∧
      ∀ (before after : List Field) (extra : Member (List Char)), d.fields = before ++ after → IsValue extra.value →
        (extra.name ∉ Draft.fields ∨ extra.name ∈ d.fields.map (·.name)) →
        ∃ r, parse (layout d.front (before.map (·.raw) ++ extra :: after.map (·.raw)) d.inside d.behind) =
          .error (.json r) := by
  refine ⟨parse_of_readWhole (readWhole_document d) ?_, fun name => NameMap.find?_ofList d.rows name, ?_⟩
  · rw [NameMap.mem_names_iff]
    rintro ⟨level, hlevel⟩
    change (NameMap.ofList d.rows).find? "" = some level at hlevel
    rw [NameMap.find?_ofList] at hlevel
    have hmem := NameMap.mem_of_lookup hlevel
    exact hnames (List.mem_map.mpr ⟨_, List.mem_reverse.mp hmem, rfl⟩)
  · intro before after extra hfields hvalue hextra
    refine parse_of_unreadable fun c hread => ?_
    have hvalues : ∀ m ∈ before.map (·.raw) ++ extra :: after.map (·.raw), IsValue m.value := by
      intro m hm
      rcases List.mem_append.mp hm with hm | hm
      · obtain ⟨f, -, rfl⟩ := List.mem_map.mp hm
        exact f.val.value.isValue
      · rcases List.mem_cons.mp hm with rfl | hm
        · exact hvalue
        · obtain ⟨f, -, rfl⟩ := List.mem_map.mp hm
          exact f.val.value.isValue
    obtain ⟨hnodup, hknown⟩ := readWhole_fields hvalues hread
    rcases hextra with hunknown | hagain
    · exact hunknown (hknown _ (by simp))
    · have hnames : (before.map (·.raw) ++ extra :: after.map (·.raw)).map (·.name) =
          before.map (·.name) ++ extra.name :: after.map (·.name) := by
        simp only [List.map_append, List.map_cons, List.map_map]
        rfl
      rw [hnames, List.nodup_middle, ← List.map_append, ← hfields] at hnodup
      exact (List.nodup_cons.mp hnodup).1 hagain

/-- A pool with a limit and a member that means nothing. -/
def sampleLimits : Limits where
  members :=
    [.written Gap.none Gap.none "more" (.other (toString true).toList (.bool true)),
      .written Gap.none Gap.none "max_free_slots" (.slots ⟨some 7, by simp⟩)]
  under := by simp [Limit.Under, Limit.known]
  once := by decide
  inside := Gap.none

/-- A level twice, and no default level. -/
def sample : Document where
  front := Gap.space
  fields :=
    [.written Gap.none Gap.none (.pool sampleLimits),
      .written Gap.space Gap.none (.levels
        [.written Gap.none Gap.none "a" ⟨.written "Warn", .warn, by decide⟩,
          .written Gap.none Gap.none "a" ⟨.written "FATAL", .fatal, by decide⟩] Gap.none)]
  inside := Gap.none
  behind := Gap.none
  distinct := by simp [Setting.name]

theorem parse_sample :
    "" ∉ sample.rows.map (·.1) ∧ IsValue "null".toList ∧
      sample.text = " \x7b\"pool\":\x7b\"more\":true,\"max_free_slots\":7\x7d, \"levels\":" ++
        "\x7b\"a\":\"Warn\",\"a\":\"FATAL\"\x7d\x7d" ∧
      parse sample.text = .ok ⟨.info, false, .ofList [("a", .fatal)], ⟨none, some 7⟩⟩ ∧
      (∃ r, parse (layout sample.front ((sample.fields.take 1).map (·.raw) ++
        .written Gap.none Gap.none "more" "null".toList :: (sample.fields.drop 1).map (·.raw))
        sample.inside sample.behind) = .error (.json r)) ∧
      ∃ r, parse (layout sample.front ((sample.fields.take 0).map (·.raw) ++
        .written Gap.none Gap.none "levels" "null".toList :: (sample.fields.drop 0).map (·.raw))
        sample.inside sample.behind) = .error (.json r) := by
  have hnames : "" ∉ sample.rows.map (·.1) := by decide +kernel
  obtain ⟨hparse, -, hextra⟩ := parse_document sample hnames
  refine ⟨hnames, .null, by decide +kernel, hparse.trans (by decide +kernel), ?_, ?_⟩
  · exact hextra _ _ _ rfl .null (.inl (by decide +kernel))
  · exact hextra _ _ _ rfl .null (.inr (by decide +kernel))

end Logbook.Config
