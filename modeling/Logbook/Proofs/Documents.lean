import Logbook.Config
import Logbook.Proofs.Names
import Logbook.Proofs.Skipping
import Mathlib.Tactic.Tauto

/-!
# Configurations as they may be written

A document is a configuration with all that its text leaves open: the order of the fields, the blanks, the spelling of
words and names, fields of the pool that mean nothing. Each field carries the proof that its key is its own. What a
document says is read off it field by field; reading its text gives the same.
-/

namespace Logbook.Config

open Json (Gap Literal Member IsValue Delimited objectText)

/-- A level by one of its words. -/
structure Word where
  literal : Literal
  level : Severity
  parsed : Severity.parse? literal.value = some level

/-- A limit, or none. -/
abbrev Count := { n : Option Nat // ∀ k ∈ n, k < Nat.pow 2 64 }

/-- What may stand in the object of the pool. -/
inductive Limit where
  | nodes (n : Count)
  | slots (n : Count)
  | other (v : List Char) (h : IsValue v)

namespace Limit

def text : Limit → List Char
  | nodes n => Json.countText n.val
  | slots n => Json.countText n.val
  | other v _ => v

def nodes? : Limit → Option (Option Nat)
  | nodes n => some n.val
  | _ => none

def slots? : Limit → Option (Option Nat)
  | slots n => some n.val
  | _ => none

/-- The names that mean something. -/
def known : List String := ["max_free_nodes", "max_free_slots"]

def Under (name : String) : Limit → Prop
  | nodes _ => name = "max_free_nodes"
  | slots _ => name = "max_free_slots"
  | other _ _ => name ∉ known

end Limit

/-- The members of the pool, none of the two limits twice. -/
structure Limits where
  members : List (Member Limit)
  under : ∀ m ∈ members, m.value.Under m.name
  once : ∀ name ∈ Limit.known, (members.map (·.name)).count name ≤ 1
  inside : Gap

/-- What may stand in the object of a configuration. -/
inductive Setting where
  | defaultLevel (word : Word)
  | localTime (b : Bool)
  | levels (rows : List (Member Word)) (inside : Gap)
  | pool (limits : Limits)

namespace Setting

def name : Setting → String
  | defaultLevel _ => "default_level"
  | localTime _ => "local_time"
  | levels _ _ => "levels"
  | pool _ => "pool"

def text : Setting → List Char
  | defaultLevel word => word.literal.text
  | localTime b => (toString b).toList
  | levels rows inside => objectText (rows.map (·.map (·.literal.text))) inside
  | pool limits => objectText (limits.members.map (·.map (·.text))) limits.inside

def defaultLevel? : Setting → Option Severity
  | defaultLevel word => some word.level
  | _ => none

def localTime? : Setting → Option Bool
  | localTime b => some b
  | _ => none

def rows? : Setting → Option (List (String × Severity))
  | levels rows _ => some (rows.map fun m => (m.name, m.value.level))
  | _ => none

def pool? : Setting → Option PoolLimits
  | pool limits =>
    some ⟨(limits.members.findSome? (·.value.nodes?)).join, (limits.members.findSome? (·.value.slots?)).join⟩
  | _ => none

end Setting

/-- A field: a setting under its own name. -/
abbrev Field := { m : Member Setting // m.name = m.value.name }

namespace Field

def name (f : Field) : String := f.val.name

def raw (f : Field) : Member (List Char) := f.val.map (·.text)

def written (front beforeValue : Gap) (s : Setting) : Field :=
  ⟨.written front beforeValue s.name s, Member.name_written front beforeValue s.name s⟩

@[simp]
theorem name_written (front beforeValue : Gap) (s : Setting) : (written front beforeValue s).name = s.name :=
  Member.name_written front beforeValue s.name s

end Field

/-- The text of an object of these members, with blanks on both sides. -/
def layout (front : Gap) (members : List (Member (List Char))) (inside behind : Gap) : String :=
  String.ofList (front.val ++ (objectText members inside ++ behind.val))

/-- A configuration as it is written, no field twice. -/
structure Document where
  front : Gap
  fields : List Field
  inside : Gap
  behind : Gap
  distinct : (fields.map (·.name)).Nodup

namespace Document

def text (d : Document) : String := layout d.front (d.fields.map (·.raw)) d.inside d.behind

/-- The levels in the order in which they are written. -/
def rows (d : Document) : List (String × Severity) := (d.fields.findSome? (·.val.value.rows?)).getD []

/-- What a document says, with the defaults for what it leaves out. -/
def config (d : Document) : Config where
  defaultLevel := (d.fields.findSome? (·.val.value.defaultLevel?)).getD default.defaultLevel
  localTime := (d.fields.findSome? (·.val.value.localTime?)).getD default.localTime
  levels := .ofList d.rows
  pool := (d.fields.findSome? (·.val.value.pool?)).getD default.pool

end Document

/-! ### Reading settings -/

section

variable {σ α : Type} {rest : List Char}

theorem readColon_value (m : Member (List Char)) (rest : List Char) :
    Json.readColon (m.colonValue ++ rest) = .ok (m.beforeValue.val ++ (m.value ++ rest)) := by
  have h := Json.readColon_gap m.behindKey (m.beforeValue.val ++ (m.value ++ rest))
  simpa [Member.colonValue] using h

theorem readSeverity_word (g : Gap) (word : Word) (rest : List Char) :
    readSeverity (g.val ++ (word.literal.text ++ rest)) = .ok (word.level, rest) := by
  unfold readSeverity
  rw [Json.readString_literal]
  simp only [bind, Except.bind, word.parsed]
  rfl

theorem runs_levelMember (rows : List (Member Word)) (levels : NameMap Severity) :
    Json.Runs levelMember levels (rows.map (·.map (·.literal.text)))
      ((rows.map fun m => (m.name, m.value.level)).foldl (fun m row => m.insert row.1 row.2) levels) := by
  induction rows generalizing levels with
  | nil => exact .nil
  | cons m rows ih =>
    refine .cons (fun {rest} _ => ?_) (ih (levels.insert m.name m.value.level))
    unfold levelMember
    rw [readColon_value]
    change (readSeverity (m.beforeValue.val ++ (m.value.literal.text ++ rest)) >>= _) = _
    rw [readSeverity_word]
    rfl

theorem readLevels_object (g : Gap) (rows : List (Member Word)) (inside : Gap) (rest : List Char) :
    readLevels (g.val ++ (objectText (rows.map (·.map (·.literal.text))) inside ++ rest)) =
      .ok (.ofList (rows.map fun m => (m.name, m.value.level)), rest) := by
  unfold readLevels
  rw [Json.skipBlanks_gap, Json.objectText_append, Json.skipBlanks_cons (by decide)]
  exact Json.readMembers_of_runs (runs_levelMember rows .empty) inside rest

/-- A field that has not been read is read. -/
theorem readOnce_none {name : String} {read : Json.Reader α} {store : α → σ} {m : Member (List Char)} {a : α}
    (h : read (m.beforeValue.val ++ (m.value ++ rest)) = .ok (a, rest)) :
    readOnce name none read store (m.colonValue ++ rest) = .ok (store a, rest) := by
  unfold readOnce
  simp only [readColon_value, bind, Except.bind, h]
  rfl

theorem findSome?_eq_or {β : Type} (f : α → Option β) (a : α) (as : List α) :
    (a :: as).findSome? f = (f a).or (as.findSome? f) := by
  rw [List.findSome?_cons]
  cases f a <;> rfl

namespace LimitsDraft

/-- The limit of a name has been read. -/
def Has (p : LimitsDraft) (name : String) : Prop :=
  (name = "max_free_nodes" ∧ p.nodes.isSome) ∨ (name = "max_free_slots" ∧ p.slots.isSome)

def put (p : LimitsDraft) (l : Limit) : LimitsDraft := ⟨p.nodes.or l.nodes?, p.slots.or l.slots?⟩

/-- A draft with the limits that are still to come. -/
def fill (p : LimitsDraft) (members : List (Member Limit)) : LimitsDraft where
  nodes := p.nodes.or (members.findSome? (·.value.nodes?))
  slots := p.slots.or (members.findSome? (·.value.slots?))

theorem fill_put (p : LimitsDraft) (m : Member Limit) (members : List (Member Limit)) :
    (p.put m.value).fill members = p.fill (m :: members) := by
  simp only [put, fill, Option.or_assoc, findSome?_eq_or]

theorem has_put {p : LimitsDraft} {l : Limit} {key name : String} (hunder : l.Under key) (h : (p.put l).Has name) :
    name = key ∨ p.Has name := by
  cases l <;> simp_all [Has, put, Limit.Under, Limit.nodes?, Limit.slots?] <;> tauto

theorem Has.known {p : LimitsDraft} {name : String} (h : p.Has name) : name ∈ Limit.known := by
  rcases h with ⟨rfl, -⟩ | ⟨rfl, -⟩ <;> simp [Limit.known]

theorem member_nodes (p : LimitsDraft) :
    p.member "max_free_nodes" = readOnce "max_free_nodes" p.nodes Json.readCount ({ p with nodes := some · }) := rfl

theorem member_slots (p : LimitsDraft) :
    p.member "max_free_slots" = readOnce "max_free_slots" p.slots Json.readCount ({ p with slots := some · }) := rfl

theorem member_other {p : LimitsDraft} {name : String} (hname : name ∉ Limit.known) (cs : List Char) :
    p.member name cs = (do
      let (_, rest) ← Json.skipValue .loose (← Json.readColon cs)
      return (p, rest)) := by
  simp only [Limit.known, List.mem_cons, List.not_mem_nil, or_false, not_or] at hname
  unfold member
  split
  · exact absurd rfl hname.1
  · exact absurd rfl hname.2
  · rfl

theorem member_put {p : LimitsDraft} {m : Member Limit} (hunder : m.value.Under m.name) (hnew : ¬p.Has m.name)
    (hrest : Delimited rest) :
    p.member m.name ((m.map (·.text)).colonValue ++ rest) = .ok (p.put m.value, rest) := by
  have hvalue : (m.map (·.text)).value = m.value.text := rfl
  obtain ⟨nodes, slots⟩ := p
  cases hm : m.value with
  | nodes n =>
    rw [hm] at hunder hvalue
    rw [hunder] at hnew ⊢
    cases nodes with
    | some _ => exact absurd (.inl ⟨rfl, rfl⟩) hnew
    | none =>
      have hput : (⟨.none, slots⟩ : LimitsDraft).put (.nodes n) = ⟨some n.val, slots⟩ := by
        simp [put, Limit.nodes?, Limit.slots?]
      rw [member_nodes, hput]
      refine readOnce_none ?_
      rw [hvalue]
      exact Json.readCount_text _ n.property hrest
  | slots n =>
    rw [hm] at hunder hvalue
    rw [hunder] at hnew ⊢
    cases slots with
    | some _ => exact absurd (.inr ⟨rfl, rfl⟩) hnew
    | none =>
      have hput : (⟨nodes, .none⟩ : LimitsDraft).put (.slots n) = ⟨nodes, some n.val⟩ := by
        simp [put, Limit.nodes?, Limit.slots?]
      rw [member_slots, hput]
      refine readOnce_none ?_
      rw [hvalue]
      exact Json.readCount_text _ n.property hrest
  | other v hv =>
    rw [hm] at hunder hvalue
    have hput : (⟨nodes, slots⟩ : LimitsDraft).put (.other v hv) = ⟨nodes, slots⟩ := by
      simp [put, Limit.nodes?, Limit.slots?]
    rw [member_other hunder, readColon_value, hvalue, hput]
    change (Json.skipValue .loose _ >>= _) = _
    rw [Limit.text, Json.skipValue_value hv _ hrest]
    rfl

theorem runs_member {members : List (Member Limit)} {p : LimitsDraft} (hunder : ∀ m ∈ members, m.value.Under m.name)
    (hnew : ∀ m ∈ members, ¬p.Has m.name) (honce : ∀ name ∈ Limit.known, (members.map (·.name)).count name ≤ 1) :
    Json.Runs member p (members.map (·.map (·.text))) (p.fill members) := by
  induction members generalizing p with
  | nil =>
    have hfill : p.fill [] = p := by simp [fill]
    rw [hfill]
    exact .nil
  | cons m members ih =>
    rw [← fill_put]
    refine .cons (fun hrest => member_put (hunder m List.mem_cons_self) (hnew m List.mem_cons_self) hrest) ?_
    refine ih (fun m' hm' => hunder m' (List.mem_cons_of_mem _ hm')) (fun m' hm' hhas => ?_) fun name hname => ?_
    -- A limit of the rest that is already there would be counted twice, or was there before.
    · rcases has_put (hunder m List.mem_cons_self) hhas with heq | hbefore
      · have hcount := honce m'.name hhas.known
        have hagain : 0 < (members.map (·.name)).count m'.name :=
          List.count_pos_iff.mpr (List.mem_map.mpr ⟨m', hm', rfl⟩)
        rw [List.map_cons, heq, List.count_cons_self, ← heq] at hcount
        omega
      · exact hnew m' (List.mem_cons_of_mem _ hm') hbefore
    · have hcount := honce name hname
      rw [List.map_cons, List.count_cons] at hcount
      omega

end LimitsDraft

theorem readLimits_object (g : Gap) (limits : Limits) (rest : List Char) :
    readLimits (g.val ++ (objectText (limits.members.map (·.map (·.text))) limits.inside ++ rest)) =
      .ok (⟨(limits.members.findSome? (·.value.nodes?)).join, (limits.members.findSome? (·.value.slots?)).join⟩,
        rest) := by
  have hnew : ∀ m ∈ limits.members, ¬LimitsDraft.none.Has m.name := by simp [LimitsDraft.Has, LimitsDraft.none]
  have hruns := LimitsDraft.runs_member limits.under hnew limits.once
  unfold readLimits
  rw [Json.readRecord_object, Json.readMembers_of_runs hruns]
  rfl

end

/-! ### Reading documents -/

namespace Draft

/-- The field of a name has been read. -/
def Has (p : Draft) (name : String) : Prop :=
  (name = "default_level" ∧ p.defaultLevel.isSome) ∨ (name = "local_time" ∧ p.localTime.isSome) ∨
    (name = "levels" ∧ p.levels.isSome) ∨ (name = "pool" ∧ p.pool.isSome)

def put (p : Draft) (s : Setting) : Draft where
  defaultLevel := p.defaultLevel.or s.defaultLevel?
  localTime := p.localTime.or s.localTime?
  levels := p.levels.or (s.rows?.map .ofList)
  pool := p.pool.or s.pool?

/-- A draft with the fields that are still to come. -/
def fill (p : Draft) (fields : List Field) : Draft where
  defaultLevel := p.defaultLevel.or (fields.findSome? (·.val.value.defaultLevel?))
  localTime := p.localTime.or (fields.findSome? (·.val.value.localTime?))
  levels := p.levels.or ((fields.findSome? (·.val.value.rows?)).map .ofList)
  pool := p.pool.or (fields.findSome? (·.val.value.pool?))

theorem fill_put (p : Draft) (f : Field) (fields : List Field) :
    (p.put f.val.value).fill fields = p.fill (f :: fields) := by
  simp only [put, fill, Option.or_assoc, findSome?_eq_or, Option.map_or]

theorem has_put {p : Draft} {s : Setting} {name : String} : (p.put s).Has name ↔ name = s.name ∨ p.Has name := by
  cases s <;>
    simp [Has, put, Setting.name, Setting.defaultLevel?, Setting.localTime?, Setting.rows?, Setting.pool?] <;>
    tauto

theorem member_put {p : Draft} {f : Field} (hnew : ¬p.Has f.name) (rest : List Char) :
    p.member f.name (f.raw.colonValue ++ rest) = .ok (p.put f.val.value, rest) := by
  obtain ⟨m, hname⟩ := f
  have hvalue : (m.map (·.text)).value = m.value.text := rfl
  change p.member m.name ((m.map (·.text)).colonValue ++ rest) = _
  change ¬p.Has m.name at hnew
  rw [hname] at hnew ⊢
  cases hm : m.value with
  | defaultLevel word =>
    rw [hm] at hvalue hnew
    have hnone : p.defaultLevel = .none := by simpa [Has, Setting.name] using hnew
    have hput : p.put (.defaultLevel word) = { p with defaultLevel := some word.level } := by
      simp [put, hnone, Setting.defaultLevel?, Setting.localTime?, Setting.rows?, Setting.pool?]
    have hmember : p.member "default_level" =
      readOnce "default_level" p.defaultLevel readSeverity ({ p with defaultLevel := some · }) := rfl
    rw [Setting.name, hmember, hnone, hput]
    refine readOnce_none ?_
    rw [hvalue]
    exact readSeverity_word _ word rest
  | localTime b =>
    rw [hm] at hvalue hnew
    have hnone : p.localTime = .none := by simpa [Has, Setting.name] using hnew
    have hput : p.put (.localTime b) = { p with localTime := some b } := by
      simp [put, hnone, Setting.defaultLevel?, Setting.localTime?, Setting.rows?, Setting.pool?]
    have hmember : p.member "local_time" =
      readOnce "local_time" p.localTime Json.readBool ({ p with localTime := some · }) := rfl
    rw [Setting.name, hmember, hnone, hput]
    refine readOnce_none ?_
    rw [hvalue]
    exact Json.readBool_text _ b rest
  | levels rows inside =>
    rw [hm] at hvalue hnew
    have hnone : p.levels = .none := by simpa [Has, Setting.name] using hnew
    have hput : p.put (.levels rows inside) =
        { p with levels := some (.ofList (rows.map fun m => (m.name, m.value.level))) } := by
      simp [put, hnone, Setting.defaultLevel?, Setting.localTime?, Setting.rows?, Setting.pool?]
    have hmember : p.member "levels" = readOnce "levels" p.levels readLevels ({ p with levels := some · }) := rfl
    rw [Setting.name, hmember, hnone, hput]
    refine readOnce_none ?_
    rw [hvalue]
    exact readLevels_object _ rows inside rest
  | pool limits =>
    rw [hm] at hvalue hnew
    have hnone : p.pool = .none := by simpa [Has, Setting.name] using hnew
    have hput : p.put (.pool limits) = { p with pool := (Setting.pool limits).pool? } := by
      simp [put, hnone, Setting.defaultLevel?, Setting.localTime?, Setting.rows?, Setting.pool?]
    have hmember : p.member "pool" = readOnce "pool" p.pool readLimits ({ p with pool := some · }) := rfl
    rw [Setting.name, hmember, hnone, hput]
    refine readOnce_none ?_
    rw [hvalue]
    exact readLimits_object _ limits rest

theorem runs_member {fields : List Field} {p : Draft} (hdistinct : (fields.map (·.name)).Nodup)
    (hnew : ∀ f ∈ fields, ¬p.Has f.name) : Json.Runs member p (fields.map (·.raw)) (p.fill fields) := by
  induction fields generalizing p with
  | nil =>
    have hfill : p.fill [] = p := by simp [fill]
    rw [hfill]
    exact .nil
  | cons f fields ih =>
    obtain ⟨hother, hmore⟩ := List.nodup_cons.mp hdistinct
    rw [← fill_put]
    refine .cons (fun {rest} _ => member_put (hnew f List.mem_cons_self) rest) (ih hmore fun f' hf' hhas => ?_)
    rcases has_put.mp hhas with heq | hbefore
    · exact hother (List.mem_map.mpr ⟨f', hf', heq.trans f.property.symm⟩)
    · exact hnew f' (List.mem_cons_of_mem _ hf') hbefore

end Draft

theorem complete_fill (d : Document) : (Draft.none.fill d.fields).complete = d.config := by
  simp only [Draft.complete, Draft.fill, Draft.none, Option.none_or, Document.config, Document.rows, mk.injEq, true_and,
    and_true]
  cases d.fields.findSome? (·.val.value.rows?) <;> rfl

theorem readWhole_document (d : Document) : Json.readWhole read d.text = .ok d.config := by
  have hruns := Draft.runs_member (p := .none) d.distinct (by simp [Draft.Has, Draft.none])
  have hread : read (d.front.val ++ (objectText (d.fields.map (·.raw)) d.inside ++ d.behind.val)) =
      .ok (d.config, d.behind.val) := by
    unfold read
    rw [Json.readRecord_object, Json.readMembers_of_runs hruns, ← complete_fill]
    rfl
  have hblanks : Json.skipBlanks d.behind.val = [] := by
    have h := Json.skipBlanks_gap d.behind []
    rwa [List.append_nil] at h
  unfold Json.readWhole Document.text layout
  rw [String.toList_ofList, hread]
  simp only [bind, Except.bind, hblanks]
  rfl

end Logbook.Config
