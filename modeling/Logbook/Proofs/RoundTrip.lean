import Logbook.Proofs.Acceptance

/-!
# Writing and reading configurations

What is written is a document, in one of the many layouts that a document may have, and it says what was written. So it
is read back, as long as every logger has a name; and what was read can always be written and read again.
-/

namespace Logbook

/-- Limits that are read from a text, or written to one that can be read. -/
def PoolLimits.Fit (l : PoolLimits) : Prop :=
  (∀ n ∈ l.maxFreeNodes, n < Nat.pow 2 64) ∧ ∀ n ∈ l.maxFreeSlots, n < Nat.pow 2 64

/-! ### Limits that were read fit -/

namespace Json

theorem absorb_le {bound m : Nat} (h : m ≤ bound) (ds : List Char) : (absorb bound m ds).1 ≤ bound := by
  induction ds generalizing m with
  | nil => exact h
  | cons d ds ih =>
    unfold absorb
    dsimp only
    split
    · rename_i hle
      exact ih hle
    · exact h

theorem real_of_numeral {numeral : Numeral} {negative : Bool} {rest : List Char} {x : Number}
    (h : numeral.real negative rest = .ok x) : ∃ bits, x = .real bits := by
  unfold Numeral.real at h
  dsimp only at h
  split at h
  · split at h
    · cases h
      exact ⟨_, rfl⟩
    · cases h
  · split at h
    · split at h
      · cases h
        exact ⟨_, rfl⟩
      · cases h
    · split at h
      · cases h
      · cases h
        exact ⟨_, rfl⟩

theorem natural_le {numeral : Numeral} {negative : Bool} {rest : List Char} {n : Nat}
    (h : numeral.value negative rest = .ok (.natural n)) : n ≤ maxInteger := by
  unfold Numeral.value at h
  split at h
  · rename_i k _ _ habsorb
    have hle := absorb_le (Nat.zero_le maxInteger) numeral.whole
    rw [habsorb] at hle
    split at h
    · cases h
      exact hle
    · split at h <;> cases h
  · obtain ⟨bits, hreal⟩ := real_of_numeral h
    cases hreal

theorem readNumber_natural_le {cs rest : List Char} {n : Nat} (h : readNumber cs = .ok (.natural n, rest)) :
    n ≤ maxInteger := by
  unfold readNumber at h
  split at h
  simp only [bind, Except.bind] at h
  split at h
  · cases h
  · split at h
    · cases h
    · rename_i hvalue
      cases h
      exact natural_le hvalue

theorem readCount_lt {cs rest : List Char} {found : Option Nat} (h : readCount cs = .ok (found, rest)) :
    ∀ n ∈ found, n < Nat.pow 2 64 := by
  unfold readCount at h
  split at h
  · obtain ⟨after, -, heq⟩ := map_eq_ok h
    cases heq
    simp
  · split at h
    · simp only [bind, Except.bind] at h
      split at h
      · cases h
      · rename_i number hnumber
        obtain ⟨number, after⟩ := number
        cases number with
        | natural k =>
          cases h
          intro n hn
          cases hn
          exact Nat.lt_of_le_sub_one (by decide) (readNumber_natural_le hnumber)
        | opposite k => cases h
        | real bits => cases h
    · cases h
  · cases h

end Json

namespace Config

open Json (Gap Literal Member)

theorem LimitsDraft.member_fit {p p' : LimitsDraft} {name : String} {cs rest : List Char} (h : p.complete.Fit)
    (hok : p.member name cs = .ok (p', rest)) : p'.complete.Fit := by
  by_cases hknown : name ∈ Limit.known
  · simp only [Limit.known, List.mem_cons, List.not_mem_nil, or_false] at hknown
    rcases hknown with rfl | rfl
    · rw [member_nodes] at hok
      obtain ⟨-, cs', n, -, hread, rfl⟩ := readOnce_ok hok
      exact ⟨Json.readCount_lt hread, h.2⟩
    · rw [member_slots] at hok
      obtain ⟨-, cs', n, -, hread, rfl⟩ := readOnce_ok hok
      exact ⟨h.1, Json.readCount_lt hread⟩
  · rw [member_other hknown] at hok
    simp only [bind, Except.bind] at hok
    split at hok
    · cases hok
    · split at hok
      · cases hok
      · cases hok
        exact h

theorem readLimits_fit {cs rest : List Char} {l : PoolLimits} (h : readLimits cs = .ok (l, rest)) : l.Fit := by
  obtain ⟨⟨p, after⟩, hread, heq⟩ := Json.map_eq_ok h
  cases heq
  refine Json.readRecord_keeps (P := fun p : LimitsDraft => p.complete.Fit) LimitsDraft.member_fit ?_ ?_ hread
  · intro e he p cs p' rest hfit hok
    simp only [LimitsDraft.elements, List.mem_cons, List.not_mem_nil, or_false] at he
    rcases he with rfl | rfl
    · obtain ⟨⟨n, after⟩, hcount, heq⟩ := Json.map_eq_ok hok
      cases heq
      exact ⟨Json.readCount_lt hcount, hfit.2⟩
    · obtain ⟨⟨n, after⟩, hcount, heq⟩ := Json.map_eq_ok hok
      cases heq
      exact ⟨hfit.1, Json.readCount_lt hcount⟩
  · exact ⟨by simp [LimitsDraft.complete, LimitsDraft.none], by simp [LimitsDraft.complete, LimitsDraft.none]⟩

theorem Draft.member_fit {p p' : Draft} {name : String} {cs rest : List Char} (h : p.complete.pool.Fit)
    (hok : p.member name cs = .ok (p', rest)) : p'.complete.pool.Fit := by
  unfold member at hok
  split at hok
  · obtain ⟨-, cs', level, -, -, rfl⟩ := readOnce_ok hok
    exact h
  · obtain ⟨-, cs', b, -, -, rfl⟩ := readOnce_ok hok
    exact h
  · obtain ⟨-, cs', levels, -, -, rfl⟩ := readOnce_ok hok
    exact h
  · obtain ⟨-, cs', l, -, hread, rfl⟩ := readOnce_ok hok
    exact readLimits_fit hread
  · cases hok

theorem read_fit {cs rest : List Char} {c : Config} (h : read cs = .ok (c, rest)) : c.pool.Fit := by
  obtain ⟨⟨p, after⟩, hread, heq⟩ := Json.map_eq_ok h
  cases heq
  refine Json.readRecord_keeps (P := fun p : Draft => p.complete.pool.Fit) Draft.member_fit ?_ ?_ hread
  · intro e he p cs p' rest hfit hok
    simp only [Draft.elements, List.mem_cons, List.not_mem_nil, or_false] at he
    rcases he with rfl | rfl | rfl | rfl
    · obtain ⟨⟨level, after⟩, -, heq⟩ := Json.map_eq_ok hok
      cases heq
      exact hfit
    · obtain ⟨⟨b, after⟩, -, heq⟩ := Json.map_eq_ok hok
      cases heq
      exact hfit
    · obtain ⟨⟨levels, after⟩, -, heq⟩ := Json.map_eq_ok hok
      cases heq
      exact hfit
    · obtain ⟨⟨l, after⟩, hlimits, heq⟩ := Json.map_eq_ok hok
      cases heq
      exact readLimits_fit hlimits
  · exact ⟨by simp [Draft.complete, Draft.none, default, PoolLimits.unbounded],
      by simp [Draft.complete, Draft.none, default, PoolLimits.unbounded]⟩

theorem parse_ok {text : String} {c : Config} (h : parse text = .ok c) : "" ∉ c.levels.names ∧ c.pool.Fit := by
  unfold parse at h
  simp only [bind, Except.bind] at h
  split at h
  · cases h
  · rename_i c' hmapped
    split at h
    · cases h
    · rename_i hvalid
      cases h
      obtain ⟨rest, hfound⟩ := Json.readWhole_ok (Json.mapError_eq_ok hmapped)
      refine ⟨fun hempty => ?_, read_fit hfound⟩
      unfold validate at hvalid
      rw [if_pos (NameMap.contains_iff.mpr hempty)] at hvalid
      cases hvalid

/-! ### What is written is a document -/

/-- A line break with its indentation, as blanks. -/
def indent (depth : Nat) : Gap := ⟨newline depth, by simp [newline, Json.isBlank]⟩

/-- The blanks in front of the closing brace. -/
def indentEnd {α : Type} (depth : Nat) : List α → Gap
  | [] => Gap.none
  | _ => indent depth

theorem writeMembers_eq (depth : Nat) (rows : List (String × List Char)) :
    writeMembers depth (rows.map fun row => writeKey row.1 ++ row.2) =
      Json.objectText (rows.map fun row => .written (indent (depth + 1)) Gap.space row.1 row.2)
        (indentEnd depth rows) := by
  have htext : ∀ row : String × List Char,
      (Member.written (indent (depth + 1)) Gap.space row.1 row.2).text =
        newline (depth + 1) ++ (writeKey row.1 ++ row.2) := by
    intro row
    simp [Member.text, Member.written, Member.colonValue, Literal.text_written, indent, Gap.space, writeKey]
  cases rows with
  | nil => rfl
  | cons row rows =>
    -- Every line of the writer is a member whose blanks are the line break in front and the space behind the colon.
    have hlines :
        ((row :: rows).map fun row => Member.written (indent (depth + 1)) Gap.space row.1 row.2).map (·.text) =
        ((row :: rows).map fun row => writeKey row.1 ++ row.2).map (newline (depth + 1) ++ ·) := by
      rw [List.map_map, List.map_map]
      exact List.map_congr_left fun row _ => htext row
    unfold Json.objectText
    rw [hlines]
    simp [writeMembers, indentEnd, indent]

theorem parse?_key (s : Severity) : Severity.parse? s.key = some s := by
  cases s <;> decide +kernel

/-- A level by the word that configurations use. -/
def Word.written (s : Severity) : Word where
  literal := .written s.key
  level := s
  parsed := by rw [Literal.value_written, parse?_key]

/-- The limits as they are written. -/
def writtenLimits (l : PoolLimits) (h : l.Fit) : Limits where
  members :=
    [.written (indent 2) Gap.space "max_free_nodes" (.nodes ⟨l.maxFreeNodes, h.1⟩),
      .written (indent 2) Gap.space "max_free_slots" (.slots ⟨l.maxFreeSlots, h.2⟩)]
  under := by simp [Limit.Under]
  once := by simp [Limit.known]
  inside := indent 1

/-- A configuration as it is written. -/
def written (c : Config) (h : c.pool.Fit) : Document where
  front := Gap.none
  fields :=
    [.defaultLevel (.written c.defaultLevel), .localTime c.localTime,
      .levels (c.levels.entries.map fun row => .written (indent 2) Gap.space row.1 (.written row.2))
        (indentEnd 1 c.levels.entries),
      .pool (writtenLimits c.pool h)].map (Field.written (indent 1) Gap.space)
  inside := indent 0
  behind := Gap.none
  distinct := by
    simp [Setting.name]

theorem config_written (c : Config) (h : c.pool.Fit) : (written c h).config = c := by
  have hrows : (written c h).rows = c.levels.entries := by
    have hmap : ((c.levels.entries.map fun row =>
        Member.written (indent 2) Gap.space row.1 (Word.written row.2)).map fun m => (m.name, m.value.level)) =
        c.levels.entries := by
      rw [List.map_map]
      refine (List.map_congr_left fun row _ => ?_).trans (List.map_id _)
      simp [Word.written]
    exact hmap
  have hlevels : (written c h).config.levels = c.levels := by
    change NameMap.ofList (written c h).rows = c.levels
    rw [hrows, NameMap.ofList_entries]
  obtain ⟨level, time, levels, pool⟩ := c
  change Config.mk level time (written ⟨level, time, levels, pool⟩ h).config.levels pool = _
  rw [hlevels]

theorem text_levels (levels : NameMap Severity) :
    (Setting.levels (levels.entries.map fun row => .written (indent 2) Gap.space row.1 (.written row.2))
      (indentEnd 1 levels.entries)).text = writeLevels levels := by
  have hrows := writeMembers_eq 1 (levels.entries.map fun row => (row.1, writeSeverity row.2))
  have hend : indentEnd 1 (levels.entries.map fun row => (row.1, writeSeverity row.2)) =
      indentEnd 1 levels.entries := by
    cases levels.entries <;> rfl
  rw [hend, List.map_map, List.map_map] at hrows
  refine Eq.trans ?_ hrows.symm
  unfold Setting.text
  dsimp only
  rw [List.map_map]
  congr 1
  refine List.map_congr_left fun row _ => ?_
  simp [Member.map, Member.written, Word.written, writeSeverity, Literal.text_written]

theorem text_pool (l : PoolLimits) (h : l.Fit) : (Setting.pool (writtenLimits l h)).text = writeLimits l := by
  have hcount : ∀ n, Json.countText n = writeCount n := by
    intro n
    cases n <;> rfl
  have hrows := writeMembers_eq 1
    [("max_free_nodes", writeCount l.maxFreeNodes), ("max_free_slots", writeCount l.maxFreeSlots)]
  rw [← hcount, ← hcount] at hrows
  unfold writeLimits
  rw [← hcount, ← hcount]
  exact hrows.symm

/-- The fields in the order in which they are written. -/
def writtenRows (c : Config) : List (String × List Char) :=
  [("default_level", writeSeverity c.defaultLevel), ("local_time", (toString c.localTime).toList),
    ("levels", writeLevels c.levels), ("pool", writeLimits c.pool)]

theorem raw_written (c : Config) (h : c.pool.Fit) :
    (written c h).fields.map (·.raw) = (writtenRows c).map fun row => .written (indent 1) Gap.space row.1 row.2 := by
  have hlevel : (Setting.defaultLevel (.written c.defaultLevel)).text = writeSeverity c.defaultLevel :=
    Literal.text_written _
  unfold writtenRows
  rw [← hlevel, ← text_levels, ← text_pool c.pool h]
  rfl

theorem text_written (c : Config) (h : c.pool.Fit) : (written c h).text = write c := by
  have hwrite : write c = String.ofList (Json.objectText ((written c h).fields.map (·.raw)) (indent 0)) := by
    rw [raw_written]
    exact congrArg String.ofList (writeMembers_eq 0 (writtenRows c))
  rw [hwrite]
  unfold Document.text layout
  change String.ofList ([] ++ (Json.objectText ((written c h).fields.map (·.raw)) (indent 0) ++ [])) = _
  rw [List.nil_append, List.append_nil]

/-- What is written is read back, unless a logger has no name; then it is refused for that. What was read has a name for
every logger, so it can be written and read again. -/
theorem parse_write :
    (∀ c : Config, c.pool.Fit →
      ("" ∉ c.levels.names → parse (write c) = .ok c) ∧
      ("" ∈ c.levels.names →
        parse (write c) = .error (.invalidConfiguration "levels" "logger names must not be empty"))) ∧
      ∀ text c, parse text = .ok c → "" ∉ c.levels.names ∧ parse (write c) = .ok c := by
  have hread : ∀ c : Config, c.pool.Fit → Json.readWhole read (write c) = .ok c := by
    intro c h
    rw [← text_written c h, readWhole_document, config_written]
  refine ⟨fun c h => ⟨parse_of_readWhole (hread c h), fun hempty => ?_⟩, fun text c h => ?_⟩
  · unfold parse validate
    rw [hread c h]
    simp only [Except.mapError, bind, Except.bind, if_pos (NameMap.contains_iff.mpr hempty)]
  · obtain ⟨hnames, hfit⟩ := parse_ok h
    exact ⟨hnames, parse_of_readWhole (hread c hfit) hnames⟩

/-- A name with a quote, a backslash, a line break, a control character and a character outside the basic plane. -/
def awkward : Config :=
  ⟨.warn, true, .ofList [("a\"\\\n\x01😀", .off), ("b", .fatal)], ⟨some (Nat.pow 2 64 - 1), none⟩⟩

def nameless : Config := ⟨.warn, true, .ofList [("", .off)], ⟨none, some 0⟩⟩

theorem parse_write_awkward :
    awkward.pool.Fit ∧ "" ∉ awkward.levels.names ∧ parse (write awkward) = .ok awkward ∧
      nameless.pool.Fit ∧ "" ∈ nameless.levels.names ∧
      parse (write nameless) = .error (.invalidConfiguration "levels" "logger names must not be empty") := by
  have hfit : awkward.pool.Fit := ⟨by simp [awkward], by simp [awkward]⟩
  have hnames : "" ∉ awkward.levels.names := by decide +kernel
  have hfit' : nameless.pool.Fit := ⟨by simp [nameless], by simp [nameless]⟩
  have hempty : "" ∈ nameless.levels.names := by decide +kernel
  obtain ⟨hwritten, -⟩ := parse_write
  exact ⟨hfit, hnames, (hwritten awkward hfit).1 hnames, hfit', hempty, (hwritten nameless hfit').2 hempty⟩

end Config

end Logbook
