import Logbook.Proofs.Names
import Logbook.Proofs.Tables
import Logbook.World

/-!
# Registries over time

A registry keeps every logger that it ever made, under the name that it was asked for. Loggers are made in three ways,
for a lookup, for a configuration and when the registry is built, and in each of them they start alike.
-/

namespace Logbook

namespace Registry

/-- Every logger that is kept exists and has the name under which it is kept; the root logger is one of them. -/
structure Orderly (r : Registry) (t : Table Logger) : Prop where
  named : ∀ {name l}, r.loggers.find? name = some l → ∃ logger, t.get? l = some logger ∧ logger.name = name
  root : r.loggers.find? rootName = some r.root

/-- From one state of a registry to a later one, in which the loggers in `asked` are there as well and `sink` is the
default. -/
structure Onward (r r' : Registry) (t' : Table Logger) (asked : List String) (sink : SinkRef) : Prop where
  kept : ∀ {name l}, r.loggers.find? name = some l → r'.loggers.find? name = some l
  names : ∀ name, name ∈ r'.loggers.names ↔ name ∈ r.loggers.names ∨ name ∈ asked
  orderly : r'.Orderly t'
  root : r'.root = r.root
  factory : r'.factory = r.factory
  defaultLevel : r'.defaultLevel = r.defaultLevel
  localTime : r'.localTime = r.localTime
  defaultSink : r'.defaultSink = sink

/-- The logger that is kept under a name, as it is now. -/
def logger? (r : Registry) (t : Table Logger) (name : String) : Option Logger := (r.loggers.find? name).bind t.get?

section

variable {r r' r'' : Registry} {t t' t'' : Table Logger} {name key : String} {l l' : LoggerId}

theorem Orderly.ne_of_ne (h : r.Orderly t) (hl : r.loggers.find? name = some l) (hl' : r.loggers.find? key = some l')
    (hne : name ≠ key) : l ≠ l' := by
  obtain ⟨logger, hlogger, hname⟩ := h.named hl
  obtain ⟨logger', hlogger', hname'⟩ := h.named hl'
  intro heq
  rw [heq, hlogger'] at hlogger
  cases hlogger
  exact hne (hname.symm.trans hname')

theorem Onward.trans {asked more : List String} {sink sink' : SinkRef} (h : r.Onward r' t' asked sink)
    (h' : r'.Onward r'' t'' more sink') : r.Onward r'' t'' (asked ++ more) sink' where
  kept hl := h'.kept (h.kept hl)
  names name := by rw [h'.names, h.names, List.mem_append, or_assoc]
  orderly := h'.orderly
  root := h'.root.trans h.root
  factory := h'.factory.trans h.factory
  defaultLevel := h'.defaultLevel.trans h.defaultLevel
  localTime := h'.localTime.trans h.localTime
  defaultSink := h'.defaultSink

/-- As long as the default sink stays the same, new loggers are made alike. -/
theorem Onward.newLogger {asked : List String} (h : r.Onward r' t' asked r.defaultSink) (name : String) :
    r'.newLogger name = r.newLogger name := by
  unfold Registry.newLogger
  rw [h.factory, h.defaultLevel, h.localTime, h.defaultSink]

/-- Changes of loggers leave the registry as it is, as long as no logger changes its name. -/
theorem Orderly.onward (h : r.Orderly t)
    (hnames : ∀ l logger, t.get? l = some logger → ∃ logger', t'.get? l = some logger' ∧ logger'.name = logger.name) :
    r.Onward r t' [] r.defaultSink where
  kept hl := hl
  names name := by simp
  orderly := by
    refine ⟨fun hl => ?_, h.root⟩
    obtain ⟨logger, hlogger, rfl⟩ := h.named hl
    exact hnames _ logger hlogger
  root := rfl
  factory := rfl
  defaultLevel := rfl
  localTime := rfl
  defaultSink := rfl

theorem Orderly.modify (h : r.Orderly t) (l : LoggerId) {f : Logger → Logger}
    (hf : ∀ logger, (f logger).name = logger.name) : r.Onward r (t.modify l f) [] r.defaultSink := by
  refine h.onward fun key logger hlogger => ?_
  rw [Table.get?_modify, hlogger]
  by_cases hkey : key = l
  · rw [if_pos hkey]
    exact ⟨f logger, rfl, hf logger⟩
  · rw [if_neg hkey]
    exact ⟨logger, rfl, rfl⟩

/-! ### Looking a logger up -/

theorem get_of_some (h : r.loggers.find? name = some l) : r.get name t = (l, r, t) := by
  unfold get
  rw [h]

theorem get_of_none (h : r.loggers.find? name = none) :
    r.get name t =
      (t.next, { r with loggers := r.loggers.insert name t.next }, t.push (r.newLogger name)) := by
  unfold get
  rw [h]

theorem find?_get (r : Registry) (name : String) (t : Table Logger) :
    (r.get name t).2.1.loggers.find? name = some (r.get name t).1 := by
  cases h : r.loggers.find? name with
  | some l =>
    rw [get_of_some h]
    exact h
  | none =>
    rw [get_of_none h]
    dsimp only
    rw [NameMap.find?_insert, if_pos rfl]

/-- A lookup changes no logger that there is. -/
theorem get?_get {logger : Logger} (h : t.get? l = some logger) (r : Registry) (name : String) :
    (r.get name t).2.2.get? l = some logger := by
  cases hname : r.loggers.find? name with
  | some l' =>
    rw [get_of_some hname]
    exact h
  | none =>
    have hne : l ≠ t.next := Nat.ne_of_lt (Table.lt_next_of_get? h)
    rw [get_of_none hname]
    dsimp only
    rw [Table.get?_push, if_neg hne, h]

theorem Orderly.get (h : r.Orderly t) (name : String) :
    r.Onward (r.get name t).2.1 (r.get name t).2.2 [name] r.defaultSink := by
  cases hname : r.loggers.find? name with
  | some l =>
    have hmem : name ∈ r.loggers.names := NameMap.mem_names_iff.mpr ⟨l, hname⟩
    rw [get_of_some hname]
    refine ⟨fun hl => hl, fun key => ?_, h, rfl, rfl, rfl, rfl, rfl⟩
    rw [List.mem_singleton]
    constructor
    · exact .inl
    · rintro (hkey | rfl)
      · exact hkey
      · exact hmem
  | none =>
    have hkept : ∀ {key l}, r.loggers.find? key = some l → (r.loggers.insert name t.next).find? key = some l := by
      intro key l hl
      have hne : key ≠ name := by
        rintro rfl
        rw [hname] at hl
        cases hl
      rw [NameMap.find?_insert, if_neg hne, hl]
    rw [get_of_none hname]
    refine ⟨hkept, fun key => ?_, ⟨fun {key l} hl => ?_, hkept h.root⟩, rfl, rfl, rfl, rfl, rfl⟩
    · rw [List.mem_singleton]
      exact NameMap.mem_names_insert
    · dsimp only at hl
      rw [NameMap.find?_insert] at hl
      split at hl
      · rename_i heq
        cases hl
        exact ⟨_, t.get?_push_next _, heq.symm⟩
      · obtain ⟨logger, hlogger, hkey⟩ := h.named hl
        refine ⟨logger, ?_, hkey⟩
        rw [Table.get?_push, if_neg (Nat.ne_of_lt (Table.lt_next_of_get? hlogger)), hlogger]

theorem logger?_get (h : r.Orderly t) (name key : String) :
    (r.get name t).2.1.logger? (r.get name t).2.2 key =
      if key = name then some ((r.logger? t name).getD (r.newLogger name)) else r.logger? t key := by
  unfold logger?
  cases hname : r.loggers.find? name with
  | some l =>
    obtain ⟨logger, hlogger, -⟩ := h.named hname
    rw [get_of_some hname]
    by_cases hkey : key = name
    · rw [if_pos hkey, hkey, hname, Option.bind_some, hlogger]
      rfl
    · rw [if_neg hkey]
  | none =>
    rw [get_of_none hname]
    dsimp only
    rw [NameMap.find?_insert]
    by_cases hkey : key = name
    · rw [if_pos hkey, if_pos hkey, Option.bind_some, Table.get?_push_next]
      rfl
    · rw [if_neg hkey, if_neg hkey]
      cases hl : r.loggers.find? key with
      | none => rfl
      | some l =>
        obtain ⟨logger, hlogger, -⟩ := h.named hl
        rw [Option.bind_some, Option.bind_some, Table.get?_push,
          if_neg (Nat.ne_of_lt (Table.lt_next_of_get? hlogger))]

/-! ### Giving loggers levels -/

theorem setLevel_eq (r : Registry) (t : Table Logger) (name : String) (level : Severity) :
    r.setLevel t name level =
      ((r.get name t).2.1, (r.get name t).2.2.modify (r.get name t).1 (·.setLevel level)) := rfl

theorem Orderly.setLevel (h : r.Orderly t) (name : String) (level : Severity) :
    r.Onward (r.setLevel t name level).1 (r.setLevel t name level).2 [name] r.defaultSink := by
  have hget := h.get name
  have hmodify := hget.orderly.modify (r.get name t).1 (f := (·.setLevel level)) fun _ => rfl
  rw [hget.defaultSink] at hmodify
  exact hget.trans hmodify

theorem logger?_setLevel (h : r.Orderly t) (name : String) (level : Severity) (key : String) :
    (r.setLevel t name level).1.logger? (r.setLevel t name level).2 key =
      if key = name then some (((r.logger? t name).getD (r.newLogger name)).setLevel level) else r.logger? t key := by
  have hget := logger?_get h name key
  have hfound := r.find?_get name t
  have horderly := (h.get name).orderly
  rw [setLevel_eq]
  unfold logger? at hget ⊢
  dsimp only
  by_cases hkey : key = name
  · subst hkey
    rw [if_pos rfl, hfound, Option.bind_some] at hget
    rw [if_pos rfl, hfound, Option.bind_some, Table.get?_modify, if_pos rfl, hget]
    rfl
  · rw [if_neg hkey] at hget
    rw [if_neg hkey, ← hget]
    cases hl : (r.get name t).2.1.loggers.find? key with
    | none => rfl
    | some l =>
      have hne : l ≠ (r.get name t).1 := horderly.ne_of_ne hl hfound hkey
      rw [Option.bind_some, Option.bind_some, Table.get?_modify, if_neg hne]

/-- Give loggers the levels of rows, one after another. -/
def setLevels (r : Registry) (rows : List (String × Severity)) (t : Table Logger) : Registry × Table Logger :=
  rows.foldl (fun (r, t) (name, level) => r.setLevel t name level) (r, t)

theorem Orderly.setLevels (h : r.Orderly t) (rows : List (String × Severity)) :
    r.Onward (r.setLevels rows t).1 (r.setLevels rows t).2 (rows.map (·.1)) r.defaultSink := by
  induction rows generalizing r t with
  | nil => exact h.onward fun l logger hlogger => ⟨logger, hlogger, rfl⟩
  | cons row rest ih =>
    have hfirst := h.setLevel row.1 row.2
    have hlater := ih hfirst.orderly
    rw [hfirst.defaultSink] at hlater
    exact hfirst.trans hlater

/-- The logger of a name that rows give a level has that level, and else is as it was. -/
theorem logger?_setLevels (h : r.Orderly t) {rows : List (String × Severity)}
    (horder : rows.Pairwise fun a b => a.1 < b.1) (key : String) :
    (r.setLevels rows t).1.logger? (r.setLevels rows t).2 key =
      match rows.lookup key with
      | some level => some (((r.logger? t key).getD (r.newLogger key)).setLevel level)
      | none => r.logger? t key := by
  induction rows generalizing r t with
  | nil => rfl
  | cons row rest ih =>
    obtain ⟨name, level⟩ := row
    obtain ⟨habove, hrest⟩ := List.pairwise_cons.mp horder
    have hfirst := logger?_setLevel h name level key
    have hlater := ih (h.setLevel name level).orderly hrest
    rw [NameMap.lookup_row]
    refine hlater.trans ?_
    by_cases hkey : key = name
    · subst hkey
      have hnone : rest.lookup key = none := by
        cases hlookup : rest.lookup key with
        | none => rfl
        | some level' => exact absurd (habove _ (NameMap.mem_of_lookup hlookup)) (String.lt_irrefl key)
      rw [if_pos rfl] at hfirst
      rw [if_pos rfl, hnone]
      exact hfirst
    · rw [if_neg hkey] at hfirst
      rw [if_neg hkey, hfirst, (h.setLevel name level).newLogger]

end

end Registry

/-! ### Building a registry -/

namespace RegistryPlan

/-- A logger as it is made by a registry of this plan, at a time at which `sink` is the default. -/
def logger (p : RegistryPlan) (factory : FactoryId) (sink : SinkRef) (name : String) : Logger where
  name := name
  gate := ⟨p.level⟩
  sinks := [sink]
  factory := factory
  localTime := p.localTime
  countFiltered := true
  metrics := .zero

/-- The registry of this plan with no logger but its root logger. -/
def rooted (p : RegistryPlan) (factory : FactoryId) (console : SinkRef) (root : LoggerId) : Registry where
  loggers := NameMap.empty.insert Registry.rootName root
  defaultSink := p.sink.getD console
  factory := factory
  defaultLevel := p.level
  localTime := p.localTime
  root := root

/-- A registry follows a plan, as far as new loggers are concerned. -/
structure Governs (p : RegistryPlan) (factory : FactoryId) (sink : SinkRef) (r : Registry) : Prop where
  defaultLevel : r.defaultLevel = p.level
  localTime : r.localTime = p.localTime
  factory : r.factory = factory
  defaultSink : r.defaultSink = sink

section

variable {p : RegistryPlan} {factory : FactoryId} {sink sink' : SinkRef} {r r' : Registry}

theorem Governs.newLogger (h : p.Governs factory sink r) (name : String) :
    r.newLogger name = p.logger factory sink name := by
  unfold Registry.newLogger logger
  rw [h.defaultLevel, h.localTime, h.factory, h.defaultSink]

theorem Governs.onward {t' : Table Logger} {asked : List String} (h : p.Governs factory sink r)
    (h' : r.Onward r' t' asked sink') : p.Governs factory sink' r' where
  defaultLevel := h'.defaultLevel.trans h.defaultLevel
  localTime := h'.localTime.trans h.localTime
  factory := h'.factory.trans h.factory
  defaultSink := h'.defaultSink

end

section

variable (p : RegistryPlan) (factory : FactoryId) (console : SinkRef) (t : Table Logger)

theorem governs_rooted (root : LoggerId) : p.Governs factory (p.sink.getD console) (p.rooted factory console root) :=
  ⟨rfl, rfl, rfl, rfl⟩

theorem find?_rooted (root : LoggerId) (name : String) :
    (p.rooted factory console root).loggers.find? name = if name = Registry.rootName then some root else none :=
  NameMap.find?_insert _ _ _ _

theorem orderly_rooted :
    (p.rooted factory console t.next).Orderly
      (t.push (p.logger factory (p.sink.getD console) Registry.rootName)) := by
  refine ⟨fun {name l} hl => ?_, ?_⟩
  · rw [find?_rooted] at hl
    split at hl
    · rename_i heq
      cases hl
      exact ⟨_, t.get?_push_next _, heq.symm⟩
    · cases hl
  · rw [find?_rooted, if_pos rfl]
    rfl

theorem build_eq (store : Store) :
    p.build console store t =
      let done := (p.rooted (p.makeFactory store).1 console t.next).setLevels p.levels.entries
        (t.push (p.logger (p.makeFactory store).1 (p.sink.getD console) Registry.rootName))
      (done.1, (p.makeFactory store).2, done.2) := rfl

end

section

variable {p : RegistryPlan} {console : SinkRef} {store store' : Store} {t t' : Table Logger} {r : Registry}

theorem orderly_build (h : p.build console store t = (r, store', t')) : r.Orderly t' := by
  have hlevels := (p.orderly_rooted (p.makeFactory store).1 console t).setLevels p.levels.entries
  rw [build_eq] at h
  cases h
  exact hlevels.orderly

theorem governs_build (h : p.build console store t = (r, store', t')) :
    p.Governs (p.makeFactory store).1 (p.sink.getD console) r := by
  have hlevels := (p.orderly_rooted (p.makeFactory store).1 console t).setLevels p.levels.entries
  rw [build_eq] at h
  cases h
  exact (p.governs_rooted _ console t.next).onward hlevels

theorem names_build (h : p.build console store t = (r, store', t')) (name : String) :
    name ∈ r.loggers.names ↔ name = Registry.rootName ∨ name ∈ p.levels.names := by
  have hlevels := (p.orderly_rooted (p.makeFactory store).1 console t).setLevels p.levels.entries
  rw [build_eq] at h
  cases h
  rw [hlevels.names, NameMap.mem_names_iff, find?_rooted]
  refine or_congr ?_ Iff.rfl
  by_cases heq : name = Registry.rootName
  · simp [heq]
  · simp [heq]

/-- The root logger and those that the plan names start alike, up to the levels that the plan gives them. -/
theorem logger?_build (h : p.build console store t = (r, store', t')) {name : String}
    (hname : name = Registry.rootName ∨ name ∈ p.levels.names) :
    r.logger? t' name =
      some ((p.logger (p.makeFactory store).1 (p.sink.getD console) name).setLevel
        ((p.levels.find? name).getD p.level)) := by
  have hloggers := Registry.logger?_setLevels (p.orderly_rooted (p.makeFactory store).1 console t)
    p.levels.ascending name
  rw [build_eq] at h
  cases h
  rw [hloggers, (p.governs_rooted _ console t.next).newLogger]
  have hfirst : (p.rooted (p.makeFactory store).1 console t.next).logger?
      (t.push (p.logger (p.makeFactory store).1 (p.sink.getD console) Registry.rootName)) name =
      if name = Registry.rootName then some (p.logger (p.makeFactory store).1 (p.sink.getD console) name)
      else none := by
    unfold Registry.logger?
    rw [find?_rooted]
    split
    · rename_i heq
      rw [heq, Option.bind_some, Table.get?_push_next]
    · rfl
  rw [hfirst]
  change (match p.levels.find? name with | some level => _ | none => _) = _
  cases hlevel : p.levels.find? name with
  | some level =>
    by_cases heq : name = Registry.rootName
    · simp [heq]
    · simp [heq]
  | none =>
    have hroot : name = Registry.rootName := hname.resolve_right (NameMap.not_mem_names_iff.mpr hlevel)
    rw [if_pos hroot]
    rfl

end

end RegistryPlan

/-! ### Registries in use -/

/-- What can be done with a registry and with the loggers that it gave out. -/
inductive RegistryOp where
  | get (name : String)
  | setDefaultSink (sink : SinkRef)
  | applyConfig (c : Config)
  | setLevel (l : LoggerId) (level : Severity)
  | addSink (l : LoggerId) (sink : SinkRef)
  | removeSink (l : LoggerId) (sink : SinkRef)

/-- The names that an operation asks a registry for. -/
def RegistryOp.names : RegistryOp → List String
  | .get name => [name]
  | .applyConfig c => c.levels.names
  | _ => []

/-- The default sink that an operation sets. -/
def RegistryOp.sink? : RegistryOp → Option SinkRef
  | .setDefaultSink sink => some sink
  | _ => none

namespace World

def use (w : World) (id : RegistryId) : RegistryOp → World
  | .get name => (w.getLogger id name).2
  | .setDefaultSink sink => w.setDefaultSink id sink
  | .applyConfig c => w.applyConfig id c
  | .setLevel l level => w.modifyLogger l (·.setLevel level)
  | .addSink l sink => w.modifyLogger l (·.addSink sink)
  | .removeSink l sink => w.modifyLogger l (·.removeSink sink)

def useAll (w : World) (id : RegistryId) (ops : List RegistryOp) : World := ops.foldl (·.use id) w

/-- The logger that a registry keeps under a name, as it is now. -/
def kept? (w : World) (id : RegistryId) (name : String) : Option Logger :=
  (w.registries.get? id).bind (·.logger? w.loggers name)

section

variable {w : World} {id : RegistryId} {r : Registry}

theorem getLogger_eq (h : w.registries.get? id = some r) (name : String) :
    w.getLogger id name =
      (some (r.get name w.loggers).1,
        { w with
          loggers := (r.get name w.loggers).2.2
          registries := w.registries.set id (r.get name w.loggers).2.1 }) := by
  unfold getLogger
  rw [h]

theorem use_get (h : w.registries.get? id = some r) (name : String) :
    w.use id (.get name) =
      { w with
        loggers := (r.get name w.loggers).2.2
        registries := w.registries.set id (r.get name w.loggers).2.1 } := by
  change (w.getLogger id name).2 = _
  rw [getLogger_eq h]

theorem use_applyConfig (h : w.registries.get? id = some r) (c : Config) :
    w.use id (.applyConfig c) =
      { w with
        loggers := (r.setLevels c.levels.entries w.loggers).2
        registries := w.registries.set id (r.setLevels c.levels.entries w.loggers).1 } := by
  change w.applyConfig id c = _
  unfold applyConfig
  rw [h]
  rfl

theorem get?_set_of_some (h : w.registries.get? id = some r) (r' : Registry) :
    (w.registries.set id r').get? id = some r' := by
  rw [Table.get?_set, if_pos rfl, h]
  rfl

theorem use_onward (h : w.registries.get? id = some r) (ho : r.Orderly w.loggers) (op : RegistryOp) :
    ∃ r', (w.use id op).registries.get? id = some r' ∧
      r.Onward r' (w.use id op).loggers op.names (op.sink?.getD r.defaultSink) := by
  cases op with
  | get name =>
    rw [use_get h]
    exact ⟨_, get?_set_of_some h _, ho.get name⟩
  | setDefaultSink sink =>
    refine ⟨{ r with defaultSink := sink }, ?_, ?_⟩
    · have hmodify := Table.get?_modify w.registries id id ({ · with defaultSink := sink })
      rw [if_pos rfl, h] at hmodify
      exact hmodify
    · exact ⟨fun hl => hl, fun name => by simp [RegistryOp.names], ⟨ho.named, ho.root⟩, rfl, rfl, rfl, rfl, rfl⟩
  | applyConfig c =>
    rw [use_applyConfig h]
    exact ⟨_, get?_set_of_some h _, ho.setLevels c.levels.entries⟩
  | setLevel l level => exact ⟨r, h, ho.modify l (f := (·.setLevel level)) fun _ => rfl⟩
  | addSink l sink => exact ⟨r, h, ho.modify l (f := (·.addSink sink)) fun _ => rfl⟩
  | removeSink l sink => exact ⟨r, h, ho.modify l (f := (·.removeSink sink)) fun _ => rfl⟩

theorem useAll_onward (h : w.registries.get? id = some r) (ho : r.Orderly w.loggers) (ops : List RegistryOp) :
    ∃ r', (w.useAll id ops).registries.get? id = some r' ∧
      r.Onward r' (w.useAll id ops).loggers (ops.flatMap (·.names))
        ((ops.filterMap (·.sink?)).getLast?.getD r.defaultSink) := by
  induction ops generalizing w r with
  | nil => exact ⟨r, h, ho.onward fun l logger hlogger => ⟨logger, hlogger, rfl⟩⟩
  | cons op rest ih =>
    obtain ⟨r', h', honward⟩ := use_onward h ho op
    obtain ⟨r'', h'', hlater⟩ := ih h' honward.orderly
    -- The default is the last sink that was set, and it counts from the registry behind the first operation.
    have hsink : ((op :: rest).filterMap (·.sink?)).getLast?.getD r.defaultSink =
        (rest.filterMap (·.sink?)).getLast?.getD r'.defaultSink := by
      rw [honward.defaultSink]
      cases hop : op.sink? with
      | none => simp [hop]
      | some sink => simp [hop, List.getLast?_cons]
    rw [hsink]
    exact ⟨r'', h'', honward.trans hlater⟩

theorem kept?_eq (h : w.registries.get? id = some r) (name : String) :
    w.kept? id name = r.logger? w.loggers name := by
  unfold kept?
  rw [h]
  rfl

theorem kept?_of_not_mem (h : w.registries.get? id = some r) {name : String} (hname : name ∉ r.loggers.names) :
    w.kept? id name = none := by
  rw [kept?_eq h]
  unfold Registry.logger?
  rw [NameMap.not_mem_names_iff.mp hname]
  rfl

theorem kept?_get (h : w.registries.get? id = some r) (ho : r.Orderly w.loggers) {name : String}
    (hname : name ∉ r.loggers.names) : (w.use id (.get name)).kept? id name = some (r.newLogger name) := by
  have hnone := kept?_of_not_mem h hname
  rw [kept?_eq h] at hnone
  rw [use_get h, kept?_eq (get?_set_of_some h _), Registry.logger?_get ho, if_pos rfl, hnone]
  rfl

theorem kept?_applyConfig (h : w.registries.get? id = some r) (ho : r.Orderly w.loggers) {c : Config} {name : String}
    {level : Severity} (hlevel : c.levels.find? name = some level) :
    (w.use id (.applyConfig c)).kept? id name =
      some (((w.kept? id name).getD (r.newLogger name)).setLevel level) := by
  have hloggers := Registry.logger?_setLevels ho c.levels.ascending name
  unfold NameMap.find? at hlevel
  rw [hlevel] at hloggers
  rw [use_applyConfig h, kept?_eq (get?_set_of_some h _), hloggers, kept?_eq h]

/-- The first call of `get` for a name settles the answer for good, and no other name has the same one. -/
theorem getLogger_settled (h : w.registries.get? id = some r) (ho : r.Orderly w.loggers) (name : String) :
    ∃ l, (w.getLogger id name).1 = some l ∧ ∀ later,
      (((w.use id (.get name)).useAll id later).getLogger id name).1 = some l ∧
      ∀ other, other ≠ name → (((w.use id (.get name)).useAll id later).getLogger id other).1 ≠ some l := by
  refine ⟨(r.get name w.loggers).1, by rw [getLogger_eq h], fun later => ?_⟩
  have hfound := r.find?_get name w.loggers
  have hget : (w.use id (.get name)).registries.get? id = some (r.get name w.loggers).2.1 := by
    rw [use_get h]
    exact get?_set_of_some h _
  have hloggers : (w.use id (.get name)).loggers = (r.get name w.loggers).2.2 := by
    rw [use_get h]
  have horderly : (r.get name w.loggers).2.1.Orderly (w.use id (.get name)).loggers :=
    hloggers ▸ (ho.get name).orderly
  obtain ⟨r', h', hlater⟩ := useAll_onward hget horderly later
  have hkept := hlater.kept hfound
  constructor
  · rw [getLogger_eq h', Registry.get_of_some hkept]
  · intro other hne hsame
    have hother := r'.find?_get other ((w.use id (.get name)).useAll id later).loggers
    have hagain := hlater.orderly.get other
    rw [getLogger_eq h'] at hsame
    exact hagain.orderly.ne_of_ne hother (hagain.kept hkept) hne (Option.some.inj hsame)

end

/-- The registry of a plan, after any use of it. (a) Every logger stands under its own name, and the root logger under
its name. (b) What is there stays there, under the same name; a name always gives the same logger, and two names give
two. (c) The names are in the order of their octets, and they are those that were asked for. (d) Loggers start with the
level, the time and the factory of the plan and the sink that is the default at that moment, whether they are made by
`get`, for a configuration or with the registry; and neither `get` nor another default sink changes a logger. -/
theorem useAll_addRegistry (w₀ : World) (plan : RegistryPlan) (ops : List RegistryOp) :
    let id := (w₀.addRegistry plan).1
    let w := (w₀.addRegistry plan).2.useAll id ops
    let fresh := plan.logger (plan.makeFactory w₀.plant.store).1
    let first := plan.sink.getD (.direct errSink)
    let sink := (ops.filterMap (·.sink?)).getLast?.getD first
    ∃ r, w.registries.get? id = some r ∧
      (∀ name l, r.loggers.find? name = some l → ∃ logger, w.loggers.get? l = some logger ∧ logger.name = name) ∧
      r.loggers.find? Registry.rootName = some r.root ∧
      (∀ later, ∃ r', (w.useAll id later).registries.get? id = some r' ∧ r'.root = r.root ∧
        ∀ name l, r.loggers.find? name = some l → r'.loggers.find? name = some l) ∧
      (∀ name, ∃ l, (w.getLogger id name).1 = some l ∧ ∀ later,
        (((w.use id (.get name)).useAll id later).getLogger id name).1 = some l ∧
        ∀ other, other ≠ name → (((w.use id (.get name)).useAll id later).getLogger id other).1 ≠ some l) ∧
      (r.loggers.names.map utf8).Pairwise (· < ·) ∧
      (∀ name, name ∈ r.loggers.names ↔
        name = Registry.rootName ∨ name ∈ plan.levels.names ∨ ∃ op ∈ ops, name ∈ op.names) ∧
      (∀ name, name ∉ r.loggers.names → (w.use id (.get name)).kept? id name = some (fresh sink name)) ∧
      (∀ c name level, name ∉ r.loggers.names → c.levels.find? name = some level →
        (w.use id (.applyConfig c)).kept? id name = some ((fresh sink name).setLevel level)) ∧
      (∀ name, name = Registry.rootName ∨ name ∈ plan.levels.names →
        (w₀.addRegistry plan).2.kept? id name =
          some ((fresh first name).setLevel ((plan.levels.find? name).getD plan.level))) ∧
      (∀ name l logger, w.loggers.get? l = some logger →
        (w.use id (.get name)).loggers.get? l = some logger) ∧
      ∀ other, (w.use id (.setDefaultSink other)).loggers = w.loggers := by
  intro id w fresh first sink
  obtain ⟨r₀, hr₀⟩ : ∃ r₀, r₀ = (plan.build (.direct errSink) w₀.plant.store w₀.loggers).1 := ⟨_, rfl⟩
  have hbuild : plan.build (.direct errSink) w₀.plant.store w₀.loggers =
      (r₀, (plan.makeFactory w₀.plant.store).2, (w₀.addRegistry plan).2.loggers) := by
    rw [hr₀]
    rfl
  have hnew : (w₀.addRegistry plan).2.registries.get? id = some r₀ := by
    rw [hr₀]
    exact Table.get?_push_next _ _
  have horderly := RegistryPlan.orderly_build hbuild
  have hgoverns := RegistryPlan.governs_build hbuild
  obtain ⟨r, hr, honward⟩ := useAll_onward hnew horderly ops
  have hfresh : ∀ name, r.newLogger name = fresh sink name := by
    rw [hgoverns.defaultSink] at honward
    exact (hgoverns.onward honward).newLogger
  refine ⟨r, hr, fun name l => honward.orderly.named, honward.orderly.root, fun later => ?_,
    getLogger_settled hr honward.orderly, r.loggers.octets_ascending, fun name => ?_, fun name hname => ?_,
    fun c name level hname hlevel => ?_, fun name hname => ?_, fun name l logger hlogger => ?_, fun other => rfl⟩
  · obtain ⟨r', hr', hlater⟩ := useAll_onward hr honward.orderly later
    exact ⟨r', hr', hlater.root, fun name l => hlater.kept⟩
  · rw [honward.names, RegistryPlan.names_build hbuild, List.mem_flatMap, or_assoc]
  · rw [← hfresh]
    exact kept?_get hr honward.orderly hname
  · rw [kept?_applyConfig hr honward.orderly hlevel, ← hfresh, kept?_of_not_mem hr hname]
    rfl
  · rw [kept?_eq hnew, RegistryPlan.logger?_build hbuild hname]
  · rw [use_get hr]
    exact Registry.get?_get hlogger r name

end World

end Logbook
