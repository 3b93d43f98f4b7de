import Logbook.Proofs.Registries
import Logbook.Proofs.Roster

/-!
# Configurations of registries

Applying a configuration gives loggers their levels, makes those that there are not, and leaves all else alone. A later
configuration counts before an earlier one, and a registry that is built with a configuration is the one to which it is
applied afterwards.
-/

namespace Logbook

namespace Registry

variable {r r' r'' : Registry} {t t' t'' : Table Logger} {levels later : String → Option Severity}

/-- From one state of a registry to the next, in which loggers have been given levels. -/
structure Applied (levels : String → Option Severity) (r : Registry) (t : Table Logger) (r' : Registry)
    (t' : Table Logger) : Prop where
  names : ∀ name, name ∈ r'.loggers.names ↔ name ∈ r.loggers.names ∨ ∃ level, levels name = some level
  kept : ∀ {name l}, r.loggers.find? name = some l → r'.loggers.find? name = some l
  loggers : ∀ name, r'.logger? t' name =
    match levels name with
    | some level => some (((r.logger? t name).getD (r.newLogger name)).setLevel level)
    | none => r.logger? t name
  settings : r' = { r with loggers := r'.loggers }
  others : ∀ {l logger}, t.get? l = some logger → (∀ name, r.loggers.find? name ≠ some l) →
    t'.get? l = some logger ∧ ∀ name, r'.loggers.find? name ≠ some l

theorem Applied.newLogger (h : Applied levels r t r' t') (name : String) : r'.newLogger name = r.newLogger name := by
  rw [h.settings]
  rfl

theorem Applied.trans (h : Applied levels r t r' t') (h' : Applied later r' t' r'' t'') :
    Applied (fun name => (later name).or (levels name)) r t r'' t'' where
  names name := by
    rw [h'.names, h.names]
    cases hlater : later name with
    | none => simp
    | some level => simp
  kept hl := h'.kept (h.kept hl)
  loggers name := by
    have hfirst := h.loggers name
    have hsecond := h'.loggers name
    rw [h.newLogger] at hsecond
    rw [hsecond, hfirst]
    cases levels name with
    | none =>
      cases later name with
      | none => rfl
      | some level => rfl
    | some first =>
      cases later name with
      | none => rfl
      | some level => rfl
  settings := by
    rw [h'.settings, h.settings]
  others hl hother := by
    obtain ⟨hget, hother'⟩ := h.others hl hother
    exact h'.others hget hother'

theorem Applied.level (h : Applied levels r t r' t') (name : String) :
    (r'.logger? t' name).map (·.gate.level) = (levels name).or ((r.logger? t name).map (·.gate.level)) := by
  rw [h.loggers]
  cases levels name with
  | none => rfl
  | some level => rfl

theorem Applied.logger_of_some (h : Applied levels r t r' t') {name : String} {logger : Logger}
    (hlogger : r.logger? t name = some logger) : ∃ gate, r'.logger? t' name = some { logger with gate := gate } := by
  rw [h.loggers, hlogger]
  cases levels name with
  | none => exact ⟨logger.gate, rfl⟩
  | some level => exact ⟨⟨level⟩, rfl⟩

theorem Applied.logger_of_none (h : Applied levels r t r' t') {name : String} {logger : Logger}
    (hnone : r.logger? t name = none) (hlogger : r'.logger? t' name = some logger) :
    logger = { r.newLogger name with gate := logger.gate } := by
  rw [h.loggers, hnone] at hlogger
  cases hlevel : levels name with
  | none =>
    rw [hlevel] at hlogger
    cases hlogger
  | some level =>
    rw [hlevel] at hlogger
    cases hlogger
    rfl

theorem Onward.settings {asked : List String} (h : r.Onward r' t' asked r.defaultSink) :
    r' = { r with loggers := r'.loggers } := by
  cases r'
  simp only [mk.injEq, true_and]
  exact ⟨h.defaultSink, h.factory, h.defaultLevel, h.localTime, h.root⟩

/-! ### Loggers that the registry does not keep -/

section

variable {l : LoggerId} {logger : Logger}

theorem find?_get_ne (hl : t.get? l = some logger) (hother : ∀ key, r.loggers.find? key ≠ some l) (name key : String) :
    (r.get name t).2.1.loggers.find? key ≠ some l := by
  cases hname : r.loggers.find? name with
  | some _ =>
    rw [get_of_some hname]
    exact hother key
  | none =>
    have hlt := Table.lt_next_of_get? hl
    rw [get_of_none hname]
    dsimp only
    rw [NameMap.find?_insert]
    split
    · intro heq
      cases heq
      omega
    · exact hother key

theorem setLevel_other (hl : t.get? l = some logger) (hother : ∀ key, r.loggers.find? key ≠ some l) (name : String)
    (level : Severity) :
    (r.setLevel t name level).2.get? l = some logger ∧ ∀ key, (r.setLevel t name level).1.loggers.find? key ≠ some l := by
  have hne := find?_get_ne hl hother name
  have hfound := r.find?_get name t
  rw [setLevel_eq]
  refine ⟨?_, hne⟩
  dsimp only
  rw [Table.get?_modify, get?_get hl, if_neg]
  intro heq
  exact hne name (heq ▸ hfound)

theorem setLevels_other (hl : t.get? l = some logger) (hother : ∀ key, r.loggers.find? key ≠ some l)
    (rows : List (String × Severity)) :
    (r.setLevels rows t).2.get? l = some logger ∧ ∀ key, (r.setLevels rows t).1.loggers.find? key ≠ some l := by
  induction rows generalizing r t with
  | nil => exact ⟨hl, hother⟩
  | cons row rest ih =>
    obtain ⟨hl', hother'⟩ := setLevel_other hl hother row.1 row.2
    exact ih hl' hother'

end

theorem applied_setLevels (h : r.Orderly t) (levels : NameMap Severity) :
    Applied levels.find? r t (r.setLevels levels.entries t).1 (r.setLevels levels.entries t).2 where
  names name := by
    rw [(h.setLevels levels.entries).names]
    exact or_congr Iff.rfl NameMap.mem_names_iff
  kept hl := (h.setLevels levels.entries).kept hl
  loggers := logger?_setLevels h levels.ascending
  settings := (h.setLevels levels.entries).settings
  others hl hother := setLevels_other hl hother levels.entries

/-! ### Levels that are set already -/

theorem setLevel_of_set {name : String} {level : Severity} {logger : Logger} (hlogger : r.logger? t name = some logger)
    (hlevel : logger.gate.level = level) : r.setLevel t name level = (r, t) := by
  obtain ⟨l, hfind, hget⟩ := Option.bind_eq_some_iff.mp hlogger
  have hsame : logger.setLevel level = logger := by
    rw [← hlevel]
    rfl
  rw [setLevel_eq, get_of_some hfind]
  dsimp only
  rw [Table.modify_eq_set hget, hsame, Table.set_of_get? hget]

theorem setLevels_of_set {rows : List (String × Severity)}
    (h : ∀ row ∈ rows, ∃ logger, r.logger? t row.1 = some logger ∧ logger.gate.level = row.2) :
    r.setLevels rows t = (r, t) := by
  induction rows with
  | nil => rfl
  | cons row rest ih =>
    obtain ⟨logger, hlogger, hlevel⟩ := h row List.mem_cons_self
    have hfirst := setLevel_of_set hlogger hlevel
    have hlater := ih fun other hmem => h other (List.mem_cons_of_mem _ hmem)
    show Registry.setLevels (r.setLevel t row.1 row.2).1 rest (r.setLevel t row.1 row.2).2 = _
    rw [hfirst, hlater]

theorem setLevels_twice (h : r.Orderly t) (levels : NameMap Severity) :
    (r.setLevels levels.entries t).1.setLevels levels.entries (r.setLevels levels.entries t).2 =
      r.setLevels levels.entries t := by
  refine setLevels_of_set fun row hmem => ?_
  have hloggers := (applied_setLevels h levels).loggers row.1
  rw [NameMap.find?_eq_some_iff.mpr hmem] at hloggers
  exact ⟨_, hloggers, rfl⟩

end Registry

/-! ### Registries in a world -/

/- Every logger is still there, under its name. -/
def KeepsNames (t t' : Table Logger) : Prop :=
  ∀ l logger, t.get? l = some logger → ∃ logger', t'.get? l = some logger' ∧ logger'.name = logger.name

namespace KeepsNames

variable {t t' t'' : Table Logger}

theorem refl (t : Table Logger) : KeepsNames t t := fun _ logger h => ⟨logger, h, rfl⟩

theorem trans (h : KeepsNames t t') (h' : KeepsNames t' t'') : KeepsNames t t'' := by
  intro l logger hl
  obtain ⟨logger', hl', hname⟩ := h l logger hl
  obtain ⟨logger'', hl'', hname'⟩ := h' l logger' hl'
  exact ⟨logger'', hl'', hname'.trans hname⟩

theorem push (t : Table Logger) (new : Logger) : KeepsNames t (t.push new) := by
  intro l logger hl
  refine ⟨logger, ?_, rfl⟩
  rw [Table.get?_push, if_neg (Nat.ne_of_lt (Table.lt_next_of_get? hl)), hl]

theorem modify (t : Table Logger) (key : LoggerId) {f : Logger → Logger}
    (hf : ∀ logger, (f logger).name = logger.name) : KeepsNames t (t.modify key f) := by
  intro l logger hl
  rw [Table.get?_modify, hl]
  split
  · exact ⟨f logger, rfl, hf logger⟩
  · exact ⟨logger, rfl, rfl⟩

theorem get (r : Registry) (name : String) (t : Table Logger) : KeepsNames t (r.get name t).2.2 :=
  fun _ logger hl => ⟨logger, Registry.get?_get hl r name, rfl⟩

theorem setLevels (r : Registry) (rows : List (String × Severity)) (t : Table Logger) :
    KeepsNames t (r.setLevels rows t).2 := by
  induction rows generalizing r t with
  | nil => exact refl t
  | cons row rest ih =>
    have hfirst : KeepsNames t (r.setLevel t row.1 row.2).2 := (get r row.1 t).trans (modify _ _ fun _ => rfl)
    exact hfirst.trans (ih _ _)

end KeepsNames

namespace World

variable {w : World} {id : RegistryId} {r : Registry}

theorem CountsOnly.keepsNames {w w' : World} (h : CountsOnly w w') : KeepsNames w.loggers w'.loggers := by
  intro l logger hl
  obtain ⟨metrics, hl'⟩ := h.loggers hl
  exact ⟨_, hl', rfl⟩

/- What is done with one registry is not done with another. -/
theorem use_keeps (w : World) (key : RegistryId) (op : RegistryOp) :
    KeepsNames w.loggers (w.use key op).loggers ∧
      ∀ id, id ≠ key → (w.use key op).registries.get? id = w.registries.get? id := by
  cases op with
  | get name =>
    cases hkey : w.registries.get? key with
    | none =>
      have hsame : w.use key (.get name) = w := by
        show (w.getLogger key name).2 = w
        unfold getLogger
        rw [hkey]
      rw [hsame]
      exact ⟨.refl _, fun _ _ => rfl⟩
    | some r =>
      rw [use_get hkey]
      refine ⟨.get r name w.loggers, fun id hne => ?_⟩
      dsimp only
      rw [Table.get?_set, if_neg hne]
  | setDefaultSink sink =>
    refine ⟨.refl _, fun id hne => ?_⟩
    show (w.registries.modify key _).get? id = _
    rw [Table.get?_modify, if_neg hne]
  | applyConfig c =>
    cases hkey : w.registries.get? key with
    | none =>
      have hsame : w.use key (.applyConfig c) = w := by
        show w.applyConfig key c = w
        unfold applyConfig
        rw [hkey]
      rw [hsame]
      exact ⟨.refl _, fun _ _ => rfl⟩
    | some r =>
      rw [use_applyConfig hkey]
      refine ⟨.setLevels r c.levels.entries w.loggers, fun id hne => ?_⟩
      dsimp only
      rw [Table.get?_set, if_neg hne]
  | setLevel l level => exact ⟨.modify w.loggers l fun _ => rfl, fun _ _ => rfl⟩
  | addSink l sink => exact ⟨.modify w.loggers l fun _ => rfl, fun _ _ => rfl⟩
  | removeSink l sink => exact ⟨.modify w.loggers l fun _ => rfl, fun _ _ => rfl⟩

theorem addRegistry_eq (w : World) (plan : RegistryPlan) :
    w.addRegistry plan =
      let made := plan.makeFactory w.plant.store
      let console := SinkRef.direct errSink
      let done := (plan.rooted made.1 console w.loggers.next).setLevels plan.levels.entries
        (w.loggers.push (plan.logger made.1 (plan.sink.getD console) Registry.rootName))
      (w.registries.next,
        { w.setStore made.2 with loggers := done.2, registries := w.registries.push done.1 }) := rfl

theorem keepsNames_addRegistry (w : World) (plan : RegistryPlan) :
    KeepsNames w.loggers (w.addRegistry plan).2.loggers := by
  rw [addRegistry_eq]
  exact (KeepsNames.push _ _).trans (.setLevels _ _ _)

theorem orderly_addRegistry (w : World) (plan : RegistryPlan) :
    ∃ r, (w.addRegistry plan).2.registries.get? (w.addRegistry plan).1 = some r ∧
      r.Orderly (w.addRegistry plan).2.loggers := by
  rw [addRegistry_eq]
  exact ⟨_, Table.get?_push_next _ _, ((plan.orderly_rooted _ _ _).setLevels _).orderly⟩

/-! ### Reachable registries -/

/-- What can happen in a world while a registry is in use. -/
inductive Activity where
  | use (id : RegistryId) (op : RegistryOp)
  | addRegistry (plan : RegistryPlan)
  | addLogger (logger : Logger)
  | say (l : LoggerId) (call : Call) (schedule : Schedule)
  | dispatch (l : LoggerId) (s : Snapshot) (schedule : Schedule)
  | count (l : LoggerId) (metrics : Metrics)
  /-- Anything else that is done to sinks, buffers and queues. -/
  | elsewhere (plant : Plant) (adapters : Table Adapter)

def undergo (w : World) : Activity → World
  | .use id op => w.use id op
  | .addRegistry plan => (w.addRegistry plan).2
  | .addLogger logger => { w with loggers := w.loggers.push logger }
  | .say l call schedule => (w.say schedule.pace l call).2
  | .dispatch l s schedule => w.dispatch schedule.pace l s
  | .count l metrics => w.modifyLogger l ({ · with metrics := metrics })
  | .elsewhere plant adapters => { w with plant := plant, adapters := adapters }

def undergoAll (w : World) (activities : List Activity) : World := activities.foldl undergo w

theorem countsOnly_say (w : World) (schedule : Schedule) (l : LoggerId) (call : Call) :
    CountsOnly w (w.say schedule.pace l call).2 := by
  cases hl : w.loggers.get? l with
  | none =>
    rw [say_of_missing hl]
    exact (sameRoster_refl w).countsOnly
  | some logger =>
    rw [say_eq_log hl]
    exact countsOnly_log w schedule l _

theorem orderly_undergo (h : w.registries.get? id = some r) (ho : r.Orderly w.loggers) (a : Activity) :
    ∃ r', (w.undergo a).registries.get? id = some r' ∧ r'.Orderly (w.undergo a).loggers := by
  cases a with
  | use key op =>
    by_cases hkey : id = key
    · subst hkey
      obtain ⟨r', h', honward⟩ := use_onward h ho op
      exact ⟨r', h', honward.orderly⟩
    · obtain ⟨hnames, hregistries⟩ := use_keeps w key op
      exact ⟨r, (hregistries id hkey).trans h, (ho.onward hnames).orderly⟩
  | addRegistry plan =>
    refine ⟨r, ?_, (ho.onward (keepsNames_addRegistry w plan)).orderly⟩
    show (w.registries.push _).get? id = _
    rw [Table.get?_push, if_neg (Nat.ne_of_lt (Table.lt_next_of_get? h)), h]
  | addLogger logger => exact ⟨r, h, (ho.onward (KeepsNames.push w.loggers logger)).orderly⟩
  | say l call schedule =>
    have hcounts := countsOnly_say w schedule l call
    exact ⟨r, (congrArg (·.get? id) hcounts.registries).trans h, (ho.onward hcounts.keepsNames).orderly⟩
  | dispatch l s schedule =>
    have hcounts := countsOnly_dispatch w schedule l s
    exact ⟨r, (congrArg (·.get? id) hcounts.registries).trans h, (ho.onward hcounts.keepsNames).orderly⟩
  | count l metrics => exact ⟨r, h, (ho.modify l (f := ({ · with metrics := metrics })) fun _ => rfl).orderly⟩
  | elsewhere plant adapters => exact ⟨r, h, ho⟩

theorem orderly_undergoAll (h : w.registries.get? id = some r) (ho : r.Orderly w.loggers)
    (activities : List Activity) :
    ∃ r', (w.undergoAll activities).registries.get? id = some r' ∧ r'.Orderly (w.undergoAll activities).loggers := by
  induction activities generalizing w r with
  | nil => exact ⟨r, h, ho⟩
  | cons a rest ih =>
    obtain ⟨r', h', ho'⟩ := orderly_undergo h ho a
    exact ih h' ho'

/-! ### Applying configurations -/

theorem applied_applyConfig (h : w.registries.get? id = some r) (ho : r.Orderly w.loggers) (c : Config) :
    ∃ r', (w.applyConfig id c).registries.get? id = some r' ∧ r'.Orderly (w.applyConfig id c).loggers ∧
      Registry.Applied c.levels.find? r w.loggers r' (w.applyConfig id c).loggers := by
  have heq : w.applyConfig id c = _ := use_applyConfig h c
  rw [heq]
  exact ⟨_, get?_set_of_some h _, (ho.setLevels c.levels.entries).orderly, Registry.applied_setLevels ho c.levels⟩

theorem applyConfig_outside (h : w.registries.get? id = some r) (c : Config) :
    (w.applyConfig id c).plant = w.plant ∧ (w.applyConfig id c).adapters = w.adapters ∧
      ∀ other, other ≠ id → (w.applyConfig id c).registries.get? other = w.registries.get? other := by
  have heq : w.applyConfig id c = _ := use_applyConfig h c
  refine ⟨?_, ?_, (use_keeps w id (.applyConfig c)).2⟩
  · rw [heq]
  · rw [heq]

theorem applyConfig_applyConfig (h : w.registries.get? id = some r) (ho : r.Orderly w.loggers) (c : Config) :
    (w.applyConfig id c).applyConfig id c = w.applyConfig id c := by
  have hfirst : w.applyConfig id c = _ := use_applyConfig h c
  have hget : (w.applyConfig id c).registries.get? id = some (r.setLevels c.levels.entries w.loggers).1 := by
    rw [hfirst]
    exact get?_set_of_some h _
  have hsecond : (w.applyConfig id c).applyConfig id c = _ := use_applyConfig hget c
  rw [hsecond, hfirst]
  dsimp only
  rw [Registry.setLevels_twice ho, Table.set_set]

/- Without levels the registry is built with its root logger alone. -/
theorem addRegistry_levels (w : World) (p : RegistryPlan) (c : Config) :
    w.addRegistry { p with levels := c.levels } =
      ((w.addRegistry { p with levels := .empty }).1,
        (w.addRegistry { p with levels := .empty }).2.applyConfig (w.addRegistry { p with levels := .empty }).1 c) := by
  let rooted := p.rooted (p.makeFactory w.plant.store).1 (.direct errSink) w.loggers.next
  let loggers := w.loggers.push
    (p.logger (p.makeFactory w.plant.store).1 (p.sink.getD (.direct errSink)) Registry.rootName)
  have hget : (w.addRegistry { p with levels := .empty }).2.registries.get? w.registries.next = some rooted :=
    Table.get?_push_next _ _
  have hset := Table.set_push_next w.registries rooted (rooted.setLevels c.levels.entries loggers).1
  refine Prod.ext rfl (Eq.trans ?_ (use_applyConfig hget c).symm)
  show World.mk _ _ _ _ = World.mk _ _ _ _
  congr 1
  exact hset.symm

/-- A registry in use, to which one configuration is applied and then another. (a) Its names are those that it had and
those of both configurations, and what it kept it keeps. (b) A logger has the level that the second configuration gives
it, else that of the first, else the one that it had. (c) Of the loggers that were there nothing else changes, others
start as the registry makes them, and all that does not belong to the registry stays as it is. (d) Applying a
configuration again changes nothing. (e) To build a registry with a configuration is to build it without the levels and
to apply the configuration to it. -/
theorem applyConfig_layers (w₀ : World) (plan : RegistryPlan) (activities : List Activity) (c₁ c₂ : Config) :
    let id := (w₀.addRegistry plan).1
    let w := (w₀.addRegistry plan).2.undergoAll activities
    let w' := (w.applyConfig id c₁).applyConfig id c₂
    (∃ r r', w.registries.get? id = some r ∧ w'.registries.get? id = some r' ∧
      (∀ name, name ∈ r'.loggers.names ↔
        name ∈ r.loggers.names ∨ name ∈ c₁.levels.names ∨ name ∈ c₂.levels.names) ∧
      (∀ name l, r.loggers.find? name = some l → r'.loggers.find? name = some l) ∧
      r' = { r with loggers := r'.loggers } ∧
      (∀ name, (w'.kept? id name).map (·.gate.level) =
        ((c₂.levels.find? name).or (c₁.levels.find? name)).or ((w.kept? id name).map (·.gate.level))) ∧
      (∀ name logger, w.kept? id name = some logger →
        ∃ gate, w'.kept? id name = some { logger with gate := gate }) ∧
      (∀ name logger, name ∉ r.loggers.names → w'.kept? id name = some logger →
        logger = { r.newLogger name with gate := logger.gate }) ∧
      ∀ l logger, w.loggers.get? l = some logger → (∀ name, r.loggers.find? name ≠ some l) →
        w'.loggers.get? l = some logger) ∧
    (w'.plant = w.plant ∧ w'.adapters = w.adapters ∧
      ∀ other, other ≠ id → w'.registries.get? other = w.registries.get? other) ∧
    (∀ c, (w.applyConfig id c).applyConfig id c = w.applyConfig id c) ∧
    ∀ (v : World) (b : RegistryPlan) (c : Config),
      let bare := { b with level := c.defaultLevel, localTime := c.localTime, limits := c.pool, levels := .empty }
      v.addRegistry (b.configure c) =
        ((v.addRegistry bare).1, (v.addRegistry bare).2.applyConfig (v.addRegistry bare).1 c) := by
  intro id w w'
  obtain ⟨r₀, hr₀, ho₀⟩ := orderly_addRegistry w₀ plan
  obtain ⟨r, hr, ho⟩ := orderly_undergoAll hr₀ ho₀ activities
  obtain ⟨r₁, hr₁, ho₁, happlied₁⟩ := applied_applyConfig hr ho c₁
  obtain ⟨r', hr', -, happlied₂⟩ := applied_applyConfig hr₁ ho₁ c₂
  have happlied := happlied₁.trans happlied₂
  obtain ⟨hplant₁, hadapters₁, hothers₁⟩ := applyConfig_outside hr c₁
  obtain ⟨hplant₂, hadapters₂, hothers₂⟩ := applyConfig_outside hr₁ c₂
  refine ⟨⟨r, r', hr, hr', fun name => ?_, fun name l => happlied.kept, happlied.settings, fun name => ?_,
    fun name logger hlogger => ?_, fun name logger hname hlogger => ?_, fun l logger hl hother => ?_⟩, ?_,
    fun c => applyConfig_applyConfig hr ho c, fun v b c => ?_⟩
  · rw [happlied₂.names, happlied₁.names, or_assoc]
    simp only [NameMap.mem_names_iff]
  · rw [kept?_eq hr', kept?_eq hr]
    exact happlied.level name
  · rw [kept?_eq hr] at hlogger
    rw [kept?_eq hr']
    exact happlied.logger_of_some hlogger
  · have hnone := kept?_of_not_mem hr hname
    rw [kept?_eq hr] at hnone
    rw [kept?_eq hr'] at hlogger
    exact happlied.logger_of_none hnone hlogger
  · exact (happlied.others hl hother).1
  · exact ⟨hplant₂.trans hplant₁, hadapters₂.trans hadapters₁, fun other hne =>
      (hothers₂ other hne).trans (hothers₁ other hne)⟩
  · exact addRegistry_levels v { b with level := c.defaultLevel, localTime := c.localTime, limits := c.pool } c

end World

end Logbook
