import Logbook.Proofs.Callers
import Logbook.Proofs.Roster
import Logbook.Proofs.Tables

/-!
# Every call is counted once

Whatever callers, workers and changes of level get in between, a logger has counted every log call that has ended
once: as logged if every question to the gate was answered with yes, and as turned away otherwise. A caller that was
turned away has done nothing but count that.
-/

namespace Logbook

/-! ### Where callers stand -/

namespace Phase

/-- Is a log call under way? -/
def isCalling : Phase → Bool
  | asking .. | offering .. | rejected _ | admitted .. | sending _ | blocked .. | returning .. => true
  | _ => false

/-- Has the gate let the call through for good? -/
def isThrough : Phase → Bool
  | admitted .. | sending _ | blocked .. | returning .. => true
  | _ => false

/-- What the gate has answered fits where the caller stands. -/
def Fits (checks : List Bool) : Phase → Prop
  | rejected _ => checks.all id = false
  | offering .. | admitted .. | sending _ | blocked .. | returning .. => checks.all id = true
  | _ => checks = []

theorem isCalling_of_isThrough {phase : Phase} (h : phase.isThrough = true) : phase.isCalling = true := by
  cases phase <;> first | rfl | cases h

theorem fits_of_isThrough {phase : Phase} (h : phase.isThrough = true) (checks : List Bool) :
    phase.Fits checks ↔ checks.all id = true := by
  cases phase <;> first | exact Iff.rfl | cases h

theorem fits_of_not_isCalling {phase : Phase} (h : phase.isCalling = false) (checks : List Bool) :
    phase.Fits checks ↔ checks = [] := by
  cases phase <;> first | exact Iff.rfl | cases h

end Phase

namespace Caller

variable {c : Caller} {next : Phase}

structure Sound (c : Caller) : Prop where
  fits : c.phase.Fits c.checks
  begun : c.begun = c.past.length + if c.phase.isCalling then 1 else 0

theorem sound_new : new.Sound := ⟨rfl, rfl⟩

theorem Sound.through (h : c.Sound) (hthrough : c.phase.isThrough = true) (hnext : next.isThrough = true) :
    (c.enters next).Sound := by
  obtain ⟨hfits, hbegun⟩ := h
  rw [Phase.fits_of_isThrough hthrough] at hfits
  rw [Phase.isCalling_of_isThrough hthrough] at hbegun
  refine ⟨(Phase.fits_of_isThrough hnext c.checks).mpr hfits, ?_⟩
  show c.begun = c.past.length + if next.isCalling then 1 else 0
  rw [Phase.isCalling_of_isThrough hnext]
  exact hbegun

theorem Sound.free (h : c.Sound) (hfree : c.phase.isCalling = false) (hnext : next.isCalling = false) :
    (c.enters next).Sound := by
  obtain ⟨hfits, hbegun⟩ := h
  rw [Phase.fits_of_not_isCalling hfree] at hfits
  rw [hfree] at hbegun
  refine ⟨(Phase.fits_of_not_isCalling hnext c.checks).mpr hfits, ?_⟩
  show c.begun = c.past.length + if next.isCalling then 1 else 0
  rw [hnext]
  exact hbegun

theorem Sound.ended (h : c.Sound) (hcalling : c.phase.isCalling = true) (l : LoggerId) (panic : Option Panic) :
    (c.ended l panic).Sound := by
  have hbegun := h.begun
  rw [hcalling] at hbegun
  exact ⟨rfl, hbegun⟩

theorem Sound.begins (h : c.Sound) (hidle : c.phase = .idle) (l : LoggerId) (call : Call) :
    ({ c with phase := .ofCall l call, begun := c.begun + 1 } : Caller).Sound := by
  obtain ⟨hfits, hbegun⟩ := h
  rw [hidle] at hfits hbegun
  have hnone : c.checks = [] := hfits
  cases call with
  | entry e =>
    refine ⟨?_, congrArg (· + 1) hbegun⟩
    show c.checks.all id = true
    rw [hnone]
    rfl
  | message severity text file line time => exact ⟨hnone, congrArg (· + 1) hbegun⟩

theorem Sound.checked (h : c.Sound) (hcalling : c.phase.isCalling = true) (hchecks : c.checks.all id = true)
    (l : LoggerId) (passed : Bool) (hnext : next.isCalling = true)
    (hfits : ∀ checks : List Bool, checks.all id = true → next.Fits checks) : (c.checked l passed next).Sound := by
  have hbegun := h.begun
  rw [hcalling, if_pos rfl] at hbegun
  cases passed with
  | true =>
    have hall : (c.checks ++ [true]).all id = true := by
      rw [List.all_append, hchecks]
      rfl
    exact ⟨hfits _ hall, by simp [Caller.checked, hnext, hbegun]⟩
  | false =>
    have hall : (c.checks ++ [false]).all id = false := by
      rw [List.all_append]
      exact Bool.and_false _
    exact ⟨hall, by simp [Caller.checked, Phase.isCalling, hbegun]⟩

end Caller

/-! ### What a turn enters in the books -/

namespace World

variable {w : World} {c : Caller}

/-- What a turn does to the counters of loggers, and to the calls of the caller that have ended. -/
inductive Enters (w : World) (c : Caller) : Caller → World → Prop where
  | onward {c' : Caller} {w' : World} (hsound : c'.Sound) (hpast : c'.past = c.past)
      (hloggers : w'.loggers = w.loggers) : Enters w c c' w'
  /-- The call of a sink did not end well. -/
  | failed {c' : Caller} {w' : World} (l : LoggerId) (hsound : c'.Sound) (hpast : c'.past = c.past)
      (hloggers : w'.loggers = w.loggers.modify l (·.countFailure)) : Enters w c c' w'
  | panicked {w' : World} (l : LoggerId) (p : Panic) (hcalling : c.phase.isCalling = true)
      (hloggers : w'.loggers = w.loggers) : Enters w c (c.ended l (some p)) w'
  /-- There is no such logger. -/
  | missing {w' : World} (l : LoggerId) (hcalling : c.phase.isCalling = true) (hnone : w.loggers.get? l = none)
      (hloggers : w'.loggers = w.loggers) : Enters w c (c.ended l none) w'
  | filtered {w' : World} (l : LoggerId) (hcalling : c.phase.isCalling = true) (hchecks : c.checks.all id = false)
      (hloggers : w'.loggers = w.loggers.modify l (·.recordFiltered)) : Enters w c (c.ended l none) w'
  | logged {w' : World} (l : LoggerId) (hcalling : c.phase.isCalling = true) (hchecks : c.checks.all id = true)
      (hloggers : w'.loggers = w.loggers.modify l (·.countLogged)) : Enters w c (c.ended l none) w'

theorem Enters.sound (h : c.Sound) {c' : Caller} {w' : World} (henters : Enters w c c' w') : c'.Sound := by
  cases henters with
  | onward hsound | failed _ hsound => exact hsound
  | panicked l p hcalling => exact h.ended hcalling l (some p)
  | missing l hcalling => exact h.ended hcalling l none
  | filtered l hcalling => exact h.ended hcalling l none
  | logged l hcalling => exact h.ended hcalling l none

section Through

variable (h : c.Sound) (hthrough : c.phase.isThrough = true)
include h hthrough

theorem enters_captureFor (w : World) (l : LoggerId) (e : Entry) :
    Enters w c (w.captureFor c l e).1 (w.captureFor c l e).2 := by
  have hcalling := Phase.isCalling_of_isThrough hthrough
  unfold captureFor
  cases hl : w.loggers.get? l with
  | none => exact .missing l hcalling hl rfl
  | some logger =>
    dsimp only
    cases Snapshot.capture e logger.localTime (·.acquire logger.factory) w.plant.store with
    | mk result store =>
      cases result with
      | error p => exact .panicked l p hcalling rfl
      | ok s => exact .onward (h.through hthrough rfl) rfl rfl

theorem enters_callSink (w : World) (d : Dispatch) (sink : SinkRef) :
    Enters w c (w.callSink c d sink).1 (w.callSink c d sink).2 := by
  have hlog := (w.sameRoster_logSink sink d.snapshot).loggers
  unfold callSink
  cases hcall : w.logSink sink d.snapshot with
  | mk outcome w' =>
    rw [hcall] at hlog
    cases outcome with
    | some o => exact .onward (h.through hthrough rfl) rfl hlog
    | none =>
      dsimp only
      split
      · exact .onward (h.through hthrough rfl) rfl hlog
      · exact .onward (h.through hthrough rfl) rfl hlog

theorem enters_resume (w : World) (d : Dispatch) (id : AdapterId) (ticket : Nat) :
    Enters w c (w.resume c d id ticket).1 (w.resume c d id ticket).2 := by
  unfold resume
  split
  · exact .onward h rfl rfl
  · exact .onward (h.through hthrough rfl) rfl rfl

theorem enters_returned (w : World) (d : Dispatch) (sink : SinkRef) (o : Outcome) :
    Enters w c (c.enters (.sending d)) (w.returned d sink o) := by
  unfold returned
  split
  · exact .onward (h.through hthrough rfl) rfl rfl
  · exact .failed d.logger (h.through hthrough rfl) rfl rfl

end Through

section Free

variable (h : c.Sound) (hfree : c.phase.isCalling = false)
include h hfree

theorem enters_flushed (w : World) (plant : Plant) (sink : SinkRef) (rest : List SinkRef) (o : Outcome) :
    Enters w c ({ w with plant := plant }.flushed c sink rest o).1
      ({ w with plant := plant }.flushed c sink rest o).2 := by
  cases o <;> exact .onward (h.free hfree rfl) rfl rfl

theorem enters_flushNext (w : World) (rest : List SinkRef) (sink : SinkRef) :
    Enters w c (w.flushNext c rest sink).1 (w.flushNext c rest sink).2 := by
  cases sink with
  | direct id => exact enters_flushed h hfree w _ _ rest _
  | queued id =>
    unfold flushNext
    dsimp only
    split
    · exact .onward (h.free hfree rfl) rfl rfl
    · split
      · split
        · exact .onward (h.free hfree rfl) rfl rfl
        · exact enters_flushed h hfree w w.plant _ rest _
        · exact .onward (h.free hfree rfl) rfl rfl
      · exact enters_flushed h hfree w _ _ rest _

end Free

theorem enters_advance (w : World) (h : c.Sound) : Enters w c (w.advance c).1 (w.advance c).2 := by
  have hfits := h.fits
  unfold advance
  cases hphase : c.phase with
  | idle => exact .onward h rfl rfl
  | asking l call =>
    rw [hphase] at hfits
    have hnone : c.checks.all id = true := by
      rw [show c.checks = [] from hfits]
      rfl
    exact .onward (h.checked (hphase ▸ rfl) hnone l _ rfl fun _ hall => hall) rfl rfl
  | offering l e =>
    rw [hphase] at hfits
    exact .onward (h.checked (hphase ▸ rfl) hfits l _ rfl fun _ hall => hall) rfl rfl
  | rejected l =>
    rw [hphase] at hfits
    exact .filtered l (hphase ▸ rfl) hfits rfl
  | admitted l e => exact enters_captureFor h (hphase ▸ rfl) w l e
  | sending d =>
    rw [hphase] at hfits
    dsimp only
    split
    · exact .logged d.logger (hphase ▸ rfl) hfits rfl
    · exact enters_callSink h (hphase ▸ rfl) w _ _
  | blocked d id ticket => exact enters_resume h (hphase ▸ rfl) w d id ticket
  | returning d sink o => exact enters_returned h (hphase ▸ rfl) w d sink o
  | flushing rest =>
    cases rest with
    | nil => exact .onward (h.free (hphase ▸ rfl) rfl) rfl rfl
    | cons sink rest => exact enters_flushNext h (hphase ▸ rfl) w rest sink
  | awaiting id ticket rest =>
    dsimp only
    split
    · exact enters_flushed h (hphase ▸ rfl) w w.plant _ rest _
    · exact .onward h rfl rfl

theorem enters_turn (w : World) (h : c.Sound) (t : Turn) : Enters w c (w.turn c t).1 (w.turn c t).2 := by
  cases t with
  | log l call =>
    unfold turn
    dsimp only
    split
    · rename_i hidle
      exact .onward (h.begins hidle l call) rfl rfl
    · exact .onward h rfl rfl
  | flush l =>
    unfold turn
    dsimp only
    split
    · rename_i hidle _
      exact .onward (h.free (hidle ▸ rfl) rfl) rfl rfl
    · exact .onward h rfl rfl
  | advance => exact enters_advance w h
  | lapse e =>
    unfold turn
    dsimp only
    split
    · rename_i hphase
      split
      · exact .onward h rfl rfl
      · exact enters_flushed h (hphase ▸ rfl) w w.plant _ _ _
    · exact .onward h rfl rfl

end World

/-! ### The books of a scene -/

namespace Report

variable (l : LoggerId) (r : Report)

/-- A call of the logger that came to its end. -/
def isCounted : Bool := r.logger == l && r.panic.isNone

def isLogged : Bool := r.isCounted l && r.checks.all id

def isFiltered : Bool := r.isCounted l && !r.checks.all id

end Report

namespace Scene

variable {w : World} {s : Scene} {i : CallerId} {c : Caller} {l : LoggerId}

/-- How many calls of a kind have ended. -/
def count (s : Scene) (p : Report → Bool) : Nat := s.callers.total fun c => c.past.countP p

/-- A logger has counted the calls that have ended since it was `first`. -/
structure Tallied (s : Scene) (l : LoggerId) (first now : Logger) : Prop where
  counts : now.countFiltered = first.countFiltered
  logged : now.metrics.logged = first.metrics.logged + s.count (·.isLogged l)
  filtered : now.metrics.filtered =
    first.metrics.filtered + if first.countFiltered then s.count (·.isFiltered l) else 0

/-- The books are right, where `w` is the world of the start. -/
structure Inv (w : World) (s : Scene) : Prop where
  callers : ∀ i c, s.callers.get? i = some c → c.Sound
  loggers : ∀ l, Option.Rel (s.Tallied l) (w.loggers.get? l) (s.world.loggers.get? l)

theorem count_of_past (hget : s.callers.get? i = some c) {c' : Caller} (hpast : c'.past = c.past) (w' : World)
    (p : Report → Bool) : (⟨w', s.callers.set i c'⟩ : Scene).count p = s.count p := by
  have hset := Table.total_set hget c' fun c => c.past.countP p
  rw [hpast] at hset
  unfold count
  dsimp only
  omega

theorem count_of_ended (hget : s.callers.get? i = some c) (l : LoggerId) (panic : Option Panic) (w' : World)
    (p : Report → Bool) : (⟨w', s.callers.set i (c.ended l panic)⟩ : Scene).count p =
      s.count p + if p ⟨l, c.checks, panic⟩ then 1 else 0 := by
  have hset := Table.total_set hget (c.ended l panic) fun c => c.past.countP p
  have hcons : (c.ended l panic).past.countP p = c.past.countP p + if p ⟨l, c.checks, panic⟩ then 1 else 0 :=
    List.countP_cons
  unfold count
  dsimp only
  omega

theorem Tallied.congr {s' : Scene} {first now : Logger} (h : s.Tallied l first now)
    (hlogged : s'.count (·.isLogged l) = s.count (·.isLogged l))
    (hfiltered : s'.count (·.isFiltered l) = s.count (·.isFiltered l)) : s'.Tallied l first now :=
  ⟨h.counts, hlogged ▸ h.logged, hfiltered ▸ h.filtered⟩

/-- What leaves the loggers alone leaves the books right if it ends no call that counts. -/
theorem Inv.unmoved (h : Inv w s) {s' : Scene} (hcallers : ∀ i c, s'.callers.get? i = some c → c.Sound)
    (hloggers : s'.world.loggers = s.world.loggers)
    (hcount : ∀ l, s.world.loggers.get? l ≠ none → s'.count (·.isLogged l) = s.count (·.isLogged l) ∧
      s'.count (·.isFiltered l) = s.count (·.isFiltered l)) : Inv w s' := by
  refine ⟨hcallers, fun l => ?_⟩
  rw [hloggers]
  rcases rel_cases (h.loggers l) with ⟨hfirst, hnow⟩ | ⟨first, now, hfirst, hnow, htallied⟩
  · rw [hfirst, hnow]
    exact .none
  · obtain ⟨hlogged, hfiltered⟩ := hcount l (by rw [hnow]; exact Option.some_ne_none now)
    rw [hfirst, hnow]
    exact .some (htallied.congr hlogged hfiltered)

/- So does what moves no counter of calls. -/
theorem Inv.modified (h : Inv w s) {s' : Scene} (hcallers : ∀ i c, s'.callers.get? i = some c → c.Sound)
    {l : LoggerId} {f : Logger → Logger} (hloggers : s'.world.loggers = s.world.loggers.modify l f)
    (hcount : ∀ p, s'.count p = s.count p) (hcounts : ∀ x, (f x).countFiltered = x.countFiltered)
    (hlogged : ∀ x, (f x).metrics.logged = x.metrics.logged)
    (hfiltered : ∀ x, (f x).metrics.filtered = x.metrics.filtered) : Inv w s' := by
  refine ⟨hcallers, fun key => ?_⟩
  rw [hloggers, Table.get?_modify]
  rcases rel_cases (h.loggers key) with ⟨hfirst, hnow⟩ | ⟨first, now, hfirst, hnow, htallied⟩
  · rw [hfirst, hnow]
    split <;> exact .none
  · have hsame : s'.Tallied key first now := htallied.congr (hcount _) (hcount _)
    rw [hfirst, hnow]
    split
    · exact .some ⟨(hcounts now).trans hsame.counts, (hlogged now).trans hsame.logged,
        (hfiltered now).trans hsame.filtered⟩
    · exact .some hsame

theorem Inv.sound_set (h : Inv w s) {c' : Caller} (hsound : c'.Sound) (key : CallerId) (x : Caller)
    (hx : (s.callers.set i c').get? key = some x) : x.Sound := by
  rw [Table.get?_set] at hx
  split at hx
  · obtain ⟨old, -, rfl⟩ := Option.map_eq_some_iff.mp hx
    exact hsound
  · exact h.callers key x hx

/- A call that is counted moves one counter of one logger, and is one more that has ended there. -/
theorem Inv.counted (h : Inv w s) (hget : s.callers.get? i = some c) (hcalling : c.phase.isCalling = true)
    (l : LoggerId) {f : Logger → Logger} {w' : World} (hloggers : w'.loggers = s.world.loggers.modify l f)
    (hcounts : ∀ x, (f x).countFiltered = x.countFiltered)
    (hlogged : ∀ x, (f x).metrics.logged = x.metrics.logged + if c.checks.all id then 1 else 0)
    (hfiltered : ∀ x, (f x).metrics.filtered =
      x.metrics.filtered + if x.countFiltered && !c.checks.all id then 1 else 0) :
    Inv w ⟨w', s.callers.set i (c.ended l none)⟩ := by
  refine ⟨fun key x hx => h.sound_set ((h.callers i c hget).ended hcalling l none) key x hx, fun key => ?_⟩
  have hone := count_of_ended hget l none w' (·.isLogged key)
  have htwo := count_of_ended hget l none w' (·.isFiltered key)
  show Option.Rel _ _ (w'.loggers.get? key)
  rw [hloggers, Table.get?_modify]
  rcases rel_cases (h.loggers key) with ⟨hfirst, hnow⟩ | ⟨first, now, hfirst, hnow, htallied⟩
  · rw [hfirst, hnow]
    split <;> exact .none
  · rw [hfirst, hnow]
    obtain ⟨hc, hl, hf⟩ := htallied
    split
    · rename_i hkey
      subst hkey
      refine .some ⟨(hcounts now).trans hc, ?_, ?_⟩
      · have hreport : Report.isLogged key ⟨key, c.checks, none⟩ = c.checks.all id := by
          simp [Report.isLogged, Report.isCounted]
        rw [hlogged, hone, hreport]
        omega
      · have hreport : Report.isFiltered key ⟨key, c.checks, none⟩ = !c.checks.all id := by
          simp [Report.isFiltered, Report.isCounted]
        rw [hfiltered, htwo, hreport, hc, hf]
        cases first.countFiltered with
        | true =>
          simp only [if_true, Bool.true_and]
          omega
        | false => simp
    · rename_i hkey
      have hother : ∀ r : Report, r.logger = l → r.isLogged key = false ∧ r.isFiltered key = false := by
        intro r hr
        have hne : (r.logger == key) = false := beq_eq_false_iff_ne.mpr fun he => hkey (he.symm.trans hr)
        simp [Report.isLogged, Report.isFiltered, Report.isCounted, hne]
      obtain ⟨h1, h2⟩ := hother ⟨l, c.checks, none⟩ rfl
      rw [h1] at hone
      rw [h2] at htwo
      exact .some (Tallied.congr ⟨hc, hl, hf⟩ hone htwo)

theorem Inv.turn (h : Inv w s) (hget : s.callers.get? i = some c) {c' : Caller} {w' : World}
    (henters : World.Enters s.world c c' w') : Inv w ⟨w', s.callers.set i c'⟩ := by
  have hsound := henters.sound (h.callers i c hget)
  cases henters with
  | onward _ hpast hloggers =>
    exact h.unmoved (fun key x hx => h.sound_set hsound key x hx) hloggers fun l _ =>
      ⟨count_of_past hget hpast w' _, count_of_past hget hpast w' _⟩
  | failed l _ hpast hloggers =>
    exact h.modified (fun key x hx => h.sound_set hsound key x hx) hloggers (count_of_past hget hpast w')
      (fun _ => rfl) (fun _ => rfl) fun _ => rfl
  | panicked l p _ hloggers =>
    refine h.unmoved (fun key x hx => h.sound_set hsound key x hx) hloggers fun key _ => ⟨?_, ?_⟩
    · rw [count_of_ended hget]
      simp [Report.isLogged, Report.isCounted]
    · rw [count_of_ended hget]
      simp [Report.isFiltered, Report.isCounted]
  | missing l _ hnone hloggers =>
    refine h.unmoved (fun key x hx => h.sound_set hsound key x hx) hloggers fun key hkey => ?_
    have hne : (l == key) = false := by
      refine beq_eq_false_iff_ne.mpr fun he => hkey ?_
      rw [← he]
      exact hnone
    constructor
    · rw [count_of_ended hget]
      simp [Report.isLogged, Report.isCounted, hne]
    · rw [count_of_ended hget]
      simp [Report.isFiltered, Report.isCounted, hne]
  | filtered l hcalling hchecks hloggers =>
    refine h.counted hget hcalling l hloggers (fun x => ?_) (fun x => ?_) fun x => ?_
    · unfold Logger.recordFiltered
      split <;> rfl
    · rw [hchecks]
      unfold Logger.recordFiltered
      split <;> rfl
    · rw [hchecks]
      unfold Logger.recordFiltered
      cases hx : x.countFiltered with
      | true => rfl
      | false => rfl
  | logged l hcalling hchecks hloggers =>
    refine h.counted hget hcalling l hloggers (fun _ => rfl) (fun x => ?_) fun x => ?_
    · rw [hchecks]
      rfl
    · rw [hchecks, Bool.not_true, Bool.and_false]
      rfl

theorem Inv.step (h : Inv w s) (e : Event) : Inv w (s.step e) := by
  cases e with
  | caller i t =>
    cases hget : s.callers.get? i with
    | none =>
      rw [step_of_none hget]
      exact h
    | some c =>
      rw [step_of_some hget]
      exact h.turn hget (World.enters_turn s.world (h.callers i c hget) t)
  | move id m => exact h.unmoved h.callers (World.sameRoster_withAdapter ..).loggers fun _ _ => ⟨rfl, rfl⟩
  | setLevel l level =>
    exact h.modified (l := l) (f := (·.setLevel level)) h.callers rfl (fun _ => rfl) (fun _ => rfl) (fun _ => rfl)
      fun _ => rfl

theorem Inv.run (h : Inv w s) (events : List Event) : Inv w (s.run events) := by
  induction events generalizing s with
  | nil => exact h
  | cons e rest ih => exact ih (h.step e)

theorem inv_start (w : World) (n : Nat) : Inv w (start w n) := by
  have hcount : ∀ p, (start w n).count p = 0 := fun p => total_start w n _
  refine ⟨fun i c hc => ?_, fun l => ?_⟩
  · rw [get?_start w n hc]
    exact Caller.sound_new
  · show Option.Rel _ (w.loggers.get? l) (w.loggers.get? l)
    cases w.loggers.get? l with
    | none => exact .none
    | some logger =>
      refine .some ⟨rfl, ?_, ?_⟩
      · rw [hcount, Nat.add_zero]
      · rw [hcount, ite_self, Nat.add_zero]

/-- Every call that was counted was logged or turned away. -/
theorem count_isCounted (s : Scene) (l : LoggerId) :
    s.count (·.isCounted l) = s.count (·.isLogged l) + s.count (·.isFiltered l) := by
  have hlist : ∀ past : List Report,
      past.countP (·.isCounted l) = past.countP (·.isLogged l) + past.countP (·.isFiltered l) := by
    intro past
    induction past with
    | nil => rfl
    | cons r rest ih =>
      rw [List.countP_cons, List.countP_cons, List.countP_cons, ih]
      unfold Report.isLogged Report.isFiltered
      cases r.isCounted l <;> cases r.checks.all id <;> simp <;> omega
  unfold count
  rw [← Table.total_add]
  exact congrArg s.callers.total (funext fun c => hlist c.past)

/-- A caller that the gate has not let through has not touched anything, and one that was turned away does nothing
but count that. -/
theorem world_of_unadmitted (hget : s.callers.get? i = some c) (hcalling : c.phase.isCalling = true)
    (hthrough : c.phase.isThrough = false) (t : Turn) :
    (s.step (.caller i t)).world = s.world ∨
      ∃ l, c.phase = .rejected l ∧ (s.step (.caller i t)).world = s.world.recordFiltered l := by
  rw [step_of_some hget]
  unfold World.turn World.advance
  cases hphase : c.phase with
  | asking l call => cases t <;> exact .inl rfl
  | offering l e => cases t <;> exact .inl rfl
  | rejected l =>
    cases t with
    | advance => exact .inr ⟨l, rfl, rfl⟩
    | log => exact .inl rfl
    | flush => exact .inl rfl
    | lapse => exact .inl rfl
  | admitted | sending | blocked | returning =>
    rw [hphase] at hthrough
    cases hthrough
  | idle | flushing | awaiting =>
    rw [hphase] at hcalling
    cases hcalling

end Scene

end Logbook
