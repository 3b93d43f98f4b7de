import Logbook.Proofs.Routes
import Logbook.Proofs.Tables

/-!
# The roster

The loggers and registries that there are. Calls of sinks and steps of workers act on sinks, buffers and queues and
leave the roster as it is; logging moves the counters of one logger.
-/

namespace Logbook.World

variable {w w' w'' : World}

/- The same loggers, counters included, and the same registries. -/
structure SameRoster (w w' : World) : Prop where
  loggers : w'.loggers = w.loggers
  registries : w'.registries = w.registries

theorem sameRoster_refl (w : World) : SameRoster w w := ⟨rfl, rfl⟩

theorem SameRoster.trans (h : SameRoster w w') (h' : SameRoster w' w'') : SameRoster w w'' :=
  ⟨h'.loggers.trans h.loggers, h'.registries.trans h.registries⟩

/-! ### Calls of sinks -/

theorem sameRoster_withAdapter {α : Type} (w : World) (id : AdapterId) (missing : α)
    (act : Adapter → Plant → α × Adapter × Plant) : SameRoster w (w.withAdapter id missing act).2 := by
  unfold withAdapter
  split
  · exact sameRoster_refl w
  · exact ⟨rfl, rfl⟩

theorem sameRoster_pace (schedule : Schedule) (sink : SinkRef) (w : World) :
    SameRoster w (schedule.pace sink w) := by
  unfold Schedule.pace
  induction schedule sink generalizing w with
  | nil => exact sameRoster_refl w
  | cons id rest ih => exact (sameRoster_withAdapter ..).trans (ih (w.work id))

theorem sameRoster_logSink (w : World) (sink : SinkRef) (s : Snapshot) : SameRoster w (w.logSink sink s).2 := by
  cases sink with
  | direct id => exact ⟨rfl, rfl⟩
  | queued id => exact sameRoster_withAdapter ..

theorem sameRoster_expire (w : World) (sink : SinkRef) : SameRoster w (w.expire sink).2 := by
  cases sink with
  | direct id => exact sameRoster_refl w
  | queued id => exact sameRoster_withAdapter ..

theorem sameRoster_await {meanwhile : World → World} (h : ∀ w, SameRoster w (meanwhile w)) (w : World)
    (sink : SinkRef) : SameRoster w (w.await meanwhile sink).2 := by
  unfold await
  split
  · exact h w
  · dsimp only
    split
    · exact h w
    · have hexpire := (h w).trans (sameRoster_expire (meanwhile w) sink)
      split
      · rename_i heq
        rw [heq] at hexpire
        exact hexpire
      · rename_i heq
        rw [heq] at hexpire
        exact hexpire.trans (sameRoster_withAdapter ..)

theorem sameRoster_call (schedule : Schedule) (s : Snapshot) (sink : SinkRef) (w : World) :
    SameRoster w ((logDesk schedule.pace s).call sink w).2 := by
  have hlog := sameRoster_logSink w sink s
  simp only [logDesk]
  split
  · rename_i heq
    rw [heq] at hlog
    exact hlog.trans (sameRoster_pace schedule sink _)
  · rename_i heq
    rw [heq] at hlog
    exact hlog.trans (sameRoster_await (sameRoster_pace schedule sink) _ sink)

theorem sameRoster_fanOut (schedule : Schedule) (s : Snapshot) (name : String) (sinks : List SinkRef) (w : World) :
    SameRoster w (Logger.fanOut (logDesk schedule.pace s) name sinks w).2 := by
  induction sinks generalizing w with
  | nil => exact sameRoster_refl w
  | cons sink rest ih =>
    have hcall := sameRoster_call schedule s sink w
    rw [Logger.fanOut]
    dsimp only
    split
    · exact hcall.trans (ih _)
    · rename_i n _
      have hreport : SameRoster w (((logDesk schedule.pace s).call sink w).2.report n) :=
        ⟨hcall.loggers, hcall.registries⟩
      exact hreport.trans (ih _)

/-! ### Logging -/

theorem dispatch_of_missing {l : LoggerId} (hl : w.loggers.get? l = none) (pace : Pace) (s : Snapshot) :
    w.dispatch pace l s = w := by
  unfold dispatch
  rw [hl]

theorem dispatch_of_some {l : LoggerId} {logger : Logger} (hl : w.loggers.get? l = some logger) (pace : Pace)
    (s : Snapshot) :
    w.dispatch pace l s = (Logger.fanOut (logDesk pace s) logger.name logger.sinks w).2.modifyLogger l
      (·.countDispatch (Logger.fanOut (logDesk pace s) logger.name logger.sinks w).1) := by
  unfold dispatch
  rw [hl]

/- Of the loggers nothing but counters has moved, and the registries are the same. -/
structure CountsOnly (w w' : World) : Prop where
  loggers : ∀ {l logger}, w.loggers.get? l = some logger →
    ∃ metrics, w'.loggers.get? l = some { logger with metrics := metrics }
  registries : w'.registries = w.registries

theorem SameRoster.countsOnly (h : SameRoster w w') : CountsOnly w w' where
  loggers {l logger} hl := ⟨logger.metrics, by rw [h.loggers, hl]⟩
  registries := h.registries

theorem CountsOnly.trans (h : CountsOnly w w') (h' : CountsOnly w' w'') : CountsOnly w w'' where
  loggers hl := by
    obtain ⟨_, hl'⟩ := h.loggers hl
    obtain ⟨metrics, hl''⟩ := h'.loggers hl'
    exact ⟨metrics, hl''⟩
  registries := h'.registries.trans h.registries

theorem countsOnly_modifyLogger (w : World) (l : LoggerId) {f : Logger → Logger}
    (hf : ∀ logger, ∃ metrics, f logger = { logger with metrics := metrics }) : CountsOnly w (w.modifyLogger l f) where
  loggers {key logger} hl := by
    show ∃ metrics, (w.loggers.modify l f).get? key = _
    rw [Table.get?_modify, hl]
    split
    · obtain ⟨metrics, hlogger⟩ := hf logger
      exact ⟨metrics, congrArg some hlogger⟩
    · exact ⟨logger.metrics, rfl⟩
  registries := rfl

theorem countsOnly_recordFiltered (w : World) (l : LoggerId) : CountsOnly w (w.recordFiltered l) := by
  refine countsOnly_modifyLogger w l fun logger => ?_
  unfold Logger.recordFiltered
  split
  · exact ⟨_, rfl⟩
  · exact ⟨logger.metrics, rfl⟩

theorem countsOnly_dispatch (w : World) (schedule : Schedule) (l : LoggerId) (s : Snapshot) :
    CountsOnly w (w.dispatch schedule.pace l s) := by
  cases hl : w.loggers.get? l with
  | none =>
    rw [dispatch_of_missing hl]
    exact (sameRoster_refl w).countsOnly
  | some logger =>
    rw [dispatch_of_some hl]
    exact (sameRoster_fanOut ..).countsOnly.trans (countsOnly_modifyLogger _ l fun logger => ⟨_, rfl⟩)

theorem countsOnly_log (w : World) (schedule : Schedule) (l : LoggerId) (e : Entry) :
    CountsOnly w (w.log schedule.pace l e).2 := by
  cases hl : w.loggers.get? l with
  | none =>
    rw [log_of_missing hl]
    exact (sameRoster_refl w).countsOnly
  | some logger =>
    cases hgate : logger.gate.passes e.severity with
    | false =>
      rw [log_of_rejected hl _ hgate]
      exact countsOnly_recordFiltered w l
    | true =>
      cases hcapture : Snapshot.capture e logger.localTime (·.acquire logger.factory) w.plant.store with
      | mk result store =>
        cases result with
        | error p =>
          rw [log_of_panic hl _ hgate hcapture]
          exact ⟨fun {_ other} hother => ⟨other.metrics, hother⟩, rfl⟩
        | ok s =>
          have hsent := countsOnly_dispatch (w.setStore store) schedule l s
          rw [log_of_captured hl _ hgate hcapture]
          exact ⟨hsent.loggers, hsent.registries⟩

end Logbook.World
