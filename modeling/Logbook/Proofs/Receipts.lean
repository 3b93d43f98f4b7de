import Logbook.Outlets
import Logbook.Proofs.Rendering
import Logbook.Proofs.Tables

/-!
# What sinks receive

What a memory sink has collected, and what every operation on the outlets adds to it. Gates, formatters and
layouts stay as they are whatever is logged.
-/

namespace Logbook

/-- What a destination has collected, if it is memory. -/
def Destination.collected? : Destination → Option Bytes
  | .memory tape => some tape.bytes
  | _ => none

namespace Outlets

variable {offset : Int} {o o' o'' : Outlets}

/-! ### Views -/

/-- What a memory sink has collected. -/
def memory? (o : Outlets) (id : SinkId) : Option Bytes := (o.sinks.get? id).bind (·.destination.collected?)

/-- The gate and the formatter of a sink. -/
def settings? (o : Outlets) (id : SinkId) : Option (Gate × FormatterId) :=
  (o.sinks.get? id).map fun sink => (sink.gate, sink.formatter)

def layout? (o : Outlets) (f : FormatterId) : Option Layout := (o.formatters.get? f).map (·.layout)

/-- The line that a formatter makes of a record, without regard to what it made before. A formatter that is not
there makes none. -/
def plain (o : Outlets) (f : FormatterId) (r : Record) : Bytes := ((o.layout? f).map (·.plain r)).getD []

/-- What a sink takes of a record: its line, if it passes the gate. -/
def share (o : Outlets) (id : SinkId) (r : Record) : Bytes :=
  match o.settings? id with
  | some (gate, f) => if gate.passes r.severity then o.plain f r else []
  | none => []

/-- All formatters are of plain stages, and what they keep is right. -/
def Sound (offset : Int) (o : Outlets) : Prop :=
  ∀ f formatter, o.formatters.get? f = some formatter →
    formatter.layout.isPlain = true ∧ formatter.cache.Sound offset

/-! ### Growth -/

/-- From one state of the outlets to another, every memory sink `id` gets `gain id` behind what it has, and
nothing else changes that decides what sinks receive. -/
structure Grows (offset : Int) (o o' : Outlets) (gain : SinkId → Bytes) : Prop where
  settings : ∀ id, o'.settings? id = o.settings? id
  layouts : ∀ f, o'.layout? f = o.layout? f
  sound : o.Sound offset → o'.Sound offset
  memory : ∀ id, o'.memory? id = (o.memory? id).map (· ++ gain id)

theorem Grows.share_eq {gain : SinkId → Bytes} (h : Grows offset o o' gain) (id : SinkId) (r : Record) :
    o'.share id r = o.share id r := by
  unfold share plain
  rw [h.settings]
  simp only [h.layouts]

theorem Grows.trans {gain gain' : SinkId → Bytes} (h : Grows offset o o' gain)
    (h' : Grows offset o' o'' gain') : Grows offset o o'' fun id => gain id ++ gain' id where
  settings id := (h'.settings id).trans (h.settings id)
  layouts f := (h'.layouts f).trans (h.layouts f)
  sound hs := h'.sound (h.sound hs)
  memory id := by
    rw [h'.memory, h.memory, Option.map_map]
    exact congrArg (Option.map · (o.memory? id)) (funext fun bs => List.append_assoc bs (gain id) (gain' id))

theorem Grows.congr {gain gain' : SinkId → Bytes} (h : Grows offset o o' gain) (heq : ∀ id, gain id = gain' id) :
    Grows offset o o' gain' := by
  rw [← funext heq]
  exact h

theorem map_append_nil (collected : Option Bytes) : collected.map (· ++ []) = collected := by
  cases collected with
  | none => rfl
  | some bs => exact congrArg some (List.append_nil bs)

/-- A change that leaves sinks and formatters alone. -/
theorem grows_of_same (hsinks : o'.sinks = o.sinks) (hformatters : o'.formatters = o.formatters) :
    Grows offset o o' fun _ => [] where
  settings id := by
    unfold settings?
    rw [hsinks]
  layouts f := by
    unfold layout?
    rw [hformatters]
  sound hs := by
    unfold Sound
    rw [hformatters]
    exact hs
  memory id := by
    unfold memory?
    rw [hsinks, map_append_nil]

theorem grows_emit (o : Outlets) (stream : Stream) (bs : Bytes) : Grows offset o (o.emit stream bs) fun _ => [] := by
  cases stream with
  | out => exact grows_of_same rfl rfl
  | err => exact grows_of_same rfl rfl

theorem grows_report (o : Outlets) (n : Notice) : Grows offset o (o.report n) fun _ => [] :=
  o.grows_emit .err _

/-- A new destination that has collected `bs` more than the old one. -/
theorem grows_destination {id : SinkId} {sink : Sink} (hsink : o.sinks.get? id = some sink) {d : Destination}
    {bs : Bytes} (hd : d.collected? = sink.destination.collected?.map (· ++ bs))
    (hsinks : o'.sinks = (o.setDestination id d).sinks) (hformatters : o'.formatters = o.formatters) :
    Grows offset o o' fun key => if key = id then bs else [] where
  settings key := by
    unfold settings?
    rw [hsinks]
    unfold setDestination
    dsimp only
    rw [Table.get?_modify]
    split
    · rw [Option.map_map]
      rfl
    · rfl
  layouts f := by
    unfold layout?
    rw [hformatters]
  sound hs := by
    unfold Sound
    rw [hformatters]
    exact hs
  memory key := by
    unfold memory?
    rw [hsinks]
    unfold setDestination
    dsimp only
    rw [Table.get?_modify]
    by_cases hkey : key = id
    · subst hkey
      rw [if_pos rfl, if_pos rfl, hsink]
      exact hd
    · rw [if_neg hkey, if_neg hkey, map_append_nil]

/-! ### Changing a sink -/

theorem settings?_modify {id : SinkId} {f : Sink → Sink} (h : o'.sinks = o.sinks.modify id f) (key : SinkId) :
    o'.settings? key =
      if key = id then (o.sinks.get? key).map fun sink => ((f sink).gate, (f sink).formatter)
      else o.settings? key := by
  unfold settings?
  rw [h, Table.get?_modify]
  split
  · rw [Option.map_map]
    rfl
  · rfl

theorem memory?_modify {id : SinkId} {f : Sink → Sink} (h : o'.sinks = o.sinks.modify id f) (key : SinkId) :
    o'.memory? key =
      if key = id then (o.sinks.get? key).bind fun sink => (f sink).destination.collected?
      else o.memory? key := by
  unfold memory?
  rw [h, Table.get?_modify]
  split
  · rw [Option.bind_map]
    rfl
  · rfl

section Sinks

variable (o : Outlets) (id key : SinkId)

theorem sinks_setLevel (level : Severity) :
    (o.setLevel id level).sinks = o.sinks.modify id ({ · with gate := ⟨level⟩ }) := rfl

theorem sinks_setFormatter (f : FormatterId) :
    (o.setFormatter id f).sinks = o.sinks.modify id ({ · with formatter := f }) := rfl

theorem sinks_clear : (o.clear id).sinks =
    o.sinks.modify id fun sink => { sink with destination := sink.destination.cleared } := rfl

theorem settings?_setLevel (level : Severity) :
    (o.setLevel id level).settings? key =
      if key = id then (o.settings? key).map fun (_, f) => (⟨level⟩, f) else o.settings? key := by
  rw [settings?_modify (o.sinks_setLevel id level)]
  unfold settings?
  rw [Option.map_map]
  rfl

theorem memory?_setLevel (level : Severity) : (o.setLevel id level).memory? key = o.memory? key := by
  rw [memory?_modify (o.sinks_setLevel id level)]
  exact ite_self _

theorem settings?_setFormatter (f : FormatterId) :
    (o.setFormatter id f).settings? key =
      if key = id then (o.settings? key).map fun (gate, _) => (gate, f) else o.settings? key := by
  rw [settings?_modify (o.sinks_setFormatter id f)]
  unfold settings?
  rw [Option.map_map]
  rfl

theorem memory?_setFormatter (f : FormatterId) : (o.setFormatter id f).memory? key = o.memory? key := by
  rw [memory?_modify (o.sinks_setFormatter id f)]
  exact ite_self _

theorem settings?_clear : (o.clear id).settings? key = o.settings? key := by
  rw [settings?_modify (o.sinks_clear id)]
  exact ite_self _

theorem memory?_clear :
    (o.clear id).memory? key = if key = id then (o.memory? key).map fun _ => [] else o.memory? key := by
  have hcleared : ∀ d : Destination, d.cleared.collected? = d.collected?.map fun _ => [] := by
    intro d
    cases d <;> rfl
  rw [memory?_modify (o.sinks_clear id)]
  simp only [hcleared]
  unfold memory?
  rw [Option.map_bind]
  rfl

end Sinks

/-! ### Rendering and writing -/

theorem format_eq {f : FormatterId} {formatter : Formatter} (hf : o.formatters.get? f = some formatter)
    (r : Record) :
    o.format f r = ((formatter.format r).1, { o with formatters := o.formatters.set f (formatter.format r).2 }) := by
  unfold format
  rw [hf]

theorem format_of_none {f : FormatterId} (hf : o.formatters.get? f = none) (r : Record) :
    o.format f r = (.empty, o) := by
  unfold format
  rw [hf]

/-- A sound formatter appends the plain line. -/
theorem format_written (hs : o.Sound offset) (f : FormatterId) {r : Record} (ht : r.time.IsShown offset) :
    (o.format f r).1 = .text (o.plain f r) := by
  unfold plain layout?
  cases hf : o.formatters.get? f with
  | none =>
    rw [format_of_none hf]
    rfl
  | some formatter =>
    obtain ⟨hplain, hcache⟩ := hs f formatter hf
    rw [format_eq hf]
    exact (Formatter.format_plain hplain hcache ht).1

theorem grows_format (o : Outlets) (f : FormatterId) {r : Record} (ht : r.time.IsShown offset) :
    Grows offset o (o.format f r).2 fun _ => [] := by
  cases hf : o.formatters.get? f with
  | none =>
    rw [format_of_none hf]
    exact grows_of_same rfl rfl
  | some formatter =>
    rw [format_eq hf]
    refine ⟨fun id => rfl, fun key => ?_, fun hs key other hother => ?_, fun id => (map_append_nil _).symm⟩
    · unfold layout?
      dsimp only
      rw [Table.get?_set]
      split
      · rename_i hkey
        subst hkey
        rw [hf]
        rfl
      · rfl
    · dsimp only at hother
      rw [Table.get?_set] at hother
      split at hother
      · rename_i hkey
        subst hkey
        rw [hf] at hother
        cases hother
        obtain ⟨hplain, hcache⟩ := hs key formatter hf
        exact ⟨hplain, (Formatter.format_plain hplain hcache ht).2⟩
      · exact hs key other hother

/-- What goes to a sink that is not memory is not seen there. -/
theorem Grows.of_unseen (h : Grows offset o o' fun _ => []) {id : SinkId} (hid : o.memory? id = none) (bs : Bytes) :
    Grows offset o o' fun key => if key = id then bs else [] where
  settings := h.settings
  layouts := h.layouts
  sound := h.sound
  memory key := by
    rw [h.memory key]
    split
    · rename_i hkey
      rw [hkey, hid]
      rfl
    · rfl

theorem memory?_eq {id : SinkId} {sink : Sink} (h : o.sinks.get? id = some sink) :
    o.memory? id = sink.destination.collected? := by
  unfold memory?
  rw [h]
  rfl

theorem memory?_of_none {id : SinkId} (h : o.sinks.get? id = none) : o.memory? id = none := by
  unfold memory?
  rw [h]
  rfl

/-- A write reaches its sink and no other. -/
theorem grows_write (o : Outlets) (onWorker : Bool) (id : SinkId) (bs : Bytes) :
    Grows offset o (o.write onWorker id bs).2 fun key => if key = id then bs else [] := by
  unfold write
  cases hsink : o.sinks.get? id with
  | none => exact (grows_of_same rfl rfl).of_unseen (memory?_of_none hsink) bs
  | some sink =>
    obtain ⟨name, gate, formatter, destination⟩ := sink
    cases destination with
    | memory tape =>
      have hpush : (Destination.memory (tape.push bs)).collected? = some (tape.bytes ++ bs) :=
        congrArg some (tape.bytes_push bs)
      exact grows_destination hsink hpush rfl rfl
    | console stream colors => exact (o.grows_emit stream bs).of_unseen (memory?_eq hsink) bs
    | file f => exact grows_destination hsink (d := .file (f.write o.disk bs).2.1) rfl rfl rfl
    | probe p => exact grows_destination hsink (d := .probe (p.write onWorker bs).2) rfl rfl rfl

/-- A record that is logged on a sink reaches it as far as its gate lets it, and reaches no other. -/
theorem grows_log (hs : o.Sound offset) (onWorker : Bool) (id : SinkId) {r : Record}
    (ht : r.time.IsShown offset) :
    Grows offset o (o.log onWorker id r).2 fun key => if key = id then o.share id r else [] := by
  unfold log
  cases hsink : o.sinks.get? id with
  | none => exact (grows_of_same rfl rfl).of_unseen (memory?_of_none hsink) _
  | some sink =>
    have hshare : o.share id r = if sink.gate.passes r.severity then o.plain sink.formatter r else [] := by
      unfold share settings?
      rw [hsink]
      rfl
    dsimp only
    rw [hshare]
    by_cases hgate : sink.gate.passes r.severity = true
    · rw [if_pos hgate, if_pos hgate, format_written hs _ ht]
      have hformat := o.grows_format sink.formatter ht
      have hwrite := hformat.trans (grows_write (o.format sink.formatter r).2 onWorker id (o.plain sink.formatter r))
      obtain ⟨name, gate, formatter, destination⟩ := sink
      cases destination with
      | memory tape => exact hwrite
      | file f => exact hwrite
      | probe p => exact hwrite
      | console stream colors =>
        cases colors with
        | false => exact hwrite
        | true => exact (hformat.trans (grows_emit _ stream _)).of_unseen (memory?_eq hsink) _
    · rw [if_neg hgate, if_neg hgate]
      refine (grows_of_same rfl rfl).congr fun key => ?_
      rw [ite_self]

end Outlets

end Logbook
