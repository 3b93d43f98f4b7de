import Logbook.Proofs.Changes
import Logbook.Proofs.Custody
import Logbook.Proofs.Receipts
import Mathlib.Data.List.Basic

/-!
# What is on its way

A memory sink behind an adapter lags behind one that is written directly by the commands that are on their way: those
in the queue, and behind them those of callers that wait. The worker takes them in that order, and a flush is answered
when none is left.
-/

namespace Logbook

/-! ### Outlets as a memory sink sees them -/

namespace Outlets

variable {o o' : Outlets} {m : SinkId}

/-- Sinks and formatters are the same; what was printed may differ. -/
structure Agrees (o o' : Outlets) : Prop where
  sinks : o'.sinks = o.sinks
  formatters : o'.formatters = o.formatters

theorem agrees_refl (o : Outlets) : Agrees o o := ⟨rfl, rfl⟩

theorem Agrees.trans {o'' : Outlets} (h : Agrees o o') (h' : Agrees o' o'') : Agrees o o'' :=
  ⟨h'.sinks.trans h.sinks, h'.formatters.trans h.formatters⟩

theorem Agrees.symm (h : Agrees o o') : Agrees o' o := ⟨h.sinks.symm, h.formatters.symm⟩

theorem agrees_report (o : Outlets) (n : Notice) : Agrees o (o.report n) := ⟨rfl, rfl⟩

theorem Agrees.memory?_eq (h : Agrees o o') (m : SinkId) : o'.memory? m = o.memory? m := by
  unfold memory?
  rw [h.sinks]

def IsMemory (o : Outlets) (m : SinkId) : Prop :=
  ∃ name gate formatter tape, o.sinks.get? m = some ⟨name, gate, formatter, .memory tape⟩

theorem isMemory_iff : o.IsMemory m ↔ (o.memory? m).isSome = true := by
  unfold memory?
  constructor
  · rintro ⟨name, gate, formatter, tape, hsink⟩
    rw [hsink]
    rfl
  · intro h
    cases hsink : o.sinks.get? m with
    | none =>
      rw [hsink] at h
      cases h
    | some sink =>
      obtain ⟨name, gate, formatter, destination⟩ := sink
      rw [hsink] at h
      cases destination with
      | memory tape => exact ⟨name, gate, formatter, tape, hsink⟩
      | console | file | probe => cases h

theorem IsMemory.congr (h : o.IsMemory m) (hagrees : Agrees o o') : o'.IsMemory m := by
  unfold IsMemory
  rw [hagrees.sinks]
  exact h

theorem agrees_format (h : Agrees o o') (f : FormatterId) (r : Record) :
    (o'.format f r).1 = (o.format f r).1 ∧ Agrees (o.format f r).2 (o'.format f r).2 := by
  unfold format
  rw [h.formatters]
  cases o.formatters.get? f with
  | none => exact ⟨rfl, h⟩
  | some formatter => exact ⟨rfl, h.sinks, rfl⟩

theorem sinks_format (o : Outlets) (f : FormatterId) (r : Record) : (o.format f r).2.sinks = o.sinks := by
  unfold format
  split <;> rfl

theorem log_memory {name : String} {gate : Gate} {f : FormatterId} {tape : Tape}
    (h : o.sinks.get? m = some ⟨name, gate, f, .memory tape⟩) (onWorker : Bool) (r : Record) :
    o.log onWorker m r =
      if gate.passes r.severity then
        match (o.format f r).1.stop with
        | some p => (some (.panicked p), (o.format f r).2)
        | none => (some .done, (o.format f r).2.setDestination m (.memory (tape.push (o.format f r).1.bytes)))
      else (some .done, o) := by
  unfold log
  rw [h]
  dsimp only
  have hsink : (o.format f r).2.sinks.get? m = some ⟨name, gate, f, .memory tape⟩ := by
    rw [sinks_format]
    exact h
  cases (o.format f r).1.stop with
  | some p => rfl
  | none =>
    dsimp only
    unfold write
    rw [hsink]

/-- A memory sink takes a record the same way from callers and workers, and whatever was printed. -/
theorem Agrees.log (h : Agrees o o') (hm : o.IsMemory m) (onWorker onWorker' : Bool) (r : Record) :
    Agrees (o.log onWorker m r).2 (o'.log onWorker' m r).2 := by
  obtain ⟨name, gate, f, tape, hsink⟩ := hm
  have hsink' : o'.sinks.get? m = some ⟨name, gate, f, .memory tape⟩ := by
    rw [h.sinks]
    exact hsink
  obtain ⟨hwritten, hformat⟩ := agrees_format h f r
  rw [log_memory hsink, log_memory hsink', hwritten]
  split
  · cases (o.format f r).1.stop with
    | some p => exact hformat
    | none =>
      refine ⟨?_, hformat.formatters⟩
      unfold setDestination
      dsimp only
      rw [hformat.sinks]
  · exact h

theorem IsMemory.log (hm : o.IsMemory m) (onWorker : Bool) (r : Record) : (o.log onWorker m r).2.IsMemory m := by
  obtain ⟨name, gate, f, tape, hsink⟩ := hm
  have hformat : (o.format f r).2.sinks.get? m = some ⟨name, gate, f, .memory tape⟩ := by
    rw [sinks_format]
    exact hsink
  rw [log_memory hsink]
  split
  · cases (o.format f r).1.stop with
    | some p => exact ⟨name, gate, f, tape, hformat⟩
    | none =>
      refine ⟨name, gate, f, tape.push (o.format f r).1.bytes, ?_⟩
      unfold setDestination
      dsimp only
      rw [Table.get?_modify, if_pos rfl, hformat]
      rfl
  · exact ⟨name, gate, f, tape, hsink⟩

/-- A call of a memory sink returns. -/
theorem IsMemory.log_returns (hm : o.IsMemory m) (onWorker : Bool) (r : Record) :
    ∃ outcome, (o.log onWorker m r).1 = some outcome := by
  obtain ⟨name, gate, f, tape, hsink⟩ := hm
  rw [log_memory hsink]
  split
  · cases (o.format f r).1.stop with
    | some p => exact ⟨_, rfl⟩
    | none => exact ⟨_, rfl⟩
  · exact ⟨_, rfl⟩

theorem IsMemory.flush (hm : o.IsMemory m) : o.flush m = (.done, o) := by
  obtain ⟨name, gate, f, tape, hsink⟩ := hm
  unfold Outlets.flush
  rw [hsink]

/-- The outlets after records have been logged on a sink, in order. -/
def replay (m : SinkId) (records : List Record) (o : Outlets) : Outlets :=
  records.foldl (fun o r => (o.log false m r).2) o

theorem replay_append (before behind : List Record) (o : Outlets) :
    replay m (before ++ behind) o = replay m behind (replay m before o) := List.foldl_append

theorem Agrees.replay (h : Agrees o o') (hm : o.IsMemory m) (records : List Record) :
    Agrees (replay m records o) (replay m records o') := by
  induction records generalizing o o' with
  | nil => exact h
  | cons r rest ih => exact ih (h.log hm false false r) (hm.log false r)

theorem IsMemory.replay (hm : o.IsMemory m) (records : List Record) : (replay m records o).IsMemory m := by
  induction records generalizing o with
  | nil => exact hm
  | cons r rest ih => exact ih (hm.log false r)

end Outlets

/-! ### Commands on their way -/

/-- The handles that commands hold. -/
def handles (cs : List Command) : List BufferId := cs.filterMap fun c => c.snapshot?.map (·.buffer)

/-- The records that commands hold, as they are read from a store. -/
def records (store : Store) (cs : List Command) : List Record := cs.filterMap fun c => c.snapshot?.map (·.record store)

theorem handles_append (cs cs' : List Command) : handles (cs ++ cs') = handles cs ++ handles cs' :=
  List.filterMap_append

theorem records_append (store : Store) (cs cs' : List Command) :
    records store (cs ++ cs') = records store cs ++ records store cs' := List.filterMap_append

theorem records_congr {store store' : Store} {cs : List Command}
    (h : ∀ b ∈ handles cs, store'.bytes b = store.bytes b) : records store' cs = records store cs := by
  refine List.filterMap_congr fun c hc => ?_
  cases hs : c.snapshot? with
  | none => rfl
  | some s =>
    have hb := h s.buffer (List.mem_filterMap.mpr ⟨c, hc, by rw [hs]; rfl⟩)
    simp only [Option.map_some, Snapshot.record, hb]

namespace Queue

/-- All commands on their way, those of callers that wait behind the others. -/
def backlog (q : Queue) : List Command := q.pending ++ q.waiting.map (·.2)

/-- Callers wait only while there is no room. -/
def Orderly (q : Queue) : Prop := q.waiting ≠ [] → q.isFull = true

/-- Letting a caller in moves nothing on its way, and is answered well. -/
theorem letIn_spec (q : Queue) :
    ∃ pending waiting stats answers, q.letIn =
        { q with pending := pending, waiting := waiting, stats := stats, answers := answers ++ q.answers } ∧
      pending ++ waiting.map (·.2) = q.backlog ∧ (∀ x ∈ answers, x.2 = .done) ∧
      (waiting ≠ [] →
        q.waiting ≠ [] ∧ (q.settings.limit ≤ q.pending.length + 1 → q.settings.limit ≤ pending.length)) := by
  unfold letIn
  cases hwaiting : q.waiting with
  | nil => exact ⟨q.pending, q.waiting, q.stats, [], rfl, rfl, by simp, fun h => absurd hwaiting h⟩
  | cons w rest =>
    obtain ⟨ticket, c⟩ := w
    dsimp only
    by_cases hfull : q.isFull = true
    · rw [if_pos hfull]
      refine ⟨q.pending, q.waiting, q.stats, [], rfl, rfl, by simp, fun _ => ⟨by simp, fun _ => ?_⟩⟩
      exact of_decide_eq_true hfull
    · rw [if_neg hfull]
      have hbacklog : q.pending ++ [c] ++ rest.map (·.2) = q.backlog := by
        unfold backlog
        rw [hwaiting]
        simp
      have hlength : (ticket, c) :: rest ≠ [] ∧
          (q.settings.limit ≤ q.pending.length + 1 → q.settings.limit ≤ (q.pending ++ [c]).length) := by simp
      unfold enqueue
      by_cases hflush : c.isFlush = true
      · rw [if_pos hflush]
        exact ⟨_, _, _, [], rfl, hbacklog, by simp, fun _ => hlength⟩
      · rw [if_neg hflush]
        exact ⟨_, _, _, [(ticket, .done)], rfl, hbacklog, by simp, fun _ => hlength⟩

/-- A worker between two commands takes the first one that is on its way. -/
theorem take_of_backlog {q : Queue} (hidle : q.worker = .idle) (horderly : q.Orderly) {c : Command}
    {rest : List Command} (h : q.backlog = c :: rest) :
    ∃ pending waiting stats answers, q.take =
        some (c, { q with
          worker := .busy c
          pending := pending
          waiting := waiting
          stats := stats
          answers := answers ++ q.answers }) ∧
      pending ++ waiting.map (·.2) = rest ∧ (∀ x ∈ answers, x.2 = .done) ∧
      (waiting ≠ [] → q.settings.limit ≤ pending.length) := by
  cases hpending : q.pending with
  | nil =>
    -- without room for one command there would be nobody to wait for
    have hwaiting : q.waiting ≠ [] := by
      intro hnone
      unfold backlog at h
      rw [hpending, hnone] at h
      cases h
    have hfull := of_decide_eq_true (horderly hwaiting)
    rw [hpending] at hfull
    have hlimit : 1 ≤ q.settings.limit := Nat.le_max_left _ _
    exact absurd (Nat.le_trans hlimit hfull) (by simp)
  | cons c' pending =>
    have hhead : c' = c ∧ pending ++ q.waiting.map (·.2) = rest := by
      unfold backlog at h
      rw [hpending] at h
      exact List.cons.inj h
    obtain ⟨rfl, hrest⟩ := hhead
    have hletIn := letIn_spec { q with worker := .busy c', pending := pending }
    obtain ⟨pending', waiting', stats, answers, heq, hbacklog, hanswers, hroom⟩ := hletIn
    refine ⟨pending', waiting', stats, answers, ?_, hbacklog.trans hrest, hanswers, fun hwaiting => ?_⟩
    · unfold take
      rw [hidle, hpending]
      dsimp only
      rw [heq]
    · obtain ⟨hsome, hroom⟩ := hroom hwaiting
      have hfull := of_decide_eq_true (horderly hsome)
      rw [hpending] at hfull
      exact hroom hfull

/-- A flush has been asked for under a ticket, and is on its way or answered. -/
def Asked (t : Nat) (q : Queue) : Prop := .flush t ∈ q.backlog ∨ ∃ o, (t, o) ∈ q.answers

/-- An open queue between two steps of its worker, in which nothing has gone wrong. -/
structure Ready (q : Queue) : Prop where
  isOpen : q.isOpen = true
  idle : q.worker = .idle
  orderly : q.Orderly
  lines : ∀ bs, .raw bs ∉ q.backlog
  answers : ∀ x ∈ q.answers, x.2 = .done

theorem Ready.live {q : Queue} (h : q.Ready) : q.isGone = false := by
  unfold isGone
  rw [h.idle]

/-- The worker takes the first command on its way, and settles it. -/
theorem Ready.take {q : Queue} (h : q.Ready) {c : Command} {rest : List Command} (hnext : q.backlog = c :: rest)
    {o : Outcome} (hlives : c.endsWorker o = false) (hdone : ∀ x ∈ c.answers o, x.2 = .done) :
    ∃ q₁, q.take = some (c, q₁) ∧ (q₁.settle c o).1.Ready ∧ (q₁.settle c o).1.backlog = rest ∧
      (q₁.settle c o).1.settings = q.settings ∧ ∀ t, Asked t q → Asked t (q₁.settle c o).1 := by
  obtain ⟨pending, waiting, stats, answers, htake, hrest, hanswers, hfull⟩ :=
    take_of_backlog h.idle h.orderly hnext
  refine ⟨_, htake, ?_⟩
  rw [Adapter.settle_of_lives _ hlives]
  refine ⟨⟨h.isOpen, rfl, ?_, ?_, ?_⟩, hrest, rfl, ?_⟩
  · exact fun hwaiting => decide_eq_true (hfull hwaiting)
  · intro bs hmem
    refine h.lines bs ?_
    rw [hnext, ← hrest]
    exact List.mem_cons_of_mem _ hmem
  · intro x hx
    simp only [List.mem_append] at hx
    rcases hx with hx | hx | hx
    · exact hdone x hx
    · exact hanswers x hx
    · exact h.answers x hx
  · rintro t (hflush | ⟨o', ho'⟩)
    · rw [hnext] at hflush
      rcases List.mem_cons.mp hflush with heq | hflush
      · subst heq
        exact .inr ⟨o, List.mem_append_left _ List.mem_cons_self⟩
      · rw [← hrest] at hflush
        exact .inl hflush
    · exact .inr ⟨o', List.mem_append_right _ (List.mem_append_right _ ho')⟩

/-- Once nothing is on its way, whoever asked for a flush finds that it is done. -/
theorem Ready.answer?_of_asked {q : Queue} (h : q.Ready) (hnone : q.backlog = []) {t : Nat} (hasked : Asked t q) :
    q.answer? t = some .done := by
  rcases hasked with hflush | ⟨o, ho⟩
  · rw [hnone] at hflush
    cases hflush
  · unfold answer?
    cases hlookup : q.answers.lookup t with
    | none =>
      have hother := List.lookup_eq_none_iff.mp hlookup _ ho
      simp at hother
    | some o' =>
      obtain ⟨before, behind, hanswers, _⟩ := List.lookup_eq_some_iff.mp hlookup
      have hdone := h.answers (t, o') (by simp [hanswers])
      exact congrArg some hdone

/-- A command joins those on their way. -/
theorem Ready.append {q q' : Queue} (h : q.Ready) {c : Command} (hraw : ∀ bs, c ≠ .raw bs)
    (hsame : (q'.isOpen, q'.worker, q'.answers) = (q.isOpen, q.worker, q.answers))
    (hbacklog : q'.backlog = q.backlog ++ [c]) (horderly : q'.Orderly) : q'.Ready := by
  simp only [Prod.mk.injEq] at hsame
  obtain ⟨hopen, hworker, hanswers⟩ := hsame
  refine ⟨hopen.trans h.isOpen, hworker.trans h.idle, horderly, ?_, ?_⟩
  · intro bs hmem
    rw [hbacklog] at hmem
    rcases List.mem_append.mp hmem with hmem | hmem
    · exact h.lines bs hmem
    · exact hraw bs (List.mem_singleton.mp hmem).symm
  · rw [hanswers]
    exact h.answers

theorem Ready.nobody {q : Queue} (h : q.Ready) (hroom : q.isFull = false) : q.waiting = [] := by
  cases hwaiting : q.waiting with
  | nil => rfl
  | cons w rest =>
    have hfull := h.orderly (by simp [hwaiting])
    rw [hroom] at hfull
    cases hfull

theorem Ready.enqueue {q : Queue} (h : q.Ready) (hroom : q.isFull = false) (c : Command) :
    (q.enqueue c).Orderly ∧ (q.enqueue c).backlog = q.backlog ++ [c] := by
  have hnobody := h.nobody hroom
  refine ⟨fun hwaiting => absurd hnobody hwaiting, ?_⟩
  unfold backlog Queue.enqueue
  simp [hnobody]

theorem Ready.askFlush {q : Queue} (h : q.Ready) :
    q.askFlush.1 = .waits q.nextTicket ∧ q.askFlush.2.Ready ∧
      q.askFlush.2.backlog = q.backlog ++ [.flush q.nextTicket] ∧ q.askFlush.2.settings = q.settings := by
  have hraw : ∀ bs, Command.flush q.nextTicket ≠ .raw bs := by simp
  unfold Queue.askFlush
  rw [h.live, if_neg Bool.false_ne_true]
  dsimp only
  by_cases hfull : q.isFull = true
  · rw [if_pos hfull]
    have hbacklog : (q.wait (.flush q.nextTicket)).2.backlog = q.backlog ++ [.flush q.nextTicket] := by
      simp [backlog, wait]
    exact ⟨rfl, h.append hraw rfl hbacklog fun _ => hfull, hbacklog, rfl⟩
  · rw [if_neg hfull]
    rw [Bool.not_eq_true] at hfull
    obtain ⟨horderly, hbacklog⟩ := h.enqueue hfull (.flush q.nextTicket)
    exact ⟨rfl, h.append hraw rfl hbacklog horderly, hbacklog, rfl⟩

/-- Without anything on its way, an open queue gives its worker nothing to do. -/
theorem Ready.step?_eq_none {σ : Type} {q : Queue} (h : q.Ready) (hnone : q.backlog = []) (host : Host σ) (s : σ) :
    host.step? q s = none := by
  have hpending : q.pending = [] := (List.append_eq_nil_iff.mp hnone).1
  have htake : q.take = none := by
    unfold Queue.take
    rw [h.idle, hpending]
  have hleave : q.canLeave = false := by
    unfold canLeave
    rw [h.idle, h.isOpen]
    rfl
  unfold Host.step?
  rw [htake, hleave]
  rfl

end Queue

/-! ### The worker behind a memory sink -/

/-- As long as a command does not end the worker, settling it is a matter of that command alone. -/
theorem Host.settle_of_lives {σ : Type} (h : Host σ) {c : Command} {o : Outcome} (hlives : c.endsWorker o = false)
    (q : Queue) (s : σ) :
    h.settle c o q s = ((q.settle c o).1, h.discard [c] (h.reportAll (q.settle c o).2 s)) := by
  have hgone : (q.settle c o).1.isGone = false := by
    rw [Adapter.settle_of_lives q hlives]
    rfl
  unfold Host.settle Host.clearOut Queue.clearOut
  simp only [hgone, Bool.and_false, Bool.false_eq_true, if_false]
  rfl

namespace Plant

variable {m : SinkId} {target : Outlets} {held : List BufferId} {p p' : Plant} {c : Command} {cs : List Command}

theorem reportAll_spec (m : SinkId) (notices : List Notice) (p : Plant) :
    ((host m).reportAll notices p).store = p.store ∧
      Outlets.Agrees p.outlets ((host m).reportAll notices p).outlets := by
  unfold Host.reportAll
  induction notices generalizing p with
  | nil => exact ⟨rfl, Outlets.agrees_refl _⟩
  | cons n rest ih =>
    obtain ⟨hstore, hagrees⟩ := ih (p.report n)
    exact ⟨hstore, (Outlets.agrees_report _ n).trans hagrees⟩

/-- The sink `m` lags behind `target` by the records of commands. `held` are handles that callers hold meanwhile. -/
structure Lags (m : SinkId) (target : Outlets) (held : List BufferId) (cs : List Command) (p : Plant) : Prop where
  memory : p.outlets.IsMemory m
  keeps : p.store.Keeps (held ++ handles cs)
  target : Outlets.Agrees target (Outlets.replay m (records p.store cs) p.outlets)

/-- Printing and changes of the store that those with handles do not see. -/
theorem Lags.congr {held' : List BufferId} (h : Lags m target held cs p)
    (hkeeps : p'.store.Keeps (held' ++ handles cs))
    (hbytes : ∀ b ∈ handles cs, p'.store.bytes b = p.store.bytes b)
    (houtlets : Outlets.Agrees p.outlets p'.outlets) : Lags m target held' cs p' where
  memory := h.memory.congr houtlets
  keeps := hkeeps
  target := by
    rw [records_congr hbytes]
    exact h.target.trans (houtlets.replay h.memory _)

/-- Giving back a command takes the handle of its snapshot. -/
theorem Lags.discard (h : Lags m target held cs p) (hkeeps : p.store.Keeps (handles [c] ++ (held ++ handles cs))) :
    Lags m target held cs ((host m).discard [c] p) := by
  cases c with
  | record s =>
    refine h.congr hkeeps.release (fun b hb => ?_) (Outlets.agrees_refl _)
    exact hkeeps.bytes_release (List.mem_append_right held hb)
  | raw line => exact h
  | flush t => exact h

theorem Lags.keeps_first (h : Lags m target held (c :: cs) p) :
    p.store.Keeps (handles [c] ++ (held ++ handles cs)) := by
  refine h.keeps.perm ?_
  have hcons : handles (c :: cs) = handles [c] ++ handles cs := handles_append [c] cs
  rw [hcons]
  exact List.perm_append_comm_assoc _ _ _

/-- The worker hands the first command to the inner sink, which catches up by it. -/
theorem Lags.perform (h : Lags m target held (c :: cs) p) (hraw : ∀ bs, c ≠ .raw bs) :
    ∃ o p', (host m).perform c p = (some o, p') ∧ c.endsWorker o = false ∧
      (∀ x ∈ c.answers o, x.2 = .done) ∧ p'.store = p.store ∧ Lags m target held cs p' := by
  have hkeeps : p.store.Keeps (held ++ handles cs) := h.keeps_first.sublist (List.sublist_append_right _ _)
  cases c with
  | record s =>
    obtain ⟨o, ho⟩ := h.memory.log_returns true (s.record p.store)
    refine ⟨o, { p with outlets := (p.outlets.log true m (s.record p.store)).2 }, ?_, rfl, ?_, rfl, ?_, hkeeps, ?_⟩
    · rw [← ho]
      rfl
    · exact fun x hx => absurd hx List.not_mem_nil
    · exact h.memory.log true _
    · have hone := (Outlets.agrees_refl p.outlets).log h.memory false true (s.record p.store)
      exact h.target.trans (hone.replay (h.memory.log false _) _)
  | raw bs => exact absurd rfl (hraw bs)
  | flush t =>
    have hflush : (host m).perform (.flush t) p = (some .done, p) := by
      show (some (p.outlets.flush m).1, { p with outlets := (p.outlets.flush m).2 }) = _
      rw [h.memory.flush]
    refine ⟨.done, p, hflush, rfl, ?_, rfl, h.memory, hkeeps, h.target⟩
    intro x hx
    rw [List.mem_singleton.mp hx]

theorem Lags.flush (h : Lags m target held cs p) (t : Nat) : Lags m target held (cs ++ [.flush t]) p := by
  have hhandles : handles (cs ++ [.flush t]) = handles cs := (handles_append _ _).trans (List.append_nil _)
  have hrecords : records p.store (cs ++ [.flush t]) = records p.store cs :=
    (records_append _ _ _).trans (List.append_nil _)
  refine ⟨h.memory, ?_, ?_⟩
  · rw [hhandles]
    exact h.keeps
  · rw [hrecords]
    exact h.target

/-- A record of which the caller holds the snapshot goes on its way, with a handle of its own. -/
theorem Lags.clone {s : Snapshot} (h : Lags m target (s.buffer :: held) cs p) :
    Lags m (target.log false m (s.record p.store)).2 (s.buffer :: held) (cs ++ [.record s])
      { p with store := s.clone p.store } := by
  have hbytes : ∀ b, (s.clone p.store).bytes b = p.store.bytes b := p.store.bytes_clone s.buffer
  have hrecord : records (s.clone p.store) [.record s] = [s.record p.store] := by
    simp [records, Command.snapshot?, Snapshot.record, hbytes]
  refine ⟨h.memory, ?_, ?_⟩
  -- of the two handles on the buffer one stays with the caller, the other goes with the command
  · refine h.keeps.clone.perm ?_
    rw [handles_append, ← List.append_assoc]
    exact (List.perm_append_singleton s.buffer (held ++ handles cs)).cons s.buffer
  · have hmemory : target.IsMemory m := (h.memory.replay _).congr h.target.symm
    rw [records_append, Outlets.replay_append, hrecord, records_congr fun b _ => hbytes b]
    exact h.target.log hmemory false false _

end Plant

/-! ### Adapters -/

/-- What stays the same of an adapter. -/
structure Route where
  gate : Gate
  inner : SinkId
  settings : QueueSettings

namespace Adapter

def route (a : Adapter) : Route := ⟨a.gate, a.inner, a.queue.settings⟩

/-- An adapter between two steps of its worker, whose inner sink lags behind `target` by what is on its way. -/
structure Trails (r : Route) (target : Outlets) (held : List BufferId) (a : Adapter) (p : Plant) : Prop where
  route : a.route = r
  queue : a.queue.Ready
  plant : p.Lags r.inner target held a.queue.backlog

variable {r : Route} {target : Outlets} {held : List BufferId} {a : Adapter} {p : Plant}

theorem Trails.host (h : Trails r target held a p) : a.host = Plant.host r.inner :=
  congrArg (fun r : Route => Plant.host r.inner) h.route

theorem Trails.step? (h : Trails r target held a p) {c : Command} {rest : List Command}
    (hnext : a.queue.backlog = c :: rest) :
    ∃ q p', a.host.step? a.queue p = some (q, p') ∧ Trails r target held { a with queue := q } p' ∧
      q.backlog = rest ∧ ∀ t, Queue.Asked t a.queue → Queue.Asked t q := by
  have hlags := h.plant
  rw [hnext] at hlags
  obtain ⟨o, p₁, hperform, hlives, hdone, hstore, hlater⟩ :=
    hlags.perform fun bs heq => h.queue.lines bs (hnext ▸ heq ▸ List.mem_cons_self)
  obtain ⟨q₁, htake, hready, hrest, hsettings, hasked⟩ := h.queue.take hnext hlives hdone
  have hreport := Plant.reportAll_spec r.inner (q₁.settle c o).2 p₁
  have hkeeps := hlags.keeps_first
  rw [← hstore, ← hreport.1] at hkeeps
  have hstep : a.host.step? a.queue p =
      some ((q₁.settle c o).1,
        (Plant.host r.inner).discard [c] ((Plant.host r.inner).reportAll (q₁.settle c o).2 p₁)) := by
    unfold Host.step?
    rw [htake, h.host]
    dsimp only
    rw [hperform]
    exact congrArg some (Host.settle_of_lives _ hlives q₁ p₁)
  refine ⟨_, _, hstep, ⟨?_, hready, ?_⟩, hrest, hasked⟩
  · rw [← h.route]
    unfold Adapter.route
    rw [hsettings]
  -- the handle of the command is given back last, when the sink has caught up
  · rw [hrest]
    refine Plant.Lags.discard ?_ hkeeps
    refine hlater.congr (hkeeps.sublist (List.sublist_append_right _ _)) (fun b _ => ?_) hreport.2
    rw [hreport.1]

theorem Trails.work (h : Trails r target held a p) : Trails r target held (a.work p).1 (a.work p).2 := by
  unfold Adapter.work
  cases hnext : a.queue.backlog with
  | nil =>
    rw [h.queue.step?_eq_none hnext]
    exact h
  | cons c rest =>
    obtain ⟨q, p', hstep, htrails, _⟩ := h.step? hnext
    rw [hstep]
    exact htrails

/-- With enough steps the worker gets everything done that is on its way. -/
theorem Trails.run (h : Trails r target held a p) {fuel : Nat} (hfuel : a.queue.backlog.length ≤ fuel) :
    Trails r target held { a with queue := (a.host.run fuel a.queue p).1 } (a.host.run fuel a.queue p).2 ∧
      (a.host.run fuel a.queue p).1.backlog = [] ∧
      ∀ t, Queue.Asked t a.queue → Queue.Asked t (a.host.run fuel a.queue p).1 := by
  induction fuel generalizing a p with
  | zero => exact ⟨h, List.eq_nil_of_length_eq_zero (Nat.le_zero.mp hfuel), fun _ ht => ht⟩
  | succ fuel ih =>
    unfold Host.run
    cases hnext : a.queue.backlog with
    | nil =>
      rw [h.queue.step?_eq_none hnext]
      exact ⟨h, hnext, fun _ ht => ht⟩
    | cons c rest =>
      obtain ⟨q, p', hstep, htrails, hrest, hasked⟩ := h.step? hnext
      have hshorter : q.backlog.length ≤ fuel := by
        rw [hnext] at hfuel
        rw [hrest]
        exact Nat.le_of_succ_le_succ hfuel
      obtain ⟨hlater, hdone, hasked'⟩ := ih htrails hshorter
      rw [hstep]
      exact ⟨hlater, hdone, fun t ht => hasked' t (hasked t ht)⟩

theorem Trails.drain (h : Trails r target held a p) :
    Trails r target held (a.drain p).1 (a.drain p).2 ∧ (a.drain p).1.queue.backlog = [] ∧
      ∀ t, Queue.Asked t a.queue → Queue.Asked t (a.drain p).1.queue := by
  have hfuel : a.queue.backlog.length ≤ a.queue.pending.length + a.queue.waiting.length + 1 := by
    unfold Queue.backlog
    rw [List.length_append, List.length_map]
    exact Nat.le_succ _
  exact h.run hfuel

/-- A flush is done once nothing is on its way. -/
theorem Trails.flush (h : Trails r target held a p) :
    (a.flush Adapter.drain p).1 = .done ∧
      Trails r target held (a.flush Adapter.drain p).2.1 (a.flush Adapter.drain p).2.2 ∧
      (a.flush Adapter.drain p).2.1.queue.backlog = [] := by
  obtain ⟨hticket, hready, hbacklog, hsettings⟩ := h.queue.askFlush
  have hasked : Trails r target held { a with queue := a.queue.askFlush.2 } p := by
    refine ⟨?_, hready, ?_⟩
    · rw [← h.route]
      unfold Adapter.route
      rw [hsettings]
    · dsimp only
      rw [hbacklog]
      exact h.plant.flush _
  obtain ⟨hlater, hdone, hasked'⟩ := hasked.drain
  have hanswer := hlater.queue.answer?_of_asked hdone
    (hasked' a.queue.nextTicket (.inl (by rw [hbacklog]; exact List.mem_append_right _ List.mem_cons_self)))
  unfold Adapter.flush
  rw [if_pos h.queue.isOpen]
  dsimp only
  rw [hticket]
  dsimp only
  rw [hanswer]
  exact ⟨rfl, hlater, hdone⟩

/-- An offer finds room, or callers wait until there is. -/
def Admits (a : Adapter) : Prop :=
  (a.queue.settings.policy = .block ∧ a.queue.settings.preserveCritical = false) ∨ a.queue.isFull = false

/-- A record that passes the gate goes on its way. -/
theorem Trails.log {s : Snapshot} (h : Trails r target (s.buffer :: held) a p)
    (hgate : a.gate.passes s.severity = true) (hadmits : a.Admits) :
    Trails r (target.log false r.inner (s.record p.store)).2 (s.buffer :: held) (a.log s p).2.1 (a.log s p).2.2 ∧
      ((a.log s p).1 = none → r.settings.policy = .block) := by
  have hraw : ∀ bs, Command.record s ≠ .raw bs := by simp
  have hclone := h.plant.clone
  have hlive := h.queue.live
  by_cases hfull : a.queue.isFull = true
  · obtain ⟨hpolicy, hkeep⟩ : a.queue.settings.policy = .block ∧ a.queue.settings.preserveCritical = false :=
      hadmits.resolve_right (by simp [hfull])
    rw [log_of_blocked hgate h.queue.isOpen hlive hfull (by simp [QueueSettings.preserves, hkeep])
      (by simp [hpolicy, OverflowPolicy.waits])]
    have hbacklog : a.queue.pending ++ (a.queue.waiting ++ [(a.queue.nextTicket, Command.record s)]).map (·.2) =
        a.queue.backlog ++ [.record s] := by simp [Queue.backlog]
    refine ⟨⟨h.route, h.queue.append hraw rfl hbacklog fun _ => hfull, ?_⟩, fun _ => ?_⟩
    · unfold Queue.backlog
      dsimp only
      rw [hbacklog]
      exact hclone
    · rw [← h.route]
      exact hpolicy
  · rw [Bool.not_eq_true] at hfull
    obtain ⟨horderly, hbacklog⟩ := h.queue.enqueue hfull (.record s)
    rw [log_of_free hgate h.queue.isOpen hlive hfull]
    refine ⟨⟨h.route, h.queue.append hraw rfl hbacklog horderly, ?_⟩, fun hnone => by cases hnone⟩
    dsimp only
    rw [hbacklog]
    exact hclone

end Adapter

end Logbook
