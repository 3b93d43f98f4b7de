import Logbook.Proofs.Backlog
import Logbook.Proofs.Callers
import Logbook.Proofs.InOrder
import Logbook.Proofs.Supplies

/-!
# Handles that go through an adapter

A handle enters an adapter with the command that holds it. It is given back when the command leaves the queue, or at
once if the command does not get in.
-/

namespace Logbook

/-! ### Handles of a queue -/

theorem count_handles_cons (c : Command) (cs : List Command) (b : BufferId) :
    (handles (c :: cs)).count b = (handles [c]).count b + (handles cs).count b := by
  have hcons : handles (c :: cs) = handles [c] ++ handles cs := handles_append [c] cs
  rw [hcons, List.count_append]

theorem length_handles_le (cs : List Command) : (handles cs).length ≤ cs.length := List.length_filterMap_le _ _

theorem Adapter.inHand_of_idle {q : Queue} (h : q.worker = .idle) : inHand q = [] := by
  unfold inHand
  rw [h]

theorem Adapter.inHand_of_busy {q : Queue} {c : Command} (h : q.worker = .busy c) : inHand q = [c] := by
  unfold inHand
  rw [h]

theorem Adapter.length_inHand_le (q : Queue) : (inHand q).length ≤ 1 := by
  unfold inHand
  split
  · exact Nat.le_refl _
  · exact Nat.zero_le _

namespace Queue

/-- The handles of all commands of a queue, with the one in the worker's hands and those that wait for room. -/
def holds (q : Queue) : List BufferId := handles (q.pending ++ Adapter.inHand q ++ q.waiting.map (·.2))

theorem count_holds (q : Queue) (b : BufferId) :
    q.holds.count b = (handles q.pending).count b + (handles (Adapter.inHand q)).count b +
      (handles (q.waiting.map (·.2))).count b := by
  unfold holds
  rw [handles_append, handles_append, List.count_append, List.count_append]

theorem count_eraseIdx {waiting : List (Nat × Command)} {i ticket : Nat} {c : Command}
    (hi : waiting[i]? = some (ticket, c)) (b : BufferId) :
    (handles (waiting.map (·.2))).count b =
      (handles ((waiting.eraseIdx i).map (·.2))).count b + (handles [c]).count b := by
  obtain ⟨hlt, hget⟩ := List.getElem?_eq_some_iff.mp hi
  have hperm := (List.getElem_cons_eraseIdx_perm hlt).map (·.2)
  rw [hget, List.map_cons] at hperm
  have hcount : (handles (c :: (waiting.eraseIdx i).map (·.2))).count b = (handles (waiting.map (·.2))).count b :=
    (hperm.filterMap _).count_eq b
  have hcons := count_handles_cons c ((waiting.eraseIdx i).map (·.2)) b
  omega

theorem count_enter (q : Queue) (i : Nat) (b : BufferId) : (q.enter i).holds.count b = q.holds.count b := by
  unfold enter
  cases hi : q.waiting[i]? with
  | none => rfl
  | some w =>
    obtain ⟨ticket, c⟩ := w
    have herase := count_eraseIdx hi b
    dsimp only
    split
    · rfl
    · have hgoal : ({ q with waiting := q.waiting.eraseIdx i }.enqueue c).holds.count b = q.holds.count b := by
        rw [count_holds, count_holds]
        show (handles (q.pending ++ [c])).count b + (handles (Adapter.inHand q)).count b + _ = _
        rw [handles_append, List.count_append]
        show _ + (handles ((q.waiting.eraseIdx i).map (·.2))).count b = _
        omega
      split
      · exact hgoal
      · exact hgoal

theorem count_giveUp (q : Queue) (i : Nat) (b : BufferId) :
    q.holds.count b = (q.giveUp i).1.holds.count b + (handles ((q.waiting[i]?).toList.map (·.2))).count b := by
  unfold giveUp
  cases hi : q.waiting[i]? with
  | none => rfl
  | some w =>
    obtain ⟨ticket, c⟩ := w
    have hleft : q.holds.count b =
        ({ q with waiting := q.waiting.eraseIdx i } : Queue).holds.count b + (handles [c]).count b := by
      rw [count_holds, count_holds, count_eraseIdx hi]
      exact (Nat.add_assoc ..).symm
    dsimp only
    split
    · exact hleft
    · exact hleft

theorem count_taken {q : Queue} {c : Command} {rest : List Command} (hidle : q.worker = .idle)
    (hnext : q.pending = c :: rest) (b : BufferId) :
    q.holds.count b = ({ q with worker := .busy c, pending := rest } : Queue).holds.count b := by
  have hcons := count_handles_cons c rest b
  have hnil : (handles []).count b = 0 := rfl
  rw [count_holds, count_holds, hnext, Adapter.inHand_of_idle hidle]
  show _ = (handles rest).count b + (handles [c]).count b + (handles (q.waiting.map (·.2))).count b
  omega

theorem count_leave {q : Queue} (hidle : q.worker = .idle) (o : Outcome) (b : BufferId) :
    q.holds.count b = (q.leave o).1.holds.count b := by
  rw [count_holds, Adapter.inHand_of_idle hidle, count_holds]
  cases o <;> rfl

theorem count_clearOut (q : Queue) (b : BufferId) :
    q.holds.count b = q.clearOut.2.holds.count b + (handles q.clearOut.1).count b := by
  unfold clearOut
  split
  · rw [count_holds, count_holds]
    show _ = 0 + (handles (Adapter.inHand q)).count b + (handles (q.waiting.map (·.2))).count b +
      (handles q.pending).count b
    omega
  · rfl

theorem waiting_clearOut (q : Queue) : q.clearOut.2.waiting = q.waiting := by
  unfold clearOut
  split <;> rfl

end Queue

namespace Plant

theorem store_discard (m : SinkId) (cs : List Command) (p : Plant) :
    ((host m).discard cs p).store = p.store.releaseAll (handles cs) := by
  unfold Host.discard
  induction cs generalizing p with
  | nil => rfl
  | cons c rest ih =>
    cases c with
    | record s => exact ih (p.release s)
    | raw bs => exact ih p
    | flush ticket => exact ih p

theorem store_reportAll (m : SinkId) (notices : List Notice) (p : Plant) :
    ((host m).reportAll notices p).store = p.store := (reportAll_spec m notices p).1

theorem store_perform (m : SinkId) (c : Command) (p : Plant) : ((host m).perform c p).2.store = p.store := by
  cases c <;> rfl

end Plant

/-! ### What leaves is given back -/

namespace Adapter

/- With the worker go the callers that wait, and what is queued if the queue is closed. -/
theorem settle_spec (m : SinkId) {q : Queue} {c : Command} (hworker : q.worker = .busy c) (o : Outcome) (p : Plant) :
    ∃ gone, ((Plant.host m).settle c o q p).2.store = p.store.releaseAll gone ∧
      ∀ b, q.holds.count b = ((Plant.host m).settle c o q p).1.holds.count b + gone.count b := by
  have hhand := inHand_of_busy hworker
  by_cases hends : c.endsWorker o = true
  · have hsettle := settle_of_ends q hends
    have hgone : (q.settle c o).1.isGone = true := by
      rw [hsettle]
      rfl
    unfold Host.settle Host.clearOut
    dsimp only
    rw [hgone, if_pos rfl]
    refine ⟨handles (c :: q.waiting.map (·.2)) ++ handles (q.settle c o).1.clearOut.1, ?_, fun b => ?_⟩
    · rw [Plant.store_discard, Plant.store_discard, Plant.store_reportAll]
      exact List.foldl_append.symm
    · have hcons := count_handles_cons c (q.waiting.map (·.2)) b
      have hclear := Queue.count_clearOut (q.settle c o).1 b
      have hleft : (q.settle c o).1.holds.count b = (handles q.pending).count b := by
        rw [hsettle, Queue.count_holds]
        rfl
      rw [List.count_append, q.count_holds, hhand]
      omega
  · rw [Bool.not_eq_true] at hends
    rw [Host.settle_of_lives _ hends]
    refine ⟨handles [c], ?_, fun b => ?_⟩
    · rw [Plant.store_discard, Plant.store_reportAll]
    · dsimp only
      rw [settle_of_lives q hends, Queue.count_holds, Queue.count_holds, hhand]
      show _ = (handles q.pending).count b + 0 + (handles (q.waiting.map (·.2))).count b + _
      omega

theorem move_spec (a : Adapter) (p : Plant) (m : Move) :
    ∃ gone, (a.move p m).2.store = p.store.releaseAll gone ∧
      ∀ b, a.queue.holds.count b = (a.move p m).1.queue.holds.count b + gone.count b := by
  unfold move
  cases m with
  | enter i => exact ⟨[], rfl, fun b => (a.queue.count_enter i b).symm⟩
  | giveUp i =>
    dsimp only
    split
    · refine ⟨_, ?_, Queue.count_giveUp a.queue i⟩
      unfold host
      rw [Plant.store_discard, Plant.store_reportAll]
    · exact ⟨[], rfl, fun b => rfl⟩
  | take =>
    rcases pull_cases a.queue with hnone | ⟨c, rest, hidle, hnext, hsome⟩
    · rw [hnone]
      exact ⟨[], rfl, fun b => rfl⟩
    · rw [hsome]
      exact ⟨[], Plant.store_perform .., Queue.count_taken hidle hnext⟩
  | finish o =>
    cases hworker : a.queue.worker with
    | idle | finished | dead => exact ⟨[], rfl, fun b => rfl⟩
    | busy c => exact settle_spec a.inner hworker o p
  | leave =>
    dsimp only
    split
    · rename_i hleave
      exact ⟨[], Plant.store_reportAll .., Queue.count_leave (idle_of_canLeave hleave) _⟩
    · exact ⟨[], rfl, fun b => rfl⟩

/-- What an offer gives back is what does not get into the queue or into the line before it. -/
theorem offer_spec (a : Adapter) (s : Snapshot) (p : Plant) :
    ∃ gone, (a.offer (.record s) p).2.2.store = p.store.releaseAll gone ∧
      (∀ b, a.queue.holds.count b + (handles [.record s]).count b =
        (a.offer (.record s) p).2.1.queue.holds.count b + gone.count b) ∧
      ((∃ o, (a.offer (.record s) p).1 = some o ∧ (a.offer (.record s) p).2.1.queue.waiting = a.queue.waiting) ∨
        ((a.offer (.record s) p).1 = none ∧ ∃ ticket,
          (a.offer (.record s) p).2.1.queue.waiting = a.queue.waiting ++ [(ticket, .record s)])) := by
  unfold offer Queue.offer
  by_cases hopen : a.queue.isOpen = true
  · by_cases hgone : a.queue.isGone = true
    · simp only [hopen, hgone, Bool.not_true, Bool.false_eq_true, if_false, if_true]
      exact ⟨_, Plant.store_discard .., fun b => rfl, .inl ⟨_, rfl, trivial⟩⟩
    · by_cases hfull : a.queue.isFull = true
      · simp only [hopen, hgone, hfull, Bool.not_true, Bool.false_eq_true, if_false, if_true]
        rcases overflow_cases a.queue (.record s) with ⟨-, heq⟩ | ⟨-, -, alerts, notices, heq⟩ | ⟨-, -, heq⟩
        · rw [heq]
          dsimp only
          rw [countDelivery_eq]
          refine ⟨_, ?_, fun b => rfl, .inl ⟨_, rfl, rfl⟩⟩
          unfold host
          rw [Plant.store_discard, Plant.store_reportAll]
          rfl
        · rw [heq]
          refine ⟨_, ?_, fun b => rfl, .inl ⟨_, rfl, rfl⟩⟩
          unfold host
          rw [Plant.store_discard, Plant.store_reportAll]
        · rw [heq]
          refine ⟨[], rfl, fun b => ?_, .inr ⟨rfl, _, rfl⟩⟩
          rw [Queue.count_holds, Queue.count_holds]
          dsimp only
          rw [List.map_append, handles_append, List.count_append]
          exact Nat.add_assoc ..
      · simp only [hopen, hgone, hfull, Bool.not_true, Bool.false_eq_true, if_false]
        refine ⟨[], rfl, fun b => ?_, .inl ⟨_, rfl, rfl⟩⟩
        rw [Queue.count_holds, Queue.count_holds]
        show _ = (handles (a.queue.pending ++ [.record s])).count b + (handles (inHand a.queue)).count b + _ + 0
        rw [handles_append, List.count_append]
        show _ = _ + (handles (a.queue.waiting.map (·.2))).count b + 0
        omega
  · simp only [hopen, Bool.not_false, if_true]
    exact ⟨_, Plant.store_discard .., fun b => rfl, .inl ⟨_, rfl, trivial⟩⟩

theorem askFlush_spec (q : Queue) :
    (∀ b, q.askFlush.2.holds.count b = q.holds.count b) ∧
      ∀ ticket s, (ticket, .record s) ∈ q.askFlush.2.waiting → (ticket, .record s) ∈ q.waiting := by
  unfold Queue.askFlush
  split
  · exact ⟨fun b => rfl, fun ticket s hmem => hmem⟩
  · dsimp only
    split
    · refine ⟨fun b => ?_, fun ticket s hmem => ?_⟩
      · rw [Queue.count_holds, Queue.count_holds]
        unfold Queue.wait
        dsimp only
        rw [List.map_append, handles_append, List.count_append]
        rfl
      · rcases List.mem_append.mp hmem with hold | hnew
        · exact hold
        · simp at hnew
    · refine ⟨fun b => ?_, fun ticket s hmem => hmem⟩
      rw [Queue.count_holds, Queue.count_holds]
      show (handles (q.pending ++ [.flush q.nextTicket])).count b + _ + _ = _
      rw [handles_append, List.count_append]
      rfl

/-- Nobody comes to wait by a move. -/
theorem waiting_move (a : Adapter) (p : Plant) (m : Move) : (a.move p m).1.queue.waiting ⊆ a.queue.waiting := by
  have herase : ∀ i, a.queue.waiting.eraseIdx i ⊆ a.queue.waiting := fun i _ hw => List.mem_of_mem_eraseIdx hw
  unfold move
  cases m with
  | enter i =>
    dsimp only [Queue.enter]
    split
    · exact List.Subset.refl _
    · split
      · exact List.Subset.refl _
      · split
        · exact herase i
        · exact herase i
  | giveUp i =>
    dsimp only
    split
    · dsimp only [Queue.giveUp, Queue.alertAndDrop]
      split
      · exact List.Subset.refl _
      · split
        · exact herase i
        · exact herase i
    · exact List.Subset.refl _
  | take =>
    rcases pull_cases a.queue with hnone | ⟨c, rest, -, -, hsome⟩
    · rw [hnone]
      exact List.Subset.refl _
    · rw [hsome]
      exact List.Subset.refl _
  | finish o =>
    cases a.queue.worker with
    | idle | finished | dead => exact List.Subset.refl _
    | busy c =>
      dsimp only [Host.settle, Host.clearOut]
      rw [Queue.waiting_clearOut]
      by_cases hends : c.endsWorker o = true
      · rw [settle_of_ends _ hends]
        exact List.nil_subset _
      · rw [Bool.not_eq_true] at hends
        rw [settle_of_lives _ hends]
        exact List.Subset.refl _
  | leave =>
    dsimp only
    split
    · cases (a.host.flush p).1 <;> exact List.Subset.refl _
    · exact List.Subset.refl _

theorem log_line (a : Adapter) (s : Snapshot) (p : Plant) :
    (∃ o, (a.log s p).1 = some o ∧ (a.log s p).2.1.queue.waiting = a.queue.waiting) ∨
      ((a.log s p).1 = none ∧ ∃ ticket,
        (a.log s p).2.1.queue.waiting = a.queue.waiting ++ [(ticket, .record s)]) := by
  unfold log
  split
  · obtain ⟨-, -, -, hline⟩ := a.offer_spec s { p with store := s.clone p.store }
    exact hline
  · exact .inl ⟨.done, rfl, rfl⟩

/-! ### The supply behind an adapter -/

section

variable {a : Adapter} {p : Plant} {σ : Supply} {held : Holdings}

theorem supplies_move (h : p.store.Supplies σ (held.moreAll a.queue.holds)) (m : Move) :
    (a.move p m).2.store.Supplies σ (held.moreAll (a.move p m).1.queue.holds) := by
  obtain ⟨gone, hstore, hcount⟩ := a.move_spec p m
  rw [hstore]
  refine Store.Supplies.releaseAll (h.of_eq fun b => ?_)
  have hb := hcount b
  simp only [Holdings.moreAll]
  omega

theorem supplies_log {s : Snapshot} (h : p.store.Supplies σ (held.moreAll a.queue.holds)) (hs : 0 < held s.buffer) :
    (a.log s p).2.2.store.Supplies σ (held.moreAll (a.log s p).2.1.queue.holds) := by
  unfold log
  split
  · have hpos : 0 < held.moreAll a.queue.holds s.buffer := Nat.lt_of_lt_of_le hs (Nat.le_add_right _ _)
    obtain ⟨gone, hstore, hcount, -⟩ := a.offer_spec s { p with store := s.clone p.store }
    rw [hstore]
    refine Store.Supplies.releaseAll ((h.clone hpos).of_eq fun b => ?_)
    have hb := hcount b
    have hone : (handles [.record s]).count b = if s.buffer = b then 1 else 0 := by
      simp [handles, Command.snapshot?, List.count_singleton]
    simp only [Holdings.moreAll, Holdings.more]
    omega
  · exact h

end

end Adapter

end Logbook
