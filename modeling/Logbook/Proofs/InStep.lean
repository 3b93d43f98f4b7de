import Logbook.Proofs.Pooling
import Mathlib.Data.List.Forall2

/-!
# Worlds in step

Two worlds whose queues hold snapshots of different entries go through the same steps, as long as their plants cannot
tell a snapshot of one from its counterpart in the other.
-/

namespace Logbook

open List (Forall₂)

/-- Which snapshots of two worlds belong together. -/
abbrev Pairing := Snapshot → Snapshot → Prop

variable {R : Pairing}

/-! ### Queues -/

inductive Command.InStep (R : Pairing) : Command → Command → Prop where
  | record {x y : Snapshot} (h : R x y) : InStep R (.record x) (.record y)
  | raw (bs : Bytes) : InStep R (.raw bs) (.raw bs)
  | flush (ticket : Nat) : InStep R (.flush ticket) (.flush ticket)

inductive Worker.InStep (R : Pairing) : Worker → Worker → Prop where
  | idle : InStep R .idle .idle
  | busy {c d : Command} (h : c.InStep R d) : InStep R (.busy c) (.busy d)
  | finished : InStep R .finished .finished
  | dead : InStep R .dead .dead

/-- Callers with the same ticket, and with commands that belong together. -/
def Command.InLine (R : Pairing) (x y : Nat × Command) : Prop := y.1 = x.1 ∧ x.2.InStep R y.2

inductive Queue.InStep (R : Pairing) : Queue → Queue → Prop where
  | mk {settings : QueueSettings} {isOpen joined : Bool} {pending pending' : List Command}
      {waiting waiting' : List (Nat × Command)} {worker worker' : Worker} {stats : QueueStats} {alerts : List Nat}
      {nextTicket : Nat} {answers : List (Nat × Outcome)} (hpending : Forall₂ (Command.InStep R) pending pending')
      (hwaiting : Forall₂ (Command.InLine R) waiting waiting') (hworker : worker.InStep R worker') :
    InStep R ⟨settings, isOpen, pending, waiting, worker, joined, stats, alerts, nextTicket, answers⟩
      ⟨settings, isOpen, pending', waiting', worker', joined, stats, alerts, nextTicket, answers⟩

theorem Command.InStep.isFlush_eq {c d : Command} (h : c.InStep R d) : d.isFlush = c.isFlush := by
  cases h <;> rfl

theorem Command.InStep.snapshot? {c d : Command} (h : c.InStep R d) : Option.Rel R c.snapshot? d.snapshot? := by
  cases h with
  | record h => exact .some h
  | raw bs => exact .none
  | flush ticket => exact .none

namespace Queue.InStep

variable {q r : Queue} {c d : Command}

theorem settings_eq (h : q.InStep R r) : r.settings = q.settings := by
  cases h
  rfl

theorem isOpen_eq (h : q.InStep R r) : r.isOpen = q.isOpen := by
  cases h
  rfl

theorem stats_eq (h : q.InStep R r) : r.stats = q.stats := by
  cases h
  rfl

theorem answer?_eq (h : q.InStep R r) (ticket : Nat) : r.answer? ticket = q.answer? ticket := by
  cases h
  rfl

theorem waiting (h : q.InStep R r) : Forall₂ (Command.InLine R) q.waiting r.waiting := by
  cases h
  assumption

theorem pending (h : q.InStep R r) : Forall₂ (Command.InStep R) q.pending r.pending := by
  cases h
  assumption

theorem setWaiting (h : q.InStep R r) {ws vs : List (Nat × Command)} (hw : Forall₂ (Command.InLine R) ws vs) :
    Queue.InStep R { q with waiting := ws } { r with waiting := vs } := by
  cases h with
  | mk hpending hwaiting hworker => exact .mk hpending hw hworker

theorem setPending (h : q.InStep R r) {cs ds : List Command} (hp : Forall₂ (Command.InStep R) cs ds) :
    Queue.InStep R { q with pending := cs } { r with pending := ds } := by
  cases h with
  | mk hpending hwaiting hworker => exact .mk hp hwaiting hworker

theorem setWorker (h : q.InStep R r) {x y : Worker} (hxy : x.InStep R y) :
    Queue.InStep R { q with worker := x } { r with worker := y } := by
  cases h with
  | mk hpending hwaiting hworker => exact .mk hpending hwaiting hxy

theorem addAnswers (h : q.InStep R r) (xs : List (Nat × Outcome)) :
    Queue.InStep R { q with answers := xs ++ q.answers } { r with answers := xs ++ r.answers } := by
  cases h with
  | mk hpending hwaiting hworker => exact .mk hpending hwaiting hworker

theorem setTicket (h : q.InStep R r) (n : Nat) :
    Queue.InStep R { q with nextTicket := n } { r with nextTicket := n } := by
  cases h with
  | mk hpending hwaiting hworker => exact .mk hpending hwaiting hworker

theorem setStats (h : q.InStep R r) (f : QueueStats → QueueStats) :
    Queue.InStep R { q with stats := f q.stats } { r with stats := f r.stats } := by
  cases h with
  | mk hpending hwaiting hworker => exact .mk hpending hwaiting hworker

theorem isFull_eq (h : q.InStep R r) : r.isFull = q.isFull := by
  unfold isFull
  rw [h.settings_eq, h.pending.length_eq]

theorem isGone_eq (h : q.InStep R r) : r.isGone = q.isGone := by
  cases h with
  | mk hpending hwaiting hworker => cases hworker <;> rfl

theorem enqueue (h : q.InStep R r) (hc : c.InStep R d) : (q.enqueue c).InStep R (r.enqueue d) := by
  cases h with
  | mk hpending hwaiting hworker =>
    unfold Queue.enqueue
    rw [hc.isFlush_eq]
    exact .mk (List.rel_append hpending (.cons hc .nil)) hwaiting hworker

theorem wait (h : q.InStep R r) (hc : c.InStep R d) : Same (InStep R) (q.wait c) (r.wait d) := by
  cases h with
  | mk hpending hwaiting hworker =>
    exact ⟨rfl, .mk hpending (List.rel_append hwaiting (.cons ⟨rfl, hc⟩ .nil)) hworker⟩

/-- The same notices, and queues in step. -/
def Told (R : Pairing) (x y : Queue × List Notice) : Prop := x.1.InStep R y.1 ∧ y.2 = x.2

theorem alertAndDrop (h : q.InStep R r) : Told R q.alertAndDrop r.alertAndDrop := by
  cases h with
  | mk hpending hwaiting hworker =>
    exact ⟨.mk hpending hwaiting hworker, rfl⟩

theorem overflow (hsame : ∀ {x y}, R x y → y.severity = x.severity) (h : q.InStep R r) (hc : c.InStep R d) :
    (r.overflow d).1 = (q.overflow c).1 ∧ Told R (q.overflow c).2 (r.overflow d).2 := by
  have hcritical : d.isCritical = c.isCritical := by
    cases hc with
    | record h => exact congrArg (fun severity => decide (Severity.error ≤ severity)) (hsame h)
    | raw bs => rfl
    | flush ticket => rfl
  have halert := h.alertAndDrop
  cases h with
  | mk hpending hwaiting hworker =>
    unfold Queue.overflow
    rw [hcritical]
    dsimp only
    split
    · exact ⟨rfl, .mk hpending hwaiting hworker, rfl⟩
    · split
      · exact ⟨rfl, .mk hpending hwaiting hworker, rfl⟩
      · exact ⟨rfl, halert⟩
      · exact ⟨rfl, .mk hpending (List.rel_append hwaiting (.cons ⟨rfl, hc⟩ .nil)) hworker, rfl⟩
      · exact ⟨rfl, .mk hpending (List.rel_append hwaiting (.cons ⟨rfl, hc⟩ .nil)) hworker, rfl⟩

theorem offer (hsame : ∀ {x y}, R x y → y.severity = x.severity) (h : q.InStep R r) (hc : c.InStep R d) :
    (r.offer d).1 = (q.offer c).1 ∧ Told R (q.offer c).2 (r.offer d).2 := by
  unfold Queue.offer
  rw [h.isOpen_eq, h.isGone_eq, h.isFull_eq, h.settings_eq]
  split
  · exact ⟨rfl, h, rfl⟩
  · split
    · exact ⟨rfl, h, rfl⟩
    · split
      · exact h.overflow hsame hc
      · exact ⟨rfl, h.enqueue hc, rfl⟩

theorem getElem? {α β : Type} {S : α → β → Prop} {as : List α} {bs : List β} (h : Forall₂ S as bs) (i : Nat) :
    Option.Rel S as[i]? bs[i]? := by
  induction h generalizing i with
  | nil => exact .none
  | cons hab _ ih =>
    cases i with
    | zero => exact .some hab
    | succ i => exact ih i

theorem eraseIdx {α β : Type} {S : α → β → Prop} {as : List α} {bs : List β} (h : Forall₂ S as bs) (i : Nat) :
    Forall₂ S (as.eraseIdx i) (bs.eraseIdx i) := by
  induction h generalizing i with
  | nil => exact .nil
  | cons hab hrest ih =>
    cases i with
    | zero => exact hrest
    | succ i => exact .cons hab (ih i)

theorem getLast? {α β : Type} {S : α → β → Prop} {as : List α} {bs : List β} (h : Forall₂ S as bs) :
    Option.Rel S as.getLast? bs.getLast? := by
  rw [List.getLast?_eq_getElem?, List.getLast?_eq_getElem?, h.length_eq]
  exact getElem? h _

theorem giveUp (h : q.InStep R r) (i : Nat) : Told R (q.giveUp i) (r.giveUp i) := by
  unfold Queue.giveUp
  rcases rel_cases (getElem? h.waiting i) with ⟨hq, hr⟩ | ⟨x, y, hq, hr, -, hxy⟩
  · rw [hq, hr]
    exact ⟨h, rfl⟩
  · have hleft := h.setWaiting (eraseIdx h.waiting i)
    rw [hq, hr]
    dsimp only
    rw [hxy.isFlush_eq]
    split
    · exact ⟨hleft, rfl⟩
    · exact hleft.alertAndDrop

theorem askFlush (h : q.InStep R r) : Same (InStep R) q.askFlush r.askFlush := by
  have hticket : r.nextTicket = q.nextTicket := by
    cases h
    rfl
  unfold Queue.askFlush
  rw [h.isGone_eq, h.isFull_eq, hticket]
  split
  · exact ⟨rfl, h⟩
  · dsimp only
    split
    · exact h.wait (.flush _)
    · exact ⟨rfl, (h.enqueue (.flush q.nextTicket)).setTicket _⟩

/-! ### The worker -/

theorem letIn (h : q.InStep R r) : q.letIn.InStep R r.letIn := by
  have hw := h.waiting
  unfold Queue.letIn
  generalize hq : q.waiting = ws at hw
  generalize hr : r.waiting = vs at hw
  cases hw with
  | nil => exact h
  | cons hxy hrest =>
    obtain ⟨hticket, hc⟩ := hxy
    have hin := (h.setWaiting hrest).enqueue hc
    dsimp only
    rw [h.isFull_eq, hc.isFlush_eq, hticket]
    split
    · exact h
    · split
      · exact hin
      · exact hin.addAnswers [_]

theorem take (h : q.InStep R r) :
    Option.Rel (fun x y => x.1.InStep R y.1 ∧ x.2.InStep R y.2) q.take r.take := by
  cases h with
  | mk hpending hwaiting hworker =>
    cases hworker with
    | idle =>
      cases hpending with
      | nil => exact .none
      | cons hc hrest => exact .some ⟨hc, letIn (.mk hrest hwaiting (.busy hc))⟩
    | busy hc => exact .none
    | finished => exact .none
    | dead => exact .none

theorem countDelivery (h : q.InStep R r) (o : Outcome) : Told R (q.countDelivery o) (r.countDelivery o) := by
  cases h with
  | mk hpending hwaiting hworker => cases o <;> exact ⟨.mk hpending hwaiting hworker, rfl⟩

theorem die (h : q.InStep R r) (hc : c.InStep R d) : (q.die c).InStep R (r.die d) := by
  have hbounced : bounced d = bounced c := by cases hc <;> rfl
  have htickets : ∀ {ws vs : List (Nat × Command)}, Forall₂ (Command.InLine R) ws vs →
      vs.map (fun w => (w.1, Outcome.failed .disconnected)) = ws.map fun w => (w.1, Outcome.failed .disconnected) := by
    intro ws vs hw
    induction hw with
    | nil => rfl
    | cons hxy _ ih => rw [List.map_cons, List.map_cons, ih, hxy.1]
  unfold Queue.die
  rw [hbounced, htickets h.waiting]
  exact ((h.setWorker .dead).setWaiting .nil).addAnswers _

theorem settle (h : q.InStep R r) (hc : c.InStep R d) (o : Outcome) : Told R (q.settle c o) (r.settle d o) := by
  have hidle := h.setWorker .idle
  cases hc with
  | record hxy => exact hidle.countDelivery o
  | raw bs =>
    cases o with
    | done => exact ⟨hidle, rfl⟩
    | failed e =>
      refine ⟨hidle.setStats fun s => { s with failures := s.failures + 1 }, ?_⟩
      show [Notice.rawFailed r.settings.name e] = [.rawFailed q.settings.name e]
      rw [h.settings_eq]
    | panicked p => exact ⟨hidle.die (.raw bs), rfl⟩
  | flush ticket =>
    cases o with
    | done => exact ⟨hidle.addAnswers [_], rfl⟩
    | failed e => exact ⟨hidle.addAnswers [_], rfl⟩
    | panicked p => exact ⟨hidle.die (.flush ticket), rfl⟩

theorem canLeave_eq (h : q.InStep R r) : r.canLeave = q.canLeave := by
  cases h with
  | mk hpending hwaiting hworker =>
    cases hworker with
    | idle => cases hpending <;> cases hwaiting <;> rfl
    | busy hc => rfl
    | finished => rfl
    | dead => rfl

theorem leave (h : q.InStep R r) (o : Outcome) : Told R (q.leave o) (r.leave o) := by
  cases o with
  | done => exact ⟨h.setWorker .finished, rfl⟩
  | failed e =>
    refine ⟨h.setWorker .finished, ?_⟩
    show [Notice.lastFlushFailed r.settings.name e] = [.lastFlushFailed q.settings.name e]
    rw [h.settings_eq]
  | panicked p => exact ⟨h.setWorker .dead, rfl⟩

theorem clearOut (h : q.InStep R r) :
    Forall₂ (Command.InStep R) q.clearOut.1 r.clearOut.1 ∧ q.clearOut.2.InStep R r.clearOut.2 := by
  have hlost : (!r.isOpen && r.isGone) = (!q.isOpen && q.isGone) := by rw [h.isOpen_eq, h.isGone_eq]
  unfold Queue.clearOut
  rw [hlost]
  split
  · exact ⟨h.pending, h.setPending .nil⟩
  · exact ⟨.nil, h⟩

end Queue.InStep

/-! ### Plants -/

/-- Plants that are related by `T` cannot tell snapshots apart that belong together. -/
structure Plant.Blurs (R : Pairing) (T : Plant → Plant → Prop) : Prop where
  severity : ∀ {x y}, R x y → y.severity = x.severity
  outlets : ∀ {p q}, T p q → q.outlets = p.outlets
  report : ∀ {p q}, T p q → ∀ n, T (p.report n) (q.report n)
  release : ∀ {p q}, T p q → ∀ {x y}, R x y → T (p.release x) (q.release y)
  clone : ∀ {p q}, T p q → ∀ {x y}, R x y →
    T { p with store := x.clone p.store } { q with store := y.clone q.store }
  log : ∀ {p q}, T p q → ∀ {x y}, R x y → ∀ onWorker id, Same T (p.log onWorker id x) (q.log onWorker id y)
  write : ∀ {p q}, T p q → ∀ onWorker id bs, Same T (p.write onWorker id bs) (q.write onWorker id bs)
  flush : ∀ {p q}, T p q → ∀ id, Same T (p.flush id) (q.flush id)
  letGo : ∀ {p q}, T p q → ∀ {id o outlets}, p.outlets.letGo id = some (o, outlets) →
    T { p with outlets := outlets } { q with outlets := outlets }

namespace Plant.Blurs

variable {T : Plant → Plant → Prop} {p q : Plant} (id : SinkId) {c d : Command} {queue queue' : Queue}

theorem perform (hb : Blurs R T) (h : T p q) (hc : c.InStep R d) :
    Same T ((host id).perform c p) ((host id).perform d q) := by
  cases hc with
  | record hxy => exact hb.log h hxy true id
  | raw bs => exact hb.write h true id bs
  | flush ticket =>
    obtain ⟨hanswer, hstate⟩ := hb.flush h id
    exact ⟨congrArg some hanswer, hstate⟩

theorem reportAll (hb : Blurs R T) (h : T p q) (notices : List Notice) :
    T ((host id).reportAll notices p) ((host id).reportAll notices q) := by
  unfold Host.reportAll
  induction notices generalizing p q with
  | nil => exact h
  | cons n rest ih => exact ih (hb.report h n)

theorem discard (hb : Blurs R T) (h : T p q) {cs ds : List Command} (hcs : Forall₂ (Command.InStep R) cs ds) :
    T ((host id).discard cs p) ((host id).discard ds q) := by
  have hsnapshots : Forall₂ R (cs.filterMap (·.snapshot?)) (ds.filterMap (·.snapshot?)) :=
    List.rel_filterMap (fun _ _ hc => hc.snapshot?) hcs
  refine List.rel_foldl (P := T) (R := R) ?_ h hsnapshots
  exact fun _ _ h _ _ hxy => hb.release h hxy

/-- Queues in step, and plants that are related. -/
def Both (R : Pairing) (T : Plant → Plant → Prop) (x y : Queue × Plant) : Prop := x.1.InStep R y.1 ∧ T x.2 y.2

theorem settle (hb : Blurs R T) (h : T p q) (hq : queue.InStep R queue') (hc : c.InStep R d) (o : Outcome) :
    Both R T ((host id).settle c o queue p) ((host id).settle d o queue' q) := by
  obtain ⟨hafter, hnotices⟩ := hq.settle hc o
  have hbounced : Forall₂ (Command.InStep R) (if (queue.settle c o).1.isGone then queue.waiting.map (·.2) else [])
      (if (queue'.settle d o).1.isGone then queue'.waiting.map (·.2) else []) := by
    rw [hafter.isGone_eq]
    split
    · exact List.rel_map (fun _ _ hxy => hxy.2) hq.waiting
    · exact .nil
  obtain ⟨hleft, hcleared⟩ := hafter.clearOut
  unfold Host.settle Host.clearOut
  dsimp only
  rw [hnotices]
  exact ⟨hcleared, hb.discard id (hb.discard id (hb.reportAll id h _) (.cons hc hbounced)) hleft⟩

theorem step? (hb : Blurs R T) (h : T p q) (hq : queue.InStep R queue') :
    Option.Rel (Both R T) ((host id).step? queue p) ((host id).step? queue' q) := by
  unfold Host.step?
  rcases rel_cases hq.take with ⟨hx, hy⟩ | ⟨x, y, hx, hy, hc, htaken⟩
  · rw [hx, hy]
    dsimp only
    rw [hq.canLeave_eq]
    split
    · obtain ⟨hanswer, hstate⟩ := hb.flush h id
      have hflush : ((host id).flush q).1 = ((host id).flush p).1 := hanswer
      rw [hflush]
      obtain ⟨hleft, hnotices⟩ := hq.leave ((host id).flush p).1
      rw [hnotices]
      exact .some ⟨hleft, hb.reportAll id hstate _⟩
    · exact .none
  · obtain ⟨o, p', q', hp, hq', hstate⟩ := (hb.perform id h hc).exists_eq
    rw [hx, hy]
    dsimp only
    rw [hp, hq']
    cases o with
    | none => exact .some ⟨htaken, hstate⟩
    | some o => exact .some (hb.settle id hstate htaken hc o)

theorem run (hb : Blurs R T) (fuel : Nat) (h : T p q) (hq : queue.InStep R queue') :
    Both R T ((host id).run fuel queue p) ((host id).run fuel queue' q) := by
  induction fuel generalizing queue queue' p q with
  | zero => exact ⟨hq, h⟩
  | succ fuel ih =>
    rw [Host.run, Host.run]
    rcases rel_cases (hb.step? id h hq) with ⟨hx, hy⟩ | ⟨x, y, hx, hy, hqueue, hstate⟩
    · rw [hx, hy]
      exact ⟨hq, h⟩
    · rw [hx, hy]
      exact ih hstate hqueue

theorem drain (hb : Blurs R T) (h : T p q) (hq : queue.InStep R queue') :
    Both R T ((host id).drain queue p) ((host id).drain queue' q) := by
  unfold Host.drain
  rw [hq.pending.length_eq, hq.waiting.length_eq]
  exact hb.run id _ h hq

end Plant.Blurs

/-! ### Adapters -/

inductive Adapter.InStep (R : Pairing) : Adapter → Adapter → Prop where
  | mk {gate : Gate} {formatter : FormatterId} {inner : SinkId} {q r : Queue} (h : q.InStep R r) :
    InStep R ⟨gate, formatter, inner, q⟩ ⟨gate, formatter, inner, r⟩

namespace Adapter.InStep

variable {T : Plant → Plant → Prop} {p q : Plant} {a b : Adapter} {c d : Command} {x y : Snapshot}

/-- Adapters in step, and plants that are related. -/
def Both (R : Pairing) (T : Plant → Plant → Prop) (x y : Adapter × Plant) : Prop := x.1.InStep R y.1 ∧ T x.2 y.2

theorem queue (h : a.InStep R b) : a.queue.InStep R b.queue := by
  cases h
  assumption

theorem drain (hb : Plant.Blurs R T) (h : a.InStep R b) (hp : T p q) : Both R T (a.drain p) (b.drain q) := by
  cases h with
  | mk h =>
    obtain ⟨hqueue, hplant⟩ := hb.drain _ hp h
    exact ⟨.mk hqueue, hplant⟩

theorem work (hb : Plant.Blurs R T) (h : a.InStep R b) (hp : T p q) : Both R T (a.work p) (b.work q) := by
  cases h with
  | @mk _ _ inner _ _ h =>
    unfold Adapter.work host
    dsimp only
    rcases rel_cases (hb.step? inner hp h) with ⟨hx, hy⟩ | ⟨x, y, hx, hy, hqueue, hplant⟩
    · rw [hx, hy]
      exact ⟨.mk h, hp⟩
    · rw [hx, hy]
      exact ⟨.mk hqueue, hplant⟩

theorem offer (hb : Plant.Blurs R T) (h : a.InStep R b) (hc : c.InStep R d) (hp : T p q) :
    Same (Both R T) (a.offer c p) (b.offer d q) := by
  cases h with
  | @mk _ _ inner queue queue' h =>
    obtain ⟨hadmission, hqueue, hnotices⟩ := h.offer hb.severity hc
    have hreported := hb.reportAll inner hp (queue.offer c).2.2
    unfold Adapter.offer host
    dsimp only
    rw [hadmission, hnotices]
    cases (queue.offer c).1 with
    | accepted => exact ⟨rfl, .mk hqueue, hreported⟩
    | waits ticket => exact ⟨rfl, .mk hqueue, hreported⟩
    | dropped => exact ⟨rfl, .mk hqueue, hb.discard inner hreported (.cons hc .nil)⟩
    | refused e => exact ⟨rfl, .mk hqueue, hb.discard inner hreported (.cons hc .nil)⟩
    | preserved =>
      cases hc with
      | raw bs => exact ⟨rfl, .mk hqueue, hreported⟩
      | flush ticket => exact ⟨rfl, .mk hqueue, hreported⟩
      | record hxy =>
        obtain ⟨hanswer, hlogged⟩ := hb.log hreported hxy false inner
        dsimp only
        rw [hanswer]
        obtain ⟨hcounted, htold⟩ := hqueue.countDelivery ((Plant.log _ false inner _).1.getD .done)
        rw [htold]
        exact ⟨rfl, .mk hcounted, hb.discard inner (hb.reportAll inner hlogged _) (.cons (.record hxy) .nil)⟩

theorem log (hb : Plant.Blurs R T) (h : a.InStep R b) (hxy : R x y) (hp : T p q) :
    Same (Both R T) (a.log x p) (b.log y q) := by
  have hgate : b.gate = a.gate := by
    cases h
    rfl
  unfold Adapter.log
  rw [hgate, hb.severity hxy]
  split
  · exact h.offer hb (.record hxy) (hb.clone hp hxy)
  · exact ⟨rfl, h, hp⟩

theorem expire (hb : Plant.Blurs R T) (h : a.InStep R b) (hp : T p q) :
    Option.Rel (Both R T) (a.expire p) (b.expire q) := by
  cases h with
  | @mk _ _ inner queue queue' h =>
    obtain ⟨hqueue, hnotices⟩ := h.giveUp (queue.waiting.length - 1)
    unfold Adapter.expire host
    dsimp only
    rw [h.settings_eq, ← h.waiting.length_eq, hnotices]
    rcases rel_cases (Queue.InStep.getLast? h.waiting) with ⟨hx, hy⟩ | ⟨x, y, hx, hy, -, hc⟩
    · rw [hx, hy]
      cases queue.settings.policy <;> exact .none
    · rw [hx, hy]
      cases queue.settings.policy with
      | blockFor timeout => exact .some ⟨.mk hqueue, hb.discard inner (hb.reportAll inner hp _) (.cons hc .nil)⟩
      | block => exact .none
      | dropNewest => exact .none
      | alertAndDrop => exact .none

theorem flush (hb : Plant.Blurs R T) (h : a.InStep R b) (hp : T p q) :
    Same (Both R T) (a.flush Adapter.drain p) (b.flush Adapter.drain q) := by
  cases h with
  | @mk gate formatter inner queue queue' h =>
    unfold Adapter.flush
    dsimp only
    rw [h.isOpen_eq, h.settings_eq, h.isFull_eq]
    split
    · obtain ⟨hadmission, hasked⟩ := h.askFlush
      have hbegun : Adapter.InStep R ⟨gate, formatter, inner, queue.askFlush.2⟩
          ⟨gate, formatter, inner, queue'.askFlush.2⟩ := .mk hasked
      obtain ⟨hdrained, hplant⟩ := hbegun.drain hb hp
      rw [hadmission]
      generalize Adapter.drain ⟨gate, formatter, inner, queue.askFlush.2⟩ p = x at hdrained hplant
      generalize Adapter.drain ⟨gate, formatter, inner, queue'.askFlush.2⟩ q = y at hdrained hplant
      obtain ⟨a', p'⟩ := x
      obtain ⟨b', q'⟩ := y
      dsimp only at hdrained hplant ⊢
      cases queue.askFlush.1 with
      | accepted => exact ⟨rfl, hdrained, hplant⟩
      | preserved => exact ⟨rfl, hdrained, hplant⟩
      | dropped => exact ⟨rfl, hdrained, hplant⟩
      | refused e => exact ⟨rfl, hdrained, hplant⟩
      | waits ticket =>
        dsimp only
        rw [hdrained.queue.answer?_eq, ← hdrained.queue.waiting.length_eq]
        cases a'.queue.answer? ticket with
        | some o => exact ⟨rfl, hdrained, hplant⟩
        | none =>
          dsimp only
          split
          · cases hdrained with
            | mk hqueue => exact ⟨rfl, .mk (hqueue.giveUp _).1, hplant⟩
          · exact ⟨rfl, hdrained, hplant⟩
    · obtain ⟨hanswer, hplant⟩ := hb.flush hp inner
      exact ⟨hanswer, .mk h, hplant⟩

end Adapter.InStep

/-! ### Worlds -/

namespace World

/-- Adapters in step, the same loggers, and plants that are related. -/
structure InStep (R : Pairing) (T : Plant → Plant → Prop) (w v : World) : Prop where
  plant : T w.plant v.plant
  adapters : ∀ id, Option.Rel (Adapter.InStep R) (w.adapters.get? id) (v.adapters.get? id)
  loggers : v.loggers = w.loggers

namespace InStep

variable {T : Plant → Plant → Prop} {w v : World} {x y : Snapshot}

theorem withAdapter {α : Type} (h : InStep R T w v) (id : AdapterId) (missing : α)
    {f g : Adapter → Plant → α × Adapter × Plant}
    (hact : ∀ a b p q, a.InStep R b → T p q → Same (Adapter.InStep.Both R T) (f a p) (g b q)) :
    Same (InStep R T) (w.withAdapter id missing f) (v.withAdapter id missing g) := by
  unfold World.withAdapter
  rcases rel_cases (h.adapters id) with ⟨hw, hv⟩ | ⟨a, b, hw, hv, hab⟩
  · rw [hw, hv]
    exact ⟨rfl, h⟩
  · rw [hw, hv]
    obtain ⟨hanswer, hadapter, hplant⟩ := hact a b _ _ hab h.plant
    refine ⟨hanswer, hplant, fun key => ?_, h.loggers⟩
    dsimp only
    rw [Table.get?_set, Table.get?_set]
    split
    · rename_i hkey
      rw [hkey, hw, hv]
      exact .some hadapter
    · exact h.adapters key

theorem report (hb : Plant.Blurs R T) (h : InStep R T w v) (n : Notice) : InStep R T (w.report n) (v.report n) :=
  ⟨hb.report h.plant n, h.adapters, h.loggers⟩

theorem modifyLogger (h : InStep R T w v) (l : LoggerId) (f : Logger → Logger) :
    InStep R T (w.modifyLogger l f) (v.modifyLogger l f) :=
  ⟨h.plant, h.adapters, congrArg (·.modify l f) h.loggers⟩

theorem work (hb : Plant.Blurs R T) (h : InStep R T w v) (id : AdapterId) : InStep R T (w.work id) (v.work id) := by
  refine (h.withAdapter (f := fun a p => ((), a.work p)) (g := fun a p => ((), a.work p)) id () ?_).2
  exact fun _ _ _ _ hab hp => ⟨rfl, hab.work hb hp⟩

theorem drainOne (hb : Plant.Blurs R T) (h : InStep R T w v) (id : AdapterId) :
    InStep R T (w.drainOne id) (v.drainOne id) := by
  refine (h.withAdapter (f := fun a p => ((), a.drain p)) (g := fun a p => ((), a.drain p)) id () ?_).2
  exact fun _ _ _ _ hab hp => ⟨rfl, hab.drain hb hp⟩

theorem pace (hb : Plant.Blurs R T) (h : InStep R T w v) (schedule : Schedule) (sink : SinkRef) :
    InStep R T (schedule.pace sink w) (schedule.pace sink v) := by
  unfold Schedule.pace
  induction schedule sink generalizing w v with
  | nil => exact h
  | cons id rest ih => exact ih (h.work hb id)

theorem sinkName_eq (hb : Plant.Blurs R T) (h : InStep R T w v) (sink : SinkRef) :
    v.sinkName sink = w.sinkName sink := by
  cases sink with
  | direct id =>
    unfold sinkName
    rw [hb.outlets h.plant]
  | queued id =>
    unfold sinkName
    dsimp only
    rcases rel_cases (h.adapters id) with ⟨hw, hv⟩ | ⟨a, b, hw, hv, hab⟩
    · rw [hw, hv]
    · rw [hw, hv]
      exact congrArg QueueSettings.name hab.queue.settings_eq

theorem answer?_eq (h : InStep R T w v) (id : AdapterId) (ticket : Nat) :
    v.answer? id ticket = w.answer? id ticket := by
  unfold answer?
  rcases rel_cases (h.adapters id) with ⟨hw, hv⟩ | ⟨a, b, hw, hv, hab⟩
  · rw [hw, hv]
  · rw [hw, hv]
    exact hab.queue.answer?_eq ticket

theorem lastTicket?_eq (h : InStep R T w v) (sink : SinkRef) : v.lastTicket? sink = w.lastTicket? sink := by
  cases sink with
  | direct id => rfl
  | queued id =>
    unfold lastTicket?
    dsimp only
    rcases rel_cases (h.adapters id) with ⟨hw, hv⟩ | ⟨a, b, hw, hv, hab⟩
    · rw [hw, hv]
    · rw [hw, hv]
      simp only [Option.bind_eq_bind, Option.bind_some]
      rcases rel_cases (Queue.InStep.getLast? hab.queue.waiting) with ⟨hx, hy⟩ | ⟨x, y, hx, hy, hticket, -⟩
      · rw [hx, hy]
      · rw [hx, hy]
        exact congrArg (fun ticket => some (id, ticket)) hticket

theorem logSink (hb : Plant.Blurs R T) (h : InStep R T w v) (hxy : R x y) (sink : SinkRef) :
    Same (InStep R T) (w.logSink sink x) (v.logSink sink y) := by
  cases sink with
  | direct id =>
    obtain ⟨hanswer, hplant⟩ := hb.log h.plant hxy false id
    exact ⟨hanswer, hplant, h.adapters, h.loggers⟩
  | queued id => exact h.withAdapter id (some .done) fun _ _ _ _ hab hp => hab.log hb hxy hp

theorem flushSink (hb : Plant.Blurs R T) (h : InStep R T w v) (sink : SinkRef) :
    Same (InStep R T) (w.flushSink sink) (v.flushSink sink) := by
  cases sink with
  | direct id =>
    obtain ⟨hanswer, hplant⟩ := hb.flush h.plant id
    exact ⟨hanswer, hplant, h.adapters, h.loggers⟩
  | queued id => exact h.withAdapter id .done fun _ _ _ _ hab hp => hab.flush hb hp

theorem expire (hb : Plant.Blurs R T) (h : InStep R T w v) (sink : SinkRef) :
    Same (InStep R T) (w.expire sink) (v.expire sink) := by
  cases sink with
  | direct id => exact ⟨rfl, h⟩
  | queued id =>
    refine h.withAdapter id none fun a b p q hab hp => ?_
    rcases rel_cases (hab.expire hb hp) with ⟨hx, hy⟩ | ⟨x, y, hx, hy, hexpired⟩
    · rw [hx, hy]
      exact ⟨rfl, hab, hp⟩
    · rw [hx, hy]
      exact ⟨rfl, hexpired⟩

theorem letGo (hb : Plant.Blurs R T) (h : InStep R T w v) (id : AdapterId) :
    Same (InStep R T) (w.letGo id) (v.letGo id) := by
  refine h.withAdapter id false fun a b p q hab hp => ?_
  cases hab with
  | @mk _ _ inner queue queue' hqueue =>
    have hworker : queue.worker.InStep R queue'.worker := by
      cases hqueue
      assumption
    dsimp only
    rw [hb.outlets hp]
    generalize queue.worker = x at hworker
    generalize queue'.worker = y at hworker
    cases hworker with
    | busy hc =>
      cases hgo : p.outlets.letGo inner with
      | none => exact ⟨rfl, .mk hqueue, hp⟩
      | some gone =>
        obtain ⟨hsettled, hplant⟩ := hb.settle inner (hb.letGo hp hgo) hqueue hc gone.1
        exact ⟨rfl, .mk hsettled, hplant⟩
    | idle => exact ⟨rfl, .mk hqueue, hp⟩
    | finished => exact ⟨rfl, .mk hqueue, hp⟩
    | dead => exact ⟨rfl, .mk hqueue, hp⟩

theorem await (hb : Plant.Blurs R T) (h : InStep R T w v) (schedule : Schedule) (sink : SinkRef) :
    Same (InStep R T) (w.await (schedule.pace sink) sink) (v.await (schedule.pace sink) sink) := by
  have hpaced := h.pace hb schedule sink
  unfold World.await
  rw [h.lastTicket?_eq]
  cases w.lastTicket? sink with
  | none => exact ⟨rfl, hpaced⟩
  | some last =>
    obtain ⟨id, ticket⟩ := last
    dsimp only
    rw [hpaced.answer?_eq]
    cases (schedule.pace sink w).answer? id ticket with
    | some outcome => exact ⟨rfl, hpaced⟩
    | none =>
      obtain ⟨o, w', v', hx, hy, hexpired⟩ := (hpaced.expire hb sink).exists_eq
      dsimp only
      rw [hx, hy]
      cases o with
      | some outcome => exact ⟨rfl, hexpired⟩
      | none =>
        have hdrained := hexpired.drainOne hb id
        dsimp only
        rw [hdrained.answer?_eq]
        exact ⟨rfl, hdrained⟩

theorem call (hb : Plant.Blurs R T) (h : InStep R T w v) (hxy : R x y) (schedule : Schedule) (sink : SinkRef) :
    Same (InStep R T) ((logDesk schedule.pace x).call sink w) ((logDesk schedule.pace y).call sink v) := by
  obtain ⟨o, w', v', hx, hy, hlogged⟩ := (h.logSink hb hxy sink).exists_eq
  unfold logDesk
  dsimp only
  rw [hx, hy]
  cases o with
  | some outcome => exact ⟨rfl, hlogged.pace hb schedule sink⟩
  | none => exact hlogged.await hb schedule sink

theorem fanOut (hb : Plant.Blurs R T) (h : InStep R T w v) (hxy : R x y) (schedule : Schedule) (logger : String)
    (sinks : List SinkRef) :
    Same (InStep R T) (Logger.fanOut (logDesk schedule.pace x) logger sinks w)
      (Logger.fanOut (logDesk schedule.pace y) logger sinks v) := by
  induction sinks generalizing w v with
  | nil => exact ⟨rfl, h⟩
  | cons sink rest ih =>
    obtain ⟨o, w', v', hx, hy, hcalled⟩ := (h.call hb hxy schedule sink).exists_eq
    rw [Logger.fanOut, Logger.fanOut, hx, hy]
    dsimp only [logDesk]
    rw [hcalled.sinkName_eq hb sink]
    cases Logger.notice? logger (w'.sinkName sink) o with
    | none => exact ih hcalled
    | some n =>
      obtain ⟨hfailures, hend⟩ := ih (hcalled.report hb n)
      exact ⟨congrArg (· + 1) hfailures, hend⟩

theorem dispatch (hb : Plant.Blurs R T) (h : InStep R T w v) (hxy : R x y) (schedule : Schedule) (l : LoggerId) :
    InStep R T (w.dispatch schedule.pace l x) (v.dispatch schedule.pace l y) := by
  unfold World.dispatch
  rw [h.loggers]
  cases w.loggers.get? l with
  | none => exact h
  | some logger =>
    obtain ⟨hfailures, hcalled⟩ := h.fanOut hb hxy schedule logger.name logger.sinks
    dsimp only
    rw [hfailures]
    exact hcalled.modifyLogger l _

theorem flushLogger (hb : Plant.Blurs R T) (h : InStep R T w v) (l : LoggerId) :
    Same (InStep R T) (w.flushLogger l) (v.flushLogger l) := by
  have hdesk : flushDesk.Respects (InStep R T) :=
    ⟨fun sink _ _ h => h.flushSink hb sink, fun sink _ _ h => h.sinkName_eq hb sink, fun n _ _ h => h.report hb n⟩
  unfold World.flushLogger
  rw [h.loggers]
  cases w.loggers.get? l with
  | none => exact ⟨rfl, h⟩
  | some logger => exact hdesk.flushAll logger.sinks h

end InStep

end World

end Logbook
