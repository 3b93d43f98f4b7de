/-!
# Scripts

A script is a list of steps; running it gives one answer for each step.
-/

namespace Logbook.Script

/-- Run steps from a state, with the answers put in front of `done` in reverse. -/
def runOnto {σ ι α : Type} (step : σ → ι → α × σ) (done : List α) : σ → List ι → List α × σ
  | state, [] => (done, state)
  | state, i :: rest =>
    let (answer, state) := step state i
    runOnto step (answer :: done) state rest

/-- The answers of a script in order, and the state behind it. -/
def run {σ ι α : Type} (step : σ → ι → α × σ) (state : σ) (steps : List ι) : List α × σ :=
  let (done, state) := runOnto step [] state steps
  (done.reverse, state)

variable {σ ι α : Type} (step : σ → ι → α × σ)

theorem runOnto_eq (done : List α) (state : σ) (steps : List ι) :
    runOnto step done state steps =
      ((runOnto step [] state steps).1 ++ done, (runOnto step [] state steps).2) := by
  induction steps generalizing done state with
  | nil => rfl
  | cons i rest ih =>
    have hdone := ih ((step state i).1 :: done) (step state i).2
    have hone := ih [(step state i).1] (step state i).2
    simp only [runOnto, hdone, hone, List.append_assoc, List.singleton_append]

theorem run_cons (state : σ) (i : ι) (rest : List ι) :
    run step state (i :: rest) =
      ((step state i).1 :: (run step (step state i).2 rest).1, (run step (step state i).2 rest).2) := by
  simp only [run, runOnto]
  rw [runOnto_eq]
  simp only [List.reverse_append, List.reverse_singleton, List.singleton_append]

end Logbook.Script
