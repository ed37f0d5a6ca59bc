/-
  LOOPS THAT STOP — a list of fallible steps, run until the first error.

  What every step keeps, the loop keeps, ALSO when it stops (`runSteps_keeps`).  `Guarded` says
  that every step of a run is taken in a state that allows it; `Guarded.invariant` is the induction
  over the run.
-/
import Mathlib

namespace Bpc

variable {σ α ε : Type}

/-- Run the steps; after an error stop, with what is left behind. -/
def runSteps (step : σ → α → σ × Option ε) : σ → List α → σ × Option ε
  | s, [] => (s, none)
  | s, a :: rest =>
    match (step s a).2 with
    | none => runSteps step (step s a).1 rest
    | some e => ((step s a).1, some e)

variable {step : σ → α → σ × Option ε} {s : σ} {a : α} {rest : List α}

theorem runSteps_cons_ok (h : (step s a).2 = none) :
    runSteps step s (a :: rest) = runSteps step (step s a).1 rest := by
  rw [runSteps, h]

theorem runSteps_cons_error {e : ε} (h : (step s a).2 = some e) :
    runSteps step s (a :: rest) = ((step s a).1, some e) := by
  rw [runSteps, h]

/-- What every step keeps, failed ones too, the loop keeps. -/
theorem runSteps_keeps {P : σ → Prop} :
    ∀ {as : List α} {s : σ}, (∀ a ∈ as, ∀ s, P s → P (step s a).1) → P s →
      P (runSteps step s as).1
  | [], _, _, h => h
  | a :: rest, s, hstep, h => by
    have hnext := hstep a (List.mem_cons_self ..) s h
    cases hs : (step s a).2 with
    | none =>
      rw [runSteps_cons_ok hs]
      exact runSteps_keeps (fun b hb => hstep b (List.mem_cons_of_mem _ hb)) hnext
    | some e =>
      rw [runSteps_cons_error hs]
      exact hnext

/-- Steps that cannot fail under the invariant: the loop reaches its end. -/
theorem runSteps_ok {P : σ → Prop} :
    ∀ {as : List α} {s : σ}, (∀ a ∈ as, ∀ s, P s → (step s a).2 = none ∧ P (step s a).1) → P s →
      (runSteps step s as).2 = none
  | [], _, _, _ => rfl
  | a :: rest, s, hstep, h => by
    obtain ⟨hs, h'⟩ := hstep a (List.mem_cons_self ..) s h
    rw [runSteps_cons_ok hs]
    exact runSteps_ok (fun b hb => hstep b (List.mem_cons_of_mem _ hb)) h'

/-- A loop without an error begins with a step without one. -/
theorem runSteps_head (h : (runSteps step s (a :: rest)).2 = none) :
    (step s a).2 = none ∧ runSteps step s (a :: rest) = runSteps step (step s a).1 rest := by
  cases hs : (step s a).2 with
  | none => exact ⟨rfl, runSteps_cons_ok hs⟩
  | some e =>
    rw [runSteps_cons_error hs] at h
    cases h

/-! ## Runs whose steps all meet a condition -/

/-- Every step is taken in a state that meets `ok`. -/
def Guarded (step : σ → α → σ) (ok : σ → α → Prop) : σ → List α → Prop
  | _, [] => True
  | s, a :: rest => ok s a ∧ Guarded step ok (step s a) rest

instance Guarded.decide (step : σ → α → σ) (ok : σ → α → Prop) [∀ s a, Decidable (ok s a)] :
    ∀ (s : σ) (as : List α), Decidable (Guarded step ok s as)
  | _, [] => .isTrue trivial
  | s, a :: rest =>
    have := Guarded.decide step ok (step s a) rest
    inferInstanceAs (Decidable (ok s a ∧ Guarded step ok (step s a) rest))

theorem Guarded.mono {step : σ → α → σ} {ok ok' : σ → α → Prop} (h : ∀ s a, ok s a → ok' s a) :
    ∀ {as : List α} {s : σ}, Guarded step ok s as → Guarded step ok' s as
  | [], _, _ => trivial
  | a :: _, s, hrun => ⟨h s a hrun.1, Guarded.mono h hrun.2⟩

/-- **The invariant rule** of guarded runs. -/
theorem Guarded.invariant {step : σ → α → σ} {ok : σ → α → Prop} {I : σ → Prop}
    (hstep : ∀ s a, I s → ok s a → I (step s a)) :
    ∀ (as : List α) {s : σ}, Guarded step ok s as → I s → I (as.foldl step s)
  | [], _, _, h => h
  | a :: rest, s, hrun, h => Guarded.invariant hstep rest hrun.2 (hstep s a h hrun.1)

end Bpc
