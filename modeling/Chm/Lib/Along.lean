/-
Runs of a partial step function over a list of inputs whose states all keep a property.
-/
import Mathlib.Data.List.Basic

namespace Along

variable {σ ε : Type} {step : σ → ε → Option σ} {P Q : σ → Prop} {s s' s₁ : σ} {xs ys : List ε}

/-- The run over the inputs: the state behind them, if no step fails. -/
def run (step : σ → ε → Option σ) (s : σ) : List ε → Option σ
  | [] => some s
  | x :: xs => (step s x).bind fun s => run step s xs

/-- The inputs lead from a state to another one, and every state behind one of them is in `P`. -/
inductive Runs (step : σ → ε → Option σ) (P : σ → Prop) : σ → List ε → σ → Prop
  | nil (s : σ) : Runs step P s [] s
  | cons {s s₁ s' : σ} {x : ε} {xs : List ε} (hstep : step s x = some s₁) (hP : P s₁)
      (hruns : Runs step P s₁ xs s') : Runs step P s (x :: xs) s'

namespace Runs

theorem run_eq (h : Runs step P s xs s') : run step s xs = some s' := by
  induction h with
  | nil s => rfl
  | cons hstep _ _ ih => rw [run, hstep, Option.bind_some, ih]

theorem mono (h : Runs step P s xs s') (himp : ∀ s, P s → Q s) : Runs step Q s xs s' := by
  induction h with
  | nil s => exact nil s
  | cons hstep hP _ ih => exact cons hstep (himp _ hP) ih

theorem append (h : Runs step P s xs s₁) (h' : Runs step P s₁ ys s') :
    Runs step P s (xs ++ ys) s' := by
  induction h with
  | nil s => exact h'
  | cons hstep hP _ ih => exact cons hstep hP (ih h')

theorem single {x : ε} (hstep : step s x = some s') (hP : P s') : Runs step P s [x] s' :=
  cons hstep hP (nil s')

theorem split (h : Runs step P s (xs ++ ys) s') :
    ∃ s₁, Runs step P s xs s₁ ∧ Runs step P s₁ ys s' := by
  induction xs generalizing s with
  | nil => exact ⟨s, nil s, h⟩
  | cons x xs ih =>
    cases h with
    | cons hstep hP hruns =>
      obtain ⟨s₁, hpre, hpost⟩ := ih hruns
      exact ⟨s₁, cons hstep hP hpre, hpost⟩

/-- The last state of a run that is not empty is in `P`. -/
theorem last (h : Runs step P s xs s') (hne : xs ≠ []) : P s' := by
  induction h with
  | nil s => exact absurd rfl hne
  | cons hstep hP hruns ih =>
    cases hruns with
    | nil _ => exact hP
    | cons _ _ _ => exact ih (List.cons_ne_nil _ _)

end Runs

end Along
