/-
Readers that take items from the front of a list.

A reader goes from state to state over items and may end, leaving the items behind.  What it does
with some items is told without the ones behind them: it fails, or it goes on in another state.
-/
import Mathlib.Data.List.Basic

namespace Readers

variable {σ ε ρ : Type} {read : σ → List ε → Option (ρ × List ε)} {P Q : σ → Prop} {s : σ}
  {xs ys : List ε}

/-- The reader fails at the items, or it goes on behind them in a state of `P`. -/
def Passes (read : σ → List ε → Option (ρ × List ε)) (P : σ → Prop) (s : σ) (xs : List ε) : Prop :=
  (∀ rest, read s (xs ++ rest) = none) ∨ ∃ s', P s' ∧ ∀ rest, read s (xs ++ rest) = read s' rest

/-- The reader fails at the items, or it ends behind them. -/
def Ends (read : σ → List ε → Option (ρ × List ε)) (s : σ) (xs : List ε) : Prop :=
  (∀ rest, read s (xs ++ rest) = none) ∨ ∃ r, ∀ rest, read s (xs ++ rest) = some (r, rest)

theorem Passes.nil (hP : P s) : Passes read P s [] := Or.inr ⟨s, hP, fun _ => rfl⟩

theorem Passes.append (h : Passes read P s xs) (h' : ∀ s', P s' → Passes read Q s' ys) :
    Passes read Q s (xs ++ ys) := by
  rcases h with hfail | ⟨s', hP, hgo⟩
  · exact Or.inl fun rest => by rw [List.append_assoc, hfail]
  · rcases h' s' hP with hfail | ⟨s'', hQ, hgo'⟩
    · exact Or.inl fun rest => by rw [List.append_assoc, hgo, hfail]
    · exact Or.inr ⟨s'', hQ, fun rest => by rw [List.append_assoc, hgo, hgo']⟩

theorem Passes.ends (h : Passes read P s xs) (h' : ∀ s', P s' → Ends read s' ys) :
    Ends read s (xs ++ ys) := by
  rcases h with hfail | ⟨s', hP, hgo⟩
  · exact Or.inl fun rest => by rw [List.append_assoc, hfail]
  · rcases h' s' hP with hfail | ⟨r, hend⟩
    · exact Or.inl fun rest => by rw [List.append_assoc, hgo, hfail]
    · exact Or.inr ⟨r, fun rest => by rw [List.append_assoc, hgo, hend]⟩

end Readers
