/-
Systems that take one step after the other.

A system has initial states and a step for each event that can happen in a state.  What is
reached when every step is one that `ok` allows keeps every invariant that the allowed steps
keep, and a list of events can be run to see where it leads.
-/
import Mathlib.Data.List.Basic

/-- A transition system: where it may begin, and the state after an event, if it can happen. -/
structure Steps (σ ε : Type*) where
  init : σ → Prop
  step : σ → ε → Option σ

namespace Steps

variable {σ ε : Type*} {sys : Steps σ ε} {ok : σ → ε → Bool} {s s' : σ}

/-- The states that allowed steps lead to. -/
inductive Reachable (sys : Steps σ ε) (ok : σ → ε → Bool) : σ → Prop
  | init {s : σ} : sys.init s → Reachable sys ok s
  | step {s s' : σ} (e : ε) :
      Reachable sys ok s → sys.step s e = some s' → ok s e = true → Reachable sys ok s'

/-- Every step is allowed. -/
def anyStep (_ : σ) (_ : ε) : Bool := true

theorem Reachable.invariant {P : σ → Prop} (h : Reachable sys ok s)
    (hinit : ∀ s, sys.init s → P s)
    (hstep : ∀ {s s' e}, P s → ok s e = true → sys.step s e = some s' → P s') : P s := by
  induction h with
  | init h => exact hinit _ h
  | step e _ hs hok ih => exact hstep ih hok hs

/-- The allowed events of a list, one after the other. -/
def run (sys : Steps σ ε) (ok : σ → ε → Bool) (s : σ) (events : List ε) : Option σ :=
  events.foldlM (fun s e => if ok s e then sys.step s e else none) s

theorem Reachable.run {events : List ε} (h : Reachable sys ok s)
    (hs : sys.run ok s events = some s') : Reachable sys ok s' := by
  induction events generalizing s with
  | nil =>
    obtain rfl := Option.some.inj hs
    exact h
  | cons e events ih =>
    obtain ⟨s₁, hs₁, hrun⟩ := Option.bind_eq_some_iff.mp hs
    dsimp only at hs₁
    split at hs₁
    · rename_i hok
      exact ih (.step e h hs₁ hok) hrun
    · cases hs₁

/-- A run that shows what it leads to. -/
theorem reached (sys : Steps σ ε) (ok : σ → ε → Bool) {α : Type*} {events : List ε} (f : σ → α)
    {a : α} (hinit : sys.init s) (hrun : (sys.run ok s events).map f = some a) :
    ∃ s', Reachable sys ok s' ∧ f s' = a := by
  obtain ⟨s', hs', ha⟩ := Option.map_eq_some_iff.mp hrun
  exact ⟨s', (Reachable.init hinit).run hs', ha⟩

end Steps
