/-
Loops that try again.

A turn of such a loop ends it or leaves the state of the next turn; what the `n`-th turn meets
outside is part of `turn n`.  When a turn that is let through takes one from what is left and
another one takes nothing, the loop ends exactly if enough turns are let through:
`Countdown.terminates_iff`.
-/
import Mathlib.Data.Nat.Count

namespace Retry

variable {σ β : Type*} {turn : Nat → σ → β ⊕ σ} {n : Nat} {s s' : σ} {b : β}

/-- The loop from its `n`-th turn on, with the number of turns that it may take. -/
def run (turn : Nat → σ → β ⊕ σ) : Nat → Nat → σ → Option β
  | 0, _, _ => none
  | fuel + 1, n, s =>
    match turn n s with
    | .inl b => some b
    | .inr s' => run turn fuel (n + 1) s'

def Terminates (turn : Nat → σ → β ⊕ σ) (n : Nat) (s : σ) : Prop :=
  ∃ fuel, (run turn fuel n s).isSome = true

theorem terminates_of_inl (h : turn n s = .inl b) : Terminates turn n s := by
  refine ⟨1, ?_⟩
  rw [run, h]
  rfl

theorem terminates_of_inr (h : turn n s = .inr s') :
    Terminates turn n s ↔ Terminates turn (n + 1) s' := by
  constructor
  · rintro ⟨fuel, hrun⟩
    cases fuel with
    | zero => cases hrun
    | succ fuel =>
      rw [run, h] at hrun
      exact ⟨fuel, hrun⟩
  · rintro ⟨fuel, hrun⟩
    refine ⟨fuel + 1, ?_⟩
    rw [run, h]
    exact hrun

/-- A loop whose turns leave the state as it is does not end. -/
theorem not_terminates_of_stuck (h : ∀ n, turn n s = .inr s) : ¬Terminates turn n s := by
  rintro ⟨fuel, hrun⟩
  induction fuel generalizing n with
  | zero => cases hrun
  | succ fuel ih =>
    rw [run, h] at hrun
    exact ih hrun

/-- A loop ends when each turn that does not end it lowers a rank. -/
theorem terminates_of_rank {Inv : σ → Prop} (rank : σ → Nat)
    (hstep : ∀ n s s', Inv s → turn n s = .inr s' → Inv s' ∧ rank s' < rank s) (hinv : Inv s) :
    Terminates turn n s := by
  suffices hrank : ∀ k n s, rank s < k → Inv s → Terminates turn n s from
    hrank (rank s + 1) n s (Nat.lt_succ_self _) hinv
  intro k
  induction k with
  | zero => exact fun _ _ hlt _ => absurd hlt (Nat.not_lt_zero _)
  | succ k ih =>
    intro n s hlt hs
    cases hturn : turn n s with
    | inl b => exact terminates_of_inl hturn
    | inr s' =>
      obtain ⟨hs', hdrop⟩ := hstep n s s' hs hturn
      exact (terminates_of_inr hturn).mpr (ih (n + 1) s' (by omega) hs')

/-- What is left counts the turns that are to be let through; nothing is left of it when no
number of them is enough. -/
structure Countdown (turn : Nat → σ → β ⊕ σ) (lets : Nat → Prop) (left : σ → Option Nat)
    (Inv : σ → Prop) : Prop where
  ends : ∀ {n s}, Inv s → ((∃ b, turn n s = .inl b) ↔ left s = some 0)
  kept : ∀ {n s s'}, Inv s → turn n s = .inr s' → Inv s'
  passed : ∀ {n s s'}, Inv s → lets n → turn n s = .inr s' →
    left s' = (left s).map fun k => k - 1
  failed : ∀ {n s s'}, Inv s → ¬lets n → turn n s = .inr s' → left s' = left s

namespace Countdown

variable {lets : Nat → Prop} {left : σ → Option Nat} {Inv : σ → Prop}

theorem enough_of_run [DecidablePred lets] (h : Countdown turn lets left Inv) (fuel : Nat) :
    ∀ n s, Inv s → (run turn fuel n s).isSome = true →
      ∃ k, left s = some k ∧ ∃ N, k ≤ Nat.count (fun i => lets (n + i)) N := by
  induction fuel with
  | zero =>
    intro n s _ hrun
    cases hrun
  | succ fuel ih =>
    intro n s hs hrun
    cases hturn : turn n s with
    | inl b => exact ⟨0, (h.ends hs).mp ⟨b, hturn⟩, 0, Nat.zero_le _⟩
    | inr s' =>
      rw [run, hturn] at hrun
      obtain ⟨k, hk, N, hN⟩ := ih (n + 1) s' (h.kept hs hturn) hrun
      have hcount := Nat.count_succ' (fun i => lets (n + i)) N
      simp only [Nat.add_zero, ← Nat.add_assoc, Nat.add_right_comm n _ 1] at hcount
      by_cases hlets : lets n
      · rw [h.passed hs hlets hturn, Option.map_eq_some_iff] at hk
        obtain ⟨k', hk', rfl⟩ := hk
        rw [if_pos hlets] at hcount
        exact ⟨k', hk', N + 1, by omega⟩
      · rw [h.failed hs hlets hturn] at hk
        exact ⟨k, hk, N + 1, by omega⟩

theorem terminates_of_enough [DecidablePred lets] (h : Countdown turn lets left Inv) (N : Nat) :
    ∀ n s k, Inv s → left s = some k → k ≤ Nat.count (fun i => lets (n + i)) N →
      Terminates turn n s := by
  induction N with
  | zero =>
    intro n s k hs hk hN
    rw [Nat.count_zero, Nat.le_zero] at hN
    rw [hN] at hk
    obtain ⟨b, hturn⟩ := (h.ends hs).mpr hk
    exact terminates_of_inl hturn
  | succ N ih =>
    intro n s k hs hk hN
    cases hturn : turn n s with
    | inl b => exact terminates_of_inl hturn
    | inr s' =>
      refine (terminates_of_inr hturn).mpr ?_
      have hcount := Nat.count_succ' (fun i => lets (n + i)) N
      simp only [Nat.add_zero, ← Nat.add_assoc, Nat.add_right_comm n _ 1] at hcount
      by_cases hlets : lets n
      · rw [if_pos hlets] at hcount
        have hk' : left s' = some (k - 1) := by
          rw [h.passed hs hlets hturn, hk, Option.map_some]
        exact ih (n + 1) s' (k - 1) (h.kept hs hturn) hk' (by omega)
      · rw [if_neg hlets] at hcount
        exact ih (n + 1) s' k (h.kept hs hturn) ((h.failed hs hlets hturn).trans hk) (by omega)

theorem terminates_iff [DecidablePred lets] (h : Countdown turn lets left Inv) (hs : Inv s) :
    Terminates turn n s ↔
      ∃ k, left s = some k ∧ ∃ N, k ≤ Nat.count (fun i => lets (n + i)) N :=
  ⟨fun ⟨fuel, hrun⟩ => h.enough_of_run fuel n s hs hrun,
    fun ⟨k, hk, N, hN⟩ => h.terminates_of_enough N n s k hs hk hN⟩

end Countdown

end Retry
