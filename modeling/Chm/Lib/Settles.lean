/-
Loops with fuel.

A loop that may run for ever is modelled with fuel, and has no result when the fuel is used up.
`Settles f o` says what it does without a bound: `o` is its result, and `none` when it never ends.
-/
import Mathlib.Order.Basic

namespace Fuel

variable {α β : Type*} {f : Nat → Option α} {o : Option α} {a : α}

/-- The loop has the result `o` with enough fuel, and no other one. -/
structure Settles (f : Nat → Option α) (o : Option α) : Prop where
  sound : ∀ n a, f n = some a → o = some a
  enough : ∀ a, o = some a → ∃ N, ∀ n, N ≤ n → f n = some a

namespace Settles

theorem const (o : Option α) : Settles (fun _ => o) o where
  sound _ _ h := h
  enough _ h := ⟨0, fun _ _ => h⟩

theorem never (h : ∀ n, f n = none) : Settles f none where
  sound n a hn := by
    rw [h n] at hn
    cases hn
  enough a ho := by cases ho

theorem never_ends (h : Settles f none) (n : Nat) : f n = none := by
  cases hn : f n with
  | none => rfl
  | some a => cases h.sound n a hn

theorem ends_iff (h : Settles f o) : (∃ n, f n = some a) ↔ o = some a := by
  constructor
  · rintro ⟨n, hn⟩
    exact h.sound n a hn
  · intro ho
    obtain ⟨N, hN⟩ := h.enough a ho
    exact ⟨N, hN N (Nat.le_refl N)⟩

/-- One loop after the other, with the same fuel. -/
theorem bind {g : α → Nat → Option β} {q : α → Option β} (h : Settles f o)
    (hg : ∀ a, o = some a → Settles (g a) (q a)) :
    Settles (fun n => (f n).bind fun a => g a n) (o.bind q) where
  sound n b hb := by
    obtain ⟨a, hf, hgn⟩ := Option.bind_eq_some_iff.mp hb
    have ho := h.sound n a hf
    exact Option.bind_eq_some_iff.mpr ⟨a, ho, (hg a ho).sound n b hgn⟩
  enough b hb := by
    obtain ⟨a, ho, hq⟩ := Option.bind_eq_some_iff.mp hb
    obtain ⟨N, hN⟩ := h.enough a ho
    obtain ⟨M, hM⟩ := (hg a ho).enough b hq
    refine ⟨max N M, fun n hn => ?_⟩
    have hf := hN n (Nat.le_trans (Nat.le_max_left N M) hn)
    have hgn := hM n (Nat.le_trans (Nat.le_max_right N M) hn)
    exact Option.bind_eq_some_iff.mpr ⟨a, hf, hgn⟩

theorem map (h : Settles f o) (g : α → β) : Settles (fun n => (f n).map g) (o.map g) := by
  simp only [Option.map_eq_bind]
  exact h.bind fun a _ => const (some (g a))

/-- A turn of a loop uses fuel up. -/
theorem turn (hzero : f 0 = none) (h : Settles (fun n => f (n + 1)) o) : Settles f o where
  sound n a hn := by
    cases n with
    | zero =>
      rw [hzero] at hn
      cases hn
    | succ n => exact h.sound n a hn
  enough a ho := by
    obtain ⟨N, hN⟩ := h.enough a ho
    refine ⟨N + 1, fun n hn => ?_⟩
    cases n with
    | zero => exact absurd hn (Nat.not_succ_le_zero N)
    | succ n => exact hN n (Nat.le_of_succ_le_succ hn)

end Settles
end Fuel
