/-
Extremes that a fold keeps.

A running maximum from below all elements is their maximum, and one that moves the wrong way is
so only where all elements are the same.  A running minimum that starts at a value meaning that
there is none yet is the minimum exactly when no element has that value, or the last one has.
-/
import Mathlib.Data.List.Induction
import Mathlib.Order.Bounds.Basic
import Mathlib.Order.MinMax

namespace Extremes

variable {α : Type*} [LinearOrder α] {l : List α} {x z : α}

theorem foldl_max_spec (l : List α) (z : α) :
    z ≤ l.foldl max z ∧ (∀ x ∈ l, x ≤ l.foldl max z) ∧ (l.foldl max z = z ∨ l.foldl max z ∈ l) := by
  induction l using List.reverseRecOn with
  | nil => simp
  | append_singleton l x ih =>
    obtain ⟨hz, hl, hmem⟩ := ih
    rw [List.foldl_append, List.foldl_cons, List.foldl_nil]
    refine ⟨hz.trans (le_max_left _ _), fun y hy => ?_, ?_⟩
    · rcases List.mem_append.mp hy with hy | hy
      · exact (hl y hy).trans (le_max_left _ _)
      · obtain rfl := List.mem_singleton.mp hy
        exact le_max_right _ _
    · rcases max_choice (l.foldl max z) x with hc | hc <;> rw [hc]
      · exact hmem.imp_right (List.mem_append_left _)
      · exact Or.inr (List.mem_append_right _ (List.mem_singleton_self x))

/-- The maximum, kept from below all elements. -/
theorem isGreatest_foldl_max (hne : l ≠ []) (hz : ∀ x ∈ l, z ≤ x) :
    IsGreatest {x | x ∈ l} (l.foldl max z) := by
  obtain ⟨-, hl, hmem⟩ := foldl_max_spec l z
  refine ⟨?_, fun x hx => hl x hx⟩
  rcases hmem with h | h
  · obtain ⟨x, hx⟩ := List.exists_mem_of_ne_nil l hne
    have hxz : x = z := le_antisymm (h ▸ hl x hx) (hz x hx)
    show l.foldl max z ∈ l
    rw [h, ← hxz]
    exact hx
  · exact h

/-! ## The wrong way round -/

theorem foldl_min_le (l : List α) (z : α) :
    l.foldl min z ≤ z ∧ ∀ x ∈ l, l.foldl min z ≤ x := by
  obtain ⟨hz, hl, -⟩ := @foldl_max_spec αᵒᵈ _ l z
  exact ⟨hz, hl⟩

/-- A minimum from `z` on is the greatest of the elements only when there is no choice. -/
theorem isGreatest_foldl_min_iff (hne : l ≠ []) :
    IsGreatest {x | x ∈ l} (l.foldl min z) ↔ ∃ t, t ≤ z ∧ ∀ x ∈ l, x = t := by
  obtain ⟨hz, hl⟩ := foldl_min_le l z
  constructor
  · rintro ⟨-, hgreatest⟩
    exact ⟨_, hz, fun x hx => le_antisymm (hgreatest hx) (hl x hx)⟩
  · rintro ⟨t, ht, hsame⟩
    obtain ⟨x, hx⟩ := List.exists_mem_of_ne_nil l hne
    have hfold : l.foldl min z = t := by
      obtain ⟨-, -, hmem⟩ := @foldl_max_spec αᵒᵈ _ l z
      rcases hmem with h | h
      · exact le_antisymm (hsame x hx ▸ hl x hx) (ht.trans_eq h.symm)
      · exact hsame _ h
    rw [hfold]
    exact ⟨hsame x hx ▸ hx, fun y hy => (hsame y hy).le⟩

/-! ## A value for none yet -/

/-- One step of a minimum whose starting value `z` means that there is none yet. -/
def leastStep (z acc x : α) : α := if z = acc ∨ x < acc then x else acc

theorem leastStep_cases (z acc x : α) :
    (z = acc ∨ x < acc) ∧ leastStep z acc x = x ∨
      z ≠ acc ∧ acc ≤ x ∧ leastStep z acc x = acc := by
  rw [leastStep]
  by_cases h : z = acc ∨ x < acc
  · exact Or.inl ⟨h, if_pos h⟩
  · exact Or.inr ⟨fun he => h (Or.inl he), not_lt.mp fun hlt => h (Or.inr hlt), if_neg h⟩

theorem foldl_leastStep_append (l : List α) (x z : α) :
    (l ++ [x]).foldl (leastStep z) z = leastStep z (l.foldl (leastStep z) z) x := by
  rw [List.foldl_append]
  rfl

theorem foldl_leastStep_mem (hne : l ≠ []) : l.foldl (leastStep z) z ∈ l := by
  induction l using List.reverseRecOn with
  | nil => exact absurd rfl hne
  | append_singleton l x ih =>
    rw [foldl_leastStep_append]
    rcases leastStep_cases z (l.foldl (leastStep z) z) x with ⟨-, hstep⟩ | ⟨hz, -, hstep⟩ <;>
      rw [hstep]
    · exact List.mem_append_right _ (List.mem_singleton_self x)
    · refine List.mem_append_left _ (ih fun hnil => hz ?_)
      rw [hnil]
      rfl

/-- The fold is back at `z` after an element that has this value, and only then. -/
theorem foldl_leastStep_eq_iff (hz : ∀ y ∈ l ++ [x], z ≤ y) :
    (l ++ [x]).foldl (leastStep z) z = z ↔ x = z := by
  rw [foldl_leastStep_append]
  rcases leastStep_cases z (l.foldl (leastStep z) z) x with ⟨-, hstep⟩ | ⟨hne, hle, hstep⟩ <;>
    rw [hstep]
  have hl : l ≠ [] := by
    rintro rfl
    exact hne rfl
  have hmem := foldl_leastStep_mem (z := z) hl
  refine ⟨fun he => absurd he.symm hne, fun hx => ?_⟩
  exact le_antisymm (hle.trans_eq hx) (hz _ (List.mem_append_left _ hmem))

/-- Without an element of the value `z` the fold is the minimum. -/
theorem foldl_leastStep_le (hz : z ∉ l) : ∀ x ∈ l, l.foldl (leastStep z) z ≤ x := by
  induction l using List.reverseRecOn with
  | nil => simp
  | append_singleton l x ih =>
    obtain ⟨hzl, hzx⟩ := not_or.mp (mt List.mem_append.mpr hz)
    intro y hy
    rw [foldl_leastStep_append]
    rcases leastStep_cases z (l.foldl (leastStep z) z) x with ⟨hcase, hstep⟩ | ⟨-, hle, hstep⟩ <;>
      rw [hstep]
    · rcases List.mem_append.mp hy with hy | hy
      · have hmem := foldl_leastStep_mem (z := z) (List.ne_nil_of_mem hy)
        rcases hcase with he | hlt
        · exact absurd (he ▸ hmem) hzl
        · exact hlt.le.trans (ih hzl y hy)
      · exact (List.mem_singleton.mp hy).ge
    · rcases List.mem_append.mp hy with hy | hy
      · exact ih hzl y hy
      · exact hle.trans_eq (List.mem_singleton.mp hy).symm

theorem isLeast_foldl_leastStep_iff (hz : ∀ y ∈ l ++ [x], z ≤ y) :
    IsLeast {y | y ∈ l ++ [x]} ((l ++ [x]).foldl (leastStep z) z) ↔ z ∉ l ++ [x] ∨ x = z := by
  have hne : l ++ [x] ≠ [] := by simp
  have hmem := foldl_leastStep_mem (z := z) hne
  rw [← foldl_leastStep_eq_iff hz]
  constructor
  · rintro ⟨-, hleast⟩
    by_cases h : z ∈ l ++ [x]
    · exact Or.inr (le_antisymm (hleast h) (hz _ hmem))
    · exact Or.inl h
  · rintro (h | h)
    · exact ⟨hmem, fun y hy => foldl_leastStep_le h y hy⟩
    · exact ⟨hmem, fun y hy => h.trans_le (hz y hy)⟩

end Extremes
