/-
Lists in which equal elements stand side by side.

Taking away each element that equals the one before leaves no duplicates exactly when the equal
elements of the list stand side by side.
-/
import Mathlib.Data.List.Destutter
import Mathlib.Data.List.Nodup

namespace List

variable {α : Type} {a b : α} {l : List α}

/-- An element that comes again comes again right behind. -/
def Grouped : List α → Prop
  | [] => True
  | a :: l => (a ∈ l → l.head? = some a) ∧ Grouped l

instance [DecidableEq α] : (l : List α) → Decidable (Grouped l)
  | [] => .isTrue trivial
  | a :: l =>
    have := instDecidableGroupedOfDecidableEq l
    inferInstanceAs (Decidable ((a ∈ l → l.head? = some a) ∧ Grouped l))

variable [DecidableEq α]

theorem mem_destutter'_ne : a ∈ l.destutter' (· ≠ ·) b ↔ a = b ∨ a ∈ l := by
  induction l generalizing b with
  | nil => simp
  | cons c l ih =>
    by_cases h : b ≠ c
    · rw [destutter'_cons_pos (h := h), mem_cons, ih, mem_cons]
    · obtain rfl : b = c := not_not.mp h
      rw [destutter'_cons_neg (h := h), ih, mem_cons, or_self_left]

theorem nodup_destutter_ne_iff : (l.destutter (· ≠ ·)).Nodup ↔ l.Grouped := by
  induction l with
  | nil => simp [Grouped]
  | cons a l ih =>
    cases l with
    | nil => simp [Grouped]
    | cons b l =>
      rw [Grouped, ← ih, destutter_cons', destutter_cons', head?_cons, Option.some.injEq]
      by_cases h : a ≠ b
      · rw [destutter'_cons_pos (h := h), nodup_cons, mem_destutter'_ne, mem_cons]
        have hhead : ¬b = a := Ne.symm h
        simp [hhead]
      · obtain rfl : a = b := not_not.mp h
        rw [destutter'_cons_neg (h := h)]
        simp

end List
