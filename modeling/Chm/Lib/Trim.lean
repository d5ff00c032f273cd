/-
Blanks at the ends of a text.
-/
import Mathlib.Data.List.Basic

namespace Trim

variable {α : Type*} {blank : α → Bool} {l : List α}

/-- The text without the blanks at its ends. -/
def both (blank : α → Bool) (l : List α) : List α :=
  ((l.dropWhile blank).reverse.dropWhile blank).reverse

theorem dropWhile_eq_self (h : ∀ c ∈ l.head?, blank c = false) : l.dropWhile blank = l := by
  cases l with
  | nil => rfl
  | cons c l => rw [List.dropWhile_cons_of_neg (by rw [h c rfl]; exact Bool.false_ne_true)]

theorem both_eq_self (hhead : ∀ c ∈ l.head?, blank c = false)
    (hlast : ∀ c ∈ l.getLast?, blank c = false) : both blank l = l := by
  rw [both, dropWhile_eq_self hhead, dropWhile_eq_self (by rwa [List.head?_reverse]),
    List.reverse_reverse]

/-- What is left is a part of the text. -/
theorem both_infix (blank : α → Bool) (l : List α) : both blank l <:+: l := by
  have hprefix : both blank l <+: l.dropWhile blank := by
    have hsuffix := List.dropWhile_suffix blank (l := (l.dropWhile blank).reverse)
    have hreverse := List.reverse_prefix.mpr hsuffix
    rwa [List.reverse_reverse] at hreverse
  exact hprefix.isInfix.trans (List.dropWhile_suffix blank).isInfix

theorem both_cons {c : α} (hc : blank c = true) : both blank (c :: l) = both blank l := by
  rw [both, List.dropWhile_cons_of_pos hc, both]

theorem both_concat {c : α} (hc : blank c = true) : both blank (l ++ [c]) = both blank l := by
  rw [both, List.dropWhile_append]
  split
  · rename_i hall
    rw [both, List.isEmpty_iff.mp hall, List.dropWhile_cons_of_pos hc, List.dropWhile_nil]
  · rw [List.reverse_append, List.reverse_singleton, List.singleton_append,
      List.dropWhile_cons_of_pos hc, both]

/-- What blanks at the ends do not change is not changed by taking them away. -/
theorem of_both {β : Type*} {f : List α → β} (hcons : ∀ c l, blank c = true → f (c :: l) = f l)
    (hconcat : ∀ c l, blank c = true → f (l ++ [c]) = f l) (l : List α) :
    f (both blank l) = f l := by
  have hfront : ∀ l, f (l.dropWhile blank) = f l := by
    intro l
    induction l with
    | nil => rfl
    | cons c l ih =>
      by_cases hc : blank c = true
      · rw [List.dropWhile_cons_of_pos hc, ih, hcons c l hc]
      · rw [List.dropWhile_cons_of_neg hc]
  have hback : ∀ l : List α, f (l.dropWhile blank).reverse = f l.reverse := by
    intro l
    induction l with
    | nil => rfl
    | cons c l ih =>
      by_cases hc : blank c = true
      · rw [List.dropWhile_cons_of_pos hc, ih, List.reverse_cons, hconcat c l.reverse hc]
      · rw [List.dropWhile_cons_of_neg hc]
  rw [both, hback, List.reverse_reverse, hfront]

theorem both_both (l : List α) : both blank (both blank l) = both blank l :=
  of_both (fun _ _ hc => both_cons hc) (fun _ _ hc => both_concat hc) l

end Trim
