/-
Numbers written in decimal.

`text n` is a number's text in ASCII, the most significant digit first.  Reading the digits from
the left and multiplying by ten gets the number back, also in arithmetic modulo `m` as long as the
number is below `m` (`foldl_text`).
-/
import Mathlib.Data.Nat.Digits.Defs

namespace Decimal

variable {b m n : Nat}

/-- The text of a natural number. -/
def text (n : Nat) : List Nat := if n = 0 then [48] else (Nat.digits 10 n).reverse.map (48 + ·)

/-- The text of an integer. -/
def intText (n : Int) : List Nat := if n < 0 then 45 :: text n.natAbs else text n.natAbs

theorem text_ne_nil : text n ≠ [] := by
  intro hnil
  unfold text at hnil
  split at hnil
  · cases hnil
  · rename_i hn
    rw [List.map_eq_nil_iff, List.reverse_eq_nil_iff, Nat.digits_eq_nil_iff_eq_zero] at hnil
    exact hn hnil

theorem mem_text {c : Nat} (hc : c ∈ text n) : 48 ≤ c ∧ c ≤ 57 := by
  unfold text at hc
  split at hc
  · rw [List.mem_singleton] at hc
    omega
  · obtain ⟨d, hd, rfl⟩ := List.mem_map.mp hc
    have hlt := Nat.digits_lt_base (by omega) (List.mem_reverse.mp hd)
    omega

/-- Reading digits with a modulus gives what reading them without it gives, modulo it. -/
theorem foldl_mod (l : List Nat) (r : Nat) :
    l.foldl (fun r d => (r * b % m + d) % m) (r % m) = l.foldl (fun r d => r * b + d) r % m := by
  induction l generalizing r with
  | nil => rfl
  | cons d l ih =>
    have hstep : (r % m * b % m + d) % m = (r * b + d) % m := by
      rw [Nat.mod_mul_mod, Nat.mod_add_mod]
    rw [List.foldl_cons, List.foldl_cons, hstep]
    exact ih (r * b + d)

theorem foldl_digits : (Nat.digits b n).reverse.foldl (fun r d => r * b + d) 0 = n := by
  rw [List.foldl_reverse]
  have hof := Nat.ofDigits_digits b n
  rw [Nat.ofDigits_eq_foldr] at hof
  refine Eq.trans ?_ hof
  congr 1
  funext d r
  rw [Nat.mul_comm, Nat.add_comm]
  rfl

/-- A reader that keeps its result below `m` reads a number below `m` back. -/
theorem foldl_text (hn : n < m) :
    (text n).foldl (fun r c => (r * 10 % m + (c - 48)) % m) 0 = n := by
  unfold text
  split
  · rename_i h0
    subst h0
    show (0 * 10 % m + 0) % m = 0
    simp
  · have hfold := @foldl_mod 10 m (Nat.digits 10 n).reverse 0
    rw [foldl_digits, Nat.mod_eq_of_lt hn, Nat.zero_mod] at hfold
    rw [List.foldl_map]
    simpa only [Nat.add_sub_cancel_left] using hfold

end Decimal
