/-
Tables whose entries run out.

A table keeps a time for each key it holds: that of the last put, or 0 for an entry that is to
stay.  `Tells` relates such a table to the puts so far, and gives the times at which a key is
still fresh.
-/
import Mathlib.Logic.Function.Basic
import Mathlib.Data.List.Basic

namespace Expiry

variable {κ : Type*}

/-- A put of a key at a time, to stay or not. -/
structure Put (κ : Type*) where
  key : κ
  stays : Bool
  time : Nat

/-- The key was put to stay, or not longer than `life` ago. -/
def Fresh (life : Nat) (puts : List (Put κ)) (k : κ) (t : Nat) : Prop :=
  ∃ p ∈ puts, p.key = k ∧ (p.stays = true ∨ (p.time ≤ t ∧ t ≤ p.time + life))

/-- What a table says of the puts up to `now`. -/
structure Tells (life now : Nat) (table : κ → Option Nat) (puts : List (Put κ)) : Prop where
  past : ∀ p ∈ puts, p.time ≤ now
  stays : ∀ k, table k = some 0 → ∃ p ∈ puts, p.key = k ∧ p.stays = true
  last : ∀ k c, table k = some c → c ≠ 0 →
    (∃ p ∈ puts, p.key = k ∧ p.time = c) ∧
      ∀ p ∈ puts, p.key = k → p.stays = false ∧ p.time ≤ c
  gone : ∀ k, table k = none → ∀ p ∈ puts, p.key = k → p.stays = false ∧ p.time + life < now

namespace Tells

variable {life now now' t c : Nat} {table table' : κ → Option Nat} {puts : List (Put κ)} {k : κ}

theorem nil : Tells life now (fun _ : κ => none) [] where
  past p hp := by cases hp
  stays k h := by cases h
  last k c h := by cases h
  gone k _ p hp := by cases hp

/-- Time passes. -/
theorem wait (h : Tells life now table puts) (hnow : now ≤ now') :
    Tells life now' table puts where
  past p hp := Nat.le_trans (h.past p hp) hnow
  stays := h.stays
  last := h.last
  gone k hk p hp hkey := by
    obtain ⟨hstays, hlt⟩ := h.gone k hk p hp hkey
    exact ⟨hstays, by omega⟩

/-- A put, with the time `c` that the table keeps for it. -/
theorem update [DecidableEq κ] (h : Tells life now table puts) (p : Put κ) (hpast : p.time ≤ now)
    (hstays : c = 0 → p.stays = true)
    (hlast : c ≠ 0 → p.time = c ∧
      ∀ q ∈ p :: puts, q.key = p.key → q.stays = false ∧ q.time ≤ c) :
    Tells life now (Function.update table p.key (some c)) (p :: puts) where
  past q hq := by
    obtain rfl | hq := List.mem_cons.mp hq
    · exact hpast
    · exact h.past q hq
  stays k h₀ := by
    by_cases hk : k = p.key
    · subst hk
      rw [Function.update_self, Option.some.injEq] at h₀
      exact ⟨p, List.mem_cons_self, rfl, hstays h₀⟩
    · rw [Function.update_of_ne hk] at h₀
      obtain ⟨q, hq, hkey, hq'⟩ := h.stays k h₀
      exact ⟨q, List.mem_cons_of_mem _ hq, hkey, hq'⟩
  last k c' hc hne := by
    by_cases hk : k = p.key
    · subst hk
      rw [Function.update_self, Option.some.injEq] at hc
      subst hc
      obtain ⟨htime, hall⟩ := hlast hne
      exact ⟨⟨p, List.mem_cons_self, rfl, htime⟩, hall⟩
    · rw [Function.update_of_ne hk] at hc
      obtain ⟨⟨q, hq, hkey, htime⟩, hall⟩ := h.last k c' hc hne
      refine ⟨⟨q, List.mem_cons_of_mem _ hq, hkey, htime⟩, fun q hq hkey => ?_⟩
      obtain rfl | hq := List.mem_cons.mp hq
      · exact absurd hkey.symm hk
      · exact hall q hq hkey
  gone k hnone q hq hkey := by
    by_cases hk : k = p.key
    · subst hk
      rw [Function.update_self] at hnone
      cases hnone
    · rw [Function.update_of_ne hk] at hnone
      obtain rfl | hq := List.mem_cons.mp hq
      · exact absurd hkey.symm hk
      · exact h.gone k hnone q hq hkey

/-- A put of a key to stay. -/
theorem putStays [DecidableEq κ] (h : Tells life now table puts) :
    Tells life now (Function.update table k (some 0)) (⟨k, true, now⟩ :: puts) :=
  h.update ⟨k, true, now⟩ (Nat.le_refl now) (fun _ => rfl) (fun h₀ => absurd rfl h₀)

/-- A put of a key that is not there to stay. -/
theorem put [DecidableEq κ] (h : Tells life now table puts) (hnow : now ≠ 0)
    (hk : table k ≠ some 0) :
    Tells life now (Function.update table k (some now)) (⟨k, false, now⟩ :: puts) := by
  refine h.update ⟨k, false, now⟩ (Nat.le_refl now) (fun h₀ => absurd h₀ hnow) fun _ => ⟨rfl, ?_⟩
  intro q hq hkey
  obtain rfl | hq := List.mem_cons.mp hq
  · exact ⟨rfl, Nat.le_refl now⟩
  · refine ⟨?_, h.past q hq⟩
    cases htable : table k with
    | none => exact (h.gone k htable q hq hkey).1
    | some c =>
      have hne : c ≠ 0 := fun h₀ => hk (h₀ ▸ htable)
      exact ((h.last k c htable hne).2 q hq hkey).1

/-- Entries that have run out may be taken away. -/
theorem evict (h : Tells life now table puts)
    (hevict : ∀ k, table' k = table k ∨
      table' k = none ∧ ∃ c, table k = some c ∧ c ≠ 0 ∧ c + life < now) :
    Tells life now table' puts where
  past := h.past
  stays k h₀ := by
    obtain heq | ⟨hnone, -⟩ := hevict k
    · exact h.stays k (heq ▸ h₀)
    · rw [hnone] at h₀
      cases h₀
  last k c hc := by
    obtain heq | ⟨hnone, -⟩ := hevict k
    · exact h.last k c (heq ▸ hc)
    · rw [hnone] at hc
      cases hc
  gone k hk p hp hkey := by
    obtain heq | ⟨-, c, hc, hne, hlt⟩ := hevict k
    · exact h.gone k (heq ▸ hk) p hp hkey
    · obtain ⟨hstays, hle⟩ := (h.last k c hc hne).2 p hp hkey
      exact ⟨hstays, by omega⟩

theorem fresh_of_zero (h : Tells life now table puts) (hk : table k = some 0) :
    Fresh life puts k t := by
  obtain ⟨p, hp, hkey, hstays⟩ := h.stays k hk
  exact ⟨p, hp, hkey, .inl hstays⟩

theorem fresh_iff (h : Tells life now table puts) (hnow : now ≤ t) (hk : table k = some c)
    (hc : c ≠ 0) : Fresh life puts k t ↔ t ≤ c + life := by
  obtain ⟨⟨p, hp, hkey, htime⟩, hall⟩ := h.last k c hk hc
  constructor
  · rintro ⟨q, hq, hqkey, hfresh⟩
    obtain ⟨hstays, hle⟩ := hall q hq hqkey
    obtain hq | ⟨-, hq⟩ := hfresh
    · exact absurd (hstays.symm.trans hq) Bool.false_ne_true
    · omega
  · intro hle
    have hpast : p.time ≤ now := h.past p hp
    exact ⟨p, hp, hkey, .inr ⟨by omega, by omega⟩⟩

theorem not_fresh (h : Tells life now table puts) (hnow : now ≤ t) (hk : table k = none) :
    ¬ Fresh life puts k t := by
  rintro ⟨p, hp, hkey, hfresh⟩
  obtain ⟨hstays, hlt⟩ := h.gone k hk p hp hkey
  obtain hp | ⟨-, hle⟩ := hfresh
  · exact absurd (hstays.symm.trans hp) Bool.false_ne_true
  · omega

end Tells
end Expiry
