/-
What an infinite run comes to.

`Leads state P Q` says that a run, after each state with `P`, has one with `Q`.  A run that
is to come to `Q` needs a rank that no step raises and that the helpful steps, which come
again and again, lower: `leads_of_rank`.
-/
import Mathlib.Data.Nat.Basic

namespace Progress

variable {σ : Type*} {state : Nat → σ} {P Q R : σ → Prop} {helpful : Nat → Prop}

/-- After each state with `P` there is one with `Q`. -/
def Leads (state : Nat → σ) (P Q : σ → Prop) : Prop :=
  ∀ t, P (state t) → ∃ u, t ≤ u ∧ Q (state u)

/-- After each time there is one more. -/
def Often (helpful : Nat → Prop) : Prop := ∀ t, ∃ u, t ≤ u ∧ helpful u

theorem Leads.of_imp (h : ∀ t, P (state t) → Q (state t)) : Leads state P Q :=
  fun t hp => ⟨t, Nat.le_refl t, h t hp⟩

theorem Leads.trans (h : Leads state P Q) (h' : Leads state Q R) : Leads state P R := by
  intro t hp
  obtain ⟨u, htu, hq⟩ := h t hp
  obtain ⟨v, huv, hr⟩ := h' u hq
  exact ⟨v, Nat.le_trans htu huv, hr⟩

theorem Leads.or (h : Leads state P R) (h' : Leads state Q R) :
    Leads state (fun s => P s ∨ Q s) R := by
  intro t hpq
  rcases hpq with hp | hq
  · exact h t hp
  · exact h' t hq

/-- Until `Q` comes, `P` stays and the rank does not rise. -/
theorem stays_or_leads (rank : σ → Nat)
    (hstep : ∀ t, P (state t) →
      Q (state (t + 1)) ∨ P (state (t + 1)) ∧ rank (state (t + 1)) ≤ rank (state t))
    {t : Nat} (hp : P (state t)) (d : Nat) :
    (∃ u, t ≤ u ∧ Q (state u)) ∨ P (state (t + d)) ∧ rank (state (t + d)) ≤ rank (state t) := by
  induction d with
  | zero => exact Or.inr ⟨hp, Nat.le_refl _⟩
  | succ d ih =>
    rcases ih with hq | ⟨hpd, hle⟩
    · exact Or.inl hq
    · rcases hstep (t + d) hpd with hq | ⟨hpd', hle'⟩
      · exact Or.inl ⟨t + d + 1, by omega, hq⟩
      · exact Or.inr ⟨hpd', Nat.le_trans hle' hle⟩

theorem leads_of_rank (rank : σ → Nat) (hoften : Often helpful)
    (hstep : ∀ t, P (state t) →
      Q (state (t + 1)) ∨ P (state (t + 1)) ∧ rank (state (t + 1)) ≤ rank (state t))
    (hdrop : ∀ t, P (state t) → helpful t →
      Q (state (t + 1)) ∨ rank (state (t + 1)) < rank (state t)) : Leads state P Q := by
  suffices hrank : ∀ n t, rank (state t) = n → P (state t) → ∃ u, t ≤ u ∧ Q (state u) from
    fun t hp => hrank _ t rfl hp
  intro n
  induction n using Nat.strong_induction_on with
  | _ n ih =>
    intro t hn hp
    -- The run stays in `P` up to the next helpful step, and that one lowers the rank.
    obtain ⟨u, htu, hu⟩ := hoften t
    obtain ⟨d, rfl⟩ := Nat.exists_eq_add_of_le htu
    rcases stays_or_leads rank hstep hp d with hq | ⟨hpd, hle⟩
    · exact hq
    · rcases hdrop (t + d) hpd hu with hq | hlt
      · exact ⟨t + d + 1, by omega, hq⟩
      · rcases hstep (t + d) hpd with hq | ⟨hpd', -⟩
        · exact ⟨t + d + 1, by omega, hq⟩
        · obtain ⟨v, huv, hq⟩ := ih _ (by omega) (t + d + 1) rfl hpd'
          exact ⟨v, by omega, hq⟩

end Progress
