/-
Two finite maps that are inverse to each other.

`Inverse f g` says that `f` maps `k` to `v` exactly when `g` maps `v` to `k`, so both are
injective and each is known from the other.
-/
import Mathlib.Data.List.AList

namespace Chm

variable {κ α : Type*} [DecidableEq κ] [DecidableEq α]

/-- Each map leads back from where the other leads. -/
def Inverse (f : AList fun _ : κ => α) (g : AList fun _ : α => κ) : Prop :=
  ∀ k v, f.lookup k = some v ↔ g.lookup v = some k

namespace Inverse

variable {f : AList fun _ : κ => α} {g : AList fun _ : α => κ} {k : κ} {v : α}

theorem empty : Inverse (∅ : AList fun _ : κ => α) (∅ : AList fun _ : α => κ) := by
  intro k v
  simp

theorem symm (h : Inverse f g) : Inverse g f := fun v k => (h k v).symm

theorem injective (h : Inverse f g) {k' : κ} (hk : f.lookup k = some v)
    (hk' : f.lookup k' = some v) : k = k' := by
  have hg := (h k v).mp hk
  have hg' := (h k' v).mp hk'
  rw [hg] at hg'
  exact Option.some.inj hg'

/-- A pair is taken out of both maps. -/
theorem erase (h : Inverse f g) (hk : f.lookup k = some v) : Inverse (f.erase k) (g.erase v) := by
  intro k' v'
  by_cases hk' : k' = k
  · subst hk'
    rw [AList.lookup_erase]
    by_cases hv : v' = v
    · subst hv
      rw [AList.lookup_erase]
      simp
    · rw [AList.lookup_erase_ne hv, ← h k' v', hk]
      simp [Ne.symm hv]
  · rw [AList.lookup_erase_ne hk', h k' v']
    by_cases hv : v' = v
    · subst hv
      rw [AList.lookup_erase, (h k v').mp hk]
      simp [Ne.symm hk']
    · rw [AList.lookup_erase_ne hv]

/-- A pair of new elements is put in both maps. -/
theorem insert (h : Inverse f g) (hk : k ∉ f) (hv : v ∉ g) :
    Inverse (f.insert k v) (g.insert v k) := by
  have hfk : f.lookup k = none := AList.lookup_eq_none.mpr hk
  have hgv : g.lookup v = none := AList.lookup_eq_none.mpr hv
  intro k' v'
  by_cases hk' : k' = k
  · subst hk'
    rw [AList.lookup_insert]
    by_cases hv' : v' = v
    · subst hv'
      rw [AList.lookup_insert]
      simp
    · rw [AList.lookup_insert_ne hv', ← h k' v', hfk]
      simp [Ne.symm hv']
  · rw [AList.lookup_insert_ne hk', h k' v']
    by_cases hv' : v' = v
    · subst hv'
      rw [AList.lookup_insert, hgv]
      simp [Ne.symm hk']
    · rw [AList.lookup_insert_ne hv']

end Inverse

end Chm
