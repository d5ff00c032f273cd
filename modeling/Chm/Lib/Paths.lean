/-
Singly linked lists.

`Path step start l e` says that following `step` from `start` reads the nodes of `l`
and then comes to `e`.  The one write such a list needs is through the pointer that
leads to what comes after some of its nodes, the start pointer when there are none
of them: `relink` says what it makes of the list.
-/
import Chm.Lib.Chains

namespace Links

variable {α : Type*}

/-- The nodes read from a pointer until it comes to `e`. -/
def Path (step : α → Option α) : Option α → List α → Option α → Prop
  | start, [], e => start = e
  | start, p :: l, e => start = some p ∧ Path step (step p) l e

/-- The start pointer after a write through the pointer behind `before`. -/
def relinkStart (start : Option α) (before : List α) (q : Option α) : Option α :=
  match before.getLast? with
  | none => q
  | some _ => start

/-- The pointers of the nodes after that write. -/
def relinkStep [DecidableEq α] (step : α → Option α) (before : List α) (q : Option α) :
    α → Option α :=
  match before.getLast? with
  | none => step
  | some r => Function.update step r q

namespace Path

variable {step step' : α → Option α} {start e mid : Option α} {l l₁ l₂ : List α} {p q : α}

/-- Following the pointers of a null-ended list reads it. -/
theorem follow_eq (h : Path step start l none) {fuel : Nat} (hf : l.length ≤ fuel) :
    follow step fuel start = l := by
  induction l generalizing start fuel with
  | nil =>
    have hs : start = none := h
    rw [hs]
    cases fuel <;> rfl
  | cons p l ih =>
    obtain ⟨hs, hl⟩ := h
    cases fuel with
    | zero => exact absurd hf (Nat.not_succ_le_zero _)
    | succ fuel => rw [hs, follow, ih hl (Nat.le_of_succ_le_succ hf)]

/-- A list is a statement about the pointers of its own nodes. -/
theorem congr (h : Path step start l e) (hs : ∀ p ∈ l, step' p = step p) :
    Path step' start l e := by
  induction l generalizing start with
  | nil => exact h
  | cons p l ih =>
    refine ⟨h.1, ?_⟩
    rw [hs p List.mem_cons_self]
    exact ih h.2 fun q hq => hs q (List.mem_cons_of_mem _ hq)

theorem append_iff :
    Path step start (l₁ ++ l₂) e ↔ ∃ mid, Path step start l₁ mid ∧ Path step mid l₂ e := by
  induction l₁ generalizing start with
  | nil =>
    constructor
    · intro h
      exact ⟨start, rfl, h⟩
    · rintro ⟨mid, hs, h⟩
      have hmid : start = mid := hs
      rw [hmid]
      exact h
  | cons p l₁ ih =>
    rw [List.cons_append, Path, ih]
    constructor
    · rintro ⟨hs, mid, h₁, h₂⟩
      exact ⟨mid, ⟨hs, h₁⟩, h₂⟩
    · rintro ⟨mid, ⟨hs, h₁⟩, h₂⟩
      exact ⟨hs, mid, h₁, h₂⟩

variable [DecidableEq α]

theorem relinkStep_of_notMem {before : List α} (hp : p ∉ before) (q : Option α) :
    relinkStep step before q p = step p := by
  unfold relinkStep
  cases hr : before.getLast? with
  | none => rfl
  | some r =>
    have hpr : p ≠ r := fun he => hp (he ▸ List.mem_of_getLast? hr)
    exact Function.update_of_ne hpr q step

/-- A write through the last pointer of a list makes it end there. -/
theorem relink (h : Path step start l e) (hnd : l.Nodup) (e' : Option α) :
    Path (relinkStep step l e') (relinkStart start l e') l e' := by
  induction l generalizing start with
  | nil => rfl
  | cons p l ih =>
    obtain ⟨hp, hnd⟩ := List.nodup_cons.mp hnd
    cases l with
    | nil =>
      refine ⟨h.1, ?_⟩
      show Function.update step p e' p = e'
      rw [Function.update_self]
    | cons q l =>
      have hl := ih h.2 hnd
      have hlast : (p :: q :: l).getLast? = (q :: l).getLast? := List.getLast?_cons_cons
      have hstep : relinkStep step (p :: q :: l) e' = relinkStep step (q :: l) e' := by
        unfold relinkStep
        rw [hlast]
      have hstart : ∀ s : Option α, relinkStart s (q :: l) e' = s := by
        intro s
        unfold relinkStart
        rw [List.getLast?_cons]
      have hstart' : relinkStart start (p :: q :: l) e' = start := by
        unfold relinkStart
        rw [hlast, List.getLast?_cons]
      rw [hstep, hstart']
      refine ⟨h.1, ?_⟩
      rw [relinkStep_of_notMem hp]
      rw [hstart] at hl
      exact hl

/-- Appending a lone node. -/
theorem append_node (h : Path step start l none) (hnd : l.Nodup) (hp : p ∉ l)
    (hlone : step p = none) :
    Path (relinkStep step l (some p)) (relinkStart start l (some p)) (l ++ [p]) none := by
  refine append_iff.mpr ⟨some p, h.relink hnd (some p), rfl, ?_⟩
  show relinkStep step l (some p) p = none
  rw [relinkStep_of_notMem hp, hlone]

/-- Unlinking a node. -/
theorem unlink_node (h : Path step start (l₁ ++ p :: l₂) none) (hnd : (l₁ ++ p :: l₂).Nodup) :
    Path (relinkStep step l₁ (step p)) (relinkStart start l₁ (step p)) (l₁ ++ l₂) none := by
  obtain ⟨mid, h₁, -, h₂⟩ := append_iff.mp h
  obtain ⟨hnd₁, -, hdis⟩ := List.nodup_append'.mp hnd
  refine append_iff.mpr ⟨step p, h₁.relink hnd₁ (step p), h₂.congr ?_⟩
  intro q hq
  exact relinkStep_of_notMem (fun hq₁ => hdis hq₁ (List.mem_cons_of_mem _ hq)) (step p)

end Path
end Links
