/-
Files that include others.

A line of a file either is one of its own or stands for another file.  `Expands` reads the lines in
order and puts the lines of a file in the place of the line that stands for it when the file is met
for the first time, and nothing later.  On finitely many files there is one such expansion, also
when they include each other in a circle.
-/
import Mathlib.Data.List.Basic

namespace Includes

variable {ν α : Type*}

/-- `Expands files incl v lines out v'`: with the files `v` met before, the lines come to `out`,
and the files `v'` are met then. -/
inductive Expands (files : ν → Option (List α)) (incl : α → Option ν) :
    List ν → List α → List α → List ν → Prop
  | nil (v : List ν) : Expands files incl v [] [] v
  | line {v v' : List ν} {l : α} {lines out : List α} :
      incl l = none → Expands files incl v lines out v' →
      Expands files incl v (l :: lines) (l :: out) v'
  | again {v v' : List ν} {l : α} {f : ν} {lines out : List α} :
      incl l = some f → f ∈ v → Expands files incl v lines out v' →
      Expands files incl v (l :: lines) out v'
  | first {v v₁ v' : List ν} {l : α} {f : ν} {ls lines out₁ out : List α} :
      incl l = some f → f ∉ v → files f = some ls →
      Expands files incl (v ++ [f]) ls out₁ v₁ → Expands files incl v₁ lines out v' →
      Expands files incl v (l :: lines) (out₁ ++ out) v'

variable {files : ν → Option (List α)} {incl : α → Option ν} {v v' v₁ v₂ : List ν}
variable {lines out out₁ out₂ : List α} {f : ν}

/-- The number of files that are not met. -/
def unmet [DecidableEq ν] (all v : List ν) : Nat := (all.filter fun f => decide (f ∉ v)).length

theorem unmet_le [DecidableEq ν] (all : List ν) (h : v ⊆ v') : unmet all v' ≤ unmet all v := by
  rw [unmet, unmet, ← List.countP_eq_length_filter, ← List.countP_eq_length_filter]
  refine List.countP_mono_left fun g _ hg => ?_
  rw [decide_eq_true_eq] at hg ⊢
  exact fun hv => hg (h hv)

theorem unmet_lt [DecidableEq ν] {all : List ν} (hall : f ∈ all) (hnew : f ∉ v) :
    unmet all (v ++ [f]) < unmet all v := by
  have hfilter : (all.filter fun g => decide (g ∉ v ++ [f])) =
      (all.filter fun g => decide (g ∉ v)).filter fun g => decide (g ≠ f) := by
    rw [List.filter_filter]
    refine List.filter_congr fun g _ => ?_
    simp [and_comm]
  rw [unmet, unmet, hfilter, List.length_filter_lt_length_iff_exists]
  exact ⟨f, List.mem_filter.mpr ⟨hall, decide_eq_true hnew⟩, by simp⟩

namespace Expands

/-- No line of an expansion stands for a file. -/
theorem incl_eq_none (h : Expands files incl v lines out v') : ∀ l ∈ out, incl l = none := by
  induction h with
  | nil v => exact fun l hl => absurd hl List.not_mem_nil
  | line hnone _ ih =>
    intro l hl
    rcases List.mem_cons.mp hl with rfl | hl
    · exact hnone
    · exact ih l hl
  | again _ _ _ ih => exact ih
  | first _ _ _ _ _ ih₁ ih =>
    intro l hl
    rcases List.mem_append.mp hl with hl | hl
    · exact ih₁ l hl
    · exact ih l hl

/-- Lines that stand for no file are their own expansion. -/
theorem of_plain (h : ∀ l ∈ lines, incl l = none) : Expands files incl v lines lines v := by
  induction lines with
  | nil => exact nil v
  | cons l lines ih =>
    exact line (h l List.mem_cons_self) (ih fun m hm => h m (List.mem_cons_of_mem l hm))

theorem unique (h : Expands files incl v lines out₁ v₁) :
    ∀ {out₂ v₂}, Expands files incl v lines out₂ v₂ → out₁ = out₂ ∧ v₁ = v₂ := by
  induction h with
  | nil v =>
    intro out₂ v₂ h'
    cases h'
    exact ⟨rfl, rfl⟩
  | line hnone _ ih =>
    intro out₂ v₂ h'
    cases h' with
    | line _ h' =>
      obtain ⟨rfl, rfl⟩ := ih h'
      exact ⟨rfl, rfl⟩
    | again hsome => exact absurd (hnone.symm.trans hsome) (by simp)
    | first hsome => exact absurd (hnone.symm.trans hsome) (by simp)
  | again hsome hmem _ ih =>
    intro out₂ v₂ h'
    cases h' with
    | line hnone => exact absurd (hnone.symm.trans hsome) (by simp)
    | again _ _ h' => exact ih h'
    | first hsome' hnew =>
      obtain rfl := Option.some.inj (hsome.symm.trans hsome')
      exact absurd hmem hnew
  | first hsome hnew hfile _ _ ih₁ ih =>
    intro out₂ v₂ h'
    cases h' with
    | line hnone => exact absurd (hnone.symm.trans hsome) (by simp)
    | again hsome' hmem =>
      obtain rfl := Option.some.inj (hsome.symm.trans hsome')
      exact absurd hmem hnew
    | first hsome' _ hfile' h₁ h' =>
      obtain rfl := Option.some.inj (hsome.symm.trans hsome')
      obtain rfl := Option.some.inj (hfile.symm.trans hfile')
      obtain ⟨rfl, rfl⟩ := ih₁ h₁
      obtain ⟨rfl, rfl⟩ := ih h'
      exact ⟨rfl, rfl⟩

/-- Every file that a line stands for is one of finitely many and is there. -/
def Closed (files : ν → Option (List α)) (incl : α → Option ν) (all : List ν) (lines : List α) :
    Prop :=
  ∀ l ∈ lines, ∀ f, incl l = some f → f ∈ all ∧ (files f).isSome = true

theorem exists_of_closed [DecidableEq ν] {all : List ν}
    (hfiles : ∀ f ls, files f = some ls → Closed files incl all ls) (n : Nat) :
    ∀ lines, Closed files incl all lines →
      ∀ v : List ν, unmet all v ≤ n →
        ∃ (out : List α) (v' : List ν), Expands files incl v lines out v' ∧ v ⊆ v' := by
  -- The files that are not met yet bound the depth.
  induction n with
  | zero =>
    intro lines
    induction lines with
    | nil => exact fun _ v _ => ⟨[], v, nil v, List.Subset.refl v⟩
    | cons l lines ih =>
      intro hclosed v hv
      have hrest : Closed files incl all lines :=
        fun m hm => hclosed m (List.mem_cons_of_mem l hm)
      obtain ⟨out, v', h, hsub⟩ := ih hrest v hv
      cases hincl : incl l with
      | none => exact ⟨l :: out, v', line hincl h, hsub⟩
      | some f =>
        have hall := (hclosed l List.mem_cons_self f hincl).1
        have hmet : f ∈ v := by
          by_contra hnew
          exact absurd (unmet_lt hall hnew) (by omega)
        exact ⟨out, v', again hincl hmet h, hsub⟩
  | succ n ihn =>
    intro lines
    induction lines with
    | nil => exact fun _ v _ => ⟨[], v, nil v, List.Subset.refl v⟩
    | cons l lines ih =>
      intro hclosed v hv
      have hrest : Closed files incl all lines :=
        fun m hm => hclosed m (List.mem_cons_of_mem l hm)
      cases hincl : incl l with
      | none =>
        obtain ⟨out, v', h, hsub⟩ := ih hrest v hv
        exact ⟨l :: out, v', line hincl h, hsub⟩
      | some f =>
        obtain ⟨hall, hthere⟩ := hclosed l List.mem_cons_self f hincl
        by_cases hmet : f ∈ v
        · obtain ⟨out, v', h, hsub⟩ := ih hrest v hv
          exact ⟨out, v', again hincl hmet h, hsub⟩
        · obtain ⟨ls, hls⟩ := Option.isSome_iff_exists.mp hthere
          have hless := unmet_lt hall hmet
          obtain ⟨out₁, v₁, h₁, hsub₁⟩ := ihn ls (hfiles f ls hls) (v ++ [f]) (by omega)
          have hsub' : v ⊆ v₁ := fun g hg => hsub₁ (List.mem_append_left _ hg)
          have hle := unmet_le all hsub'
          obtain ⟨out, v', h, hsub⟩ := ih hrest v₁ (by omega)
          exact ⟨out₁ ++ out, v', first hincl hmet hls h₁ h, fun g hg => hsub (hsub' hg)⟩

end Expands

end Includes
