/-
Runs over the same inputs in another order.

A step that fails, that changes nothing or that writes a value under its key says the same in every
state.  Such steps swap when writes under different keys do, and a run over a list of inputs that
swap is the same for each order of the list.
-/
import Chm.Lib.Along
import Mathlib.Data.List.Pairwise
import Mathlib.Data.List.Perm.Basic

namespace Along

variable {σ ε κ υ : Type} {step : σ → ε → Option σ} {xs ys : List ε} {x y : ε}

/-- The two inputs may come in either order. -/
def Swaps (step : σ → ε → Option σ) (x y : ε) : Prop :=
  ∀ s, ((step s x).bind fun s => step s y) = (step s y).bind fun s => step s x

theorem Swaps.symm (h : Swaps step x y) : Swaps step y x := fun s => (h s).symm

theorem swaps_of_fails (h : ∀ s, step s x = none) : Swaps step x y := by
  intro s
  rw [h, Option.bind_none]
  cases step s y with
  | none => rfl
  | some s' => rw [Option.bind_some, h]

theorem swaps_of_keeps (h : ∀ s, step s x = some s) : Swaps step x y := by
  intro s
  rw [h, Option.bind_some]
  cases step s y with
  | none => rfl
  | some s' => rw [Option.bind_some, h]

/-- An input may come before the ones that it swaps with. -/
theorem run_front (hswap : ∀ y ∈ xs, Swaps step y x) (s : σ) :
    run step s (xs ++ x :: ys) = run step s (x :: (xs ++ ys)) := by
  induction xs generalizing s with
  | nil => rfl
  | cons y xs ih =>
    have hyx : Swaps step y x := hswap y List.mem_cons_self
    have hfront := ih fun z hz => hswap z (List.mem_cons_of_mem y hz)
    rw [List.cons_append, run, funext hfront]
    show ((step s y).bind fun s => (step s x).bind fun s => run step s (xs ++ ys)) =
      (step s x).bind fun s => (step s y).bind fun s => run step s (xs ++ ys)
    rw [← Option.bind_assoc, hyx s, Option.bind_assoc]

/-- The run is the same when no two inputs have changed places but ones that swap. -/
theorem run_reorder (hperm : xs.Perm ys)
    (hturned : ys.Pairwise fun y x => [x, y].Sublist xs → Swaps step y x) (s : σ) :
    run step s ys = run step s xs := by
  induction xs generalizing ys s with
  | nil => rw [hperm.nil_eq]
  | cons x xs ih =>
    obtain ⟨us, vs, rfl⟩ := List.append_of_mem (hperm.mem_iff.mp List.mem_cons_self)
    have hperm' : xs.Perm (us ++ vs) :=
      (hperm.trans (List.perm_middle)).cons_inv
    obtain ⟨hus, hvs, hcross⟩ := List.pairwise_append.mp hturned
    rw [run_front fun y hy => hcross y hy x List.mem_cons_self
      ((List.singleton_sublist.mpr (hperm'.mem_iff.mpr (List.mem_append_left vs hy))).cons_cons x)]
    rw [run, run]
    refine congrArg _ (funext (ih hperm' ?_))
    refine (hturned.sublist ((List.sublist_cons_self x vs).append_left us)).imp ?_
    exact fun hswap hsub => hswap (hsub.cons x)

/-- The run does not depend on the order of inputs that swap. -/
theorem run_perm (hperm : xs.Perm ys) (hswap : xs.Pairwise (Swaps step)) (s : σ) :
    run step s xs = run step s ys := by
  have hswap' : ys.Pairwise (Swaps step) := hperm.pairwise hswap Swaps.symm
  refine (run_reorder hperm (hswap'.imp ?_) s).symm
  exact fun h _ => h

/-- A step that fails, changes nothing or writes a value under a key, whatever the state is. -/
inductive WritesOnly (put : κ → υ → σ → σ) (k : κ) (f : σ → Option σ) : Prop
  | fails (h : ∀ s, f s = none)
  | keeps (h : ∀ s, f s = some s)
  | puts (v : υ) (h : ∀ s, f s = some (put k v s))

namespace WritesOnly

variable {put : κ → υ → σ → σ} {k k' : κ}

/-- Steps that write under keys whose writes swap do so as well. -/
theorem swaps (hx : WritesOnly put k (step · x)) (hy : WritesOnly put k' (step · y))
    (hput : ∀ v v' s, put k v (put k' v' s) = put k' v' (put k v s)) : Swaps step x y := by
  cases hx with
  | fails hx => exact swaps_of_fails hx
  | keeps hx => exact swaps_of_keeps hx
  | puts v hx =>
    cases hy with
    | fails hy => exact (swaps_of_fails hy).symm
    | keeps hy => exact (swaps_of_keeps hy).symm
    | puts v' hy =>
      intro s
      rw [hx s, hy s, Option.bind_some, Option.bind_some, hx, hy, hput]

end WritesOnly

/-- Of two sets without a common key, the order in which they are asked does not matter. -/
theorem ite_swap {β : Type} {own own' : κ → Bool} (h : ∀ k, own k = true → own' k = false) (k : κ)
    (a b c : β) :
    (if own k then a else if own' k then b else c) =
      if own' k then b else if own k then a else c := by
  cases hown : own k with
  | false => rfl
  | true =>
    rw [h k hown]
    rfl

end Along
