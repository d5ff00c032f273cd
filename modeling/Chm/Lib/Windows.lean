/-
Edits of a memory that stay within a window.

`Within lo hi f` says that `f` changes only the addresses from `lo` to `hi`, and that what
it makes of them depends on them alone, so edits within disjoint windows commute.  A layout
is a list of fields one behind the other, each with an edit of its cell and one that should
undo it.  `backward_forward_iff` is what the file is for: undoing the fields of a layout
gives the memory back exactly when every cell is given back.
-/
import Mathlib.Algebra.GroupWithZero.Nat
import Mathlib.Data.List.Basic

namespace Windows

variable {β : Type*}

structure Within (lo hi : Nat) (f : (Nat → β) → Nat → β) : Prop where
  outside : ∀ mem i, i < lo ∨ hi ≤ i → f mem i = mem i
  inside : ∀ mem mem', (∀ i, lo ≤ i → i < hi → mem i = mem' i) →
    ∀ i, lo ≤ i → i < hi → f mem i = f mem' i

namespace Within

variable {lo hi lo' hi' : Nat} {f g : (Nat → β) → Nat → β} {mem mem' : Nat → β}

theorem id (lo hi : Nat) : Within lo hi (fun mem : Nat → β => mem) :=
  ⟨fun _ _ _ => rfl, fun _ _ h => h⟩

theorem mono (h : Within lo hi f) (hlo : lo' ≤ lo) (hhi : hi ≤ hi') : Within lo' hi' f := by
  refine ⟨fun mem i hi => h.outside mem i (by omega), fun mem mem' he i hlo' hhi' => ?_⟩
  by_cases hin : lo ≤ i ∧ i < hi
  · exact h.inside mem mem' (fun k hk hk' => he k (by omega) (by omega)) i hin.1 hin.2
  · rw [h.outside mem i (by omega), h.outside mem' i (by omega)]
    exact he i hlo' hhi'

theorem comp (hf : Within lo hi f) (hg : Within lo hi g) :
    Within lo hi (fun mem => f (g mem)) := by
  refine ⟨fun mem i hi => ?_, fun mem mem' he => ?_⟩
  · rw [hf.outside _ i hi, hg.outside _ i hi]
  · exact hf.inside _ _ (hg.inside mem mem' he)

/-- Edits within disjoint windows commute. -/
theorem comm (hf : Within lo hi f) (hg : Within lo' hi' g) (h : hi ≤ lo' ∨ hi' ≤ lo)
    (mem : Nat → β) : f (g mem) = g (f mem) := by
  funext i
  by_cases hin : lo ≤ i ∧ i < hi
  · rw [hg.outside (f mem) i (by omega)]
    exact hf.inside _ _ (fun k hk hk' => hg.outside mem k (by omega)) i hin.1 hin.2
  · rw [hf.outside (g mem) i (by omega)]
    by_cases hin' : lo' ≤ i ∧ i < hi'
    · refine (hg.inside _ _ (fun k hk hk' => ?_) i hin'.1 hin'.2).symm
      exact hf.outside mem k (by omega)
    · rw [hg.outside mem i (by omega), hg.outside (f mem) i (by omega), hf.outside mem i (by omega)]

/-- Whether an edit leaves a memory is seen within the window. -/
theorem fixed_iff (h : Within lo hi f) (he : ∀ i, lo ≤ i → i < hi → mem i = mem' i) :
    f mem = mem ↔ f mem' = mem' := by
  have hmove : ∀ {mem mem' : Nat → β}, (∀ i, lo ≤ i → i < hi → mem i = mem' i) →
      f mem = mem → f mem' = mem' := by
    intro mem mem' he hfix
    funext i
    by_cases hin : lo ≤ i ∧ i < hi
    · rw [← h.inside mem mem' he i hin.1 hin.2, hfix]
      exact he i hin.1 hin.2
    · exact h.outside mem' i (by omega)
  exact ⟨hmove he, hmove fun i hlo hhi => (he i hlo hhi).symm⟩

end Within

/-! ## One cell -/

/-- The `w` values from the address `p` on. -/
def cell (w : Nat) (mem : Nat → β) (p : Nat) : Fin w → β := fun k => mem (p + k)

/-- Edit the cell at `p`. -/
def edit {w : Nat} (p : Nat) (e : (Fin w → β) → Fin w → β) (mem : Nat → β) : Nat → β := fun i =>
  if h : p ≤ i ∧ i < p + w then e (cell w mem p) ⟨i - p, by omega⟩ else mem i

variable {w p q : Nat} {e e' : (Fin w → β) → Fin w → β} {mem mem' : Nat → β}

theorem cell_congr (h : ∀ i, p ≤ i → i < p + w → mem i = mem' i) :
    cell w mem p = cell w mem' p := by
  funext k
  exact h (p + k) (by omega) (by omega)

theorem within_edit (p : Nat) (e : (Fin w → β) → Fin w → β) : Within p (p + w) (edit p e) := by
  refine ⟨fun mem i hi => ?_, fun mem mem' he i hlo hhi => ?_⟩
  · rw [edit, dif_neg (by omega)]
  · rw [edit, edit, dif_pos ⟨hlo, hhi⟩, dif_pos ⟨hlo, hhi⟩, cell_congr he]

theorem cell_edit (p : Nat) (e : (Fin w → β) → Fin w → β) (mem : Nat → β) :
    cell w (edit p e mem) p = e (cell w mem p) := by
  funext k
  rw [cell, edit, dif_pos (by omega)]
  congr 1
  ext
  simp

theorem edit_of_eq (h : e (cell w mem p) = cell w mem p) : edit p e mem = mem := by
  funext i
  by_cases hi : p ≤ i ∧ i < p + w
  · rw [edit, dif_pos hi, h, cell]
    simp [hi.1]
  · rw [edit, dif_neg hi]

theorem edit_edit (p : Nat) (e e' : (Fin w → β) → Fin w → β) (mem : Nat → β) :
    edit p e' (edit p e mem) = edit p (fun v => e' (e v)) mem := by
  funext i
  by_cases hi : p ≤ i ∧ i < p + w
  · rw [edit, dif_pos hi, cell_edit, edit, dif_pos hi]
  · rw [edit, dif_neg hi, edit, dif_neg hi, edit, dif_neg hi]

theorem edit_eq_iff : edit p e mem = mem ↔ e (cell w mem p) = cell w mem p := by
  refine ⟨fun h => ?_, edit_of_eq⟩
  have hc := cell_edit p e mem
  rw [h] at hc
  exact hc.symm

/-! ## Layouts -/

/-- A field of a layout. -/
structure Field (β : Type*) where
  width : Nat
  fwd : (Fin width → β) → Fin width → β
  bwd : (Fin width → β) → Fin width → β

def size (fields : List (Field β)) : Nat := (fields.map (·.width)).sum

def forward : List (Field β) → Nat → (Nat → β) → Nat → β
  | [], _, mem => mem
  | f :: fields, p, mem => forward fields (p + f.width) (edit p f.fwd mem)

def backward : List (Field β) → Nat → (Nat → β) → Nat → β
  | [], _, mem => mem
  | f :: fields, p, mem => backward fields (p + f.width) (edit p f.bwd mem)

/-- The fields with the addresses of their cells. -/
def placed : List (Field β) → Nat → List (Nat × Field β)
  | [], _ => []
  | f :: fields, p => (p, f) :: placed fields (p + f.width)

variable {f : Field β} {fields fields' : List (Field β)}

theorem size_cons : size (f :: fields) = f.width + size fields := rfl

theorem size_append : size (fields ++ fields') = size fields + size fields' := by
  simp [size]

theorem size_replicate (n : Nat) (fields : List (Field β)) :
    size (List.replicate n fields).flatten = n * size fields := by
  induction n with
  | zero => simp [size]
  | succ n ih =>
    rw [List.replicate_succ, List.flatten_cons, size_append, ih, Nat.succ_mul, Nat.add_comm]

theorem forward_append (p : Nat) (mem : Nat → β) :
    forward (fields ++ fields') p mem =
      forward fields' (p + size fields) (forward fields p mem) := by
  induction fields generalizing p mem with
  | nil => rfl
  | cons f fields ih =>
    rw [List.cons_append, forward, ih, forward, size_cons, Nat.add_assoc]

theorem backward_append (p : Nat) (mem : Nat → β) :
    backward (fields ++ fields') p mem =
      backward fields' (p + size fields) (backward fields p mem) := by
  induction fields generalizing p mem with
  | nil => rfl
  | cons f fields ih =>
    rw [List.cons_append, backward, ih, backward, size_cons, Nat.add_assoc]

theorem placed_append (p : Nat) :
    placed (fields ++ fields') p = placed fields p ++ placed fields' (p + size fields) := by
  induction fields generalizing p with
  | nil => rfl
  | cons f fields ih => rw [List.cons_append, placed, ih, placed, size_cons, Nat.add_assoc]; rfl

theorem within_forward (fields : List (Field β)) (p : Nat) :
    Within p (p + size fields) (forward fields p) := by
  induction fields generalizing p with
  | nil => exact Within.id p _
  | cons f fields ih =>
    have hrest : Within p (p + size (f :: fields)) (forward fields (p + f.width)) :=
      (ih (p + f.width)).mono (by omega) (by rw [size_cons]; omega)
    exact hrest.comp ((within_edit p f.fwd).mono (Nat.le_refl p) (by rw [size_cons]; omega))

theorem within_backward (fields : List (Field β)) (p : Nat) :
    Within p (p + size fields) (backward fields p) := by
  induction fields generalizing p with
  | nil => exact Within.id p _
  | cons f fields ih =>
    have hrest : Within p (p + size (f :: fields)) (backward fields (p + f.width)) :=
      (ih (p + f.width)).mono (by omega) (by rw [size_cons]; omega)
    exact hrest.comp ((within_edit p f.bwd).mono (Nat.le_refl p) (by rw [size_cons]; omega))

theorem placed_le (h : (q, f) ∈ placed fields p) : p ≤ q ∧ q + f.width ≤ p + size fields := by
  induction fields generalizing p with
  | nil => cases h
  | cons g fields ih =>
    rw [size_cons]
    rcases List.mem_cons.mp h with he | h
    · cases he
      omega
    · have := ih h
      omega

/-- The cell of a field is given back. -/
def Field.Undone (f : Field β) (mem : Nat → β) (p : Nat) : Prop :=
  f.bwd (f.fwd (cell f.width mem p)) = cell f.width mem p

/-- The first cell is undone on the way back before or after the others, which makes no
difference. -/
theorem backward_forward_cons (f : Field β) (fields : List (Field β)) (p : Nat) (mem : Nat → β) :
    backward (f :: fields) p (forward (f :: fields) p mem) =
      edit p (fun v => f.bwd (f.fwd v))
        (backward fields (p + f.width) (forward fields (p + f.width) mem)) := by
  have hf := within_edit p f.fwd
  have hb := within_edit p f.bwd
  have hfs := within_forward fields (p + f.width)
  have hbs := within_backward fields (p + f.width)
  rw [backward, forward, hb.comm hfs (by omega), edit_edit,
    ← (within_edit p fun v => f.bwd (f.fwd v)).comm hfs (by omega),
    ← (within_edit p fun v => f.bwd (f.fwd v)).comm hbs (by omega)]

theorem backward_forward_iff (fields : List (Field β)) (p : Nat) (mem : Nat → β) :
    backward fields p (forward fields p mem) = mem ↔
      ∀ q f, (q, f) ∈ placed fields p → f.Undone mem q := by
  induction fields generalizing p with
  | nil =>
    refine ⟨fun _ q f h => ?_, fun _ => rfl⟩
    cases h
  | cons f fields ih =>
    rw [backward_forward_cons]
    have hin := within_edit p fun v => f.bwd (f.fwd v)
    have hout : Within (p + f.width) (p + f.width + size fields) fun mem =>
        backward fields (p + f.width) (forward fields (p + f.width) mem) :=
      (within_backward fields _).comp (within_forward fields _)
    have hcell : cell f.width (backward fields (p + f.width) (forward fields (p + f.width) mem)) p =
        cell f.width mem p :=
      cell_congr fun i _ hi => hout.outside mem i (Or.inl hi)
    constructor
    · intro h q g hg
      have hrest : backward fields (p + f.width) (forward fields (p + f.width) mem) = mem := by
        funext i
        by_cases hi : i < p + f.width
        · exact hout.outside mem i (Or.inl hi)
        · have hi' := congrFun h i
          rwa [hin.outside _ i (by omega)] at hi'
      rcases List.mem_cons.mp hg with he | hg
      · cases he
        rw [hrest, edit_eq_iff] at h
        exact h
      · exact (ih (p + f.width)).mp hrest q g hg
    · intro h
      rw [(ih (p + f.width)).mpr fun q g hg => h q g (List.mem_cons_of_mem _ hg)]
      exact edit_of_eq (h p f List.mem_cons_self)

end Windows
