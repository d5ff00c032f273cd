/-
Texts cut in two, at the last element of a kind or at the first occurrence of a word, and the
pieces between separators.
-/
import Mathlib.Data.List.Basic

namespace Pieces

variable {α : Type*}

/-- What stands before and after the last element with a property, and that element. -/
def last (p : α → Bool) : List α → Option (List α × α × List α)
  | [] => none
  | c :: l =>
    match last p l with
    | some r => some (c :: r.1, r.2)
    | none => if p c then some ([], c, l) else none

variable {p : α → Bool} {l a b : List α} {c : α}

theorem last_eq_none_iff : last p l = none ↔ ∀ x ∈ l, p x = false := by
  induction l with
  | nil => exact ⟨fun _ x hx => (List.not_mem_nil hx).elim, fun _ => rfl⟩
  | cons d l ih =>
    rw [List.forall_mem_cons, ← ih, last]
    cases last p l with
    | some r => simp
    | none => simp

theorem last_append (hc : p c = true) (hb : ∀ x ∈ b, p x = false) :
    last p (a ++ c :: b) = some (a, c, b) := by
  induction a with
  | nil => rw [List.nil_append, last, last_eq_none_iff.mpr hb, hc, if_pos rfl]
  | cons d a ih => rw [List.cons_append, last, ih]

theorem last_eq_some (h : last p l = some (a, c, b)) :
    l = a ++ c :: b ∧ p c = true ∧ ∀ x ∈ b, p x = false := by
  induction l generalizing a with
  | nil => cases h
  | cons d l ih =>
    rw [last] at h
    split at h
    · rename_i r hr
      obtain ⟨rfl, hcb⟩ := Prod.mk.inj (Option.some.inj h)
      obtain ⟨hl, hc, hb⟩ := ih (hr.trans (congrArg some (Prod.ext rfl hcb)))
      exact ⟨by rw [hl, List.cons_append], hc, hb⟩
    · rename_i hnone
      split at h
      · rename_i hd
        obtain ⟨rfl, hcb⟩ := Prod.mk.inj (Option.some.inj h)
        obtain ⟨rfl, rfl⟩ := Prod.mk.inj hcb
        exact ⟨rfl, hd, last_eq_none_iff.mp hnone⟩
      · cases h

variable [DecidableEq α] {key : List α}

/-- What stands before and after the first occurrence of an element. -/
def first (c : α) : List α → Option (List α × List α)
  | [] => none
  | d :: l => if d = c then some ([], l) else (first c l).map fun r => (d :: r.1, r.2)

theorem first_eq_none_iff : first c l = none ↔ c ∉ l := by
  induction l with
  | nil => exact ⟨fun _ => List.not_mem_nil, fun _ => rfl⟩
  | cons d l ih =>
    rw [first, List.mem_cons, not_or, ← ih]
    by_cases hd : d = c
    · simp [hd]
    · simp [hd, Ne.symm hd]

theorem first_append (ha : c ∉ a) : first c (a ++ c :: b) = some (a, b) := by
  induction a with
  | nil => rw [List.nil_append, first, if_pos rfl]
  | cons d a ih =>
    obtain ⟨hd, ha'⟩ := not_or.mp (List.mem_cons.not.mp ha)
    rw [List.cons_append, first, if_neg (Ne.symm hd), ih ha', Option.map_some]

theorem first_eq_some (h : first c l = some (a, b)) : l = a ++ c :: b ∧ c ∉ a := by
  induction l generalizing a with
  | nil => cases h
  | cons d l ih =>
    rw [first] at h
    split at h
    · rename_i hd
      obtain ⟨rfl, rfl⟩ := Prod.mk.inj (Option.some.inj h)
      exact ⟨by rw [hd, List.nil_append], List.not_mem_nil⟩
    · rename_i hd
      obtain ⟨⟨a', b'⟩, hfirst, heq⟩ := Option.map_eq_some_iff.mp h
      obtain ⟨rfl, rfl⟩ := Prod.mk.inj heq
      obtain ⟨rfl, ha'⟩ := ih hfirst
      exact ⟨rfl, fun hmem => (List.mem_cons.mp hmem).elim (fun hc => hd hc.symm) ha'⟩

/-- In front of a text without the element nothing is found. -/
theorem first_append_left (ha : c ∉ a) (l : List α) :
    first c (a ++ l) = (first c l).map fun r => (a ++ r.1, r.2) := by
  induction a with
  | nil =>
    rw [List.nil_append]
    cases first c l <;> rfl
  | cons d a ih =>
    obtain ⟨hd, ha'⟩ := not_or.mp (List.mem_cons.not.mp ha)
    rw [List.cons_append, first, if_neg (Ne.symm hd), ih ha', Option.map_map]
    rfl

theorem length_of_first (h : first c l = some (a, b)) : l.length = a.length + b.length + 1 := by
  rw [(first_eq_some h).1, List.length_append, List.length_cons]
  rfl

theorem splitOn_of_first (h : first c l = some (a, b)) : l.splitOn c = a :: b.splitOn c := by
  obtain ⟨rfl, ha⟩ := first_eq_some h
  exact List.splitOn_append_cons_self_of_not_mem ha b

/-- An element at the end goes to the last piece. -/
theorem splitOn_concat {x : α} (hx : x ≠ c) (l : List α) :
    ∃ ps p, l.splitOn c = ps ++ [p] ∧ (l ++ [x]).splitOn c = ps ++ [p ++ [x]] := by
  induction l with
  | nil => exact ⟨[], [], rfl, List.splitOn_eq_singleton (by simp [Ne.symm hx])⟩
  | cons d l ih =>
    obtain ⟨ps, p, hl, hlx⟩ := ih
    rw [List.cons_append, List.splitOn_cons_eq_if_modifyHead,
      List.splitOn_cons_eq_if_modifyHead, hl, hlx]
    split
    · exact ⟨[] :: ps, p, rfl, rfl⟩
    · cases ps with
      | nil => exact ⟨[], d :: p, rfl, rfl⟩
      | cons q ps => exact ⟨(d :: q) :: ps, p, rfl, rfl⟩

/-- What stands before and after the first occurrence of a word. -/
def cut (key : List α) : List α → Option (List α × List α)
  | [] => if key = [] then some ([], []) else none
  | c :: l =>
    if key.isPrefixOf (c :: l) then some ([], (c :: l).drop key.length)
    else (cut key l).map fun r => (c :: r.1, r.2)

theorem cut_eq_some (h : cut key l = some (a, b)) : l = a ++ (key ++ b) := by
  induction l generalizing a with
  | nil =>
    rw [cut] at h
    split at h
    · rename_i hkey
      obtain ⟨rfl, rfl⟩ := Prod.mk.inj (Option.some.inj h)
      rw [hkey]
      rfl
    · cases h
  | cons d l ih =>
    rw [cut] at h
    split at h
    · rename_i hprefix
      obtain ⟨rfl, rfl⟩ := Prod.mk.inj (Option.some.inj h)
      obtain ⟨t, ht⟩ := List.isPrefixOf_iff_prefix.mp hprefix
      rw [← ht, List.drop_left]
      rfl
    · obtain ⟨⟨a', b'⟩, hcut, heq⟩ := Option.map_eq_some_iff.mp h
      obtain ⟨rfl, rfl⟩ := Prod.mk.inj heq
      rw [List.cons_append, ih hcut]

/-- A word is found behind a text without its first element. -/
theorem cut_append (ha : c ∉ a) : cut (c :: key) (a ++ (c :: key ++ b)) = some (a, b) := by
  induction a with
  | nil =>
    have hprefix : (c :: key).isPrefixOf (c :: (key ++ b)) = true :=
      List.isPrefixOf_iff_prefix.mpr ⟨b, rfl⟩
    rw [List.nil_append, List.cons_append, cut, if_pos hprefix]
    simp
  | cons d a ih =>
    have hprefix : ¬ (c :: key).isPrefixOf (d :: (a ++ (c :: key ++ b))) = true := by
      intro h
      obtain ⟨t, ht⟩ := List.isPrefixOf_iff_prefix.mp h
      exact ha (List.mem_cons.mpr (.inl (List.cons.inj ht).1))
    rw [List.cons_append, cut, if_neg hprefix, ih fun h => ha (List.mem_cons_of_mem _ h)]
    rfl

omit [DecidableEq α] in
theorem mem_intercalate {x : α} {ls : List (List α)} (h : c ∈ [x].intercalate ls) :
    c = x ∨ ∃ piece ∈ ls, c ∈ piece := by
  induction ls with
  | nil => cases h
  | cons piece ls ih =>
    cases ls with
    | nil =>
      rw [List.intercalate_singleton] at h
      exact .inr ⟨piece, List.mem_cons_self, h⟩
    | cons piece' ls =>
      rw [List.intercalate_cons_cons] at h
      obtain h | h := List.mem_append.mp h
      · obtain h | h := List.mem_append.mp h
        · exact .inr ⟨piece, List.mem_cons_self, h⟩
        · exact .inl (List.mem_singleton.mp h)
      · obtain hx | ⟨q, hq, hc⟩ := ih h
        · exact .inl hx
        · exact .inr ⟨q, List.mem_cons_of_mem _ hq, hc⟩

omit [DecidableEq α] in
theorem mem_intercalate_of_mem {x : α} {ls : List (List α)} {piece : List α} (h : piece ∈ ls)
    (hc : c ∈ piece) : c ∈ [x].intercalate ls := by
  induction ls with
  | nil => cases h
  | cons q ls ih =>
    cases ls with
    | nil =>
      rw [List.intercalate_singleton]
      rwa [List.mem_singleton.mp h] at hc
    | cons q' ls =>
      rw [List.intercalate_cons_cons]
      obtain rfl | h := List.mem_cons.mp h
      · exact List.mem_append_left _ (List.mem_append_left _ hc)
      · exact List.mem_append_right _ (ih h)

/-- An element is a separator or stands in a piece. -/
theorem mem_splitOn {x : α} (h : c ∈ l) : c = x ∨ ∃ piece ∈ l.splitOn x, c ∈ piece := by
  have hl : [x].intercalate (l.splitOn x) = l := List.intercalate_splitOn x
  rw [← hl] at h
  exact mem_intercalate h

end Pieces
