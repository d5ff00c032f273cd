/-
A list read as a circle.

`behind l a` is what one meets walking on from `a` until `a` comes round again.  A
traveller that always moves on to an element it meets before its goal visits no
element twice, whatever sublist of the circle each element walks along; and one that
always moves on to the next element with a property visits all of them.
-/
import Mathlib.Data.List.Find
import Mathlib.Data.List.Perm.Subperm
import Mathlib.Data.List.Rotate
import Mathlib.Data.Nat.ModEq

namespace Circle

variable {α : Type*} {l l' t u v : List α} {a b d n x : α}

theorem notMem_of_split (hl : (u ++ n :: v).Nodup) : n ∉ u ∧ n ∉ v := by
  have hp := (List.nodup_cons.mp ((@List.perm_middle _ n u v).nodup_iff.mp hl)).1
  exact ⟨fun h => hp (List.mem_append_left v h), fun h => hp (List.mem_append_right u h)⟩

/-- Where a sublist ends with an element, the rest of it comes before the element. -/
theorem sublist_of_concat (hn : n ∉ u ∧ n ∉ v) (h : (t ++ [n]).Sublist (u ++ n :: v)) :
    t.Sublist u := by
  obtain ⟨l₁, l₂, he, h₁, h₂⟩ := List.sublist_append_iff.mp h
  rcases List.eq_nil_or_concat l₂ with rfl | ⟨r, y, rfl⟩
  · rw [List.append_nil] at he
    have hmem : n ∈ l₁ := by
      rw [← he]
      simp
    exact absurd (h₁.subset hmem) hn.1
  · rw [List.concat_eq_append, ← List.append_assoc] at he
    obtain ⟨rfl, hy⟩ := List.append_inj' he rfl
    obtain rfl : n = y := List.singleton_inj.mp hy
    rw [List.concat_eq_append] at h₂
    cases r with
    | nil =>
      rw [List.append_nil]
      exact h₁
    | cons z r =>
      rcases List.sublist_cons_iff.mp h₂ with h₂ | ⟨w, hw, hv⟩
      · exact absurd (h₂.subset (by simp)) hn.2
      · obtain ⟨-, rfl⟩ := List.cons.inj hw
        exact absurd (hv.subset (by simp)) hn.2

/-- A sublist that does not end with the last element does without it. -/
theorem sublist_of_ne (h : (t ++ [n]).Sublist (l ++ [d])) (hne : n ≠ d) : (t ++ [n]).Sublist l := by
  obtain ⟨l₁, l₂, he, h₁, h₂⟩ := List.sublist_append_iff.mp h
  rcases List.sublist_singleton.mp h₂ with rfl | rfl
  · rw [he, List.append_nil]
    exact h₁
  · exact absurd (List.singleton_inj.mp (List.append_inj' he rfl).2) hne

variable [DecidableEq α]

/-- What lies behind an element. -/
def behind (l : List α) (a : α) : List α := (l.rotate (l.idxOf a)).tail

theorem behind_append (h : a ∉ u) : behind (u ++ a :: v) a = v ++ u := by
  have hi : (u ++ a :: v).idxOf a = u.length := by
    rw [List.idxOf_append_of_notMem h, List.idxOf_cons_self, Nat.add_zero]
  rw [behind, hi, List.rotate_append_length_eq]
  rfl

/-- An element splits the list once. -/
theorem behind_split (h : a ∈ l) : ∃ u v, a ∉ u ∧ l = u ++ a :: v ∧ behind l a = v ++ u := by
  obtain ⟨u, v, hl, hu⟩ := List.eq_append_cons_of_mem h
  exact ⟨u, v, hu, hl, by rw [hl, behind_append hu]⟩

theorem cons_behind_perm (h : a ∈ l) : (a :: behind l a).Perm l := by
  obtain ⟨u, v, -, rfl, hb⟩ := behind_split h
  rw [hb]
  exact (List.perm_append_comm.cons a).trans List.perm_middle.symm

theorem notMem_behind (hl : l.Nodup) (h : a ∈ l) : a ∉ behind l a :=
  (List.nodup_cons.mp ((cons_behind_perm h).nodup_iff.mpr hl)).1

theorem nodup_behind (hl : l.Nodup) (h : a ∈ l) : (behind l a).Nodup :=
  (List.nodup_cons.mp ((cons_behind_perm h).nodup_iff.mpr hl)).2

theorem mem_behind (h : a ∈ l) (hb : b ∈ l) (hne : b ≠ a) : b ∈ behind l a :=
  (List.mem_cons.mp ((cons_behind_perm h).mem_iff.mpr hb)).resolve_left hne

theorem mem_of_mem_behind (h : a ∈ l) (hb : b ∈ behind l a) : b ∈ l :=
  (cons_behind_perm h).mem_iff.mp (List.mem_cons_of_mem a hb)

/-- Walking on from an element that lies behind `d` leads past `d`. -/
theorem behind_of_behind (hl : l.Nodup) (hd : d ∈ l) (h : behind l d = u ++ n :: v) :
    behind l n = v ++ d :: u := by
  obtain ⟨s, t, -, rfl, hb⟩ := behind_split hd
  rw [hb] at h
  rcases List.append_eq_append_iff.mp h with ⟨w, rfl, hs⟩ | ⟨w, rfl, hv⟩
  · -- The element stands before `d` in the list.
    have hw : n ∉ w := by
      intro hn
      rw [hs] at hl
      simp only [List.append_assoc, List.nodup_append] at hl
      exact hl.2.2 n hn n (by simp) rfl
    rw [hs, List.append_assoc, List.cons_append, behind_append hw]
    simp
  · cases w with
    | nil =>
      simp only [List.nil_append] at hv
      rw [← hv, List.append_nil]
      rw [← hv] at hl
      have hb' : behind ([] ++ n :: (v ++ d :: u)) n = v ++ d :: u ++ [] :=
        behind_append List.not_mem_nil
      simpa using hb'
    | cons y w =>
      obtain ⟨rfl, rfl⟩ := List.cons.inj hv
      have hw : n ∉ s ++ d :: u := by
        intro hn
        have hp : (n :: (s ++ d :: u) ++ w).Nodup := by
          refine (List.Perm.nodup_iff ?_).mp hl
          have := @List.perm_middle _ n (s ++ d :: u) w
          simpa using this
        exact (List.nodup_cons.mp hp).1 (List.mem_append_left w hn)
      have hb' : behind (s ++ d :: u ++ n :: w) n = w ++ (s ++ d :: u) := behind_append hw
      simpa using hb'

theorem behind_map {β : Type*} [DecidableEq β] {f : α → β} (hl : (l.map f).Nodup) (ha : a ∈ l) :
    behind (l.map f) (f a) = (behind l a).map f := by
  obtain ⟨u, v, -, rfl, hb⟩ := behind_split ha
  rw [List.map_append, List.map_cons] at hl ⊢
  rw [hb, behind_append (notMem_of_split hl).1, List.map_append]

/-- A sublist of the circle is walked in the order of the circle. -/
theorem behind_sublist (hl : l.Nodup) (h : l'.Sublist l) (ha : a ∈ l') :
    (behind l' a).Sublist (behind l a) := by
  obtain ⟨u, v, hu, rfl, hb⟩ := behind_split (h.subset ha)
  obtain ⟨l₁, l₂, rfl, h₁, h₂⟩ := List.sublist_append_iff.mp h
  have hv : a ∉ v := by
    rw [List.nodup_append, List.nodup_cons] at hl
    exact hl.2.1.1
  have ha₂ : a ∈ l₂ := (List.mem_append.mp ha).resolve_left fun ha₁ => hu (h₁.subset ha₁)
  rcases List.sublist_cons_iff.mp h₂ with h₂ | ⟨r, rfl, hr⟩
  · exact absurd (h₂.subset ha₂) hv
  · rw [behind_append fun ha₁ => hu (h₁.subset ha₁), hb]
    exact hr.append h₁

/-! ## Moving on towards a goal -/

/-- A move from `n` to `x` that does not pass `d`. -/
def Towards (l : List α) (n d x : α) : Prop := x = d ∨ [x, d].Sublist (behind l n)

instance : Decidable (Towards l n d x) := inferInstanceAs (Decidable (_ ∨ _))

/-- One more move towards the goal: the elements visited so far are in the order in
which they lie behind the goal. -/
theorem towards_step (hl : l.Nodup) (hd : d ∈ l) (ht : (t ++ [n]).Sublist (behind l d))
    (h : Towards l n d x) : (t ++ [n] ++ [x]).Sublist (behind l d ++ [d]) := by
  rcases h with rfl | h
  · exact ht.append (List.Sublist.refl _)
  · have hnd := nodup_behind hl hd
    have hdb := notMem_behind hl hd
    obtain ⟨u, v, he⟩ := List.append_of_mem (ht.subset (List.mem_append_right t
      (List.mem_singleton_self n)))
    rw [behind_of_behind hl hd he] at h
    rw [he] at ht hnd hdb ⊢
    have hx : x ∈ v := by
      have hdu : d ∉ u := fun hu => hdb (List.mem_append_left _ hu)
      have hdv : d ∉ v := fun hv => hdb (List.mem_append_right u (List.mem_cons_of_mem n hv))
      obtain ⟨l₁, l₂, hpair, h₁, h₂⟩ := List.sublist_append_iff.mp h
      cases l₁ with
      | nil =>
        rw [List.nil_append] at hpair
        rw [← hpair] at h₂
        rcases List.sublist_cons_iff.mp h₂ with h₂ | ⟨w, hw, hu⟩
        · exact absurd (h₂.subset (by simp)) hdu
        · obtain ⟨-, rfl⟩ := List.cons.inj hw
          exact absurd (hu.subset (by simp)) hdu
      | cons y r =>
        obtain ⟨rfl, -⟩ := List.cons.inj hpair
        exact h₁.subset List.mem_cons_self
    have htu := sublist_of_concat (notMem_of_split hnd) ht
    have hnx : [n, x].Sublist (n :: v) := (List.singleton_sublist.mpr hx).cons_cons n
    have := htu.append hnx
    rw [List.append_assoc]
    exact this.trans (List.sublist_append_left _ _)

theorem length_behind (hd : d ∈ l) : (behind l d ++ [d]).length = l.length := by
  rw [List.length_append, ← (cons_behind_perm hd).length_eq]
  rfl

/-! ## Moving on to the next -/

/-- The tour from `d`: those behind it that have the property, and `d` again. -/
def tour (l : List α) (up : α → Bool) (d : α) : List α := (behind l d).filter up ++ [d]

theorem tour_perm (hd : d ∈ l) {up : α → Bool} (hup : up d = true) :
    (tour l up d).Perm (l.filter up) := by
  have hp := (cons_behind_perm hd).filter up
  rw [List.filter_cons_of_pos hup] at hp
  have hd' : ((behind l d).filter up ++ [d]).Perm (d :: (behind l d).filter up) :=
    List.perm_append_singleton d _
  exact hd'.trans hp

theorem tour_start {up : α → Bool} (h : (behind l d).find? up = some x) :
    [x] <+: tour l up d := by
  rw [← List.head?_filter] at h
  obtain ⟨r, hr⟩ := List.head?_eq_some_iff.mp h
  exact ⟨r ++ [d], by rw [tour, hr]; rfl⟩

/-- The tour ends where it has begun. -/
theorem tour_end (hl : l.Nodup) (hd : d ∈ l) {up : α → Bool} (h : t ++ [d] <+: tour l up d) :
    t ++ [d] = tour l up d := by
  obtain ⟨r, hr⟩ := h
  rcases List.eq_nil_or_concat r with rfl | ⟨r, y, rfl⟩
  · rw [← hr, List.append_nil]
  · rw [List.concat_eq_append, tour, ← List.append_assoc] at hr
    have hmem : d ∈ (behind l d).filter up := by
      rw [← (List.append_inj' hr rfl).1]
      simp
    exact absurd (List.mem_of_mem_filter hmem) (notMem_behind hl hd)

/-- Moving on to the next element with the property is one more step of the tour. -/
theorem tour_step (hl : l.Nodup) (hd : d ∈ l) {up : α → Bool} (hup : up d = true)
    (h : t ++ [n] <+: tour l up d) (hne : n ≠ d) :
    ∃ x, (behind l n).find? up = some x ∧ Towards l n d x ∧ t ++ [n] ++ [x] <+: tour l up d := by
  obtain ⟨r, hr⟩ := h
  rcases List.eq_nil_or_concat r with rfl | ⟨r, y, rfl⟩
  · rw [List.append_nil] at hr
    exact absurd (List.singleton_inj.mp (List.append_inj' hr rfl).2) hne
  · rw [List.concat_eq_append, tour, ← List.append_assoc] at hr
    obtain ⟨hf, -⟩ := List.append_inj' hr rfl
    rw [List.append_assoc, List.singleton_append] at hf
    obtain ⟨u, v, hb, hu, hv⟩ := List.filter_eq_append_iff.mp hf.symm
    obtain ⟨v₁, v₂, rfl, hv₁, -, hv₂⟩ := List.filter_eq_cons_iff.mp hv
    rw [← List.append_assoc] at hb
    have hn := behind_of_behind hl hd hb
    have htour : tour l up d = t ++ [n] ++ (r ++ [d]) := by
      rw [tour, ← hf]
      simp
    rw [hn, List.find?_append, ← List.head?_filter, hv₂, htour]
    cases r with
    | nil =>
      refine ⟨d, ?_, Or.inl rfl, List.prefix_rfl⟩
      rw [List.head?_nil, Option.none_or, List.find?_cons_of_pos hup]
    | cons x r =>
      refine ⟨x, rfl, Or.inr ?_, ?_⟩
      · rw [hn]
        have hx : x ∈ v₂ := by
          have hmem : x ∈ v₂.filter up := by
            rw [hv₂]
            exact List.mem_cons_self
          exact List.mem_of_mem_filter hmem
        exact (List.singleton_sublist.mpr hx).append ((List.nil_sublist _).cons_cons d)
      · exact ⟨r ++ [d], by simp⟩

/-! ## Two steps on -/

/-- Once around, with the start last. -/
def round (l : List α) (d : α) : List α := behind l d ++ [d]

theorem mem_round (hd : d ∈ l) : a ∈ round l d ↔ a ∈ l := by
  rw [round, List.mem_append, List.mem_singleton, ← (cons_behind_perm hd).mem_iff, List.mem_cons,
    or_comm]

/-- The round ends where it has begun. -/
theorem round_end (hl : l.Nodup) (hd : d ∈ l) (h : round l d = u ++ d :: v) : u = behind l d := by
  rw [round] at h
  rcases List.eq_nil_or_concat v with rfl | ⟨v, y, rfl⟩
  · exact (List.append_inj' h rfl).1.symm
  · rw [List.concat_eq_append, ← List.cons_append, ← List.append_assoc] at h
    have hb : behind l d = u ++ d :: v := (List.append_inj' h rfl).1
    have hmem : d ∈ behind l d := by
      rw [hb]
      simp
    exact absurd hmem (notMem_behind hl hd)

omit [DecidableEq α] in
/-- What the first element with a property leaves behind it. -/
theorem split_at_find? {up : α → Bool} (h : l.find? up = some x) :
    ∃ w v, l = w ++ x :: v ∧ ∀ z ∈ w, up z = false := by
  obtain ⟨-, w, v, hsplit, hw⟩ := List.find?_eq_some_iff_append.mp h
  exact ⟨w, v, hsplit, fun z hz => by simpa using hw z hz⟩

/-- A round begins with the first element that has the property, and with those that it has
passed over. -/
theorem round_start {up : α → Bool} (h : (behind l d).find? up = some x) :
    ∃ w v, round l d = w ++ x :: v ∧ ∀ z ∈ w, up z = false := by
  obtain ⟨w, v, hsplit, hw⟩ := split_at_find? h
  exact ⟨w, v ++ [d], by rw [round, hsplit, List.append_assoc, List.cons_append], hw⟩

/-- From an element of a round one moves on, to the next one that has the property, inside of the
round. -/
theorem round_step (hl : l.Nodup) (hd : d ∈ l) (up : α → Bool) (hup : up d = true)
    (h : round l d = u ++ n :: v) (hne : n ≠ d) :
    ∃ w x v', (behind l n).find? up = some x ∧ round l d = u ++ n :: (w ++ x :: v') ∧
      ∀ z ∈ w, up z = false := by
  rcases List.eq_nil_or_concat v with rfl | ⟨v, y, rfl⟩
  · exact absurd (List.singleton_inj.mp (List.append_inj' h rfl).2).symm hne
  · rw [List.concat_eq_append] at h
    have h' : behind l d ++ [d] = u ++ n :: v ++ [y] := by
      rw [← round, h, List.append_assoc, List.cons_append]
    obtain ⟨hb, hy⟩ := List.append_inj' h' rfl
    obtain rfl := List.singleton_inj.mp hy
    have hn := behind_of_behind hl hd hb
    have hsome : ((v ++ [d]).find? up).isSome = true :=
      List.find?_isSome.mpr ⟨d, List.mem_append_right v (List.mem_singleton_self d), hup⟩
    obtain ⟨x, hx⟩ := Option.isSome_iff_exists.mp hsome
    obtain ⟨w, v', hsplit, hw⟩ := split_at_find? hx
    have hnext : (behind l n).find? up = some x := by
      have hrest : v ++ d :: u = (v ++ [d]) ++ u := by
        rw [List.append_assoc, List.singleton_append]
      rw [hn, hrest, List.find?_append, hx, Option.some_or]
    exact ⟨w, x, v', hnext, by rw [h, hsplit], hw⟩

/-- The second that passes when walking on from the first; it is the first again when no other
one passes. -/
theorem find?_round_find? (hl : l.Nodup) (hd : d ∈ l) (pass : α → Bool) :
    (round l (((round l d).find? pass).getD d)).find? pass =
      ((round l d).filter pass ++ (round l d).filter pass)[1]? := by
  cases hn : (round l d).find? pass with
  | none =>
    have hnil : (round l d).filter pass = [] := by
      rw [List.filter_eq_nil_iff]
      exact List.find?_eq_none.mp hn
    rw [Option.getD_none, hn, hnil]
    rfl
  | some n =>
    obtain ⟨hpass, s, w, hsplit, hs⟩ := List.find?_eq_some_iff_append.mp hn
    have hs' : s.filter pass = [] := by
      rw [List.filter_eq_nil_iff]
      exact fun x hx => by simpa using hs x hx
    have hserving : (round l d).filter pass = n :: w.filter pass := by
      rw [hsplit, List.filter_append, hs', List.nil_append, List.filter_cons_of_pos hpass]
    rw [Option.getD_some, hserving]
    rcases List.eq_nil_or_concat w with rfl | ⟨w, e, rfl⟩
    · -- nothing behind the first: it is the start
      obtain ⟨-, he⟩ := List.append_inj' hsplit rfl
      obtain rfl := List.singleton_inj.mp he
      rw [hn]
      rfl
    · rw [List.concat_eq_append] at hsplit ⊢
      have hsplit' : behind l d ++ [d] = s ++ n :: w ++ [e] := by
        rw [← round, hsplit, List.append_assoc, List.cons_append]
      obtain ⟨hbehind, he⟩ := List.append_inj' hsplit' rfl
      obtain rfl := List.singleton_inj.mp he
      rw [round, behind_of_behind hl hd hbehind]
      have hrest : w ++ d :: s ++ [n] = (w ++ [d]) ++ (s ++ [n]) := by simp
      have hback : (s ++ [n]).find? pass = some n := by
        rw [List.find?_append, List.find?_eq_none.mpr fun x hx => by simpa using hs x hx]
        simp [hpass]
      rw [hrest, List.find?_append, hback, ← List.head?_filter]
      cases (w ++ [d]).filter pass <;> rfl

/-- From an element of a round, the round goes on where it was. -/
theorem round_of_round (hl : l.Nodup) (hd : d ∈ l) (h : round l d = u ++ x :: v) :
    round l x = v ++ (u ++ [x]) := by
  rw [round] at h ⊢
  rcases List.eq_nil_or_concat v with rfl | ⟨v, e, rfl⟩
  · obtain ⟨hb, he⟩ := List.append_inj' h rfl
    obtain rfl := List.singleton_inj.mp he
    rw [hb, List.nil_append]
  · rw [List.concat_eq_append] at h ⊢
    have h' : behind l d ++ [d] = u ++ x :: v ++ [e] := by simpa using h
    obtain ⟨hb, he⟩ := List.append_inj' h' rfl
    obtain rfl := List.singleton_inj.mp he
    rw [behind_of_behind hl hd hb]
    simp

/-- Those of a round with a property, seen from one of them: the same ones, turned. -/
theorem filter_round (hl : l.Nodup) (hd : d ∈ l) (pass : α → Bool) {i : Nat}
    (hx : ((round l d).filter pass)[i]? = some x) :
    (round l x).filter pass = ((round l d).filter pass).rotate (i + 1) := by
  obtain ⟨hi, hget⟩ := List.getElem?_eq_some_iff.mp hx
  have hsplit : (round l d).filter pass =
      ((round l d).filter pass).take i ++ x :: ((round l d).filter pass).drop (i + 1) := by
    rw [← hget, List.getElem_cons_drop, List.take_append_drop]
  obtain ⟨u, v, hround, hu, hv⟩ := List.filter_eq_append_iff.mp hsplit
  obtain ⟨v₁, v₂, rfl, hv₁, hpass, hv₂⟩ := List.filter_eq_cons_iff.mp hv
  have hv₁' : v₁.filter pass = [] := List.filter_eq_nil_iff.mpr hv₁
  have hround' : round l d = (u ++ v₁) ++ x :: v₂ := by rw [hround, List.append_assoc]
  rw [round_of_round hl hd hround', List.filter_append, List.filter_append, List.filter_append,
    hv₁', hu, hv₂, List.append_nil, List.filter_cons_of_pos hpass,
    List.rotate_eq_drop_append_take (Nat.succ_le_of_lt hi), List.filter_nil,
    List.take_add_one, hx]
  rfl

omit [DecidableEq α] in
/-- By two steps at a time one meets all elements of a circle exactly when their number is
odd. -/
theorem skips_perm_iff (hl : l.Nodup) (hne : l ≠ []) (d : α) :
    ((List.range l.length).map fun i => (l[(2 * i + 1) % l.length]?).getD d).Perm l ↔
      l.length % 2 = 1 := by
  have hlen : 0 < l.length := List.length_pos_iff.mpr hne
  have hget : ∀ i, (l[(2 * i + 1) % l.length]?).getD d ∈ l := by
    intro i
    rw [List.getElem?_eq_getElem (Nat.mod_lt _ hlen)]
    exact List.getElem_mem _
  have hinj : ∀ i j, (l[(2 * i + 1) % l.length]?).getD d = (l[(2 * j + 1) % l.length]?).getD d →
      (2 * i + 1) % l.length = (2 * j + 1) % l.length := by
    intro i j h
    have hi := Nat.mod_lt (2 * i + 1) hlen
    have hj := Nat.mod_lt (2 * j + 1) hlen
    rw [List.getElem?_eq_getElem hi, List.getElem?_eq_getElem hj] at h
    exact hl.getElem_inj_iff.mp h
  constructor
  · intro hperm
    by_contra heven
    -- The first element and the one of the second half's start are the same.
    have hnodup := hperm.nodup_iff.mpr hl
    have hhalf : 2 * (l.length / 2) + 1 = 1 + l.length := by omega
    have hsame := List.inj_on_of_nodup_map hnodup (List.mem_range.mpr hlen)
      (List.mem_range.mpr (Nat.div_lt_self hlen Nat.one_lt_two))
      (by rw [hhalf, Nat.add_mod_right])
    omega
  · intro hodd
    have hnodup : ((List.range l.length).map fun i =>
        (l[(2 * i + 1) % l.length]?).getD d).Nodup := by
      refine List.Nodup.map_on (fun i hi j hj h => ?_) List.nodup_range
      rw [List.mem_range] at hi hj
      have hmod : Nat.ModEq l.length (2 * i + 1) (2 * j + 1) := hinj i j h
      have hcop : Nat.gcd l.length 2 = 1 := by
        rw [Nat.gcd_comm, Nat.gcd_rec, hodd, Nat.gcd_one_left]
      have hmod' := Nat.ModEq.cancel_left_of_coprime hcop (Nat.ModEq.add_right_cancel' 1 hmod)
      exact hmod'.eq_of_lt_of_lt hi hj
    refine (List.subperm_of_subset hnodup fun x hx => ?_).perm_of_length_le ?_
    · obtain ⟨i, -, rfl⟩ := List.mem_map.mp hx
      exact hget i
    · rw [List.length_map, List.length_range]

end Circle
