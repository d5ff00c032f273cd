/-
Doubly linked chains.

`Links α` is a pair of pointer maps, `next` and `prev`.  A list of pointers is a
segment when each pointer's links name its neighbours, and `Chains k cs` says
that the lists of `cs` are pairwise disjoint segments ended by null on both
sides.  The rules at the end are the ones a list program needs: how a walk and a
return to the first node read a chain, and what unlinking a node, linking a lone
node before another and linking it after the last do to the family of chains.
Every rule speaks about the whole family, so nothing has to be said about the
chains an operation does not touch.
-/
import Mathlib.Data.List.Induction
import Mathlib.Data.List.Nodup
import Mathlib.Data.List.Perm.Basic
import Mathlib.Logic.Function.Basic

/-- Two partial pointer maps. -/
structure Links (α : Type*) where
  next : α → Option α
  prev : α → Option α

namespace Links

variable {α : Type*}

section Write

variable [DecidableEq α]

/-! ## Writing links -/

def setNext (k : Links α) (p : α) (q : Option α) : Links α :=
  { k with next := Function.update k.next p q }

def setPrev (k : Links α) (p : α) (q : Option α) : Links α :=
  { k with prev := Function.update k.prev p q }

/-- `setNext` through a pointer that may be null. -/
def setNext? (k : Links α) : Option α → Option α → Links α
  | none, _ => k
  | some p, q => k.setNext p q

/-- `setPrev` through a pointer that may be null. -/
def setPrev? (k : Links α) : Option α → Option α → Links α
  | none, _ => k
  | some p, q => k.setPrev p q

@[simp] theorem next_setPrev (k : Links α) (p : α) (q : Option α) (r : α) :
    (k.setPrev p q).next r = k.next r := rfl

@[simp] theorem prev_setNext (k : Links α) (p : α) (q : Option α) (r : α) :
    (k.setNext p q).prev r = k.prev r := rfl

@[simp] theorem next_setPrev? (k : Links α) (p q : Option α) (r : α) :
    (k.setPrev? p q).next r = k.next r := by cases p <;> rfl

@[simp] theorem prev_setNext? (k : Links α) (p q : Option α) (r : α) :
    (k.setNext? p q).prev r = k.prev r := by cases p <;> rfl

theorem next_setNext (k : Links α) (p : α) (q : Option α) (r : α) :
    (k.setNext p q).next r = if r = p then q else k.next r := Function.update_apply ..

theorem prev_setPrev (k : Links α) (p : α) (q : Option α) (r : α) :
    (k.setPrev p q).prev r = if r = p then q else k.prev r := Function.update_apply ..

theorem next_setNext? (k : Links α) (p q : Option α) (r : α) :
    (k.setNext? p q).next r = if some r = p then q else k.next r := by
  cases p with
  | none => simp [setNext?]
  | some p => simp [setNext?, next_setNext]

theorem prev_setPrev? (k : Links α) (p q : Option α) (r : α) :
    (k.setPrev? p q).prev r = if some r = p then q else k.prev r := by
  cases p with
  | none => simp [setPrev?]
  | some p => simp [setPrev?, prev_setPrev]

/-- Take `p` out from between its neighbours and clear its links. -/
def unlink (k : Links α) (p : α) : Links α :=
  let prevlist := k.prev p
  let nextlist := k.next p
  (((k.setNext? prevlist nextlist).setPrev? nextlist prevlist).setNext p none).setPrev p none

/-- Put `p` between `cur` and the node before it. -/
def linkBefore (k : Links α) (cur p : α) : Links α :=
  let prev := k.prev cur
  (((k.setPrev p prev).setNext p (some cur)).setPrev cur (some p)).setNext? prev (some p)

/-- Put `p` after `last`, or alone when there is no `last`. -/
def linkLast (k : Links α) (last : Option α) (p : α) : Links α :=
  ((k.setNext? last (some p)).setPrev p last).setNext p none

/-- A node that nothing comes before leaves its list without touching `prev`. -/
theorem unlink_of_prev_none {k : Links α} {p : α} (hp : k.prev p = none) :
    k.unlink p = (k.setPrev? (k.next p) none).setNext p none := by
  simp only [unlink, hp, setNext?]
  have hpn : ((k.setPrev? (k.next p) none).setNext p none).prev p = none := by
    rw [prev_setNext, prev_setPrev?]
    split
    · rfl
    · exact hp
  exact congrArg (Links.mk _) (Function.update_eq_self_iff.mpr hpn.symm)

/-- Clearing the links of a lone node changes nothing. -/
theorem clear_of_none {k : Links α} {p : α} (hp : k.prev p = none) (hn : k.next p = none) :
    (k.setPrev p none).setNext p none = k := by
  have h₁ : Function.update k.prev p none = k.prev := by
    rw [← hp, Function.update_eq_self]
  have h₂ : Function.update k.next p none = k.next := by
    rw [← hn, Function.update_eq_self]
  simp only [setPrev, setNext, h₁, h₂]

end Write

/-! ## Reading links -/

/-- Follow `prev` to a node that has none, at most `fuel` times. -/
def first (k : Links α) : Nat → α → α
  | 0, p => p
  | fuel + 1, p =>
    match k.prev p with
    | none => p
    | some q => k.first fuel q

/-- The nodes met by following `step`, at most `fuel` of them. -/
def follow (step : α → Option α) : Nat → Option α → List α
  | 0, _ => []
  | _ + 1, none => []
  | fuel + 1, some p => p :: follow step fuel (step p)

theorem length_follow_le (next : α → Option α) (fuel : Nat) (start : Option α) :
    (follow next fuel start).length ≤ fuel := by
  induction fuel generalizing start with
  | zero => cases start <;> exact Nat.le_refl 0
  | succ fuel ih =>
    cases start with
    | none => exact Nat.zero_le _
    | some p => exact Nat.succ_le_succ (ih (next p))

/-- The nodes met by following `next`. -/
def walk (k : Links α) (fuel : Nat) (start : Option α) : List α := follow k.next fuel start

/-! ## Segments -/

/-- The nodes of `l` are linked in order, the first one back to `b` and the last
one on to `e`. -/
def Seg (k : Links α) : Option α → List α → Option α → Prop
  | _, [], _ => True
  | b, p :: l, e => k.prev p = b ∧ k.next p = l.head?.or e ∧ k.Seg (some p) l e

theorem seg_cons {k : Links α} {b e : Option α} {p : α} {l : List α} :
    k.Seg b (p :: l) e ↔ k.prev p = b ∧ k.next p = l.head?.or e ∧ k.Seg (some p) l e :=
  Iff.rfl

theorem seg_append {k : Links α} {b e : Option α} {l₁ l₂ : List α} :
    k.Seg b (l₁ ++ l₂) e ↔
      k.Seg b l₁ (l₂.head?.or e) ∧ k.Seg (l₁.getLast?.or b) l₂ e := by
  induction l₁ generalizing b with
  | nil => simp [Seg]
  | cons p l₁ ih =>
    have hl : (p :: l₁).getLast?.or b = l₁.getLast?.or (some p) := by
      rw [List.getLast?_cons]
      cases l₁.getLast? <;> rfl
    have hh : (l₁ ++ l₂).head?.or e = l₁.head?.or (l₂.head?.or e) := by
      cases l₁ <;> rfl
    rw [List.cons_append, seg_cons, seg_cons, ih, hl, hh]
    tauto

/-- A segment is a statement about the links of its own nodes. -/
theorem Seg.congr {k k' : Links α} {b e : Option α} {l : List α} (h : k.Seg b l e)
    (hn : ∀ p ∈ l, k'.next p = k.next p) (hp : ∀ p ∈ l, k'.prev p = k.prev p) :
    k'.Seg b l e := by
  induction l generalizing b with
  | nil => trivial
  | cons p l ih =>
    obtain ⟨h₁, h₂, h₃⟩ := h
    exact ⟨(hp p (List.mem_cons_self)).trans h₁, (hn p (List.mem_cons_self)).trans h₂,
      ih h₃ (fun q hq => hn q (List.mem_cons_of_mem _ hq))
        fun q hq => hp q (List.mem_cons_of_mem _ hq)⟩

/-- Redirecting the links out of a segment: only its last `next` leaves it. -/
theorem Seg.relinkEnd {k k' : Links α} {b e e' : Option α} {l : List α} (h : k.Seg b l e)
    (hnd : l.Nodup) (hp : ∀ p ∈ l, k'.prev p = k.prev p)
    (hlast : ∀ p, l.getLast? = some p → k'.next p = e')
    (hn : ∀ p ∈ l, l.getLast? ≠ some p → k'.next p = k.next p) : k'.Seg b l e' := by
  induction l generalizing b with
  | nil => trivial
  | cons p l ih =>
    obtain ⟨h₁, h₂, h₃⟩ := h
    obtain ⟨hpl, hnd⟩ := List.nodup_cons.mp hnd
    refine ⟨(hp p List.mem_cons_self).trans h₁, ?_, ?_⟩
    · cases l with
      | nil => exact hlast p rfl
      | cons q l =>
        rw [hn p List.mem_cons_self ?_, h₂]
        · rfl
        · intro hl
          exact hpl (List.mem_of_getLast? (by simpa using hl))
    · cases l with
      | nil => trivial
      | cons q l =>
        refine ih h₃ hnd (fun r hr => hp r (List.mem_cons_of_mem _ hr)) (fun r hr => hlast r ?_)
          fun r hr hne => hn r (List.mem_cons_of_mem _ hr) ?_
        · simpa using hr
        · simpa using hne

/-- Redirecting the links out of a segment: only its first `prev` leaves it. -/
theorem Seg.relinkStart {k k' : Links α} {b b' e : Option α} {l : List α} (h : k.Seg b l e)
    (hnd : l.Nodup) (hn : ∀ p ∈ l, k'.next p = k.next p)
    (hfirst : ∀ p, l.head? = some p → k'.prev p = b')
    (hp : ∀ p ∈ l, l.head? ≠ some p → k'.prev p = k.prev p) : k'.Seg b' l e := by
  cases l with
  | nil => trivial
  | cons p l =>
    obtain ⟨h₁, h₂, h₃⟩ := h
    obtain ⟨hpl, hnd⟩ := List.nodup_cons.mp hnd
    refine ⟨hfirst p rfl, (hn p List.mem_cons_self).trans h₂, ?_⟩
    refine h₃.congr (fun q hq => hn q (List.mem_cons_of_mem _ hq)) fun q hq =>
      hp q (List.mem_cons_of_mem _ hq) ?_
    rintro heq
    obtain rfl : p = q := by simpa using heq
    exact hpl hq

/-- A null-ended segment is what a walk from its head reads. -/
theorem Seg.walk {k : Links α} {b : Option α} {l : List α} (h : k.Seg b l none) {fuel : Nat}
    (hf : l.length ≤ fuel) : k.walk fuel l.head? = l := by
  induction l generalizing b fuel with
  | nil => cases fuel <;> rfl
  | cons p l ih =>
    obtain ⟨fuel, rfl⟩ : ∃ n, fuel = n + 1 := Nat.exists_eq_succ_of_ne_zero (by
      rintro rfl
      simp at hf)
    have hnext : k.next p = l.head? := h.2.1.trans Option.or_none
    have htail : follow k.next fuel l.head? = l := ih h.2.2 (by simpa using hf)
    rw [List.head?_cons, Links.walk, follow, hnext, htail]

/-- Following `prev` from a node of a segment that starts with null reaches the
first node. -/
theorem Seg.first {k : Links α} {e : Option α} {l₁ l₂ : List α} {p : α}
    (h : k.Seg none (l₁ ++ p :: l₂) e) {fuel : Nat} (hf : l₁.length ≤ fuel) :
    some (k.first fuel p) = (l₁ ++ p :: l₂).head? := by
  induction l₁ using List.reverseRecOn generalizing p l₂ fuel with
  | nil =>
    have hp : k.prev p = none := h.1
    cases fuel with
    | zero => rfl
    | succ fuel => simp [Links.first, hp]
  | append_singleton l₁ q ih =>
    obtain ⟨fuel, rfl⟩ : ∃ n, fuel = n + 1 := Nat.exists_eq_succ_of_ne_zero (by
      rintro rfl
      simp at hf)
    have hp : k.prev p = some q := by
      have h2 := (seg_append.mp h).2.1
      simpa using h2
    have hs : k.Seg none (l₁ ++ q :: (p :: l₂)) e := by simpa using h
    have hr : some (k.first fuel q) = _ := ih hs (by simpa using hf)
    rw [Links.first, hp]
    simpa using hr

/-! ## Families of chains -/

/-- The lists of `cs` are disjoint null-ended chains of `k`. -/
structure Chains (k : Links α) (cs : List (List α)) : Prop where
  nodup : cs.flatten.Nodup
  seg : ∀ c ∈ cs, k.Seg none c none

namespace Chains

variable {k : Links α} {cs cs' : List (List α)} {l l₁ l₂ : List α} {p q : α}

theorem perm (h : k.Chains cs) (hp : cs.Perm cs') : k.Chains cs' where
  nodup := hp.flatten.nodup_iff.mp h.nodup
  seg c hc := h.seg c (hp.mem_iff.mpr hc)

theorem swap {c d : List α} (h : k.Chains (c :: d :: cs)) : k.Chains (d :: c :: cs) :=
  h.perm (List.Perm.swap d c cs)

theorem tail {c : List α} (h : k.Chains (c :: cs)) : k.Chains cs where
  nodup := (List.nodup_append.mp (by simpa using h.nodup)).2.1
  seg d hd := h.seg d (List.mem_cons_of_mem _ hd)

theorem nodup_head (h : k.Chains (l :: cs)) : l.Nodup :=
  (List.nodup_append.mp (by simpa using h.nodup)).1

theorem disjoint_head (h : k.Chains (l :: cs)) : l.Disjoint cs.flatten :=
  List.disjoint_of_nodup_append (by simpa using h.nodup)

theorem walk (h : k.Chains (l :: cs)) {fuel : Nat} (hf : l.length ≤ fuel) :
    k.walk fuel l.head? = l :=
  (h.seg l List.mem_cons_self).walk hf

theorem first (h : k.Chains (l :: cs)) (hp : p ∈ l) {fuel : Nat} (hf : l.length ≤ fuel) :
    some (k.first fuel p) = l.head? := by
  obtain ⟨l₁, l₂, rfl⟩ := List.append_of_mem hp
  exact (h.seg _ List.mem_cons_self).first (by simp at hf; omega)

theorem next_of_split (h : k.Chains ((l₁ ++ p :: l₂) :: cs)) : k.next p = l₂.head? := by
  have := (seg_append.mp (h.seg _ List.mem_cons_self)).2.2.1
  rwa [Option.or_none] at this

theorem prev_of_split (h : k.Chains ((l₁ ++ p :: l₂) :: cs)) : k.prev p = l₁.getLast? := by
  have := (seg_append.mp (h.seg _ List.mem_cons_self)).2.1
  rwa [Option.or_none] at this

theorem next_of_cons (h : k.Chains ((p :: l) :: cs)) : k.next p = l.head? := by
  have h' : k.Chains (([] ++ p :: l) :: cs) := h
  exact h'.next_of_split

theorem prev_of_cons (h : k.Chains ((p :: l) :: cs)) : k.prev p = none := by
  have h' : k.Chains (([] ++ p :: l) :: cs) := h
  exact h'.prev_of_split

/-- The rule behind the three below: rewrite some chains, leave the links of the
others alone. -/
theorem replace (cs ds : List (List α)) (h : k.Chains (cs ++ cs')) {k' : Links α}
    (hperm : ds.flatten.Perm cs.flatten) (hds : ∀ c ∈ ds, k'.Seg none c none)
    (hn : ∀ r, r ∉ cs.flatten → k'.next r = k.next r)
    (hp : ∀ r, r ∉ cs.flatten → k'.prev r = k.prev r) : k'.Chains (ds ++ cs') where
  nodup := by
    have h0 := h.nodup
    rw [List.flatten_append] at h0 ⊢
    exact (hperm.append_right _).nodup_iff.mpr h0
  seg c hc := by
    rcases List.mem_append.mp hc with hc | hc
    · exact hds c hc
    · have hd : cs.flatten.Disjoint cs'.flatten :=
        List.disjoint_of_nodup_append (by simpa using h.nodup)
      have hout : ∀ r ∈ c, r ∉ cs.flatten := fun r hr hr' =>
        hd hr' (List.mem_flatten.mpr ⟨c, hc, hr⟩)
      exact (h.seg c (List.mem_append_right _ hc)).congr (fun r hr => hn r (hout r hr))
        fun r hr => hp r (hout r hr)

/-- The links of a node stay in its chain. -/
theorem next_mem (h : k.Chains (l :: cs)) (hp : p ∈ l) (hq : k.next p = some q) : q ∈ l := by
  obtain ⟨l₁, l₂, rfl⟩ := List.append_of_mem hp
  rw [h.next_of_split] at hq
  exact List.mem_append_right _ (List.mem_cons_of_mem _ (List.mem_of_head? hq))

theorem prev_mem (h : k.Chains (l :: cs)) (hp : p ∈ l) (hq : k.prev p = some q) : q ∈ l := by
  obtain ⟨l₁, l₂, rfl⟩ := List.append_of_mem hp
  rw [h.prev_of_split] at hq
  exact List.mem_append_left _ (List.mem_of_getLast? hq)

/-- The nodes met on the way back are nodes of the chain. -/
theorem follow_prev_mem (h : k.Chains (l :: cs)) {fuel : Nat} {o : Option α}
    (ho : ∀ p, o = some p → p ∈ l) (hq : q ∈ follow k.prev fuel o) : q ∈ l := by
  induction fuel generalizing o with
  | zero => cases hq
  | succ fuel ih =>
    cases o with
    | none => cases hq
    | some p =>
      rcases List.mem_cons.mp hq with rfl | hq
      · exact ho q rfl
      · exact ih (fun r hr => h.prev_mem (ho p rfl) hr) hq

variable [DecidableEq α]

/-- Unlinking a node leaves its chain without it and the node alone. -/
theorem unlink (h : k.Chains ((l₁ ++ p :: l₂) :: cs)) :
    (k.unlink p).Chains ((l₁ ++ l₂) :: [p] :: cs) := by
  have hn := h.next_of_split
  have hp := h.prev_of_split
  have hseg := seg_append.mp (h.seg _ List.mem_cons_self)
  have hnd := h.nodup_head
  obtain ⟨hnd₁, hndp, hdis⟩ := List.nodup_append'.mp hnd
  obtain ⟨hp₂, hnd₂⟩ := List.nodup_cons.mp hndp
  have hnext : ∀ r, (k.unlink p).next r =
      if r = p then none else if some r = l₁.getLast? then l₂.head? else k.next r := by
    intro r
    simp only [Links.unlink, next_setPrev, next_setNext, next_setPrev?, next_setNext?, hn, hp]
  have hprev : ∀ r, (k.unlink p).prev r =
      if r = p then none else if some r = l₂.head? then l₁.getLast? else k.prev r := by
    intro r
    simp only [Links.unlink, prev_setPrev, prev_setNext, prev_setPrev?, prev_setNext?, hn, hp]
  have hne₁ : ∀ r ∈ l₁, r ≠ p := fun r hr he => hdis hr (he ▸ List.mem_cons_self)
  have hne₂ : ∀ r ∈ l₂, r ≠ p := fun r hr he => hp₂ (he ▸ hr)
  have hl₁ : ∀ r, l₁.getLast? = some r → r ∈ l₁ := fun r hr => List.mem_of_getLast? hr
  have hl₂ : ∀ r, l₂.head? = some r → r ∈ l₂ := fun r hr => List.mem_of_head? hr
  have hdis' : ∀ r ∈ l₁, r ∉ l₂ := fun r hr hr' => hdis hr (List.mem_cons_of_mem _ hr')
  have hs₁ : (k.unlink p).Seg none l₁ (l₂.head?.or none) := by
    refine hseg.1.relinkEnd hnd₁ (fun r hr => ?_) (fun r hr => ?_) fun r hr hlast => ?_
    · rw [hprev, if_neg (hne₁ r hr), if_neg fun he => hdis' r hr (hl₂ r he.symm)]
    · rw [hnext, if_neg (hne₁ r (hl₁ r hr)), if_pos hr.symm, Option.or_none]
    · rw [hnext, if_neg (hne₁ r hr), if_neg fun he => hlast he.symm]
  have hs₂ : (k.unlink p).Seg (l₁.getLast?.or none) l₂ none := by
    refine hseg.2.2.2.relinkStart hnd₂ (fun r hr => ?_) (fun r hr => ?_) fun r hr hfirst => ?_
    · rw [hnext, if_neg (hne₂ r hr), if_neg fun he => hdis' r (hl₁ r he.symm) hr]
    · rw [hprev, if_neg (hne₂ r (hl₂ r hr)), if_pos hr.symm, Option.or_none]
    · rw [hprev, if_neg (hne₂ r hr), if_neg fun he => hfirst he.symm]
  refine replace [l₁ ++ p :: l₂] [l₁ ++ l₂, [p]] h ?_ ?_ (fun r hr => ?_)
    fun r hr => ?_
  · have hp : (l₂ ++ [p]).Perm ([p] ++ l₂) := List.perm_append_comm
    simpa using hp.append_left l₁
  · intro c hc
    rcases List.mem_pair.mp hc with rfl | rfl
    · exact seg_append.mpr ⟨hs₁, hs₂⟩
    · exact ⟨by rw [hprev, if_pos rfl], by rw [hnext, if_pos rfl]; rfl, trivial⟩
  · have hr' : r ∉ l₁ ∧ r ≠ p ∧ r ∉ l₂ := by simpa using hr
    rw [hnext, if_neg hr'.2.1, if_neg fun he => hr'.1 (hl₁ r he.symm)]
  · have hr' : r ∉ l₁ ∧ r ≠ p ∧ r ∉ l₂ := by simpa using hr
    rw [hprev, if_neg hr'.2.1, if_neg fun he => hr'.2.2 (hl₂ r he.symm)]

/-- Unlinking the first node of a chain. -/
theorem unlink_of_cons (h : k.Chains ((p :: l) :: cs)) : (k.unlink p).Chains (l :: [p] :: cs) := by
  have h' : k.Chains (([] ++ p :: l) :: cs) := h
  exact h'.unlink

/-- Linking a lone node before a node of a chain. -/
theorem linkBefore (h : k.Chains ((l₁ ++ q :: l₂) :: [p] :: cs)) :
    (k.linkBefore q p).Chains ((l₁ ++ p :: q :: l₂) :: cs) := by
  have hq := h.prev_of_split
  have hseg := seg_append.mp (h.seg _ List.mem_cons_self)
  have hpout : p ∉ l₁ ++ q :: l₂ := fun hp => h.disjoint_head hp (by simp)
  obtain ⟨hnd₁, hndq, hdis⟩ := List.nodup_append'.mp h.nodup_head
  obtain ⟨hq₂, hnd₂⟩ := List.nodup_cons.mp hndq
  obtain ⟨hp₁, hpq, hp₂⟩ : p ∉ l₁ ∧ p ≠ q ∧ p ∉ l₂ := by simpa using hpout
  have hnext : ∀ r, (k.linkBefore q p).next r =
      if some r = l₁.getLast? then some p else if r = p then some q else k.next r := by
    intro r
    simp only [Links.linkBefore, next_setNext?, next_setPrev, next_setNext, hq]
  have hprev : ∀ r, (k.linkBefore q p).prev r =
      if r = q then some p else if r = p then l₁.getLast? else k.prev r := by
    intro r
    simp only [Links.linkBefore, prev_setNext?, prev_setPrev, prev_setNext, hq]
  have hl₁ : ∀ r, l₁.getLast? = some r → r ∈ l₁ := fun r hr => List.mem_of_getLast? hr
  have hq₁ : q ∉ l₁ := fun hr => hdis hr List.mem_cons_self
  have hneq : ∀ r ∈ l₁, r ≠ q := fun r hr he => hq₁ (he ▸ hr)
  have hnep : ∀ r ∈ l₁, r ≠ p := fun r hr he => hp₁ (he ▸ hr)
  have hs₁ : (k.linkBefore q p).Seg none l₁ (some p) := by
    refine hseg.1.relinkEnd hnd₁ (fun r hr => ?_) (fun r hr => ?_) fun r hr hlast => ?_
    · rw [hprev, if_neg (hneq r hr), if_neg (hnep r hr)]
    · rw [hnext, if_pos hr.symm]
    · rw [hnext, if_neg fun he => hlast he.symm, if_neg (hnep r hr)]
  have hs₂ : (k.linkBefore q p).Seg (some p) (q :: l₂) none := by
    refine hseg.2.relinkStart hndq (fun r hr => ?_) (fun r hr => ?_) fun r hr hfirst => ?_
    · rw [hnext, if_neg fun he => hdis (hl₁ r he.symm) hr, if_neg]
      rintro rfl
      exact hpout (List.mem_append_right _ hr)
    · obtain rfl : q = r := by simpa using hr
      rw [hprev, if_pos rfl]
    · rw [hprev, if_neg fun he => hfirst (by rw [he]; rfl), if_neg]
      rintro rfl
      exact hpout (List.mem_append_right _ hr)
  refine replace [l₁ ++ q :: l₂, [p]] [l₁ ++ p :: q :: l₂] h ?_ ?_ (fun r hr => ?_)
    fun r hr => ?_
  · have hp : ([p] ++ q :: l₂).Perm (q :: l₂ ++ [p]) := List.perm_append_comm
    simpa using hp.append_left l₁
  · intro c hc
    rw [List.mem_singleton.mp hc]
    refine seg_append.mpr ⟨hs₁, ?_, ?_, hs₂⟩
    · rw [hprev, if_neg hpq, if_pos rfl, Option.or_none]
    · rw [hnext, if_neg fun he => hp₁ (hl₁ p he.symm), if_pos rfl]
      rfl
  · obtain ⟨hr₁, hrq, hr₂, hrp⟩ : r ∉ l₁ ∧ r ≠ q ∧ r ∉ l₂ ∧ r ≠ p := by simpa using hr
    rw [hnext, if_neg fun he => hr₁ (hl₁ r he.symm), if_neg hrp]
  · obtain ⟨hr₁, hrq, hr₂, hrp⟩ : r ∉ l₁ ∧ r ≠ q ∧ r ∉ l₂ ∧ r ≠ p := by simpa using hr
    rw [hprev, if_neg hrq, if_neg hrp]

/-- Linking a lone node before the first node of a chain. -/
theorem linkBefore_of_cons (h : k.Chains ((q :: l) :: [p] :: cs)) :
    (k.linkBefore q p).Chains ((p :: q :: l) :: cs) := by
  have h' : k.Chains (([] ++ q :: l) :: [p] :: cs) := h
  exact h'.linkBefore

/-- Linking a lone node after the last node of a chain. -/
theorem linkLast (h : k.Chains (l :: [p] :: cs)) :
    (k.linkLast l.getLast? p).Chains ((l ++ [p]) :: cs) := by
  have hp : p ∉ l := fun hp => h.disjoint_head hp (by simp)
  have hnext : ∀ r, (k.linkLast l.getLast? p).next r =
      if r = p then none else if some r = l.getLast? then some p else k.next r := by
    intro r
    simp only [Links.linkLast, next_setNext, next_setPrev, next_setNext?]
  have hprev : ∀ r, (k.linkLast l.getLast? p).prev r =
      if r = p then l.getLast? else k.prev r := by
    intro r
    simp only [Links.linkLast, prev_setNext, prev_setPrev, prev_setNext?]
  have hne : ∀ r ∈ l, r ≠ p := fun r hr he => hp (he ▸ hr)
  have hl : ∀ r, l.getLast? = some r → r ∈ l := fun r hr => List.mem_of_getLast? hr
  refine replace [l, [p]] [l ++ [p]] h ?_ ?_ (fun r hr => ?_) fun r hr => ?_
  · simp
  · intro c hc
    rw [List.mem_singleton.mp hc]
    refine seg_append.mpr ⟨?_, ?_, ?_, trivial⟩
    · refine (h.seg l List.mem_cons_self).relinkEnd h.nodup_head (fun r hr => ?_) (fun r hr => ?_)
        fun r hr hlast => ?_
      · rw [hprev, if_neg (hne r hr)]
      · rw [hnext, if_neg (hne r (hl r hr)), if_pos hr.symm]
        rfl
      · rw [hnext, if_neg (hne r hr), if_neg fun he => hlast he.symm]
    · rw [hprev, if_pos rfl, Option.or_none]
    · rw [hnext, if_pos rfl]
      rfl
  · obtain ⟨hr, hrp⟩ : r ∉ l ∧ r ≠ p := by simpa using hr
    rw [hnext, if_neg hrp, if_neg fun he => hr (hl r he.symm)]
  · obtain ⟨hr, hrp⟩ : r ∉ l ∧ r ≠ p := by simpa using hr
    rw [hprev, if_neg hrp]

end Chains
end Links
