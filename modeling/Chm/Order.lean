/-
The order of the server list.

`compare_order` compares names, control ports, cuks and custom seeds one after the
other, with custom seeds first when they make the chmpxids.  `orderKey` collects
what it reads in one lexicographic key, so `compare_order` is the comparison of two
keys.  An insertion keeps a sorted list sorted when no server has the new one's
key, and an overwrite in place does when the server's new key stands where its old
one stood.
-/
import Mathlib.Data.List.Lex
import Mathlib.Data.List.Sort
import Mathlib.Data.Prod.Lex
import Chm.MergeLists

namespace Chm

/-! ## Comparing strings -/

theorem strcmp_cases (a b : CStr) :
    (strcmp a b = -1 ∧ a < b) ∨ (strcmp a b = 0 ∧ a = b) ∨ (strcmp a b = 1 ∧ b < a) := by
  induction a generalizing b with
  | nil =>
    cases b with
    | nil => exact Or.inr (Or.inl ⟨rfl, rfl⟩)
    | cons y ys => exact Or.inl ⟨rfl, List.nil_lt_cons y ys⟩
  | cons x xs ih =>
    cases b with
    | nil => exact Or.inr (Or.inr ⟨rfl, List.nil_lt_cons x xs⟩)
    | cons y ys =>
      rcases lt_trichotomy x y with hlt | rfl | hgt
      · refine Or.inl ⟨?_, List.cons_lt_cons_iff.mpr (Or.inl hlt)⟩
        rw [strcmp, if_neg (Nat.ne_of_lt hlt), if_pos hlt]
      · rw [strcmp, if_pos rfl]
        rcases ih ys with ⟨he, hl⟩ | ⟨he, rfl⟩ | ⟨he, hl⟩
        · exact Or.inl ⟨he, List.cons_lt_cons_iff.mpr (Or.inr ⟨rfl, hl⟩)⟩
        · exact Or.inr (Or.inl ⟨he, rfl⟩)
        · exact Or.inr (Or.inr ⟨he, List.cons_lt_cons_iff.mpr (Or.inr ⟨rfl, hl⟩)⟩)
      · refine Or.inr (Or.inr ⟨?_, List.cons_lt_cons_iff.mpr (Or.inl hgt)⟩)
        rw [strcmp, if_neg (Nat.ne_of_gt hgt), if_neg (Nat.not_lt_of_gt hgt)]

theorem strcmp_eq_zero_iff {a b : CStr} : strcmp a b = 0 ↔ a = b := by
  rcases strcmp_cases a b with ⟨he, hl⟩ | ⟨he, rfl⟩ | ⟨he, hl⟩
  · rw [he]
    exact ⟨fun h => absurd h (by decide), fun h => absurd h (ne_of_lt hl)⟩
  · exact ⟨fun _ => rfl, fun _ => he⟩
  · rw [he]
    exact ⟨fun h => absurd h (by decide), fun h => absurd h (ne_of_gt hl)⟩

theorem strcmp_neg_iff {a b : CStr} : 0 > strcmp a b ↔ a < b := by
  rcases strcmp_cases a b with ⟨he, hl⟩ | ⟨he, rfl⟩ | ⟨he, hl⟩
  · rw [he]
    exact ⟨fun _ => hl, fun _ => by decide⟩
  · rw [he]
    exact ⟨fun h => absurd h (by decide), fun h => absurd h (lt_irrefl _)⟩
  · rw [he]
    exact ⟨fun h => absurd h (by decide), fun h => absurd h (lt_asymm hl)⟩

/-! ## Keys -/

/-- The keys of the list order: custom seed, name, control port, cuk, custom
seed, where one of the two seeds is left empty. -/
abbrev OrderKey := CStr ×ₗ CStr ×ₗ ℤ ×ₗ CStr ×ₗ CStr

/-- What `compare_order` reads of a chmpx, in the order in which it reads it. -/
def Chmpx.orderKey (type : ChmpxIdSeedType) (c : Chmpx) : OrderKey :=
  toLex (if type = .custom then c.customSeed else [], toLex (c.name, toLex (c.ctlport,
    toLex (c.cuk, if type = .custom then [] else c.customSeed))))

/-- `compare_order` is the comparison of the keys. -/
theorem Chmpx.compareOrder_neg_iff (type : ChmpxIdSeedType) (c other : Chmpx) :
    0 > c.compareOrder type other ↔ other.orderKey type < c.orderKey type := by
  have hport : (0 > (if other.ctlport < c.ctlport then (-1 : Int) else 1)) ↔
      other.ctlport < c.ctlport := by
    split <;> simp_all
  simp only [Chmpx.orderKey, Prod.Lex.toLex_lt_toLex]
  rw [Chmpx.compareOrder]
  by_cases hcustom : type = .custom
  · simp only [hcustom, true_and, if_true, ne_eq, not_true_eq_false, if_false, lt_irrefl, and_false,
      or_false]
    split_ifs with h₁ h₂ h₃ h₄ <;> simp_all [strcmp_eq_zero_iff, strcmp_neg_iff]
  · simp only [hcustom, false_and, if_false, ne_eq, not_false_eq_true, if_true, lt_irrefl, true_and,
      false_or]
    split_ifs with h₂ h₃ h₄ <;> simp_all [strcmp_eq_zero_iff, strcmp_neg_iff]

/-! ## Sorted lists -/

/-- An insertion by key of a new key keeps a list strictly sorted. -/
theorem pairwise_orderedInsert {α κ : Type*} [LinearOrder κ] (key : α → κ) (r : α → α → Prop)
    [DecidableRel r] (hr : ∀ a b, r a b ↔ key a < key b) {a : α} {l : List α}
    (hl : l.Pairwise fun b c => key b < key c) (ha : ∀ b ∈ l, key b ≠ key a) :
    (l.orderedInsert r a).Pairwise fun b c => key b < key c := by
  induction l with
  | nil => exact List.pairwise_singleton _ _
  | cons b l ih =>
    obtain ⟨hb, hl'⟩ := List.pairwise_cons.mp hl
    by_cases hab : r a b
    · rw [List.orderedInsert_cons_of_le r l hab]
      refine List.pairwise_cons.mpr ⟨fun c hc => ?_, hl⟩
      have hlt : key a < key b := (hr a b).mp hab
      rcases List.mem_cons.mp hc with rfl | hc
      · exact hlt
      · exact hlt.trans (hb c hc)
    · rw [List.orderedInsert_of_not_le r l hab]
      refine List.pairwise_cons.mpr ⟨fun c hc => ?_,
        ih hl' fun c hc => ha c (List.mem_cons_of_mem _ hc)⟩
      have hba : key b < key a :=
        lt_of_le_of_ne (not_lt.mp fun h => hab ((hr a b).mpr h)) (ha b List.mem_cons_self)
      rcases List.mem_cons.mp ((List.perm_orderedInsert r a l).mem_iff.mp hc) with rfl | hc
      · exact hba
      · exact hb c hc

namespace ChmpxMan

variable {type : ChmpxIdSeedType} {svrs : List Ptr} {p : Ptr}

theorem after_iff {f : Ptr → Chmpx} {p q : Ptr} :
    After type f p q ↔ (f p).orderKey type < (f q).orderKey type :=
  Chmpx.compareOrder_neg_iff type (f q) (f p)

/-- The servers are sorted by key and have different chmpxids. -/
structure Ordered (type : ChmpxIdSeedType) (f : Ptr → Chmpx) (svrs : List Ptr) : Prop where
  sorted : svrs.Pairwise fun p q => (f p).orderKey type < (f q).orderKey type
  distinct : svrs.Pairwise fun p q => (f p).chmpxid ≠ (f q).chmpxid

/-- The key compares with every other server's as that of the server at `p`
does. -/
def KeepsPlace (type : ChmpxIdSeedType) (f : Ptr → Chmpx) (svrs : List Ptr) (p : Ptr)
    (key : OrderKey) : Prop :=
  ∀ q ∈ svrs, q ≠ p →
    ((f q).orderKey type < (f p).orderKey type → (f q).orderKey type < key) ∧
      ((f p).orderKey type < (f q).orderKey type → key < (f q).orderKey type)

/-- No server has the order key or the chmpxid of `c`. -/
def IsNew (type : ChmpxIdSeedType) (f : Ptr → Chmpx) (svrs : List Ptr) (c : Chmpx) : Prop :=
  ∀ q ∈ svrs, (f q).orderKey type ≠ c.orderKey type ∧ (f q).chmpxid ≠ c.chmpxid

/-- The order reads nothing but keys and chmpxids. -/
theorem Ordered.congr {f g : Ptr → Chmpx} (h : Ordered type f svrs)
    (hkey : ∀ p ∈ svrs, (g p).orderKey type = (f p).orderKey type)
    (hid : ∀ p ∈ svrs, (g p).chmpxid = (f p).chmpxid) : Ordered type g svrs :=
  ⟨h.sorted.imp_of_mem fun hp hq hpq => by rwa [hkey _ hp, hkey _ hq],
    h.distinct.imp_of_mem fun hp hq hpq => by rwa [hid _ hp, hid _ hq]⟩

theorem Ordered.filter {f : Ptr → Chmpx} (h : Ordered type f svrs) (k : Ptr → Bool) :
    Ordered type f (svrs.filter k) :=
  ⟨h.sorted.filter k, h.distinct.filter k⟩

/-- Overwriting a server in its place. -/
theorem Ordered.overwrite {f : Ptr → Chmpx} {c : Chmpx} (h : Ordered type f svrs)
    (hnd : svrs.Nodup) (hplace : KeepsPlace type f svrs p (c.orderKey type))
    (hid : c.chmpxid = (f p).chmpxid) :
    Ordered type (Function.update f p c) svrs := by
  have hids : ∀ q, (Function.update f p c q).chmpxid = (f q).chmpxid := fun q => by
    by_cases hq : q = p
    · rw [hq, Function.update_self, hid]
    · rw [Function.update_of_ne hq]
  refine ⟨(hnd.and h.sorted).imp_of_mem ?_, h.distinct.imp fun hpq => by rwa [hids, hids]⟩
  rintro a b ha hb ⟨hne, hab⟩
  by_cases hap : a = p
  · have hbp : b ≠ p := fun he => hne (hap.trans he.symm)
    rw [hap, Function.update_self, Function.update_of_ne hbp]
    exact (hplace b hb hbp).2 (hap ▸ hab)
  · rw [Function.update_of_ne hap]
    by_cases hbp : b = p
    · rw [hbp, Function.update_self]
      exact (hplace a ha hap).1 (hbp ▸ hab)
    · rwa [Function.update_of_ne hbp]

/-- Inserting a new server in order. -/
theorem Ordered.insert {f g : Ptr → Chmpx} {c : Chmpx} (h : Ordered type f svrs) (hp : p ∉ svrs)
    (hg : g = Function.update f p c) (hnew : IsNew type f svrs c) :
    Ordered type g (svrs.orderedInsert (After type g) p) := by
  have hother : ∀ q ∈ svrs, g q = f q := fun q hq => by
    have hqp : q ≠ p := fun he => hp (he ▸ hq)
    rw [hg, Function.update_of_ne hqp]
  have hself : g p = c := by rw [hg, Function.update_self]
  have hord : Ordered type g svrs :=
    h.congr (fun q hq => by rw [hother q hq]) fun q hq => by rw [hother q hq]
  refine ⟨pairwise_orderedInsert (fun q => (g q).orderKey type) _ (fun _ _ => after_iff) hord.sorted
    fun q hq => ?_, ?_⟩
  · rw [hself, hother q hq]
    exact (hnew q hq).1
  · refine ((List.perm_orderedInsert _ p svrs).pairwise_iff fun hab => Ne.symm hab).mpr ?_
    refine List.pairwise_cons.mpr ⟨fun q hq => ?_, hord.distinct⟩
    rw [hself, hother q hq]
    exact (hnew q hq).2.symm

/-- A sorted list and records that are still to be inserted, all different. -/
structure OrderedWith (type : ChmpxIdSeedType) (f : Ptr → Chmpx) (svrs : List Ptr)
    (cs : List Chmpx) : Prop where
  ordered : Ordered type f svrs
  distinct : cs.Pairwise fun c d => c.orderKey type ≠ d.orderKey type ∧ c.chmpxid ≠ d.chmpxid
  isNew : ∀ c ∈ cs, IsNew type f svrs c

namespace OrderedWith

variable {f : Ptr → Chmpx} {c : Chmpx} {cs : List Chmpx}

theorem nil (f : Ptr → Chmpx) (h : cs.Pairwise fun c d =>
    c.orderKey type ≠ d.orderKey type ∧ c.chmpxid ≠ d.chmpxid) : OrderedWith type f [] cs :=
  ⟨⟨List.Pairwise.nil, List.Pairwise.nil⟩, h, fun _ _ _ hq => absurd hq List.not_mem_nil⟩

theorem tail (h : OrderedWith type f svrs (c :: cs)) : OrderedWith type f svrs cs :=
  ⟨h.ordered, (List.pairwise_cons.mp h.distinct).2,
    fun d hd => h.isNew d (List.mem_cons_of_mem _ hd)⟩

theorem insert (h : OrderedWith type f svrs (c :: cs)) (hp : p ∉ svrs) :
    OrderedWith type (Function.update f p c)
      (svrs.orderedInsert (After type (Function.update f p c)) p) cs := by
  obtain ⟨hc, hcs⟩ := List.pairwise_cons.mp h.distinct
  refine ⟨h.ordered.insert hp rfl (h.isNew c List.mem_cons_self), hcs, ?_⟩
  intro d hd q hq
  rcases List.mem_cons.mp ((List.perm_orderedInsert _ p svrs).mem_iff.mp hq) with rfl | hq
  · rw [Function.update_self]
    exact hc d hd
  · have hqp : q ≠ p := fun he => hp (he ▸ hq)
    rw [Function.update_of_ne hqp]
    exact h.isNew d (List.mem_cons_of_mem _ hd) q hq

end OrderedWith

end ChmpxMan
end Chm
