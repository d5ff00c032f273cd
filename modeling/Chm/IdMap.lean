/-
The chmpxid map.

`pchmpxid_map` is a table of buckets, each a singly linked list through the `same`
members.  `Mapped m chain` says that the buckets read as the lists of `chain`, that
a node is in the bucket of its chmpxid, and that a node in no bucket has no `same`
link.  Saving a node appends it to its bucket, retrieving it takes it out, and a
search is a search in one list.
-/
import Chm.Lib.Paths
import Chm.ServerList

namespace Chm

namespace ChmpxMan

variable {m m' : ChmpxMan} {chain : Nat → List Ptr} {p q : Ptr} {chmpxid : ChmpxId}

def slotOf (chmpxid : ChmpxId) : Nat := chmpxid % chmpxIdMapSize

structure Mapped (m : ChmpxMan) (chain : Nat → List Ptr) : Prop where
  path : ∀ i, Links.Path m.same (m.chmpxidMap i) (chain i) none
  nodup : ∀ i, (chain i).Nodup
  valid : ∀ i, ∀ p ∈ chain i, (m.chmpx p).chmpxid ≠ chmInvalidChmpxId
  slot : ∀ i, ∀ p ∈ chain i, slotOf (m.chmpx p).chmpxid = i
  bound : ∀ i, ∀ p ∈ chain i, p < m.chmpxCount
  lone : ∀ p, (∀ i, p ∉ chain i) → m.same p = none

namespace Mapped

/-- The map depends on the two maps, the chmpxids and the size of the area. -/
theorem congr (h : Mapped m chain) (hsame : m'.same = m.same)
    (hmap : m'.chmpxidMap = m.chmpxidMap) (harea : m'.chmpxCount = m.chmpxCount)
    (hid : ∀ i, ∀ p ∈ chain i, (m'.chmpx p).chmpxid = (m.chmpx p).chmpxid) : Mapped m' chain where
  path i := by
    rw [hsame, hmap]
    exact h.path i
  nodup := h.nodup
  valid i p hp := hid i p hp ▸ h.valid i p hp
  slot i p hp := hid i p hp ▸ h.slot i p hp
  bound i p hp := harea ▸ h.bound i p hp
  lone p hp := hsame ▸ h.lone p hp

theorem sameShape (h : Mapped m chain) (hs : SameShape m m') : Mapped m' chain :=
  h.congr hs.same hs.chmpxidMap hs.chmpxCount fun _ p _ => hs.chmpxid p

theorem length_le (h : Mapped m chain) (i : Nat) : (chain i).length ≤ m.chmpxCount := by
  have hsub : chain i ⊆ List.range m.chmpxCount := by
    intro p hp
    exact List.mem_range.mpr (h.bound i p hp)
  simpa using (List.subperm_of_subset (h.nodup i) hsub).length_le

theorem bucket_eq (h : Mapped m chain) (chmpxid : ChmpxId) :
    m.bucket chmpxid = chain (slotOf chmpxid) :=
  (h.path _).follow_eq (h.length_le _)

/-- A node is in one bucket at most. -/
theorem notMem (h : Mapped m chain) (hp : p ∉ chain (slotOf (m.chmpx p).chmpxid)) (i : Nat) :
    p ∉ chain i := by
  intro hi
  rw [h.slot i p hi] at hp
  exact hp hi

/-- A node without a chmpxid is in no bucket. -/
theorem notMem_of_invalid (h : Mapped m chain)
    (hp : (m.chmpx p).chmpxid = chmInvalidChmpxId) (i : Nat) : p ∉ chain i :=
  fun hi => h.valid i p hi hp

end Mapped

/-! ## Saving and retrieving -/

/-- `linkBucket` is the write behind some of the bucket's nodes. -/
theorem linkBucket_relink (m : ChmpxMan) (chmpxid : ChmpxId) (before : List Ptr)
    (q : Option Ptr) :
    m.linkBucket chmpxid before q = m.setMap (Links.relinkStep m.same before q)
      (Function.update m.chmpxidMap (slotOf chmpxid)
        (Links.relinkStart (m.chmpxidMap (slotOf chmpxid)) before q)) := by
  unfold linkBucket Links.relinkStep Links.relinkStart
  cases before.getLast? with
  | none => rfl
  | some r =>
    show m.setSame r q = _
    rw [Function.update_eq_self]
    rfl

namespace Mapped

/-- The rule behind the two below: one bucket is written anew. -/
theorem replace (h : Mapped m chain) {i : Nat} {l : List Ptr} {same : Ptr → Option Ptr}
    {map : Nat → Option Ptr} (hpath : Links.Path same (map i) l none) (hnd : l.Nodup)
    (hin : ∀ q ∈ l, (m.chmpx q).chmpxid ≠ chmInvalidChmpxId ∧
      slotOf (m.chmpx q).chmpxid = i ∧ q < m.chmpxCount)
    (hmap : ∀ j, j ≠ i → map j = m.chmpxidMap j)
    (hsame : ∀ j, j ≠ i → ∀ q ∈ chain j, same q = m.same q)
    (hlone : ∀ q, q ∉ l → (∀ j, j ≠ i → q ∉ chain j) → same q = none) :
    Mapped (m.setMap same map) (Function.update chain i l) := by
  have hchain : ∀ j, Function.update chain i l j = if j = i then l else chain j :=
    fun j => Function.update_apply chain i l j
  refine ⟨fun j => ?_, fun j => ?_, fun j q hq => ?_, fun j q hq => ?_, fun j q hq => ?_,
    fun q hq => ?_⟩
  · rw [hchain]
    split
    · rename_i hj
      subst hj
      exact hpath
    · rename_i hj
      show Links.Path same (map j) (chain j) none
      rw [hmap j hj]
      exact (h.path j).congr (hsame j hj)
  · rw [hchain]
    split
    · exact hnd
    · exact h.nodup j
  · rw [hchain] at hq
    split at hq
    · exact (hin q hq).1
    · exact h.valid j q hq
  · rw [hchain] at hq
    split at hq
    · rename_i hj
      exact (hin q hq).2.1.trans hj.symm
    · exact h.slot j q hq
  · rw [hchain] at hq
    split at hq
    · exact (hin q hq).2.2
    · exact h.bound j q hq
  · refine hlone q ?_ fun j hj => ?_
    · have hi := hq i
      rwa [hchain, if_pos rfl] at hi
    · have hji := hq j
      rwa [hchain, if_neg hj] at hji

/-- Saving a node that is in no bucket appends it to its own. -/
theorem save (h : Mapped m chain) (hp : ∀ i, p ∉ chain i)
    (hid : (m.chmpx p).chmpxid ≠ chmInvalidChmpxId) (hb : p < m.chmpxCount) :
    Mapped (m.saveChmpxIdMap p) (Function.update chain (slotOf (m.chmpx p).chmpxid)
      (chain (slotOf (m.chmpx p).chmpxid) ++ [p])) := by
  have hbucket := h.bucket_eq (m.chmpx p).chmpxid
  generalize hi : slotOf (m.chmpx p).chmpxid = i at hbucket ⊢
  have hlone : m.same p = none := h.lone p hp
  have hstep : Links.relinkStep m.same (chain i) (some p) p = none := by
    rw [Links.Path.relinkStep_of_notMem (hp i), hlone]
  have hsave : m.saveChmpxIdMap p = m.setMap (Links.relinkStep m.same (chain i) (some p))
      (Function.update m.chmpxidMap i
        (Links.relinkStart (m.chmpxidMap i) (chain i) (some p))) := by
    simp only [saveChmpxIdMap, if_neg hid, hbucket, if_neg (hp i), linkBucket_relink, hi]
    exact if_pos hstep
  rw [hsave]
  refine h.replace ?_ ?_ ?_ (fun j hj => Function.update_of_ne hj _ _) ?_ ?_
  · rw [Function.update_self]
    exact (h.path i).append_node (h.nodup i) (hp i) hlone
  · exact List.nodup_append'.mpr ⟨h.nodup i, List.nodup_singleton p,
      List.disjoint_singleton.mpr (hp i)⟩
  · intro q hq
    rcases List.mem_append.mp hq with hq | hq
    · exact ⟨h.valid i q hq, h.slot i q hq, h.bound i q hq⟩
    · rw [List.mem_singleton.mp hq]
      exact ⟨hid, hi, hb⟩
  · intro j hj q hq
    refine Links.Path.relinkStep_of_notMem (fun hqi => hj ?_) _
    exact (h.slot j q hq).symm.trans (h.slot i q hqi)
  · intro q hq hother
    obtain ⟨hqi, hqp⟩ := not_or.mp (List.mem_append.not.mp hq)
    rw [Links.Path.relinkStep_of_notMem hqi]
    refine h.lone q fun j => ?_
    by_cases hj : j = i
    · rw [hj]
      exact hqi
    · exact hother j hj

/-- Retrieving a node that is in no bucket does nothing. -/
theorem retrieve_lone (h : Mapped m chain) (hp : ∀ i, p ∉ chain i) :
    m.retrieveChmpxIdMap p = m := by
  have hsame : m.setSame p none = m := by
    show m.setMap (Function.update m.same p none) m.chmpxidMap = m
    rw [← h.lone p hp, Function.update_eq_self]
    rfl
  simp only [retrieveChmpxIdMap, h.bucket_eq, hp, not_false_eq_true, or_true, if_true, hsame]

/-- Retrieving a node takes it out of its bucket. -/
theorem retrieve (h : Mapped m chain) {i : Nat} (hp : p ∈ chain i) :
    Mapped (m.retrieveChmpxIdMap p) (Function.update chain i ((chain i).erase p)) := by
  have hi : slotOf (m.chmpx p).chmpxid = i := h.slot i p hp
  have hbucket := h.bucket_eq (m.chmpx p).chmpxid
  rw [hi] at hbucket
  obtain ⟨l₁, l₂, hl⟩ := List.append_of_mem hp
  have hnd := h.nodup i
  rw [hl] at hnd
  have hp₁ : p ∉ l₁ := fun hp₁ => (List.nodup_append'.mp hnd).2.2 hp₁ List.mem_cons_self
  have htake : (chain i).takeWhile (· ≠ p) = l₁ := by
    rw [hl, List.takeWhile_append_of_pos]
    · simp
    · intro q hq
      simpa using fun he : q = p => hp₁ (he ▸ hq)
  have herase : (chain i).erase p = l₁ ++ l₂ := by
    rw [hl, List.erase_append_right _ hp₁, List.erase_cons_head]
  have hret : m.retrieveChmpxIdMap p =
      m.setMap (Function.update (Links.relinkStep m.same l₁ (m.same p)) p none)
        (Function.update m.chmpxidMap i
          (Links.relinkStart (m.chmpxidMap i) l₁ (m.same p))) := by
    have hcond : ¬((m.chmpx p).chmpxid = chmInvalidChmpxId ∨ p ∉ chain i) :=
      not_or.mpr ⟨h.valid i p hp, not_not.mpr hp⟩
    simp only [retrieveChmpxIdMap, hbucket, if_neg hcond, htake, linkBucket_relink, hi]
    rfl
  have hmem : ∀ q, q ∈ l₁ ++ l₂ → q ∈ chain i ∧ q ≠ p := by
    intro q hq
    rw [hl]
    refine ⟨List.perm_middle.mem_iff.mpr (List.mem_cons_of_mem _ hq), fun he => ?_⟩
    have hnd' := List.nodup_cons.mp (List.perm_middle.nodup_iff.mp hnd)
    exact hnd'.1 (he ▸ hq)
  rw [hret, herase]
  refine h.replace ?_ ?_ ?_ (fun j hj => Function.update_of_ne hj _ _) ?_ ?_
  · rw [Function.update_self]
    have hpath := h.path i
    rw [hl] at hpath
    exact (hpath.unlink_node hnd).congr fun q hq => Function.update_of_ne (hmem q hq).2 _ _
  · exact (List.nodup_cons.mp (List.perm_middle.nodup_iff.mp hnd)).2
  · intro q hq
    have hqi := (hmem q hq).1
    exact ⟨h.valid i q hqi, h.slot i q hqi, h.bound i q hqi⟩
  · intro j hj q hq
    have hqi : q ∉ chain i := fun hqi => hj ((h.slot j q hq).symm.trans (h.slot i q hqi))
    have hqp : q ≠ p := fun he => hqi (he ▸ hp)
    rw [Function.update_of_ne hqp]
    refine Links.Path.relinkStep_of_notMem (fun hq₁ => hqi ?_) _
    rw [hl]
    exact List.mem_append_left _ hq₁
  · intro q hq hother
    by_cases hqp : q = p
    · rw [hqp, Function.update_self]
    · have hq₁ : q ∉ l₁ := fun hq₁ => hq (List.mem_append_left _ hq₁)
      rw [Function.update_of_ne hqp, Links.Path.relinkStep_of_notMem hq₁]
      refine h.lone q fun j => ?_
      by_cases hj : j = i
      · rw [hj, hl]
        intro hqi
        rcases List.mem_cons.mp (List.perm_middle.mem_iff.mp hqi) with he | hq'
        · exact hqp he
        · exact hq hq'
      · exact hother j hj

end Mapped

/-! ## Searching -/

/-- The record of a server with the chmpxid. -/
def isServerOf (chmpxid : ChmpxId) (c : Chmpx) : Bool :=
  c.isServerMode && decide (chmpxid = c.chmpxid)

/-- `Find` from a server. -/
theorem Mapped.find_eq (h : Mapped m chain) {c : Ptr} (hc : (m.chmpx c).isServerMode = true)
    (hid : chmpxid ≠ chmInvalidChmpxId) :
    m.find (some c) chmpxid =
      (chain (slotOf chmpxid)).find? fun p => isServerOf chmpxid (m.chmpx p) := by
  rw [find, Option.bind_some, searchChmpxid, if_neg hid, h.bucket_eq]
  refine congrArg (fun f => List.find? f _) (funext fun p => ?_)
  rw [hc, isServerOf]
  cases (m.chmpx p).isServerMode <;> rfl

end ChmpxMan
end Chm
