/-
The four lists of message queue heads.

`Placing m a` says that the heads of the area are spread over the lists `a`, that the
links chain each list, and that pointers, counters and flags agree with it.  Every
operation of `chminfo_lap` takes a head out of one list and puts it in front of another;
`Lone` is the state between.
-/
import Chm.MqMsg

namespace Chm

/-- The list that a head is in. -/
inductive MsgKind
  | free
  | assigned
  | activated
  | chmpx
  deriving DecidableEq

namespace MsgKind

def all : List MsgKind := [free, assigned, activated, chmpx]

/-- The flag word of the heads of a list. -/
def flag : MsgKind → MsgFlag
  | free => MsgFlag.initialized
  | assigned => MsgFlag.valClientproc ||| MsgFlag.valAssigned
  | activated => MsgFlag.valClientproc ||| MsgFlag.valAssigned ||| MsgFlag.valActivated
  | chmpx => MsgFlag.valChmpxproc ||| MsgFlag.valAssigned ||| MsgFlag.valActivated

/-- The list that `AssignMsg` puts a head in. -/
def ofAssign (isChmpx isActivated : Bool) : MsgKind :=
  if isChmpx then chmpx else if isActivated then activated else assigned

theorem ofAssign_ne_free (isChmpx isActivated : Bool) : ofAssign isChmpx isActivated ≠ free := by
  cases isChmpx <;> cases isActivated <;> decide

theorem mem_all (k : MsgKind) : k ∈ all := by cases k <;> decide

theorem nodup_all : all.Nodup := by decide

theorem flag_injective : Function.Injective flag := by
  intro k k' h
  cases k <;> cases k' <;> first | rfl | exact absurd h (by decide)

/-- The lists with one of them in front. -/
theorem perm_front (a : MsgKind → List Ptr) (k : MsgKind) :
    (all.map a).Perm (a k :: (all.erase k).map a) :=
  (List.perm_cons_erase (mem_all k)).map a

theorem map_erase_update (a : MsgKind → List Ptr) (k : MsgKind) (l : List Ptr) :
    (all.erase k).map (Function.update a k l) = (all.erase k).map a := by
  refine List.map_congr_left fun k' hk' => ?_
  have hne : k' ≠ k := fun he => by
    rw [he, List.Nodup.mem_erase_iff nodup_all] at hk'
    exact hk'.1 rfl
  exact Function.update_of_ne hne ..

end MsgKind

namespace MsgInfo

variable {m m' : MsgInfo} {a : MsgKind → List Ptr} {k k' : MsgKind} {p q : Ptr} {msgid : Nat}

/-! ## A list by its kind -/

def listHead (m : MsgInfo) : MsgKind → Option Ptr
  | .free => m.freeMsgs
  | .assigned => m.assignedMsgs
  | .activated => m.activatedMsgs
  | .chmpx => m.chmpxMsgs

def listCount (m : MsgInfo) : MsgKind → Int
  | .free => m.freeMsgCount
  | .assigned => m.assignedMsgCount
  | .activated => m.activatedMsgCount
  | .chmpx => m.chmpxMsgCount

def setList (m : MsgInfo) : MsgKind → Int → Option Ptr → MsgInfo
  | .free => m.setFreeMsgs
  | .assigned => m.setAssignedMsgs
  | .activated => m.setActivatedMsgs
  | .chmpx => m.setChmpxMsgs

theorem listHead_setList (m : MsgInfo) (k : MsgKind) (n : Int) (c : Option Ptr) :
    (m.setList k n c).listHead = Function.update m.listHead k c := by
  funext k'
  cases k <;> cases k' <;> rfl

theorem listCount_setList (m : MsgInfo) (k : MsgKind) (n : Int) (c : Option Ptr) :
    (m.setList k n c).listCount = Function.update m.listCount k n := by
  funext k'
  cases k <;> cases k' <;> rfl

/-- The members that the lists do not name. -/
structure SameIds (m m' : MsgInfo) : Prop where
  maxMqueue : m'.maxMqueue = m.maxMqueue
  baseMsgid : m'.baseMsgid = m.baseMsgid
  areaCount : m'.areaCount = m.areaCount
  lastMsgidChmpx : m'.lastMsgidChmpx = m.lastMsgidChmpx
  lastMsgidActivated : m'.lastMsgidActivated = m.lastMsgidActivated
  lastMsgidAssigned : m'.lastMsgidAssigned = m.lastMsgidAssigned
  msgid : ∀ p, (m'.msghead p).msgid = (m.msghead p).msgid

namespace SameIds

theorem refl (m : MsgInfo) : SameIds m m := by
  constructor <;> intros <;> rfl

theorem trans {m₁ m₂ m₃ : MsgInfo} (h : SameIds m₁ m₂) (h' : SameIds m₂ m₃) :
    SameIds m₁ m₃ where
  maxMqueue := h'.maxMqueue.trans h.maxMqueue
  baseMsgid := h'.baseMsgid.trans h.baseMsgid
  areaCount := h'.areaCount.trans h.areaCount
  lastMsgidChmpx := h'.lastMsgidChmpx.trans h.lastMsgidChmpx
  lastMsgidActivated := h'.lastMsgidActivated.trans h.lastMsgidActivated
  lastMsgidAssigned := h'.lastMsgidAssigned.trans h.lastMsgidAssigned
  msgid p := (h'.msgid p).trans (h.msgid p)

theorem setLinks (m : MsgInfo) (l : Links Ptr) : SameIds m (m.setLinks l) := by
  constructor <;> intros <;> rfl

theorem setList (m : MsgInfo) (k : MsgKind) (n : Int) (c : Option Ptr) :
    SameIds m (m.setList k n c) := by
  cases k <;> constructor <;> intros <;> rfl

theorem setHead {h : MqMsgHead} (hid : h.msgid = (m.msghead p).msgid) :
    SameIds m (m.setHead p h) := by
  refine ⟨rfl, rfl, rfl, rfl, rfl, rfl, fun q => ?_⟩
  show (Function.update m.msghead p h q).msgid = _
  rw [Function.update_apply]
  split
  · subst_vars
    exact hid
  · rfl

end SameIds

/-! ## The invariant -/

/-- The lists `a` and the lone heads `ls` are the area, and the pointers, counters, flags
and msgids agree with them. -/
structure Lone (m : MsgInfo) (a : MsgKind → List Ptr) (ls : List (List Ptr)) : Prop where
  chains : m.links.Chains (ls ++ MsgKind.all.map a)
  covers : ∀ p, p < m.areaCount ↔ p ∈ ls.flatten ∨ ∃ k, p ∈ a k
  head : ∀ k, m.listHead k = (a k).head?
  count : ∀ k, m.listCount k = (a k).length
  flag : ∀ k, ∀ p ∈ a k, (m.msghead p).flag = k.flag
  msgid : ∀ p < m.areaCount, (m.msghead p).msgid = m.baseMsgid + p
  fits : 0 < m.areaCount ∧ m.baseMsgid + m.areaCount ≤ chmInvalidMsgId

/-- Every head of the area is in one of the lists. -/
abbrev Placing (m : MsgInfo) (a : MsgKind → List Ptr) : Prop := Lone m a []

namespace Lone

variable {ls : List (List Ptr)}

theorem lt (h : Lone m a ls) (hp : p ∈ a k) : p < m.areaCount :=
  (h.covers p).mpr (Or.inr ⟨k, hp⟩)

theorem chains_front (h : Lone m a ls) (k : MsgKind) :
    m.links.Chains (a k :: ls ++ (MsgKind.all.erase k).map a) :=
  h.chains.perm (((MsgKind.perm_front a k).append_left ls).trans List.perm_middle)

theorem nodup (h : Lone m a ls) (k : MsgKind) : (a k).Nodup :=
  (h.chains_front k).nodup_head

theorem length_le (h : Lone m a ls) (k : MsgKind) : (a k).length ≤ m.areaCount := by
  have hsub : a k ⊆ List.range m.areaCount := fun p hp => List.mem_range.mpr (h.lt hp)
  simpa using ((h.nodup k).subperm hsub).length_le

/-- The flag of a head of the area names its list. -/
theorem flag_iff (h : Placing m a) (hp : p < m.areaCount) :
    p ∈ a k ↔ (m.msghead p).flag = k.flag := by
  constructor
  · exact h.flag k p
  · intro hf
    obtain hl | ⟨k', hk'⟩ := (h.covers p).mp hp
    · exact absurd hl (by simp)
    · have he : k' = k := MsgKind.flag_injective ((h.flag k' p hk').symm.trans hf)
      rwa [← he]

theorem exists_kind (h : Placing m a) (hp : p < m.areaCount) : ∃ k, p ∈ a k := by
  obtain hl | hk := (h.covers p).mp hp
  · exact absurd hl (by simp)
  · exact hk

/-- A head is in one list only. -/
theorem kind_unique (h : Placing m a) (hk : p ∈ a k) (hk' : p ∈ a k') : k = k' :=
  MsgKind.flag_injective ((h.flag k p hk).symm.trans (h.flag k' p hk'))

/-- Where `ToFirst` leaves a cursor in a list. -/
theorem first (h : Lone m a ls) (hp : p ∈ a k) : some (m.first p) = (a k).head? :=
  (h.chains_front k).first hp (h.length_le k)

theorem getFirstPtr (h : Lone m a ls) : m.getFirstPtr (a k).head? = (a k).head? := by
  cases hl : a k with
  | nil => rfl
  | cons p l =>
    have hf := h.first (k := k) (p := p) (by simp [hl])
    rw [hl] at hf
    exact hf

end Lone

/-! ## Taking a head out of its list -/

/-- The list of a retrieved head is read from its neighbour, and is the list without it. -/
theorem getFirstPtr_unlink (h : Placing m a) (hp : p ∈ a k) :
    (m.setLinks (m.links.unlink p)).getFirstPtr ((m.links.next p).or (m.links.prev p)) =
      ((a k).erase p).head? := by
  have hlen := h.length_le k
  have hnd := h.nodup k
  have hc := h.chains_front k
  obtain ⟨l₁, l₂, hl⟩ := List.append_of_mem hp
  rw [hl] at hlen hnd hc ⊢
  have hn : m.links.next p = l₂.head? := hc.next_of_split
  have hb : m.links.prev p = l₁.getLast? := hc.prev_of_split
  have hu := hc.unlink
  have hout : p ∉ l₁ := fun h₁ =>
    (List.nodup_append'.mp hnd).2.2 h₁ List.mem_cons_self
  have he : (l₁ ++ p :: l₂).erase p = l₁ ++ l₂ := by
    rw [List.erase_append_right _ hout, List.erase_cons_head]
  have hlen' : (l₁ ++ l₂).length ≤ m.areaCount := by
    simp only [List.length_append, List.length_cons] at hlen ⊢
    omega
  have hfirst : ∀ q ∈ l₁ ++ l₂, some ((m.setLinks (m.links.unlink p)).first q) =
      (l₁ ++ l₂).head? := fun q hq => hu.first hq hlen'
  rw [he, hn, hb]
  cases l₂ with
  | cons q l₂ => exact hfirst q (by simp)
  | nil =>
    cases hlast : l₁.getLast? with
    | none =>
      rw [List.getLast?_eq_none_iff.mp hlast]
      rfl
    | some q => exact hfirst q (List.mem_append_left _ (List.mem_of_getLast? hlast))

/-- The state between: `p` is out of the list `k`, whose counter and pointer follow. -/
theorem lone_unlink (h : Placing m a) (hp : p ∈ a k) :
    Lone ((m.setLinks (m.links.unlink p)).setList k ((a k).erase p).length
      ((a k).erase p).head?) (Function.update a k ((a k).erase p)) [[p]] := by
  have hnd := h.nodup k
  have hmem : ∀ q, q ∈ (a k).erase p ↔ q ≠ p ∧ q ∈ a k := fun q => hnd.mem_erase_iff
  have hs := (SameIds.setLinks m (m.links.unlink p)).trans
    (SameIds.setList _ k ((a k).erase p).length ((a k).erase p).head?)
  have hmsg : ((m.setLinks (m.links.unlink p)).setList k ((a k).erase p).length
      ((a k).erase p).head?).msghead = m.msghead := by cases k <;> rfl
  refine ⟨?_, fun q => ?_, fun k' => ?_, fun k' => ?_, fun k' q hq => ?_, fun q hq => ?_, ?_⟩
  · have hc := h.chains_front k
    obtain ⟨l₁, l₂, hl⟩ := List.append_of_mem hp
    have hout : p ∉ l₁ := fun h₁ => by
      rw [hl] at hnd
      exact (List.nodup_append'.mp hnd).2.2 h₁ List.mem_cons_self
    have he : (a k).erase p = l₁ ++ l₂ := by
      rw [hl, List.erase_append_right _ hout, List.erase_cons_head]
    rw [hl] at hc
    have hu := hc.unlink.swap
    have hperm := MsgKind.perm_front (Function.update a k ((a k).erase p)) k
    rw [Function.update_self, MsgKind.map_erase_update, he] at hperm
    have hlinks : ((m.setLinks (m.links.unlink p)).setList k ((a k).erase p).length
        ((a k).erase p).head?).links = m.links.unlink p := by cases k <;> rfl
    rw [hlinks, he]
    exact hu.perm ((hperm.symm).cons [p])
  · rw [hs.areaCount, h.covers]
    simp only [List.flatten_nil, List.not_mem_nil, false_or, List.flatten_cons, List.append_nil,
      List.mem_singleton]
    constructor
    · rintro ⟨k', hk'⟩
      by_cases hq : q = p
      · exact Or.inl hq
      · refine Or.inr ⟨k', ?_⟩
        by_cases hkk : k' = k
        · rw [hkk, Function.update_self]
          exact (hmem q).mpr ⟨hq, hkk ▸ hk'⟩
        · rwa [Function.update_of_ne hkk]
    · rintro (rfl | ⟨k', hk'⟩)
      · exact ⟨k, hp⟩
      · by_cases hkk : k' = k
        · rw [hkk, Function.update_self] at hk'
          exact ⟨k, ((hmem q).mp hk').2⟩
        · rw [Function.update_of_ne hkk] at hk'
          exact ⟨k', hk'⟩
  · rw [listHead_setList]
    by_cases hkk : k' = k
    · rw [hkk, Function.update_self, Function.update_self]
    · rw [Function.update_of_ne hkk, Function.update_of_ne hkk]
      exact h.head k'
  · rw [listCount_setList]
    by_cases hkk : k' = k
    · rw [hkk, Function.update_self, Function.update_self]
    · rw [Function.update_of_ne hkk, Function.update_of_ne hkk]
      exact h.count k'
  · rw [hmsg]
    by_cases hkk : k' = k
    · rw [hkk, Function.update_self] at hq
      exact hkk ▸ h.flag k q ((hmem q).mp hq).2
    · rw [Function.update_of_ne hkk] at hq
      exact h.flag k' q hq
  · rw [hs.areaCount] at hq
    rw [hmsg, hs.baseMsgid]
    exact h.msgid q hq
  · rw [hs.areaCount, hs.baseMsgid]
    exact h.fits

/-! ## Writing a lone head, and putting it in front of a list -/

theorem lone_setHead (h : Lone m a [[p]]) {head : MqMsgHead}
    (hid : head.msgid = (m.msghead p).msgid) : Lone (m.setHead p head) a [[p]] := by
  have hs := SameIds.setHead (m := m) (p := p) hid
  refine ⟨h.chains, h.covers, h.head, h.count, fun k q hq => ?_, fun q hq => ?_, h.fits⟩
  · have hne : q ≠ p := by
      rintro rfl
      have hd := (h.chains_front k).disjoint_head hq
      exact hd (by simp)
    show (Function.update m.msghead p head q).flag = _
    rw [Function.update_of_ne hne]
    exact h.flag k q hq
  · rw [hs.msgid]
    exact h.msgid q hq

/-- `Push` in front of the list `k`, whose counter and pointer follow. -/
def pushList (k : MsgKind) (p : Ptr) (m : MsgInfo) : MsgInfo :=
  let (cur, m) := m.push (m.listHead k) p
  m.setList k (m.listCount k + 1) (m.getFirstPtr cur)

theorem listCount_setLinks (m : MsgInfo) (l : Links Ptr) (k : MsgKind) :
    (m.setLinks l).listCount k = m.listCount k := by cases k <;> rfl

/-- Pushing a lone head changes links, and the counter and the pointer of one list. -/
theorem pushList_eq (h : Lone m a [[p]]) (k : MsgKind) :
    ∃ l : Links Ptr, l.Chains ((p :: a k) :: (MsgKind.all.erase k).map a) ∧
      m.pushList k p = (m.setLinks l).setList k (m.listCount k + 1) (some p) := by
  have hc : m.links.Chains (a k :: [p] :: (MsgKind.all.erase k).map a) := h.chains_front k
  have hfirst : ∀ {l : Links Ptr}, l.Chains ((p :: a k) :: (MsgKind.all.erase k).map a) →
      (m.setLinks l).getFirstPtr (some p) = some p := by
    intro l hl
    have hprev : l.prev p = none := hl.prev_of_cons
    show some (l.first m.areaCount p) = some p
    cases m.areaCount with
    | zero => rfl
    | succ n => rw [Links.first, hprev]
  have hhead := h.head k
  cases hl : a k with
  | nil =>
    rw [hl] at hc hhead hfirst
    have hl' : ((m.links.setPrev p none).setNext p none).Chains _ := hc.linkLast
    refine ⟨_, hl', ?_⟩
    rw [pushList, hhead]
    show (m.setLinks _).setList k ((m.setLinks _).listCount k + 1)
      ((m.setLinks _).getFirstPtr (some p)) = _
    rw [hfirst hl', listCount_setLinks]
  | cons q l =>
    rw [hl] at hc hhead hfirst
    refine ⟨_, hc.linkBefore_of_cons, ?_⟩
    rw [pushList, hhead]
    show (m.setLinks _).setList k ((m.setLinks _).listCount k + 1)
      ((m.setLinks _).getFirstPtr (some p)) = _
    rw [hfirst hc.linkBefore_of_cons, listCount_setLinks]

theorem SameIds.pushList (h : Lone m a [[p]]) (k : MsgKind) : SameIds m (m.pushList k p) := by
  obtain ⟨l, -, he⟩ := pushList_eq h k
  rw [he]
  exact (SameIds.setLinks m l).trans (SameIds.setList _ k _ _)

theorem pushList_placing (h : Lone m a [[p]]) (hf : (m.msghead p).flag = k.flag) :
    Placing (m.pushList k p) (Function.update a k (p :: a k)) := by
  obtain ⟨l, hl, he⟩ := pushList_eq h k
  have hs := SameIds.pushList h k
  rw [he] at hs ⊢
  have hmsg : ((m.setLinks l).setList k (m.listCount k + 1) (some p)).msghead = m.msghead := by
    cases k <;> rfl
  have hlinks : ((m.setLinks l).setList k (m.listCount k + 1) (some p)).links = l := by
    cases k <;> rfl
  have hmem : ∀ k' q, q ∈ Function.update a k (p :: a k) k' ↔ q = p ∧ k' = k ∨ q ∈ a k' := by
    intro k' q
    by_cases hkk : k' = k
    · subst hkk
      rw [Function.update_self, List.mem_cons]
      simp
    · rw [Function.update_of_ne hkk]
      simp [hkk]
  refine ⟨?_, fun q => ?_, fun k' => ?_, fun k' => ?_, fun k' q hq => ?_, fun q hq => ?_, ?_⟩
  · have hperm := MsgKind.perm_front (Function.update a k (p :: a k)) k
    rw [Function.update_self, MsgKind.map_erase_update] at hperm
    rw [hlinks, List.nil_append]
    exact hl.perm hperm.symm
  · rw [hs.areaCount, h.covers]
    simp [hmem, exists_or]
  · rw [listHead_setList]
    by_cases hkk : k' = k
    · subst hkk
      rw [Function.update_self, Function.update_self, List.head?_cons]
    · rw [Function.update_of_ne hkk, Function.update_of_ne hkk]
      exact h.head k'
  · rw [listCount_setList]
    by_cases hkk : k' = k
    · subst hkk
      rw [Function.update_self, Function.update_self, List.length_cons, h.count k']
      omega
    · rw [Function.update_of_ne hkk, Function.update_of_ne hkk]
      exact h.count k'
  · rw [hmsg]
    rcases (hmem k' q).mp hq with ⟨rfl, rfl⟩ | hq
    · exact hf
    · exact h.flag k' q hq
  · rw [hs.areaCount] at hq
    rw [hmsg, hs.baseMsgid]
    exact h.msgid q hq
  · rw [hs.areaCount, hs.baseMsgid]
    exact h.fits

end MsgInfo
end Chm
