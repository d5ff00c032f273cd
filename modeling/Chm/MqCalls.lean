/-
What each operation of `chminfo_lap` on the message queues does to the four lists: it moves
one head from one list to the front of another, or moves none.
-/
import Chm.MqLists

namespace Chm

namespace MsgInfo

variable {m m' : MsgInfo} {a : MsgKind → List Ptr} {k k' : MsgKind} {p q : Ptr} {msgid : Nat}
  {self : Nat}

/-- The lists after the head `p` of the list `k` has gone to the front of `k'`. -/
def move (a : MsgKind → List Ptr) (p : Ptr) (k k' : MsgKind) : MsgKind → List Ptr :=
  let a := Function.update a k ((a k).erase p)
  Function.update a k' (p :: a k')

theorem mem_move (h : Placing m a) (hp : p ∈ a k) {j : MsgKind} :
    q ∈ move a p k k' j ↔ q = p ∧ j = k' ∨ q ≠ p ∧ q ∈ a j := by
  have hnd := h.nodup k
  have hin : q ∈ Function.update a k ((a k).erase p) j ↔ q ≠ p ∧ q ∈ a j := by
    by_cases hj : j = k
    · rw [hj, Function.update_self, hnd.mem_erase_iff]
    · rw [Function.update_of_ne hj]
      constructor
      · intro hq
        refine ⟨?_, hq⟩
        rintro rfl
        exact hj (h.kind_unique hq hp)
      · exact And.right
  by_cases hj : j = k'
  · subst hj
    rw [move, Function.update_self, List.mem_cons, hin]
    simp
  · rw [move, Function.update_of_ne hj, hin]
    simp [hj]

/-- Taking `p` out of `k`, writing it and pushing it to `k'`. -/
theorem move_spec (h : Placing m a) (hp : p ∈ a k) {head : MqMsgHead}
    (hid : head.msgid = (m.msghead p).msgid) (hf : head.flag = k'.flag) :
    let m' := ((m.setLinks (m.links.unlink p)).setList k ((a k).erase p).length
      ((a k).erase p).head?).setHead p head
    Placing (m'.pushList k' p) (move a p k k') ∧ SameIds m (m'.pushList k' p) := by
  intro m'
  have hl := lone_unlink h hp
  have hs := (SameIds.setLinks m (m.links.unlink p)).trans
    (SameIds.setList _ k ((a k).erase p).length ((a k).erase p).head?)
  have hid' := hid.trans (hs.msgid p).symm
  have hl' : Lone m' (Function.update a k ((a k).erase p)) [[p]] := lone_setHead hl hid'
  have hflag : (m'.msghead p).flag = k'.flag :=
    (congrArg MqMsgHead.flag (Function.update_self ..)).trans hf
  exact ⟨pushList_placing hl' hflag,
    (hs.trans (SameIds.setHead hid')).trans (SameIds.pushList hl' k')⟩

/-- Rewriting a head with the flag it has. -/
theorem setHead_spec (h : Placing m a) {head : MqMsgHead}
    (hid : head.msgid = (m.msghead p).msgid) (hf : head.flag = (m.msghead p).flag) :
    Placing (m.setHead p head) a := by
  have hs := SameIds.setHead (m := m) (p := p) hid
  have hflag : ∀ q, ((m.setHead p head).msghead q).flag = (m.msghead q).flag := by
    intro q
    show (Function.update m.msghead p head q).flag = _
    rw [Function.update_apply]
    split
    · subst_vars
      exact hf
    · rfl
  refine ⟨h.chains, h.covers, h.head, h.count, fun k q hq => ?_, fun q hq => ?_, h.fits⟩
  · rw [hflag]
    exact h.flag k q hq
  · rw [hs.msgid]
    exact h.msgid q hq

theorem decrement_count (h : Placing m a) (hp : p ∈ a k) :
    decrement (m.listCount k) = ((a k).erase p).length := by
  have hlen := List.length_erase_of_mem hp
  have hpos := List.length_pos_of_mem hp
  rw [h.count k, decrement]
  split
  · omega
  · omega

/-! ## Find -/

theorem msgid_zero (h : Placing m a) : (m.msghead 0).msgid = m.baseMsgid :=
  h.msgid 0 h.fits.1

/-- A head has no other's msgid. -/
theorem msgid_inj (h : Placing m a) (hp : p < m.areaCount) (hq : q < m.areaCount)
    (he : (m.msghead p).msgid = (m.msghead q).msgid) : p = q := by
  rw [h.msgid p hp, h.msgid q hq] at he
  exact Nat.add_left_cancel he

theorem msgid_ne_invalid (h : Placing m a) (hp : p < m.areaCount) :
    (m.msghead p).msgid ≠ chmInvalidMsgId := by
  have hfits := h.fits.2
  have hlt : m.baseMsgid + p < m.baseMsgid + m.areaCount := Nat.add_lt_add_left hp _
  rw [h.msgid p hp]
  omega

section Find

variable {n : Nat}

/-- While the bound of `Find` is not above the size of the area, `Find` reads the head of
the msgid and no other. -/
theorem findIndex_eq (h : Placing m a) (hmax : m.maxMqueue = n) (hn : n ≤ m.areaCount)
    (msgid : Nat) :
    m.findIndex msgid =
      if m.baseMsgid ≤ msgid ∧ msgid < m.baseMsgid + n then some (msgid - m.baseMsgid)
      else none := by
  have hfits := h.fits.2
  have hmod : ((m.baseMsgid + m.maxMqueue : Int) % 2 ^ 64).toNat = m.baseMsgid + n := by
    rw [hmax, chmInvalidMsgId] at *
    omega
  rw [findIndex, msgid_zero h, hmod]
  by_cases hin : m.baseMsgid ≤ msgid ∧ msgid < m.baseMsgid + n
  · rw [if_pos hin, if_neg (by omega)]
  · rw [if_neg hin, if_pos (by omega)]

theorem find_eq (h : Placing m a) (hmax : m.maxMqueue = n) (hn : n ≤ m.areaCount) (msgid : Nat) :
    m.find msgid =
      if m.baseMsgid ≤ msgid ∧ msgid < m.baseMsgid + n then some (msgid - m.baseMsgid)
      else none := by
  rw [find, findIndex_eq h hmax hn]
  by_cases hin : m.baseMsgid ≤ msgid ∧ msgid < m.baseMsgid + n
  · have hid : (m.msghead (msgid - m.baseMsgid)).msgid = msgid := by
      rw [h.msgid _ (by omega)]
      omega
    rw [if_pos hin]
    simp [hid]
  · rw [if_neg hin, Option.filter_none]

/-- `Find` finds a head by its own msgid. -/
theorem find_msgid (h : Placing m a) (hmax : m.maxMqueue = n) (hn : n ≤ m.areaCount) {i : Nat}
    (hi : i < n) : m.find (m.msghead i).msgid = some i := by
  rw [find_eq h hmax hn, h.msgid i (by omega), if_pos (by omega)]
  exact congrArg some (by omega)

theorem findIndex_lt (h : Placing m a) (hmax : m.maxMqueue = n) (hn : n ≤ m.areaCount)
    (hf : m.findIndex msgid = some p) : p < m.areaCount := by
  rw [findIndex_eq h hmax hn] at hf
  split at hf
  · cases hf
    show msgid - m.baseMsgid < m.areaCount
    omega
  · cases hf

theorem find_lt (h : Placing m a) (hmax : m.maxMqueue = n) (hn : n ≤ m.areaCount)
    (hf : m.find msgid = some p) : p < m.areaCount :=
  findIndex_lt h hmax hn (Option.filter_eq_some_iff.mp hf).1

end Find

theorem msgid_of_find (hf : m.find msgid = some p) : (m.msghead p).msgid = msgid := by
  rw [find] at hf
  have := (Option.filter_eq_some_iff.mp hf).2
  simpa using this

/-! ## AssignMsg -/

theorem flag_initializeMqFlag (h : MqMsgHead) (hf : h.flag = MsgFlag.initialized) (self : Nat)
    (isChmpx isActivated : Bool) :
    (h.initializeMqFlag self isChmpx isActivated).flag =
      (MsgKind.ofAssign isChmpx isActivated).flag := by
  rw [MqMsgHead.initializeMqFlag]
  dsimp only
  rw [hf]
  cases isChmpx <;> cases isActivated <;> decide

theorem addMsg_eq (isChmpx isActivated : Bool) (p : Ptr) (m : MsgInfo) :
    m.addMsg isChmpx isActivated p = m.pushList (MsgKind.ofAssign isChmpx isActivated) p := by
  cases isChmpx <;> cases isActivated <;> rfl

/-- `AssignMsg` hands out the first free head, or none when no head is free. -/
theorem assignMsg_spec (h : Placing m a) (self : Nat) (isChmpx isActivated : Bool) :
    a .free = [] ∧ m.assignMsg self isChmpx isActivated = (chmInvalidMsgId, m) ∨
      ∃ p fs, a .free = p :: fs ∧
        (m.assignMsg self isChmpx isActivated).1 = (m.msghead p).msgid ∧
        Placing (m.assignMsg self isChmpx isActivated).2
          (move a p .free (MsgKind.ofAssign isChmpx isActivated)) ∧
        SameIds m (m.assignMsg self isChmpx isActivated).2 := by
  cases hfree : a .free with
  | nil =>
    have hhead : m.freeMsgs = none := by
      have := h.head .free
      rwa [hfree] at this
    refine Or.inl ⟨rfl, ?_⟩
    rw [assignMsg, hhead]
    rfl
  | cons p fs =>
    have hmem : p ∈ a .free := by rw [hfree]; exact List.mem_cons_self
    have hhead : m.freeMsgs = some p := by
      have := h.head .free
      rwa [hfree] at this
    have hfirst : m.first p = p := by
      have := h.first hmem
      rw [hfree] at this
      exact Option.some.inj this
    have hc := h.chains_front .free
    rw [hfree] at hc
    have hprev : m.links.prev p = none := hc.prev_of_cons
    have hpop : m.popFront m.freeMsgs =
        (some p, m.links.next p, m.setLinks (m.links.unlink p)) := by
      rw [hhead, popFront, hfirst, Links.unlink_of_prev_none hprev]
    have hcur : (m.setLinks (m.links.unlink p)).getFirstPtr (m.links.next p) =
        ((a .free).erase p).head? := by
      have := getFirstPtr_unlink h hmem
      rwa [hprev, Option.or_none] at this
    have hu := hc.unlink_of_cons.swap
    have hclear : ((m.links.unlink p).setPrev p none).setNext p none = m.links.unlink p :=
      Links.clear_of_none hu.prev_of_cons hu.next_of_cons
    have hcount : m.freeMsgCount - 1 = ((a .free).erase p).length := by
      have h1 := h.count .free
      have h2 := List.length_erase_of_mem hmem
      have h3 := List.length_pos_of_mem hmem
      simp only [listCount] at h1
      omega
    have hf := flag_initializeMqFlag (m.msghead p).notAccountMqFlag rfl self isChmpx isActivated
    have hid : ((m.msghead p).notAccountMqFlag.initializeMqFlag self isChmpx isActivated).msgid =
        (m.msghead p).msgid := rfl
    obtain ⟨hpl, hs⟩ := move_spec h hmem hid hf
    have hres : m.assignMsg self isChmpx isActivated = ((m.msghead p).msgid,
        (((m.setLinks (m.links.unlink p)).setList .free ((a .free).erase p).length
          ((a .free).erase p).head?).setHead p
            ((m.msghead p).notAccountMqFlag.initializeMqFlag self isChmpx isActivated)).pushList
              (MsgKind.ofAssign isChmpx isActivated) p) := by
      rw [← addMsg_eq, ← hcount, ← hcur, assignMsg, hpop]
      show (_, (((m.setLinks (((m.links.unlink p).setPrev p none).setNext p none)).setFreeMsgs
        (m.freeMsgCount - 1) _).setHead p _).addMsg isChmpx isActivated p) = _
      rw [hclear]
      rfl
    refine Or.inr ⟨p, fs, rfl, ?_, ?_, ?_⟩
    · rw [hres]
    · rw [hres]
      exact hpl
    · rw [hres]
      exact hs

/-! ## FreeMsg -/

theorem placing_clearLast (h : Placing m a) (msgid : Nat) : Placing (m.clearLast msgid) a :=
  ⟨h.chains, h.covers, h.head, h.count, h.flag, h.msgid, h.fits⟩

/-- `Retrieve` of a head of the list `k`, whose counter and pointer follow. -/
def takeList (k : MsgKind) (p : Ptr) (m : MsgInfo) : MsgInfo :=
  let (cur, m) := m.retrieve p
  m.setList k (decrement (m.listCount k)) (m.getFirstPtr cur)

theorem takeList_eq (h : Placing m a) (hp : p ∈ a k) :
    m.takeList k p = (m.setLinks (m.links.unlink p)).setList k ((a k).erase p).length
      ((a k).erase p).head? := by
  rw [takeList]
  show (m.setLinks (m.links.unlink p)).setList k
    (decrement ((m.setLinks (m.links.unlink p)).listCount k))
    ((m.setLinks (m.links.unlink p)).getFirstPtr ((m.links.next p).or (m.links.prev p))) = _
  rw [listCount_setLinks, decrement_count h hp, getFirstPtr_unlink h hp]

/-- A head that is taken and put to the free list. -/
theorem pushFree_takeList (h : Placing m a) (hp : p ∈ a k) :
    Placing ((m.takeList k p).pushFree p) (move a p k .free) ∧
      SameIds m ((m.takeList k p).pushFree p) := by
  have hmsg : (m.takeList k p).msghead = m.msghead := by cases k <;> rfl
  have hid : (m.msghead p).notAccountMqFlag.msgid = (m.msghead p).msgid := rfl
  have hflag : (m.msghead p).notAccountMqFlag.flag = MsgKind.free.flag := rfl
  have hmove := move_spec h hp hid hflag
  rw [← takeList_eq h hp] at hmove
  show Placing (pushList .free p ((m.takeList k p).setHead p
    ((m.takeList k p).msghead p).notAccountMqFlag)) _ ∧ SameIds m (pushList .free p
      ((m.takeList k p).setHead p ((m.takeList k p).msghead p).notAccountMqFlag))
  rw [hmsg]
  exact hmove

theorem freeMsg_of_find_none (hid : msgid ≠ chmInvalidMsgId) (hf : m.find msgid = none) :
    m.freeMsg msgid = (false, m.clearLast msgid) := by
  have hf' : (m.clearLast msgid).find msgid = none := hf
  rw [freeMsg, if_neg hid]
  dsimp only
  rw [hf']

theorem freeMsg_of_free (h : Placing m a) (hid : msgid ≠ chmInvalidMsgId)
    (hf : m.find msgid = some p) (hp : p ∈ a .free) :
    m.freeMsg msgid = (true, m.clearLast msgid) := by
  have hf' : (m.clearLast msgid).find msgid = some p := hf
  have hflag : ((m.clearLast msgid).msghead p).flag = MsgKind.free.flag := h.flag _ p hp
  rw [freeMsg, if_neg hid]
  dsimp only
  rw [hf']
  dsimp only
  rw [hflag, if_pos (by decide)]

/-- `FreeMsg` of a head that is handed out. -/
theorem freeMsg_of_mem (h : Placing m a) (hid : msgid ≠ chmInvalidMsgId)
    (hf : m.find msgid = some p) (hp : p ∈ a k) (hk : k ≠ .free) :
    m.freeMsg msgid = (true, ((m.clearLast msgid).takeList k p).pushFree p) := by
  have hf' : (m.clearLast msgid).find msgid = some p := hf
  have hflag : ((m.clearLast msgid).msghead p).flag = k.flag := h.flag _ p hp
  rw [freeMsg, if_neg hid]
  dsimp only
  rw [hf']
  dsimp only
  rw [hflag]
  cases k with
  | free => exact absurd rfl hk
  | assigned =>
    rw [if_neg (by decide), if_neg (by decide), if_pos (by decide), if_pos (by decide)]
    rfl
  | activated =>
    rw [if_neg (by decide), if_neg (by decide), if_pos (by decide), if_neg (by decide),
      if_pos (by decide)]
    rfl
  | chmpx =>
    rw [if_neg (by decide), if_pos (by decide)]
    rfl

theorem freeMsg_spec (h : Placing m a) (hid : msgid ≠ chmInvalidMsgId)
    (hf : m.find msgid = some p) (hp : p ∈ a k) (hk : k ≠ .free) :
    (m.freeMsg msgid).1 = true ∧ Placing (m.freeMsg msgid).2 (move a p k .free) ∧
      SameIds (m.clearLast msgid) (m.freeMsg msgid).2 := by
  rw [freeMsg_of_mem h hid hf hp hk]
  exact ⟨rfl, pushFree_takeList (placing_clearLast h msgid) hp⟩

/-! ## SetMqFlagStatus -/

/-- The list that a client's head goes to. -/
def clientKind (isActivated : Bool) : MsgKind := if isActivated then .activated else .assigned

theorem clientKind_ne_free (isActivated : Bool) : clientKind isActivated ≠ .free := by
  cases isActivated <;> decide

/-- The flag changes between the two lists of client heads. -/
theorem setMqFlagStatus_flag (self : Nat) (isActivated : Bool) (head : MqMsgHead)
    (hf : head.flag = (clientKind (!isActivated)).flag) :
    head.setMqFlagStatus self isActivated =
      some ⟨head.msgid, (clientKind isActivated).flag, self⟩ := by
  have hsome : ∀ {f g : MsgFlag}, f = g →
      some { head with flag := f, pid := self } = some ⟨head.msgid, g, self⟩ := by
    rintro f _ rfl
    rfl
  cases isActivated with
  | true =>
    rw [MqMsgHead.setMqFlagStatus, hf, if_neg (by decide)]
    dsimp only
    rw [if_neg (by decide), if_neg (by decide)]
    exact hsome (by decide)
  | false =>
    rw [MqMsgHead.setMqFlagStatus, hf, if_neg (by decide)]
    dsimp only
    rw [if_pos (by decide), if_neg (by decide)]
    exact hsome (by decide)

/-- `SetMqFlagStatus` that changes the activation of a client's head. -/
theorem setMqFlagStatus_of_mem (h : Placing m a) (hid : msgid ≠ chmInvalidMsgId)
    (hf : m.find msgid = some p) (isActivated : Bool) (hp : p ∈ a (clientKind (!isActivated))) :
    m.setMqFlagStatus self msgid true isActivated =
      (true, ((m.takeList (clientKind (!isActivated)) p).setHead p
        ⟨(m.msghead p).msgid, (clientKind isActivated).flag, self⟩).pushList
          (clientKind isActivated) p) := by
  have hflag := h.flag _ p hp
  have hset := setMqFlagStatus_flag self isActivated _ hflag
  have hcount := decrement_count h hp
  have hcur := getFirstPtr_unlink h hp
  -- The pointer is null exactly when the counter has reached zero.
  have hhead : (if 0 < decrement (m.listCount (clientKind (!isActivated))) then
      (m.setLinks (m.links.unlink p)).getFirstPtr ((m.links.next p).or (m.links.prev p))
      else none) =
      (m.setLinks (m.links.unlink p)).getFirstPtr ((m.links.next p).or (m.links.prev p)) := by
    rw [hcount, hcur]
    cases (a (clientKind (!isActivated))).erase p with
    | nil => rfl
    | cons q l => rw [if_pos (by simp)]
  rw [setMqFlagStatus, if_neg (by simp [hid]), if_neg (by simp), hf]
  dsimp only
  cases isActivated with
  | true =>
    rw [hflag, if_neg (by decide), if_pos (by decide), if_neg (by decide), if_neg (by decide),
      hset]
    have hhead' := congrArg (fun c => (true, (((m.setLinks (m.links.unlink p)).setAssignedMsgs
      (decrement m.assignedMsgCount) c).setHead p
        ⟨(m.msghead p).msgid, (clientKind true).flag, self⟩).pushList .activated p)) hhead
    exact hhead'
  | false =>
    rw [hflag, if_neg (by decide), if_pos (by decide), if_pos (by decide), if_neg (by decide),
      hset]
    have hhead' := congrArg (fun c => (true, (((m.setLinks (m.links.unlink p)).setActivatedMsgs
      (decrement m.activatedMsgCount) c).setHead p
        ⟨(m.msghead p).msgid, (clientKind false).flag, self⟩).pushList .assigned p)) hhead
    exact hhead'

theorem setMqFlagStatus_spec (self : Nat) (h : Placing m a) (hid : msgid ≠ chmInvalidMsgId)
    (hf : m.find msgid = some p) (isActivated : Bool) (hp : p ∈ a (clientKind (!isActivated))) :
    Placing (m.setMqFlagStatus self msgid true isActivated).2
        (move a p (clientKind (!isActivated)) (clientKind isActivated)) ∧
      SameIds m (m.setMqFlagStatus self msgid true isActivated).2 := by
  rw [setMqFlagStatus_of_mem h hid hf isActivated hp, takeList_eq h hp]
  exact move_spec h hp rfl rfl

/-- Otherwise no head changes its list. -/
theorem setMqFlagStatus_stays (self : Nat) (h : Placing m a) (hf : m.find msgid = some p)
    (hp : p ∈ a k) (isActivated : Bool) (hk : k ≠ clientKind (!isActivated)) :
    Placing (m.setMqFlagStatus self msgid true isActivated).2 a ∧
      SameIds m (m.setMqFlagStatus self msgid true isActivated).2 := by
  have hflag := h.flag k p hp
  have hsame : Placing m a ∧ SameIds m m := ⟨h, SameIds.refl m⟩
  rw [setMqFlagStatus]
  split
  · exact hsame
  · rw [if_neg (by simp), hf]
    dsimp only
    rw [hflag]
    cases k with
    | free => exact hsame
    | assigned =>
      cases isActivated with
      | true => exact absurd rfl hk
      | false => exact hsame
    | activated =>
      cases isActivated with
      | true => exact hsame
      | false => exact absurd rfl hk
    | chmpx =>
      cases isActivated with
      | false => exact hsame
      | true =>
        have hset : (m.msghead p).setMqFlagStatus self true =
            some ⟨(m.msghead p).msgid, (m.msghead p).flag, self⟩ := by
          rw [MqMsgHead.setMqFlagStatus, hflag]
          rfl
        rw [if_pos (by decide), if_neg (by decide), hset]
        exact ⟨setHead_spec h rfl rfl, SameIds.setHead rfl⟩

theorem setMqFlagStatus_of_find_none (hf : m.find msgid = none) (isActivated : Bool) :
    m.setMqFlagStatus self msgid true isActivated = (false, m) := by
  rw [setMqFlagStatus]
  split
  · rfl
  · rw [if_neg (by simp), hf]

/-! ## Every call -/

section Calls

variable {n : Nat}

theorem find_invalid (h : Placing m a) (hmax : m.maxMqueue = n) (hn : n ≤ m.areaCount) :
    m.find chmInvalidMsgId = none := by
  have hfits := h.fits.2
  rw [find_eq h hmax hn, if_neg (by omega)]

theorem clearLast_invalid (m : MsgInfo) : m.clearLast chmInvalidMsgId = m := by
  have hclear : ∀ last : Nat,
      (if chmInvalidMsgId = last then chmInvalidMsgId else last) = last := by
    intro last
    split
    · assumption
    · rfl
  rw [clearLast]
  simp only [hclear]

/-- `FreeMsg` forgets the msgid, and moves its head to the free list unless it is there or
there is no head. -/
theorem freeMsg_cases (h : Placing m a) (hmax : m.maxMqueue = n) (hn : n ≤ m.areaCount)
    (msgid : Nat) :
    SameIds (m.clearLast msgid) (m.freeMsg msgid).2 ∧
      ((∃ p k, m.find msgid = some p ∧ p ∈ a k ∧ k ≠ .free ∧
          Placing (m.freeMsg msgid).2 (move a p k .free)) ∨
        (∀ p, m.find msgid = some p → p ∈ a .free) ∧ Placing (m.freeMsg msgid).2 a) := by
  by_cases hid : msgid = chmInvalidMsgId
  · rw [hid, clearLast_invalid]
    refine ⟨SameIds.refl m, Or.inr ⟨fun p hp => ?_, h⟩⟩
    rw [find_invalid h hmax hn] at hp
    cases hp
  · cases hf : m.find msgid with
    | none =>
      rw [freeMsg_of_find_none hid hf]
      exact ⟨SameIds.refl _, Or.inr ⟨by simp, placing_clearLast h msgid⟩⟩
    | some p =>
      obtain ⟨k, hk⟩ := h.exists_kind (find_lt h hmax hn hf)
      by_cases hfree : k = .free
      · subst hfree
        rw [freeMsg_of_free h hid hf hk]
        refine ⟨SameIds.refl _, Or.inr ⟨fun q hq => ?_, placing_clearLast h msgid⟩⟩
        rwa [← Option.some.inj hq]
      · have hspec := freeMsg_spec h hid hf hk hfree
        exact ⟨hspec.2.2, Or.inl ⟨p, k, rfl, hk, hfree, hspec.2.1⟩⟩

/-- `SetMqFlagStatus` moves a client's head to the other list of clients' heads, or moves
nothing. -/
theorem setMqFlagStatus_cases (h : Placing m a) (hmax : m.maxMqueue = n) (hn : n ≤ m.areaCount)
    (self msgid : Nat) (isActivated : Bool) :
    SameIds m (m.setMqFlagStatus self msgid true isActivated).2 ∧
      ((∃ p, m.find msgid = some p ∧ p ∈ a (clientKind (!isActivated)) ∧
          Placing (m.setMqFlagStatus self msgid true isActivated).2
            (move a p (clientKind (!isActivated)) (clientKind isActivated))) ∨
        Placing (m.setMqFlagStatus self msgid true isActivated).2 a) := by
  cases hf : m.find msgid with
  | none =>
    rw [setMqFlagStatus_of_find_none hf]
    exact ⟨SameIds.refl m, Or.inr h⟩
  | some p =>
    have hid : msgid ≠ chmInvalidMsgId := by
      rintro rfl
      rw [find_invalid h hmax hn] at hf
      cases hf
    obtain ⟨k, hk⟩ := h.exists_kind (find_lt h hmax hn hf)
    by_cases hclient : k = clientKind (!isActivated)
    · subst hclient
      have hspec := setMqFlagStatus_spec self h hid hf isActivated hk
      exact ⟨hspec.2, Or.inl ⟨p, rfl, hk, hspec.1⟩⟩
    · have hstay := setMqFlagStatus_stays self h hf hk isActivated hclient
      exact ⟨hstay.2, Or.inr hstay.1⟩

end Calls

end MsgInfo
end Chm
