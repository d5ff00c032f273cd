/-
Runs of the operations on the queues of a client.

`Core` holds wherever the maps of descriptors and msgids agree with each other and with the
lists of the area; `Reserved` says which queues are reserved.  An element that leaves
`recv_fdid_map` keeps the first; the operations put the second back in place.
-/
import Chm.QueueMaps

namespace Chm

namespace RecvMq

open MsgInfo

variable {s : RecvMq} {a : MsgKind → List Ptr} {msgid : Nat} {mqfd : Int} {p : Ptr}

/-- The msgid of a head of a list. -/
def InList (m : MsgInfo) (l : List Ptr) (msgid : Nat) : Prop :=
  ∃ p ∈ l, (m.msghead p).msgid = msgid

structure Core (s : RecvMq) (a : MsgKind → List Ptr) : Prop where
  placing : Placing s.msgs a
  maxMqueue : s.msgs.maxMqueue = s.msgs.areaCount
  inverse : Inverse s.recvIdfd s.recvFdid
  held : ∀ msgid ∈ s.recvIdfd, ∃ isActivated, InList s.msgs (a (clientKind isActivated)) msgid
  valid : ∀ mqfd ∈ s.recvFdid, mqfd ≠ chmInvalidHandle
  closed : s.opened.Perm (s.recvFdid.keys ++ s.closed)
  freed : s.assigned.Perm (s.recvIdfd.keys ++ s.freed)

/-- The reserved queues are those of the assigned list. -/
def Reserved (s : RecvMq) (a : MsgKind → List Ptr) : Prop :=
  ∀ msgid mqfd, s.reserveIdfd.lookup msgid = some mqfd ↔
    s.recvIdfd.lookup msgid = some mqfd ∧ InList s.msgs (a .assigned) msgid

/-- What is left of a queue whose descriptor is closed and whose msgid is freed. -/
def forget (msgid : Nat) (mqfd : Int) (s : RecvMq) : RecvMq :=
  { s with
    msgs := (s.msgs.freeMsg msgid).2
    recvIdfd := s.recvIdfd.erase msgid
    recvFdid := s.recvFdid.erase mqfd
    freed := msgid :: s.freed
    closed := mqfd :: s.closed }

theorem mem_of_lookup {κ α : Type} [DecidableEq κ] {f : LockMap κ α} {k : κ} {v : α}
    (h : f.lookup k = some v) : k ∈ f :=
  AList.lookup_isSome.mp (Option.isSome_of_eq_some h)

theorem lookup_of_mem {κ α : Type} [DecidableEq κ] {f : LockMap κ α} {k : κ} (h : k ∈ f) :
    ∃ v, f.lookup k = some v :=
  Option.isSome_iff_exists.mp (AList.lookup_isSome.mpr h)

/-- `FreeMsg` of a msgid of a client's head. -/
theorem freeMsg_inList (h : Placing s.msgs a) (hmax : s.msgs.maxMqueue = s.msgs.areaCount)
    {isActivated : Bool} (hp : p ∈ a (clientKind isActivated)) :
    (s.msgs.freeMsg (s.msgs.msghead p).msgid).1 = true ∧
      Placing (s.msgs.freeMsg (s.msgs.msghead p).msgid).2
        (MsgInfo.move a p (clientKind isActivated) .free) ∧
      SameIds (s.msgs.clearLast (s.msgs.msghead p).msgid)
        (s.msgs.freeMsg (s.msgs.msghead p).msgid).2 :=
  freeMsg_spec h (msgid_ne_invalid h (h.lt hp)) (find_msgid h hmax (Nat.le_refl _) (h.lt hp)) hp
    (clientKind_ne_free isActivated)

theorem eraseRecvFdid_eq (h : Core s a) (hlive : s.isEmpty = false)
    (hl : s.recvFdid.lookup mqfd = some msgid) : s.eraseRecvFdid mqfd = s.forget msgid mqfd := by
  have hmem : msgid ∈ s.recvIdfd := mem_of_lookup ((h.inverse msgid mqfd).mpr hl)
  obtain ⟨isActivated, p, hp, rfl⟩ := h.held msgid hmem
  have hid := msgid_ne_invalid h.placing (h.placing.lt hp)
  have hfd := h.valid mqfd (mem_of_lookup hl)
  have hfree := (freeMsg_inList h.placing h.maxMqueue hp).1
  have hcond : ¬ ((s.msgs.msghead p).msgid = chmInvalidMsgId ∨ mqfd = chmInvalidHandle ∨
      s.isEmpty = true) := by
    rw [hlive]
    simp [hid, hfd]
  have hfree' : (s.mqClose mqfd).freeMsg (s.msgs.msghead p).msgid =
      { s.mqClose mqfd with
        msgs := (s.msgs.freeMsg (s.msgs.msghead p).msgid).2
        freed := (s.msgs.msghead p).msgid :: s.freed } := by
    show { s.mqClose mqfd with
      msgs := (s.msgs.freeMsg (s.msgs.msghead p).msgid).2
      freed := if (s.msgs.freeMsg (s.msgs.msghead p).msgid).1 then
        (s.msgs.msghead p).msgid :: s.freed else s.freed } = _
    rw [hfree, if_pos rfl]
  rw [eraseRecvFdid, hl]
  dsimp only
  rw [rcvfdIdMapCallback, freeMsgIds, if_neg hcond, hfree']
  rfl

/-- The lists after a queue is forgotten. -/
theorem forget_core (h : Core s a) (hl : s.recvFdid.lookup mqfd = some msgid) :
    ∃ p isActivated, p ∈ a (clientKind isActivated) ∧ (s.msgs.msghead p).msgid = msgid ∧
      Core (s.forget msgid mqfd) (MsgInfo.move a p (clientKind isActivated) .free) ∧
      SameIds (s.msgs.clearLast msgid) (s.forget msgid mqfd).msgs := by
  have hlookup := (h.inverse msgid mqfd).mpr hl
  have hmem : msgid ∈ s.recvIdfd := mem_of_lookup hlookup
  obtain ⟨isActivated, p, hp, rfl⟩ := h.held msgid hmem
  obtain ⟨-, hpl, hs⟩ := freeMsg_inList h.placing h.maxMqueue hp
  have hmax := hs.maxMqueue.trans (h.maxMqueue.trans (congrArg Nat.cast hs.areaCount.symm))
  refine ⟨p, isActivated, hp, rfl,
    ⟨hpl, hmax, h.inverse.erase hlookup, fun msgid' hm => ?_, fun mqfd' hm => ?_, ?_, ?_⟩, hs⟩
  · have hm' := AList.mem_erase.mp hm
    obtain ⟨isActivated', q, hq, hid⟩ := h.held msgid' hm'.2
    have hne : q ≠ p := by
      rintro rfl
      exact hm'.1 hid.symm
    exact ⟨isActivated', q, (mem_move h.placing hp).mpr (Or.inr ⟨hne, hq⟩), (hs.msgid q).trans hid⟩
  · exact h.valid mqfd' (AList.mem_erase.mp hm).2
  · show s.opened.Perm ((s.recvFdid.erase mqfd).keys ++ mqfd :: s.closed)
    rw [AList.keys_erase]
    have hperm := List.perm_cons_erase (AList.mem_keys.mp (mem_of_lookup hl))
    exact h.closed.trans ((hperm.append_right s.closed).trans List.perm_middle.symm)
  · show s.assigned.Perm ((s.recvIdfd.erase _).keys ++ _ :: s.freed)
    rw [AList.keys_erase]
    have hperm := List.perm_cons_erase (AList.mem_keys.mp hmem)
    exact h.freed.trans ((hperm.append_right s.freed).trans List.perm_middle.symm)

/-! ## Lists and msgids -/

section Lists

variable {m m' : MsgInfo} {k k' j : MsgKind}

/-- The other msgids stay in their lists. -/
theorem inList_move (h : Placing m a) (hp : p ∈ a k)
    (hids : ∀ p, (m'.msghead p).msgid = (m.msghead p).msgid)
    (hne : (m.msghead p).msgid ≠ msgid) :
    InList m' (MsgInfo.move a p k k' j) msgid ↔ InList m (a j) msgid := by
  constructor
  · rintro ⟨q, hq, hid⟩
    rw [hids] at hid
    rcases (mem_move h hp).mp hq with ⟨rfl, -⟩ | ⟨-, hq⟩
    · exact absurd hid hne
    · exact ⟨q, hq, hid⟩
  · rintro ⟨q, hq, hid⟩
    have hqp : q ≠ p := by
      rintro rfl
      exact hne hid
    exact ⟨q, (mem_move h hp).mpr (Or.inr ⟨hqp, hq⟩), (hids q).trans hid⟩

theorem inList_moved (h : Placing m a) (hp : p ∈ a k)
    (hids : ∀ p, (m'.msghead p).msgid = (m.msghead p).msgid) :
    InList m' (MsgInfo.move a p k k' k') (m.msghead p).msgid :=
  ⟨p, (mem_move h hp).mpr (Or.inl ⟨rfl, rfl⟩), hids p⟩

/-- A msgid is in one list only. -/
theorem inList_unique (h : Placing m a) (hk : InList m (a k) msgid) (hj : InList m (a j) msgid) :
    k = j := by
  obtain ⟨p, hp, rfl⟩ := hk
  obtain ⟨q, hq, hid⟩ := hj
  have hqp := msgid_inj h (h.lt hq) (h.lt hp) hid
  subst hqp
  exact h.kind_unique hp hq

end Lists

/-- A change of the area that moves the heads of the queues between the clients' lists. -/
theorem Core.withMsgs (h : Core s a) {m : MsgInfo} {a' : MsgKind → List Ptr}
    (hpl : Placing m a') (hmax : m.maxMqueue = s.msgs.maxMqueue)
    (hcount : m.areaCount = s.msgs.areaCount)
    (hheld : ∀ msgid ∈ s.recvIdfd, ∃ isActivated, InList m (a' (clientKind isActivated)) msgid) :
    Core { s with msgs := m } a' where
  placing := hpl
  maxMqueue := by rw [hmax, hcount, h.maxMqueue]
  inverse := h.inverse
  held := hheld
  valid := h.valid
  closed := h.closed
  freed := h.freed

theorem Reserved.mem (h : Reserved s a) (hm : msgid ∈ s.reserveIdfd) : msgid ∈ s.recvIdfd := by
  obtain ⟨mqfd, hl⟩ := lookup_of_mem hm
  exact mem_of_lookup ((h msgid mqfd).mp hl).1

/-- A head of no queue of this process moves. -/
theorem withMsgs_other (h : Core s a) (hr : Reserved s a) {m : MsgInfo} {k k' : MsgKind}
    (hp : p ∈ a k) (hother : (s.msgs.msghead p).msgid ∉ s.recvIdfd)
    (hpl : Placing m (MsgInfo.move a p k k')) (hmax : m.maxMqueue = s.msgs.maxMqueue)
    (hcount : m.areaCount = s.msgs.areaCount)
    (hids : ∀ p, (m.msghead p).msgid = (s.msgs.msghead p).msgid) :
    Core { s with msgs := m } (MsgInfo.move a p k k') ∧
      Reserved { s with msgs := m } (MsgInfo.move a p k k') := by
  have hne : ∀ msgid ∈ s.recvIdfd, (s.msgs.msghead p).msgid ≠ msgid := by
    rintro msgid hm rfl
    exact hother hm
  refine ⟨h.withMsgs hpl hmax hcount fun msgid hm => ?_, fun msgid mqfd => ?_⟩
  · obtain ⟨isActivated, hin⟩ := h.held msgid hm
    exact ⟨isActivated, (inList_move h.placing hp hids (hne msgid hm)).mpr hin⟩
  · refine (hr msgid mqfd).trans (and_congr_right fun hl => ?_)
    exact (inList_move h.placing hp hids (hne msgid (mem_of_lookup hl))).symm

/-! ## Closing -/

theorem dropReserve_good (h : Core s a) (hr : Reserved s a) (hlive : s.isEmpty = false)
    (msgid : Nat) :
    (∃ a', Core (s.dropReserve msgid) a' ∧ Reserved (s.dropReserve msgid) a') ∧
      (s.dropReserve msgid).isEmpty = false := by
  rw [dropReserve]
  cases hl : s.reserveIdfd.lookup msgid with
  | none => exact ⟨⟨a, h, hr⟩, hlive⟩
  | some mqfd =>
    have hrecv := (hr msgid mqfd).mp hl
    have hfdid := (h.inverse msgid mqfd).mp hrecv.1
    dsimp only
    rw [eraseRecvFdid_eq h hlive hfdid]
    obtain ⟨p, isActivated, hp, hid, hcore, hs⟩ := forget_core h hfdid
    refine ⟨⟨_, ⟨hcore.placing, hcore.maxMqueue, hcore.inverse, hcore.held, hcore.valid,
      hcore.closed, hcore.freed⟩, fun msgid' mqfd' => ?_⟩, hlive⟩
    show (s.reserveIdfd.erase msgid).lookup msgid' = some mqfd' ↔
      (s.recvIdfd.erase msgid).lookup msgid' = some mqfd' ∧ _
    by_cases he : msgid' = msgid
    · subst he
      rw [AList.lookup_erase, AList.lookup_erase]
      simp
    · rw [AList.lookup_erase_ne he, AList.lookup_erase_ne he, hr msgid' mqfd']
      refine and_congr_right fun _ => (inList_move h.placing hp hs.msgid ?_).symm
      rw [hid]
      exact Ne.symm he

theorem foldl_dropReserve_good (h : Core s a) (hr : Reserved s a) (hlive : s.isEmpty = false)
    (l : List Nat) :
    (∃ a', Core (l.foldl dropReserve s) a' ∧ Reserved (l.foldl dropReserve s) a') ∧
      (l.foldl dropReserve s).isEmpty = false := by
  induction l generalizing s a with
  | nil => exact ⟨⟨a, h, hr⟩, hlive⟩
  | cons msgid l ih =>
    obtain ⟨⟨a', h', hr'⟩, hlive'⟩ := dropReserve_good h hr hlive msgid
    exact ih h' hr' hlive'

theorem freeReserveMsgIds_good (h : Core s a) (hr : Reserved s a) :
    ∃ a', Core s.freeReserveMsgIds a' ∧ Reserved s.freeReserveMsgIds a' := by
  rw [freeReserveMsgIds]
  split
  · exact ⟨a, h, hr⟩
  · rename_i hcond
    have hlive : s.isEmpty = false := by
      cases he : s.isEmpty with
      | false => rfl
      | true => exact absurd (by simp [he]) hcond
    exact (foldl_dropReserve_good h hr hlive _).1

/-- The descriptors of a list leave the map, and no other does. -/
theorem foldl_eraseRecvFdid_core (h : Core s a) (hlive : s.isEmpty = false) (l : List Int) :
    (∃ a', Core (l.foldl eraseRecvFdid s) a') ∧
      ∀ mqfd, mqfd ∈ (l.foldl eraseRecvFdid s).recvFdid → mqfd ∈ s.recvFdid ∧ mqfd ∉ l := by
  induction l generalizing s a with
  | nil => exact ⟨⟨a, h⟩, fun mqfd hm => ⟨hm, List.not_mem_nil⟩⟩
  | cons mqfd l ih =>
    rw [List.foldl_cons]
    cases hl : s.recvFdid.lookup mqfd with
    | none =>
      have hsame : s.eraseRecvFdid mqfd = s := by rw [eraseRecvFdid, hl]
      obtain ⟨hcore, hmem⟩ := ih h hlive
      rw [hsame]
      refine ⟨hcore, fun mqfd' hm => ⟨(hmem mqfd' hm).1, ?_⟩⟩
      rw [List.mem_cons, not_or]
      refine ⟨?_, (hmem mqfd' hm).2⟩
      rintro rfl
      exact AList.lookup_eq_none.mp hl (hmem mqfd' hm).1
    | some msgid =>
      rw [eraseRecvFdid_eq h hlive hl]
      obtain ⟨p, isActivated, hp, hid, hcore, -⟩ := forget_core h hl
      obtain ⟨hcore', hmem⟩ := ih hcore hlive
      refine ⟨hcore', fun mqfd' hm => ?_⟩
      have hm' := AList.mem_erase.mp (hmem mqfd' hm).1
      refine ⟨hm'.2, ?_⟩
      rw [List.mem_cons, not_or]
      exact ⟨hm'.1, (hmem mqfd' hm).2⟩

theorem clean_good (h : Core s a) (hr : Reserved s a) :
    ∃ a', Core s.clean a' ∧ Reserved s.clean a' := by
  rw [clean]
  split
  · exact ⟨a, h, hr⟩
  · rename_i hcond
    have hlive : s.isEmpty = false := by simpa using hcond
    obtain ⟨⟨a', hcore⟩, hmem⟩ := foldl_eraseRecvFdid_core h hlive s.recvFdid.getKeys
    -- All descriptors are in the list, so none is left.
    have hnone : ∀ mqfd,
        (s.recvFdid.getKeys.foldl eraseRecvFdid s).recvFdid.lookup mqfd = none := by
      intro mqfd
      rw [AList.lookup_eq_none]
      intro hm
      have hm' := hmem mqfd hm
      exact hm'.2 (LockMap.mem_getKeys.mpr (AList.mem_keys.mp hm'.1))
    refine ⟨a', ⟨hcore.placing, hcore.maxMqueue, hcore.inverse, hcore.held, hcore.valid,
      hcore.closed, hcore.freed⟩, fun msgid mqfd => ?_⟩
    constructor
    · intro hl
      cases hl
    · rintro ⟨hl, -⟩
      have hl' := (hcore.inverse msgid mqfd).mp hl
      rw [hnone] at hl'
      cases hl'

/-! ## Opening -/

/-- `FreeMsg` of a msgid that `AssignMsg` has just returned. -/
theorem freeMsg_assigned {isActivated : Bool} (h : Core s a) (hr : Reserved s a)
    (hp : p ∈ a (clientKind isActivated)) (hother : (s.msgs.msghead p).msgid ∉ s.recvIdfd)
    {opened closed : List Int} (hfds : opened.Perm (s.recvFdid.keys ++ closed)) :
    let s' := { s with
      assigned := (s.msgs.msghead p).msgid :: s.assigned
      opened := opened
      closed := closed }
    ∃ a', Core (s'.freeMsg (s.msgs.msghead p).msgid) a' ∧
      Reserved (s'.freeMsg (s.msgs.msghead p).msgid) a' := by
  intro s'
  obtain ⟨hres, hpl, hs⟩ := freeMsg_inList h.placing h.maxMqueue hp
  obtain ⟨hcore, hres'⟩ := withMsgs_other h hr hp hother hpl hs.maxMqueue hs.areaCount hs.msgid
  have hfreed : s'.freeMsg (s.msgs.msghead p).msgid =
      { s' with
        msgs := (s.msgs.freeMsg (s.msgs.msghead p).msgid).2
        freed := (s.msgs.msghead p).msgid :: s.freed } := by
    show { s' with
      msgs := (s.msgs.freeMsg (s.msgs.msghead p).msgid).2
      freed := if (s.msgs.freeMsg (s.msgs.msghead p).msgid).1 then
        (s.msgs.msghead p).msgid :: s.freed else s.freed } = _
    rw [hres, if_pos rfl]
  rw [hfreed]
  refine ⟨_, ⟨hcore.placing, hcore.maxMqueue, hcore.inverse, hcore.held, hcore.valid, hfds, ?_⟩,
    hres'⟩
  exact (h.freed.cons _).trans List.perm_middle.symm

theorem setRecv_eq (hfd : mqfd ∉ s.recvFdid) :
    s.setRecv msgid mqfd =
      { s with
        recvIdfd := s.recvIdfd.insert msgid mqfd
        recvFdid := s.recvFdid.insert mqfd msgid } := by
  rw [setRecv]
  dsimp only
  rw [AList.lookup_eq_none.mpr hfd]

/-- A new queue goes to the maps, and to the reserved ones where it is not activated. -/
theorem setRecv_good {isActivated : Bool} (h : Core s a) (hr : Reserved s a)
    (hp : p ∈ a (clientKind isActivated)) (hother : (s.msgs.msghead p).msgid ∉ s.recvIdfd)
    (hfd : mqfd ∉ s.recvFdid) (hvalid : mqfd ≠ chmInvalidHandle)
    (hslv : s.isClientOnSlv = !isActivated) :
    let s' := { s with
      assigned := (s.msgs.msghead p).msgid :: s.assigned
      opened := mqfd :: s.opened }
    let s₁ := s'.setRecv (s.msgs.msghead p).msgid mqfd
    let s₂ := if s₁.isClientOnSlv then s₁.setReserve (s.msgs.msghead p).msgid mqfd false else s₁
    Core s₂ a ∧ Reserved s₂ a := by
  intro s' s₁ s₂
  have hs₁ : s₁ = { s' with
      recvIdfd := s.recvIdfd.insert (s.msgs.msghead p).msgid mqfd
      recvFdid := s.recvFdid.insert mqfd (s.msgs.msghead p).msgid } := setRecv_eq (s := s') hfd
  have hcore : Core s₁ a := by
    rw [hs₁]
    refine ⟨h.placing, h.maxMqueue, h.inverse.insert hother hfd, fun msgid hm => ?_,
      fun mqfd' hm => ?_, ?_, ?_⟩
    · rcases (AList.mem_insert _).mp hm with rfl | hm
      · exact ⟨isActivated, p, hp, rfl⟩
      · exact h.held msgid hm
    · rcases (AList.mem_insert _).mp hm with rfl | hm
      · exact hvalid
      · exact h.valid mqfd' hm
    · show (mqfd :: s.opened).Perm ((s.recvFdid.insert mqfd _).keys ++ s.closed)
      rw [AList.keys_insert, List.erase_of_not_mem fun hm => hfd (AList.mem_keys.mpr hm)]
      exact h.closed.cons mqfd
    · show (_ :: s.assigned).Perm ((s.recvIdfd.insert _ mqfd).keys ++ s.freed)
      rw [AList.keys_insert, List.erase_of_not_mem fun hm => hother (AList.mem_keys.mpr hm)]
      exact h.freed.cons _
  have hnone : (s.msgs.msghead p).msgid ∉ s.reserveIdfd := fun hm => hother (hr.mem hm)
  have hin : InList s.msgs (a .assigned) (s.msgs.msghead p).msgid ↔ isActivated = false := by
    constructor
    · intro hin
      have he := inList_unique h.placing hin ⟨p, hp, rfl⟩
      cases isActivated with
      | false => rfl
      | true => cases he
    · rintro rfl
      exact ⟨p, hp, rfl⟩
  have hlookup : ∀ msgid' mqfd', msgid' ≠ (s.msgs.msghead p).msgid →
      (s.reserveIdfd.lookup msgid' = some mqfd' ↔
        s₁.recvIdfd.lookup msgid' = some mqfd' ∧ InList s.msgs (a .assigned) msgid') := by
    intro msgid' mqfd' hne
    rw [hs₁, hr msgid' mqfd']
    show _ ↔ (s.recvIdfd.insert (s.msgs.msghead p).msgid mqfd).lookup msgid' = some mqfd' ∧ _
    rw [AList.lookup_insert_ne hne]
  have hself : s₁.recvIdfd.lookup (s.msgs.msghead p).msgid = some mqfd := by
    rw [hs₁]
    exact AList.lookup_insert s.recvIdfd
  cases isActivated with
  | true =>
    have hs₂ : s₂ = s₁ := if_neg (by rw [hs₁]; simp [s', hslv])
    rw [hs₂]
    refine ⟨hcore, fun msgid' mqfd' => ?_⟩
    by_cases he : msgid' = (s.msgs.msghead p).msgid
    · have hmsgs : s₁.msgs = s.msgs := by rw [hs₁]
      have hres : s₁.reserveIdfd = s.reserveIdfd := by rw [hs₁]
      rw [he, hmsgs, hres, hin, AList.lookup_eq_none.mpr hnone]
      simp
    · have hl := hlookup msgid' mqfd' he
      rw [hs₁] at hl ⊢
      exact hl
  | false =>
    have hres : s₁.reserveIdfd = s.reserveIdfd := by rw [hs₁]
    have hs₂ : s₂ = { s₁ with
        reserveIdfd := s₁.reserveIdfd.insert (s.msgs.msghead p).msgid mqfd } := by
      have hslv' : s₁.isClientOnSlv = true := by rw [hs₁]; exact hslv
      have hcond : ¬ ((!false && decide ((s.msgs.msghead p).msgid ∈ s₁.reserveIdfd)) = true) := by
        rw [hres]
        simp [hnone]
      show (if s₁.isClientOnSlv then _ else _) = _
      rw [if_pos hslv', setReserve, if_neg hcond]
    rw [hs₂]
    refine ⟨⟨hcore.placing, hcore.maxMqueue, hcore.inverse, hcore.held, hcore.valid, hcore.closed,
      hcore.freed⟩, fun msgid' mqfd' => ?_⟩
    have hmsgs : s₁.msgs = s.msgs := by rw [hs₁]
    show (s₁.reserveIdfd.insert (s.msgs.msghead p).msgid mqfd).lookup msgid' = some mqfd' ↔
      s₁.recvIdfd.lookup msgid' = some mqfd' ∧ InList s₁.msgs (a .assigned) msgid'
    rw [hmsgs, hres]
    by_cases he : msgid' = (s.msgs.msghead p).msgid
    · rw [he, AList.lookup_insert, hself]
      exact ⟨fun hl => ⟨hl, hin.mpr rfl⟩, And.left⟩
    · rw [AList.lookup_insert_ne he]
      exact hlookup msgid' mqfd' he

theorem attach_good (sys : MqSystem) (h : Core s a) (hr : Reserved s a) :
    ∃ a', Core (s.attach sys).2 a' ∧ Reserved (s.attach sys).2 a' := by
  have hkind : MsgKind.ofAssign false (!s.isClientOnSlv) = clientKind (!s.isClientOnSlv) := by
    cases s.isClientOnSlv <;> rfl
  rcases assignMsg_spec h.placing s.pid false (!s.isClientOnSlv) with
    ⟨-, he⟩ | ⟨p, fs, hfree, hid, hpl, hs⟩
  · rw [attach, he]
    dsimp only
    rw [if_pos rfl]
    exact ⟨a, ⟨h.placing, h.maxMqueue, h.inverse, h.held, h.valid, h.closed, h.freed⟩, hr⟩
  · have hp : p ∈ a .free := by rw [hfree]; exact List.mem_cons_self
    have hother : (s.msgs.msghead p).msgid ∉ s.recvIdfd := by
      intro hm
      obtain ⟨isActivated, hin⟩ := h.held _ hm
      have hk := inList_unique h.placing hin ⟨p, hp, rfl⟩
      cases isActivated <;> cases hk
    obtain ⟨hcore, hres⟩ :=
      withMsgs_other h hr hp hother hpl hs.maxMqueue hs.areaCount hs.msgid
    rw [hkind] at hcore hres
    have hp' : p ∈ MsgInfo.move a p .free (clientKind (!s.isClientOnSlv))
        (clientKind (!s.isClientOnSlv)) := (mem_move h.placing hp).mpr (Or.inl ⟨rfl, rfl⟩)
    have hnew := hs.msgid p
    have hother' : ((s.msgs.assignMsg s.pid false (!s.isClientOnSlv)).2.msghead p).msgid ∉
        s.recvIdfd := by rwa [hnew]
    have hne : (s.msgs.assignMsg s.pid false (!s.isClientOnSlv)).1 ≠ chmInvalidMsgId := by
      rw [hid]
      exact msgid_ne_invalid h.placing (h.placing.lt hp)
    rw [attach]
    dsimp only
    rw [if_neg hne, hid, ← hnew]
    split
    · exact freeMsg_assigned hcore hres hp' hother' h.closed
    · rename_i hopen
      split
      · exact freeMsg_assigned hcore hres hp' hother'
          ((h.closed.cons _).trans List.perm_middle.symm)
      · have hvalid : (sys.attempt s).mqfd ≠ chmInvalidHandle := by
          intro he
          exact hopen (by simp [he])
        have hfd : (sys.attempt s).mqfd ∉ s.recvFdid := fun hm =>
          sys.fresh s (AList.mem_keys.mp hm)
        exact ⟨_, setRecv_good hcore hres hp' hother' hfd hvalid (by simp)⟩

theorem attachLoop_good (sys : MqSystem) (cnt : Nat) (h : Core s a) (hr : Reserved s a) :
    ∃ a', Core (attachLoop sys cnt s).2 a' ∧ Reserved (attachLoop sys cnt s).2 a' := by
  induction cnt generalizing s a with
  | zero => exact ⟨a, h, hr⟩
  | succ cnt ih =>
    obtain ⟨a', h', hr'⟩ := attach_good sys h hr
    rw [attachLoop]
    generalize s.attach sys = r at h' hr'
    obtain ⟨result, s'⟩ := r
    cases result with
    | true => exact ih h' hr'
    | false => exact ⟨a', h', hr'⟩

theorem setEventQueue_good (sys : MqSystem) (h : Core s a) (hr : Reserved s a) :
    ∃ a', Core (s.setEventQueue sys).2 a' ∧ Reserved (s.setEventQueue sys).2 a' := by
  rw [setEventQueue]
  split
  · exact ⟨a, h, hr⟩
  · exact attachLoop_good sys _ h hr

/-! ## Activation -/

/-- A queue of this process changes its list. -/
theorem setMqFlagStatus_core (h : Core s a) (isActivated : Bool)
    (hp : p ∈ a (clientKind (!isActivated))) :
    (s.msgs.setMqFlagStatus s.pid (s.msgs.msghead p).msgid true isActivated).1 = true ∧
      Core { s with
          msgs := (s.msgs.setMqFlagStatus s.pid (s.msgs.msghead p).msgid true isActivated).2 }
        (MsgInfo.move a p (clientKind (!isActivated)) (clientKind isActivated)) ∧
      SameIds s.msgs
        (s.msgs.setMqFlagStatus s.pid (s.msgs.msghead p).msgid true isActivated).2 := by
  have hlt := h.placing.lt hp
  have hid := msgid_ne_invalid h.placing hlt
  have hf := find_msgid h.placing h.maxMqueue (Nat.le_refl _) hlt
  obtain ⟨hpl, hs⟩ := setMqFlagStatus_spec s.pid h.placing hid hf isActivated hp
  refine ⟨?_, h.withMsgs hpl hs.maxMqueue hs.areaCount fun msgid hm => ?_, hs⟩
  · rw [setMqFlagStatus_of_mem h.placing hid hf isActivated hp]
  · by_cases he : (s.msgs.msghead p).msgid = msgid
    · subst he
      exact ⟨isActivated, inList_moved h.placing hp hs.msgid⟩
    · obtain ⟨isActivated', hin⟩ := h.held msgid hm
      exact ⟨isActivated', (inList_move h.placing hp hs.msgid he).mpr hin⟩

theorem activateReserve_good (h : Core s a) (hr : Reserved s a) :
    ∃ a', Core s.activateReserve.2 a' ∧ Reserved s.activateReserve.2 a' := by
  rw [activateReserve]
  cases hhead : s.reserveIdfd.getKeys.head? with
  | none => exact ⟨a, h, hr⟩
  | some msgid =>
    have hmem : msgid ∈ s.reserveIdfd :=
      AList.mem_keys.mpr (LockMap.mem_getKeys.mp (List.mem_of_head? hhead))
    obtain ⟨mqfd, hl⟩ := lookup_of_mem hmem
    obtain ⟨p, hp, rfl⟩ := ((hr msgid mqfd).mp hl).2
    obtain ⟨hres, hcore, hs⟩ := setMqFlagStatus_core h true hp
    have hid := msgid_ne_invalid h.placing (h.placing.lt hp)
    dsimp only
    rw [if_neg hid, setMqActivated, hres]
    refine ⟨_, ⟨hcore.placing, hcore.maxMqueue, hcore.inverse, hcore.held, hcore.valid,
      hcore.closed, hcore.freed⟩, fun msgid' mqfd' => ?_⟩
    show (s.reserveIdfd.erase _).lookup msgid' = some mqfd' ↔
      s.recvIdfd.lookup msgid' = some mqfd' ∧ InList _ _ msgid'
    by_cases he : (s.msgs.msghead p).msgid = msgid'
    · subst he
      rw [AList.lookup_erase]
      constructor
      · intro hl'
        cases hl'
      · rintro ⟨-, hin⟩
        have hk := inList_unique hcore.placing hin (inList_moved h.placing hp hs.msgid)
        cases hk
    · rw [AList.lookup_erase_ne (Ne.symm he), hr msgid' mqfd']
      exact and_congr_right fun _ => (inList_move h.placing hp hs.msgid he).symm

theorem activatedMsgId_good (sys : MqSystem) (h : Core s a) (hr : Reserved s a) :
    ∃ a', Core (s.activatedMsgId sys).2 a' ∧ Reserved (s.activatedMsgId sys).2 a' := by
  rw [activatedMsgId]
  split
  · exact ⟨a, h, hr⟩
  · split
    · obtain ⟨a', h', hr'⟩ := setEventQueue_good sys h hr
      generalize s.setEventQueue sys = r at h' hr'
      obtain ⟨result, s'⟩ := r
      dsimp only
      split
      · exact ⟨a', h', hr'⟩
      · exact activateReserve_good h' hr'
    · exact activateReserve_good h hr

/-- A `DisactivatedMsgId` that reserves the descriptor of its queue: the descriptor is the
truth value `true`, or no msgid was disactivated. -/
def DescriptorIsOne (s : RecvMq) (msgid : Nat) : Prop :=
  (s.msgs.setMqDisactivated s.pid msgid).1 = true → s.recvIdfd.lookup msgid = some 1

/-- A refused change leaves the lists. -/
theorem setMqFlagStatus_refused (h : Core s a) {isActivated : Bool}
    (hres : (s.msgs.setMqFlagStatus s.pid msgid true isActivated).1 = false) :
    Placing (s.msgs.setMqFlagStatus s.pid msgid true isActivated).2 a ∧
      SameIds s.msgs (s.msgs.setMqFlagStatus s.pid msgid true isActivated).2 := by
  obtain ⟨hs, ⟨p, hf, hp, -⟩ | hpl⟩ :=
    setMqFlagStatus_cases h.placing h.maxMqueue (Nat.le_refl _) s.pid msgid isActivated
  · have htrue := (setMqFlagStatus_core h isActivated hp).1
    rw [msgid_of_find hf, hres] at htrue
    cases htrue
  · exact ⟨hpl, hs⟩

/-- Where the lists and the msgids of the area are the same. -/
theorem withMsgs_same (h : Core s a) (hr : Reserved s a) {m : MsgInfo} (hpl : Placing m a)
    (hs : SameIds s.msgs m) :
    Core { s with msgs := m } a ∧ Reserved { s with msgs := m } a := by
  have hin : ∀ {l : List Ptr} {msgid : Nat}, InList s.msgs l msgid ↔ InList m l msgid := by
    intro l msgid
    constructor
    · rintro ⟨p, hp, hid⟩
      exact ⟨p, hp, (hs.msgid p).trans hid⟩
    · rintro ⟨p, hp, hid⟩
      exact ⟨p, hp, (hs.msgid p).symm.trans hid⟩
  refine ⟨h.withMsgs hpl hs.maxMqueue hs.areaCount fun msgid hm => ?_, fun msgid mqfd => ?_⟩
  · obtain ⟨isActivated, hheld⟩ := h.held msgid hm
    exact ⟨isActivated, hin.mp hheld⟩
  · exact (hr msgid mqfd).trans (and_congr_right fun _ => hin)

/-- The reserved queue that `DisactivatedMsgId` puts down. -/
theorem setReserve_good {a' : MsgKind → List Ptr} {m : MsgInfo}
    (hcore : Core { s with msgs := m } a') (hl : s.recvIdfd.lookup msgid = some mqfd)
    (hin : InList m (a' .assigned) msgid)
    (hother : ∀ msgid' mqfd', msgid' ≠ msgid → (s.reserveIdfd.lookup msgid' = some mqfd' ↔
      s.recvIdfd.lookup msgid' = some mqfd' ∧ InList m (a' .assigned) msgid')) :
    Core ({ s with msgs := m }.setReserve msgid mqfd true) a' ∧
      Reserved ({ s with msgs := m }.setReserve msgid mqfd true) a' := by
  refine ⟨⟨hcore.placing, hcore.maxMqueue, hcore.inverse, hcore.held, hcore.valid, hcore.closed,
    hcore.freed⟩, fun msgid' mqfd' => ?_⟩
  show (s.reserveIdfd.insert msgid mqfd).lookup msgid' = some mqfd' ↔
    s.recvIdfd.lookup msgid' = some mqfd' ∧ InList m (a' .assigned) msgid'
  by_cases he : msgid' = msgid
  · rw [he, AList.lookup_insert, hl]
    exact ⟨fun hl' => ⟨hl', hin⟩, And.left⟩
  · rw [AList.lookup_insert_ne he]
    exact hother msgid' mqfd' he

theorem disactivatedMsgId_good (h : Core s a) (hr : Reserved s a)
    (hone : DescriptorIsOne s msgid) :
    ∃ a', Core (s.disactivatedMsgId msgid).2 a' ∧ Reserved (s.disactivatedMsgId msgid).2 a' := by
  rw [disactivatedMsgId]
  split
  · exact ⟨a, h, hr⟩
  · have hfd : ¬ ((if msgid ∈ s.recvIdfd then 1 else 0 : Int) = chmInvalidHandle) := by
      split <;> decide
    dsimp only
    rw [if_neg hfd]
    cases hres : (s.msgs.setMqDisactivated s.pid msgid).1 with
    | false =>
      obtain ⟨hpl, hs⟩ := setMqFlagStatus_refused h hres
      exact ⟨a, withMsgs_same h hr hpl hs⟩
    | true =>
      have hl := hone hres
      have hmem : msgid ∈ s.recvIdfd := mem_of_lookup hl
      rw [if_pos hmem]
      have hgood : ∃ a',
          Core ({ s with msgs := (s.msgs.setMqDisactivated s.pid msgid).2 }.setReserve
            msgid 1 true) a' ∧
          Reserved ({ s with msgs := (s.msgs.setMqDisactivated s.pid msgid).2 }.setReserve
            msgid 1 true) a' := by
        obtain ⟨isActivated, p, hp, rfl⟩ := h.held msgid hmem
        cases isActivated with
        | true =>
          obtain ⟨-, hcore, hs⟩ := setMqFlagStatus_core h false hp
          refine ⟨_, setReserve_good hcore hl (inList_moved h.placing hp hs.msgid) ?_⟩
          intro msgid' mqfd' hne
          rw [hr msgid' mqfd']
          exact and_congr_right fun _ => (inList_move h.placing hp hs.msgid (Ne.symm hne)).symm
        | false =>
          have hf := find_msgid h.placing h.maxMqueue (Nat.le_refl _) (h.placing.lt hp)
          obtain ⟨hpl, hs⟩ := setMqFlagStatus_stays s.pid h.placing hf hp false (by decide)
          obtain ⟨hcore, hres'⟩ := withMsgs_same h hr hpl hs
          exact ⟨a, setReserve_good hcore hl ⟨p, hp, hs.msgid p⟩ fun msgid' mqfd' _ =>
            hres' msgid' mqfd'⟩
      obtain ⟨a', hcore, hres'⟩ := hgood
      exact freeReserveMsgIds_good hcore hres'

/-! ## Runs -/

/-- The condition on a step. -/
def StepOne (s : RecvMq) : QueueOp → Prop
  | .disactivatedMsgId msgid => DescriptorIsOne s msgid
  | _ => True

def RunOne (sys : MqSystem) (s : RecvMq) : List QueueOp → Prop
  | [] => True
  | op :: ops => StepOne s op ∧ RunOne sys (s.exec sys op) ops

theorem exec_good (sys : MqSystem) (h : Core s a) (hr : Reserved s a) {op : QueueOp}
    (hone : StepOne s op) : ∃ a', Core (s.exec sys op) a' ∧ Reserved (s.exec sys op) a' := by
  cases op with
  | setEventQueue => exact setEventQueue_good sys h hr
  | activatedMsgId => exact activatedMsgId_good sys h hr
  | disactivatedMsgId msgid => exact disactivatedMsgId_good h hr hone
  | freeReserveMsgIds => exact freeReserveMsgIds_good h hr
  | clean => exact clean_good h hr

theorem run_good (sys : MqSystem) (h : Core s a) (hr : Reserved s a) {ops : List QueueOp}
    (hops : RunOne sys s ops) : ∃ a', Core (s.run sys ops) a' ∧ Reserved (s.run sys ops) a' := by
  induction ops generalizing s a with
  | nil => exact ⟨a, h, hr⟩
  | cons op ops ih =>
    obtain ⟨a', h', hr'⟩ := exec_good sys h hr hops.1
    exact ih h' hr' hops.2

theorem queuesKept (h : Core s a) (hr : Reserved s a) : QueuesKept s where
  inverse := h.inverse
  reserve msgid mqfd := by
    rw [hr msgid mqfd]
    refine and_congr_right fun hl => ⟨?_, ?_⟩
    · rintro ⟨p, hp, rfl⟩
      refine ⟨p, find_msgid h.placing h.maxMqueue (Nat.le_refl _) (h.placing.lt hp), ?_⟩
      rw [h.placing.flag _ p hp]
      decide
    · rintro ⟨p, hf, -, hact⟩
      obtain ⟨isActivated, q, hq, hid⟩ := h.held msgid (mem_of_lookup hl)
      have hfq := find_msgid h.placing h.maxMqueue (Nat.le_refl _) (h.placing.lt hq)
      rw [hid, hf] at hfq
      obtain rfl : p = q := Option.some.inj hfq
      rw [h.placing.flag _ p hq] at hact
      cases isActivated with
      | false => exact ⟨p, hq, hid⟩
      | true => exact absurd hact (by decide)
  closed := h.closed
  freed := h.freed

theorem start_good {m : MsgInfo} (h : Placing m a) (hmax : m.maxMqueue = m.areaCount)
    (isClientOnSlv : Bool) (pid : Nat) (mqPerAttach : Int) :
    Core (start isClientOnSlv pid mqPerAttach m) a ∧
      Reserved (start isClientOnSlv pid mqPerAttach m) a := by
  refine ⟨⟨h, hmax, Inverse.empty, fun msgid hm => ?_, fun mqfd hm => ?_, .refl _, .refl _⟩,
    fun msgid mqfd => ?_⟩
  · exact absurd hm (AList.notMem_empty msgid)
  · exact absurd hm (AList.notMem_empty mqfd)
  · constructor
    · intro hl
      cases hl
    · rintro ⟨hl, -⟩
      cases hl

/-- On a node with a queue, whatever other processes did to the area before: a client's maps
of queues are kept in every run in which each msgid that `DisactivatedMsgId` disactivates is
of the queue with the descriptor one. -/
theorem run_queuesKept {env : Env} {cfg : InfoCfg} {outside : Links Ptr × (Ptr → MqMsgHead)}
    {m : MsgInfo} (h : ChmInfo.startMsgs env cfg outside = some m) (hpos : 0 < cfg.maxMqueue)
    (before : List MsgOp) (sys : MqSystem) (isClientOnSlv : Bool) (pid : Nat) (mqPerAttach : Int)
    {ops : List QueueOp}
    (hops : RunOne sys (start isClientOnSlv pid mqPerAttach (m.run before)) ops) :
    QueuesKept ((start isClientOnSlv pid mqPerAttach (m.run before)).run sys ops) := by
  obtain ⟨a, hpl, hmax⟩ := run_kept ⟨_, startMsgs_kept h hpos⟩ before
  obtain ⟨hcore, hr⟩ := start_good hpl hmax isClientOnSlv pid mqPerAttach
  obtain ⟨a', hcore', hr'⟩ := run_good sys hcore hr hops
  exact queuesKept hcore' hr'

/-! ### A queue with the descriptor one, and one with another -/

/-- A system that gives the descriptor after the largest that is open, from `first` on. -/
def sampleSystem (first : Int) : MqSystem where
  attempt s := ⟨true, s.recvFdid.keys.foldr max (first - 1) + 1, true⟩
  fresh s hm := by
    have hle : ∀ l : List Int, ∀ x ∈ l, x ≤ l.foldr max (first - 1) := by
      intro l
      induction l with
      | nil => simp
      | cons y l ih =>
        intro x hx
        rcases List.mem_cons.mp hx with rfl | hx
        · exact le_max_left ..
        · exact (ih x hx).trans (le_max_right ..)
    exact absurd (hle _ _ hm) (not_le.mpr (Int.lt_succ _))

/-- A client of a slave node, which attaches one queue at a time. -/
def sampleClient : RecvMq := start true 7 1 sampleMsgs

/-- A queue is made, activated and disactivated. -/
def sampleQueueOps : List QueueOp :=
  [.setEventQueue, .activatedMsgId, .disactivatedMsgId (sampleMsgs.msghead 0).msgid]

instance decDescriptorIsOne (s : RecvMq) (msgid : Nat) : Decidable (DescriptorIsOne s msgid) :=
  inferInstanceAs (Decidable (_ → _))

instance decStepOne (s : RecvMq) : DecidablePred (StepOne s)
  | .disactivatedMsgId msgid => decDescriptorIsOne s msgid
  | .setEventQueue | .activatedMsgId | .freeReserveMsgIds | .clean => .isTrue trivial

instance decRunOne (sys : MqSystem) (s : RecvMq) : DecidablePred (RunOne sys s)
  | [] => .isTrue trivial
  | op :: ops => @instDecidableAnd _ _ (decStepOne s op) (decRunOne sys (s.exec sys op) ops)

theorem run_queuesKept_sample : QueuesKept (sampleClient.run (sampleSystem 1) sampleQueueOps) :=
  run_queuesKept sampleMsgs_eq (by decide) [] (sampleSystem 1) true 7 1 (by decide +kernel)

/-- The queue is disactivated and not reserved, nor closed. -/
theorem disactivated_leaks :
    let s := sampleClient.run (sampleSystem 5) sampleQueueOps
    let msgid := (sampleMsgs.msghead 0).msgid
    s.recvIdfd.lookup msgid = some 5 ∧ s.reserveIdfd.lookup msgid = none ∧ s.closed = [] ∧
      s.msgs.isMsgidActivated msgid = false ∧ ¬ QueuesKept s := by
  intro s msgid
  have hl : s.recvIdfd.lookup msgid = some 5 := by decide +kernel
  have hr : s.reserveIdfd.lookup msgid = none := by decide +kernel
  refine ⟨hl, hr, by decide +kernel, by decide +kernel, fun hkept => ?_⟩
  have hdis : Disactivated s.msgs msgid :=
    ⟨0, by decide +kernel, by decide +kernel, by decide +kernel⟩
  have hres := (hkept.reserve msgid 5).mpr ⟨hl, hdis⟩
  rw [hr] at hres
  cases hres

end RecvMq
end Chm
