/-
The head of a `COM_C2C` message.

A client makes it with `BuildC2CHeadEx`, for a new message or for the response to one, and
the chmpx process that gets it over a socket writes the ids of its own queues into it.  The
msgids come from `GetRandomMsgId`, which hands out the msgids of a list in turn
(`getRandomMsgId_inTurn`), and the serial number from the process itself.
-/
import Chm.MqRandom
import Chm.MqSend
import Chm.Receivers
import Chm.Time

namespace Chm

/-! ## The msgid in turn -/

/-- The element after `x`, and the first one after the last. -/
def after (l : List Nat) (x : Nat) : Nat :=
  ((l.dropWhile (· ≠ x)).tail.head?.or l.head?).getD chmInvalidMsgId

theorem after_of_split {l₁ l₂ : List Nat} {x : Nat} (hx : x ∉ l₁) :
    after (l₁ ++ x :: l₂) x = (l₂.head?.or (l₁ ++ x :: l₂).head?).getD chmInvalidMsgId := by
  have hdrop : (l₁ ++ x :: l₂).dropWhile (· ≠ x) = x :: l₂ := by
    have hne : ∀ y ∈ l₁, decide (y ≠ x) = true := fun y hy =>
      decide_eq_true fun he : y = x => hx (he ▸ hy)
    rw [List.dropWhile_append_of_pos hne]
    simp
  rw [after, hdrop, List.tail_cons]

namespace MsgInfo

variable {m : MsgInfo} {a : MsgKind → List Ptr} {k : MsgKind} {p : Ptr}

/-- `GetRandomChmpxMsgId`. -/
def getRandomChmpxMsgId (m : MsgInfo) : Nat × MsgInfo := m.getRandomMsgId true true

/-- `GetRandomClientMsgId`. -/
def getRandomClientMsgId (m : MsgInfo) : Nat × MsgInfo := m.getRandomMsgId false true

/-- The msgids of a list, in its order. -/
def msgidsOf (m : MsgInfo) (k : MsgKind) : List Nat :=
  (m.nodesOf k).map fun p => (m.msghead p).msgid

/-- The msgid that is in turn for a send: in the list where the last one handed out is now,
the one after it; without a last one, the first one that somebody reads. -/
def inTurn (m : MsgInfo) (isChmpx : Bool) : Nat :=
  let last := if isChmpx then m.lastMsgidChmpx else m.lastMsgidActivated
  match MsgKind.all.find? fun k => last ∈ m.msgidsOf k with
  | some k => after (m.msgidsOf k) last
  | none => (m.msgidsOf (readKind isChmpx)).head?.getD chmInvalidMsgId

theorem msgidsOf_eq (h : Placing m a) (k : MsgKind) :
    m.msgidsOf k = (a k).map fun p => (m.msghead p).msgid := by
  rw [msgidsOf, nodesOf_eq h]

theorem mem_msgidsOf (h : Placing m a) (hp : p < m.areaCount) :
    (m.msghead p).msgid ∈ m.msgidsOf k ↔ p ∈ a k := by
  rw [msgidsOf_eq h, List.mem_map]
  constructor
  · rintro ⟨q, hq, he⟩
    rwa [← msgid_inj h (h.lt hq) hp he]
  · exact fun hpk => ⟨p, hpk, rfl⟩

/-- The head at which `ToNext` arrives has the msgid after. -/
theorem msgid_toNext (h : Placing m a) (hp : p ∈ a k) :
    (m.msghead (m.toNext p)).msgid = after (m.msgidsOf k) (m.msghead p).msgid := by
  obtain ⟨l₁, l₂, hsplit⟩ := List.append_of_mem hp
  have hchain := h.chains_front k
  have hnodup := h.nodup k
  have hfirst := h.first hp
  rw [hsplit] at hchain hnodup hfirst
  have hnot : (m.msghead p).msgid ∉ l₁.map fun p => (m.msghead p).msgid := by
    rw [List.mem_map]
    rintro ⟨q, hq, he⟩
    have hqk : q ∈ a k := by rw [hsplit]; exact List.mem_append_left _ hq
    have hqp := msgid_inj h (h.lt hqk) (h.lt hp) he
    rw [List.nodup_append] at hnodup
    exact hnodup.2.2 q hq p List.mem_cons_self hqp
  rw [msgidsOf_eq h, hsplit, List.map_append, List.map_cons, after_of_split hnot, toNext,
    hchain.next_of_split]
  cases l₂ with
  | nil =>
    have hhead : (l₁ ++ [p]).head?.map (fun p => (m.msghead p).msgid) =
        some (m.msghead (m.first p)).msgid := by rw [← hfirst]; rfl
    rw [← List.head?_map, List.map_append, List.map_cons] at hhead
    rw [List.map_nil, List.head?_nil, Option.none_or, ← List.map_nil, hhead]
    rfl
  | cons q l₂ => rfl

theorem after_mem {l : List Nat} {x : Nat} (h : after l x ≠ chmInvalidMsgId) : after l x ∈ l := by
  rw [after] at h ⊢
  cases htail : (l.dropWhile (· ≠ x)).tail.head? with
  | some y =>
    have hy : y ∈ (l.dropWhile (· ≠ x)).tail := List.mem_of_head? htail
    exact (List.dropWhile_sublist _).subset (List.mem_of_mem_tail hy)
  | none =>
    cases hhead : l.head? with
    | some y => exact List.mem_of_head? hhead
    | none =>
      rw [htail, hhead] at h
      exact absurd rfl h

/-- The msgid in turn is of a head of the area. -/
theorem inTurn_mem (h : Placing m a) {isChmpx : Bool} (hturn : m.inTurn isChmpx ≠ chmInvalidMsgId) :
    ∃ p < m.areaCount, (m.msghead p).msgid = m.inTurn isChmpx := by
  have hof : ∀ k, ∀ msgid ∈ m.msgidsOf k, ∃ p < m.areaCount, (m.msghead p).msgid = msgid := by
    intro k msgid hmem
    rw [msgidsOf_eq h, List.mem_map] at hmem
    obtain ⟨p, hp, he⟩ := hmem
    exact ⟨p, h.lt hp, he⟩
  rw [inTurn] at hturn ⊢
  split at hturn
  · exact hof _ _ (after_mem hturn)
  · cases hhead : (m.msgidsOf (readKind isChmpx)).head? with
    | some y => exact hof _ _ (List.mem_of_head? hhead)
    | none =>
      rw [hhead] at hturn
      exact absurd rfl hturn

theorem baseMsgs_eq (h : Placing m a) (isChmpx : Bool) :
    m.baseMsgs isChmpx true = (a (readKind isChmpx)).head? := by
  have hbase : m.baseMsgs isChmpx true =
      if m.listCount (readKind isChmpx) = 0 then none else m.listHead (readKind isChmpx) := by
    cases isChmpx <;> rfl
  rw [hbase, h.count, h.head]
  cases a (readKind isChmpx) with
  | nil => rfl
  | cons p l => exact if_neg (by simp; omega)

/-- A client msgid that is handed out does not change whose turn it is among the others. -/
theorem getRandomMsgId_setLastMsgid (m : MsgInfo) (msgid : Nat) :
    ((m.setLastMsgid false true msgid).getRandomMsgId true true).1 =
      (m.getRandomMsgId true true).1 := by
  have hnext : (m.setLastMsgid false true msgid).nextMsgid
      ((m.setLastMsgid false true msgid).lastMsgid true true) =
        m.nextMsgid (m.lastMsgid true true) := rfl
  have hbase : (m.setLastMsgid false true msgid).baseMsgs true true = m.baseMsgs true true := rfl
  rw [getRandomMsgId, getRandomMsgId, hnext, hbase]
  dsimp only
  split
  · rfl
  · cases m.baseMsgs true true <;> rfl

/-- `GetRandomMsgId` for a send hands out the msgid in turn. -/
theorem getRandomMsgId_inTurn (h : Placing m a) (hmax : m.maxMqueue = m.areaCount)
    (isChmpx : Bool) : (m.getRandomMsgId isChmpx true).1 = m.inTurn isChmpx := by
  have hlast : m.lastMsgid isChmpx true =
      if isChmpx then m.lastMsgidChmpx else m.lastMsgidActivated := by cases isChmpx <;> rfl
  have hbase : ∀ o : Option Ptr, o = m.baseMsgs isChmpx true →
      (o.elim (chmInvalidMsgId, m) fun p =>
        ((m.msghead p).msgid, m.setLastMsgid isChmpx true (m.msghead p).msgid)).1 =
      (m.msgidsOf (readKind isChmpx)).head?.getD chmInvalidMsgId := by
    rintro o rfl
    rw [baseMsgs_eq h, msgidsOf_eq h, List.head?_map]
    cases (a (readKind isChmpx)).head? <;> rfl
  rw [inTurn, ← hlast, getRandomMsgId]
  generalize m.lastMsgid isChmpx true = last
  dsimp only
  cases hf : MsgKind.all.find? fun k => last ∈ m.msgidsOf k with
  | none =>
    -- The last msgid is of no head.
    have hnone : m.nextMsgid last = chmInvalidMsgId := by
      rw [nextMsgid]
      split
      · rfl
      · cases hfind : m.find last with
        | none => rfl
        | some p =>
          have hp := find_lt h hmax (Nat.le_refl _) hfind
          obtain ⟨k, hk⟩ := h.exists_kind hp
          have hin := (mem_msgidsOf h hp).mpr hk
          rw [msgid_of_find hfind] at hin
          exact absurd hin (by simpa using List.find?_eq_none.mp hf k (MsgKind.mem_all k))
    rw [if_neg (not_not_intro hnone)]
    cases hb : m.baseMsgs isChmpx true <;> exact hbase _ hb.symm
  | some k =>
    have hin : last ∈ m.msgidsOf k := by simpa using List.find?_some hf
    rw [msgidsOf_eq h, List.mem_map] at hin
    obtain ⟨p, hp, rfl⟩ := hin
    have hnext := nextMsgid_of_mem h hmax hp
    have hne : m.nextMsgid (m.msghead p).msgid ≠ chmInvalidMsgId := by
      rw [hnext]
      exact msgid_ne_invalid h (h.lt (toNext_mem h hp))
    dsimp only
    rw [if_pos hne, hnext, msgid_toNext h hp]

end MsgInfo

/-! ## Heads -/

/-- `COM_VERSION_1`. -/
def comVersion1 : Nat := 1

/-- `PCKID`. -/
@[ext] structure PckId where
  chmpxid : ChmpxId
  msgid : Nat
  deriving DecidableEq, Repr

/-- `COMHEAD`. -/
@[ext] structure ComHead where
  version : Nat
  type : ComType
  c2ctype : C2cType
  deptIds : PckId
  termIds : PckId
  peerDeptMsgid : Nat
  peerTermMsgid : Nat
  mqSerialNum : Nat
  hash : ChmHash
  reqtime : Timespec
  deriving DecidableEq, Repr

/-- The `COMPKT` of a head as it goes through a queue. -/
def ComHead.toMqPkt (head : ComHead) : MqPkt :=
  ⟨head.type, head.peerDeptMsgid, head.peerTermMsgid, head.mqSerialNum, sizeofComPkt, sizeofComPkt⟩

/-- A head, if there is one, with the area and the serial number after it was made. -/
structure HeadResult where
  head : Option ComHead
  msgs : MsgInfo
  serialNum : Nat

/-- A process with a `ChmEventMq`: the chmpx process, a client of a slave, or one of a server. -/
structure MqProc where
  mq : MqObj
  isClientOnSlv : Bool
  serialNum : Nat

namespace MqProc

variable (p : MqProc) (selfchmpxid : ChmpxId) (now : Option Timespec) (msgs : MsgInfo)

/-- The departure of a new message: the msgid that the caller names, or a random one. -/
def departure (frommsgid : Nat) : Nat × MsgInfo :=
  if frommsgid = chmInvalidMsgId then
    if p.isClientOnSlv then (chmInvalidMsgId, msgs) else msgs.getRandomClientMsgId
  else if msgs.isMsgidActivated frommsgid then (frommsgid, msgs)
  else (chmInvalidMsgId, msgs)

/-- `BuildC2CHeadEx`, when the clock shows `now`. -/
def buildC2CHeadEx (pReqComHead : Option ComHead) (tochmpxid : ChmpxId) (hash : ChmHash)
    (c2ctype : C2cType) (frommsgid : Nat) : HeadResult :=
  if p.mq.isEmpty || p.mq.isChmpxType then ⟨none, msgs, p.serialNum⟩
  else
    match pReqComHead with
    | none =>
      let (frommsgid, msgs) := p.departure msgs frommsgid
      if frommsgid = chmInvalidMsgId then ⟨none, msgs, p.serialNum⟩
      else
        let (peerTermMsgid, msgs) := msgs.getRandomChmpxMsgId
        if selfchmpxid = chmInvalidChmpxId ∨ peerTermMsgid = chmInvalidMsgId then
          ⟨none, msgs, p.serialNum⟩
        else
          let (serial, serialNum) := ChmEventMq.getSerialNumber p.serialNum
          let head : ComHead :=
            { version := comVersion1
              type := .c2c
              c2ctype := c2ctype
              deptIds := ⟨selfchmpxid, frommsgid⟩
              termIds := ⟨tochmpxid, chmInvalidMsgId⟩
              peerDeptMsgid := frommsgid
              peerTermMsgid := peerTermMsgid
              mqSerialNum := serial
              hash := hash
              reqtime := now.getD ⟨0, 0⟩ }
          ⟨some head, msgs, serialNum⟩
    | some req =>
      if req.type ≠ .c2c then ⟨none, msgs, p.serialNum⟩
      else
        let (peerTermMsgid, msgs) := msgs.getRandomChmpxMsgId
        if peerTermMsgid = chmInvalidMsgId then ⟨none, msgs, p.serialNum⟩
        else
          let (serial, serialNum) := ChmEventMq.getSerialNumber p.serialNum
          let head : ComHead :=
            { version := comVersion1
              type := .c2c
              c2ctype := c2ctype
              deptIds := req.termIds
              termIds := req.deptIds
              peerDeptMsgid := req.termIds.msgid
              peerTermMsgid := peerTermMsgid
              mqSerialNum := serial
              hash := req.hash
              reqtime := now.getD ⟨0, 0⟩ }
          ⟨some head, msgs, serialNum⟩

/-- `BuildC2CSendHead`. -/
def buildC2CSendHead (tochmpxid : ChmpxId) (hash : ChmHash) (c2ctype : C2cType)
    (frommsgid : Nat) : HeadResult :=
  p.buildC2CHeadEx selfchmpxid now msgs none tochmpxid hash c2ctype frommsgid

/-- `BuildC2CResponseHead`. -/
def buildC2CResponseHead (req : ComHead) : HeadResult :=
  p.buildC2CHeadEx selfchmpxid now msgs (some req) chmInvalidChmpxId 0 comC2cNormal chmInvalidMsgId

/-- The terminus of a message that came over a socket: the one that it names, or a random one. -/
def terminus (termMsgid : Nat) : Nat × MsgInfo :=
  if termMsgid = chmInvalidMsgId then msgs.getRandomClientMsgId else (termMsgid, msgs)

/-- `Processing` of a `COM_C2C` message that came over a socket, up to its `Send`. -/
def processing (head : ComHead) : HeadResult :=
  if p.mq.isEmpty || head.termIds.chmpxid ≠ selfchmpxid then ⟨none, msgs, p.serialNum⟩
  else
    let (termMsgid, msgs) := terminus msgs head.termIds.msgid
    if termMsgid = chmInvalidMsgId then ⟨none, msgs, p.serialNum⟩
    else
      let (peerDeptMsgid, msgs) := msgs.getRandomChmpxMsgId
      let (serial, serialNum) := ChmEventMq.getSerialNumber p.serialNum
      let head : ComHead :=
        { head with
          termIds := ⟨head.termIds.chmpxid, termMsgid⟩
          peerDeptMsgid := peerDeptMsgid
          peerTermMsgid := termMsgid
          mqSerialNum := serial }
      ⟨some head, msgs, serialNum⟩

/-! ## What a head draws -/

variable {p : MqProc} {selfchmpxid : ChmpxId} {now : Option Timespec} {msgs : MsgInfo}

theorem departure_run (frommsgid : Nat) : ∃ ops, (p.departure msgs frommsgid).2 = msgs.run ops := by
  rw [departure]
  split
  · split
    · exact ⟨[], rfl⟩
    · exact ⟨[.random false true], rfl⟩
  · split <;> exact ⟨[], rfl⟩

theorem run_random (ops : List MsgInfo.MsgOp) (isChmpx isActivated : Bool) :
    ∃ ops', ((msgs.run ops).getRandomMsgId isChmpx isActivated).2 = msgs.run ops' :=
  ⟨ops ++ [.random isChmpx isActivated], by rw [MsgInfo.run, MsgInfo.run, List.foldl_concat]; rfl⟩

/-- The area after a head is made is that after some operations. -/
theorem buildC2CHeadEx_run (pReqComHead : Option ComHead) (tochmpxid : ChmpxId) (hash : ChmHash)
    (c2ctype : C2cType) (frommsgid : Nat) :
    ∃ ops, (p.buildC2CHeadEx selfchmpxid now msgs pReqComHead tochmpxid hash c2ctype
      frommsgid).msgs = msgs.run ops := by
  rw [buildC2CHeadEx.eq_def]
  split
  · exact ⟨[], rfl⟩
  · cases pReqComHead with
    | none =>
      obtain ⟨ops, hops⟩ := @departure_run p msgs frommsgid
      dsimp only
      split
      · exact ⟨ops, hops⟩
      · rw [hops]
        split <;> exact run_random ops true true
    | some req =>
      dsimp only
      split
      · exact ⟨[], rfl⟩
      · split <;> exact run_random [] true true

theorem processing_run (head : ComHead) :
    ∃ ops, (p.processing selfchmpxid msgs head).msgs = msgs.run ops := by
  rw [processing]
  split
  · exact ⟨[], rfl⟩
  · have hterm : ∃ ops, (terminus msgs head.termIds.msgid).2 = msgs.run ops := by
      rw [terminus]
      split
      · exact ⟨[.random false true], rfl⟩
      · exact ⟨[], rfl⟩
    obtain ⟨ops, hops⟩ := hterm
    dsimp only
    split
    · exact ⟨ops, hops⟩
    · rw [hops]
      exact run_random ops true true

end MqProc

namespace HeadResult

/-- Nothing is made and no number drawn, or a head with the departure and the next number. -/
def Draws (r : HeadResult) (serialNum dept : Nat) : Prop :=
  r.head = none ∧ r.serialNum = serialNum ∨
    ∃ head, r.head = some head ∧ head.peerDeptMsgid = dept ∧ head.mqSerialNum = serialNum ∧
      r.serialNum = (ChmEventMq.getSerialNumber serialNum).2

end HeadResult

namespace MqProc

variable {p : MqProc} {selfchmpxid : ChmpxId} {now : Option Timespec} {msgs : MsgInfo}
  {a : MsgKind → List Ptr}

/-- The departure of a head that is made. -/
def deptOf (pReqComHead : Option ComHead) (frommsgid : Nat) (msgs : MsgInfo) : Nat :=
  match pReqComHead with
  | some req => req.termIds.msgid
  | none => if frommsgid = chmInvalidMsgId then msgs.inTurn false else frommsgid

theorem departure_eq (h : MsgInfo.Placing msgs a) (hmax : msgs.maxMqueue = msgs.areaCount)
    {frommsgid : Nat} (hdept : (p.departure msgs frommsgid).1 ≠ chmInvalidMsgId) :
    (p.departure msgs frommsgid).1 = deptOf none frommsgid msgs := by
  rw [departure] at hdept ⊢
  rw [deptOf]
  split at hdept
  · rename_i hfrom
    rw [if_pos hfrom, if_pos hfrom]
    split at hdept
    · exact absurd rfl hdept
    · rename_i hslv
      rw [if_neg hslv]
      exact MsgInfo.getRandomMsgId_inTurn h hmax false
  · rename_i hfrom
    rw [if_neg hfrom, if_neg hfrom]
    split at hdept
    · rename_i hact
      rw [if_pos hact]
    · exact absurd rfl hdept

theorem buildC2CHeadEx_draws (h : MsgInfo.Placing msgs a) (hmax : msgs.maxMqueue = msgs.areaCount)
    (pReqComHead : Option ComHead) (tochmpxid : ChmpxId) (hash : ChmHash) (c2ctype : C2cType)
    (frommsgid : Nat) :
    (p.buildC2CHeadEx selfchmpxid now msgs pReqComHead tochmpxid hash c2ctype
      frommsgid).Draws p.serialNum (deptOf pReqComHead frommsgid msgs) := by
  rw [buildC2CHeadEx.eq_def]
  split
  · exact Or.inl ⟨rfl, rfl⟩
  · cases pReqComHead with
    | none =>
      dsimp only
      split
      · exact Or.inl ⟨rfl, rfl⟩
      · rename_i hdept
        split
        · exact Or.inl ⟨rfl, rfl⟩
        · exact Or.inr ⟨_, rfl, departure_eq h hmax hdept, rfl, rfl⟩
    | some req =>
      dsimp only
      split
      · exact Or.inl ⟨rfl, rfl⟩
      · split
        · exact Or.inl ⟨rfl, rfl⟩
        · exact Or.inr ⟨_, rfl, rfl, rfl, rfl⟩

theorem processing_draws (h : MsgInfo.Placing msgs a) (hmax : msgs.maxMqueue = msgs.areaCount)
    (head : ComHead) :
    (p.processing selfchmpxid msgs head).Draws p.serialNum (msgs.inTurn true) := by
  rw [processing]
  split
  · exact Or.inl ⟨rfl, rfl⟩
  · have hturn : ((terminus msgs head.termIds.msgid).2.getRandomMsgId true true).1 =
        msgs.inTurn true := by
      rw [← MsgInfo.getRandomMsgId_inTurn h hmax true, terminus]
      split
      · rw [MsgInfo.getRandomClientMsgId]
        rcases MsgInfo.getRandomMsgId_cases msgs false true with he | he
        · rw [he]
        · rw [he, MsgInfo.getRandomMsgId_setLastMsgid]
      · rfl
    dsimp only
    split
    · exact Or.inl ⟨rfl, rfl⟩
    · exact Or.inr ⟨_, rfl, hturn, rfl, rfl⟩

/-! ## What a head says -/

variable {head head' req : ComHead}

theorem buildC2CSendHead_ids {tochmpxid : ChmpxId} {hash : ChmHash} {c2ctype : C2cType}
    {frommsgid : Nat} (h : (p.buildC2CSendHead selfchmpxid now msgs tochmpxid hash c2ctype
      frommsgid).head = some head) :
    head.type = .c2c ∧ head.deptIds.chmpxid ≠ chmInvalidChmpxId ∧
      head.deptIds.msgid ≠ chmInvalidMsgId := by
  rw [buildC2CSendHead, buildC2CHeadEx.eq_def] at h
  split at h
  · cases h
  · dsimp only at h
    split at h
    · cases h
    · rename_i hdept
      split at h
      · cases h
      · rename_i hids
        obtain rfl := Option.some.inj h
        exact ⟨rfl, fun hself => hids (Or.inl hself), hdept⟩

/-- A response has the ids of the request turned around. -/
theorem buildC2CResponseHead_ids
    (h : (p.buildC2CResponseHead selfchmpxid now msgs req).head = some head) :
    head.type = .c2c ∧ head.c2ctype = comC2cNormal ∧ head.deptIds = req.termIds ∧
      head.termIds = req.deptIds ∧ head.hash = req.hash := by
  rw [buildC2CResponseHead, buildC2CHeadEx.eq_def] at h
  split at h
  · cases h
  · dsimp only at h
    split at h
    · cases h
    · split at h
      · cases h
      · obtain rfl := Option.some.inj h
        exact ⟨rfl, rfl, rfl, rfl, rfl⟩

/-- What a chmpx process puts on a queue is for this node, and goes to the queue of its
terminus, which is the one that it named if it named one. -/
theorem processing_ids (h : (p.processing selfchmpxid msgs head).head = some head') :
    head.termIds.chmpxid = selfchmpxid ∧ head'.termIds.chmpxid = selfchmpxid ∧
      head'.peerTermMsgid = head'.termIds.msgid ∧
      (head.termIds.msgid ≠ chmInvalidMsgId → head'.termIds.msgid = head.termIds.msgid) ∧
      head'.deptIds = head.deptIds ∧ head'.hash = head.hash := by
  rw [processing] at h
  split at h
  · cases h
  · rename_i hself
    have hself' : head.termIds.chmpxid = selfchmpxid := by
      by_contra hne
      exact hself (by simp [hne])
    dsimp only at h
    split at h
    · cases h
    · obtain rfl := Option.some.inj h
      refine ⟨hself', hself', rfl, fun hmsgid => ?_, rfl, rfl⟩
      show (terminus msgs head.termIds.msgid).1 = _
      rw [terminus, if_neg hmsgid]

/-- A message that names a msgid of this node is put on a queue. -/
theorem processing_isSome (hempty : p.mq.isEmpty = false)
    (hself : head.termIds.chmpxid = selfchmpxid) (hmsgid : head.termIds.msgid ≠ chmInvalidMsgId) :
    ∃ head', (p.processing selfchmpxid msgs head).head = some head' := by
  rw [processing, hempty, if_neg (by simp [hself]), terminus, if_neg hmsgid]
  dsimp only
  rw [if_neg hmsgid]
  exact ⟨_, rfl⟩

end MqProc
end Chm
