/-
The ACK of a message for which its sender names no msgid.

On a server node `BuildC2CSendHead` takes the departure from the list of activated msgids,
which all clients of the node share.  The chmpx process puts the ACK on the queue of the
departure, and the sender waits on its own queue of that msgid.  So the ACK comes to the
sender, and to nobody else, if and only if the msgid in turn is open in the sender and in no
other client (`ackSeen_iff`).
-/
import Chm.C2cHead
import Chm.SendKeys

namespace Chm

namespace MqObj

variable (mq : MqObj)

/-- `SendAck`: the queue that the ACK is put on, and the composed msgid. -/
def sendAck (io : SendIO) (composed : ComposedMsgid) (isSuccess : Bool) : Option (Nat × Nat) :=
  if composed.msgid = chmInvalidMsgId then none
  else if !io.openDestMq then none
  else if mqSendLoop io.mqSend mq.retryCount.toNat 0 then
    some (composed.msgid,
      ChmEventMq.composeSerialMsgid mq.base composed.msgid composed.number true isSuccess)
  else none

/-- The success ACK that a `RawReceive` sends. -/
def successAck (processing : MqPkt → List Nat → Bool) (mqfd : Int) (composed : ComposedMsgid)
    (k : K2hash) (io : SendIO) : Option (Nat × Nat) :=
  match (mq.rawReceive processing mqfd composed k).2.1 with
  | some true => mq.sendAck io composed true
  | _ => none

/-- The process receives from the queue of a msgid. -/
def Reads (msgid : Nat) : Prop :=
  ∃ mqfd, mqfd ≠ chmInvalidHandle ∧ mq.recvFdid.lookup mqfd = some msgid

/-- The process has opened the queue of a msgid for itself, and both maps know it. -/
def Opened (msgid : Nat) : Prop :=
  ∃ mqfd, mqfd ≠ chmInvalidHandle ∧ mq.recvIdfd.lookup msgid = some mqfd ∧
    mq.recvFdid.lookup mqfd = some msgid

end MqObj

/-- A server node after any history of its msgids, with its clients and its chmpx process. -/
structure ServerNode (ι : Type) where
  selfchmpxid : ChmpxId
  msgs : MsgInfo
  clients : ι → MqProc
  chmpx : MqObj
  history : ∃ env cfg outside start ops, ChmInfo.startMsgs env cfg outside = some start ∧
    0 < cfg.maxMqueue ∧ msgs = start.run ops
  isClient : ∀ i, (clients i).mq.isChmpxType = false ∧ (clients i).isClientOnSlv = false
  base : ∀ i, (clients i).mq.baseMsgid = msgs.baseMsgid
  chmpxBase : chmpx.baseMsgid = msgs.baseMsgid

namespace ServerNode

variable {ι : Type} (node : ServerNode ι)

/-- `BuildC2CSendHead` without a msgid. -/
def sendHead (i : ι) (now : Option Timespec) (tochmpxid : ChmpxId) (hash : ChmHash)
    (c2ctype : C2cType) : Option ComHead :=
  ((node.clients i).buildC2CSendHead node.selfchmpxid now node.msgs tochmpxid hash c2ctype
    chmInvalidMsgId).head

/-- The ACK is on a queue that the sender has opened and no other client reads, and the `Send`
that waits for it with tries left returns true. -/
structure AckSeen (i : ι) (queue ack : Nat) (send : List MqPoll → Bool) : Prop where
  own : (node.clients i).mq.Opened queue
  others : ∀ j, j ≠ i → ¬(node.clients j).mq.Reads queue
  returns : ∀ n : Nat, n < (node.clients i).mq.retryCount →
    send (List.replicate n .again ++ [.entry ack]) = true

variable {node} {i : ι} {now : Option Timespec} {tochmpxid : ChmpxId} {hash : ChmHash}
  {c2ctype : C2cType} {head : ComHead} {composed : ComposedMsgid} {queue ack : Nat}

/-! ## The departure -/

theorem kept (node : ServerNode ι) :
    (∃ a, MsgInfo.Placing node.msgs a ∧ node.msgs.maxMqueue = node.msgs.areaCount) ∧
      node.msgs.areaCount ≤ 32768 := by
  obtain ⟨env, cfg, outside, start, ops, hstart, hpos, hrun⟩ := node.history
  have hkept : MsgInfo.Kept start := ⟨_, MsgInfo.startMsgs_kept hstart hpos⟩
  rw [hrun]
  refine ⟨MsgInfo.run_kept hkept ops, ?_⟩
  rw [(MsgInfo.run_sameArea hkept ops).areaCount]
  have he := MsgInfo.initializeMsgs_eq hstart
  have hcount := he.2.1
  have hle := he.2.2.2.2.2
  rw [maxMqueueCount] at hle
  omega

theorem sendHead_dept (hbuilt : node.sendHead i now tochmpxid hash c2ctype = some head) :
    head.peerDeptMsgid = node.msgs.inTurn false := by
  obtain ⟨⟨a, hpl, hmax⟩, -⟩ := node.kept
  rw [sendHead, MqProc.buildC2CSendHead] at hbuilt
  rcases @MqProc.buildC2CHeadEx_draws (node.clients i) node.selfchmpxid now node.msgs a hpl hmax
    none tochmpxid hash c2ctype chmInvalidMsgId with ⟨hnone, -⟩ | ⟨head', hsome, hdept, -⟩
  · rw [hnone] at hbuilt
    cases hbuilt
  · rw [hsome] at hbuilt
    obtain rfl := Option.some.inj hbuilt
    exact hdept

/-- The msgid in turn is of the area, at an offset that keeps off the flags. -/
theorem inTurn_offset (node : ServerNode ι) (h : node.msgs.inTurn false ≠ chmInvalidMsgId) :
    ∃ offset, node.msgs.inTurn false = node.msgs.baseMsgid + offset ∧ offset < 2 ^ 32 - 1 ∧
      node.msgs.baseMsgid + offset < 2 ^ 64 := by
  obtain ⟨⟨a, hpl, -⟩, hcount⟩ := node.kept
  obtain ⟨p, hp, he⟩ := MsgInfo.inTurn_mem hpl h
  have hfits := hpl.fits.2
  rw [chmInvalidMsgId] at hfits
  refine ⟨p, ?_, by omega, by omega⟩
  rw [← he]
  exact hpl.msgid p hp

/-! ## The way of the ACK -/

section Ack

variable {mq : MqObj} {io ackIo : SendIO} {body : Option (List Nat)} {k k' : K2hash} {msgid : Nat}
  {fd : Int} {isWait : Bool} {processing processing' : MqPkt → List Nat → Bool}

/-- A client that has posted is not empty, and its message names a departure. -/
theorem post_some {pkt : MqPkt} (h : (mq.post io pkt body k).1 = some msgid) :
    mq.isEmpty = false ∧ pkt.peerDeptMsgid ≠ chmInvalidMsgId ∧
      msgid = ChmEventMq.composeSerialMsgid (some mq.baseMsgid) pkt.peerDeptMsgid pkt.mqSerialNum
        false false := by
  rcases MqObj.post_cases mq io pkt body k with ⟨-, he⟩ | ⟨hs, ⟨he, -⟩ | ⟨he, -⟩⟩
  · rw [he] at h
    cases h
  · rw [he] at h
    cases h
  · obtain ⟨hkey, hempty⟩ := MqObj.key_of_sendable hs
    refine ⟨hempty, fun hid => ?_, Option.some.inj (h.symm.trans he)⟩
    rw [MqPkt.makeKey, makeK2hashKey, if_pos (Or.inl hid)] at hkey
    cases hkey

theorem receive_some {composed : ComposedMsgid}
    (h : mq.receiveComposedMsgid fd (.entry msgid) = (some composed, isWait)) :
    mq.isEmpty = false ∧
      ChmEventMq.decomposeSerialMsgid (some mq.baseMsgid) msgid = some composed := by
  rw [MqObj.receiveComposedMsgid] at h
  split at h
  · cases h
  · rename_i hfd
    have hempty : mq.isEmpty = false := by
      cases he : mq.isEmpty with
      | false => rfl
      | true =>
        rw [MqObj.isEventQueueFd, he] at hfd
        simp at hfd
    rw [MqObj.base_of_notEmpty hempty] at h
    exact ⟨hempty, (Prod.mk.inj h).1⟩

theorem successAck_some {composed : ComposedMsgid} (hempty : mq.isEmpty = false)
    (h : mq.successAck processing fd composed k io = some (queue, ack)) :
    queue = composed.msgid ∧
      ack = ChmEventMq.composeSerialMsgid (some mq.baseMsgid) composed.msgid composed.number
        true true := by
  rw [MqObj.successAck] at h
  split at h
  · rw [MqObj.sendAck] at h
    split at h
    · cases h
    · split at h
      · cases h
      · split at h
        · rw [MqObj.base_of_notEmpty hempty] at h
          obtain ⟨hqueue, hack⟩ := Prod.mk.inj (Option.some.inj h)
          exact ⟨hqueue.symm, hack.symm⟩
        · cases h
  · cases h

/-- Turns that find the queue empty and then the ACK, with tries left. -/
theorem receiveAckLoop_again {mqfd : Int} {composed : ComposedMsgid}
    (hfd : mq.isEventQueueFd mqfd = true)
    (hack : ChmEventMq.decomposeSerialMsgid mq.base ack = some composed)
    (hflags : composed.isAck = true ∧ composed.isAckSuccess = true) (n cnt : Nat) (k : K2hash)
    (hn : (cnt + n : Nat) < mq.retryCount) :
    mq.receiveAckLoop processing mqfd (List.replicate n .again ++ [.entry ack]) cnt k =
      (true, k) := by
  induction n generalizing cnt with
  | zero =>
    have hturn : mq.ackTurn mqfd (.entry ack) = .finished true := by
      rw [MqObj.ackTurn, MqObj.receiveComposedMsgid, hfd, if_neg (by decide)]
      rw [hack]
      dsimp only
      rw [if_pos hflags.1, hflags.2]
    rw [List.replicate_zero, List.nil_append, MqObj.receiveAckLoop, if_neg (by omega), hturn]
  | succ n ih =>
    have hturn : mq.ackTurn mqfd .again = .wait := by
      rw [MqObj.ackTurn, MqObj.receiveComposedMsgid, hfd]
      rfl
    rw [List.replicate_succ, List.cons_append, MqObj.receiveAckLoop, if_neg (by omega), hturn]
    exact ih (cnt + 1) (by omega)

/-- With its own queue of the departure, a `Send` takes the ACK from there. -/
theorem send_true {pkt : MqPkt} (hpost : (mq.post io pkt body k).1 = some msgid)
    (hown : mq.Opened pkt.peerDeptMsgid) {composed : ComposedMsgid}
    (hack : ChmEventMq.decomposeSerialMsgid mq.base ack = some composed)
    (hflags : composed.isAck = true ∧ composed.isAckSuccess = true) {n : Nat}
    (hn : n < mq.retryCount) :
    (mq.send io processing (List.replicate n .again ++ [.entry ack]) pkt body k).1 = true := by
  obtain ⟨hempty, hdept, -⟩ := post_some hpost
  obtain ⟨mqfd, hvalid, hfd, hid⟩ := hown
  have hqueue : mq.isEventQueueFd mqfd = true :=
    MqObj.isEventQueueFd_of_lookup hempty hvalid hid
  rw [MqObj.send]
  generalize mq.post io pkt body k = r at hpost
  obtain ⟨o, k'⟩ := r
  obtain rfl : o = some msgid := hpost
  dsimp only
  split
  · rw [MqObj.receiveAck, if_neg hdept, hfd]
    dsimp only
    rw [if_neg hvalid, receiveAckLoop_again hqueue hack hflags n 0 k' (by omega)]
  · rfl

/-- For every node, every sender and every way that a message without a msgid takes to its
success ACK: the ACK is on a queue of the sender's own, no other client reads it, and the `Send`
returns true, if and only if the msgid in turn is open in the sender and in no other client. -/
theorem ackSeen_iff (hbuilt : node.sendHead i now tochmpxid hash c2ctype = some head)
    (hpost : ((node.clients i).mq.post io head.toMqPkt body k).1 = some msgid)
    (hreceive : node.chmpx.receiveComposedMsgid fd (.entry msgid) = (some composed, isWait))
    (hack : node.chmpx.successAck processing fd composed k' ackIo = some (queue, ack)) :
    node.AckSeen i queue ack (fun polls =>
        ((node.clients i).mq.send io processing' polls head.toMqPkt body k).1) ↔
      (node.clients i).mq.Opened (node.msgs.inTurn false) ∧
        ∀ j, j ≠ i → ¬(node.clients j).mq.Reads (node.msgs.inTurn false) := by
  obtain ⟨hempty, hvalid, hmsgid⟩ := post_some hpost
  obtain ⟨hchmpx, hdec⟩ := receive_some hreceive
  obtain ⟨hqueue, hentry⟩ := successAck_some hchmpx hack
  have hdept : head.toMqPkt.peerDeptMsgid = node.msgs.inTurn false := sendHead_dept hbuilt
  rw [hdept] at hvalid
  obtain ⟨offset, hturn, hoffset, hfits⟩ := node.inTurn_offset hvalid
  rw [hmsgid, hdept, hturn, node.base, node.chmpxBase] at hdec
  obtain ⟨hcomposed, hnumber⟩ := ChmEventMq.msgid_of_decompose (by omega) hfits hdec
  rw [← hturn] at hcomposed
  rw [hcomposed] at hqueue hentry
  have hlegible : ChmEventMq.decomposeSerialMsgid (node.clients i).mq.base ack =
      some ⟨node.msgs.inTurn false, composed.number, true, true⟩ := by
    rw [MqObj.base_of_notEmpty hempty, node.base, hentry, node.chmpxBase, hturn]
    exact ChmEventMq.decompose_compose hnumber hoffset hfits
  rw [hqueue]
  constructor
  · exact fun h => ⟨h.own, h.others⟩
  · rintro ⟨hown, hothers⟩
    rw [← hdept] at hown
    refine ⟨by rwa [← hdept], hothers, fun n hn => ?_⟩
    exact send_true hpost hown hlegible ⟨rfl, rfl⟩ hn

end Ack

/-! ### Two clients with one queue each -/

/-- The msgids of a server, and of two clients that have activated theirs. -/
def sampleHistory : List MsgInfo.MsgOp :=
  [.assign 5 true true, .assign 7 false true, .assign 8 false true]

def sampleMsgid (offset : Nat) : Nat := MsgInfo.sampleMsgs.baseMsgid + offset

def sampleMq (isChmpxType : Bool) (msgid : Nat) : MqObj :=
  { MqObj.sampleClientMq with
    isChmpxType := isChmpxType
    baseMsgid := MsgInfo.sampleMsgs.baseMsgid
    recvIdfd := AList.singleton msgid 5
    recvFdid := AList.singleton 5 msgid }

/-- The msgid of the second client is in front of that of the first one. -/
def sampleNode : ServerNode Bool where
  selfchmpxid := 1
  msgs := MsgInfo.sampleMsgs.run sampleHistory
  clients i := ⟨sampleMq false (sampleMsgid (if i then 2 else 1)), false, 9⟩
  chmpx := sampleMq true (sampleMsgid 0)
  history := ⟨_, _, _, _, sampleHistory, MsgInfo.sampleMsgs_eq, by decide, rfl⟩
  isClient _ := ⟨rfl, rfl⟩
  base _ := show MsgInfo.sampleMsgs.baseMsgid = (MsgInfo.sampleMsgs.run sampleHistory).baseMsgid by
    decide +kernel
  chmpxBase := by decide +kernel

def sampleHead : ComHead where
  version := comVersion1
  type := .c2c
  c2ctype := comC2cNormal
  deptIds := ⟨1, sampleMsgid 2⟩
  termIds := ⟨chmInvalidChmpxId, chmInvalidMsgId⟩
  peerDeptMsgid := sampleMsgid 2
  peerTermMsgid := sampleMsgid 0
  mqSerialNum := 9
  hash := 7
  reqtime := ⟨0, 0⟩

/-- What is posted, and the ACK. -/
def sampleEntry (isAck : Bool) : Nat :=
  ChmEventMq.composeSerialMsgid (some MsgInfo.sampleMsgs.baseMsgid) (sampleMsgid 2) 9 isAck isAck

/-- Either client's message without a msgid is answered on the queue of the second one. -/
theorem sample_answered (i : Bool) :
    sampleNode.sendHead i none chmInvalidChmpxId 7 comC2cNormal = some sampleHead ∧
    ((sampleNode.clients i).mq.post MqObj.sampleSendIO sampleHead.toMqPkt (some [1])
      MqObj.emptyK2hash).1 = some (sampleEntry false) ∧
    sampleNode.chmpx.receiveComposedMsgid 5 (.entry (sampleEntry false)) =
      (some ⟨sampleMsgid 2, 9, false, false⟩, false) ∧
    sampleNode.chmpx.successAck (fun _ _ => true) 5 ⟨sampleMsgid 2, 9, false, false⟩
      ((sampleNode.clients i).mq.post MqObj.sampleSendIO sampleHead.toMqPkt (some [1])
        MqObj.emptyK2hash).2 MqObj.sampleSendIO = some (sampleMsgid 2, sampleEntry true) := by
  cases i
  · refine ⟨by decide +kernel, by decide +kernel, by decide +kernel, by decide +kernel⟩
  · refine ⟨by decide +kernel, by decide +kernel, by decide +kernel, by decide +kernel⟩

theorem reads_singleton {mq : MqObj} {msgid msgid' : Nat}
    (h : mq.recvFdid = AList.singleton 5 msgid) (hreads : mq.Reads msgid') : msgid = msgid' := by
  obtain ⟨mqfd, -, hlookup⟩ := hreads
  rw [h] at hlookup
  have hentry := List.mem_singleton.mp (AList.mem_lookup_iff.mp hlookup)
  cases hentry
  rfl

theorem ackSeen_iff_sample :
    sampleNode.AckSeen true (sampleMsgid 2) (sampleEntry true) fun polls =>
      ((sampleNode.clients true).mq.send MqObj.sampleSendIO (fun _ _ => true) polls
        sampleHead.toMqPkt (some [1]) MqObj.emptyK2hash).1 := by
  obtain ⟨hbuilt, hpost, hreceive, hack⟩ := sample_answered true
  have hown : (sampleNode.clients true).mq.Opened (sampleNode.msgs.inTurn false) :=
    ⟨5, by decide +kernel⟩
  refine (ackSeen_iff hbuilt hpost hreceive hack).mpr ⟨hown, fun j hj hreads => ?_⟩
  cases j with
  | true => exact hj rfl
  | false =>
    have he := reads_singleton rfl hreads
    exact absurd he (by decide +kernel)

/-- The ACK for the first client's message is on the queue that the second one reads, and the
`Send` returns false. -/
theorem ackSeen_otherClient :
    sampleNode.sendHead false none chmInvalidChmpxId 7 comC2cNormal = some sampleHead ∧
    ((sampleNode.clients false).mq.post MqObj.sampleSendIO sampleHead.toMqPkt (some [1])
      MqObj.emptyK2hash).1 = some (sampleEntry false) ∧
    sampleNode.chmpx.receiveComposedMsgid 5 (.entry (sampleEntry false)) =
      (some ⟨sampleMsgid 2, 9, false, false⟩, false) ∧
    sampleNode.chmpx.successAck (fun _ _ => true) 5 ⟨sampleMsgid 2, 9, false, false⟩
      ((sampleNode.clients false).mq.post MqObj.sampleSendIO sampleHead.toMqPkt (some [1])
        MqObj.emptyK2hash).2 MqObj.sampleSendIO = some (sampleMsgid 2, sampleEntry true) ∧
    (sampleNode.clients true).mq.Reads (sampleMsgid 2) ∧
    ¬sampleNode.AckSeen false (sampleMsgid 2) (sampleEntry true) fun polls =>
      ((sampleNode.clients false).mq.send MqObj.sampleSendIO (fun _ _ => true) polls
        sampleHead.toMqPkt (some [1]) MqObj.emptyK2hash).1 := by
  obtain ⟨hbuilt, hpost, hreceive, hack⟩ := sample_answered false
  refine ⟨hbuilt, hpost, hreceive, hack, ⟨5, by decide +kernel⟩, fun h => ?_⟩
  have hreturns := h.returns 0 (by decide)
  revert hreturns
  decide +kernel

end ServerNode
end Chm
