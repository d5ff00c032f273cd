/-
Sending and receiving through the message queues.

A message is two entries of K2hash, its head and its body, under a key of three numbers;
what goes through the queue is the composed msgid.  `Send` writes the entries and posts the
composed msgid; whoever takes it off the queue reads the entries and removes them.  K2hash
is a map, and what else the system answers is a parameter.
-/
import Chm.QueueMaps
import Chm.Serial

namespace Chm

/-! ## Messages -/

/-- `comtype_t`; `other` are the types that do not go through a message queue. -/
inductive ComType
  | c2c
  | c2px
  | px2c
  | other
  deriving DecidableEq, Repr

/-- `sizeof(COMPKT)`. -/
def sizeofComPkt : Nat := 120

/-- `COMPKT`, with the members that the queues look at. -/
structure MqPkt where
  type : ComType
  peerDeptMsgid : Nat
  peerTermMsgid : Nat
  mqSerialNum : Nat
  length : Nat
  offset : Nat
  deriving DecidableEq, Repr

/-- A key without its suffix: three numbers in sixteen digits each. -/
structure MqKey where
  deptMsgid : Nat
  termMsgid : Nat
  serial : Nat
  deriving DecidableEq, Repr

/-- The elements of K2hash under the keys of heads, and under those of bodies. -/
structure K2hash where
  heads : MqKey → Option MqPkt
  bodies : MqKey → Option (List Nat)

namespace K2hash

def setHead (k : K2hash) (key : MqKey) (pkt : Option MqPkt) : K2hash :=
  { k with heads := Function.update k.heads key pkt }

def setBody (k : K2hash) (key : MqKey) (body : Option (List Nat)) : K2hash :=
  { k with bodies := Function.update k.bodies key body }

/-- Two contents that differ under one key at most. -/
structure AgreeElse (key : MqKey) (k k' : K2hash) : Prop where
  heads : ∀ key', key' ≠ key → k'.heads key' = k.heads key'
  bodies : ∀ key', key' ≠ key → k'.bodies key' = k.bodies key'

variable {key : MqKey} {k k' k'' : K2hash}

theorem AgreeElse.refl (key : MqKey) (k : K2hash) : AgreeElse key k k :=
  ⟨fun _ _ => rfl, fun _ _ => rfl⟩

theorem AgreeElse.trans (h : AgreeElse key k k') (h' : AgreeElse key k' k'') :
    AgreeElse key k k'' where
  heads key' hne := (h'.heads key' hne).trans (h.heads key' hne)
  bodies key' hne := (h'.bodies key' hne).trans (h.bodies key' hne)

theorem agreeElse_setHead (k : K2hash) (key : MqKey) (pkt : Option MqPkt) :
    AgreeElse key k (k.setHead key pkt) :=
  ⟨fun _ hne => Function.update_of_ne hne .., fun _ _ => rfl⟩

theorem agreeElse_setBody (k : K2hash) (key : MqKey) (body : Option (List Nat)) :
    AgreeElse key k (k.setBody key body) :=
  ⟨fun _ _ => rfl, fun _ hne => Function.update_of_ne hne ..⟩

@[simp] theorem heads_setHead (k : K2hash) (key : MqKey) (pkt : Option MqPkt) :
    (k.setHead key pkt).heads key = pkt := Function.update_self ..

@[simp] theorem bodies_setHead (k : K2hash) (key : MqKey) (pkt : Option MqPkt) :
    (k.setHead key pkt).bodies = k.bodies := rfl

@[simp] theorem bodies_setBody (k : K2hash) (key : MqKey) (body : Option (List Nat)) :
    (k.setBody key body).bodies key = body := Function.update_self ..

@[simp] theorem heads_setBody (k : K2hash) (key : MqKey) (body : Option (List Nat)) :
    (k.setBody key body).heads = k.heads := rfl

end K2hash

/-- `MakeK2hashKey`. -/
def makeK2hashKey (deptMsgid termMsgid serial : Nat) : Option MqKey :=
  if deptMsgid = chmInvalidMsgId ∨ termMsgid = chmInvalidMsgId then none
  else some ⟨deptMsgid, termMsgid, serial⟩

namespace MqPkt

/-- The key of a message by the ids of its head. -/
def key (pkt : MqPkt) : MqKey := ⟨pkt.peerDeptMsgid, pkt.peerTermMsgid, pkt.mqSerialNum⟩

def makeKey (pkt : MqPkt) : Option MqKey :=
  makeK2hashKey pkt.peerDeptMsgid pkt.peerTermMsgid pkt.mqSerialNum

theorem makeKey_eq {pkt : MqPkt} {key : MqKey} (h : pkt.makeKey = some key) : key = pkt.key := by
  rw [makeKey, makeK2hashKey] at h
  split at h
  · cases h
  · exact (Option.some.inj h).symm

end MqPkt

/-- What `mq_send` answers. -/
inductive MqSendResult
  | sent
  | again
  | error
  deriving DecidableEq, Repr

/-- What one `mq_receive` answers: nothing is there, an error, or a composed msgid. -/
inductive MqPoll
  | again
  | error
  | entry (msgid : Nat)
  deriving DecidableEq, Repr

/-- The answers that a `Send` gets: of the two `Set` of K2hash, of `OpenDestMQ`, and of
`mq_send` by the count of tries. -/
structure SendIO where
  setHead : Bool
  setBody : Bool
  openDestMq : Bool
  mqSend : Nat → MqSendResult

/-- The members of `ChmEventMq` that sending and receiving read. -/
structure MqObj where
  isEmpty : Bool
  isChmpxType : Bool
  baseMsgid : Nat
  useMqAck : Bool
  retryCount : Int
  recvIdfd : LockMap Nat Int
  recvFdid : LockMap Int Nat

namespace MqObj

variable (mq : MqObj)

/-- The base of the msgids, while the object is not empty. -/
def base : Option Nat := if mq.isEmpty then none else some mq.baseMsgid

variable {mq} in
theorem base_of_notEmpty (h : mq.isEmpty = false) : mq.base = some mq.baseMsgid := by
  rw [base, h]
  rfl

/-! ## Send -/

/-- There is a body to write. -/
def hasBody : Option (List Nat) → Bool
  | none => false
  | some body => body ≠ []

/-- The checks of `Send` before it writes. -/
def sendable (pkt : MqPkt) (body : Option (List Nat)) : Bool :=
  (match pkt.type with
    | .c2c => pkt.length = sizeofComPkt && pkt.offset = sizeofComPkt
    | .c2px | .px2c => sizeofComPkt ≤ pkt.length && pkt.offset = sizeofComPkt && body.isNone
    | .other => false) &&
    !mq.isEmpty && pkt.makeKey.isSome

/-- Both keys are removed, the second where a body was to be written. -/
def removeKeys (key : MqKey) (body : Option (List Nat)) (k : K2hash) : K2hash :=
  let k := k.setHead key none
  if hasBody body then k.setBody key none else k

/-- The loop of `mq_send`: whether the composed msgid was sent. -/
def mqSendLoop (mqSend : Nat → MqSendResult) : Nat → Nat → Bool
  | 0, _ => false
  | rest + 1, cnt =>
    match mqSend cnt with
    | .sent => true
    | .error => false
    | .again => mqSendLoop mqSend rest (cnt + 1)

/-- `Send` up to `mq_send`: the composed msgid that was posted, and K2hash. -/
def post (io : SendIO) (pkt : MqPkt) (body : Option (List Nat)) (k : K2hash) :
    Option Nat × K2hash :=
  if !mq.sendable pkt body then (none, k)
  else
    let composed := ChmEventMq.composeSerialMsgid mq.base pkt.peerDeptMsgid pkt.mqSerialNum
      false false
    match pkt.makeKey with
    | none => (none, k)
    | some key =>
      if !io.setHead then (none, removeKeys key body k)
      else
        let k := k.setHead key (some pkt)
        if hasBody body && !io.setBody then (none, removeKeys key body k)
        else
          let k := if hasBody body then k.setBody key body else k
          if !io.openDestMq then (none, removeKeys key body k)
          else if mqSendLoop io.mqSend mq.retryCount.toNat 0 then (some composed, k)
          else (none, removeKeys key body k)

/-! ## Receive -/

/-- `IsEventQueueFd`. -/
def isEventQueueFd (mqfd : Int) : Bool :=
  mqfd ≠ chmInvalidHandle && !mq.isEmpty && decide (mqfd ∈ mq.recvFdid)

variable {mq} in
theorem isEventQueueFd_of_lookup {mqfd : Int} (hempty : mq.isEmpty = false)
    (hvalid : mqfd ≠ chmInvalidHandle) (hfd : mq.recvFdid.lookup mqfd = some msgid) :
    mq.isEventQueueFd mqfd = true := by
  have hmem : mqfd ∈ mq.recvFdid := AList.lookup_isSome.mp (Option.isSome_of_eq_some hfd)
  rw [isEventQueueFd, hempty]
  simp [hvalid, hmem]

/-- `ReceiveComposedMsgid`; `true` beside nothing says that it is worth to wait. -/
def receiveComposedMsgid (mqfd : Int) (poll : MqPoll) : Option ComposedMsgid × Bool :=
  if !mq.isEventQueueFd mqfd then (none, false)
  else
    match poll with
    | .again => (none, true)
    | .error => (none, false)
    | .entry msgid => (ChmEventMq.decomposeSerialMsgid mq.base msgid, false)

/-- The length and offset that a type of message has. -/
def headValid (pkt : MqPkt) : Bool :=
  match pkt.type with
  | .c2c => pkt.length = sizeofComPkt && pkt.offset = sizeofComPkt
  | .c2px | .px2c => sizeofComPkt ≤ pkt.length && pkt.offset = sizeofComPkt
  | .other => false

/-- `ReceiveHead`. -/
def receiveHead (mqfd : Int) (composed : ComposedMsgid) (k : K2hash) : Option MqPkt × K2hash :=
  if composed.msgid = chmInvalidMsgId ∨ mq.isEmpty then (none, k)
  else
    let pterm := (mq.recvFdid.lookup mqfd).getD chmInvalidMsgId
    match makeK2hashKey composed.msgid pterm composed.number with
    | none => (none, k)
    | some key =>
      match k.heads key with
      | none => (none, k)
      | some pkt => (if headValid pkt then some pkt else none, k.setHead key none)

/-- `RemoveReceivedBody`. -/
def removeReceivedBody (pkt : MqPkt) (k : K2hash) : K2hash :=
  if pkt.type ≠ .c2c ∨ mq.isEmpty then k
  else
    match pkt.makeKey with
    | none => k
    | some key => k.setBody key none

/-- `ReceiveBody`: its result, the body, and K2hash. -/
def receiveBody (pkt : MqPkt) (isRemoveBody : Bool) (k : K2hash) :
    Bool × Option (List Nat) × K2hash :=
  if mq.isEmpty then (false, none, k)
  else if pkt.type ≠ .c2c then (true, none, k)
  else
    match pkt.makeKey with
    | none => (false, none, k)
    | some key =>
      match k.bodies key with
      | none => (false, none, k)
      | some body => (true, some body, if isRemoveBody then mq.removeReceivedBody pkt k else k)

/-- `ReceiveBody` that puts the body behind the head. -/
def receivePkt (pkt : MqPkt) (isRemoveBody : Bool) (k : K2hash) :
    Option (MqPkt × List Nat) × K2hash :=
  if mq.isEmpty then (none, k)
  else
    match mq.receiveBody pkt isRemoveBody k with
    | (false, _, k) => (some ({ pkt with length := sizeofComPkt, offset := sizeofComPkt }, []), k)
    | (true, none, k) => (some (pkt, []), k)
    | (true, some body, k) =>
      if body = [] then (some (pkt, []), k)
      else
        (some ({ pkt with length := sizeofComPkt + body.length, offset := sizeofComPkt }, body), k)

/-- `RawReceive`: its result, the ACK that it sends, and K2hash.  `processing` is what
`ChmCntrl::Processing` returns for the message; what it sends goes under keys of its own. -/
def rawReceive (processing : MqPkt → List Nat → Bool) (mqfd : Int) (composed : ComposedMsgid)
    (k : K2hash) : Bool × Option Bool × K2hash :=
  if mqfd = chmInvalidHandle ∨ composed.msgid = chmInvalidMsgId then (false, none, k)
  else
    match mq.receiveHead mqfd composed k with
    | (none, k) => (false, none, k)
    | (some pkt, k) =>
      match mq.receivePkt pkt true k with
      | (none, k) => (false, none, k)
      | (some (pkt, body), k) =>
        let isNeedAck := pkt.type = .c2c && mq.useMqAck && mq.isChmpxType
        let result := processing pkt body
        (result, if isNeedAck then some result else none, k)

/-- What one turn of the loop of `ReceiveAck` comes to. -/
inductive AckTurn
  | finished (result : Bool)
  | wait
  | request (composed : ComposedMsgid)

def ackTurn (mqfd : Int) (poll : MqPoll) : AckTurn :=
  match mq.receiveComposedMsgid mqfd poll with
  | (none, canContinueWait) => if canContinueWait then .wait else .finished false
  | (some composed, _) =>
    if composed.isAck then .finished composed.isAckSuccess else .request composed

/-- The count after a request, which does not count except as the first. -/
def cntAfterRequest (cnt : Nat) : Nat := if 0 < cnt then cnt else cnt + 1

/-- The loop of `ReceiveAck` over what the polls see; after them the queue stays empty. -/
def receiveAckLoop (processing : MqPkt → List Nat → Bool) (mqfd : Int) :
    List MqPoll → Nat → K2hash → Bool × K2hash
  | [], _, k => (false, k)
  | poll :: polls, cnt, k =>
    if mq.retryCount ≤ cnt then (false, k)
    else
      match mq.ackTurn mqfd poll with
      | .finished result => (result, k)
      | .wait => receiveAckLoop processing mqfd polls (cnt + 1) k
      | .request composed =>
        receiveAckLoop processing mqfd polls (cntAfterRequest cnt)
          (mq.rawReceive processing mqfd composed k).2.2

/-- `ReceiveAck`. -/
def receiveAck (processing : MqPkt → List Nat → Bool) (polls : List MqPoll) (msgid : Nat)
    (k : K2hash) : Bool × K2hash :=
  if msgid = chmInvalidMsgId then (false, k)
  else
    match mq.recvIdfd.lookup msgid with
    | none => (false, k)
    | some mqfd =>
      if mqfd = chmInvalidHandle then (false, k)
      else mq.receiveAckLoop processing mqfd polls 0 k

/-- A `Send` waits for an ACK. -/
def waitsAck (pkt : MqPkt) : Bool := pkt.type = .c2c && mq.useMqAck && !mq.isChmpxType

/-- `Send`. -/
def send (io : SendIO) (processing : MqPkt → List Nat → Bool) (polls : List MqPoll)
    (pkt : MqPkt) (body : Option (List Nat)) (k : K2hash) : Bool × K2hash :=
  match mq.post io pkt body k with
  | (none, k) => (false, k)
  | (some _, k) =>
    if mq.waitsAck pkt then mq.receiveAck processing polls pkt.peerDeptMsgid k else (true, k)

end MqObj
end Chm
