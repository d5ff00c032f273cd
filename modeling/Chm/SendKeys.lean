/-
The keys of a message: who writes them and who removes them.

A `Send` that does not post its msgid leaves no key of its message; one that does leaves
them to whoever takes the msgid off the queue, also when it returns false because no ACK
came.
-/
import Chm.MqSend

namespace Chm

namespace MqObj

open K2hash

variable {mq : MqObj} {io : SendIO} {pkt : MqPkt} {body : Option (List Nat)} {k k' : K2hash}
  {key : MqKey} {mqfd : Int} {composed : ComposedMsgid} {msgid : Nat}

/-! ## Send -/

theorem heads_removeKeys (key : MqKey) (body : Option (List Nat)) (k : K2hash) :
    (removeKeys key body k).heads key = none := by
  rw [removeKeys]
  split
  · rw [heads_setBody, heads_setHead]
  · rw [heads_setHead]

theorem bodies_removeKeys (hbody : hasBody body = true) (key : MqKey) (k : K2hash) :
    (removeKeys key body k).bodies key = none := by
  rw [removeKeys]
  rw [if_pos hbody, bodies_setBody]

theorem agreeElse_removeKeys (key : MqKey) (body : Option (List Nat)) (k : K2hash) :
    AgreeElse key k (removeKeys key body k) := by
  rw [removeKeys]
  split
  · exact (agreeElse_setHead ..).trans (agreeElse_setBody ..)
  · exact agreeElse_setHead ..

/-- What a message leaves under its key when it is removed. -/
structure Removed (key : MqKey) (body : Option (List Nat)) (k k' : K2hash) : Prop where
  head : k'.heads key = none
  body : hasBody body = true → k'.bodies key = none
  others : AgreeElse key k k'

/-- What it leaves when it is written. -/
structure Wrote (key : MqKey) (pkt : MqPkt) (body : Option (List Nat)) (k k' : K2hash) : Prop where
  head : k'.heads key = some pkt
  body : k'.bodies key = if hasBody body then body else k.bodies key
  others : AgreeElse key k k'

theorem removed_removeKeys (key : MqKey) (body : Option (List Nat)) (h : AgreeElse key k k') :
    Removed key body k (removeKeys key body k') where
  head := heads_removeKeys key body k'
  body hbody := bodies_removeKeys hbody key k'
  others := h.trans (agreeElse_removeKeys ..)

/-- What is in K2hash when `mq_send` is reached. -/
theorem wrote_set (key : MqKey) (pkt : MqPkt) (body : Option (List Nat)) (k : K2hash) :
    Wrote key pkt body k
      (if hasBody body then (k.setHead key (some pkt)).setBody key body
        else k.setHead key (some pkt)) := by
  by_cases hbody : hasBody body = true
  · rw [if_pos hbody]
    refine ⟨by simp, ?_, (agreeElse_setHead ..).trans (agreeElse_setBody ..)⟩
    rw [if_pos hbody, bodies_setBody]
  · rw [if_neg hbody]
    refine ⟨by simp, ?_, agreeElse_setHead ..⟩
    rw [if_neg hbody, bodies_setHead]

theorem key_of_sendable (h : mq.sendable pkt body = true) :
    pkt.makeKey = some pkt.key ∧ mq.isEmpty = false := by
  rw [sendable, Bool.and_eq_true, Bool.and_eq_true] at h
  obtain ⟨⟨-, hempty⟩, hkey⟩ := h
  obtain ⟨key, hk⟩ := Option.isSome_iff_exists.mp hkey
  rw [hk, MqPkt.makeKey_eq hk]
  exact ⟨rfl, by simpa using hempty⟩

/-- A `Send` writes nothing, removes what it has written, or posts its composed msgid with
all that it has to write in place. -/
theorem post_cases (mq : MqObj) (io : SendIO) (pkt : MqPkt) (body : Option (List Nat))
    (k : K2hash) :
    mq.sendable pkt body = false ∧ mq.post io pkt body k = (none, k) ∨
      mq.sendable pkt body = true ∧
        ((mq.post io pkt body k).1 = none ∧ Removed pkt.key body k (mq.post io pkt body k).2 ∨
          (mq.post io pkt body k).1 = some (ChmEventMq.composeSerialMsgid (some mq.baseMsgid)
              pkt.peerDeptMsgid pkt.mqSerialNum false false) ∧
            Wrote pkt.key pkt body k (mq.post io pkt body k).2) := by
  cases hs : mq.sendable pkt body with
  | false =>
    rw [post, hs]
    exact Or.inl ⟨rfl, rfl⟩
  | true =>
    obtain ⟨hkey, hempty⟩ := key_of_sendable hs
    have hset := agreeElse_setHead k pkt.key (some pkt)
    have hwrote := wrote_set pkt.key pkt body k
    refine Or.inr ⟨rfl, ?_⟩
    rw [post, hs, hkey, base_of_notEmpty hempty]
    dsimp only
    rw [if_neg (by decide)]
    split
    · exact Or.inl ⟨rfl, removed_removeKeys _ _ (AgreeElse.refl ..)⟩
    · split
      · exact Or.inl ⟨rfl, removed_removeKeys _ _ hset⟩
      · split
        · exact Or.inl ⟨rfl, removed_removeKeys _ _ hwrote.others⟩
        · split
          · exact Or.inr ⟨rfl, hwrote⟩
          · exact Or.inl ⟨rfl, removed_removeKeys _ _ hwrote.others⟩

/-! ## Receive -/

/-- A composed msgid that is taken off the queue of the message. -/
structure Takes (mq : MqObj) (mqfd : Int) (composed : ComposedMsgid) (pkt : MqPkt) : Prop where
  notEmpty : mq.isEmpty = false
  dept : composed.msgid = pkt.peerDeptMsgid
  number : composed.number = pkt.mqSerialNum
  term : mq.recvFdid.lookup mqfd = some pkt.peerTermMsgid

theorem receiveHead_takes (h : mq.Takes mqfd composed pkt) (hkey : pkt.makeKey = some pkt.key)
    (hhead : k.heads pkt.key = some pkt) (hvalid : headValid pkt = true) :
    mq.receiveHead mqfd composed k = (some pkt, k.setHead pkt.key none) := by
  have hid : pkt.peerDeptMsgid ≠ chmInvalidMsgId := by
    intro he
    rw [MqPkt.makeKey, makeK2hashKey, if_pos (Or.inl he)] at hkey
    cases hkey
  have hcond : ¬ (composed.msgid = chmInvalidMsgId ∨ mq.isEmpty = true) := by
    rw [h.notEmpty, h.dept]
    simp [hid]
  have hkey' : makeK2hashKey composed.msgid pkt.peerTermMsgid composed.number = some pkt.key := by
    rw [h.dept, h.number]
    exact hkey
  rw [receiveHead, if_neg hcond, h.term]
  dsimp only
  rw [Option.getD_some, hkey']
  dsimp only
  rw [hhead]
  dsimp only
  rw [if_pos hvalid]

theorem receiveBody_notC2c (hempty : mq.isEmpty = false) (hc2c : pkt.type ≠ .c2c) :
    mq.receiveBody pkt true k = (true, none, k) := by
  rw [receiveBody, hempty, if_neg (by decide), if_pos hc2c]

/-- K2hash is what `ReceiveBody` leaves, however the message is put together. -/
theorem receivePkt_k2hash (hempty : mq.isEmpty = false) :
    (mq.receivePkt pkt true k).1.isSome = true ∧
      (mq.receivePkt pkt true k).2 = (mq.receiveBody pkt true k).2.2 := by
  rw [receivePkt, hempty, if_neg (by decide)]
  generalize mq.receiveBody pkt true k = r
  obtain ⟨result, b, k'⟩ := r
  cases result with
  | false => exact ⟨rfl, rfl⟩
  | true =>
    cases b with
    | none => exact ⟨rfl, rfl⟩
    | some b =>
      dsimp only
      split
      · exact ⟨rfl, rfl⟩
      · exact ⟨rfl, rfl⟩

theorem rawReceive_k2hash (h : mq.Takes mqfd composed pkt) (hkey : pkt.makeKey = some pkt.key)
    (hhead : k.heads pkt.key = some pkt) (hvalid : headValid pkt = true)
    (hmqfd : mqfd ≠ chmInvalidHandle) (processing : MqPkt → List Nat → Bool) :
    (mq.rawReceive processing mqfd composed k).2.2 =
      (mq.receiveBody pkt true (k.setHead pkt.key none)).2.2 := by
  have hid : composed.msgid ≠ chmInvalidMsgId := by
    rw [h.dept]
    intro he
    rw [MqPkt.makeKey, makeK2hashKey, if_pos (Or.inl he)] at hkey
    cases hkey
  obtain ⟨hsome, hk⟩ := receivePkt_k2hash h.notEmpty
  rw [rawReceive, if_neg (by simp [hmqfd, hid]), receiveHead_takes h hkey hhead hvalid]
  dsimp only
  rw [← hk]
  generalize mq.receivePkt pkt true (k.setHead pkt.key none) = r at hsome
  obtain ⟨o, k'⟩ := r
  cases o with
  | none => cases hsome
  | some _ => rfl

/-! ## A message from end to end -/

variable {rcv : MqObj}

theorem headValid_of_sendable (h : mq.sendable pkt body = true) : headValid pkt = true := by
  rw [sendable, Bool.and_eq_true, Bool.and_eq_true] at h
  have htype := h.1.1
  rw [headValid]
  cases hty : pkt.type with
  | c2c =>
    rw [hty] at htype
    exact htype
  | c2px =>
    rw [hty] at htype
    exact (Bool.and_eq_true_iff.mp htype).1
  | px2c =>
    rw [hty] at htype
    exact (Bool.and_eq_true_iff.mp htype).1
  | other =>
    rw [hty] at htype
    exact htype

/-- Only a `COM_C2C` message has a body. -/
theorem c2c_of_hasBody (h : mq.sendable pkt body = true) (hbody : hasBody body = true) :
    pkt.type = .c2c := by
  rw [sendable, Bool.and_eq_true, Bool.and_eq_true] at h
  have htype := h.1.1
  have hsome : body.isNone = false := by
    cases body with
    | none => cases hbody
    | some _ => rfl
  cases hty : pkt.type with
  | c2c => rfl
  | c2px =>
    rw [hty, hsome, Bool.and_false] at htype
    cases htype
  | px2c =>
    rw [hty, hsome, Bool.and_false] at htype
    cases htype
  | other =>
    rw [hty] at htype
    cases htype

/-- A client, with the queue of its msgid open. -/
def sampleClientMq : MqObj where
  isEmpty := false
  isChmpxType := false
  baseMsgid := 2 ^ 32
  useMqAck := true
  retryCount := 3
  recvIdfd := AList.singleton (2 ^ 32 + 1) 5
  recvFdid := AList.singleton 5 (2 ^ 32 + 1)

/-- The chmpx process of the node. -/
def sampleChmpxMq : MqObj :=
  { sampleClientMq with
    isChmpxType := true
    recvIdfd := AList.singleton (2 ^ 32) 7
    recvFdid := AList.singleton 7 (2 ^ 32) }

def sampleMqPkt (serial : Nat) : MqPkt := ⟨.c2c, 2 ^ 32 + 1, 2 ^ 32, serial, 120, 120⟩

def sampleSendIO : SendIO := ⟨true, true, true, fun cnt => if cnt = 0 then .again else .sent⟩

def emptyK2hash : K2hash := ⟨fun _ => none, fun _ => none⟩

end MqObj
end Chm
