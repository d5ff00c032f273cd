/-
The queue of a client between `Receive` and a `Send` that waits for its ACK.

Both take what comes first.  `Receive` hands a COM_C2C message to its caller; a waiting
`Send` gives it to `ChmCntrl::Processing`, which looks for the event object of the sockets,
and a client has none.
-/
import Chm.AckNet

namespace Chm

/-- `ChmCntrl::Processing` of a message from a queue, over the event objects that there are:
what has none is done. -/
def ChmCntrl.processing (evsock evmq : Option (MqPkt → List Nat → Bool))
    (isJoinNotify : MqPkt → Bool) (pkt : MqPkt) (body : List Nat) : Bool :=
  let processObj :=
    match pkt.type with
    | .c2c => evsock
    | .c2px | .px2c => if isJoinNotify pkt then evsock else evmq
    | .other => none
  match processObj with
  | none => true
  | some processing => processing pkt body

/-- A client with the queue of a msgid open, and the chmpx process beside it. -/
structure ClientMq where
  mq : MqObj
  chmpx : MqObj
  msgid : Nat
  mqfd : Int
  evmq : MqPkt → List Nat → Bool
  isJoinNotify : MqPkt → Bool

/-- The queue, K2hash, and the counts of the waiting `Send`s. -/
structure ClientQueue where
  k2hash : K2hash
  queue : List Nat
  waits : List Nat
  /-- The COM_C2C messages that were put on the queue. -/
  put : List (MqPkt × List Nat)
  /-- What callers of `Receive` got. -/
  handed : List (MqPkt × List Nat)

/-- `deliver` and `ack` are the chmpx process's.  `poll` is a turn of a waiting `Send`,
`receive` one of a `Receive`, that puts the body behind the head or not.  `elsewhere` is what
happens to K2hash for other queues. -/
inductive ClientOp
  | deliver (io : SendIO) (pkt : MqPkt) (body : Option (List Nat))
  | ack (serial : Nat) (success : Bool)
  | send (io : SendIO) (pkt : MqPkt) (body : Option (List Nat))
  | poll (i : Nat)
  | receive (behind : Bool)
  | elsewhere (k2hash : K2hash)

/-- A message without the body behind its head. -/
def MqPkt.bare (pkt : MqPkt) : MqPkt := { pkt with length := sizeofComPkt, offset := sizeofComPkt }

/-- The COM_C2C message under a key. -/
def K2hash.message (k : K2hash) (key : MqKey) : Option (MqPkt × List Nat) :=
  match k.heads key with
  | none => none
  | some pkt => if pkt.type = .c2c then (k.bodies key).map (pkt, ·) else none

namespace ClientQueue

variable (c : ClientMq)

def processing : MqPkt → List Nat → Bool :=
  ChmCntrl.processing none (some c.evmq) c.isJoinNotify

def pop (s : ClientQueue) : ClientQueue :=
  if c.mq.isEventQueueFd c.mqfd then { s with queue := s.queue.tail } else s

def deliver (io : SendIO) (pkt : MqPkt) (body : Option (List Nat)) (s : ClientQueue) :
    ClientQueue :=
  match c.chmpx.post io pkt body s.k2hash with
  | (none, k) => { s with k2hash := k }
  | (some composed, k) =>
    { s with
      k2hash := k
      queue := s.queue ++ [composed]
      put := if MqObj.hasBody body then (pkt, body.getD []) :: s.put else s.put }

/-- `SendAck` for a message of this msgid. -/
def ack (serial : Nat) (success : Bool) (s : ClientQueue) : ClientQueue :=
  { s with queue := s.queue ++ [AckNet.compose c.mq c.msgid serial true success] }

/-- `Send` up to where it waits. -/
def send (io : SendIO) (pkt : MqPkt) (body : Option (List Nat)) (s : ClientQueue) :
    ClientQueue :=
  match c.mq.post io pkt body s.k2hash with
  | (none, k) => { s with k2hash := k }
  | (some _, k) =>
    { s with k2hash := k, waits := if c.mq.waitsAck pkt then 0 :: s.waits else s.waits }

/-- A turn of `ReceiveAck`. -/
def poll (i : Nat) (s : ClientQueue) : ClientQueue :=
  match s.waits[i]? with
  | none => s
  | some cnt =>
    if c.mq.retryCount ≤ cnt then { s with waits := s.waits.eraseIdx i }
    else
      let turn := c.mq.ackTurn c.mqfd (AckNet.pollOf s.queue)
      let s := s.pop c
      match turn with
      | .finished _ => { s with waits := s.waits.eraseIdx i }
      | .wait => { s with waits := s.waits.set i (cnt + 1) }
      | .request composed =>
        { s with
          waits := s.waits.set i (MqObj.cntAfterRequest cnt)
          k2hash := (c.mq.rawReceive (processing c) c.mqfd composed s.k2hash).2.2 }

/-- A turn of `ChmCntrl::Receive`: `CheckProcessing` keeps all that is not COM_C2C. -/
def receive (behind : Bool) (s : ClientQueue) : ClientQueue :=
  let got := c.mq.receiveComposedMsgid c.mqfd (AckNet.pollOf s.queue)
  let s := s.pop c
  match got with
  | (none, _) => s
  | (some composed, _) =>
    match c.mq.receiveHead c.mqfd composed s.k2hash with
    | (none, k) => { s with k2hash := k }
    | (some pkt, k) =>
      if pkt.type ≠ .c2c then { s with k2hash := k }
      else if behind then
        match c.mq.receivePkt pkt true k with
        | (none, k) => { s with k2hash := k }
        | (some m, k) => { s with k2hash := k, handed := m :: s.handed }
      else
        match c.mq.receiveBody pkt true k with
        | (false, _, k) => { s with k2hash := k }
        | (true, body, k) => { s with k2hash := k, handed := (pkt, body.getD []) :: s.handed }

def exec (s : ClientQueue) : ClientOp → ClientQueue
  | .deliver io pkt body => s.deliver c io pkt body
  | .ack serial success => s.ack c serial success
  | .send io pkt body => s.send c io pkt body
  | .poll i => s.poll c i
  | .receive behind => s.receive c behind
  | .elsewhere k2hash => { s with k2hash := k2hash }

def run (s : ClientQueue) (ops : List ClientOp) : ClientQueue := ops.foldl (exec c) s

/-- Nothing is on the queue and nobody waits. -/
def start (k : K2hash) : ClientQueue := ⟨k, [], [], [], []⟩

/-! ## What the queue holds -/

/-- The key of the message that an entry of the queue stands for. -/
def keyOf (composed : Nat) : Option MqKey :=
  match AckNet.decompose c.mq composed with
  | none => none
  | some x => if x.isAck then none else some ⟨x.msgid, c.msgid, x.number⟩

def keys (s : ClientQueue) : List MqKey := s.queue.filterMap (keyOf c)

/-- The COM_C2C messages on the queue, with head and body in K2hash. -/
def queued (s : ClientQueue) : List (MqPkt × List Nat) := (s.keys c).filterMap s.k2hash.message

def front (s : ClientQueue) : Option (MqPkt × List Nat) :=
  (s.queue.head?.bind (keyOf c)).bind s.k2hash.message

/-- The messages that were handed out, as they were put on the queue. -/
def taken (s : ClientQueue) : List (MqPkt × List Nat) := s.handed.map fun m => (m.1.bare, m.2)

/-- Each message that was put on the queue is there, or was handed to one `Receive`. -/
def PutKept (s : ClientQueue) : Prop := s.put.Perm (s.queued c ++ s.taken)

/-! ## Runs in which no request meets a waiting Send -/

/-- The client has the queue open, and the chmpx process is of the same area. -/
structure Opens : Prop where
  notEmpty : c.mq.isEmpty = false
  fits : c.mq.baseMsgid + maxMqueueCount.toNat ≤ chmInvalidMsgId
  own : AckNet.InRange c.mq c.msgid 0
  term : c.mq.recvFdid.lookup c.mqfd = some c.msgid
  valid : c.mqfd ≠ chmInvalidHandle
  base : c.chmpx.baseMsgid = c.mq.baseMsgid

/-- A message from a msgid of the chmpx process to this one; COM_C2C messages have a body. -/
structure ToClient (pkt : MqPkt) (body : Option (List Nat)) : Prop where
  range : AckNet.InRange c.mq pkt.peerDeptMsgid pkt.mqSerialNum
  dept : pkt.peerDeptMsgid ≠ c.msgid
  term : pkt.peerTermMsgid = c.msgid
  body : pkt.type = .c2c → MqObj.hasBody body = true

/-- A waiting `Send` that still takes from the queue does not find a COM_C2C message at its
front, and a message is delivered under a key that no other on the queue has. -/
def StepUncrossed (s : ClientQueue) : ClientOp → Prop
  | .deliver _ pkt body => ToClient c pkt body ∧ s.k2hash.heads pkt.key = none
  | .ack serial _ => serial ≤ maxMqSerialNumber
  | .send _ pkt _ => pkt.peerTermMsgid ≠ c.msgid
  | .poll i => (s.waits[i]?.any fun cnt => cnt < c.mq.retryCount) = true → s.front c = none
  | .receive _ => True
  | .elsewhere k => ∀ key, key.termMsgid = c.msgid →
      k.heads key = s.k2hash.heads key ∧ k.bodies key = s.k2hash.bodies key

def RunUncrossed (s : ClientQueue) : List ClientOp → Prop
  | [] => True
  | op :: ops => StepUncrossed c s op ∧ RunUncrossed (s.exec c op) ops

/-! ## The invariant -/

variable {c} {s s' : ClientQueue} {pkt : MqPkt} {body : Option (List Nat)} {key : MqKey}
  {k k' : K2hash} {composed : Nat} {x : ComposedMsgid} {io : SendIO}

/-- Two contents have the same under a key. -/
def SameAt (k k' : K2hash) (key : MqKey) : Prop :=
  k'.heads key = k.heads key ∧ k'.bodies key = k.bodies key

theorem sameAt_of_agreeElse (h : K2hash.AgreeElse pkt.key k k') (hne : key ≠ pkt.key) :
    SameAt k k' key :=
  ⟨h.heads key hne, h.bodies key hne⟩

theorem message_congr (h : SameAt k k' key) : k'.message key = k.message key := by
  rw [K2hash.message, K2hash.message, h.1, h.2]

/-- What is under the key of a message on the queue. -/
def Stored (k : K2hash) (key : MqKey) : Prop :=
  ∃ pkt, k.heads key = some pkt ∧ pkt.key = key ∧ MqObj.headValid pkt = true ∧
    (pkt.type = .c2c → ∃ body, k.bodies key = some body)

theorem Stored.congr (hs : Stored k key) (h : SameAt k k' key) : Stored k' key := by
  obtain ⟨pkt, hhead, hkey, hvalid, hbody⟩ := hs
  refine ⟨pkt, ?_, hkey, hvalid, fun hc2c => ?_⟩
  · rw [h.1]
    exact hhead
  · rw [h.2]
    exact hbody hc2c

/-- An entry of the queue is the ACK of a message of this msgid or a message of another. -/
def Entry (c : ClientMq) (composed : Nat) : Prop :=
  ∃ x, AckNet.decompose c.mq composed = some x ∧ x.msgid ≠ chmInvalidMsgId ∧
    (x.isAck = true ↔ x.msgid = c.msgid)

structure Kept (c : ClientMq) (s : ClientQueue) : Prop where
  entries : ∀ composed ∈ s.queue, Entry c composed
  nodup : (s.keys c).Nodup
  stored : ∀ key ∈ s.keys c, Stored s.k2hash key
  own : ∀ serial, s.k2hash.heads ⟨c.msgid, c.msgid, serial⟩ = none
  put : PutKept c s

theorem keyOf_ack (hx : AckNet.decompose c.mq composed = some x) (ha : x.isAck = true) :
    keyOf c composed = none := by
  rw [keyOf, hx]
  exact if_pos ha

theorem keyOf_message (hx : AckNet.decompose c.mq composed = some x) (ha : x.isAck = false) :
    keyOf c composed = some ⟨x.msgid, c.msgid, x.number⟩ := by
  rw [keyOf, hx]
  dsimp only
  rw [ha]
  rfl

/-- No entry of the queue is for a key of the client's own messages. -/
theorem Entry.key_ne (h : Entry c composed) (hkey : keyOf c composed = some key) :
    key.deptMsgid ≠ c.msgid ∧ key.termMsgid = c.msgid := by
  obtain ⟨x, hx, -, hack⟩ := h
  cases ha : x.isAck with
  | true =>
    rw [keyOf_ack hx ha] at hkey
    cases hkey
  | false =>
    rw [keyOf_message hx ha] at hkey
    obtain rfl := Option.some.inj hkey
    refine ⟨fun hid => ?_, rfl⟩
    rw [hack.mpr hid] at ha
    cases ha

theorem Kept.key_ne (h : Kept c s) (hkey : key ∈ s.keys c) :
    key.deptMsgid ≠ c.msgid ∧ key.termMsgid = c.msgid := by
  obtain ⟨composed, hmem, hk⟩ := List.mem_filterMap.mp hkey
  exact (h.entries composed hmem).key_ne hk

theorem queued_congr (h : ∀ key ∈ s.keys c, SameAt s.k2hash k' key) :
    (s.keys c).filterMap k'.message = s.queued c :=
  List.filterMap_congr fun key hkey => message_congr (h key hkey)

/-- K2hash changes apart from the queue. -/
theorem Kept.apart (h : Kept c s) (hk : ∀ key ∈ s.keys c, SameAt s.k2hash k' key)
    (hown : ∀ serial, k'.heads ⟨c.msgid, c.msgid, serial⟩ =
      s.k2hash.heads ⟨c.msgid, c.msgid, serial⟩) (waits : List Nat) :
    Kept c { s with k2hash := k', waits := waits } where
  entries := h.entries
  nodup := h.nodup
  stored key hkey := (h.stored key hkey).congr (hk key hkey)
  own serial := (hown serial).trans (h.own serial)
  put := by
    show s.put.Perm ((s.keys c).filterMap k'.message ++ s.taken)
    rw [queued_congr hk]
    exact h.put

theorem Kept.waits (h : Kept c s) (waits : List Nat) : Kept c { s with waits := waits } :=
  h.apart (fun _ _ => ⟨rfl, rfl⟩) (fun _ => rfl) waits

/-- The front of the queue is taken, and with it what is under its key. -/
theorem Kept.popped {rest : List Nat} {handed : List (MqPkt × List Nat)} (h : Kept c s)
    (hq : s.queue = composed :: rest)
    (hk : ∀ key, keyOf c composed ≠ some key → SameAt s.k2hash k' key)
    (hhanded : (handed.map fun m => (m.1.bare, m.2)) =
      ((keyOf c composed).bind s.k2hash.message).toList ++ s.taken) :
    Kept c { s with k2hash := k', queue := rest, handed := handed } := by
  have hentry : Entry c composed := h.entries composed (by rw [hq]; exact List.mem_cons_self)
  have hkeys : s.keys c = (keyOf c composed).toList ++ rest.filterMap (keyOf c) := by
    rw [keys, hq, List.filterMap_cons]
    cases keyOf c composed <;> rfl
  have hnodup := h.nodup
  rw [hkeys, List.nodup_append] at hnodup
  have hrest : ∀ key ∈ rest.filterMap (keyOf c), SameAt s.k2hash k' key := by
    intro key hkey
    apply hk
    intro he
    exact hnodup.2.2 key (by rw [he]; exact List.mem_cons_self) key hkey rfl
  refine ⟨fun c hc => h.entries c (by rw [hq]; exact List.mem_cons_of_mem _ hc), hnodup.2.1,
    fun key hkey => (h.stored key ?_).congr (hrest key hkey), fun serial => ?_, ?_⟩
  · rw [hkeys]
    exact List.mem_append_right _ hkey
  · refine (hk _ fun he => ?_).1.trans (h.own serial)
    exact (hentry.key_ne he).1 rfl
  · have hput := h.put
    show s.put.Perm ((rest.filterMap (keyOf c)).filterMap k'.message ++
      handed.map fun m => (m.1.bare, m.2))
    have hqueued : s.queued c = ((keyOf c composed).bind s.k2hash.message).toList ++
        (rest.filterMap (keyOf c)).filterMap k'.message := by
      rw [List.filterMap_congr fun key hkey => message_congr (hrest key hkey), queued, hkeys,
        List.filterMap_append]
      cases keyOf c composed with
      | none => rfl
      | some key =>
        cases hm : s.k2hash.message key <;> simp [hm]
    rw [PutKept, hqueued] at hput
    rw [hhanded]
    exact hput.trans (by simpa using List.perm_append_comm_assoc ..)

/-! ## What is taken off the queue -/

section Take

variable (hopens : Opens c)

include hopens

theorem Opens.fd : c.mq.isEventQueueFd c.mqfd = true :=
  MqObj.isEventQueueFd_of_lookup hopens.notEmpty hopens.valid hopens.term

theorem Opens.msgid : c.msgid ≠ chmInvalidMsgId := by
  have hbelow := hopens.own.below
  have hfits := hopens.fits
  omega

theorem pop_eq : s.pop c = { s with queue := s.queue.tail } := by
  rw [pop, if_pos hopens.fd]

theorem receiveComposedMsgid_nil :
    c.mq.receiveComposedMsgid c.mqfd (AckNet.pollOf []) = (none, true) := by
  rw [AckNet.pollOf, MqObj.receiveComposedMsgid, hopens.fd]
  rfl

theorem receiveComposedMsgid_cons (hx : AckNet.decompose c.mq composed = some x)
    (rest : List Nat) :
    c.mq.receiveComposedMsgid c.mqfd (AckNet.pollOf (composed :: rest)) = (some x, false) := by
  rw [AckNet.decompose] at hx
  rw [AckNet.pollOf, MqObj.receiveComposedMsgid, hopens.fd, if_neg (by decide), hx]

/-- A late ACK is no message, and nothing is removed for it. -/
theorem receiveHead_ack (h : Kept c s) (hid : x.msgid = c.msgid) :
    c.mq.receiveHead c.mqfd x s.k2hash = (none, s.k2hash) := by
  have hmsgid := hopens.msgid
  have hkey : makeK2hashKey c.msgid c.msgid x.number = some ⟨c.msgid, c.msgid, x.number⟩ := by
    rw [makeK2hashKey, if_neg (by simp [hmsgid])]
  rw [MqObj.receiveHead, hid, hopens.notEmpty, if_neg (by simp [hmsgid]), hopens.term]
  dsimp only
  rw [Option.getD_some, hkey]
  dsimp only
  rw [h.own]

/-- What the front entry of a queue stands for, when it is no ACK. -/
structure Finds (c : ClientMq) (k : K2hash) (composed : Nat) (x : ComposedMsgid) (pkt : MqPkt) :
    Prop where
  takes : c.mq.Takes c.mqfd x pkt
  key : keyOf c composed = some pkt.key
  makeKey : pkt.makeKey = some pkt.key
  head : k.heads pkt.key = some pkt
  valid : MqObj.headValid pkt = true
  body : pkt.type = .c2c → ∃ body, k.bodies pkt.key = some body

theorem Kept.finds (h : Kept c s) (hmem : composed ∈ s.queue)
    (hx : AckNet.decompose c.mq composed = some x) (hne : x.msgid ≠ chmInvalidMsgId)
    (ha : x.isAck = false) : ∃ pkt, Finds c s.k2hash composed x pkt := by
  have hk := keyOf_message hx ha
  obtain ⟨pkt, hhead, hkey, hvalid, hbody⟩ := h.stored _ (List.mem_filterMap.mpr ⟨_, hmem, hk⟩)
  have hdept : pkt.peerDeptMsgid = x.msgid := congrArg MqKey.deptMsgid hkey
  have hterm : pkt.peerTermMsgid = c.msgid := congrArg MqKey.termMsgid hkey
  have hnumber : pkt.mqSerialNum = x.number := congrArg MqKey.serial hkey
  rw [← hkey] at hhead hbody hk
  refine ⟨pkt, ⟨hopens.notEmpty, hdept.symm, hnumber.symm, ?_⟩, hk, ?_, hhead, hvalid, hbody⟩
  · rw [hterm]
    exact hopens.term
  · rw [MqPkt.makeKey, makeK2hashKey, if_neg]
    · rfl
    · rw [hdept, hterm]
      simp [hne, hopens.msgid]

end Take

theorem bare_of_headValid (hvalid : MqObj.headValid pkt = true) (hc2c : pkt.type = .c2c) :
    pkt.bare = pkt := by
  rw [MqObj.headValid, hc2c] at hvalid
  simp only [Bool.and_eq_true, decide_eq_true_eq] at hvalid
  obtain ⟨hlength, hoffset⟩ := hvalid
  cases pkt
  cases hlength
  cases hoffset
  rfl

variable {content : List Nat}

theorem receiveBody_c2c {mq : MqObj} (hempty : mq.isEmpty = false)
    (hkey : pkt.makeKey = some pkt.key) (hc2c : pkt.type = .c2c)
    (hbody : k.bodies pkt.key = some content) :
    mq.receiveBody pkt true k = (true, some content, k.setBody pkt.key none) := by
  rw [MqObj.receiveBody, hempty, if_neg (by decide), if_neg (by simp [hc2c]), hkey]
  dsimp only
  rw [hbody]
  dsimp only
  rw [if_pos rfl, MqObj.removeReceivedBody, hempty, if_neg (by simp [hc2c]), hkey]

theorem receivePkt_c2c {mq : MqObj} (hempty : mq.isEmpty = false)
    (hkey : pkt.makeKey = some pkt.key) (hc2c : pkt.type = .c2c)
    (hbody : k.bodies pkt.key = some content) :
    ∃ pkt', mq.receivePkt pkt true k = (some (pkt', content), k.setBody pkt.key none) ∧
      pkt'.bare = pkt.bare := by
  rw [MqObj.receivePkt, hempty, if_neg (by decide), receiveBody_c2c hempty hkey hc2c hbody]
  dsimp only
  by_cases hnil : content = []
  · rw [if_pos hnil, hnil]
    exact ⟨pkt, rfl, rfl⟩
  · rw [if_neg hnil]
    exact ⟨_, rfl, rfl⟩

theorem sameAt_taken (hk : keyOf c composed = some pkt.key) (head : K2hash.AgreeElse pkt.key k k')
    (key : MqKey) (hne : keyOf c composed ≠ some key) : SameAt k k' key := by
  apply sameAt_of_agreeElse head
  intro he
  exact hne (by rw [he]; exact hk)

/-- A message that is not COM_C2C is taken, or one that is and handed out. -/
theorem Kept.took {rest : List Nat} (h : Kept c s) (hq : s.queue = composed :: rest)
    (hf : Finds c s.k2hash composed x pkt) (hagree : K2hash.AgreeElse pkt.key s.k2hash k')
    {handed : List (MqPkt × List Nat)}
    (hhanded : (handed.map fun m => (m.1.bare, m.2)) =
      (s.k2hash.message pkt.key).toList ++ s.taken) :
    Kept c { s with k2hash := k', queue := rest, handed := handed } := by
  apply h.popped hq (sameAt_taken hf.key hagree)
  rw [hf.key]
  exact hhanded

theorem message_notC2c (hhead : k.heads key = some pkt) (hc2c : pkt.type ≠ .c2c) :
    k.message key = none := by
  rw [K2hash.message, hhead]
  exact if_neg hc2c

theorem message_c2c (hhead : k.heads key = some pkt) (hc2c : pkt.type = .c2c)
    (hbody : k.bodies key = some content) : k.message key = some (pkt, content) := by
  rw [K2hash.message, hhead]
  dsimp only
  rw [if_pos hc2c, hbody]
  rfl

theorem receive_kept (hopens : Opens c) (h : Kept c s) (behind : Bool) :
    Kept c (s.receive c behind) := by
  rw [receive, pop_eq hopens]
  cases hq : s.queue with
  | nil =>
    rw [receiveComposedMsgid_nil hopens]
    have hs : { s with queue := ([] : List Nat) } = s := by
      rw [← hq]
    show Kept c { s with queue := [] }
    rw [hs]
    exact h
  | cons composed rest =>
    have hmem : composed ∈ s.queue := by
      rw [hq]
      exact List.mem_cons_self
    obtain ⟨x, hx, hne, hack⟩ := h.entries composed hmem
    rw [receiveComposedMsgid_cons hopens hx]
    dsimp only
    cases ha : x.isAck with
    | true =>
      rw [receiveHead_ack hopens h (hack.mp ha)]
      apply h.popped hq (fun _ _ => ⟨rfl, rfl⟩)
      rw [keyOf_ack hx ha]
      rfl
    | false =>
      obtain ⟨pkt, hf⟩ := h.finds hopens hmem hx hne ha
      have hset := K2hash.agreeElse_setHead s.k2hash pkt.key none
      rw [MqObj.receiveHead_takes hf.takes hf.makeKey hf.head hf.valid]
      dsimp only
      by_cases hc2c : pkt.type = .c2c
      · obtain ⟨content, hbody⟩ := hf.body hc2c
        have hmessage := message_c2c hf.head hc2c hbody
        have hagree := hset.trans (K2hash.agreeElse_setBody _ pkt.key none)
        have hbare := bare_of_headValid hf.valid hc2c
        rw [if_neg (by simp [hc2c])]
        cases behind with
        | true =>
          obtain ⟨pkt', heq, hpkt'⟩ := receivePkt_c2c hopens.notEmpty hf.makeKey hc2c
            (k := s.k2hash.setHead pkt.key none) hbody
          rw [if_pos rfl, heq]
          apply h.took hq hf hagree
          rw [hmessage, List.map_cons, hpkt', hbare]
          rfl
        | false =>
          rw [if_neg (by decide), receiveBody_c2c hopens.notEmpty hf.makeKey hc2c
            (k := s.k2hash.setHead pkt.key none) hbody]
          apply h.took hq hf hagree
          rw [hmessage, List.map_cons, hbare]
          rfl
      · rw [if_pos hc2c]
        apply h.took hq hf hset
        rw [message_notC2c hf.head hc2c]
        rfl

theorem poll_kept (hopens : Opens c) (h : Kept c s) {i : Nat}
    (hfront : (s.waits[i]?.any fun cnt => cnt < c.mq.retryCount) = true → s.front c = none) :
    Kept c (s.poll c i) := by
  rw [poll]
  cases hi : s.waits[i]? with
  | none => exact h
  | some cnt =>
    dsimp only
    by_cases hcnt : c.mq.retryCount ≤ cnt
    · rw [if_pos hcnt]
      exact h.waits _
    · rw [if_neg hcnt, pop_eq hopens]
      have hnone : s.front c = none := hfront (by rw [hi]; simpa using hcnt)
      cases hq : s.queue with
      | nil =>
        rw [MqObj.ackTurn, receiveComposedMsgid_nil hopens]
        have hkept := h.waits (s.waits.set i (cnt + 1))
        rw [hq] at hkept
        exact hkept
      | cons composed rest =>
        have hmem : composed ∈ s.queue := by
          rw [hq]
          exact List.mem_cons_self
        obtain ⟨x, hx, hne, hack⟩ := h.entries composed hmem
        rw [MqObj.ackTurn, receiveComposedMsgid_cons hopens hx]
        dsimp only
        cases ha : x.isAck with
        | true =>
          have hpopped : Kept c { s with queue := rest } := by
            apply h.popped hq (fun _ _ => ⟨rfl, rfl⟩)
            rw [keyOf_ack hx ha]
            rfl
          exact hpopped.waits _
        | false =>
          obtain ⟨pkt, hf⟩ := h.finds hopens hmem hx hne ha
          -- A COM_C2C message would be at the front.
          have hc2c : pkt.type ≠ .c2c := by
            intro hc2c
            obtain ⟨content, hbody⟩ := hf.body hc2c
            rw [front, hq, List.head?_cons, Option.bind_some, hf.key, Option.bind_some,
              message_c2c hf.head hc2c hbody] at hnone
            cases hnone
          have hset := K2hash.agreeElse_setHead s.k2hash pkt.key none
          have htook : Kept c
              { s with k2hash := s.k2hash.setHead pkt.key none, queue := rest } := by
            apply h.took hq hf hset
            rw [message_notC2c hf.head hc2c]
            rfl
          rw [if_neg (by decide)]
          dsimp only
          rw [MqObj.rawReceive_k2hash hf.takes hf.makeKey hf.head hf.valid hopens.valid,
            MqObj.receiveBody_notC2c hopens.notEmpty hc2c]
          exact htook.waits _

/-! ## What is put on the queue -/

/-- An entry is put behind the others. -/
theorem Kept.pushed {put : List (MqPkt × List Nat)} (h : Kept c s) (hentry : Entry c composed)
    (hkey : ∀ key, keyOf c composed = some key → key ∉ s.keys c ∧ Stored s.k2hash key)
    (hput : put.Perm (((keyOf c composed).bind s.k2hash.message).toList ++ s.put)) :
    Kept c { s with queue := s.queue ++ [composed], put := put } := by
  have hkeys : (s.queue ++ [composed]).filterMap (keyOf c) =
      s.keys c ++ (keyOf c composed).toList := by
    rw [List.filterMap_append]
    cases hk : keyOf c composed <;> simp [keys, hk]
  refine ⟨fun composed' hc => ?_, ?_, fun key hk => ?_, h.own, ?_⟩
  · rcases List.mem_append.mp hc with hc | hc
    · exact h.entries composed' hc
    · rw [List.mem_singleton.mp hc]
      exact hentry
  · rw [keys, hkeys, List.nodup_append]
    refine ⟨h.nodup, by cases keyOf c composed <;> simp, fun key hk key' hk' => ?_⟩
    rintro rfl
    exact (hkey key (Option.mem_toList.mp hk')).1 hk
  · rw [keys, hkeys] at hk
    rcases List.mem_append.mp hk with hk | hk
    · exact h.stored key hk
    · exact (hkey key (Option.mem_toList.mp hk)).2
  · have hqueued : (s.keys c ++ (keyOf c composed).toList).filterMap s.k2hash.message =
        s.queued c ++ ((keyOf c composed).bind s.k2hash.message).toList := by
      rw [List.filterMap_append, queued]
      cases keyOf c composed with
      | none => rfl
      | some key =>
        cases hm : s.k2hash.message key <;> simp [hm]
    show put.Perm (((s.queue ++ [composed]).filterMap (keyOf c)).filterMap s.k2hash.message ++
      s.taken)
    rw [hkeys, hqueued, List.append_assoc]
    have hperm := hput.trans (h.put.append_left _)
    exact hperm.trans (List.perm_append_comm_assoc ..)

theorem ack_kept (hopens : Opens c) (h : Kept c s) {serial : Nat}
    (hserial : serial ≤ maxMqSerialNumber) (success : Bool) : Kept c (s.ack c serial success) := by
  have hrange : AckNet.InRange c.mq c.msgid serial := ⟨hserial, hopens.own.above, hopens.own.below⟩
  have hx := hrange.legible hopens.notEmpty hopens.fits true success
  have hkey := keyOf_ack hx rfl
  apply h.pushed ⟨_, hx, hopens.msgid, by simp⟩
  · intro key hk
    rw [hkey] at hk
    cases hk
  · rw [hkey]
    exact List.Perm.refl _

/-- Whatever a `Send` comes to, other keys keep what they have. -/
theorem post_agreeElse (mq : MqObj) (io : SendIO) (pkt : MqPkt) (body : Option (List Nat))
    (k : K2hash) : K2hash.AgreeElse pkt.key k (mq.post io pkt body k).2 := by
  rcases MqObj.post_cases mq io pkt body k with ⟨-, he⟩ | ⟨-, ⟨-, hr⟩ | ⟨-, hw⟩⟩
  · rw [he]
    exact K2hash.AgreeElse.refl ..
  · exact hr.others
  · exact hw.others

theorem send_kept (h : Kept c s) (io : SendIO) {pkt : MqPkt} (body : Option (List Nat))
    (hterm : pkt.peerTermMsgid ≠ c.msgid) : Kept c (s.send c io pkt body) := by
  have hagree := post_agreeElse c.mq io pkt body s.k2hash
  have hne : ∀ key : MqKey, key.termMsgid = c.msgid → key ≠ pkt.key := by
    rintro key hkey rfl
    exact hterm hkey
  have hapart := h.apart
    (fun key hkey => sameAt_of_agreeElse hagree (hne key (h.key_ne hkey).2))
    (fun serial => hagree.heads _ (hne _ rfl))
  rw [send]
  generalize c.mq.post io pkt body s.k2hash = r at hapart
  obtain ⟨o, k⟩ := r
  cases o with
  | none => exact hapart s.waits
  | some composed => exact hapart _

theorem deliver_kept (hopens : Opens c) (h : Kept c s) (io : SendIO)
    (hto : ToClient c pkt body) (hfree : s.k2hash.heads pkt.key = none) :
    Kept c (s.deliver c io pkt body) := by
  have hagree := post_agreeElse c.chmpx io pkt body s.k2hash
  -- No message on the queue has the key.
  have hfresh : pkt.key ∉ s.keys c := by
    intro hkey
    obtain ⟨pkt', hhead, -⟩ := h.stored _ hkey
    rw [hfree] at hhead
    cases hhead
  have hapart : Kept c { s with k2hash := (c.chmpx.post io pkt body s.k2hash).2 } := by
    apply h.apart
    · intro key hkey
      apply sameAt_of_agreeElse hagree
      rintro rfl
      exact hfresh hkey
    · intro serial
      apply hagree.heads
      intro he
      exact hto.dept (congrArg MqKey.deptMsgid he).symm
  have hcases := MqObj.post_cases c.chmpx io pkt body s.k2hash
  rw [deliver]
  generalize c.chmpx.post io pkt body s.k2hash = r at hapart hcases
  obtain ⟨o, k⟩ := r
  cases o with
  | none => exact hapart
  | some composed =>
    rcases hcases with ⟨-, he⟩ | ⟨hs, ⟨he, -⟩ | ⟨he, hw⟩⟩
    · cases he
    · cases he
    · have hx := hto.range.legible hopens.notEmpty hopens.fits false false
      rw [AckNet.compose, MqObj.base_of_notEmpty hopens.notEmpty, ← hopens.base,
        ← Option.some.inj he] at hx
      have hne : pkt.peerDeptMsgid ≠ chmInvalidMsgId := by
        have hbelow := hto.range.below
        have hfits := hopens.fits
        omega
      have hkey : keyOf c composed = some pkt.key := by
        rw [keyOf_message hx rfl, MqPkt.key, hto.term]
      apply hapart.pushed ⟨_, hx, hne, by simp [hto.dept]⟩
      · intro key hk
        rw [hkey] at hk
        obtain rfl := Option.some.inj hk
        refine ⟨hfresh, pkt, hw.head, rfl, MqObj.headValid_of_sendable hs, fun hc2c => ?_⟩
        have hbody := hto.body hc2c
        have hk2hash := hw.body
        rw [if_pos hbody] at hk2hash
        cases body with
        | none => cases hbody
        | some content => exact ⟨content, hk2hash⟩
      · rw [hkey, Option.bind_some]
        by_cases hbody : MqObj.hasBody body = true
        · have hk2hash := hw.body
          rw [if_pos hbody] at hk2hash
          cases body with
          | none => cases hbody
          | some content =>
            rw [if_pos hbody, message_c2c hw.head (MqObj.c2c_of_hasBody hs hbody) hk2hash]
            exact List.Perm.refl _
        · rw [if_neg hbody, message_notC2c hw.head fun hc2c => hbody (hto.body hc2c)]
          exact List.Perm.refl _

/-! ## Runs -/

theorem exec_kept (hopens : Opens c) (h : Kept c s) {op : ClientOp}
    (hop : StepUncrossed c s op) : Kept c (s.exec c op) := by
  cases op with
  | deliver io pkt body => exact deliver_kept hopens h io hop.1 hop.2
  | ack serial success => exact ack_kept hopens h hop success
  | send io pkt body => exact send_kept h io body hop
  | poll i => exact poll_kept hopens h hop
  | receive behind => exact receive_kept hopens h behind
  | elsewhere k =>
    have hapart := h.apart (fun key hkey => hop key (h.key_ne hkey).2) (fun serial => (hop _ rfl).1)
    exact hapart s.waits

theorem run_kept (hopens : Opens c) {ops : List ClientOp} (h : Kept c s)
    (hops : RunUncrossed c s ops) : Kept c (s.run c ops) := by
  induction ops generalizing s with
  | nil => exact h
  | cons op ops ih => exact ih (exec_kept hopens h hops.1) hops.2

theorem start_kept (hk : ∀ key, key.termMsgid = c.msgid → k.heads key = none) :
    Kept c (start k) where
  entries := by
    intro composed hc
    cases hc
  nodup := List.nodup_nil
  stored := by
    intro key hkey
    cases hkey
  own serial := hk _ rfl
  put := List.Perm.refl _

theorem queue_receive (hopens : Opens c) (s : ClientQueue) (behind : Bool) :
    (s.receive c behind).queue = s.queue.tail ∧ (s.receive c behind).put = s.put := by
  rw [receive, pop_eq hopens]
  dsimp only
  split
  · exact ⟨rfl, rfl⟩
  · split
    · exact ⟨rfl, rfl⟩
    · split
      · exact ⟨rfl, rfl⟩
      · split
        · split <;> exact ⟨rfl, rfl⟩
        · split <;> exact ⟨rfl, rfl⟩

theorem runUncrossed_receive (s : ClientQueue) (n : Nat) (behind : Bool) :
    RunUncrossed c s (List.replicate n (.receive behind)) := by
  induction n generalizing s with
  | zero => trivial
  | succ n ih => exact ⟨trivial, ih _⟩

/-- `Receive` after `Receive` empties the queue. -/
theorem run_receive (hopens : Opens c) (s : ClientQueue) (n : Nat) (behind : Bool) :
    (s.run c (List.replicate n (.receive behind))).queue = s.queue.drop n ∧
      (s.run c (List.replicate n (.receive behind))).put = s.put := by
  induction n generalizing s with
  | zero => exact ⟨rfl, rfl⟩
  | succ n ih =>
    obtain ⟨hqueue, hput⟩ := queue_receive hopens s behind
    obtain ⟨hq, hp⟩ := ih (s.receive c behind)
    constructor
    · exact hq.trans (by rw [hqueue, List.drop_tail])
    · exact hp.trans hput

/-- In every run in which no waiting `Send` finds a COM_C2C message at the front, each one
that was put on the queue is there with head and body or was handed to one `Receive`; and
`Receive`, called often enough, hands out all. -/
theorem run_putKept (hopens : Opens c) (hk : ∀ key, key.termMsgid = c.msgid → k.heads key = none)
    {ops : List ClientOp} (hops : RunUncrossed c (start k) ops) :
    let s := (start k).run c ops
    PutKept c s ∧ ∀ behind,
      s.put.Perm (s.run c (List.replicate s.queue.length (.receive behind))).taken := by
  intro s
  have hkept : Kept c s := run_kept hopens (start_kept hk) hops
  refine ⟨hkept.put, fun behind => ?_⟩
  have hput := (run_kept hopens hkept (runUncrossed_receive s s.queue.length behind)).put
  obtain ⟨hq, hp⟩ := run_receive hopens s s.queue.length behind
  rw [List.drop_length] at hq
  rwa [PutKept, hp, queued, keys, hq] at hput

/-! ### A message that is received, and one that crosses a Send -/

def sampleClient : ClientMq :=
  ⟨MqObj.sampleClientMq, MqObj.sampleChmpxMq, 2 ^ 32 + 1, 5, fun _ _ => true, fun _ => false⟩

def sampleToClient : MqPkt := ⟨.c2c, 2 ^ 32, 2 ^ 32 + 1, 8, 120, 120⟩

/-- The message comes behind the ACK. -/
def uncrossedOps : List ClientOp :=
  [.send MqObj.sampleSendIO (MqObj.sampleMqPkt 5) (some [7]), .ack 5 true,
    .deliver MqObj.sampleSendIO sampleToClient (some [1, 2]), .poll 0]

/-- The message comes before it. -/
def crossedOps : List ClientOp :=
  [.send MqObj.sampleSendIO (MqObj.sampleMqPkt 5) (some [7]),
    .deliver MqObj.sampleSendIO sampleToClient (some [1, 2]), .poll 0, .ack 5 true, .poll 0]

theorem sampleClient_opens : Opens sampleClient :=
  ⟨rfl, by decide, ⟨by decide, by decide, by decide⟩, rfl, by decide, rfl⟩

theorem run_putKept_sample :
    let s := (start MqObj.emptyK2hash).run sampleClient uncrossedOps
    PutKept sampleClient s ∧ ∀ behind,
      s.put.Perm (s.run sampleClient (List.replicate s.queue.length (.receive behind))).taken := by
  have hterm : (MqObj.sampleMqPkt 5).peerTermMsgid ≠ sampleClient.msgid := by decide
  have hserial : 5 ≤ maxMqSerialNumber := by decide
  have hto : ToClient sampleClient sampleToClient (some [1, 2]) :=
    ⟨⟨by decide, by decide, by decide⟩, by decide, rfl, fun _ => rfl⟩
  exact run_putKept sampleClient_opens (fun _ _ => rfl)
    ⟨hterm, hserial, ⟨hto, by decide⟩, fun _ => by decide, trivial⟩

/-- `ChmCntrl::Processing` says that it has done the message, and it is gone. -/
theorem crossed_lost :
    let s := (start MqObj.emptyK2hash).run sampleClient crossedOps
    s.put = [(sampleToClient, [1, 2])] ∧ s.queue = [] ∧ s.handed = [] ∧ s.waits = [] ∧
      s.k2hash.heads sampleToClient.key = none ∧ s.k2hash.bodies sampleToClient.key = none ∧
      processing sampleClient sampleToClient [1, 2] = true ∧ ¬ PutKept sampleClient s := by
  intro s
  have hput : s.put = [(sampleToClient, [1, 2])] := by decide
  have hqueue : s.queue = [] := by decide
  have hhanded : s.handed = [] := by decide
  refine ⟨hput, hqueue, hhanded, by decide, by decide, by decide, by decide, fun hkept => ?_⟩
  rw [PutKept, hput, queued, keys, hqueue, taken, hhanded] at hkept
  exact absurd hkept.length_eq (by decide)

end ClientQueue
end Chm
