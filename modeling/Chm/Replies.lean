/-
A message from a client of a slave, and the reply of a client of a server.

Four processes write the ids of the packet on its way: the client that builds the head, the
chmpx process that sends it over a socket, the one that puts it on a queue, and the client
that replies.  The departure and the hash go through as they are; a reply has the ids of its
request turned around.  So a reply comes back to the queue that its request departed from, and
nowhere else (`reply_returns`).
-/
import Chm.C2c
import Chm.C2cHead
import Chm.SendKeys
import Chm.Sockets

namespace Chm
namespace Wire
namespace C2c

/-! ## The head of a packet in memory -/

/-- `COM_C2PX`. -/
def comC2px : Nat := 5

/-- `COM_PX2C`. -/
def comPx2c : Nat := 6

def comTypeOf (code : Nat) : ComType :=
  if code = comC2c then .c2c
  else if code = comC2px then .c2px
  else if code = comPx2c then .px2c
  else .other

def headOf (mem : Memory) : ComHead where
  version := readU64 mem 0
  type := comTypeOf (readU64 mem compktTypeAt)
  c2ctype := readU64 mem c2ctypeAt
  deptIds := ⟨readU64 mem deptIdsAt, readU64 mem (msgidAt deptIdsAt)⟩
  termIds := ⟨readU64 mem termIdsAt, readU64 mem (msgidAt termIdsAt)⟩
  peerDeptMsgid := readU64 mem peerDeptMsgidAt
  peerTermMsgid := readU64 mem peerTermMsgidAt
  mqSerialNum := readU64 mem mqSerialNumAt
  hash := readU64 mem hashAt
  reqtime := ⟨readI64 mem reqtimeAt, readI64 mem (reqtimeAt + 8)⟩

theorem headOf_type (mem : Memory) :
    (headOf mem).type = comTypeOf (readU64 mem compktTypeAt) := by
  rw [headOf]

theorem headOf_reqtime (mem : Memory) :
    (headOf mem).reqtime = ⟨readI64 mem reqtimeAt, readI64 mem (reqtimeAt + 8)⟩ := by
  rw [headOf]

/-- The packet in memory has the head. -/
structure Packs (head : ComHead) (mem : Memory) : Prop where
  head : headOf mem = head
  long : sizeOf compkt ≤ readU64 mem compktLengthAt

/-- The head after the loop of `Processing` has addressed it to a chmpx. -/
def readdress (org chmpxid : ChmpxId) (head : ComHead) : ComHead :=
  { head with
    mqSerialNum := minMqSerialNumber
    peerDeptMsgid := chmInvalidMsgId
    peerTermMsgid := chmInvalidMsgId
    termIds := ⟨chmpxid % 2 ^ 64,
      if chmInvalidChmpxId = org ∨ org ≠ chmpxid then chmInvalidMsgId else head.termIds.msgid⟩ }

@[simp] theorem deptIds_readdress (org chmpxid : ChmpxId) (head : ComHead) :
    (readdress org chmpxid head).deptIds = head.deptIds := rfl

@[simp] theorem hash_readdress (org chmpxid : ChmpxId) (head : ComHead) :
    (readdress org chmpxid head).hash = head.hash := rfl

/-- A packet that named its target keeps the msgid there. -/
theorem termIds_readdress {org : ChmpxId} (horg : org ≠ chmInvalidChmpxId) (hlt : org < 2 ^ 64)
    (head : ComHead) : (readdress org org head).termIds = ⟨org, head.termIds.msgid⟩ := by
  have hnamed : ¬(chmInvalidChmpxId = org ∨ org ≠ org) := by
    rintro (he | hne)
    · exact horg he.symm
    · exact hne rfl
  rw [readdress]
  dsimp only
  rw [Nat.mod_eq_of_lt hlt, if_neg hnamed]

variable {io : Outside} {mem mem' : Memory} {org chmpxid selfchmpxid : ChmpxId} {head : ComHead}
  {isServerMode isRandomDeliver : Bool} {post : Post} {target : ChmpxId × Nat} {m : ChmpxMan}

theorem headOf_congr (h : ∀ i, i < 104 → mem i = mem' i) : headOf mem = headOf mem' := by
  have hread : ∀ p, p + 8 ≤ 104 → readU64 mem p = readU64 mem' p := fun p hp =>
    readU64_congr fun i _ hi => h i (by omega)
  have hreadI : ∀ p, p + 8 ≤ 104 → readI64 mem p = readI64 mem' p := fun p hp =>
    readI64_congr fun i _ hi => h i (by omega)
  rw [headOf, headOf, hread 0 (by decide), hread compktTypeAt (by decide),
    hread c2ctypeAt (by decide), hread deptIdsAt (by decide), hread _ (by decide),
    hread termIdsAt (by decide), hread (msgidAt termIdsAt) (by decide),
    hread peerDeptMsgidAt (by decide), hread peerTermMsgidAt (by decide),
    hread mqSerialNumAt (by decide), hread hashAt (by decide), hreadI reqtimeAt (by decide),
    hreadI _ (by decide)]

theorem readU64_store64_of_ne {p q v : Nat} (h : p + 8 ≤ q ∨ q + 8 ≤ p) :
    readU64 (store64 q v mem) p = readU64 mem p :=
  readU64_congr fun i _ _ => (within_store64 q v).outside mem i (by omega)

theorem readU64_termMsgid (org chmpxid : ChmpxId) (mem : Memory) :
    readU64 (setDeliverHead org chmpxid mem) (msgidAt termIdsAt) =
      if chmInvalidChmpxId = org ∨ org ≠ chmpxid then chmInvalidMsgId
      else readU64 mem (msgidAt termIdsAt) := by
  unfold setDeliverHead
  dsimp only
  split
  · exact readU64_store64 _ _ _
  · rw [readU64_store64_of_ne (by decide), readU64_store64_of_ne (by decide),
      readU64_store64_of_ne (by decide), readU64_store64_of_ne (by decide)]

/-- Behind the ids of the terminus is what has been stored first. -/
theorem readU64_peers (org chmpxid : ChmpxId) (mem : Memory) {p : Nat}
    (hp : msgidAt termIdsAt + 8 ≤ p) :
    readU64 (setDeliverHead org chmpxid mem) p =
      readU64 (store64 peerTermMsgidAt chmInvalidMsgId (store64 peerDeptMsgidAt chmInvalidMsgId
        (store64 mqSerialNumAt minMqSerialNumber mem))) p := by
  have hp' : termIdsAt + 8 ≤ p := Nat.le_trans (by decide) hp
  unfold setDeliverHead
  dsimp only
  split
  · rw [readU64_store64_of_ne (Or.inr hp), readU64_store64_of_ne (Or.inr hp')]
  · rw [readU64_store64_of_ne (Or.inr hp')]

theorem readU64_peerDept (org chmpxid : ChmpxId) (mem : Memory) :
    readU64 (setDeliverHead org chmpxid mem) peerDeptMsgidAt = chmInvalidMsgId := by
  rw [readU64_peers org chmpxid mem (by decide), readU64_store64_of_ne (by decide)]
  exact readU64_store64 _ _ _

theorem readU64_peerTerm (org chmpxid : ChmpxId) (mem : Memory) :
    readU64 (setDeliverHead org chmpxid mem) peerTermMsgidAt = chmInvalidMsgId := by
  rw [readU64_peers org chmpxid mem (by decide)]
  exact readU64_store64 _ _ _

theorem readU64_mqSerialNum (org chmpxid : ChmpxId) (mem : Memory) :
    readU64 (setDeliverHead org chmpxid mem) mqSerialNumAt = minMqSerialNumber := by
  rw [readU64_peers org chmpxid mem (by decide), readU64_store64_of_ne (by decide),
    readU64_store64_of_ne (by decide)]
  exact readU64_store64 _ _ _

theorem headOf_setDeliverHead (org chmpxid : ChmpxId) (mem : Memory) :
    headOf (setDeliverHead org chmpxid mem) = readdress org chmpxid (headOf mem) := by
  have hout : ∀ p, p + 8 ≤ 40 ∨ 80 ≤ p →
      readU64 (setDeliverHead org chmpxid mem) p = readU64 mem p := fun p hp =>
    readU64_setDeliverHead org chmpxid mem hp
  have houtI : ∀ p, 80 ≤ p → readI64 (setDeliverHead org chmpxid mem) p = readI64 mem p := by
    intro p hp
    rw [readI64, readI64, hout p (Or.inr hp)]
  apply ComHead.ext
  · exact hout 0 (by decide)
  · rw [readdress]
    dsimp only
    rw [headOf_type, headOf_type, hout compktTypeAt (by decide)]
  · exact hout c2ctypeAt (by decide)
  · exact PckId.ext (hout deptIdsAt (by decide)) (hout (msgidAt deptIdsAt) (by decide))
  · exact PckId.ext (readU64_termIds org chmpxid mem) (readU64_termMsgid org chmpxid mem)
  · exact readU64_peerDept org chmpxid mem
  · exact readU64_peerTerm org chmpxid mem
  · exact readU64_mqSerialNum org chmpxid mem
  · exact hout hashAt (by decide)
  · rw [readdress]
    dsimp only
    rw [headOf_reqtime, headOf_reqtime, houtI reqtimeAt (by decide),
      houtI (reqtimeAt + 8) (by decide)]

/-! ## What the posts of a message say -/

theorem headOf_postFor (hmem : IsC2c mem)
    (h : post ∈ postFor io isServerMode selfchmpxid org mem target) (heap : Memory) :
    headOf (post.arrived heap) = readdress org target.1 (headOf mem) := by
  have hlong := hmem.long
  rw [sizeOf_compkt] at hlong
  rw [← headOf_setDeliverHead]
  exact headOf_congr fun i hi => arrived_postFor hmem h heap i (by omega)

/-- A post of `Processing` is one of a target. -/
theorem mem_processing (hmem : IsC2c mem)
    (hpost : post ∈ (processing io isRandomDeliver m mem).posts) :
    ∃ chmpxids target, targets isRandomDeliver m mem = some chmpxids ∧ target.1 ∈ chmpxids ∧
      post ∈ postFor io m.isServerMode m.getSelfChmpxId (readU64 mem termIdsAt) mem target := by
  by_cases hdept : readU64 mem deptIdsAt = m.getSelfChmpxId
  · cases htargets : targets isRandomDeliver m mem with
    | none =>
      rw [processing, if_neg (not_not_intro hdept), htargets] at hpost
      exact absurd hpost List.not_mem_nil
    | some chmpxids =>
      rw [processing_eq hdept htargets, (sendLoop_spec hmem chmpxids 0).2,
        List.mem_flatMap] at hpost
      obtain ⟨target, hreached, hin⟩ := hpost
      have hdone := List.all_eq_true.mp List.all_takeWhile target hreached
      rw [posted_delivery hmem hdone] at hin
      exact ⟨chmpxids, target, rfl,
        List.fst_mem_of_mem_zipIdx ((List.takeWhile_sublist _).subset hreached), hin⟩
  · rw [processing, if_pos hdept] at hpost
    exact absurd hpost List.not_mem_nil

theorem isC2c_of_packs (h : Packs head mem) (htype : head.type = .c2c) : IsC2c mem := by
  refine ⟨?_, h.long⟩
  by_contra hne
  rw [← h.head, headOf_type, comTypeOf, if_neg hne] at htype
  split at htype
  · cases htype
  · split at htype
    · cases htype
    · cases htype

theorem length_postFor (htype : C2cType.isSelf (readU64 mem c2ctypeAt) = true) :
    (postFor io isServerMode selfchmpxid org mem target).length = 1 := by
  rw [postFor]
  split
  · rfl
  · rfl

theorem mem_processing_named (hmem : IsC2c mem) (hterm : readU64 mem termIdsAt ≠ chmInvalidChmpxId)
    (hpost : post ∈ (processing io isRandomDeliver m mem).posts) :
    ∃ turn, post ∈ postFor io m.isServerMode m.getSelfChmpxId (readU64 mem termIdsAt) mem
      (readU64 mem termIdsAt, turn) := by
  obtain ⟨chmpxids, ⟨chmpxid, turn⟩, htargets, hin, hpost⟩ := mem_processing hmem hpost
  rw [targets, if_neg fun he => hterm he.symm, Option.some.injEq] at htargets
  rw [← htargets, List.mem_singleton] at hin
  dsimp only at hin
  rw [hin] at hpost
  exact ⟨turn, hpost⟩

/-- A packet that names its target is sent once at most, and once when the call returns true
and the type does not except the node itself. -/
theorem length_processing_named (hmem : IsC2c mem)
    (hterm : readU64 mem termIdsAt ≠ chmInvalidChmpxId)
    (htype : C2cType.isSelf (readU64 mem c2ctypeAt) = true) :
    (processing io isRandomDeliver m mem).posts.length ≤ 1 ∧
      ((processing io isRandomDeliver m mem).result = some true →
        (processing io isRandomDeliver m mem).posts.length = 1) := by
  by_cases hdept : readU64 mem deptIdsAt = m.getSelfChmpxId
  · have htargets : targets isRandomDeliver m mem = some [readU64 mem termIdsAt] := by
      rw [targets, if_neg fun he => hterm he.symm]
    obtain ⟨hresult, hposts⟩ := @sendLoop_spec io mem (readU64 mem termIdsAt) m.isServerMode
      m.getSelfChmpxId hmem [readU64 mem termIdsAt] 0
    rw [processing_eq hdept htargets, hresult, hposts, List.zipIdx_cons, List.zipIdx_nil,
      List.takeWhile_cons, List.takeWhile_nil]
    split
    · rename_i hdone
      have hlength : (List.flatMap (fun target => posted (delivery io m.isServerMode
          m.getSelfChmpxId (readU64 mem termIdsAt) mem target))
            [(readU64 mem termIdsAt, 0)]).length = 1 := by
        rw [List.flatMap_singleton, posted_delivery hmem hdone, length_postFor htype]
      exact ⟨hlength.le, fun _ => hlength⟩
    · exact ⟨Nat.zero_le 1, fun he => absurd he (List.cons_ne_nil _ _).symm⟩
  · rw [processing, if_pos hdept]
    exact ⟨Nat.zero_le 1, fun he => by cases he⟩

/-! ## From client to client -/

/-- A chmpx process: the nodes that it knows, its msgids and its queues. -/
structure ChmpxProc where
  man : ChmpxMan
  isRandomDeliver : Bool
  msgs : MsgInfo
  proc : MqProc

/-- `ChmCntrl::Processing` of a `COM_C2C` packet from a queue: the sockets' object has it. -/
def ChmpxProc.processingFromMq (c : ChmpxProc) (io : Outside) (mem : Memory) : Run :=
  C2c.processing io c.isRandomDeliver c.man mem

/-- `ChmCntrl::Processing` of a `COM_C2C` packet from a socket, or from the sockets' object
itself: the queues' object has it. -/
def ChmpxProc.processingFromSock (c : ChmpxProc) (mem : Memory) : HeadResult :=
  c.proc.processing c.man.getSelfChmpxId c.msgs (headOf mem)

/-- A reply is posted to the chmpx that the original came from and to no other, once at most
and once when the call returns true.  That chmpx puts it on a queue, it is the only one that
does, and the queue is that of the original's departure. -/
structure ReplyReturns (orig copy : ComHead) (run : Run) : Prop where
  once : run.posts.length ≤ 1 ∧ (run.result = some true → run.posts.length = 1)
  target : ∀ post ∈ run.posts, post.target = orig.deptIds.chmpxid
  accepted : ∀ post ∈ run.posts, ∀ heap (c : ChmpxProc),
    c.man.getSelfChmpxId = orig.deptIds.chmpxid → c.proc.mq.isEmpty = false →
      ∃ final, (c.processingFromSock (post.arrived heap)).head = some final
  queued : ∀ post ∈ run.posts, ∀ heap (c : ChmpxProc) final,
    (c.processingFromSock (post.arrived heap)).head = some final →
      c.man.getSelfChmpxId = orig.deptIds.chmpxid ∧
        final.toMqPkt.peerTermMsgid = orig.deptIds.msgid
  ids : ∀ post ∈ run.posts, ∀ heap (c : ChmpxProc) final,
    (c.processingFromSock (post.arrived heap)).head = some final →
      final.termIds = orig.deptIds ∧ final.deptIds = copy.termIds ∧ final.hash = orig.hash

section Reply

variable {client replier : MqProc} {sender server : ChmpxProc} {selfchmpxid' : ChmpxId}
  {now now' : Option Timespec} {msgs msgs' : MsgInfo} {tochmpxid : ChmpxId} {hash : ChmHash}
  {c2ctype : C2cType} {frommsgid : Nat} {orig copy reply : ComHead} {pkt pkt' heap : Memory}

/-- What a client gets has the departure and the hash of what the other client sent. -/
theorem copy_ids (hmem : IsC2c pkt) (hpkt : headOf pkt = orig)
    (hpost : post ∈ (sender.processingFromMq io pkt).posts)
    (hcopy : (server.processingFromSock (post.arrived heap)).head = some copy) :
    copy.deptIds = orig.deptIds ∧ copy.hash = orig.hash := by
  obtain ⟨-, target, -, -, hin⟩ := mem_processing hmem hpost
  obtain ⟨-, -, -, -, hdept, hhash⟩ := MqProc.processing_ids hcopy
  rw [headOf_postFor hmem hin, hpkt] at hdept hhash
  exact ⟨hdept, hhash⟩

/-- A post of a reply that names the chmpx `org` and a msgid there. -/
theorem headOf_reply (hmem : IsC2c pkt') (hpkt : headOf pkt' = reply)
    (horg : reply.termIds.chmpxid ≠ chmInvalidChmpxId)
    (hpost : post ∈ (server.processingFromMq io pkt').posts) :
    post.target = reply.termIds.chmpxid ∧ ∀ heap,
      (headOf (post.arrived heap)).termIds = reply.termIds ∧
        (headOf (post.arrived heap)).deptIds = reply.deptIds ∧
          (headOf (post.arrived heap)).hash = reply.hash := by
  have hterm : readU64 pkt' termIdsAt = reply.termIds.chmpxid := by rw [← hpkt, headOf]
  have hlt := readU64_lt pkt' termIdsAt
  rw [← hterm] at horg
  obtain ⟨turn, hin⟩ := mem_processing_named hmem horg hpost
  have htarget := fun h => (mem_postFor hmem h hin).1
  refine ⟨(htarget hlt).trans hterm, fun heap => ?_⟩
  have hhead := headOf_postFor hmem hin heap
  dsimp only at hhead
  rw [hhead, termIds_readdress horg hlt, deptIds_readdress, hash_readdress, hpkt, hterm]
  exact ⟨rfl, rfl, rfl⟩

theorem replyReturns_of_ids (hmem : IsC2c pkt') (hpkt : headOf pkt' = reply)
    (horig : orig.deptIds.chmpxid ≠ chmInvalidChmpxId ∧ orig.deptIds.msgid ≠ chmInvalidMsgId)
    (hterm : reply.termIds = orig.deptIds) (hdept : reply.deptIds = copy.termIds)
    (hhash : reply.hash = orig.hash) (htype : reply.c2ctype = comC2cNormal) :
    ReplyReturns orig copy (server.processingFromMq io pkt') := by
  have horg : reply.termIds.chmpxid ≠ chmInvalidChmpxId := by
    rw [hterm]
    exact horig.1
  have hread : readU64 pkt' termIdsAt = reply.termIds.chmpxid ∧
      readU64 pkt' c2ctypeAt = reply.c2ctype := by
    rw [← hpkt, headOf]
    exact ⟨rfl, rfl⟩
  have harrived : ∀ post ∈ (server.processingFromMq io pkt').posts, ∀ heap,
      (headOf (post.arrived heap)).termIds = orig.deptIds ∧
        (headOf (post.arrived heap)).deptIds = copy.termIds ∧
          (headOf (post.arrived heap)).hash = orig.hash := by
    intro post hpost heap
    have hids := (headOf_reply hmem hpkt horg hpost).2 heap
    rwa [hterm, hdept, hhash] at hids
  refine ⟨length_processing_named hmem ?_ ?_, fun post hpost => ?_, ?_, ?_, ?_⟩
  · rw [hread.1]
    exact horg
  · rw [hread.2, htype]
    decide
  · rw [(headOf_reply hmem hpkt horg hpost).1, hterm]
  · intro post hpost heap c hself hempty
    have hids := (harrived post hpost heap).1
    refine MqProc.processing_isSome hempty ?_ ?_
    · rw [hids, hself]
    · rw [hids]
      exact horig.2
  · intro post hpost heap c final hfinal
    obtain ⟨hself, -, hqueue, hnamed, -⟩ := MqProc.processing_ids hfinal
    rw [(harrived post hpost heap).1] at hself hnamed
    exact ⟨hself.symm, hqueue.trans (hnamed horig.2)⟩
  · intro post hpost heap c final hfinal
    obtain ⟨hself, hself', -, hnamed, hdept', hhash'⟩ := MqProc.processing_ids hfinal
    obtain ⟨hids, hids', hids''⟩ := harrived post hpost heap
    rw [hids] at hself hnamed
    refine ⟨PckId.ext (hself'.trans hself.symm) (hnamed horig.2), hdept'.trans hids', ?_⟩
    exact hhash'.trans hids''

/-- For every message of a client, of any type, every copy that a chmpx process puts on a queue,
and every reply to it: the copy has the departure and the hash of the message, and the reply
returns to the queue of that departure and to no other, with the ids of the copy turned around
and the same hash. -/
theorem reply_returns
    (hsent : (client.buildC2CSendHead sender.man.getSelfChmpxId now msgs tochmpxid hash c2ctype
      frommsgid).head = some orig)
    (hpkt : Packs orig pkt) (hpost : post ∈ (sender.processingFromMq io pkt).posts)
    (hcopy : (server.processingFromSock (post.arrived heap)).head = some copy)
    (hreply : (replier.buildC2CResponseHead selfchmpxid' now' msgs' copy).head = some reply)
    (hpkt' : Packs reply pkt') (replying : ChmpxProc) (io' : Outside) :
    (copy.deptIds = orig.deptIds ∧ copy.hash = orig.hash) ∧
      ReplyReturns orig copy (replying.processingFromMq io' pkt') := by
  obtain ⟨htype, horig⟩ := MqProc.buildC2CSendHead_ids hsent
  obtain ⟨htype', hc2ctype, hdept, hterm, hhash⟩ := MqProc.buildC2CResponseHead_ids hreply
  have hids := copy_ids (isC2c_of_packs hpkt htype) hpkt.head hpost hcopy
  refine ⟨hids, ?_⟩
  exact replyReturns_of_ids (isC2c_of_packs hpkt' htype') hpkt'.head horig
    (hterm.trans hids.1) hdept (hhash.trans hids.2) hc2ctype

end Reply

/-! ### A reply from one of two servers -/

open ChmpxMan

/-- A slave that knows two servers, both of them up. -/
def slaveCfg : ChmCfgInfo :=
  { sampleCfg false with
    selfnode := { sampleParam 115 with ctlport := 8022 }
    servers := [sampleParam 97, sampleParam 98] }

def slaveOps : List Op :=
  [97, 98].map fun name => .setServerStatus (RingNet.sampleId name) ChmpxSts.srvinUpNormal true

def slaveMan : ChmpxMan :=
  slaveOps.foldl (fun m op => (m.exec sampleEnv op).2)
    ((initialized sampleEnv slaveCfg).getD (freshArea slaveCfg))

/-- One of the servers, with a socket from the slave. -/
def serverMan : ChmpxMan :=
  ((RingNet.ringMan 97 [98] [97, 98]).execArea sampleEnv (sampleConnect [] 5)).2

/-- A msgid of the chmpx process of a node, and one of a client. -/
def sampleQueues : MsgInfo := MsgInfo.sampleMsgs.run [.assign 5 true true, .assign 7 false true]

def sampleProc (isChmpxType : Bool) : MqProc where
  mq := { MqObj.sampleClientMq with
    isChmpxType := isChmpxType
    baseMsgid := MsgInfo.sampleMsgs.baseMsgid }
  isClientOnSlv := true
  serialNum := 9

def sampleSlaveProc : ChmpxProc := ⟨slaveMan, false, sampleQueues, sampleProc true⟩

def sampleServerProc : ChmpxProc := ⟨serverMan, false, sampleQueues, sampleProc true⟩

/-- Every socket is found, and takes a packet at once. -/
def openOutside (man : ChmpxMan) : Outside where
  area _ := man
  heap _ _ := 0
  locks _ := true
  turns _ := [⟨.ready, .moved 121⟩]
  toMq _ := true

/-- A packet of a head, with one byte behind it. -/
def packOf (head : ComHead) : Memory :=
  store64 compktLengthAt 121 (store64 compktTypeAt comC2c (store64 0 head.version
    (store64 c2ctypeAt head.c2ctype (store64 deptIdsAt head.deptIds.chmpxid
      (store64 (msgidAt deptIdsAt) head.deptIds.msgid (store64 termIdsAt head.termIds.chmpxid
        (store64 (msgidAt termIdsAt) head.termIds.msgid (store64 peerDeptMsgidAt head.peerDeptMsgid
          (store64 peerTermMsgidAt head.peerTermMsgid (store64 mqSerialNumAt head.mqSerialNum
            (store64 hashAt head.hash fun i => if i = 120 then 7 else 0)))))))))))

def sampleOrig : ComHead where
  version := comVersion1
  type := .c2c
  c2ctype := comC2cBroadcast
  deptIds := ⟨slaveMan.getSelfChmpxId, MsgInfo.sampleMsgs.baseMsgid + 1⟩
  termIds := ⟨chmInvalidChmpxId, chmInvalidMsgId⟩
  peerDeptMsgid := MsgInfo.sampleMsgs.baseMsgid + 1
  peerTermMsgid := MsgInfo.sampleMsgs.baseMsgid
  mqSerialNum := 9
  hash := 7
  reqtime := ⟨0, 0⟩

/-- What the client of the first server gets. -/
def sampleCopy : ComHead :=
  { sampleOrig with
    termIds := ⟨RingNet.sampleId 97, MsgInfo.sampleMsgs.baseMsgid + 1⟩
    peerDeptMsgid := MsgInfo.sampleMsgs.baseMsgid
    peerTermMsgid := MsgInfo.sampleMsgs.baseMsgid + 1 }

def sampleReply : ComHead :=
  { sampleOrig with
    c2ctype := comC2cNormal
    deptIds := sampleCopy.termIds
    termIds := sampleCopy.deptIds }

theorem sampleOrig_built :
    ((sampleProc false).buildC2CSendHead sampleSlaveProc.man.getSelfChmpxId none sampleQueues
      chmInvalidChmpxId 7 comC2cBroadcast (MsgInfo.sampleMsgs.baseMsgid + 1)).head =
        some sampleOrig := by
  decide +kernel

theorem sampleReply_built :
    ((sampleProc false).buildC2CResponseHead sampleServerProc.man.getSelfChmpxId none sampleQueues
      sampleCopy).head = some sampleReply := by
  decide +kernel

theorem sampleOrig_packs : Packs sampleOrig (packOf sampleOrig) :=
  ⟨by decide +kernel, by decide +kernel⟩

theorem sampleReply_packs : Packs sampleReply (packOf sampleReply) :=
  ⟨by decide +kernel, by decide +kernel⟩

theorem sampleCopy_queued :
    (sampleSlaveProc.processingFromMq (openOutside slaveMan) (packOf sampleOrig)).posts.map
        (fun post => (sampleServerProc.processingFromSock (post.arrived fun _ => 0)).head) =
      [some sampleCopy, none] := by
  decide +kernel

theorem sampleCopy_posted :
    ∃ post ∈ (sampleSlaveProc.processingFromMq (openOutside slaveMan) (packOf sampleOrig)).posts,
      (sampleServerProc.processingFromSock (post.arrived fun _ => 0)).head = some sampleCopy := by
  apply List.mem_map.mp
  rw [sampleCopy_queued]
  exact List.mem_cons_self

theorem reply_returns_sample :
    ReplyReturns sampleOrig sampleCopy
        (sampleServerProc.processingFromMq (openOutside serverMan) (packOf sampleReply)) ∧
      (sampleServerProc.processingFromMq (openOutside serverMan) (packOf sampleReply)).result =
        some true := by
  obtain ⟨post, hpost, hcopy⟩ := sampleCopy_posted
  obtain ⟨-, hreturns⟩ := reply_returns sampleOrig_built sampleOrig_packs hpost hcopy
    sampleReply_built sampleReply_packs sampleServerProc (openOutside serverMan)
  exact ⟨hreturns, by decide +kernel⟩

/-- The slave's client sees the ids of the client that replies as the departure of the reply. -/
theorem reply_departsFromReplier :
    (∃ post ∈ (sampleSlaveProc.processingFromMq (openOutside slaveMan) (packOf sampleOrig)).posts,
      (sampleServerProc.processingFromSock (post.arrived fun _ => 0)).head = some sampleCopy) ∧
    ((sampleProc false).buildC2CResponseHead sampleServerProc.man.getSelfChmpxId none sampleQueues
      sampleCopy).head = some sampleReply ∧
    ∃ post ∈ (sampleServerProc.processingFromMq (openOutside serverMan)
        (packOf sampleReply)).posts,
      ((sampleSlaveProc.processingFromSock (post.arrived fun _ => 0)).head.map (·.deptIds)) =
          some sampleCopy.termIds ∧
        sampleCopy.termIds ≠ sampleOrig.deptIds := by
  refine ⟨sampleCopy_posted, sampleReply_built, ?_⟩
  have hfinal : (sampleServerProc.processingFromMq (openOutside serverMan)
      (packOf sampleReply)).posts.map (fun post =>
        (sampleSlaveProc.processingFromSock (post.arrived fun _ => 0)).head.map (·.deptIds)) =
      [some sampleCopy.termIds] := by decide +kernel
  obtain ⟨post, hpost, he⟩ := List.mem_map.mp (hfinal ▸ List.mem_singleton_self _)
  exact ⟨post, hpost, he, by decide +kernel⟩

end C2c
end Wire
end Chm
