/-
The K2hash keys of the messages on a node.

A key is made of two msgids and a serial number.  Every process counts serial numbers by
itself, from a seed of its own, and the departures come from lists that all processes share.
As long as no process makes a message from a msgid from which another one has a message on
the way, nor from one from which it has drawn all numbers since, every message on the way has
a key of its own, and no `Send` touches the head or the body of another (`run_keysDistinct`).
-/
import Chm.C2cHead
import Chm.Lib.Steps
import Chm.SendKeys

namespace Chm

/-- Where a message is: it has a head, it is posted, or its head has been taken by a receiver
and its body has not. -/
inductive MsgStage
  | built
  | posted (composed : Nat)
  | taken (pkt : MqPkt)
  deriving DecidableEq, Repr

/-- A message, the process that made its head, and how many numbers that one had drawn. -/
structure KeyMsg (ι : Type) where
  proc : ι
  draw : Nat
  pkt : MqPkt
  stage : MsgStage

/-- A message without its stage. -/
def KeyMsg.made {ι : Type} (msg : KeyMsg ι) : ι × Nat × MqPkt := (msg.proc, msg.draw, msg.pkt)

/-- The processes of a node, with the messages that are made and not received. -/
structure KeyNet (ι : Type) where
  selfchmpxid : ChmpxId
  msgs : MsgInfo
  procs : ι → MqProc
  k2hash : K2hash
  pending : List (KeyMsg ι)
  /-- How many serial numbers each process has drawn. -/
  drawn : ι → Nat

/-- `queues` is an operation on the msgids of the node and `maps` opens or closes queues of a
process.  `processing` is that of a `COM_C2C` message from a socket, up to its `Send`.  A receive
takes a head and then a body; `drop` is a message that is given up. -/
inductive KeyEvent (ι : Type)
  | queues (op : MsgInfo.MsgOp)
  | maps (i : ι) (mq : MqObj)
  | build (i : ι) (now : Option Timespec) (pReqComHead : Option ComHead) (tochmpxid : ChmpxId)
      (hash : ChmHash) (c2ctype : C2cType) (frommsgid : Nat)
  | processing (i : ι) (head : ComHead)
  | send (n : Nat) (io : SendIO) (body : Option (List Nat))
  | receiveHead (n : Nat) (i : ι) (mqfd : Int)
  | receiveBody (n : Nat) (i : ι)
  | drop (n : Nat)

namespace KeyNet

variable {ι : Type}

/-- A process has made a head, or failed to. -/
def make [DecidableEq ι] (i : ι) (r : HeadResult) (s : KeyNet ι) : KeyNet ι :=
  let s := { s with
    msgs := r.msgs
    procs := Function.update s.procs i { s.procs i with serialNum := r.serialNum } }
  match r.head with
  | none => s
  | some head =>
    { s with
      pending := ⟨i, s.drawn i, head.toMqPkt, .built⟩ :: s.pending
      drawn := Function.update s.drawn i (s.drawn i + 1) }

/-- `Send`, without the wait for an ACK. -/
def send (n : Nat) (io : SendIO) (body : Option (List Nat)) (s : KeyNet ι) : Option (KeyNet ι) :=
  match s.pending[n]? with
  | some ⟨proc, draw, pkt, .built⟩ =>
    match (s.procs proc).mq.post io pkt body s.k2hash with
    | (none, k2hash) => some { s with k2hash := k2hash, pending := s.pending.eraseIdx n }
    | (some composed, k2hash) =>
      some { s with
        k2hash := k2hash
        pending := s.pending.set n ⟨proc, draw, pkt, .posted composed⟩ }
  | _ => none

/-- A composed msgid is taken off the queue that `mqfd` reads, and then the head. -/
def receiveHead (n : Nat) (i : ι) (mqfd : Int) (s : KeyNet ι) : Option (KeyNet ι) :=
  match s.pending[n]? with
  | some ⟨proc, draw, pkt, .posted composed⟩ =>
    let rcv := (s.procs i).mq
    if rcv.recvFdid.lookup mqfd ≠ some pkt.peerTermMsgid then none
    else
      match rcv.receiveComposedMsgid mqfd (.entry composed) with
      | (none, _) => some { s with pending := s.pending.eraseIdx n }
      | (some composed, _) =>
        match rcv.receiveHead mqfd composed s.k2hash with
        | (none, k2hash) => some { s with k2hash := k2hash, pending := s.pending.eraseIdx n }
        | (some head, k2hash) =>
          some { s with
            k2hash := k2hash
            pending := s.pending.set n ⟨proc, draw, pkt, .taken head⟩ }
  | _ => none

/-- The body that belongs to a head is read and removed. -/
def receiveBody (n : Nat) (i : ι) (s : KeyNet ι) : Option (KeyNet ι) :=
  match s.pending[n]? with
  | some ⟨_, _, _, .taken head⟩ =>
    some { s with
      k2hash := ((s.procs i).mq.receiveBody head true s.k2hash).2.2
      pending := s.pending.eraseIdx n }
  | _ => none

def step [DecidableEq ι] (s : KeyNet ι) : KeyEvent ι → Option (KeyNet ι)
  | .queues op => some { s with msgs := s.msgs.exec op }
  | .maps i mq => some { s with procs := Function.update s.procs i { s.procs i with mq := mq } }
  | .build i now pReqComHead tochmpxid hash c2ctype frommsgid =>
    some (s.make i ((s.procs i).buildC2CHeadEx s.selfchmpxid now s.msgs pReqComHead tochmpxid hash
      c2ctype frommsgid))
  | .processing i head => some (s.make i ((s.procs i).processing s.selfchmpxid s.msgs head))
  | .send n io body => s.send n io body
  | .receiveHead n i mqfd => s.receiveHead n i mqfd
  | .receiveBody n i => s.receiveBody n i
  | .drop n => some { s with pending := s.pending.eraseIdx n }

/-- A node that starts with queues, and processes with any seeds that have sent nothing. -/
structure Start (s : KeyNet ι) : Prop where
  msgs : ∃ env cfg outside, ChmInfo.startMsgs env cfg outside = some s.msgs ∧ 0 < cfg.maxMqueue
  seed : ∀ i, (s.procs i).serialNum < 2 ^ 64
  pending : s.pending = []
  drawn : ∀ i, s.drawn i = 0

def steps (ι : Type) [DecidableEq ι] : Steps (KeyNet ι) (KeyEvent ι) := ⟨Start, step⟩

/-- Posted and not received. -/
def inFlight (s : KeyNet ι) : List (KeyMsg ι) :=
  s.pending.filter fun msg => decide (msg.stage ≠ .built)

/-- All messages on the way have different keys. -/
def KeysDistinct (s : KeyNet ι) : Prop := (s.inFlight.map fun msg => msg.pkt.key).Nodup

/-- A `Send` changes neither head nor body of a message on the way. -/
def SendsSpare (s : KeyNet ι) : Prop :=
  ∀ n io body s', s.send n io body = some s' → ∀ msg ∈ s.inFlight,
    s'.k2hash.heads msg.pkt.key = s.k2hash.heads msg.pkt.key ∧
      s'.k2hash.bodies msg.pkt.key = s.k2hash.bodies msg.pkt.key

/-- Messages from a msgid are of the process itself, which has not drawn all numbers since. -/
def isFree [DecidableEq ι] (s : KeyNet ι) (i : ι) (dept : Nat) : Bool :=
  s.pending.all fun msg => decide (msg.pkt.peerDeptMsgid = dept →
    msg.proc = i ∧ s.drawn i ≤ msg.draw + maxMqSerialNumber)

/-- The departure of a message that is about to be made is free for the process. -/
def inOrder [DecidableEq ι] (s : KeyNet ι) : KeyEvent ι → Bool
  | .build i _ pReqComHead _ _ _ frommsgid =>
    s.isFree i (MqProc.deptOf pReqComHead frommsgid s.msgs)
  | .processing i _ => s.isFree i (s.msgs.inTurn true)
  | _ => true

/-! ## The invariant -/

/-- The serial number of a message is the one that its process drew then, and all keys, also
of messages that are not posted yet, are different. -/
structure Kept (seeds : ι → Nat) (s : KeyNet ι) : Prop where
  msgs : s.msgs.Kept
  seed : ∀ i, seeds i < 2 ^ 64
  serialNum : ∀ i, (s.procs i).serialNum = ChmEventMq.serialNumAfter (seeds i) (s.drawn i)
  drew : ∀ msg ∈ s.pending, msg.draw < s.drawn msg.proc ∧
    msg.pkt.mqSerialNum = ChmEventMq.serialNumAfter (seeds msg.proc) msg.draw
  keys : (s.pending.map fun msg => msg.pkt.key).Nodup

variable {s s' : KeyNet ι} {seeds : ι → Nat} {i : ι} {r : HeadResult} {dept n : Nat}

theorem start_kept (h : Start s) : Kept (fun i => (s.procs i).serialNum) s := by
  obtain ⟨env, cfg, outside, hstart, hpos⟩ := h.msgs
  refine ⟨⟨_, MsgInfo.startMsgs_kept hstart hpos⟩, h.seed, fun i => ?_, ?_, ?_⟩
  · rw [h.drawn i]
    rfl
  · rw [h.pending]
    exact fun msg hmsg => absurd hmsg List.not_mem_nil
  · rw [h.pending]
    exact List.nodup_nil

/-- A step that makes no head keeps the invariant when it adds no message. -/
theorem Kept.mono (h : Kept seeds s) (hmsgs : s'.msgs.Kept)
    (hserial : ∀ i, (s'.procs i).serialNum = (s.procs i).serialNum) (hdrawn : s'.drawn = s.drawn)
    (hsub : (s'.pending.map KeyMsg.made).Sublist (s.pending.map KeyMsg.made)) :
    Kept seeds s' := by
  refine ⟨hmsgs, h.seed, fun i => ?_, fun msg hmsg => ?_, ?_⟩
  · rw [hserial, hdrawn]
    exact h.serialNum i
  · obtain ⟨old, hold, he⟩ := List.mem_map.mp (hsub.subset (List.mem_map_of_mem hmsg))
    obtain ⟨hproc, hrest⟩ := Prod.mk.inj he
    obtain ⟨hdraw, hpkt⟩ := Prod.mk.inj hrest
    have hdrew := h.drew old hold
    rw [hproc, hdraw, hpkt] at hdrew
    rw [hdrawn]
    exact hdrew
  · have hkeys := hsub.map fun made => made.2.2.key
    rw [List.map_map, List.map_map] at hkeys
    exact h.keys.sublist hkeys

/-- A message that goes on to its next stage keeps what its process made of it. -/
theorem made_set {proc : ι} {draw : Nat} {pkt : MqPkt} {stage stage' : MsgStage}
    (h : s.pending[n]? = some ⟨proc, draw, pkt, stage⟩) :
    (s.pending.set n ⟨proc, draw, pkt, stage'⟩).map KeyMsg.made = s.pending.map KeyMsg.made := by
  have hn : n < (s.pending.map KeyMsg.made).length := by
    rw [List.length_map]
    exact (List.getElem?_eq_some_iff.mp h).1
  rw [List.map_set]
  refine List.ext_getElem? fun j => ?_
  rw [List.getElem?_set]
  split
  · rename_i hj
    rw [← hj, List.getElem?_map, h]
    rfl
  · rfl

theorem erase_sublist (s : KeyNet ι) (n : Nat) :
    ((s.pending.eraseIdx n).map KeyMsg.made).Sublist (s.pending.map KeyMsg.made) :=
  (List.eraseIdx_sublist _ n).map _

/-- A free departure gives a key that no message has. -/
theorem key_fresh [DecidableEq ι] (h : Kept seeds s) (hfree : s.isFree i dept = true) {pkt : MqPkt}
    (hdept : pkt.peerDeptMsgid = dept) (hserial : pkt.mqSerialNum = (s.procs i).serialNum) :
    ∀ msg ∈ s.pending, msg.pkt.key ≠ pkt.key := by
  intro msg hmsg he
  obtain ⟨hsame, -, hnum⟩ := MqKey.mk.inj he
  have hmine : msg.proc = i ∧ s.drawn i ≤ msg.draw + maxMqSerialNumber :=
    of_decide_eq_true (List.all_eq_true.mp hfree msg hmsg) (hsame.trans hdept)
  obtain ⟨hlt, hdrew⟩ := h.drew msg hmsg
  rw [hmine.1] at hlt hdrew
  refine ChmEventMq.serialNumAfter_ne (h.seed i) hlt hmine.2 ?_
  rw [← hdrew, hnum, hserial, h.serialNum]

theorem make_kept [DecidableEq ι] (h : Kept seeds s) (hmsgs : r.msgs.Kept)
    (hdraws : r.Draws (s.procs i).serialNum dept) (hfree : s.isFree i dept = true) :
    Kept seeds (s.make i r) := by
  rcases hdraws with ⟨hhead, hserial⟩ | ⟨head, hhead, hdept, hnum, hserial⟩
  · -- Nothing is made, and the counter stands where it was.
    rw [make, hhead]
    refine h.mono hmsgs (fun j => ?_) rfl (List.Sublist.refl _)
    show (Function.update s.procs i _ j).serialNum = _
    rw [Function.update_apply]
    split
    · rename_i hj
      rw [hserial, hj]
    · rfl
  · have hfresh : ∀ msg ∈ s.pending, msg.pkt.key ≠ head.toMqPkt.key :=
      key_fresh h hfree hdept hnum
    rw [make, hhead]
    refine ⟨hmsgs, h.seed, fun j => ?_, fun msg hmsg => ?_, ?_⟩
    · show (Function.update s.procs i _ j).serialNum =
        ChmEventMq.serialNumAfter (seeds j) (Function.update s.drawn i _ j)
      by_cases hj : j = i
      · subst hj
        rw [Function.update_self, Function.update_self, ChmEventMq.serialNumAfter, ← h.serialNum]
        exact hserial
      · rw [Function.update_of_ne hj, Function.update_of_ne hj]
        exact h.serialNum j
    · show msg.draw < Function.update s.drawn i (s.drawn i + 1) msg.proc ∧ _
      rcases List.mem_cons.mp hmsg with rfl | hold
      · rw [Function.update_self]
        exact ⟨Nat.lt_succ_self _, hnum.trans (h.serialNum i)⟩
      · obtain ⟨hlt, hdrew⟩ := h.drew msg hold
        refine ⟨?_, hdrew⟩
        rw [Function.update_apply]
        split
        · rename_i hproc
          rw [← hproc]
          exact Nat.lt_succ_of_lt hlt
        · exact hlt
    · rw [List.map_cons, List.nodup_cons, List.mem_map]
      refine ⟨?_, h.keys⟩
      rintro ⟨msg, hmsg, he⟩
      exact hfresh msg hmsg he

theorem send_kept (h : Kept seeds s) {io : SendIO} {body : Option (List Nat)}
    (hs : s.send n io body = some s') : Kept seeds s' := by
  rw [send] at hs
  split at hs
  · rename_i proc draw pkt hmsg
    split at hs
    · cases hs
      exact h.mono h.msgs (fun _ => rfl) rfl (erase_sublist s n)
    · cases hs
      exact h.mono h.msgs (fun _ => rfl) rfl (made_set hmsg ▸ List.Sublist.refl _)
  · cases hs

theorem receiveHead_kept (h : Kept seeds s) {mqfd : Int}
    (hs : s.receiveHead n i mqfd = some s') : Kept seeds s' := by
  rw [receiveHead] at hs
  split at hs
  · rename_i proc draw pkt composed hmsg
    dsimp only at hs
    split at hs
    · cases hs
    · split at hs
      · cases hs
        exact h.mono h.msgs (fun _ => rfl) rfl (erase_sublist s n)
      · split at hs
        · cases hs
          exact h.mono h.msgs (fun _ => rfl) rfl (erase_sublist s n)
        · cases hs
          exact h.mono h.msgs (fun _ => rfl) rfl (made_set hmsg ▸ List.Sublist.refl _)
  · cases hs

theorem receiveBody_kept (h : Kept seeds s) (hs : s.receiveBody n i = some s') : Kept seeds s' := by
  rw [receiveBody] at hs
  split at hs
  · cases hs
    exact h.mono h.msgs (fun _ => rfl) rfl (erase_sublist s n)
  · cases hs

theorem step_kept [DecidableEq ι] (h : Kept seeds s) {e : KeyEvent ι} (hok : s.inOrder e = true)
    (hs : s.step e = some s') : Kept seeds s' := by
  obtain ⟨a, hpl, hmax⟩ := h.msgs
  cases e with
  | queues op =>
    cases hs
    exact h.mono (MsgInfo.exec_kept h.msgs op) (fun _ => rfl) rfl (List.Sublist.refl _)
  | maps i mq =>
    cases hs
    refine h.mono h.msgs (fun j => ?_) rfl (List.Sublist.refl _)
    show (Function.update s.procs i _ j).serialNum = _
    rw [Function.update_apply]
    split
    · rename_i hj
      rw [hj]
    · rfl
  | build i now pReqComHead tochmpxid hash c2ctype frommsgid =>
    cases hs
    obtain ⟨ops, hops⟩ := @MqProc.buildC2CHeadEx_run (s.procs i) s.selfchmpxid now s.msgs
      pReqComHead tochmpxid hash c2ctype frommsgid
    refine make_kept h ?_ (MqProc.buildC2CHeadEx_draws hpl hmax ..) hok
    rw [hops]
    exact MsgInfo.run_kept h.msgs ops
  | processing i head =>
    cases hs
    obtain ⟨ops, hops⟩ := @MqProc.processing_run (s.procs i) s.selfchmpxid s.msgs head
    refine make_kept h ?_ (MqProc.processing_draws hpl hmax head) hok
    rw [hops]
    exact MsgInfo.run_kept h.msgs ops
  | send n io body => exact send_kept h hs
  | receiveHead n i mqfd => exact receiveHead_kept h hs
  | receiveBody n i => exact receiveBody_kept h hs
  | drop n =>
    cases hs
    exact h.mono h.msgs (fun _ => rfl) rfl (erase_sublist s n)

/-! ## Runs -/

theorem keysDistinct_of_kept (h : Kept seeds s) : KeysDistinct s :=
  h.keys.sublist (List.filter_sublist.map _)

/-- K2hash after a `Send` differs under the key of its message at most. -/
theorem send_agreeElse {io : SendIO} {body : Option (List Nat)} (hs : s.send n io body = some s') :
    ∃ msg ∈ s.pending, msg.stage = .built ∧ K2hash.AgreeElse msg.pkt.key s.k2hash s'.k2hash := by
  rw [send] at hs
  split at hs
  · rename_i proc draw pkt hmsg
    refine ⟨_, List.mem_of_getElem? hmsg, rfl, ?_⟩
    have hagree : K2hash.AgreeElse pkt.key s.k2hash
        ((s.procs proc).mq.post io pkt body s.k2hash).2 := by
      rcases MqObj.post_cases (s.procs proc).mq io pkt body s.k2hash with
        ⟨-, he⟩ | ⟨-, ⟨-, hremoved⟩ | ⟨-, hwrote⟩⟩
      · rw [he]
        exact K2hash.AgreeElse.refl ..
      · exact hremoved.others
      · exact hwrote.others
    split at hs
    · rename_i hpost
      cases hs
      rw [hpost] at hagree
      exact hagree
    · rename_i hpost
      cases hs
      rw [hpost] at hagree
      exact hagree
  · cases hs

theorem sendsSpare_of_kept (h : Kept seeds s) : SendsSpare s := by
  intro n io body s' hs msg hmsg
  obtain ⟨hin, hstage⟩ := List.mem_filter.mp hmsg
  obtain ⟨sent, hsent, hbuilt, hagree⟩ := send_agreeElse hs
  have hne : msg.pkt.key ≠ sent.pkt.key := by
    intro he
    have hsame := List.inj_on_of_nodup_map h.keys hin hsent he
    rw [hsame, hbuilt] at hstage
    exact absurd hstage (by decide)
  exact ⟨hagree.heads _ hne, hagree.bodies _ hne⟩

/-- In every run in which no message is made from a msgid that a message of another process is
on the way from, nor from one that the process has drawn all numbers from since, all messages
on the way have different keys, and no `Send` changes one of them in K2hash. -/
theorem run_keysDistinct [DecidableEq ι] (h : (steps ι).Reachable inOrder s) :
    KeysDistinct s ∧ SendsSpare s := by
  obtain ⟨seeds, hk⟩ : ∃ seeds, Kept seeds s :=
    h.invariant (P := fun s => ∃ seeds, Kept seeds s) (fun s hs => ⟨_, start_kept hs⟩)
      fun ⟨seeds, hk⟩ hok hs => ⟨seeds, step_kept hk hok hs⟩
  exact ⟨keysDistinct_of_kept hk, sendsSpare_of_kept hk⟩

/-! ### Two clients of a server -/

/-- The chmpx process and its clients, whose counters happen to agree. -/
def sampleNet : KeyNet Nat where
  selfchmpxid := 1
  msgs := MsgInfo.sampleMsgs
  procs i :=
    { mq := { MqObj.sampleClientMq with
        isChmpxType := i = 0
        baseMsgid := MsgInfo.sampleMsgs.baseMsgid }
      isClientOnSlv := false
      serialNum := 9 }
  k2hash := MqObj.emptyK2hash
  pending := []
  drawn _ := 0

theorem sampleNet_start : Start sampleNet :=
  ⟨⟨_, _, _, MsgInfo.sampleMsgs_eq, by decide⟩, fun _ => show 9 < 2 ^ 64 by decide, rfl,
    fun _ => rfl⟩

/-- A new message of a client that names no msgid. -/
def sampleBuild (i : Nat) : KeyEvent Nat :=
  .build i none none chmInvalidChmpxId 7 comC2cNormal chmInvalidMsgId

/-- Both clients have a queue that is activated, and each of them sends a message. -/
def turnEvents : List (KeyEvent Nat) :=
  [.queues (.assign 5 true true), .queues (.assign 7 false true), .queues (.assign 8 false true),
    sampleBuild 1, sampleBuild 2, .send 1 MqObj.sampleSendIO (some [1]),
    .send 0 MqObj.sampleSendIO (some [2])]

/-- Only the first one has, and both send from it; the second has not posted its message. -/
def sharedEvents : List (KeyEvent Nat) :=
  [.queues (.assign 5 true true), .queues (.assign 7 false true), .queues (.assign 8 false false),
    sampleBuild 1, .send 0 MqObj.sampleSendIO (some [1]), sampleBuild 2]

theorem run_keysDistinct_sample :
    ∃ s, (steps Nat).Reachable inOrder s ∧ s.inFlight.length = 2 ∧ KeysDistinct s ∧
      SendsSpare s := by
  obtain ⟨s, hs, hlength⟩ := Steps.reached (steps Nat) inOrder (fun s => s.inFlight.length)
    sampleNet_start (by decide +kernel :
      ((steps Nat).run inOrder sampleNet turnEvents).map (fun s => s.inFlight.length) = some 2)
  exact ⟨s, hs, hlength, run_keysDistinct hs⟩

/-- The bodies of the messages on the way before the second message is posted, and after. -/
def sharedBodies (s : KeyNet Nat) : Option (List (Option (List Nat)) × List (Option (List Nat))) :=
  (s.send 0 MqObj.sampleSendIO (some [2])).map fun s' =>
    (s.inFlight.map fun msg => s.k2hash.bodies msg.pkt.key,
      s.inFlight.map fun msg => s'.k2hash.bodies msg.pkt.key)

def keysDiffer (s : KeyNet Nat) : Bool := decide (s.inFlight.map fun msg => msg.pkt.key).Nodup

/-- The body of the first client's message becomes that of the second one's. -/
theorem run_keysShared :
    (∃ s, (steps Nat).Reachable Steps.anyStep s ∧ ¬SendsSpare s) ∧
      ∃ s, (steps Nat).Reachable Steps.anyStep s ∧ ¬KeysDistinct s := by
  constructor
  · obtain ⟨s, hs, hbodies⟩ := Steps.reached (steps Nat) Steps.anyStep sharedBodies
      sampleNet_start (by decide +kernel :
        ((steps Nat).run Steps.anyStep sampleNet sharedEvents).map sharedBodies =
          some (some ([some [1]], [some [2]])))
    refine ⟨s, hs, fun hspare => ?_⟩
    obtain ⟨s', hsend, he⟩ := Option.map_eq_some_iff.mp hbodies
    obtain ⟨hbefore, hafter⟩ := Prod.mk.inj he
    have hsame := List.map_congr_left fun msg hmsg => (hspare _ _ _ _ hsend msg hmsg).2
    rw [hbefore, hafter] at hsame
    exact absurd hsame (by decide)
  · obtain ⟨s, hs, hkeys⟩ := Steps.reached (steps Nat) Steps.anyStep keysDiffer sampleNet_start
      (by decide +kernel : ((steps Nat).run Steps.anyStep sampleNet
        (sharedEvents ++ [.send 0 MqObj.sampleSendIO (some [2])])).map keysDiffer = some false)
    rw [keysDiffer, decide_eq_false_iff_not] at hkeys
    exact ⟨s, hs, hkeys⟩

end KeyNet
end Chm
