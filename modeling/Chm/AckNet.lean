/-
Clients that wait for ACKs, and the chmpx process that sends them.

A client posts messages and waits on the queue of its own msgid, where ACKs and other
messages come in one line; the chmpx process takes messages in any order, answers them in
any order or not at all.  `ReceiveAck` takes the first ACK that comes: it is the right one
when no other is on the way.
-/
import Chm.SendKeys

namespace Chm

/-- A `Send` that has posted its message and waits for the ACK. -/
structure AckWait where
  msgid : Nat
  serial : Nat
  cnt : Nat
  deriving DecidableEq, Repr

/-- A client and its chmpx process: what is posted to the chmpx process, what it has taken
and not answered, the queues of the client, and the waiting `Send`s. -/
structure AckNet where
  posted : List Nat
  inProcess : List ComposedMsgid
  queue : Nat → List Nat
  waits : List AckWait
  /-- The ACKs that `SendAck` has sent: msgid, serial number and success. -/
  acks : List (Nat × Nat × Bool)
  /-- The `Send`s that have returned true. -/
  trues : List (Nat × Nat)

/-- `take`, `answer` and `drop` are the chmpx process's; a dropped message gets no ACK.
`deliver` puts another message on a queue of the client, `poll` is a turn of a waiting `Send`
and `receive` one of a `Receive`. -/
inductive AckOp
  | send (msgid serial : Nat)
  | take (i : Nat)
  | answer (i : Nat) (success : Bool)
  | drop (i : Nat)
  | deliver (msgid dept serial : Nat)
  | poll (i : Nat)
  | receive (msgid : Nat)

namespace AckNet

variable (mq : MqObj)

def decompose (msgid : Nat) : Option ComposedMsgid :=
  ChmEventMq.decomposeSerialMsgid mq.base msgid

def compose (msgid serial : Nat) (isAck success : Bool) : Nat :=
  ChmEventMq.composeSerialMsgid mq.base msgid serial isAck success

/-- What `mq_receive` answers. -/
def pollOf : List Nat → MqPoll
  | [] => .again
  | msgid :: _ => .entry msgid

def push (msgid composed : Nat) (s : AckNet) : AckNet :=
  { s with queue := Function.update s.queue msgid (s.queue msgid ++ [composed]) }

def pop (msgid : Nat) (s : AckNet) : AckNet :=
  { s with queue := Function.update s.queue msgid (s.queue msgid).tail }

/-- `Send` once the message is posted. -/
def send (msgid serial : Nat) (s : AckNet) : AckNet :=
  let s := { s with posted := compose mq msgid serial false false :: s.posted }
  if mq.useMqAck then { s with waits := ⟨msgid, serial, 0⟩ :: s.waits }
  else { s with trues := (msgid, serial) :: s.trues }

def take (i : Nat) (s : AckNet) : AckNet :=
  match s.posted[i]? with
  | none => s
  | some msgid =>
    let s := { s with posted := s.posted.eraseIdx i }
    match decompose mq msgid with
    | none => s
    | some composed => { s with inProcess := composed :: s.inProcess }

/-- `SendAck`. -/
def answer (i : Nat) (success : Bool) (s : AckNet) : AckNet :=
  match s.inProcess[i]? with
  | none => s
  | some composed =>
    { s with
      inProcess := s.inProcess.eraseIdx i
      acks := (composed.msgid, composed.number, success) :: s.acks }.push composed.msgid
        (compose mq composed.msgid composed.number true success)

def drop (i : Nat) (s : AckNet) : AckNet :=
  { s with inProcess := s.inProcess.eraseIdx i }

/-- A waiting `Send` returns. -/
def finish (i : Nat) (w : AckWait) (result : Bool) (s : AckNet) : AckNet :=
  { s with
    waits := s.waits.eraseIdx i
    trues := if result then (w.msgid, w.serial) :: s.trues else s.trues }

/-- A turn of `ReceiveAck`. -/
def poll (i : Nat) (s : AckNet) : AckNet :=
  match s.waits[i]? with
  | none => s
  | some w =>
    if mq.retryCount ≤ w.cnt then s.finish i w false
    else
      match mq.recvIdfd.lookup w.msgid with
      | none => s.finish i w false
      | some mqfd =>
        let turn := mq.ackTurn mqfd (pollOf (s.queue w.msgid))
        let s := if mq.isEventQueueFd mqfd then s.pop w.msgid else s
        match turn with
        | .finished result => s.finish i w result
        | .wait => { s with waits := s.waits.set i { w with cnt := w.cnt + 1 } }
        | .request _ =>
          { s with waits := s.waits.set i { w with cnt := MqObj.cntAfterRequest w.cnt } }

def exec (s : AckNet) : AckOp → AckNet
  | .send msgid serial => s.send mq msgid serial
  | .take i => s.take mq i
  | .answer i success => s.answer mq i success
  | .drop i => s.drop i
  | .deliver msgid dept serial => s.push msgid (compose mq dept serial false false)
  | .poll i => s.poll mq i
  | .receive msgid => s.pop msgid

def run (s : AckNet) (ops : List AckOp) : AckNet := ops.foldl (exec mq) s

/-- Nothing is posted and nobody waits. -/
def start : AckNet := ⟨[], [], fun _ => [], [], [], []⟩

/-- Every `Send` that has returned true was answered by a success ACK with its number. -/
def TruesAcked (s : AckNet) : Prop := ∀ r ∈ s.trues, (r.1, r.2, true) ∈ s.acks

/-! ## Sends that wait for nothing but their own ACK -/

/-- The serial numbers of the messages of a msgid that may still bring an ACK, and of the
ACKs on its queue. -/
def outstanding (s : AckNet) (msgid : Nat) : List Nat :=
  ((s.posted.filterMap (decompose mq) ++ s.inProcess).filter (·.msgid = msgid) ++
    ((s.queue msgid).filterMap (decompose mq)).filter (·.isAck)).map (·.number)

/-- A msgid of the area and a serial number in range. -/
structure InRange (msgid serial : Nat) : Prop where
  serial : serial ≤ maxMqSerialNumber
  above : mq.baseMsgid ≤ msgid
  below : msgid < mq.baseMsgid + maxMqueueCount.toNat

/-- A `Send` begins when nothing of its msgid is outstanding and no other waits for it; all
messages have serial numbers in range. -/
def StepAlone (s : AckNet) : AckOp → Prop
  | .send msgid serial =>
    mq.useMqAck = true ∧ InRange mq msgid serial ∧ s.outstanding mq msgid = [] ∧
      ∀ w ∈ s.waits, w.msgid ≠ msgid
  | .deliver _ dept serial => InRange mq dept serial
  | _ => True

def RunAlone (s : AckNet) : List AckOp → Prop
  | [] => True
  | op :: ops => StepAlone mq s op ∧ RunAlone (s.exec mq op) ops

/-! ## The invariant -/

variable {mq} {s s' : AckNet} {msgid serial n : Nat} {isAck success : Bool}

/-- What is composed of a msgid and a serial number is taken apart into them. -/
def Legible (mq : MqObj) (msgid serial : Nat) : Prop :=
  ∀ isAck success, decompose mq (compose mq msgid serial isAck success) =
    some ⟨msgid, serial, isAck, isAck && success⟩

theorem InRange.legible (h : InRange mq msgid serial) (hempty : mq.isEmpty = false)
    (hfits : mq.baseMsgid + maxMqueueCount.toNat ≤ chmInvalidMsgId) : Legible mq msgid serial := by
  have hcount : maxMqueueCount.toNat = 32768 := rfl
  have hbelow := h.below
  rw [hcount, chmInvalidMsgId] at hfits
  rw [hcount] at hbelow
  obtain ⟨offset, rfl⟩ := Nat.exists_eq_add_of_le h.above
  intro isAck success
  rw [decompose, compose, MqObj.base_of_notEmpty hempty]
  exact ChmEventMq.decompose_compose h.serial (by omega) (by omega)

theorem mem_outstanding :
    n ∈ s.outstanding mq msgid ↔
      (∃ c ∈ s.posted, ∃ x, decompose mq c = some x ∧ x.msgid = msgid ∧ x.number = n) ∨
      (∃ x ∈ s.inProcess, x.msgid = msgid ∧ x.number = n) ∨
      ∃ c ∈ s.queue msgid, ∃ x, decompose mq c = some x ∧ x.isAck = true ∧ x.number = n := by
  simp only [outstanding, List.mem_map, List.mem_append, List.mem_filter, List.mem_filterMap,
    decide_eq_true_eq]
  constructor
  · rintro ⟨x, (⟨⟨c, hc, hx⟩ | hx, hm⟩ | ⟨⟨c, hc, hx⟩, ha⟩), rfl⟩
    · exact Or.inl ⟨c, hc, x, hx, hm, rfl⟩
    · exact Or.inr (Or.inl ⟨x, hx, hm, rfl⟩)
    · exact Or.inr (Or.inr ⟨c, hc, x, hx, ha, rfl⟩)
  · rintro (⟨c, hc, x, hx, hm, rfl⟩ | ⟨x, hx, hm, rfl⟩ | ⟨c, hc, x, hx, ha, rfl⟩)
    · exact ⟨x, Or.inl ⟨Or.inl ⟨c, hc, hx⟩, hm⟩, rfl⟩
    · exact ⟨x, Or.inl ⟨Or.inr hx, hm⟩, rfl⟩
    · exact ⟨x, Or.inr ⟨⟨c, hc, hx⟩, ha⟩, rfl⟩

/-- What is on the way is legible, an ACK on a queue was sent for that msgid, and each
waiting `Send` can get none but its own. -/
structure Kept (mq : MqObj) (s : AckNet) : Prop where
  posted : ∀ c ∈ s.posted, ∃ msgid serial, Legible mq msgid serial ∧
    c = compose mq msgid serial false false
  inProcess : ∀ x ∈ s.inProcess, Legible mq x.msgid x.number
  queue : ∀ msgid, ∀ c ∈ s.queue msgid, ∀ x, decompose mq c = some x → x.isAck = true →
    (msgid, x.number, x.isAckSuccess) ∈ s.acks
  distinct : (s.waits.map (·.msgid)).Nodup
  alone : ∀ w ∈ s.waits, ∀ n ∈ s.outstanding mq w.msgid, n = w.serial
  trues : TruesAcked s

/-- A step that only takes away. -/
structure Fewer (s s' : AckNet) : Prop where
  posted : s'.posted ⊆ s.posted
  inProcess : s'.inProcess ⊆ s.inProcess
  queue : ∀ msgid, s'.queue msgid ⊆ s.queue msgid
  acks : s'.acks = s.acks

theorem Fewer.outstanding (h : Fewer s s') (hn : n ∈ s'.outstanding mq msgid) :
    n ∈ s.outstanding mq msgid := by
  rw [mem_outstanding] at hn ⊢
  rcases hn with ⟨c, hc, hx⟩ | ⟨x, hx, hm⟩ | ⟨c, hc, hx⟩
  · exact Or.inl ⟨c, h.posted hc, hx⟩
  · exact Or.inr (Or.inl ⟨x, h.inProcess hx, hm⟩)
  · exact Or.inr (Or.inr ⟨c, h.queue msgid hc, hx⟩)

theorem Kept.fewer (h : Kept mq s) (hf : Fewer s s') (hd : (s'.waits.map (·.msgid)).Nodup)
    (hw : ∀ w ∈ s'.waits, ∃ w₀ ∈ s.waits, w₀.msgid = w.msgid ∧ w₀.serial = w.serial)
    (ht : TruesAcked s') : Kept mq s' where
  posted c hc := h.posted c (hf.posted hc)
  inProcess x hx := h.inProcess x (hf.inProcess hx)
  queue msgid c hc x hx ha := by
    rw [hf.acks]
    exact h.queue msgid c (hf.queue msgid hc) x hx ha
  distinct := hd
  alone w hw' n hn := by
    obtain ⟨w₀, hw₀, hid, hserial⟩ := hw w hw'
    rw [← hserial]
    rw [← hid] at hn
    exact h.alone w₀ hw₀ n (hf.outstanding hn)
  trues := ht

theorem Fewer.refl (s : AckNet) : Fewer s s :=
  ⟨List.Subset.refl _, List.Subset.refl _, fun _ => List.Subset.refl _, rfl⟩

theorem fewer_pop (s : AckNet) (msgid : Nat) : Fewer s (s.pop msgid) := by
  refine ⟨List.Subset.refl _, List.Subset.refl _, fun msgid' => ?_, rfl⟩
  show Function.update s.queue msgid (s.queue msgid).tail msgid' ⊆ s.queue msgid'
  rw [Function.update_apply]
  split
  · subst_vars
    exact List.tail_subset _
  · exact List.Subset.refl _

/-- A waiting `Send` that goes on waiting. -/
theorem Kept.setWait (h : Kept mq s) (hf : Fewer s s') (hw : s'.waits = s.waits)
    (ht : s'.trues = s.trues) {i : Nat} {w : AckWait} (hi : s.waits[i]? = some w) (cnt : Nat) :
    Kept mq { s' with waits := s'.waits.set i { w with cnt := cnt } } := by
  have hfewer : Fewer s { s' with waits := s'.waits.set i { w with cnt := cnt } } :=
    ⟨hf.posted, hf.inProcess, hf.queue, hf.acks⟩
  refine h.fewer hfewer ?_ (fun w' hw' => ?_) fun r hr => ?_
  · have hlt : i < s.waits.length := (List.getElem?_eq_some_iff.mp hi).1
    have hget : s.waits[i] = w := (List.getElem?_eq_some_iff.mp hi).2
    show ((s'.waits.set i { w with cnt := cnt }).map (·.msgid)).Nodup
    rw [hw, List.map_set]
    have hsame : (s.waits.map (·.msgid)).set i w.msgid = s.waits.map (·.msgid) := by
      have hlt' : i < (s.waits.map (·.msgid)).length := by simpa using hlt
      have hmap : (s.waits.map (·.msgid))[i] = s.waits[i].msgid := List.getElem_map ..
      rw [← hget, ← hmap, List.set_getElem_self]
    rw [hsame]
    exact h.distinct
  · have hw'' : w' ∈ s'.waits.set i { w with cnt := cnt } := hw'
    rw [hw] at hw''
    rcases List.mem_or_eq_of_mem_set hw'' with hm | rfl
    · exact ⟨w', hm, rfl, rfl⟩
    · exact ⟨w, List.mem_of_getElem? hi, rfl, rfl⟩
  · have hr' : r ∈ s'.trues := hr
    rw [ht] at hr'
    show (r.1, r.2, true) ∈ s'.acks
    rw [hf.acks]
    exact h.trues r hr'

/-- A waiting `Send` that returns. -/
theorem Kept.finish (h : Kept mq s) (hf : Fewer s s') (hw : s'.waits = s.waits)
    (ht : s'.trues = s.trues) {i : Nat} {w : AckWait} {result : Bool}
    (hres : result = true → (w.msgid, w.serial, true) ∈ s.acks) :
    Kept mq (s'.finish i w result) := by
  have hfewer : Fewer s (s'.finish i w result) := ⟨hf.posted, hf.inProcess, hf.queue, hf.acks⟩
  refine h.fewer hfewer ?_ (fun w' hw' => ?_) fun r hr => ?_
  · show ((s'.waits.eraseIdx i).map (·.msgid)).Nodup
    rw [hw]
    exact h.distinct.sublist ((List.eraseIdx_sublist ..).map _)
  · have hw'' : w' ∈ s'.waits.eraseIdx i := hw'
    rw [hw] at hw''
    exact ⟨w', List.mem_of_mem_eraseIdx hw'', rfl, rfl⟩
  · show (r.1, r.2, true) ∈ s'.acks
    rw [hf.acks]
    have hr' : r ∈ if result then (w.msgid, w.serial) :: s'.trues else s'.trues := hr
    rw [ht] at hr'
    cases result with
    | false => exact h.trues r hr'
    | true =>
      rcases List.mem_cons.mp hr' with rfl | hr'
      · exact hres rfl
      · exact h.trues r hr'

/-! ## Steps -/

theorem send_kept (h : Kept mq s) (hlegible : Legible mq msgid serial) (hack : mq.useMqAck = true)
    (hnone : s.outstanding mq msgid = []) (hwaits : ∀ w ∈ s.waits, w.msgid ≠ msgid) :
    Kept mq (s.send mq msgid serial) := by
  have hs : s.send mq msgid serial =
      { s with
        posted := compose mq msgid serial false false :: s.posted
        waits := ⟨msgid, serial, 0⟩ :: s.waits } := by
    rw [send, hack, if_pos rfl]
  -- The new message is the only one of its msgid.
  have hout : ∀ {id m}, m ∈ (s.send mq msgid serial).outstanding mq id →
      m ∈ s.outstanding mq id ∨ id = msgid ∧ m = serial := by
    intro id m hm
    rw [hs, mem_outstanding] at hm
    rcases hm with ⟨c, hc, x, hx, hid, hm⟩ | hm | hm
    · rcases List.mem_cons.mp hc with rfl | hc
      · rw [hlegible] at hx
        obtain rfl := Option.some.inj hx
        exact Or.inr ⟨hid.symm, hm.symm⟩
      · exact Or.inl (mem_outstanding.mpr (Or.inl ⟨c, hc, x, hx, hid, hm⟩))
    · exact Or.inl (mem_outstanding.mpr (Or.inr (Or.inl hm)))
    · exact Or.inl (mem_outstanding.mpr (Or.inr (Or.inr hm)))
  constructor
  · rw [hs]
    intro c hc
    rcases List.mem_cons.mp hc with rfl | hc
    · exact ⟨msgid, serial, hlegible, rfl⟩
    · exact h.posted c hc
  · rw [hs]
    exact h.inProcess
  · rw [hs]
    exact h.queue
  · rw [hs]
    show (msgid :: s.waits.map (·.msgid)).Nodup
    rw [List.nodup_cons]
    refine ⟨fun hm => ?_, h.distinct⟩
    obtain ⟨w, hw, hid⟩ := List.mem_map.mp hm
    exact hwaits w hw hid
  · intro w hw m hm
    rw [hs] at hw
    rcases List.mem_cons.mp hw with rfl | hw
    · rcases hout hm with hm | ⟨-, hm⟩
      · rw [hnone] at hm
        cases hm
      · exact hm
    · rcases hout hm with hm | ⟨hid, -⟩
      · exact h.alone w hw m hm
      · exact absurd hid (hwaits w hw)
  · rw [hs]
    exact h.trues

theorem take_kept (h : Kept mq s) (i : Nat) : Kept mq (s.take mq i) := by
  rw [take]
  cases hi : s.posted[i]? with
  | none => exact h
  | some c =>
    have hmem := List.mem_of_getElem? hi
    obtain ⟨msgid, serial, hlegible, rfl⟩ := h.posted c hmem
    have hdec := hlegible false false
    dsimp only
    rw [hdec]
    have hsub : ∀ c, c ∈ s.posted.eraseIdx i → c ∈ s.posted := fun c => List.mem_of_mem_eraseIdx
    refine ⟨fun c hc => h.posted c (hsub c hc), fun x hx => ?_, h.queue, h.distinct,
      fun w hw n hn => ?_, h.trues⟩
    · rcases List.mem_cons.mp hx with rfl | hx
      · exact hlegible
      · exact h.inProcess x hx
    · refine h.alone w hw n ?_
      rw [mem_outstanding] at hn ⊢
      rcases hn with ⟨c, hc, hx⟩ | ⟨x, hx, hid, hn⟩ | hn
      · exact Or.inl ⟨c, hsub c hc, hx⟩
      · rcases List.mem_cons.mp hx with rfl | hx
        · exact Or.inl ⟨_, hmem, _, hdec, hid, hn⟩
        · exact Or.inr (Or.inl ⟨x, hx, hid, hn⟩)
      · exact Or.inr (Or.inr hn)

theorem mem_push {id c composed : Nat} :
    c ∈ (s.push msgid composed).queue id ↔ c ∈ s.queue id ∨ id = msgid ∧ c = composed := by
  show c ∈ Function.update s.queue msgid (s.queue msgid ++ [composed]) id ↔ _
  rw [Function.update_apply]
  by_cases hid : id = msgid
  · subst hid
    simp
  · simp [hid]

theorem answer_kept (h : Kept mq s) (i : Nat) (success : Bool) :
    Kept mq (s.answer mq i success) := by
  rw [answer]
  cases hi : s.inProcess[i]? with
  | none => exact h
  | some composed =>
    have hmem := List.mem_of_getElem? hi
    have hlegible := h.inProcess composed hmem
    have hsub : ∀ x, x ∈ s.inProcess.eraseIdx i → x ∈ s.inProcess := fun x =>
      List.mem_of_mem_eraseIdx
    dsimp only
    refine ⟨h.posted, fun x hx => h.inProcess x (hsub x hx), fun msgid c hc x hx ha => ?_,
      h.distinct, fun w hw n hn => ?_, fun r hr => List.mem_cons_of_mem _ (h.trues r hr)⟩
    · rcases mem_push.mp hc with hc | ⟨rfl, rfl⟩
      · exact List.mem_cons_of_mem _ (h.queue msgid c hc x hx ha)
      · rw [hlegible] at hx
        obtain rfl := Option.some.inj hx
        exact List.mem_cons_self
    · refine h.alone w hw n ?_
      rw [mem_outstanding] at hn ⊢
      rcases hn with hn | ⟨x, hx, hn⟩ | ⟨c, hc, x, hx, ha, hn⟩
      · exact Or.inl hn
      · exact Or.inr (Or.inl ⟨x, hsub x hx, hn⟩)
      · rcases mem_push.mp hc with hc | ⟨hid, rfl⟩
        · exact Or.inr (Or.inr ⟨c, hc, x, hx, ha, hn⟩)
        · -- The ACK is on the way where the message was.
          rw [hlegible] at hx
          obtain rfl := Option.some.inj hx
          exact Or.inr (Or.inl ⟨composed, hmem, hid.symm, hn⟩)

theorem drop_kept (h : Kept mq s) (i : Nat) : Kept mq (s.drop i) :=
  h.fewer ⟨List.Subset.refl _, fun _ => List.mem_of_mem_eraseIdx, fun _ => List.Subset.refl _, rfl⟩
    h.distinct (fun w hw => ⟨w, hw, rfl, rfl⟩) h.trues

theorem deliver_kept (h : Kept mq s) {dept : Nat} (hlegible : Legible mq dept serial) :
    Kept mq (s.push msgid (compose mq dept serial false false)) := by
  have hnot : ∀ {x}, decompose mq (compose mq dept serial false false) = some x →
      x.isAck = true → False := by
    intro x hx ha
    rw [hlegible] at hx
    obtain rfl := Option.some.inj hx
    cases ha
  refine ⟨h.posted, h.inProcess, fun id c hc x hx ha => ?_, h.distinct, fun w hw n hn => ?_,
    h.trues⟩
  · rcases mem_push.mp hc with hc | ⟨-, rfl⟩
    · exact h.queue id c hc x hx ha
    · exact (hnot hx ha).elim
  · refine h.alone w hw n ?_
    rw [mem_outstanding] at hn ⊢
    rcases hn with hn | hn | ⟨c, hc, x, hx, ha, hn⟩
    · exact Or.inl hn
    · exact Or.inr (Or.inl hn)
    · rcases mem_push.mp hc with hc | ⟨-, rfl⟩
      · exact Or.inr (Or.inr ⟨c, hc, x, hx, ha, hn⟩)
      · exact (hnot hx ha).elim

theorem receive_kept (h : Kept mq s) (msgid : Nat) : Kept mq (s.pop msgid) :=
  h.fewer (fewer_pop s msgid) h.distinct (fun w hw => ⟨w, hw, rfl, rfl⟩) h.trues

/-- A turn that finishes with true has taken a success ACK off the queue. -/
theorem ack_of_finished {mqfd : Int} {l : List Nat}
    (h : mq.ackTurn mqfd (pollOf l) = .finished true) :
    ∃ c ∈ l, ∃ x, decompose mq c = some x ∧ x.isAck = true ∧ x.isAckSuccess = true := by
  have hfd : mq.isEventQueueFd mqfd = true := by
    by_contra hfd
    rw [MqObj.ackTurn, MqObj.receiveComposedMsgid.eq_def, if_pos (by simpa using hfd)] at h
    cases h
  cases l with
  | nil =>
    rw [pollOf, MqObj.ackTurn, MqObj.receiveComposedMsgid, hfd] at h
    cases h
  | cons c l =>
    refine ⟨c, List.mem_cons_self, ?_⟩
    have hreceive : mq.receiveComposedMsgid mqfd (.entry c) = (decompose mq c, false) := by
      rw [MqObj.receiveComposedMsgid, hfd]
      rfl
    rw [pollOf, MqObj.ackTurn, hreceive] at h
    cases hx : decompose mq c with
    | none =>
      rw [hx] at h
      cases h
    | some x =>
      rw [hx] at h
      dsimp only at h
      by_cases ha : x.isAck = true
      · rw [if_pos ha] at h
        exact ⟨x, rfl, ha, MqObj.AckTurn.finished.inj h⟩
      · rw [if_neg ha] at h
        cases h

theorem poll_kept (h : Kept mq s) (i : Nat) : Kept mq (s.poll mq i) := by
  rw [poll]
  cases hi : s.waits[i]? with
  | none => exact h
  | some w =>
    have hmem := List.mem_of_getElem? hi
    dsimp only
    split
    · exact h.finish (Fewer.refl s) rfl rfl (fun hr => by cases hr)
    · cases hfd : mq.recvIdfd.lookup w.msgid with
      | none => exact h.finish (Fewer.refl s) rfl rfl (fun hr => by cases hr)
      | some mqfd =>
        dsimp only
        have hpop : Fewer s (if mq.isEventQueueFd mqfd then s.pop w.msgid else s) ∧
            (if mq.isEventQueueFd mqfd then s.pop w.msgid else s).waits = s.waits ∧
            (if mq.isEventQueueFd mqfd then s.pop w.msgid else s).trues = s.trues := by
          split
          · exact ⟨fewer_pop s w.msgid, rfl, rfl⟩
          · exact ⟨Fewer.refl s, rfl, rfl⟩
        obtain ⟨hfewer, hwaits, htrues⟩ := hpop
        cases hturn : mq.ackTurn mqfd (pollOf (s.queue w.msgid)) with
        | finished result =>
          refine h.finish hfewer hwaits htrues fun hr => ?_
          subst hr
          obtain ⟨c, hc, x, hx, ha, hsuccess⟩ := ack_of_finished hturn
          have hserial := h.alone w hmem x.number
            (mem_outstanding.mpr (Or.inr (Or.inr ⟨c, hc, x, hx, ha, rfl⟩)))
          have hack := h.queue w.msgid c hc x hx ha
          rwa [hsuccess, hserial] at hack
        | wait => exact h.setWait hfewer hwaits htrues hi _
        | request composed => exact h.setWait hfewer hwaits htrues hi _

theorem exec_kept (h : Kept mq s) (hempty : mq.isEmpty = false)
    (hfits : mq.baseMsgid + maxMqueueCount.toNat ≤ chmInvalidMsgId) {op : AckOp}
    (hop : StepAlone mq s op) : Kept mq (s.exec mq op) := by
  cases op with
  | send msgid serial =>
    obtain ⟨hack, hrange, hnone, hwaits⟩ := hop
    exact send_kept h (hrange.legible hempty hfits) hack hnone hwaits
  | take i => exact take_kept h i
  | answer i success => exact answer_kept h i success
  | drop i => exact drop_kept h i
  | deliver msgid dept serial => exact deliver_kept h (InRange.legible hop hempty hfits)
  | poll i => exact poll_kept h i
  | receive msgid => exact receive_kept h msgid

theorem start_kept : Kept mq start := by
  constructor
  · intro c hc
    cases hc
  · intro c hc
    cases hc
  · intro msgid c hc
    cases hc
  · exact List.nodup_nil
  · intro w hw
    cases hw
  · intro r hr
    cases hr

/-- In every run in which a `Send` begins only when nothing of its msgid is on the way, a
`Send` that returns true was answered by a success ACK with its own serial number. -/
theorem run_truesAcked (hempty : mq.isEmpty = false)
    (hfits : mq.baseMsgid + maxMqueueCount.toNat ≤ chmInvalidMsgId) {ops : List AckOp}
    (hops : RunAlone mq start ops) : TruesAcked (start.run mq ops) := by
  suffices hkept : ∀ s, Kept mq s → RunAlone mq s ops → Kept mq (s.run mq ops) from
    (hkept start start_kept hops).trues
  clear hops
  induction ops with
  | nil => exact fun s hs _ => hs
  | cons op ops ih =>
    intro s hs hops
    exact ih (s.exec mq op) (exec_kept hs hempty hfits hops.1) hops.2

/-! ### An ACK in time, and one that is late -/

instance decInRange (mq : MqObj) (msgid serial : Nat) : Decidable (InRange mq msgid serial) :=
  decidable_of_iff (serial ≤ maxMqSerialNumber ∧ mq.baseMsgid ≤ msgid ∧
    msgid < mq.baseMsgid + maxMqueueCount.toNat)
    ⟨fun h => ⟨h.1, h.2.1, h.2.2⟩, fun h => ⟨h.serial, h.above, h.below⟩⟩

instance decStepAlone (mq : MqObj) (s : AckNet) : DecidablePred (StepAlone mq s)
  | .send .. => inferInstanceAs (Decidable (_ ∧ _))
  | .deliver _ dept serial => decInRange mq dept serial
  | .take _ | .answer .. | .drop _ | .poll _ | .receive _ => .isTrue trivial

instance decRunAlone (mq : MqObj) (s : AckNet) : DecidablePred (RunAlone mq s)
  | [] => .isTrue trivial
  | op :: ops => @instDecidableAnd _ _ (decStepAlone mq s op) (decRunAlone mq (s.exec mq op) ops)

/-- A message that is answered while another comes. -/
def sampleAckOps : List AckOp :=
  [.send (2 ^ 32 + 1) 5, .deliver (2 ^ 32 + 1) (2 ^ 32) 8, .poll 0, .take 0, .answer 0 true,
    .poll 0, .send (2 ^ 32 + 1) 6]

/-- The first `Send` has timed out when its ACK comes, and the second takes it. -/
def lateAckOps : List AckOp :=
  [.send (2 ^ 32 + 1) 5, .poll 0, .poll 0, .poll 0, .poll 0, .take 0, .answer 0 true,
    .send (2 ^ 32 + 1) 6, .poll 0]

theorem run_truesAcked_sample : TruesAcked (start.run MqObj.sampleClientMq sampleAckOps) :=
  run_truesAcked rfl (by decide) (by decide)

theorem lateAck_true :
    let s := start.run MqObj.sampleClientMq lateAckOps
    s.trues = [(2 ^ 32 + 1, 6)] ∧ s.acks = [(2 ^ 32 + 1, 5, true)] ∧ ¬ TruesAcked s := by
  have ht : (start.run MqObj.sampleClientMq lateAckOps).trues = [(2 ^ 32 + 1, 6)] := by decide
  have ha : (start.run MqObj.sampleClientMq lateAckOps).acks = [(2 ^ 32 + 1, 5, true)] := by decide
  refine ⟨ht, ha, fun hacked => ?_⟩
  have hmem := hacked (2 ^ 32 + 1, 6) (by rw [ht]; exact List.mem_cons_self)
  rw [ha] at hmem
  simp at hmem

end AckNet
end Chm
