/-
The queues that a client receives from: three maps between msgids and descriptors, the
msgids of the shared area, and what has been opened, closed, assigned and freed.

`recv_fdid_map` closes a queue and frees its msgid when it loses an element, and takes the
element out of `recv_idfd_map`; `reserve_idfd_map` holds the queues that are not activated.
What the system answers, `mq_open` above all, is a parameter; a descriptor is not given
twice while it is open.  The notices that are sent to the chmpx process are left out: they
do not go through these maps.
-/
import Chm.Lib.Inverse
import Chm.MqRuns

namespace Chm

/-! ## `chm_lock_map` -/

/-- `chm_lock_map`. -/
abbrev LockMap (κ α : Type) := AList fun _ : κ => α

namespace LockMap

variable {κ α : Type} [LinearOrder κ]

/-- `get_keys`, in the order of the keys. -/
def getKeys (m : LockMap κ α) : List κ := m.keys.mergeSort fun k k' => decide (k ≤ k')

theorem mem_getKeys {m : LockMap κ α} {k : κ} : k ∈ m.getKeys ↔ k ∈ m.keys :=
  List.mem_mergeSort

end LockMap

def chmInvalidHandle : Int := -1

/-- The members of `ChmEventMq` about the queues that it receives from, with the area that
its process is attached to. -/
structure RecvMq where
  isEmpty : Bool
  isClientOnSlv : Bool
  pid : Nat
  mqPerAttach : Int
  msgs : MsgInfo
  recvIdfd : LockMap Nat Int
  recvFdid : LockMap Int Nat
  reserveIdfd : LockMap Nat Int
  /-- The msgids that `AssignMsg` returned, and those that `FreeMsg` took back. -/
  assigned : List Nat
  freed : List Nat
  /-- The descriptors that `mq_open` returned, and those that were closed. -/
  opened : List Int
  closed : List Int

/-- What the system answers when a queue is made: whether the group has a name, the result
of the last `mq_open`, and whether `epoll_ctl` takes the descriptor. -/
structure Attempt where
  path : Bool
  mqfd : Int
  added : Bool

/-- The answers of the system.  A descriptor that is open is not given again. -/
structure MqSystem where
  attempt : RecvMq → Attempt
  fresh : ∀ s, (attempt s).mqfd ∉ s.recvFdid.keys

namespace RecvMq

/-! ## Closing -/

def mqClose (mqfd : Int) (s : RecvMq) : RecvMq := { s with closed := mqfd :: s.closed }

/-- `ChmIMData::FreeMsg`. -/
def freeMsg (msgid : Nat) (s : RecvMq) : RecvMq :=
  let (result, msgs) := s.msgs.freeMsg msgid
  { s with msgs := msgs, freed := if result then msgid :: s.freed else s.freed }

/-- `FreeMsgIds`. -/
def freeMsgIds (msgid : Nat) (mqfd : Int) (s : RecvMq) : RecvMq :=
  if msgid = chmInvalidMsgId ∨ mqfd = chmInvalidHandle ∨ s.isEmpty then s
  else (s.mqClose mqfd).freeMsg msgid

/-- `RcvfdIdMapCallback`. -/
def rcvfdIdMapCallback (mqfd : Int) (msgid : Nat) (s : RecvMq) : RecvMq :=
  let s := s.freeMsgIds msgid mqfd
  { s with recvIdfd := s.recvIdfd.erase msgid }

/-- `recv_fdid_map.erase`. -/
def eraseRecvFdid (s : RecvMq) (mqfd : Int) : RecvMq :=
  match s.recvFdid.lookup mqfd with
  | none => s
  | some msgid =>
    let s := s.rcvfdIdMapCallback mqfd msgid
    { s with recvFdid := s.recvFdid.erase mqfd }

/-! ## Opening -/

/-- `recv_idfd_map.set` and `recv_fdid_map.set`, which may overwrite. -/
def setRecv (msgid : Nat) (mqfd : Int) (s : RecvMq) : RecvMq :=
  let s := { s with recvIdfd := s.recvIdfd.insert msgid mqfd }
  let s := match s.recvFdid.lookup mqfd with
    | none => s
    | some old => s.rcvfdIdMapCallback mqfd old
  { s with recvFdid := s.recvFdid.insert mqfd msgid }

/-- `reserve_idfd_map.set`. -/
def setReserve (msgid : Nat) (mqfd : Int) (allowOw : Bool) (s : RecvMq) : RecvMq :=
  if !allowOw && decide (msgid ∈ s.reserveIdfd) then s
  else { s with reserveIdfd := s.reserveIdfd.insert msgid mqfd }

/-- One turn of the loop of `SetEventQueue`. -/
def attach (sys : MqSystem) (s : RecvMq) : Bool × RecvMq :=
  let (newmsgid, msgs) := s.msgs.assignMsg s.pid false (!s.isClientOnSlv)
  let io := sys.attempt s
  let s := { s with msgs := msgs }
  if newmsgid = chmInvalidMsgId then (false, s)
  else
    let s := { s with assigned := newmsgid :: s.assigned }
    if !io.path || decide (io.mqfd = chmInvalidHandle) then (false, s.freeMsg newmsgid)
    else
      let s := { s with opened := io.mqfd :: s.opened }
      if !io.added then (false, (s.mqClose io.mqfd).freeMsg newmsgid)
      else
        let s := s.setRecv newmsgid io.mqfd
        (true, if s.isClientOnSlv then s.setReserve newmsgid io.mqfd false else s)

def attachLoop (sys : MqSystem) : Nat → RecvMq → Bool × RecvMq
  | 0, s => (true, s)
  | cnt + 1, s =>
    let (result, s) := s.attach sys
    if result then attachLoop sys cnt s else (false, s)

/-- `SetEventQueue` of a client. -/
def setEventQueue (sys : MqSystem) (s : RecvMq) : Bool × RecvMq :=
  if s.isEmpty then (false, s) else attachLoop sys s.mqPerAttach.toNat s

/-! ## Activation -/

/-- `ActivatedMsgId` after there is a reserved queue. -/
def activateReserve (s : RecvMq) : Nat × RecvMq :=
  match s.reserveIdfd.getKeys.head? with
  | none => (chmInvalidMsgId, s)
  | some msgid =>
    if msgid = chmInvalidMsgId then (chmInvalidMsgId, s)
    else
      let (result, msgs) := s.msgs.setMqActivated s.pid msgid
      let s := { s with msgs := msgs }
      if !result then (chmInvalidMsgId, s)
      else (msgid, { s with reserveIdfd := s.reserveIdfd.erase msgid })

/-- `ActivatedMsgId`. -/
def activatedMsgId (sys : MqSystem) (s : RecvMq) : Nat × RecvMq :=
  if s.isEmpty || !s.isClientOnSlv then (chmInvalidMsgId, s)
  else if s.reserveIdfd.keys = [] then
    let (result, s) := s.setEventQueue sys
    if !result || s.reserveIdfd.keys = [] then (chmInvalidMsgId, s) else s.activateReserve
  else s.activateReserve

/-- One turn of the loop of `FreeReserveMsgIds`. -/
def dropReserve (s : RecvMq) (msgid : Nat) : RecvMq :=
  match s.reserveIdfd.lookup msgid with
  | none => s
  | some mqfd =>
    let s := s.eraseRecvFdid mqfd
    { s with reserveIdfd := s.reserveIdfd.erase msgid }

/-- How many queues `FreeReserveMsgIds` closes. -/
def toCloseCnt (s : RecvMq) : Int :=
  let perAttach := if s.mqPerAttach ≤ 0 then 1 else s.mqPerAttach
  let recvCnt : Int := s.recvIdfd.keys.length
  let reserveCnt : Int := s.reserveIdfd.keys.length
  let activatedCnt := recvCnt - reserveCnt
  let lestCnt := activatedCnt.tdiv perAttach * perAttach +
    if activatedCnt.tmod perAttach = 0 then 0 else 1
  if reserveCnt < recvCnt - lestCnt then reserveCnt else recvCnt - lestCnt

/-- `FreeReserveMsgIds`. -/
def freeReserveMsgIds (s : RecvMq) : RecvMq :=
  if s.isEmpty || !s.isClientOnSlv then s
  else (s.reserveIdfd.getKeys.take s.toCloseCnt.toNat).foldl dropReserve s

/-- `DisactivatedMsgId`.  The descriptor that it reserves is the result of `find`, a truth
value. -/
def disactivatedMsgId (msgid : Nat) (s : RecvMq) : Bool × RecvMq :=
  if msgid = chmInvalidMsgId || s.isEmpty || !s.isClientOnSlv then (false, s)
  else
    let mqfd : Int := if msgid ∈ s.recvIdfd then 1 else 0
    if mqfd = chmInvalidHandle then (false, s)
    else
      let (result, msgs) := s.msgs.setMqDisactivated s.pid msgid
      let s := { s with msgs := msgs }
      if !result then (false, s)
      else (true, (s.setReserve msgid mqfd true).freeReserveMsgIds)

/-- `Clean`. -/
def clean (s : RecvMq) : RecvMq :=
  if s.isEmpty then s
  else
    let s := s.recvFdid.getKeys.foldl eraseRecvFdid s
    { s with reserveIdfd := ∅, isEmpty := true }

/-! ## Runs -/

inductive QueueOp
  | setEventQueue
  | activatedMsgId
  | disactivatedMsgId (msgid : Nat)
  | freeReserveMsgIds
  | clean

def exec (sys : MqSystem) (s : RecvMq) : QueueOp → RecvMq
  | .setEventQueue => (s.setEventQueue sys).2
  | .activatedMsgId => (s.activatedMsgId sys).2
  | .disactivatedMsgId msgid => (s.disactivatedMsgId msgid).2
  | .freeReserveMsgIds => s.freeReserveMsgIds
  | .clean => s.clean

def run (sys : MqSystem) (s : RecvMq) (ops : List QueueOp) : RecvMq := ops.foldl (exec sys) s

/-- A `ChmEventMq` that has no queue yet. -/
def start (isClientOnSlv : Bool) (pid : Nat) (mqPerAttach : Int) (msgs : MsgInfo) : RecvMq where
  isEmpty := false
  isClientOnSlv := isClientOnSlv
  pid := pid
  mqPerAttach := mqPerAttach
  msgs := msgs
  recvIdfd := ∅
  recvFdid := ∅
  reserveIdfd := ∅
  assigned := []
  freed := []
  opened := []
  closed := []

/-! ## What is wanted -/

/-- A msgid that is assigned and not activated. -/
def Disactivated (m : MsgInfo) (msgid : Nat) : Prop :=
  ∃ p, m.find msgid = some p ∧ (m.msghead p).flag.isAssigned = true ∧
    (m.msghead p).flag.isActivated = false

/-- The maps of msgids and of descriptors are inverse, the reserved queues are those that
are not activated, and what was opened or assigned is in the maps, or was closed or freed
once. -/
structure QueuesKept (s : RecvMq) : Prop where
  inverse : Inverse s.recvIdfd s.recvFdid
  reserve : ∀ msgid mqfd, s.reserveIdfd.lookup msgid = some mqfd ↔
    s.recvIdfd.lookup msgid = some mqfd ∧ Disactivated s.msgs msgid
  closed : s.opened.Perm (s.recvFdid.keys ++ s.closed)
  freed : s.assigned.Perm (s.recvIdfd.keys ++ s.freed)

end RecvMq
end Chm
