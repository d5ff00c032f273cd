/-
MERGE_COMPLETE at a server.

A server checks its own status, sends the packet on with the result, and then either
completes its merge or starts a lap of its own.  The departure takes the servers that are
down and deleted out of service before it completes.
-/
import Chm.EventSock

namespace Chm

namespace EventSock

/-! ## Receiving -/

/-- The answer to the own status: the result that is sent on, and whether this node goes on
to complete its merge. -/
def answerMergeComplete (status : ChmpxSts) : Bool × Bool :=
  if status.isSrvin then
    if status.isUp then
      if status.isNoact then
        if status.isSuspend then (false, false)
        else if status.isDoing then (false, false)
        else (true, true)
      else if status.isAdd then
        -- A pending server may be suspended.
        if !status.isPending && status.isSuspend then (false, false)
        else if status.isDoing then (false, false)
        else (true, true)
      else if status.isDelete then
        if !status.isDone && status.isSuspend then (false, false)
        else if status.isDoing then (false, false)
        else (true, true)
      else (true, false)
    else if status.isDown then (true, true)
    else (true, false)
  else (true, true)

/-- The loop of the departure over the servers that are down and deleted.  Each turn leaves
one of them less. -/
def serviceOutDeleted (io : Outside) (next : ChmpxId) : Nat → EventSock → Bool × EventSock
  | 0, s => (true, s)
  | fuel + 1, s =>
    let down := s.man.getChmpxIdByStatus ChmpxSts.srvinDownDeleted
    if down = chmInvalidChmpxId then (true, s)
    else
      let (ok, s) := s.setServerStatus io down ChmpxSts.srvoutDownNormal
      if !ok then (false, s)
      else
        match s.man.getChmpxSvr down with
        | none => (false, s)
        | some svr =>
          let (ok, s) := s.noticeStatus io next svr
          if !ok then (false, s) else serviceOutDeleted io next fuel s

/-- What `PxComReceiveMergeComplete` leaves: the packet to send on and `is_completed`. -/
structure CompleteAnswer where
  pkt : Option ComPkt
  isCompleted : Bool

/-- `PxComReceiveMergeComplete`. -/
def pxComReceiveMergeComplete (io : Outside) (dept : ChmpxId) (result : Bool) (s : EventSock) :
    Bool × CompleteAnswer × EventSock :=
  if dept = s.man.getSelfChmpxId then
    if result then
      let (next, s) := s.getNextRingChmpxId io
      let (ok, s) := serviceOutDeleted io next (s.man.chmpxCount + 1) s
      (ok, ⟨none, true⟩, s)
    else (true, ⟨none, false⟩, s)
  else
    let (next, s) := s.getNextRingChmpxId io
    if next = chmInvalidChmpxId then (false, ⟨none, false⟩, s)
    else if !isSafeDeptAndNextChmpxId s.man dept next then (true, ⟨none, false⟩, s)
    else
      let (answer, isCompleted) :=
        if result then answerMergeComplete s.man.getSelfStatus else (false, false)
      (true, ⟨some ⟨.v2, dept, next, .mergeComplete answer⟩, isCompleted⟩, s)

/-! ## Automatic merging -/

/-- `RequestServiceIn`. -/
def requestServiceIn (io : Outside) (s : EventSock) : Bool × EventSock :=
  if !s.isServerMode then (false, s)
  else if s.man.isOperating then (false, s)
  else
    let status := s.man.getSelfStatus.changeToSrvin
    if status = s.man.getSelfStatus then (false, s)
    else
      let (ok, s) := s.setSelfStatus io status
      if !ok then (false, s)
      else
        let (ok, s) := s.updateHash io .pending
        if !ok then (false, s)
        else
          match s.man.getSelfChmpxSvr with
          | none => (false, s)
          | some svr =>
            let (chmpxid, s) := s.getNextRingChmpxId io
            s.noticeStatus io chmpxid svr

/-- The part of `ContinuousAutoMerge` for a service in that is pending since the start:
whether it goes on. -/
def pendingServiceIn (io : Outside) (s : EventSock) : Bool × EventSock :=
  let status := s.man.getSelfStatus
  if status.isSrvout && status.isUp && status.isNoact && status.isNothing then
    if status.isSuspend then (false, s)
    else
      let (ok, s) := s.requestServiceIn io
      if !ok then (false, s) else (true, { s with startupServicein := false })
  else (true, { s with startupServicein := false })

/-- `ContinuousAutoMerge`. -/
def continuousAutoMerge (io : Outside) (s : EventSock) : Bool × EventSock :=
  if !s.isServerMode then (false, s)
  else if !s.isAutoMerge && !s.startupServicein then (true, s)
  else if s.man.isOperating then (true, s)
  else
    let (goes, s) := if s.startupServicein then s.pendingServiceIn io else (true, s)
    if !goes then (true, s) else s.requestMergeStart io

/-! ## Processing -/

/-- The lap that a server starts when it has not completed. -/
def retryMergeComplete (io : Outside) (s : EventSock) : EventSock :=
  let (next, s) := s.getNextRingChmpxId io
  if next = chmInvalidChmpxId then s
  else
    let (_, s) := s.updateSelfLastStatusTime io
    match s.man.getSelfChmpxSvr with
    | none => s
    | some svr =>
      let (ok, s) := s.pxComSendStatusChange io next svr
      if !ok then s else (s.pxComSendMergeComplete io next).2

/-- A server that is down and deleted, or to be. -/
def downToDelete (m : ChmpxMan) : ChmpxId :=
  let deleted := m.getChmpxIdByStatus ChmpxSts.srvinDownDeleted
  if deleted ≠ chmInvalidChmpxId then deleted
  else m.getChmpxIdByStatus ChmpxSts.srvinDownDelpending

/-- The loop of the departure after its own merge is complete.  Each success leaves one server
less.  What fails is tried again, in the source without end. -/
def serviceOutDown (io : Outside) (next : ChmpxId) : Nat → EventSock → EventSock
  | 0, s => s
  | fuel + 1, s =>
    let down := downToDelete s.man
    if down = chmInvalidChmpxId then s
    else
      let (ok, s) := s.setServerBaseHash io down chmInvalidHashVal
      let (ok, s) := if ok then s.setServerStatus io down ChmpxSts.srvoutDownNormal else (ok, s)
      if !ok then serviceOutDown io next fuel s
      else
        match s.man.getChmpxSvr down with
        | none => serviceOutDown io next fuel s
        | some svr => serviceOutDown io next fuel (s.noticeStatus io next svr).2

/-- `Processing` of MERGE_COMPLETE at a server that completes. -/
def processCompleted (io : Outside) (dept : ChmpxId) (s : EventSock) : EventSock :=
  let (ok, s) := s.mergeComplete io
  let s := if ok ∧ dept = s.man.getSelfChmpxId then
      serviceOutDown io s.man.getNextRingChmpxId (s.man.chmpxCount + 1) s
    else s
  (s.continuousAutoMerge io).2

/-- The start of `Processing` of MERGE_COMPLETE: the packet is sent on.  The second result is
`is_completed`. -/
def receiveAndSend (io : Outside) (dept : ChmpxId) (result : Bool) (s : EventSock) :
    Bool × Bool × EventSock :=
  let (ok, answer, s) := s.pxComReceiveMergeComplete io dept result
  if !ok then (false, answer.isCompleted, s)
  else
    match answer.pkt with
    | none => (true, answer.isCompleted, s)
    | some pkt =>
      let (ok, s) := s.send io pkt
      (ok, answer.isCompleted, s)

/-- `Processing` of MERGE_COMPLETE. -/
def processMergeComplete (io : Outside) (dept : ChmpxId) (result : Bool) (s : EventSock) :
    Bool × EventSock :=
  let (ok, isCompleted, s) := s.receiveAndSend io dept result
  if !ok then (false, s)
  else if !isCompleted then (true, s.retryMergeComplete io)
  else (true, s.processCompleted io dept)

end EventSock
end Chm
