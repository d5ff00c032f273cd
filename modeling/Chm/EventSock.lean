/-
The merge functions of `ChmEventSock`.

The event socket calls the manager, sends packets and keeps a few flags and the map of
the servers that a merge waits for.  What a call meets outside, the clock, the answers
of the network and of the threads, is indexed by the number of the call, so that two
calls of one step need not agree.  The manager changes only through `call`.  A send that
finds its socket broken reports the hang-up later, as a step of its own.
-/
import Chm.AreaRuns
import Chm.ImData
import Chm.Routing

namespace Chm

/-! ## Packets -/

/-- The communication protocol of a packet, `COM_VERSION_1` or the current one. -/
inductive ComVersion
  | v1
  | v2
  deriving DecidableEq, Repr

/-- `CVT_PCHMPXSVR_TO_PCHMPXSVRV1` and back: what the old record does not hold is blank. -/
def ChmpxSvr.toV1 (svr : ChmpxSvr) : ChmpxSvr :=
  { svr with
    cuk := []
    customSeed := []
    endpoints := List.replicate externalEpMax ⟨[], chmInvalidPort⟩
    ctlendpoints := List.replicate externalEpMax ⟨[], chmInvalidPort⟩
    forwardPeers := List.replicate externalEpMax ⟨[], chmInvalidPort⟩
    reversePeers := List.replicate externalEpMax ⟨[], chmInvalidPort⟩ }

/-- A record as it is read from a packet of a version. -/
def ComVersion.carry (ver : ComVersion) (svr : ChmpxSvr) : ChmpxSvr :=
  match ver with
  | .v1 => svr.toV1
  | .v2 => svr

/-- The packets of a merge that go around the ring.  `result` says `CHMPX_COM_RES_SUCCESS`. -/
inductive PxCom
  | statusConfirm (result : Bool) (svrs : List ChmpxSvr)
  | statusChange (result : Bool) (server : ChmpxSvr)
  | mergeStart (result : Bool)
  | mergeAbort (result : Bool)
  | mergeComplete (result : Bool)
  deriving DecidableEq, Repr

/-- `COMPKT`: its version, `dept_ids` and `term_ids` chmpxids, and what it carries. -/
structure ComPkt where
  version : ComVersion
  dept : ChmpxId
  term : ChmpxId
  body : PxCom
  deriving DecidableEq, Repr

/-! ## The event socket -/

/-- What the calls of a step meet outside, by the number of the call. -/
structure Outside where
  env : Nat → Env
  cfg : Nat → ChmCfgInfo
  isClientJoin : Nat → Bool
  /-- `Send` reaches its terminal. -/
  sends : Nat → Bool
  /-- The socket that `RawConnectServer` opens. -/
  connects : Nat → Option Int
  /-- What `malloc` leaves in the array of a call. -/
  heap : Nat → Nat → ChmpxSvr
  hasThread : Nat → Bool
  doWorkThread : Nat → Bool

/-- `CHMPX_COM_REQ_UPDATE_*`. -/
inductive ReqUpdate
  | inival
  | doing
  | noact
  | success
  | fail
  deriving DecidableEq, Repr

structure EventSock where
  man : ChmpxMan
  eqfd : Bool
  comprotoVer : ComVersion
  isServerMode : Bool
  /-- `IsAutoMerge` and `IsDoMerge` of the shared area. -/
  isAutoMerge : Bool
  isDoMerge : Bool
  isRunMerge : Bool
  isMergeDoneProcessing : Bool
  startupServicein : Bool
  mergeidmap : List (ChmpxId × ReqUpdate)
  /-- The packets sent so far, oldest first, and the calls made. -/
  sent : List ComPkt
  calls : Nat

namespace EventSock

/-- A call of the manager. -/
def call (io : Outside) (op : AreaOp) (s : EventSock) : Bool × EventSock :=
  let (ok, m) := s.man.execArea (io.env s.calls) op
  (ok, { s with man := m, calls := s.calls + 1 })

def setSelfStatus (io : Outside) (status : ChmpxSts) (s : EventSock) : Bool × EventSock :=
  s.call io (.server (.setSelfStatus status (io.isClientJoin s.calls)))

def setServerStatus (io : Outside) (chmpxid : ChmpxId) (status : ChmpxSts) (s : EventSock) :
    Bool × EventSock :=
  s.call io (.server (.setServerStatus chmpxid status (io.isClientJoin s.calls)))

def setSelfBaseHash (io : Outside) (hash : ChmHash) (s : EventSock) : Bool × EventSock :=
  s.call io (.server (.setSelfHash hash 0 .base))

def setServerBaseHash (io : Outside) (chmpxid : ChmpxId) (hash : ChmHash) (s : EventSock) :
    Bool × EventSock :=
  s.call io (.server (.setServerHash chmpxid hash 0 .base))

def updateHash (io : Outside) (type : HashTg) (s : EventSock) : Bool × EventSock :=
  s.call io (.server (.updateHash type true true))

def updateSelfLastStatusTime (io : Outside) (s : EventSock) : Bool × EventSock :=
  s.call io (.server (.updateLastStatusTime chmInvalidChmpxId))

def reloadConfiguration (io : Outside) (s : EventSock) : Bool × EventSock :=
  s.call io (.reloadConfiguration (io.cfg s.calls) s.eqfd)

/-- `Send`: whether the packet is on its way. -/
def send (io : Outside) (pkt : ComPkt) (s : EventSock) : Bool × EventSock :=
  let ok := io.sends s.calls
  (ok, { s with sent := if ok then s.sent ++ [pkt] else s.sent, calls := s.calls + 1 })

/-! ## The ring -/

/-- `ConnectServer`: a socket there is, or a new one. -/
def connectServer (io : Outside) (chmpxid : ChmpxId) (s : EventSock) : Bool × EventSock :=
  match s.man.find s.man.chmpxServers chmpxid with
  | none => (false, s)
  | some p =>
    if !(s.man.chmpx p).socklist.isEmpty then (true, s)
    else
      match io.connects s.calls with
      | none => (false, { s with calls := s.calls + 1 })
      | some sock => s.call io (.setServerSocks chmpxid sock chmInvalidSock true false)

/-- The loop of `GetNextRingChmpxId` over the servers behind `pos`. -/
def nextRingLoop (io : Outside) (selfpos : Ptr) : Nat → Ptr → EventSock → ChmpxId × EventSock
  | 0, _, s => (chmInvalidChmpxId, s)
  | fuel + 1, pos, s =>
    match s.man.getNextServerPos (some selfpos) (some pos) true true with
    | none => (chmInvalidChmpxId, s)
    | some pos =>
      match s.man.getServerBase pos with
      | none => nextRingLoop io selfpos fuel pos s
      | some chmpxid =>
        let status := s.man.getServerStatus chmpxid
        if chmpxid ≠ chmInvalidChmpxId ∧ status.isServer ∧ status.isUp then
          let (ok, s) := s.connectServer io chmpxid
          if ok then (chmpxid, s) else nextRingLoop io selfpos fuel pos s
        else nextRingLoop io selfpos fuel pos s

/-- `GetNextRingChmpxId`: the next server that is up, or the first one behind this node
that answers. -/
def getNextRingChmpxId (io : Outside) (s : EventSock) : ChmpxId × EventSock :=
  if s.man.getNextRingChmpxId ≠ chmInvalidChmpxId then (s.man.getNextRingChmpxId, s)
  else
    match s.man.chmpxSelf with
    | none => (chmInvalidChmpxId, s)
    | some selfpos => nextRingLoop io selfpos (s.man.chmpxCount + 1) selfpos s

/-- The loop of `IsSafeDeptAndNextChmpxId`: which of the two comes first behind `pos`. -/
def safeDeptLoop (m : ChmpxMan) (dept next : ChmpxId) (selfpos : Ptr) : Nat → Ptr → Bool
  | 0, _ => false
  | fuel + 1, pos =>
    match m.getNextServerPos (some selfpos) (some pos) true true with
    | none => false
    | some pos =>
      match m.getServerBase pos with
      | none => safeDeptLoop m dept next selfpos fuel pos
      | some chmpxid =>
        if chmpxid = chmInvalidChmpxId then safeDeptLoop m dept next selfpos fuel pos
        else if next = chmpxid then true
        else if dept = chmpxid then false
        else safeDeptLoop m dept next selfpos fuel pos

/-- `IsSafeDeptAndNextChmpxId`. -/
def isSafeDeptAndNextChmpxId (m : ChmpxMan) (dept next : ChmpxId) : Bool :=
  if chmInvalidChmpxId = dept ∨ chmInvalidChmpxId = next then false
  else if dept = next then true
  else
    match m.chmpxSelf with
    | none => false
    | some selfpos => safeDeptLoop m dept next selfpos (m.chmpxCount + 1) selfpos

/-! ## Sending -/

/-- A packet that starts at this node. -/
def packet (version : ComVersion) (term : ChmpxId) (body : PxCom) (s : EventSock) : ComPkt where
  version := version
  dept := s.man.getSelfChmpxId
  term := term
  body := body

/-- `PxComSendSlavesStatusChange`.  The slaves that are servers have connected for the
ring and are skipped. -/
def pxComSendSlavesStatusChange (io : Outside) (svr : ChmpxSvr) (s : EventSock) : EventSock :=
  (s.man.getSlaveChmpxIds.filter fun chmpxid => !s.man.isServerChmpxId chmpxid).foldl
    (fun s chmpxid =>
      (s.send io (s.packet s.comprotoVer chmpxid
        (.statusChange true (s.comprotoVer.carry svr)))).2) s

/-- `PxComSendStatusChange`. -/
def pxComSendStatusChange (io : Outside) (chmpxid : ChmpxId) (svr : ChmpxSvr) (s : EventSock) :
    Bool × EventSock :=
  if chmpxid = chmInvalidChmpxId then (false, s)
  else
    let (ok, s) := s.send io (s.packet s.comprotoVer chmpxid
      (.statusChange true (s.comprotoVer.carry svr)))
    if !ok then (false, s) else (true, s.pxComSendSlavesStatusChange io svr)

/-- A status goes around the ring, or only to the slaves when there is no next server. -/
def noticeStatus (io : Outside) (chmpxid : ChmpxId) (svr : ChmpxSvr) (s : EventSock) :
    Bool × EventSock :=
  if chmpxid = chmInvalidChmpxId then (true, s.pxComSendSlavesStatusChange io svr)
  else s.pxComSendStatusChange io chmpxid svr

/-- `PxComSendStatusConfirm`. -/
def pxComSendStatusConfirm (io : Outside) (chmpxid : ChmpxId) (svrs : List ChmpxSvr)
    (s : EventSock) : Bool × EventSock :=
  if chmpxid = chmInvalidChmpxId ∨ svrs = [] then (false, s)
  else s.send io (s.packet s.comprotoVer chmpxid
    (.statusConfirm true (svrs.map s.comprotoVer.carry)))

/-- `PxComSendMergeStart`, `PxComSendMergeAbort` and `PxComSendMergeComplete`. -/
def pxComSendMergeStart (io : Outside) (chmpxid : ChmpxId) (s : EventSock) : Bool × EventSock :=
  if chmpxid = chmInvalidChmpxId then (false, s)
  else s.send io (s.packet .v2 chmpxid (.mergeStart true))

def pxComSendMergeAbort (io : Outside) (chmpxid : ChmpxId) (s : EventSock) : Bool × EventSock :=
  if chmpxid = chmInvalidChmpxId then (false, s)
  else s.send io (s.packet .v2 chmpxid (.mergeAbort true))

def pxComSendMergeComplete (io : Outside) (chmpxid : ChmpxId) (s : EventSock) : Bool × EventSock :=
  if chmpxid = chmInvalidChmpxId then (false, s)
  else s.send io (s.packet .v2 chmpxid (.mergeComplete true))

/-- `GetChmpxSvrs` of this call. -/
def getChmpxSvrs (io : Outside) (s : EventSock) : Option (List ChmpxSvr) :=
  s.man.getChmpxSvrs (io.heap s.calls)

/-! ## Statuses of a merge -/

/-- The status with which this node starts to merge, if it has something to merge. -/
def statusBeforeMergeStart (m : ChmpxMan) : Option ChmpxSts :=
  let status := m.getSelfStatus
  if status.isOperating || !status.isSrvin then none
  else if status.isUp then
    if !status.isPending || status.isSuspend then none
    else
      match m.getSelfHash with
      | none => none
      | some (base, pending) =>
        if !status.isNoact && base = pending && m.getMaxHashCount.1 = m.getMaxHashCount.2 then none
        else some status.setDoing
  else if status.isDelete && status.isPending then some status.setDone
  else none

/-- `ChangeStatusBeforeMergeStart`. -/
def changeStatusBeforeMergeStart (io : Outside) (s : EventSock) : Bool × EventSock :=
  if s.man.isOperating then (false, s)
  else
    match statusBeforeMergeStart s.man with
    | none => (false, s)
    | some status =>
      let (ok, s) := s.setSelfStatus io status
      if !ok then (false, s)
      else
        let (chmpxid, s) := s.getNextRingChmpxId io
        match s.man.getSelfChmpxSvr with
        | none => (false, s)
        | some svr => (true, (s.noticeStatus io chmpxid svr).2)

/-- `CHMDOWNSVRMERGE`. -/
inductive DownSvrMerge
  | start
  | complete
  | abort
  deriving DecidableEq, Repr

/-- A down server whose status this node changes on behalf of it. -/
def changesDownSvr (type : DownSvrMerge) (status : ChmpxSts) : Bool :=
  status.isSrvin && status.isDown && status.isDelete && !(type = .start && status.isDone)

/-- The status it gets. -/
def downSvrStatus : DownSvrMerge → ChmpxSts
  | .start => ChmpxSts.srvinDownDeleted
  | .complete | .abort => ChmpxSts.srvoutDownNormal

/-- The loop of `ChangeDownSvrStatusByMerge` over the records read before it. -/
def changeDownSvrLoop (io : Outside) (type : DownSvrMerge) (chmpxid : ChmpxId) :
    List ChmpxSvr → EventSock → Bool × EventSock
  | [], s => (true, s)
  | svr :: svrs, s =>
    if !changesDownSvr type svr.status then changeDownSvrLoop io type chmpxid svrs s
    else
      let (ok, s) := s.setServerStatus io svr.chmpxid (downSvrStatus type)
      let (ok, s) := if ok ∧ type = .complete then
          s.setServerBaseHash io svr.chmpxid chmInvalidHashVal
        else (ok, s)
      if !ok then changeDownSvrLoop io type chmpxid svrs s
      else
        let (ok, s) := s.updateHash io .pending
        if !ok then (false, s)
        else
          let s := match s.man.getChmpxSvr svr.chmpxid with
            | none => s
            | some svr => (s.noticeStatus io chmpxid svr).2
          changeDownSvrLoop io type chmpxid svrs s

/-- `ChangeDownSvrStatusByMerge`. -/
def changeDownSvrStatusByMerge (io : Outside) (type : DownSvrMerge) (s : EventSock) :
    Bool × EventSock :=
  match s.getChmpxSvrs io with
  | none => (false, s)
  | some svrs =>
    let (chmpxid, s) := s.getNextRingChmpxId io
    changeDownSvrLoop io type chmpxid svrs s

/-- A record that keeps `CheckAllStatusForMergeComplete` from passing. -/
def blocksMergeComplete (status : ChmpxSts) : Bool :=
  status.isSrvin &&
    ((status.isUp && status.isDoing) ||
      (status.isDown && status.isDelete && !status.isPending && !status.isDone))

/-- `CheckAllStatusForMergeComplete`. -/
def checkAllStatusForMergeComplete (io : Outside) (s : EventSock) : Bool :=
  match s.getChmpxSvrs io with
  | none => false
  | some svrs => svrs.all fun svr => !blocksMergeComplete svr.status

/-- A record that keeps `CheckAllStatusForMergeStart` from passing. -/
def blocksMergeStart (status : ChmpxSts) : Bool :=
  status.isSrvin &&
    ((status.isUp && (status.isNoact || status.isAdd || status.isDelete) && status.isSuspend) ||
      (status.isDown && status.isNoact))

/-- `CheckAllStatusForMergeStart`. -/
def checkAllStatusForMergeStart (io : Outside) (s : EventSock) : Bool :=
  if s.man.isOperating then false
  else
    match s.getChmpxSvrs io with
    | none => false
    | some svrs => svrs.all fun svr => !blocksMergeStart svr.status

/-! ## Complete -/

/-- The own status after a complete merge, or nothing when it cannot complete. -/
def statusOfMergeComplete (status : ChmpxSts) : Option ChmpxSts :=
  if status.isSrvin then
    if status.isUp then
      if status.isNoact || status.isAdd then
        if status.isSuspend || status.isPending || status.isDoing then none
        else some ChmpxSts.srvinUpNormal
      else if status.isDelete then
        if (!status.isDone && status.isSuspend) || status.isPending || status.isDoing then none
        else
          some (if status.isSuspend then
            ChmpxSts.srvoutUpNormal.changeSuspendFlag true
          else ChmpxSts.srvoutUpNormal)
      else some status
    else if status.isDelete then
      if !status.isDone then none else some ChmpxSts.srvoutDownNormal
    else some status
  else some status

/-- `MergeComplete`. -/
def mergeComplete (io : Outside) (s : EventSock) : Bool × EventSock :=
  let (_, s) := s.changeDownSvrStatusByMerge io .complete
  match s.man.getSelfHash with
  | none => (false, s)
  | some (_, hash) =>
    match statusOfMergeComplete s.man.getSelfStatus with
    | none => (false, s)
    | some status =>
      let (ok, s) := s.setSelfBaseHash io hash
      if !ok then (false, s)
      else
        let (ok, s) := s.setSelfStatus io status
        if !ok then (false, s)
        else
          let (_, s) := s.updateSelfLastStatusTime io
          let (_, s) := s.reloadConfiguration io
          match s.man.getSelfChmpxSvr with
          | none => (false, s)
          | some svr =>
            let (chmpxid, s) := s.getNextRingChmpxId io
            s.noticeStatus io chmpxid svr

/-- `RequestMergeComplete`. -/
def requestMergeComplete (io : Outside) (s : EventSock) : Bool × EventSock :=
  if !s.checkAllStatusForMergeComplete io then (false, s)
  else
    let (chmpxid, s) := s.getNextRingChmpxId io
    if chmpxid = chmInvalidChmpxId then
      mergeComplete io { s with isMergeDoneProcessing := false }
    else
      let (_, s) := s.updateSelfLastStatusTime io
      match s.man.getSelfChmpxSvr with
      | none => (false, s)
      | some svr =>
        let (ok, s) := s.pxComSendStatusChange io chmpxid svr
        if !ok then (false, s) else s.pxComSendMergeComplete io chmpxid

/-! ## Done, start and abort -/

/-- What `MergeDone` does once the status is written. -/
def afterMergeDone (io : Outside) (s : EventSock) : Bool × EventSock :=
  let (chmpxid, s) := s.getNextRingChmpxId io
  -- Without a next server the merge can be completed here; `completes` says that the
  -- own record was there to be sent.
  let (failed, completes, s) : Bool × Bool × EventSock :=
    match s.man.getSelfChmpxSvr with
    | none => (false, false, s)
    | some svr =>
      if chmpxid = chmInvalidChmpxId then
        let s := s.pxComSendSlavesStatusChange io svr
        if s.isAutoMerge ∧ s.man.getSlaveChmpxIds = [] then
          let (ok, s) := s.requestMergeComplete io
          (!ok, true, s)
        else (false, true, s)
      else (false, false, (s.pxComSendStatusChange io chmpxid svr).2)
  if failed then (false, s)
  else if !s.isAutoMerge then (true, s)
  else if completes then (true, (s.requestMergeComplete io).2)
  else (true, { s with isMergeDoneProcessing := true })

/-- `MergeDone`. -/
def mergeDone (io : Outside) (s : EventSock) : Bool × EventSock :=
  let status := s.man.getSelfStatus
  if !status.isSrvin then (false, s)
  else if !status.isDoing then (status.isDone, s)
  else if status.isUp && status.isSuspend then (false, s)
  else
    let (ok, s) := s.setSelfStatus io status.setDone
    if !ok then (false, s) else s.afterMergeDone io

/-- `GetServerChmpxIdByHashs` of `ChmIMData`, which also moves `last_chmpxid`. -/
def getServerChmpxIdByHashs (hash : ChmHash) (s : EventSock) : List ChmpxId × EventSock :=
  let (_, chmpxids, _, m) := s.man.getServerChmpxIdAndBaseHashByHashs hash [] [] false true true
  (chmpxids, { s with man := m })

/-- `GetServerChmpxIdByBaseHash`: the servers of a hash and of the one that its replicas
come from. -/
def getServerChmpxIdByBaseHash (basehash : ChmHash) (s : EventSock) : List ChmpxId × EventSock :=
  let replcnt := (s.man.replicaCount % 2 ^ 64).toNat
  let another := if replcnt ≤ basehash then basehash - replcnt
    else (basehash + s.man.getMaxHashCount.1 + 2 ^ 64 - replcnt) % 2 ^ 64
  let (chmpxids, s) := s.getServerChmpxIdByHashs basehash
  let (anotherChmpxids, s) := s.getServerChmpxIdByHashs another
  (chmpxids ++ anotherChmpxids.filter (· ∉ chmpxids), s)

/-- The part of `MergeStart` that wakes the worker thread, or is done at once. -/
def runMerge (io : Outside) (s : EventSock) : Bool × EventSock :=
  if s.isRunMerge then (false, s)
  else if !io.hasThread s.calls then (false, s)
  else
    match s.man.getSelfHash with
    | none => s.mergeDone io
    | some (basehash, _) =>
      let (alllist, s) := if s.man.isPendingExchangeData then
          (s.man.getServerChmpxIds false, s)
        else s.getServerChmpxIdByBaseHash basehash
      let ids := (alllist.filter (· ≠ s.man.getSelfChmpxId)).eraseDups
      let s := { s with mergeidmap := ids.map fun chmpxid => (chmpxid, .inival) }
      if ids = [] then s.mergeDone io
      else if !io.doWorkThread s.calls then (false, { s with isRunMerge := false })
      else (true, { s with isRunMerge := true })

/-- `MergeStart`. -/
def mergeStart (io : Outside) (s : EventSock) : Bool × EventSock :=
  let (ok, s) := s.changeStatusBeforeMergeStart io
  if !ok then (true, s)
  else
    let (_, s) := s.changeDownSvrStatusByMerge io .start
    if s.isDoMerge then s.runMerge io else s.mergeDone io

/-- The own status after a merge has been aborted. -/
def statusOfMergeAbort (status : ChmpxSts) : ChmpxSts :=
  if !status.isSrvin then status
  else if status.isUp then
    if status.isNoact then
      if status.isOperating then
        if status.isNosup then status.setPending else status.setNothing
      else status
    else if status.isAdd then
      if status.isOperating then status.setPending else status
    else if status.isDelete then
      if status.isNosup then status.setNoact.setPending else status.setNoact.setNothing
    else status
  else (if status.isDelete then status.setNoact.setNothing else status).setNosup

/-- `MergeAbort`. -/
def mergeAbort (io : Outside) (s : EventSock) : Bool × EventSock :=
  let s := if s.isDoMerge ∧ io.hasThread s.calls then { s with isRunMerge := false } else s
  let (ok, s) := s.setSelfStatus io (statusOfMergeAbort s.man.getSelfStatus)
  if !ok then (false, s)
  else
    let (ok, s) := s.updateHash io .pending
    if !ok then (false, s)
    else
      match s.man.getSelfChmpxSvr with
      | none => (false, s)
      | some svr =>
        let (chmpxid, s) := s.getNextRingChmpxId io
        let (ok, s) := s.noticeStatus io chmpxid svr
        if !ok then (false, s)
        else (true, (s.changeDownSvrStatusByMerge io .abort).2)

/-- `RequestMergeStart`. -/
def requestMergeStart (io : Outside) (s : EventSock) : Bool × EventSock :=
  if !s.checkAllStatusForMergeStart io then (false, s)
  else
    let (chmpxid, s) := s.getNextRingChmpxId io
    if chmpxid = chmInvalidChmpxId then s.mergeStart io
    else
      let (_, s) := s.updateSelfLastStatusTime io
      match s.getChmpxSvrs io with
      | none => (false, s)
      | some svrs => s.pxComSendStatusConfirm io chmpxid svrs

end EventSock
end Chm
