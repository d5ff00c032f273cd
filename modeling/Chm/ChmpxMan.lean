/-
The operations of `chmpxman_lap` on the server list: recomputing the hashes,
setting statuses and hashes, and merging the records of a packet.

The pair of a result and a new manager is the order in which the source returns
and writes.  A record of a packet whose status is rewritten in place before it is
merged is returned rewritten.
-/
import Chm.ChmpxList

namespace Chm

namespace ChmpxMan

/-! ## `chmpxlist_lap` over a whole list -/

/-- The loop of `chmpxlist_lap::UpdateHash` over the nodes that remain. -/
def updateHashLoop (env : Env) (type : HashTg) : List Ptr → ChmHash → ChmHash → ChmpxMan →
    Bool × ChmpxMan
  | [], _, _, m => (true, m)
  | p :: ps, newbase, newpending, m =>
    if (m.chmpx p).name.isEmpty then (false, m)
    else
      let status := (m.chmpx p).status
      let inBase := type.isBase && status.isBaseHash
      let inPending := type.isPending && status.isPendingHash
      let m := if type.isBase then
          (m.set env (if inBase then newbase else chmInvalidHashVal) 0 .base p).2
        else m
      let m := if type.isPending then
          (m.set env 0 (if inPending then newpending else chmInvalidHashVal) .pending p).2
        else m
      updateHashLoop env type ps (if inBase then newbase + 1 else newbase)
        (if inPending then newpending + 1 else newpending) m

/-- `chmpxlist_lap::UpdateHash`. -/
def listUpdateHash (env : Env) (type : HashTg) (cur : Cursor) (m : ChmpxMan) :
    Bool × ChmpxMan :=
  match cur with
  | none => (false, m)
  | some _ => updateHashLoop env type (m.nodes cur) 0 0 m

/-- `BaseHashCount(true)`. -/
def baseHashCount (m : ChmpxMan) (cur : Cursor) : Nat :=
  (m.nodes cur).countP fun p => (m.chmpx p).status.isBaseHash

/-- `PendingHashCount(false)`: from the cursor on. -/
def pendingHashCount (m : ChmpxMan) (cur : Cursor) : Nat :=
  (m.links.walk m.chmpxCount cur).countP fun p => (m.chmpx p).status.isPendingHash

/-- `chmpxlist_lap::IsOperating(true)`. -/
def listIsOperating (m : ChmpxMan) (cur : Cursor) : Bool :=
  (m.nodes cur).any fun p => (m.chmpx p).status.isOperating

/-- `FindByHash`: the node it moves the cursor to. -/
def findByHash (m : ChmpxMan) (cur : Cursor) (hash : ChmHash) (isBaseHash : Bool) : Option Ptr :=
  if hash = chmInvalidHashVal then none
  else
    match cur with
    | none => none
    | some p => (m.nodesFrom p).find? fun q =>
        !(m.chmpx q).name.isEmpty &&
          (if isBaseHash then (m.chmpx q).baseHash = hash else (m.chmpx q).pendingHash = hash)

/-- The loop of `CheckAllServiceOutStatus` that takes every server out. -/
def serviceOutLoop (env : Env) : List Ptr → Bool → ChmpxMan → Bool × ChmpxMan
  | [], result, m => (result, m)
  | p :: ps, result, m =>
    let (ok, m) := m.setStatus env ChmpxSts.srvoutDownNormal p
    let (ok, m) := if ok then m.set env chmInvalidHashVal chmInvalidHashVal .both p else (ok, m)
    serviceOutLoop env ps (result && ok) m

/-- `CheckAllServiceOutStatus`: when the list has servers and none is up, every
node goes to service out and down and loses its hashes. -/
def checkAllServiceOutStatus (env : Env) (cur : Cursor) (m : ChmpxMan) : Bool × ChmpxMan :=
  match cur with
  | none => (false, m)
  | some _ =>
    let servers := (m.nodes cur).filter fun p => !(m.chmpx p).status.isSlave
    if servers.any (fun p => (m.chmpx p).status.isUp) then (true, m)
    else if servers.isEmpty then (true, m)
    else serviceOutLoop env (m.nodes cur) true m

/-! ## The manager -/

/-- `IsServerMode`. -/
def isServerMode (m : ChmpxMan) : Bool :=
  match m.chmpxSelf with
  | none => false
  | some p => (m.chmpx p).isServerMode

/-- `GetSelfChmpxId`. -/
def getSelfChmpxId (m : ChmpxMan) : ChmpxId :=
  match m.chmpxSelf with
  | none => chmInvalidChmpxId
  | some p => (m.chmpx p).chmpxid

/-- `GetSock(SOCKTG_SELFSOCK)` is not the invalid socket. -/
def selfsockOpen (c : Chmpx) : Bool := !c.name.isEmpty && c.selfsock ≠ chmInvalidSock

/-- `UpdateHash`. -/
def updateHash (env : Env) (type : HashTg) (isAllowOperating isAllowSlaveMode : Bool)
    (m : ChmpxMan) : Bool × ChmpxMan :=
  if !isAllowSlaveMode && !m.isServerMode then (false, m)
  else if !isAllowOperating && m.isOperating then (false, m)
  else m.listUpdateHash env type m.chmpxServers

/-- The counters that follow the statuses: `chmpx_bhash_count` and
`is_operating`, read from the list of `cur`. -/
def recount (cur : Cursor) (m : ChmpxMan) : ChmpxMan :=
  { m with chmpxBhashCount := m.baseHashCount cur, isOperating := m.listIsOperating cur }

/-- `SetSelfHash`. -/
def setSelfHash (env : Env) (base pending : ChmHash) (type : HashTg) (m : ChmpxMan) :
    Bool × ChmpxMan :=
  match m.chmpxSelf with
  | none => (false, m)
  | some p => m.set env base pending type p

/-- `SetServerHash`. -/
def setServerHash (env : Env) (chmpxid : ChmpxId) (base pending : ChmHash) (type : HashTg)
    (m : ChmpxMan) : Bool × ChmpxMan :=
  if m.isServerMode && m.getSelfChmpxId = chmpxid then m.setSelfHash env base pending type
  else
    match m.find m.chmpxServers chmpxid with
    | none => (false, m)
    | some p => m.set env base pending type p

/-- `SetServerStatus`. -/
def setServerStatus (env : Env) (chmpxid : ChmpxId) (status : ChmpxSts) (isClientJoin : Bool)
    (m : ChmpxMan) : Bool × ChmpxMan :=
  if m.isServerMode && m.getSelfChmpxId = chmpxid then
    match m.chmpxSelf with
    | none => (false, m)
    | some p =>
      if status.isDown && selfsockOpen (m.chmpx p) then (false, m)
      else if status.isUp && !selfsockOpen (m.chmpx p) then (false, m)
      else
        match m.setStatus env (status.changeSuspendFlag !isClientJoin) p with
        | (false, m) => (false, m)
        | (true, m) => (true, m.recount (some p))
  else
    match m.find m.chmpxServers chmpxid with
    | none => (false, m)
    | some p =>
      match m.setStatus env status p with
      | (false, m) => (false, m)
      | (true, m) =>
        if status.isDown then
          match m.checkAllServiceOutStatus env (some p) with
          | (false, m) => (false, m)
          | (true, m) => (true, m.recount (some p))
        else (true, m.recount (some p))

/-- `SetSelfStatus`. -/
def setSelfStatus (env : Env) (status : ChmpxSts) (isClientJoin : Bool) (m : ChmpxMan) :
    Bool × ChmpxMan :=
  match m.chmpxSelf with
  | none => (false, m)
  | some p =>
    if m.isServerMode && (status.isUp && !selfsockOpen (m.chmpx p)) then (false, m)
    else
      let status := if m.isServerMode then status.changeSuspendFlag !isClientJoin else status
      match m.setStatus env status p with
      | (false, m) => (false, m)
      | (true, m) => (true, if m.isServerMode then m.recount (some p) else m)

/-- `UpdateLastStatusTime`. -/
def updateLastStatusTime (env : Env) (chmpxid : ChmpxId) (m : ChmpxMan) : Bool × ChmpxMan :=
  let node :=
    if chmpxid = chmInvalidChmpxId ∨ m.getSelfChmpxId = chmpxid then m.chmpxSelf
    else m.find m.chmpxServers chmpxid
  match node with
  | none => (false, m)
  | some p =>
    match (m.chmpx p).updateLastStatusTime (env.now p) with
    | none => (false, m)
    | some c => (true, m.setChmpx p c)

/-- `SetSelfSocks`. -/
def setSelfSocks (sock ctlsock : Int) (m : ChmpxMan) : Bool × ChmpxMan :=
  match m.chmpxSelf with
  | none => (false, m)
  | some p =>
    if (m.chmpx p).name.isEmpty then (false, m)
    else (true, m.setChmpx p { m.chmpx p with selfsock := sock, selfctlsock := ctlsock })

/-! ## Merging the records of a packet -/

/-- The status under which a node merges a record about itself: a down record
while it is up (or starting) becomes the up status, an up record while it is down
becomes the down one.  The two rows that leave `UP` for a node that is down are
the source's. -/
def selfMergeStatus (isClientJoin isInitProcess selfsockOpen : Bool) (status : ChmpxSts) :
    ChmpxSts :=
  if status.isDown && (isInitProcess || selfsockOpen) then
    let next :=
      if status.isSrvin then
        if status.isNoact then
          if !isClientJoin then ChmpxSts.srvinUpNormal else ChmpxSts.srvinUpPending
        else if status.isDelete then
          if status.isPending then ChmpxSts.srvinUpDelpending else ChmpxSts.srvinUpDeleted
        else status
      else if status.isSrvout then ChmpxSts.srvoutUpNormal
      else ChmpxSts.slaveUpNormal
    next.changeSuspendFlag !isClientJoin
  else if status.isUp && !isInitProcess && !selfsockOpen then
    let next :=
      if status.isSrvin then
        if status.isNoact then ChmpxSts.srvinDownNormal
        else if status.isAdd then ChmpxSts.srvoutDownNormal
        else if status.isDelete then
          if status.isPending then ChmpxSts.srvinDownDelpending else ChmpxSts.srvinDownDeleted
        else status
      else if status.isSrvout then ChmpxSts.srvoutUpNormal
      else ChmpxSts.slaveUpNormal
    next.setNosup
  else status

/-- What the two phases of `MergeChmpxSvrs` carry: the cursor of the server list,
the error flag and the manager. -/
structure MergeState where
  cur : Cursor
  isError : Bool
  man : ChmpxMan

/-- The arguments of one `MergeChmpxSvrs` call besides the records. -/
structure MergeArgs where
  type : ChmpxIdSeedType
  isClientJoin : Bool
  isRemove : Bool
  isInitProcess : Bool
  eqfd : Bool
  deriving DecidableEq, Repr

/-- The record as it is merged into the node at `p`: rewritten when it is about
this node itself and brings another status. -/
def selfRecord (args : MergeArgs) (selfchmpxid : ChmpxId) (c : Chmpx) (svr : ChmpxSvr) :
    ChmpxSvr :=
  if selfchmpxid = svr.chmpxid ∧ c.status ≠ svr.status then
    { svr with status :=
        selfMergeStatus args.isClientJoin args.isInitProcess (selfsockOpen c) svr.status }
  else svr

/-- The node that `MergeChmpxSvrs` makes of a record of an unknown server: taken
from the free list, cleared and initialised.  It is in no list yet. -/
def newServer (env : Env) (args : MergeArgs) (svr : ChmpxSvr) (m : ChmpxMan) :
    Option Ptr × ChmpxMan :=
  let (result, frees, m) := m.popAny m.chmpxFrees
  let m := m.setFrees (m.chmpxFreeCount - 1) (m.getFirstPtr frees)
  match result with
  | none => (none, m)
  | some p => (some p, (m.clear false p).initializeServer env args.type svr p)

/-- Put a new node into the server list of the cursor.  With an empty list the
head and the counter are set and the cursor stays null. -/
def insertServer (type : ChmpxIdSeedType) (p : Option Ptr) (cur : Cursor) (m : ChmpxMan) :
    Cursor × ChmpxMan :=
  match cur with
  | some c =>
    let (cur, m) := match p with
      | none => (some c, m)
      | some p => m.insert type c p
    let cur := m.getFirstPtr cur
    (cur, m.setServers (m.chmpxServerCount + 1) cur)
  | none =>
    let m := match p with
      | none => m
      | some p => m.saveChmpxIdMap p
    (none, m.setServers 1 p)

/-- The first phase of `MergeChmpxSvrs` for one record. -/
def mergeRecord (env : Env) (args : MergeArgs) (selfchmpxid : ChmpxId) (svr : ChmpxSvr)
    (s : MergeState) : MergeState × ChmpxSvr :=
  match s.man.find s.cur svr.chmpxid with
  | some p =>
    let svr := selfRecord args selfchmpxid (s.man.chmpx p) svr
    ({ s with cur := some p, man := s.man.mergeChmpxSvr env args.type svr p }, svr)
  | none =>
    if s.man.chmpxFreeCount = 0 then ({ s with isError := true }, svr)
    else if svr.status = ChmpxSts.srvoutDownNormal then (s, svr)
    else
      let (p, m) := newServer env args svr s.man
      let (cur, m) := insertServer args.type p s.cur m
      ({ s with cur := cur, man := m }, svr)

/-- The first phase of `MergeChmpxSvrs`. -/
def mergeRecords (env : Env) (args : MergeArgs) (selfchmpxid : ChmpxId) :
    List ChmpxSvr → MergeState → MergeState × List ChmpxSvr
  | [], s => (s, [])
  | svr :: svrs, s =>
    let (s, svr) := mergeRecord env args selfchmpxid svr s
    let (s, svrs) := mergeRecords env args selfchmpxid svrs s
    (s, svr :: svrs)

/-- Clear a node that has left its list and push it on the free list. -/
def giveBack (eqfd : Bool) (p : Ptr) (m : ChmpxMan) : ChmpxMan :=
  let m := m.clear eqfd p
  let (frees, m) := m.push m.chmpxFrees p
  m.setFrees (m.chmpxFreeCount + 1) (m.getFirstPtr frees)

/-- Take the node at `p` out of the server list and give it to the free list. -/
def removeServer (args : MergeArgs) (p : Ptr) (s : MergeState) : MergeState :=
  let (cur, m) := s.man.retrieve p
  let m := m.giveBack args.eqfd p
  { s with cur := cur, man := m.setServers (m.chmpxServerCount - 1) m.chmpxServers }

/-- The second phase of `MergeChmpxSvrs`: from the cursor on, take out every
server that no record names and that is not this node. -/
def removeLoop (args : MergeArgs) (selfchmpxid : ChmpxId) (chmpxids : List ChmpxId) :
    Nat → MergeState → MergeState
  | 0, s => s
  | fuel + 1, s =>
    match s.cur with
    | none =>
      -- A null cursor reads as the invalid chmpxid, and then has nothing to retrieve.
      if chmInvalidChmpxId = selfchmpxid ∨ chmInvalidChmpxId ∈ chmpxids then s
      else { s with isError := true }
    | some p =>
      let chmpxid := (s.man.chmpx p).chmpxid
      if chmpxid = selfchmpxid ∨ chmpxid ∈ chmpxids then
        match s.man.toNext p with
        | none => s
        | some q => removeLoop args selfchmpxid chmpxids fuel { s with cur := some q }
      else removeLoop args selfchmpxid chmpxids fuel (removeServer args p s)

/-- Set the head of the server list after the second phase. -/
def setServersHead (s : MergeState) : MergeState :=
  if s.man.chmpxServerCount = 0 then
    { s with man := s.man.setServers s.man.chmpxServerCount none }
  else
    let cur := s.man.getFirstPtr s.cur
    { s with cur := cur, man := s.man.setServers s.man.chmpxServerCount cur }

/-- The second phase with the head set after it. -/
def removeServers (args : MergeArgs) (selfchmpxid : ChmpxId) (chmpxids : List ChmpxId)
    (s : MergeState) : MergeState :=
  match s.cur with
  | none => setServersHead s
  | some p =>
    setServersHead (removeLoop args selfchmpxid chmpxids (s.man.chmpxCount + 2)
      { s with cur := some (s.man.first p) })

/-- The chmpxid that the second phase keeps: this node's own in server mode. -/
def keptChmpxId (m : ChmpxMan) : ChmpxId :=
  if m.isServerMode then m.getSelfChmpxId else chmInvalidChmpxId

/-- `MergeChmpxSvrs`: the result, the records as they were merged, and the
manager. -/
def mergeChmpxSvrs (env : Env) (args : MergeArgs) (svrs : List ChmpxSvr) (m : ChmpxMan) :
    Bool × List ChmpxSvr × ChmpxMan :=
  if svrs.isEmpty then (false, svrs, m)
  else
    let selfchmpxid := m.keptChmpxId
    let (s, svrs) := mergeRecords env args selfchmpxid svrs ⟨m.chmpxServers, false, m⟩
    let s := if !s.isError && args.isRemove then
        removeServers args selfchmpxid (svrs.map (·.chmpxid)) s
      else s
    let (ok, m) := s.man.updateHash env .both true true
    (!(s.isError || !ok), svrs, m.recount s.cur)

end ChmpxMan
end Chm
