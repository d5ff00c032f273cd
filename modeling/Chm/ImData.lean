/-
What the event socket reads from the manager: this node's status and hashes, the records
of the servers, and the walk along the ring of servers.
-/
import Chm.Reload
import Chm.Slaves

namespace Chm

namespace ChmpxMan

/-! ## Statuses, hashes and records -/

/-- `GetSelfStatus`. -/
def getSelfStatus (m : ChmpxMan) : ChmpxSts :=
  match m.chmpxSelf with
  | none => ChmpxSts.slaveDownNormal
  | some p => (m.chmpx p).status

/-- `GetServerStatus`.  Without a server list the source returns `false`. -/
def getServerStatus (m : ChmpxMan) (chmpxid : ChmpxId) : ChmpxSts :=
  if m.chmpxServers = none then 0#64
  else
    match m.find m.chmpxServers chmpxid with
    | none => ChmpxSts.srvoutDownNormal
    | some p => (m.chmpx p).status

/-- `GetSelfHash`: the base and the pending hash. -/
def getSelfHash (m : ChmpxMan) : Option (ChmHash × ChmHash) :=
  match m.chmpxSelf with
  | none => none
  | some p =>
    if (m.chmpx p).name.isEmpty then none
    else some ((m.chmpx p).baseHash, (m.chmpx p).pendingHash)

/-- `GetMaxHashCount`. -/
def getMaxHashCount (m : ChmpxMan) : Nat × Nat :=
  (m.chmpxBhashCount, m.pendingHashCount m.chmpxServers)

/-- `IsPendingExchangeData`. -/
def isPendingExchangeData (m : ChmpxMan) : Bool :=
  let hash := m.getSelfHash.getD (chmInvalidHashVal, chmInvalidHashVal)
  hash.1 ≠ hash.2 || m.getMaxHashCount.1 ≠ m.getMaxHashCount.2

/-- `GetSelfChmpxSvr`. -/
def getSelfChmpxSvr (m : ChmpxMan) : Option ChmpxSvr :=
  m.chmpxSelf.map fun p => (m.chmpx p).getChmpxSvr

/-- `GetChmpxSvr`. -/
def getChmpxSvr (m : ChmpxMan) (chmpxid : ChmpxId) : Option ChmpxSvr :=
  if chmpxid = chmInvalidChmpxId then none
  else (m.find m.chmpxServers chmpxid).map fun p => (m.chmpx p).getChmpxSvr

/-- The nodes from the head of the server list on. -/
def fromHead (m : ChmpxMan) : List Ptr := m.links.walk m.chmpxCount m.chmpxServers

/-- `GetChmpxSvrs`: an array of `chmpx_server_count` records.  `heap` is what `malloc` has
left in the records that the list does not fill. -/
def getChmpxSvrs (heap : Nat → ChmpxSvr) (m : ChmpxMan) : Option (List ChmpxSvr) :=
  if m.chmpxServerCount = 0 then none
  else
    let svrs := m.fromHead.map fun p => (m.chmpx p).getChmpxSvr
    some ((svrs ++ (List.range m.chmpxServerCount).map heap).take m.chmpxServerCount)

/-- `GetChmpxIdByStatus` with the whole word to match. -/
def getChmpxIdByStatus (m : ChmpxMan) (status : ChmpxSts) : ChmpxId :=
  match (m.nodes m.chmpxServers).find? fun p => (m.chmpx p).status = status with
  | none => chmInvalidChmpxId
  | some p => (m.chmpx p).chmpxid

/-- `GetSlaveChmpxIds`. -/
def getSlaveChmpxIds (m : ChmpxMan) : List ChmpxId :=
  (m.nodes m.chmpxSlaves).map fun p => (m.chmpx p).chmpxid

/-- `IsServerChmpxId`. -/
def isServerChmpxId (m : ChmpxMan) (chmpxid : ChmpxId) : Bool :=
  (m.find m.chmpxServers chmpxid).isSome

/-- `GetServerChmpxIds` with pending servers or without, and without the down and the
suspended ones. -/
def getServerChmpxIds (m : ChmpxMan) (withPending : Bool) : List ChmpxId :=
  ((m.nodes m.chmpxServers).filter fun p =>
    let status := (m.chmpx p).status
    !status.isDown && !status.isSuspend &&
      (status.isBaseHash || withPending && status.isPendingHash)).map fun p =>
        (m.chmpx p).chmpxid

/-! ## The ring of servers -/

/-- The loop of `ToNext` from a node on: to the first one that `passes`, or back at
`start`, or at the end of a list that is not taken as a cycle. -/
def toNextLoop (m : ChmpxMan) (isCycle : Bool) (passes : Chmpx → Bool) (start : Ptr) :
    Nat → Ptr → Option Ptr
  | 0, _ => none
  | fuel + 1, cur =>
    if cur = start then none
    else if passes (m.chmpx cur) then some cur
    else
      match m.links.next cur with
      | some q => toNextLoop m isCycle passes start fuel q
      | none => if isCycle then toNextLoop m isCycle passes start fuel (m.first cur) else none

/-- `ToNext`: where it moves the cursor, or nowhere. -/
def toNextPassing (m : ChmpxMan) (isCycle : Bool) (passes : Chmpx → Bool) (cur : Ptr) :
    Option Ptr :=
  match m.links.next cur with
  | some q => m.toNextLoop isCycle passes cur (m.chmpxCount + 1) q
  | none =>
    if isCycle then m.toNextLoop isCycle passes cur (m.chmpxCount + 1) (m.first cur) else none

/-- `GetNextRingChmpxId`: the next server after this node that is up. -/
def getNextRingChmpxId (m : ChmpxMan) : ChmpxId :=
  if !m.isServerMode then chmInvalidChmpxId
  else
    match m.chmpxSelf.bind (m.toNextPassing true (·.status.isUp)) with
    | none => chmInvalidChmpxId
    | some p => (m.chmpx p).chmpxid

/-- `GetNextServerPos`; a position is a pointer, null when there is none. -/
def getNextServerPos (m : ChmpxMan) (startpos nowpos : Option Ptr) (isSkipSelf isCycle : Bool) :
    Option Ptr :=
  if m.chmpxServerCount = 0 ∨ m.chmpxServers = none then none
  else
    let startpos := if startpos = none ∧ nowpos ≠ none then m.chmpxServers else startpos
    let toNext := fun p => (m.toNextPassing isCycle (fun _ => true) p).getD p
    let cur := match nowpos with
      | none => m.chmpxServers
      | some p => some (toNext p)
    if nowpos = cur ∨ startpos = cur then none
    else if isSkipSelf ∧ m.chmpxSelf = cur then
      let cur := cur.map toNext
      if nowpos = cur ∨ startpos = cur ∨ m.chmpxSelf = cur then none else cur
    else cur

/-- `GetServerBase` at a position: the chmpxid. -/
def getServerBase (m : ChmpxMan) (pos : Ptr) : Option ChmpxId :=
  if (m.chmpx pos).name.isEmpty then none else some (m.chmpx pos).chmpxid

end ChmpxMan
end Chm
