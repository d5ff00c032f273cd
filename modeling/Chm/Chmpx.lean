/-
One chmpx: the record a node keeps of a server or a slave, the record that
travels in a packet, and the functions of `chmpx_lap` that work on one of them.

The SSL members of both records are left out: the modelled functions copy them
and never read them.  A function that the source lets fail returns `none` where
it leaves the record as it was.
-/
import Chm.Base
import Chm.Status

namespace Chm

/-- `CHMPX`. -/
structure Chmpx where
  chmpxid : ChmpxId
  name : CStr
  mode : ChmpxMode
  baseHash : ChmHash
  pendingHash : ChmHash
  port : Int
  ctlport : Int
  socklist : List Int
  ctlsock : Int
  selfsock : Int
  selfctlsock : Int
  lastStatusTime : TimeT
  status : ChmpxSts
  cuk : CStr
  customSeed : CStr
  endpoints : List HostPort
  ctlendpoints : List HostPort
  forwardPeers : List HostPort
  reversePeers : List HostPort
  deriving DecidableEq, Repr

/-- `CHMPXSVR`, the record of a server in a packet. -/
structure ChmpxSvr where
  chmpxid : ChmpxId
  name : CStr
  baseHash : ChmHash
  pendingHash : ChmHash
  port : Int
  ctlport : Int
  lastStatusTime : TimeT
  status : ChmpxSts
  cuk : CStr
  customSeed : CStr
  endpoints : List HostPort
  ctlendpoints : List HostPort
  forwardPeers : List HostPort
  reversePeers : List HostPort
  deriving DecidableEq, Repr

/-- The parameters `InitializeServer` and `InitializeSlave` take from the
configuration or from a slave's request. -/
structure ChmpxParam where
  hostname : CStr
  port : Int
  ctlport : Int
  cuk : CStr
  customSeed : CStr
  endpoints : List HostPort
  ctlendpoints : List HostPort
  forwardPeers : List HostPort
  reversePeers : List HostPort
  deriving DecidableEq, Repr

/-- Which hash a call writes: `HASHTG_BASE`, `HASHTG_PENDING`, `HASHTG_BOTH`. -/
inductive HashTg
  | base
  | pending
  | both
  deriving DecidableEq, Repr

def HashTg.isBase : HashTg → Bool
  | .base | .both => true
  | .pending => false

def HashTg.isPending : HashTg → Bool
  | .pending | .both => true
  | .base => false

namespace Chmpx

/-- `Initialize(void)`: the record of a node that is nobody's. -/
def cleared : Chmpx where
  chmpxid := chmInvalidChmpxId
  name := []
  mode := .unknown
  baseHash := chmInvalidHashVal
  pendingHash := chmInvalidHashVal
  port := chmInvalidPort
  ctlport := chmInvalidPort
  socklist := []
  ctlsock := chmInvalidSock
  selfsock := chmInvalidSock
  selfctlsock := chmInvalidSock
  lastStatusTime := 0
  status := ChmpxSts.slaveDownNormal
  cuk := []
  customSeed := []
  endpoints := List.replicate 4 ⟨[], chmInvalidPort⟩
  ctlendpoints := List.replicate 4 ⟨[], chmInvalidPort⟩
  forwardPeers := List.replicate 4 ⟨[], chmInvalidPort⟩
  reversePeers := List.replicate 4 ⟨[], chmInvalidPort⟩

/-! ## Initialisation -/

/-- The host name `Initialize` registers: a host name, an address, any name with
the local ones allowed, or the name as it was given. -/
def expandHostname (env : Env) (hostname : CStr) : CStr :=
  match env.getHostnameList hostname with
  | found :: _ => found
  | [] =>
    match env.getIpAddressStringList hostname with
    | found :: _ => found
    | [] =>
      match env.getAllHostList hostname with
      | found :: _ => found
      | [] => hostname

/-- The arguments that `Initialize` refuses. -/
def refuses (env : Env) (group hostname : CStr) : Bool :=
  hostname.isEmpty || niMaxhost ≤ hostname.length || group.isEmpty ||
    (expandHostname env hostname).isEmpty

/-- `Initialize` with parameters; the old record does not matter. -/
def initializeChmpx (env : Env) (type : ChmpxIdSeedType) (group : CStr) (mode : ChmpxMode)
    (par : ChmpxParam) : Option Chmpx :=
  if refuses env group par.hostname then none
  else
    let hostname := expandHostname env par.hostname
    some {
      chmpxid := makeChmpxId env group type hostname par.ctlport par.cuk
        (getHostportPairsString env par.ctlendpoints) par.customSeed
      name := hostname
      mode := mode
      baseHash := chmInvalidHashVal
      pendingHash := chmInvalidHashVal
      port := par.port
      ctlport := par.ctlport
      socklist := []
      ctlsock := chmInvalidSock
      selfsock := chmInvalidSock
      selfctlsock := chmInvalidSock
      lastStatusTime := 0
      status := if mode = .server then ChmpxSts.srvoutDownNormal else ChmpxSts.slaveDownNormal
      cuk := par.cuk
      customSeed := par.customSeed
      endpoints := par.endpoints
      ctlendpoints := par.ctlendpoints
      forwardPeers := par.forwardPeers
      reversePeers := par.reversePeers }

theorem initializeChmpx_of_refuses {env : Env} {type : ChmpxIdSeedType} {group : CStr}
    {mode : ChmpxMode} {par : ChmpxParam} (h : refuses env group par.hostname = true) :
    initializeChmpx env type group mode par = none := by
  rw [initializeChmpx, if_pos h]

theorem accepted_of_initializeChmpx {env : Env} {type : ChmpxIdSeedType} {group : CStr}
    {mode : ChmpxMode} {par : ChmpxParam} {c : Chmpx}
    (h : initializeChmpx env type group mode par = some c) :
    refuses env group par.hostname = false := by
  by_contra hr
  rw [initializeChmpx_of_refuses (Bool.eq_true_of_not_eq_false hr)] at h
  cases h

end Chmpx

/-- The parameters `InitializeServer` reads from a packet's record. -/
def ChmpxSvr.param (svr : ChmpxSvr) : ChmpxParam where
  hostname := svr.name
  port := svr.port
  ctlport := svr.ctlport
  cuk := svr.cuk
  customSeed := svr.customSeed
  endpoints := svr.endpoints
  ctlendpoints := svr.ctlendpoints
  forwardPeers := svr.forwardPeers
  reversePeers := svr.reversePeers

namespace Chmpx

/-- `InitializeServer` from a packet's record: whether it succeeded, and the
record it leaves in the node.  A chmpxid other than the computed one is refused
after the node has been initialised. -/
def initializeServer (env : Env) (type : ChmpxIdSeedType) (group : CStr) (svr : ChmpxSvr)
    (c : Chmpx) : Bool × Chmpx :=
  match initializeChmpx env type group .server svr.param with
  | none => (false, c)
  | some c =>
    if svr.chmpxid ≠ c.chmpxid then (false, c)
    else
      (true, { c with
        baseHash := svr.baseHash
        pendingHash := svr.pendingHash
        lastStatusTime := svr.lastStatusTime
        status := svr.status })

/-! ## Status and hashes -/

/-- `SetStatus`. -/
def setStatus (now : TimeT) (status : ChmpxSts) (c : Chmpx) : Option Chmpx :=
  if c.name.isEmpty then none
  else if !status.isSafe then none
  else some { c with status := status, lastStatusTime := now }

/-- `Set(base, pending, type)` on the record; the pointer arrays are the
caller's. -/
def set (now : TimeT) (base pending : ChmHash) (type : HashTg) (c : Chmpx) : Option Chmpx :=
  if c.name.isEmpty then none
  else some { c with
    baseHash := if type.isBase then base else c.baseHash
    pendingHash := if type.isPending then pending else c.pendingHash
    lastStatusTime := now }

/-- `IsServerMode`. -/
def isServerMode (c : Chmpx) : Bool := c.mode = .server

/-- `UpdateLastStatusTime`. -/
def updateLastStatusTime (now : TimeT) (c : Chmpx) : Option Chmpx :=
  if c.name.isEmpty then none else some { c with lastStatusTime := now }

/-- `GetChmpxSvr`. -/
def getChmpxSvr (c : Chmpx) : ChmpxSvr where
  chmpxid := c.chmpxid
  name := c.name
  baseHash := c.baseHash
  pendingHash := c.pendingHash
  port := c.port
  ctlport := c.ctlport
  lastStatusTime := c.lastStatusTime
  status := c.status
  cuk := c.cuk
  customSeed := c.customSeed
  endpoints := c.endpoints
  ctlendpoints := c.ctlendpoints
  forwardPeers := c.forwardPeers
  reversePeers := c.reversePeers

/-- The record without its hashes, its sockets, its status and its time. -/
def attrs (c : Chmpx) : Chmpx :=
  { c with
    baseHash := chmInvalidHashVal
    pendingHash := chmInvalidHashVal
    socklist := []
    ctlsock := chmInvalidSock
    selfsock := chmInvalidSock
    selfctlsock := chmInvalidSock
    lastStatusTime := 0
    status := ChmpxSts.slaveDownNormal }

/-! ## Merging a packet's record -/

/-- The record is about this chmpx: the same chmpxid and a name of the same host,
or, with custom seeds, a record named by this chmpx's seed. -/
def sameChmpx (env : Env) (type : ChmpxIdSeedType) (c : Chmpx) (svr : ChmpxSvr) : Bool :=
  (c.chmpxid = svr.chmpxid && env.isInHostnameList c.name svr.name) ||
    (type = .custom && strcmp c.customSeed svr.name = 0)

def changesPort (c : Chmpx) (svr : ChmpxSvr) : Bool :=
  c.port ≠ svr.port || !compareHostportPairs c.endpoints svr.endpoints

def changesCtlport (c : Chmpx) (svr : ChmpxSvr) : Bool :=
  c.ctlport ≠ svr.ctlport || !compareHostportPairs c.ctlendpoints svr.ctlendpoints

/-- A socket is open on the port that the record changes. -/
def blocksMerge (c : Chmpx) (svr : ChmpxSvr) : Bool :=
  (changesPort c svr && (!c.socklist.isEmpty || c.selfsock ≠ chmInvalidSock)) ||
    (changesCtlport c svr && (c.ctlsock ≠ chmInvalidSock || c.selfctlsock ≠ chmInvalidSock))

/-- The record's status is at least as new as this one's. -/
def takesStatus (env : Env) (c : Chmpx) (svr : ChmpxSvr) : Bool :=
  0 ≥ compareStatusUpdateTime env.basis c.lastStatusTime svr.lastStatusTime

/-- `MergeChmpxSvr` without force; the pointer arrays are the caller's. -/
def mergeChmpxSvr (env : Env) (type : ChmpxIdSeedType) (svr : ChmpxSvr) (c : Chmpx) :
    Option Chmpx :=
  if !sameChmpx env type c svr then none
  else if blocksMerge c svr then none
  else some { c with
    port := if changesPort c svr then svr.port else c.port
    endpoints := if changesPort c svr then svr.endpoints else c.endpoints
    ctlport := if changesCtlport c svr then svr.ctlport else c.ctlport
    ctlendpoints := if changesCtlport c svr then svr.ctlendpoints else c.ctlendpoints
    cuk := svr.cuk
    customSeed := svr.customSeed
    forwardPeers := svr.forwardPeers
    reversePeers := svr.reversePeers
    baseHash := svr.baseHash
    pendingHash := svr.pendingHash
    lastStatusTime := if takesStatus env c svr then svr.lastStatusTime else c.lastStatusTime
    status := if takesStatus env c svr then svr.status else c.status }

/-! ## The list order -/

/-- `compare_order`: negative when `other` is the smaller one. -/
def compareOrder (type : ChmpxIdSeedType) (c other : Chmpx) : Int :=
  if type = .custom ∧ strcmp other.customSeed c.customSeed ≠ 0 then
    strcmp other.customSeed c.customSeed
  else if strcmp other.name c.name ≠ 0 then strcmp other.name c.name
  else if other.ctlport ≠ c.ctlport then (if other.ctlport < c.ctlport then -1 else 1)
  else if strcmp other.cuk c.cuk ≠ 0 then strcmp other.cuk c.cuk
  else if type ≠ .custom then strcmp other.customSeed c.customSeed
  else 0

end Chmpx
end Chm
