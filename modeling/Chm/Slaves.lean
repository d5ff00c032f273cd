/-
The slaves of a node and the sockets of its servers and slaves.

A slave that connects is looked up by its chmpxid from the slave list, so that the
search finds slaves, and in slave mode this node itself.  A known one is initialised
again where it is, an unknown one gets a node of the free list.  A socket is a node of
the free socket list while no chmpx has it.
-/
import Chm.ChmpxMan

namespace Chm

/-- What a slave tells about itself when it connects. -/
structure SlaveBase where
  hostname : CStr
  ctlport : Int
  cuk : CStr
  customSeed : CStr
  endpoints : List HostPort
  ctlendpoints : List HostPort
  forwardPeers : List HostPort
  reversePeers : List HostPort
  deriving DecidableEq, Repr

/-- `EXTERNAL_EP_MAX`, `FORWARD_PEER_MAX` and `REVERSE_PEER_MAX`. -/
def externalEpMax : Nat := 4

/-- `cvt_hostport_pairs`: a list as an array. -/
def cvtHostportPairs (src : List HostPort) : List HostPort :=
  let set := src.filter fun hp => !(hp.name = [] && hp.port = chmInvalidPort)
  let copied := (set.take externalEpMax).map fun hp =>
    { hp with name := hp.name.take (niMaxhost - 1) }
  copied ++ List.replicate (externalEpMax - copied.length) ⟨[], chmInvalidPort⟩

/-- `rev_hostport_pairs`: an array as a list. -/
def revHostportPairs (src : List HostPort) : List HostPort :=
  src.filter fun hp => !hp.name.isEmpty

/-- `get_hostports_string`. -/
def getHostportsString (env : Env) (list : List HostPort) : CStr :=
  list.foldl (fun result hp =>
    (if result = [] then [] else result ++ [44]) ++ hp.name ++
      (if hp.port = chmInvalidPort then [] else 58 :: env.toDecstring hp.port)) []

/-- The parameters of `InitializeSlave`. -/
def SlaveBase.param (base : SlaveBase) : ChmpxParam where
  hostname := base.hostname
  port := chmInvalidPort
  ctlport := base.ctlport
  cuk := base.cuk
  customSeed := base.customSeed
  endpoints := cvtHostportPairs base.endpoints
  ctlendpoints := cvtHostportPairs base.ctlendpoints
  forwardPeers := cvtHostportPairs base.forwardPeers
  reversePeers := cvtHostportPairs base.reversePeers

/-- The chmpxid that `SetSlaveBase` expects. -/
def SlaveBase.chmpxid (env : Env) (group : CStr) (type : ChmpxIdSeedType) (base : SlaveBase) :
    ChmpxId :=
  makeChmpxId env group type base.hostname base.ctlport base.cuk
    (getHostportsString env base.ctlendpoints) base.customSeed

namespace ChmpxMan

/-! ## Sockets -/

/-- `chmpx_lap::Set(sock, ctlsock, ..)`; the two flags are the bits of its type. -/
def setSock (sock ctlsock : Int) (isSock isCtlsock : Bool) (p : Ptr) (m : ChmpxMan) :
    Bool × ChmpxMan :=
  let c := m.chmpx p
  let takes := isSock && sock ≠ chmInvalidSock
  if c.name.isEmpty then (false, m)
  else if takes && (m.sockFreeCount = 0 || m.sockFrees = 0) then (false, m)
  else
    let m := if takes then
        (m.setSocks (m.sockFreeCount - 1) (m.sockFrees - 1)).setChmpx p
          { c with socklist := sock :: c.socklist }
      else m
    (true, if isCtlsock then m.setChmpx p { m.chmpx p with ctlsock := ctlsock } else m)

/-- `chmpx_lap::Remove`. -/
def removeSock (sock : Int) (p : Ptr) (m : ChmpxMan) : Bool × ChmpxMan :=
  let c := m.chmpx p
  if c.name.isEmpty || sock = chmInvalidSock then (false, m)
  else if sock ∈ c.socklist then
    (true, (m.setSocks (m.sockFreeCount + 1) (m.sockFrees + 1)).setChmpx p
      { c with socklist := c.socklist.erase sock })
  else (true, m)

/-- `SetServerSocks`. -/
def setServerSocks (chmpxid : ChmpxId) (sock ctlsock : Int) (isSock isCtlsock : Bool)
    (m : ChmpxMan) : Bool × ChmpxMan :=
  match m.find m.chmpxServers chmpxid with
  | none => (false, m)
  | some p => m.setSock sock ctlsock isSock isCtlsock p

/-- `RemoveServerSock`. -/
def removeServerSock (chmpxid : ChmpxId) (sock : Int) (m : ChmpxMan) : Bool × ChmpxMan :=
  match m.find m.chmpxServers chmpxid with
  | none => (false, m)
  | some p => m.removeSock sock p

/-- `SetSlaveSock`. -/
def setSlaveSock (chmpxid : ChmpxId) (sock : Int) (m : ChmpxMan) : Bool × ChmpxMan :=
  if sock = chmInvalidSock then (false, m)
  else
    match m.find m.chmpxSlaves chmpxid with
    | none => (false, m)
    | some p => m.setSock sock chmInvalidSock true false p

/-- `RemoveSlaveSock`. -/
def removeSlaveSock (chmpxid : ChmpxId) (sock : Int) (m : ChmpxMan) : Bool × ChmpxMan :=
  match m.find m.chmpxSlaves chmpxid with
  | none => (false, m)
  | some p => m.removeSock sock p

/-! ## Slaves -/

/-- `InitializeSlave`. -/
def initializeSlave (env : Env) (type : ChmpxIdSeedType) (base : SlaveBase) (p : Option Ptr)
    (m : ChmpxMan) : ChmpxMan :=
  m.initializeAt env type m.group .slave base.param p

/-- Put a new node into the slave list. -/
def insertSlave (type : ChmpxIdSeedType) (p : Option Ptr) (m : ChmpxMan) : ChmpxMan :=
  match m.chmpxSlaves with
  | some c =>
    let (cur, m) := match p with
      | none => (some c, m)
      | some p => m.insert type c p
    m.setSlaves (m.chmpxSlaveCount + 1) (m.getFirstPtr cur)
  | none =>
    let m := match p with
      | none => m
      | some p => m.saveChmpxIdMap p
    m.setSlaves 1 p

/-- `SetSlaveBase`. -/
def setSlaveBase (env : Env) (type : ChmpxIdSeedType) (chmpxid : ChmpxId) (base : SlaveBase)
    (m : ChmpxMan) : Bool × ChmpxMan :=
  if base.hostname.isEmpty || chmpxid ≠ base.chmpxid env m.group type then (false, m)
  else
    match m.find m.chmpxSlaves chmpxid with
    | some p => (true, m.initializeSlave env type base (some p))
    | none =>
      if m.chmpxFreeCount = 0 then (false, m)
      else
        let (p, frees, m) := m.popAny m.chmpxFrees
        let m := m.setFrees (m.chmpxFreeCount - 1) (m.getFirstPtr frees)
        (true, insertSlave type p (m.initializeSlave env type base p))

/-- The call of a slave that is known, with the chmpxid that it computes. -/
theorem setSlaveBase_of_found {env : Env} {type : ChmpxIdSeedType} {chmpxid : ChmpxId}
    {base : SlaveBase} {m : ChmpxMan} {p : Ptr} (hhost : base.hostname ≠ [])
    (hid : chmpxid = base.chmpxid env m.group type)
    (hf : m.find m.chmpxSlaves chmpxid = some p) :
    setSlaveBase env type chmpxid base m = (true, m.initializeSlave env type base (some p)) := by
  have hok : ¬(base.hostname.isEmpty || decide (chmpxid ≠ base.chmpxid env m.group type)) =
      true := by simp [hhost, hid]
  rw [setSlaveBase, if_neg hok, hf]

/-- The call of one that is not. -/
theorem setSlaveBase_of_notFound {env : Env} {type : ChmpxIdSeedType} {chmpxid : ChmpxId}
    {base : SlaveBase} {m : ChmpxMan} (hhost : base.hostname ≠ [])
    (hid : chmpxid = base.chmpxid env m.group type)
    (hf : m.find m.chmpxSlaves chmpxid = none) :
    setSlaveBase env type chmpxid base m =
      if m.chmpxFreeCount = 0 then (false, m)
      else
        let (p, frees, m) := m.popAny m.chmpxFrees
        let m := m.setFrees (m.chmpxFreeCount - 1) (m.getFirstPtr frees)
        (true, insertSlave type p (m.initializeSlave env type base p)) := by
  have hok : ¬(base.hostname.isEmpty || decide (chmpxid ≠ base.chmpxid env m.group type)) =
      true := by simp [hhost, hid]
  rw [setSlaveBase, if_neg hok, hf]

/-- `SetSlaveStatus`. -/
def setSlaveStatus (env : Env) (chmpxid : ChmpxId) (status : ChmpxSts) (m : ChmpxMan) :
    Bool × ChmpxMan :=
  match m.find m.chmpxSlaves chmpxid with
  | none => (false, m)
  | some p => m.setStatus env (if status.isSuspend then status.setNosup else status) p

/-- `GetSlaveBase`. -/
def getSlaveBase (chmpxid : ChmpxId) (m : ChmpxMan) : Option SlaveBase :=
  match m.find m.chmpxSlaves chmpxid with
  | none => none
  | some p =>
    let c := m.chmpx p
    if c.name.isEmpty then none
    else some {
      hostname := c.name
      ctlport := c.ctlport
      cuk := c.cuk
      customSeed := c.customSeed
      endpoints := revHostportPairs c.endpoints
      ctlendpoints := revHostportPairs c.ctlendpoints
      forwardPeers := revHostportPairs c.forwardPeers
      reversePeers := revHostportPairs c.reversePeers }

/-- `ChmIMData::SetSlaveAll`: a slave that is known with the same parameters only gets
the socket and the status. -/
def setSlaveAll (env : Env) (type : ChmpxIdSeedType) (chmpxid : ChmpxId) (base : SlaveBase)
    (sock : Int) (status : ChmpxSts) (m : ChmpxMan) : Bool × ChmpxMan :=
  let (ok, m) := if m.getSlaveBase chmpxid = some base then (true, m)
    else m.setSlaveBase env type chmpxid base
  if !ok then (false, m)
  else
    let (ok, m) := m.setSlaveSock chmpxid sock
    if !ok then (false, m) else m.setSlaveStatus env chmpxid status

/-- `RemoveSlave`. -/
def removeSlave (chmpxid : ChmpxId) (eqfd : Bool) (m : ChmpxMan) : Bool × ChmpxMan :=
  match m.find m.chmpxSlaves chmpxid with
  | none => (true, m)
  | some p =>
    let (cur, m) := m.retrieve p
    let m := match cur with
      | none => m.setSlaves 0 none
      | some _ => m.setSlaves (m.chmpxSlaveCount - 1) (m.getFirstPtr cur)
    (true, m.giveBack eqfd p)

end ChmpxMan
end Chm
