/-
Runs of the manager.

A run starts at a manager that `Initialize` has set up and takes any of the
operations that write statuses, hashes or the server list.  Between them the parts
of the program that are not modelled may do what they like outside the server list
and the tables.  Every step has its own answers of the host name database and its
own clock.
-/
import Chm.Initialize

namespace Chm

/-- The operations on the server list and the rings. -/
inductive Op
  | mergeChmpxSvrs (args : ChmpxMan.MergeArgs) (records : List ChmpxSvr)
  | updateHash (type : HashTg) (isAllowOperating isAllowSlaveMode : Bool)
  | setServerStatus (chmpxid : ChmpxId) (status : ChmpxSts) (isClientJoin : Bool)
  | setSelfStatus (status : ChmpxSts) (isClientJoin : Bool)
  | setServerHash (chmpxid : ChmpxId) (base pending : ChmHash) (type : HashTg)
  | setSelfHash (base pending : ChmHash) (type : HashTg)
  | updateLastStatusTime (chmpxid : ChmpxId)
  | setSelfSocks (sock ctlsock : Int)

namespace ChmpxMan

variable {env : Env} {m m' : ChmpxMan} {svrs frees : List Ptr} {rest : List (List Ptr)} {p : Ptr}

/-- Run one operation. -/
def exec (env : Env) (m : ChmpxMan) : Op → Bool × ChmpxMan
  | .mergeChmpxSvrs args records =>
    let (ok, _, m) := mergeChmpxSvrs env args records m
    (ok, m)
  | .updateHash type isAllowOperating isAllowSlaveMode =>
    updateHash env type isAllowOperating isAllowSlaveMode m
  | .setServerStatus chmpxid status isClientJoin =>
    setServerStatus env chmpxid status isClientJoin m
  | .setSelfStatus status isClientJoin => setSelfStatus env status isClientJoin m
  | .setServerHash chmpxid base pending type => setServerHash env chmpxid base pending type m
  | .setSelfHash base pending type => setSelfHash env base pending type m
  | .updateLastStatusTime chmpxid => updateLastStatusTime env chmpxid m
  | .setSelfSocks sock ctlsock => setSelfSocks sock ctlsock m

/-- A step of the rest of the program: the server list, its nodes and the tables
stay as they are. -/
structure Elsewhere (m m' : ChmpxMan) : Prop where
  wellFormed : WellFormed m'
  head : m'.chmpxServers = m.chmpxServers
  nodes : m'.nodes m.chmpxServers = m.nodes m.chmpxServers
  chmpx : ∀ p ∈ m.nodes m.chmpxServers, m'.chmpx p = m.chmpx p
  srvs : ∀ r : Ring, r.srvs m' = r.srvs m
  count : m'.chmpxBhashCount = m.chmpxBhashCount

/-- The managers that a run reaches whose operations all meet `ok` when they
start. -/
inductive Reachable (ok : Env → Op → ChmpxMan → Prop) : ChmpxMan → Prop
  | init {env : Env} {cfg : ChmCfgInfo} {m : ChmpxMan} :
      initialized env cfg = some m → ConfigAllowed env cfg → Reachable ok m
  | step {m : ChmpxMan} (env : Env) (op : Op) :
      Reachable ok m → ok env op m → Reachable ok (m.exec env op).2
  | elsewhere {m m' : ChmpxMan} : Reachable ok m → Elsewhere m m' → Reachable ok m'

/-! ## The lists along a run -/

theorem SameRecords.checkAllServiceOutStatus (m : ChmpxMan) (env : Env) (cur : Cursor) :
    SameRecords m (m.checkAllServiceOutStatus env cur).2 :=
  written (P := fun _ _ => True)
    (Written.checkAllServiceOutStatus (fun _ => trivial) env cur m)

/-- The statuses that an operation can write besides the ones of merged records. -/
def statuses (m : ChmpxMan) : Op → List ChmpxSts
  | .setServerStatus chmpxid status isClientJoin =>
    statusesOfServer chmpxid status isClientJoin m
  | .setSelfStatus status isClientJoin => [statusOfSelf status isClientJoin m]
  | _ => []

/-- Every operation but the merge only writes records. -/
theorem exec_written {P : ChmpxMode → ChmpxSts → Prop} (env : Env) (m : ChmpxMan) {op : Op}
    (h : ∀ args records, op ≠ .mergeChmpxSvrs args records)
    (hP : ∀ st ∈ statuses m op, st.isSafe = true → ∀ mode, P mode st) :
    Written (Chmpx.StatusWrite P) m (m.exec env op).2 := by
  cases op with
  | mergeChmpxSvrs args records => exact absurd rfl (h args records)
  | updateHash type b b' => exact Written.updateHash P env type b b' m
  | setServerStatus chmpxid status b => exact Written.setServerStatus hP
  | setSelfStatus status b => exact Written.setSelfStatus (hP _ List.mem_cons_self)
  | setServerHash chmpxid base pending type => exact Written.setServerHash P env _ _ _ _ m
  | setSelfHash base pending type => exact Written.setSelfHash P env _ _ _ m
  | updateLastStatusTime chmpxid => exact Written.updateLastStatusTime P env _ m
  | setSelfSocks sock ctlsock => exact Written.setSelfSocks P _ _ m

/-- Every operation but the merge leaves the lists as they are. -/
theorem exec_sameRecords (env : Env) (m : ChmpxMan) {op : Op}
    (h : ∀ args records, op ≠ .mergeChmpxSvrs args records) : SameRecords m (m.exec env op).2 :=
  SameRecords.written (P := fun _ _ => True)
    (exec_written env m h fun _ _ _ _ => trivial)

/-- The condition of a run under which its merges keep the tables right. -/
def StepAllowed (env : Env) (op : Op) (m : ChmpxMan) : Prop :=
  match op with
  | .mergeChmpxSvrs _ records => MergeAllowed env records m
  | _ => True

/-- One allowed step keeps the lists well formed. -/
theorem exec_wellFormed {op : Op} (h : WellFormed m) (hok : StepAllowed env op m) :
    WellFormed (m.exec env op).2 := by
  by_cases hop : ∃ args records, op = .mergeChmpxSvrs args records
  · obtain ⟨args, records, rfl⟩ := hop
    by_cases hrec : records = []
    · rw [hrec]
      exact h
    · exact (mergeChmpxSvrs_agrees args h hrec hok).1
  · obtain ⟨svrs, frees, rest, hf⟩ := h
    have hs := exec_sameRecords env m fun args records he => hop ⟨args, records, he⟩
    exact ⟨svrs, frees, rest, hs.formed hf⟩

/-- A run keeps the lists well formed. -/
theorem reachable_wellFormed {ok : Env → Op → ChmpxMan → Prop} (h : Reachable ok m)
    (hok : ∀ env op m, ok env op m → StepAllowed env op m) : WellFormed m := by
  induction h with
  | init hinit hcfg => exact (initialized_spec hinit hcfg).1
  | step env op _ hstep ih => exact exec_wellFormed ih (hok env op _ hstep)
  | elsewhere _ he _ => exact he.wellFormed

/-- A host name database that knows every name as itself, and a chmpxid that is
read off the seed. -/
def sampleEnv : Env where
  hash seed := seed.sum
  hash2nd seed := seed.length
  toHexstring n := [n.toNat]
  toDecstring n := [n.toNat]
  getHostnameList name := [name]
  getIpAddressStringList _ := []
  getAllHostList _ := []
  isInHostnameList name name' := name = name'
  basis := 0
  now _ := 1

/-- The server whose host name is the one byte `name`. -/
def sampleParam (name : Nat) : ChmpxParam where
  hostname := [name]
  port := 8020
  ctlport := 8021
  cuk := []
  customSeed := []
  endpoints := []
  ctlendpoints := []
  forwardPeers := []
  reversePeers := []

def sampleGroup : CStr := [103]

/-- A record of that server with a status. -/
def sampleSvr (name : Nat) (status : ChmpxSts) : ChmpxSvr where
  chmpxid := makeChmpxId sampleEnv sampleGroup .name [name] 8021 [] [] []
  name := [name]
  baseHash := chmInvalidHashVal
  pendingHash := chmInvalidHashVal
  port := 8020
  ctlport := 8021
  lastStatusTime := 1
  status := status
  cuk := []
  customSeed := []
  endpoints := []
  ctlendpoints := []
  forwardPeers := []
  reversePeers := []

/-- An area of four nodes, a slave or a server as this node, and one configured
server. -/
def sampleCfg (isServerMode : Bool) : ChmCfgInfo where
  groupname := sampleGroup
  replicaCount := 1
  maxChmpxCount := 4
  isServerMode := isServerMode
  chmpxidType := .name
  selfnode := sampleParam 97
  selfname := []
  servers := [sampleParam 98]
  sockCount := 8

def sampleArgs (isRemove : Bool) : MergeArgs :=
  ⟨.name, false, isRemove, false, true⟩

/-- The manager of the sample configuration. -/
def sampleMan (isServerMode : Bool) : ChmpxMan :=
  (initialized sampleEnv (sampleCfg isServerMode)).getD (freshArea (sampleCfg isServerMode))

theorem sampleMan_eq (isServerMode : Bool) :
    initialized sampleEnv (sampleCfg isServerMode) = some (sampleMan isServerMode) := by
  cases isServerMode <;> rfl

theorem sampleCfg_allowed (isServerMode : Bool) :
    ConfigAllowed sampleEnv (sampleCfg isServerMode) := by
  cases isServerMode <;> refine ⟨?_, ?_⟩ <;> decide +kernel

end ChmpxMan
end Chm
