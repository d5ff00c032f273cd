/-
The configuration record, how two of them are compared and how one is assigned to another.

`CheckUpdate` loads the configuration again and tells by `compare` whether something changed;
`GetConfiguration` hands the current one out by `operator=`.  `compare` leaves the date and the
sizes of the K2hash out on purpose and misses `self_cuk`; `operator=` appends the two lists of
nodes to the ones that are there.
-/
import Chm.Base

namespace Chm
namespace Conf

/-! ## The records -/

/-- `HOSTPORTPAIR`. -/
structure HostPortPair where
  host : CStr
  port : Int
  deriving DecidableEq, Repr

/-- `HOSTPORTPAIR::compare`. -/
def HostPortPair.compare (a b : HostPortPair) : Bool := a.host == b.host && a.port == b.port

/-- `CHMNODE_CFGINFO`. -/
structure NodeCfgInfo where
  name : CStr
  port : Int
  ctlport : Int
  isSsl : Bool
  verifyPeer : Bool
  isCaFile : Bool
  capath : CStr
  serverCert : CStr
  serverPrikey : CStr
  slaveCert : CStr
  slavePrikey : CStr
  cuk : CStr
  endpoints : List HostPortPair
  ctlendpoints : List HostPortPair
  forwardPeers : List HostPortPair
  reversePeers : List HostPortPair
  customSeed : CStr
  deriving DecidableEq, Repr

/-- `==` of two `std::list`s, with the comparison of their elements. -/
def compareLists {α : Type} (eq : α → α → Bool) : List α → List α → Bool
  | [], [] => true
  | a :: as, b :: bs => eq a b && compareLists eq as bs
  | _, _ => false

/-- `CHMNODE_CFGINFO::compare`. -/
def NodeCfgInfo.compare (a b : NodeCfgInfo) : Bool :=
  a.name == b.name &&
  a.port == b.port &&
  a.ctlport == b.ctlport &&
  a.isSsl == b.isSsl &&
  a.verifyPeer == b.verifyPeer &&
  a.isCaFile == b.isCaFile &&
  a.capath == b.capath &&
  a.serverCert == b.serverCert &&
  a.serverPrikey == b.serverPrikey &&
  a.slaveCert == b.slaveCert &&
  a.slavePrikey == b.slavePrikey &&
  a.cuk == b.cuk &&
  compareLists HostPortPair.compare a.endpoints b.endpoints &&
  compareLists HostPortPair.compare a.ctlendpoints b.ctlendpoints &&
  compareLists HostPortPair.compare a.forwardPeers b.forwardPeers &&
  compareLists HostPortPair.compare a.reversePeers b.reversePeers &&
  a.customSeed == b.customSeed

/-- `CHMCFGINFO`. -/
structure CfgInfo where
  groupname : CStr
  revision : Int
  isServerMode : Bool
  isRandomMode : Bool
  selfCtlport : Int
  selfCuk : CStr
  chmpxidType : ChmpxIdSeedType
  maxChmpxCount : Int
  replicaCount : Int
  maxServerMqCnt : Int
  maxClientMqCnt : Int
  mqcntPerAttach : Int
  maxQPerServermq : Int
  maxQPerClientmq : Int
  maxMqPerClient : Int
  maxHistlogCount : Int
  retrycnt : Int
  mqRetrycnt : Int
  mqAck : Bool
  timeoutWaitSocket : Int
  timeoutWaitConnect : Int
  timeoutWaitMq : Int
  isAutoMerge : Bool
  isDoMerge : Bool
  timeoutMerge : Int
  sockThreadCnt : Int
  mqThreadCnt : Int
  maxSockPool : Int
  sockPoolTimeout : Int
  k2hFullmap : Bool
  k2hMaskBitcnt : Int
  k2hCmaskBitcnt : Int
  k2hMaxElement : Int
  date : Int
  sslMinVer : Int
  nssdbDir : CStr
  servers : List NodeCfgInfo
  slaves : List NodeCfgInfo
  deriving DecidableEq, Repr

namespace CfgInfo

/-- `CHMCFGINFO::compare`. -/
def compare (a b : CfgInfo) : Bool :=
  a.groupname == b.groupname &&
  a.revision == b.revision &&
  a.isServerMode == b.isServerMode &&
  a.isRandomMode == b.isRandomMode &&
  a.selfCtlport == b.selfCtlport &&
  -- `self_cuk` has no line here
  a.chmpxidType == b.chmpxidType &&
  a.maxChmpxCount == b.maxChmpxCount &&
  a.replicaCount == b.replicaCount &&
  a.maxServerMqCnt == b.maxServerMqCnt &&
  a.maxClientMqCnt == b.maxClientMqCnt &&
  a.mqcntPerAttach == b.mqcntPerAttach &&
  a.maxQPerServermq == b.maxQPerServermq &&
  a.maxQPerClientmq == b.maxQPerClientmq &&
  a.maxMqPerClient == b.maxMqPerClient &&
  a.maxHistlogCount == b.maxHistlogCount &&
  a.retrycnt == b.retrycnt &&
  a.mqRetrycnt == b.mqRetrycnt &&
  a.mqAck == b.mqAck &&
  a.timeoutWaitSocket == b.timeoutWaitSocket &&
  a.timeoutWaitConnect == b.timeoutWaitConnect &&
  a.timeoutWaitMq == b.timeoutWaitMq &&
  a.isAutoMerge == b.isAutoMerge &&
  a.isDoMerge == b.isDoMerge &&
  a.timeoutMerge == b.timeoutMerge &&
  a.sockThreadCnt == b.sockThreadCnt &&
  a.mqThreadCnt == b.mqThreadCnt &&
  a.maxSockPool == b.maxSockPool &&
  a.sockPoolTimeout == b.sockPoolTimeout &&
  a.sslMinVer == b.sslMinVer &&
  a.nssdbDir == b.nssdbDir &&
  compareLists NodeCfgInfo.compare a.servers b.servers &&
  compareLists NodeCfgInfo.compare a.slaves b.slaves

/-- `CHMCFGINFO::operator=`. -/
def assign (a other : CfgInfo) : CfgInfo where
  groupname := other.groupname
  revision := other.revision
  isServerMode := other.isServerMode
  isRandomMode := other.isRandomMode
  selfCtlport := other.selfCtlport
  selfCuk := other.selfCuk
  chmpxidType := other.chmpxidType
  maxChmpxCount := other.maxChmpxCount
  replicaCount := other.replicaCount
  maxServerMqCnt := other.maxServerMqCnt
  maxClientMqCnt := other.maxClientMqCnt
  mqcntPerAttach := other.mqcntPerAttach
  maxQPerServermq := other.maxQPerServermq
  maxQPerClientmq := other.maxQPerClientmq
  maxMqPerClient := other.maxMqPerClient
  maxHistlogCount := other.maxHistlogCount
  retrycnt := other.retrycnt
  mqRetrycnt := other.mqRetrycnt
  mqAck := other.mqAck
  timeoutWaitSocket := other.timeoutWaitSocket
  timeoutWaitConnect := other.timeoutWaitConnect
  timeoutWaitMq := other.timeoutWaitMq
  isAutoMerge := other.isAutoMerge
  isDoMerge := other.isDoMerge
  timeoutMerge := other.timeoutMerge
  sockThreadCnt := other.sockThreadCnt
  mqThreadCnt := other.mqThreadCnt
  maxSockPool := other.maxSockPool
  sockPoolTimeout := other.sockPoolTimeout
  k2hFullmap := other.k2hFullmap
  k2hMaskBitcnt := other.k2hMaskBitcnt
  k2hCmaskBitcnt := other.k2hCmaskBitcnt
  k2hMaxElement := other.k2hMaxElement
  date := other.date
  sslMinVer := other.sslMinVer
  nssdbDir := other.nssdbDir
  servers := other.servers.foldl (fun servers one => servers ++ [one]) a.servers
  slaves := other.slaves.foldl (fun slaves one => slaves ++ [one]) a.slaves

end CfgInfo

/-! ## The configuration object -/

/-- The members of `CHMConf` that these functions use. -/
structure ConfObj where
  isFileType : Bool
  pchmcfginfo : Option CfgInfo
  /-- `LoopBreakHandler` was called. -/
  loopBreak : Bool
  deriving DecidableEq

/-- What a call finds outside: `is_file_safe_exist` of the file, and the record that
`LoadConfiguration` fills, or its failure. -/
structure Outside where
  safeExist : Bool
  loaded : Option CfgInfo

namespace ConfObj

/-- `CheckConfFile`. -/
def checkConfFile (c : ConfObj) (io : Outside) : Bool := c.isFileType && io.safeExist

/-- `CheckUpdate`. -/
def checkUpdate (c : ConfObj) (io : Outside) : Bool × ConfObj :=
  if c.pchmcfginfo.isSome && !c.checkConfFile io then (false, c)
  else
    match io.loaded with
    | none => (false, { c with loopBreak := true })
    | some newinfo =>
      match c.pchmcfginfo with
      | some old => (!old.compare newinfo, { c with pchmcfginfo := some newinfo })
      | none => (true, { c with pchmcfginfo := some newinfo })

/-- `GetConfiguration` into `config`. -/
def getConfiguration (c : ConfObj) (io : Outside) (isCheckUpdate : Bool) (config : CfgInfo) :
    Bool × CfgInfo × ConfObj :=
  if c.isFileType && !c.checkConfFile io then (false, config, c)
  else
    let c := if isCheckUpdate || c.pchmcfginfo.isNone then (c.checkUpdate io).2 else c
    match c.pchmcfginfo with
    | none => (false, config, c)
    | some info => (true, config.assign info, c)

end ConfObj

/-! ## Comparing -/

theorem HostPortPair.compare_iff {a b : HostPortPair} : a.compare b = true ↔ a = b := by
  obtain ⟨host, port⟩ := a
  obtain ⟨host', port'⟩ := b
  simp only [compare, Bool.and_eq_true, beq_iff_eq, HostPortPair.mk.injEq]

theorem compareLists_iff {α : Type} {eq : α → α → Bool} (heq : ∀ a b, eq a b = true ↔ a = b) :
    ∀ as bs : List α, compareLists eq as bs = true ↔ as = bs := by
  intro as
  induction as with
  | nil => intro bs; cases bs <;> simp [compareLists]
  | cons a as ih =>
    intro bs
    cases bs with
    | nil => simp [compareLists]
    | cons b bs => rw [compareLists, Bool.and_eq_true, heq, ih, List.cons.injEq]

/-- Nodes are compared in every member. -/
theorem NodeCfgInfo.compare_iff {a b : NodeCfgInfo} : a.compare b = true ↔ a = b := by
  have hlists := compareLists_iff fun a b : HostPortPair => HostPortPair.compare_iff
  rw [compare]
  cases a
  cases b
  simp only [Bool.and_eq_true, beq_iff_eq, hlists, NodeCfgInfo.mk.injEq, and_assoc]

namespace CfgInfo

/-- The settings in use after a reload: the date and the sizes of the K2hash are blanked. -/
def used (a : CfgInfo) : CfgInfo :=
  { a with
    k2hFullmap := true, k2hMaskBitcnt := 0, k2hCmaskBitcnt := 0, k2hMaxElement := 0, date := 0 }

/-- The settings in use without `self_cuk`. -/
def usedButCuk (a : CfgInfo) : CfgInfo := { a.used with selfCuk := [] }

/-- `compare` looks at every setting in use but `self_cuk`. -/
theorem compare_iff {a b : CfgInfo} : a.compare b = true ↔ a.usedButCuk = b.usedButCuk := by
  have hlists := compareLists_iff fun a b : NodeCfgInfo => NodeCfgInfo.compare_iff
  rw [compare, usedButCuk, usedButCuk, used, used]
  cases a
  cases b
  simp only [Bool.and_eq_true, beq_iff_eq, hlists, CfgInfo.mk.injEq, true_and, and_assoc]

theorem used_eq_iff {a b : CfgInfo} :
    a.used = b.used ↔ a.selfCuk = b.selfCuk ∧ a.usedButCuk = b.usedButCuk := by
  constructor
  · intro h
    have hcuk : a.used.selfCuk = b.used.selfCuk := by rw [h]
    exact ⟨hcuk, by rw [usedButCuk, usedButCuk, h]⟩
  · intro ⟨hcuk, h⟩
    calc
      a.used = { a.usedButCuk with selfCuk := a.selfCuk } := rfl
      _ = { b.usedButCuk with selfCuk := b.selfCuk } := by rw [h, hcuk]
      _ = b.used := rfl

/-! ## Assigning -/

theorem foldl_push (as bs : List NodeCfgInfo) :
    bs.foldl (fun nodes one => nodes ++ [one]) as = as ++ bs := by
  induction bs generalizing as with
  | nil => rw [List.foldl_nil, List.append_nil]
  | cons b bs ih => rw [List.foldl_cons, ih, List.append_assoc, List.singleton_append]

theorem assign_eq (a other : CfgInfo) :
    a.assign other =
      { other with servers := a.servers ++ other.servers, slaves := a.slaves ++ other.slaves } := by
  rw [assign, foldl_push, foldl_push]

/-- An assignment replaces the record if it had no nodes, and only then. -/
theorem assign_eq_iff {a other : CfgInfo} :
    a.assign other = other ↔ a.servers = [] ∧ a.slaves = [] := by
  rw [assign_eq]
  constructor
  · intro h
    have hservers : a.servers ++ other.servers = other.servers := congrArg CfgInfo.servers h
    have hslaves : a.slaves ++ other.slaves = other.slaves := congrArg CfgInfo.slaves h
    exact ⟨List.append_left_eq_self.1 hservers, List.append_left_eq_self.1 hslaves⟩
  · intro ⟨hservers, hslaves⟩
    rw [hservers, hslaves, List.nil_append, List.nil_append]

end CfgInfo

/-! ## Checking and reading -/

namespace ConfObj

variable {c : ConfObj} {io : Outside} {old : CfgInfo}

/-- A loaded configuration is replaced by the one of the file, if there is one that loads. -/
theorem checkUpdate_held (hold : c.pchmcfginfo = some old) :
    c.checkUpdate io =
      if c.checkConfFile io = false then (false, c)
      else
        match io.loaded with
        | none => (false, { c with loopBreak := true })
        | some newinfo => (!old.compare newinfo, { c with pchmcfginfo := some newinfo }) := by
  rw [checkUpdate, hold, Option.isSome_some, Bool.true_and]
  by_cases hfile : c.checkConfFile io = false
  · rw [hfile, if_pos rfl, if_pos (show (!false) = true from rfl)]
  · rw [if_neg hfile, Bool.eq_true_of_not_eq_false hfile,
      if_neg (show ¬(!true) = true from Bool.false_ne_true)]

/-- The answer of `CheckUpdate` says whether the settings in use of the configuration that is
held afterwards differ from those of the one before. -/
def ReportsUpdate (c : ConfObj) (io : Outside) (old : CfgInfo) : Prop :=
  ∃ new, (c.checkUpdate io).2.pchmcfginfo = some new ∧
    ((c.checkUpdate io).1 = true ↔ old.used ≠ new.used)

/-- The file that replaces the configuration has the same `self_cuk`, or another setting in use
that differs. -/
def CukNotAlone (c : ConfObj) (io : Outside) (old : CfgInfo) : Prop :=
  c.checkConfFile io = true → ∀ new, io.loaded = some new →
    old.selfCuk = new.selfCuk ∨ old.usedButCuk ≠ new.usedButCuk

theorem reportsUpdate_iff (hold : c.pchmcfginfo = some old) :
    c.ReportsUpdate io old ↔ c.CukNotAlone io old := by
  rw [ReportsUpdate, checkUpdate_held hold, CukNotAlone]
  by_cases hfile : c.checkConfFile io = false
  · rw [if_pos hfile, hfile]
    exact ⟨fun _ h => absurd h Bool.false_ne_true,
      fun _ => ⟨old, hold, fun h => absurd h Bool.false_ne_true, fun h => absurd rfl h⟩⟩
  rw [if_neg hfile]
  cases hload : io.loaded with
  | none =>
    exact ⟨fun _ _ _ h => absurd h (by simp),
      fun _ => ⟨old, hold, fun h => absurd h Bool.false_ne_true, fun h => absurd rfl h⟩⟩
  | some new =>
    have hanswer : (!old.compare new) = true ↔ old.usedButCuk ≠ new.usedButCuk := by
      rw [Bool.not_eq_true', ← Bool.not_eq_true, CfgInfo.compare_iff]
    have hreport : ((!old.compare new) = true ↔ old.used ≠ new.used) ↔
        old.selfCuk = new.selfCuk ∨ old.usedButCuk ≠ new.usedButCuk := by
      rw [hanswer, ne_eq, ne_eq, CfgInfo.used_eq_iff]
      tauto
    constructor
    · intro ⟨new', hnew, h⟩ _ new'' hnew''
      cases Option.some.inj hnew
      cases Option.some.inj hnew''
      exact hreport.1 h
    · intro h
      exact ⟨new, rfl, hreport.2 (h (Bool.eq_true_of_not_eq_false hfile) new rfl)⟩

/-- `GetConfiguration` assigns the configuration that is held after the call. -/
theorem getConfiguration_assigns {isCheckUpdate : Bool} {prior : CfgInfo}
    (h : (c.getConfiguration io isCheckUpdate prior).1 = true) :
    ∃ cur, (c.getConfiguration io isCheckUpdate prior).2.2.pchmcfginfo = some cur ∧
      (c.getConfiguration io isCheckUpdate prior).2.1 = prior.assign cur := by
  rw [getConfiguration] at h ⊢
  by_cases hfile : (c.isFileType && !c.checkConfFile io) = true
  · rw [if_pos hfile] at h
    exact absurd h Bool.false_ne_true
  rw [if_neg hfile] at h ⊢
  dsimp only at h ⊢
  generalize (if (isCheckUpdate || c.pchmcfginfo.isNone) = true then (c.checkUpdate io).2
    else c) = c' at h ⊢
  cases hcur : c'.pchmcfginfo with
  | none =>
    rw [hcur] at h
    exact absurd h Bool.false_ne_true
  | some cur => exact ⟨cur, hcur, rfl⟩

/-- `CheckUpdate` reports a change of the settings in use unless `self_cuk` is the only one that
differs; `GetConfiguration` leaves the caller's record equal to the current configuration if the
record had no nodes, and only then. -/
theorem checkUpdate_getConfiguration_iff (c : ConfObj) (io : Outside) :
    (∀ old, c.pchmcfginfo = some old → (c.ReportsUpdate io old ↔ c.CukNotAlone io old)) ∧
    ∀ (isCheckUpdate : Bool) (prior : CfgInfo),
      (c.getConfiguration io isCheckUpdate prior).1 = true →
      ((c.getConfiguration io isCheckUpdate prior).2.2.pchmcfginfo =
          some (c.getConfiguration io isCheckUpdate prior).2.1 ↔
        prior.servers = [] ∧ prior.slaves = []) := by
  refine ⟨fun old hold => reportsUpdate_iff hold, fun isCheckUpdate prior h => ?_⟩
  obtain ⟨cur, hcur, hassign⟩ := getConfiguration_assigns h
  rw [hcur, hassign, Option.some.injEq, eq_comm, CfgInfo.assign_eq_iff]

end ConfObj

/-! ## A reload that changes `self_cuk` only -/

def sampleNode : NodeCfgInfo where
  name := [97]
  port := 8020
  ctlport := 8021
  isSsl := false
  verifyPeer := false
  isCaFile := false
  capath := []
  serverCert := []
  serverPrikey := []
  slaveCert := []
  slavePrikey := []
  cuk := []
  endpoints := []
  ctlendpoints := []
  forwardPeers := []
  reversePeers := []
  customSeed := []

def sampleCfgInfo (selfCuk : CStr) : CfgInfo where
  groupname := [103]
  revision := 1
  isServerMode := true
  isRandomMode := false
  selfCtlport := 8021
  selfCuk := selfCuk
  chmpxidType := .name
  maxChmpxCount := 1024
  replicaCount := 0
  maxServerMqCnt := 1
  maxClientMqCnt := 1
  mqcntPerAttach := 1
  maxQPerServermq := 1
  maxQPerClientmq := 1
  maxMqPerClient := 1
  maxHistlogCount := 0
  retrycnt := -1
  mqRetrycnt := -1
  mqAck := true
  timeoutWaitSocket := -1
  timeoutWaitConnect := -1
  timeoutWaitMq := -1
  isAutoMerge := false
  isDoMerge := false
  timeoutMerge := 0
  sockThreadCnt := 0
  mqThreadCnt := 0
  maxSockPool := 1
  sockPoolTimeout := 0
  k2hFullmap := true
  k2hMaskBitcnt := 8
  k2hCmaskBitcnt := 4
  k2hMaxElement := 32
  date := 0
  sslMinVer := 0
  nssdbDir := []
  servers := [sampleNode]
  slaves := []

/-- A loaded object whose file is there. -/
def sampleConf (selfCuk : CStr) : ConfObj := ⟨true, some (sampleCfgInfo selfCuk), false⟩

/-- A reload that only brings another `self_cuk` is reported as no change, and reading into the
record that was read before doubles the servers. -/
theorem checkUpdate_getConfiguration_fail :
    (((sampleConf [120]).checkUpdate ⟨true, some (sampleCfgInfo [121])⟩).1 = false ∧
      ((sampleConf [120]).checkUpdate ⟨true, some (sampleCfgInfo [121])⟩).2.pchmcfginfo =
        some (sampleCfgInfo [121]) ∧
      (sampleCfgInfo [120]).used ≠ (sampleCfgInfo [121]).used) ∧
    ((sampleConf [120]).getConfiguration ⟨true, none⟩ false (sampleCfgInfo [120])).1 = true ∧
    ((sampleConf [120]).getConfiguration ⟨true, none⟩ false (sampleCfgInfo [120])).2.1 ≠
      sampleCfgInfo [120] ∧
    ((sampleConf [120]).getConfiguration ⟨true, none⟩ false (sampleCfgInfo [120])).2.2 =
      sampleConf [120] := by
  decide +kernel

theorem checkUpdate_getConfiguration_iff_sample :
    ¬(sampleConf [120]).ReportsUpdate ⟨true, some (sampleCfgInfo [121])⟩ (sampleCfgInfo [120]) ∧
    ((sampleConf [120]).getConfiguration ⟨true, none⟩ false
        { sampleCfgInfo [] with servers := [] }).2.2.pchmcfginfo =
      some ((sampleConf [120]).getConfiguration ⟨true, none⟩ false
        { sampleCfgInfo [] with servers := [] }).2.1 := by
  constructor
  · rw [((sampleConf [120]).checkUpdate_getConfiguration_iff
      ⟨true, some (sampleCfgInfo [121])⟩).1 (sampleCfgInfo [120]) rfl]
    intro h
    exact absurd (h rfl _ rfl) (by decide +kernel)
  · exact (((sampleConf [120]).checkUpdate_getConfiguration_iff ⟨true, none⟩).2 false
      { sampleCfgInfo [] with servers := [] } (by decide +kernel)).2 ⟨rfl, rfl⟩

end Conf
end Chm
