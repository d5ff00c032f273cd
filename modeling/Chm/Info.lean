/-
`CHMINFO`: the manager, the message queues and the settings of one chmpx process, its
start and its reload.

A reload checks the number of queues and the seed type, writes the settings, and only then
asks the manager, which has checks of its own.
-/
import Chm.MqMsg
import Chm.Reload
import Chm.Runs
import Chm.Slaves

namespace Chm

/-- The members that a reload sets again, besides the number of queues. -/
structure InfoSettings where
  nssdbDir : CStr
  isAutoMerge : Bool
  isDoMerge : Bool
  sslMinVer : Int
  evsockThreadCnt : Int
  evmqThreadCnt : Int
  chmpxMqueue : Int
  maxQPerChmpxmq : Int
  maxQPerCltmq : Int
  maxMqPerClient : Int
  mqPerAttach : Int
  mqAck : Bool
  maxSockPool : Int
  sockPoolTimeout : Int
  sockRetrycnt : Int
  timeoutWaitSocket : Int
  timeoutWaitConnect : Int
  mqRetrycnt : Int
  timeoutWaitMq : Int
  timeoutMerge : Int
  histlogCount : Int
  deriving DecidableEq

/-- `CHMCFGINFO` with the members that `CHMINFO` takes. -/
structure InfoCfg extends ChmCfgInfo where
  isRandomMode : Bool
  nssdbDir : CStr
  isAutoMerge : Bool
  isDoMerge : Bool
  sslMinVer : Int
  sockThreadCnt : Int
  mqThreadCnt : Int
  maxServerMqCnt : Int
  maxClientMqCnt : Int
  maxQPerServermq : Int
  maxQPerClientmq : Int
  maxMqPerClient : Int
  mqcntPerAttach : Int
  mqAck : Bool
  maxSockPool : Int
  sockPoolTimeout : Int
  retrycnt : Int
  timeoutWaitSocket : Int
  timeoutWaitConnect : Int
  mqRetrycnt : Int
  timeoutWaitMq : Int
  timeoutMerge : Int
  maxHistlogCount : Int

namespace InfoCfg

/-- The number of queues. -/
def maxMqueue (cfg : InfoCfg) : Int := cfg.maxServerMqCnt + cfg.maxClientMqCnt

def settings (cfg : InfoCfg) : InfoSettings where
  nssdbDir := cfg.nssdbDir
  isAutoMerge := cfg.isAutoMerge
  isDoMerge := cfg.isDoMerge
  sslMinVer := cfg.sslMinVer
  evsockThreadCnt := cfg.sockThreadCnt
  evmqThreadCnt := cfg.mqThreadCnt
  chmpxMqueue := cfg.maxServerMqCnt
  maxQPerChmpxmq := cfg.maxQPerServermq
  maxQPerCltmq := cfg.maxQPerClientmq
  maxMqPerClient := cfg.maxMqPerClient
  mqPerAttach := cfg.mqcntPerAttach
  mqAck := cfg.mqAck
  maxSockPool := cfg.maxSockPool
  sockPoolTimeout := cfg.sockPoolTimeout
  sockRetrycnt := cfg.retrycnt
  timeoutWaitSocket := cfg.timeoutWaitSocket
  timeoutWaitConnect := cfg.timeoutWaitConnect
  mqRetrycnt := cfg.mqRetrycnt
  timeoutWaitMq := cfg.timeoutWaitMq
  timeoutMerge := cfg.timeoutMerge
  histlogCount := cfg.maxHistlogCount

/-- The base of the msgids of this node. -/
def baseMsgid (env : Env) (cfg : InfoCfg) : Nat :=
  let self := ChmpxMan.selfParam cfg.toChmCfgInfo
  makeBaseMsgId env cfg.groupname cfg.chmpxidType self.hostname self.ctlport self.cuk
    (getHostportsString env self.ctlendpoints) self.customSeed

end InfoCfg

/-- `CHMINFO`. -/
structure ChmInfo where
  chmpxMan : ChmpxMan
  chmpxidType : ChmpxIdSeedType
  isRandomDeliver : Bool
  isAutoMergeSuspend : Bool
  settings : InfoSettings
  msgs : MsgInfo

namespace ChmInfo

/-- The message queues at start-up. -/
def startMsgs (env : Env) (cfg : InfoCfg) (outside : Links Ptr × (Ptr → MqMsgHead)) :
    Option MsgInfo :=
  MsgInfo.initializeMsgs (cfg.baseMsgid env) cfg.maxServerMqCnt cfg.maxClientMqCnt outside

/-- `Initialize`. -/
def start (env : Env) (cfg : InfoCfg) (outside : Links Ptr × (Ptr → MqMsgHead)) :
    Option ChmInfo :=
  match startMsgs env cfg outside, ChmpxMan.initialized env cfg.toChmCfgInfo with
  | some msgs, some man =>
    some
      { chmpxMan := man
        chmpxidType := cfg.chmpxidType
        isRandomDeliver := cfg.isRandomMode
        isAutoMergeSuspend := false
        settings := cfg.settings
        msgs := msgs }
  | _, _ => none

/-- What `ReloadConfiguration` writes before it asks the manager. -/
def reset (cfg : InfoCfg) (info : ChmInfo) : ChmInfo :=
  { info with
    isAutoMergeSuspend := false
    settings := cfg.settings
    msgs := { info.msgs with maxMqueue := cfg.maxMqueue } }

/-- The checks of `chminfo_lap::ReloadConfiguration` itself. -/
def refuses (cfg : InfoCfg) (info : ChmInfo) : Bool :=
  maxMqueueCount < cfg.maxMqueue || info.chmpxidType ≠ cfg.chmpxidType

/-- `ReloadConfiguration`.  A changed delivery mode is only warned about. -/
def reloadConfiguration (env : Env) (cfg : InfoCfg) (eqfd : Bool) (info : ChmInfo) :
    Bool × ChmInfo :=
  if info.refuses cfg then (false, info)
  else
    let info := info.reset cfg
    let (result, man) := info.chmpxMan.reloadConfiguration env cfg.toChmCfgInfo eqfd
    (result, { info with chmpxMan := man })

/-! ## A refused reload -/

variable {env : Env} {cfg : InfoCfg} {eqfd : Bool} {info : ChmInfo}

/-- The checks of the manager. -/
def manRefuses (cfg : InfoCfg) (info : ChmInfo) : Bool :=
  maxGroupLength ≤ cfg.groupname.length || maxChmpxCount < cfg.maxChmpxCount ||
    info.chmpxMan.group ≠ cfg.groupname

/-- The configuration sets what is set already. -/
structure IsSet (cfg : InfoCfg) (info : ChmInfo) : Prop where
  suspend : info.isAutoMergeSuspend = false
  settings : info.settings = cfg.settings
  maxMqueue : info.msgs.maxMqueue = cfg.maxMqueue

theorem reset_eq_iff : info.reset cfg = info ↔ info.IsSet cfg := by
  obtain ⟨man, type, random, suspend, settings, msgs⟩ := info
  constructor
  · intro h
    injection h with _ _ _ h₁ h₂ h₃
    exact ⟨h₁.symm, h₂.symm, (congrArg MsgInfo.maxMqueue h₃).symm⟩
  · rintro ⟨h₁, h₂, h₃⟩
    simp only at h₁ h₂ h₃
    rw [reset, h₁, h₂, ← h₃]

/-- The manager refuses by its checks and changes nothing then. -/
theorem man_reload (env : Env) (cfg : InfoCfg) (eqfd : Bool) (info : ChmInfo) :
    (info.manRefuses cfg = true ∧
        info.chmpxMan.reloadConfiguration env cfg.toChmCfgInfo eqfd = (false, info.chmpxMan)) ∨
      (info.manRefuses cfg = false ∧
        (info.chmpxMan.reloadConfiguration env cfg.toChmCfgInfo eqfd).1 = true) := by
  rw [ChmpxMan.reloadConfiguration]
  by_cases h₁ : maxGroupLength ≤ cfg.groupname.length ∨ maxChmpxCount < cfg.maxChmpxCount
  · rw [if_pos h₁]
    refine Or.inl ⟨?_, rfl⟩
    rcases h₁ with h₁ | h₁
    · simp [manRefuses, h₁]
    · simp [manRefuses, h₁]
  · rw [if_neg h₁]
    have h₁' := not_or.mp h₁
    by_cases h₂ : info.chmpxMan.group ≠ cfg.groupname
    · rw [if_pos h₂]
      exact Or.inl ⟨by simp [manRefuses, h₂], rfl⟩
    · rw [if_neg h₂, ChmpxMan.updateChmpxSvrs, if_neg h₁]
      refine Or.inr ⟨?_, rfl⟩
      simp only [manRefuses, h₁'.1, h₁'.2, h₂, decide_false, Bool.or_self]

/-- A refused reload leaves everything as it was, unless the configuration passes the first
checks, is refused by the manager, and sets something anew. -/
theorem reload_unchanged_iff (env : Env) (cfg : InfoCfg) (eqfd : Bool) (info : ChmInfo) :
    ((info.reloadConfiguration env cfg eqfd).1 = false →
        (info.reloadConfiguration env cfg eqfd).2 = info) ↔
      (info.refuses cfg = false → info.manRefuses cfg = true → info.IsSet cfg) := by
  have hman := man_reload env cfg eqfd (info.reset cfg)
  rw [reloadConfiguration]
  cases hr : info.refuses cfg with
  | true => simp
  | false =>
    rw [if_neg (by decide)]
    rcases hman with ⟨hm, he⟩ | ⟨hm, he⟩
    · have hm' : info.manRefuses cfg = true := hm
      have hres : { info.reset cfg with chmpxMan := (info.reset cfg).chmpxMan } =
          info.reset cfg := rfl
      simp only [he, hres, reset_eq_iff, hm', true_implies]
    · have hm' : info.manRefuses cfg = false := hm
      simp only [he, hm', Bool.true_eq_false, Bool.false_eq_true, false_implies, implies_true]

/-! ## A refused reload that changes something -/

/-- The sample server with a number of queues for the server and for the clients. -/
def sampleInfoCfg (group : CStr) (maxServerMqCnt maxClientMqCnt : Int) : InfoCfg where
  toChmCfgInfo := { ChmpxMan.sampleCfg true with groupname := group }
  isRandomMode := false
  nssdbDir := []
  isAutoMerge := true
  isDoMerge := true
  sslMinVer := 0
  sockThreadCnt := 0
  mqThreadCnt := 0
  maxServerMqCnt := maxServerMqCnt
  maxClientMqCnt := maxClientMqCnt
  maxQPerServermq := 8
  maxQPerClientmq := 1
  maxMqPerClient := 1
  mqcntPerAttach := 1
  mqAck := true
  maxSockPool := 1
  sockPoolTimeout := 60
  retrycnt := -1
  timeoutWaitSocket := 0
  timeoutWaitConnect := 0
  mqRetrycnt := -1
  timeoutWaitMq := 0
  timeoutMerge := 0
  maxHistlogCount := 0

/-- Memory behind the area that holds nothing. -/
def emptyOutside : Links Ptr × (Ptr → MqMsgHead) :=
  (⟨fun _ => none, fun _ => none⟩, fun _ => ⟨0, 0#8, 0⟩)

/-- A reload with another group name is refused and has changed the number of queues. -/
theorem reload_changes_refused :
    ((ChmInfo.start ChmpxMan.sampleEnv (sampleInfoCfg ChmpxMan.sampleGroup 1 3) emptyOutside).map
      fun info =>
        let r := info.reloadConfiguration ChmpxMan.sampleEnv (sampleInfoCfg [104] 1 1) true
        (r.1, info.msgs.maxMqueue, r.2.msgs.maxMqueue)) = some (false, 4, 2) := by
  decide +kernel

end ChmInfo
end Chm
