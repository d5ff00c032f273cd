/-
Runs of the message queue operations, and what they keep: the lists stay well formed.
-/
import Chm.Info
import Chm.MqCalls

namespace Chm

namespace MsgInfo

variable {m m' : MsgInfo} {a : MsgKind → List Ptr} {k : MsgKind} {p : Ptr} {msgid : Nat}

/-! ## Operations and runs -/

/-- An operation on the message queues; `self` is the process that calls it. -/
inductive MsgOp
  | assign (self : Nat) (isChmpx isActivated : Bool)
  | free (msgid : Nat)
  | activate (self msgid : Nat)
  | disactivate (self msgid : Nat)
  | random (isChmpx isActivated : Bool)
  deriving DecidableEq

def exec (m : MsgInfo) : MsgOp → MsgInfo
  | .assign self isChmpx isActivated => (m.assignMsg self isChmpx isActivated).2
  | .free msgid => (m.freeMsg msgid).2
  | .activate self msgid => (m.setMqActivated self msgid).2
  | .disactivate self msgid => (m.setMqDisactivated self msgid).2
  | .random isChmpx isActivated => (m.getRandomMsgId isChmpx isActivated).2

/-- Where a run of operations leads. -/
def run (m : MsgInfo) (ops : List MsgOp) : MsgInfo := ops.foldl exec m

/-! ## What the memory shows -/

/-- The heads met from the pointer of a list on. -/
def nodesOf (m : MsgInfo) (k : MsgKind) : List Ptr := m.links.walk (m.areaCount + 1) (m.listHead k)

/-- The flag of a head is one of the list. -/
def agrees (k : MsgKind) (flag : MsgFlag) : Bool :=
  match k with
  | .free => flag.isNotAssigned && flag.isDisactivated
  | .assigned => flag.isAssigned && flag.isDisactivated && flag.isClientproc
  | .activated => flag.isAssigned && flag.isActivated && flag.isClientproc
  | .chmpx => flag.isAssigned && flag.isActivated && flag.isChmpxproc

/-- Every head is in exactly one list, whose flag it has; the lists are chains, and their
counters are their lengths. -/
structure MsgsKept (m : MsgInfo) : Prop where
  chains : m.links.Chains (MsgKind.all.map m.nodesOf)
  covers : ∀ p, p < m.areaCount ↔ ∃ k, p ∈ m.nodesOf k
  once : ∀ p k k', p ∈ m.nodesOf k → p ∈ m.nodesOf k' → k = k'
  flag : ∀ k, ∀ p ∈ m.nodesOf k, agrees k (m.msghead p).flag = true
  count : ∀ k, m.listCount k = (m.nodesOf k).length

theorem nodesOf_eq (h : Placing m a) (k : MsgKind) : m.nodesOf k = a k := by
  rw [nodesOf, h.head]
  exact (h.chains_front k).walk (Nat.le_succ_of_le (h.length_le k))

theorem agrees_flag (k : MsgKind) : agrees k k.flag = true := by
  cases k <;> decide

theorem msgsKept (h : Placing m a) : MsgsKept m := by
  have hn : m.nodesOf = a := funext (nodesOf_eq h)
  constructor <;> rw [hn]
  · exact h.chains
  · intro p
    rw [h.covers]
    simp
  · exact fun p k k' => h.kind_unique
  · intro k p hp
    rw [h.flag k p hp]
    exact agrees_flag k
  · exact h.count

/-! ## Start -/

section Start

variable {base : Nat} {maxServerMqCnt maxClientMqCnt : Int}
  {outside : Links Ptr × (Ptr → MqMsgHead)}

/-- All heads free. -/
def allFree (n : Nat) : MsgKind → List Ptr
  | .free => List.range n
  | _ => []

theorem initializeMsgs_eq
    (h : initializeMsgs base maxServerMqCnt maxClientMqCnt outside = some m) :
    m.maxMqueue = maxServerMqCnt + maxClientMqCnt ∧
      m.areaCount = (maxServerMqCnt + maxClientMqCnt).toNat ∧ m.freeMsgs = some 0 ∧
      m.lastMsgidChmpx = chmInvalidMsgId ∧ m.lastMsgidActivated = chmInvalidMsgId ∧
      maxServerMqCnt + maxClientMqCnt ≤ maxMqueueCount := by
  rw [initializeMsgs] at h
  dsimp only at h
  split at h
  · cases h
  · cases h
    exact ⟨rfl, rfl, rfl, rfl, rfl, by omega⟩

/-- At start-up all heads are free, if there are any. -/
theorem initializeMsgs_placing
    (h : initializeMsgs base maxServerMqCnt maxClientMqCnt outside = some m)
    (hpos : 0 < maxServerMqCnt + maxClientMqCnt)
    (hfits : base + (maxServerMqCnt + maxClientMqCnt).toNat ≤ chmInvalidMsgId) :
    Placing m (allFree m.areaCount) := by
  obtain ⟨n, hn⟩ : ∃ n : Nat, maxServerMqCnt + maxClientMqCnt = n :=
    ⟨_, (Int.toNat_of_nonneg hpos.le).symm⟩
  rw [initializeMsgs] at h
  dsimp only at h
  split at h
  · cases h
  · cases h
    simp only [hn, Int.toNat_natCast] at hfits hpos ⊢
    have hpos' : 0 < n := by omega
    refine ⟨⟨?_, ?_⟩, fun p => ?_, fun k => ?_, fun k => ?_, fun k p hp => ?_, fun p hp => ?_,
      hpos', hfits⟩
    · simpa [MsgKind.all, allFree] using List.nodup_range
    · intro c hc
      have hc' : c = List.range n ∨ c = [] := by
        simpa [MsgKind.all, allFree] using hc
      rcases hc' with rfl | rfl
      · have hseg := (ChmpxMan.areaLinks_chains n).seg (List.range n) (by simp)
        refine hseg.congr (fun p hp => ?_) fun p hp => ?_
        · have hlt : p < n := List.mem_range.mp hp
          show (if p < n then _ else _) = _
          rw [if_pos hlt]
          rfl
        · have hlt : p < n := List.mem_range.mp hp
          show (if p < n then (if 0 < p then some (p - 1) else none) else _) =
            if 0 < p ∧ p < n then some (p - 1) else none
          rw [if_pos hlt]
          simp only [hlt, and_true]
      · trivial
    · show p < n ↔ _
      simp only [List.flatten_nil, List.not_mem_nil, false_or]
      constructor
      · exact fun hp => ⟨.free, List.mem_range.mpr hp⟩
      · rintro ⟨k, hk⟩
        cases k with
        | free => exact List.mem_range.mp hk
        | assigned => cases hk
        | activated => cases hk
        | chmpx => cases hk
    · cases k with
      | free =>
        obtain ⟨i, rfl⟩ : ∃ i, n = i + 1 := ⟨n - 1, by omega⟩
        show some 0 = (List.range (i + 1)).head?
        rw [List.range_succ_eq_map]
        rfl
      | assigned => rfl
      | activated => rfl
      | chmpx => rfl
    · cases k with
      | free =>
        show (n : Int) = (List.range n).length
        rw [List.length_range]
      | assigned => rfl
      | activated => rfl
      | chmpx => rfl
    · cases k with
      | free =>
        have hlt : p < n := List.mem_range.mp hp
        show (if p < n then _ else _ : MqMsgHead).flag = _
        rw [if_pos hlt]
        rfl
      | assigned => cases hp
      | activated => cases hp
      | chmpx => cases hp
    · show (if p < n then _ else _ : MqMsgHead).msgid = _
      rw [if_pos hp]

end Start

/-- The msgids of a node are all below the invalid one. -/
theorem baseMsgid_fits (env : Env) (cfg : InfoCfg) {n : Nat} (hn : (n : Int) ≤ maxMqueueCount) :
    cfg.baseMsgid env + n ≤ chmInvalidMsgId := by
  have hlow : ∀ x, low32 x < 2 ^ 32 := fun x => Nat.mod_lt _ (by decide)
  have hc : ∀ x, compose64 x 0 ≤ 2 ^ 64 - 2 ^ 32 := by
    intro x
    have := hlow x
    rw [compose64]
    simp only [low32] at *
    omega
  have hbase : cfg.baseMsgid env ≤ 2 ^ 64 - 2 ^ 32 := by
    rw [InfoCfg.baseMsgid]
    rw [makeBaseMsgId]
    split
    · omega
    · split
      · omega
      · exact hc _
  rw [maxMqueueCount] at hn
  rw [chmInvalidMsgId]
  omega

/-- The invariant of a run without a reload. -/
def Kept (m : MsgInfo) : Prop := ∃ a, Placing m a ∧ m.maxMqueue = m.areaCount

theorem startMsgs_kept {env : Env} {cfg : InfoCfg} {outside : Links Ptr × (Ptr → MqMsgHead)}
    (h : ChmInfo.startMsgs env cfg outside = some m) (hpos : 0 < cfg.maxMqueue) :
    Placing m (allFree m.areaCount) ∧ m.maxMqueue = m.areaCount := by
  have he := initializeMsgs_eq h
  have hpos' : 0 < cfg.maxServerMqCnt + cfg.maxClientMqCnt := hpos
  have hfits := baseMsgid_fits env cfg (n := (cfg.maxServerMqCnt + cfg.maxClientMqCnt).toNat)
    (by omega)
  refine ⟨initializeMsgs_placing h hpos hfits, ?_⟩
  rw [he.1, he.2.1]
  omega

/-! ## What a step keeps -/

/-- The members that no operation on the lists writes. -/
structure SameArea (m m' : MsgInfo) : Prop where
  maxMqueue : m'.maxMqueue = m.maxMqueue
  baseMsgid : m'.baseMsgid = m.baseMsgid
  areaCount : m'.areaCount = m.areaCount

theorem SameIds.sameArea (h : SameIds m m') : SameArea m m' :=
  ⟨h.maxMqueue, h.baseMsgid, h.areaCount⟩

theorem setLastMsgid_placing (h : Placing m a) (isChmpx isActivated : Bool) (msgid : Nat) :
    Placing (m.setLastMsgid isChmpx isActivated msgid) a ∧
      SameArea m (m.setLastMsgid isChmpx isActivated msgid) := by
  rw [setLastMsgid]
  split
  · exact ⟨⟨h.chains, h.covers, h.head, h.count, h.flag, h.msgid, h.fits⟩, rfl, rfl, rfl⟩
  · split
    · exact ⟨⟨h.chains, h.covers, h.head, h.count, h.flag, h.msgid, h.fits⟩, rfl, rfl, rfl⟩
    · exact ⟨⟨h.chains, h.covers, h.head, h.count, h.flag, h.msgid, h.fits⟩, rfl, rfl, rfl⟩

/-- `GetRandomMsgId` writes the last msgid of the kind it was asked for, or nothing. -/
theorem getRandomMsgId_cases (m : MsgInfo) (isChmpx isActivated : Bool) :
    (m.getRandomMsgId isChmpx isActivated).2 = m ∨
      (m.getRandomMsgId isChmpx isActivated).2 =
        m.setLastMsgid isChmpx isActivated (m.getRandomMsgId isChmpx isActivated).1 := by
  rw [getRandomMsgId]
  dsimp only
  split
  · exact Or.inr rfl
  · split
    · exact Or.inl rfl
    · exact Or.inr rfl

theorem getRandomMsgId_placing (h : Placing m a) (isChmpx isActivated : Bool) :
    Placing (m.getRandomMsgId isChmpx isActivated).2 a ∧
      SameArea m (m.getRandomMsgId isChmpx isActivated).2 := by
  rcases getRandomMsgId_cases m isChmpx isActivated with he | he
  · rw [he]
    exact ⟨h, rfl, rfl, rfl⟩
  · rw [he]
    exact setLastMsgid_placing h ..

/-- Every operation leaves the heads spread over the lists. -/
theorem exec_placing {n : Nat} (h : Placing m a) (hmax : m.maxMqueue = n) (hn : n ≤ m.areaCount)
    (op : MsgOp) : (∃ a', Placing (m.exec op) a') ∧ SameArea m (m.exec op) := by
  cases op with
  | assign self isChmpx isActivated =>
    rcases assignMsg_spec h self isChmpx isActivated with ⟨-, he⟩ | ⟨p, fs, -, -, hpl, hs⟩
    · rw [exec, he]
      exact ⟨⟨a, h⟩, rfl, rfl, rfl⟩
    · exact ⟨⟨_, hpl⟩, hs.sameArea⟩
  | free msgid =>
    obtain ⟨hs, ⟨p, k, -, -, -, hpl⟩ | ⟨-, hpl⟩⟩ := freeMsg_cases h hmax hn msgid
    · exact ⟨⟨_, hpl⟩, hs.maxMqueue, hs.baseMsgid, hs.areaCount⟩
    · exact ⟨⟨_, hpl⟩, hs.maxMqueue, hs.baseMsgid, hs.areaCount⟩
  | activate self msgid =>
    obtain ⟨hs, ⟨p, -, -, hpl⟩ | hpl⟩ := setMqFlagStatus_cases h hmax hn self msgid true
    · exact ⟨⟨_, hpl⟩, hs.sameArea⟩
    · exact ⟨⟨_, hpl⟩, hs.sameArea⟩
  | disactivate self msgid =>
    obtain ⟨hs, ⟨p, -, -, hpl⟩ | hpl⟩ := setMqFlagStatus_cases h hmax hn self msgid false
    · exact ⟨⟨_, hpl⟩, hs.sameArea⟩
    · exact ⟨⟨_, hpl⟩, hs.sameArea⟩
  | random isChmpx isActivated =>
    have hr := getRandomMsgId_placing h isChmpx isActivated
    exact ⟨⟨a, hr.1⟩, hr.2⟩

theorem exec_kept (h : Kept m) (op : MsgOp) : Kept (m.exec op) := by
  obtain ⟨a, hpl, hmax⟩ := h
  obtain ⟨⟨a', hpl'⟩, hs⟩ := exec_placing hpl hmax (Nat.le_refl _) op
  refine ⟨a', hpl', ?_⟩
  rw [hs.maxMqueue, hs.areaCount, hmax]

theorem run_kept (h : Kept m) (ops : List MsgOp) : Kept (m.run ops) := by
  induction ops generalizing m with
  | nil => exact h
  | cons op ops ih => exact ih (exec_kept h op)

/-- The members that a run leaves alone. -/
theorem run_sameArea (h : Kept m) (ops : List MsgOp) : SameArea m (m.run ops) := by
  induction ops generalizing m with
  | nil => exact ⟨rfl, rfl, rfl⟩
  | cons op ops ih =>
    obtain ⟨a, hpl, hmax⟩ := h
    have hstep := (exec_placing hpl hmax (Nat.le_refl _) op).2
    have hrest := ih (exec_kept ⟨a, hpl, hmax⟩ op)
    exact ⟨hrest.maxMqueue.trans hstep.maxMqueue, hrest.baseMsgid.trans hstep.baseMsgid,
      hrest.areaCount.trans hstep.areaCount⟩

theorem Kept.msgsKept (h : Kept m) : MsgsKept m := by
  obtain ⟨a, hpl, -⟩ := h
  exact MsgInfo.msgsKept hpl

/-! ## The lists of every run -/

section Lists

variable {env : Env} {cfg : InfoCfg} {outside : Links Ptr × (Ptr → MqMsgHead)}

/-- Without a queue the free list begins behind the area, with a counter that is not one. -/
theorem not_msgsKept_of_noMqueue (h : ChmInfo.startMsgs env cfg outside = some m)
    (hno : cfg.maxMqueue ≤ 0) : ¬ MsgsKept m := by
  have he := initializeMsgs_eq h
  have hno' : cfg.maxServerMqCnt + cfg.maxClientMqCnt ≤ 0 := hno
  have hcount : m.areaCount = 0 := by
    rw [he.2.1]
    omega
  intro hkept
  have hmem : (0 : Ptr) ∈ m.nodesOf .free := by
    have hhead : m.listHead .free = some 0 := he.2.2.1
    rw [nodesOf, hhead]
    exact List.mem_cons_self
  have hlt := (hkept.covers 0).mpr ⟨.free, hmem⟩
  rw [hcount] at hlt
  exact absurd hlt (Nat.not_lt_zero _)

/-- From a start, the lists are well formed in every run if and only if there is a queue. -/
theorem run_msgsKept_iff (h : ChmInfo.startMsgs env cfg outside = some m) :
    (∀ ops, MsgsKept (m.run ops)) ↔ 0 < cfg.maxMqueue := by
  constructor
  · intro hall
    by_contra hno
    exact not_msgsKept_of_noMqueue h (by omega) (hall [])
  · intro hpos ops
    have hstart := startMsgs_kept h hpos
    exact (run_kept ⟨_, hstart⟩ ops).msgsKept

/-! ### A node with queues, and one without -/

/-- One queue for the server and three for clients. -/
def sampleMsgs : MsgInfo :=
  (ChmInfo.startMsgs ChmpxMan.sampleEnv (ChmInfo.sampleInfoCfg ChmpxMan.sampleGroup 1 3)
    ChmInfo.emptyOutside).get (by decide +kernel)

theorem sampleMsgs_eq :
    ChmInfo.startMsgs ChmpxMan.sampleEnv (ChmInfo.sampleInfoCfg ChmpxMan.sampleGroup 1 3)
      ChmInfo.emptyOutside =
      some sampleMsgs :=
  (Option.some_get _).symm

def noMsgs : MsgInfo :=
  (ChmInfo.startMsgs ChmpxMan.sampleEnv (ChmInfo.sampleInfoCfg ChmpxMan.sampleGroup 0 0)
    ChmInfo.emptyOutside).get (by decide +kernel)

theorem noMsgs_eq :
    ChmInfo.startMsgs ChmpxMan.sampleEnv (ChmInfo.sampleInfoCfg ChmpxMan.sampleGroup 0 0)
      ChmInfo.emptyOutside =
      some noMsgs :=
  (Option.some_get _).symm

/-- Two client heads, one activated, one chmpx head, and one of them freed. -/
def sampleOps : List MsgOp :=
  [.assign 7 false false, .assign 7 false true, .assign 5 true true,
    .activate 7 (sampleMsgs.assignMsg 7 false false).1,
    .free (sampleMsgs.assignMsg 7 false false).1]

theorem run_msgsKept_sample : MsgsKept (sampleMsgs.run sampleOps) :=
  (run_msgsKept_iff sampleMsgs_eq).mpr (by decide) sampleOps

theorem noMsgs_not_kept : noMsgs.areaCount = 0 ∧ noMsgs.nodesOf .free = [0] ∧
    noMsgs.listCount .free = 0 ∧ ¬ MsgsKept (noMsgs.run []) := by
  have h := noMsgs_eq
  have he := initializeMsgs_eq h
  have hhead : noMsgs.listHead .free = some 0 := he.2.2.1
  refine ⟨he.2.1, ?_, ?_, not_msgsKept_of_noMqueue h (by decide)⟩
  · decide +kernel
  · decide +kernel

end Lists

end MsgInfo
end Chm
