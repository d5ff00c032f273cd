/-
The chmpxid by which a slave is listed.

`SetSlaveBase` checks the chmpxid that a slave tells against the host name and the end
points that it tells.  The node is written with another chmpxid: the one of the host name
that the data base has for that name, and of the end points that fit into the array.  A
name that `Initialize` refuses leaves the node as it was, and the call still returns true.
-/
import Chm.FindRuns
import Chm.Sockets

namespace Chm

namespace ChmpxMan

variable {env : Env} {cfg : ChmCfgInfo} {m m' : ChmpxMan} {a a' : Placement} {p q : Ptr}
variable {c : Chmpx} {chmpxid : ChmpxId} {chain : Nat → List Ptr} {type : ChmpxIdSeedType}
variable {base : SlaveBase}

/-- The slave list has one node with the chmpxid, and `Find` from the list returns it. -/
def SlaveListed (chmpxid : ChmpxId) (m : ChmpxMan) : Prop :=
  ∃ p, m.slaveNodes.filter (fun q => (m.chmpx q).chmpxid = chmpxid) = [p] ∧
    m.find m.chmpxSlaves chmpxid = some p

/-- The chmpxid that `InitializeSlave` writes. -/
def SlaveBase.writtenId (env : Env) (group : CStr) (type : ChmpxIdSeedType) (base : SlaveBase) :
    ChmpxId :=
  makeChmpxId env group type (Chmpx.expandHostname env base.hostname) base.ctlport base.cuk
    (getHostportPairsString env (cvtHostportPairs base.ctlendpoints)) base.customSeed

/-- This node is not a slave with the chmpxid, and the chmpxid is the one that is written,
or the name is refused and the node is known. -/
def KeepsSlaveId (env : Env) (type : ChmpxIdSeedType) (chmpxid : ChmpxId) (base : SlaveBase)
    (m : ChmpxMan) : Prop :=
  (∀ p ∈ m.selfNode, (m.chmpx p).chmpxid ≠ chmpxid) ∧
    if Chmpx.refuses env m.group base.hostname then m.find m.chmpxSlaves chmpxid ≠ none
    else SlaveBase.writtenId env m.group type base = chmpxid

/-! ## The list and the map -/

/-- The slaves have chmpxids of their own, and the map holds every chmpxid. -/
structure SlavesMapped (m : ChmpxMan) (a : Placement) : Prop extends SlavesPlaced m a where
  mapped : ∃ chain, IdsMapped m chain

/-- A slave that has the chmpxid is the only one in the list, and the search finds it. -/
theorem SlavesMapped.listed (h : SlavesMapped m a) (ha : Area m a) (hp : p ∈ a.slaves)
    (hid : (m.chmpx p).chmpxid = chmpxid) : SlaveListed chmpxid m := by
  obtain ⟨chain, hm⟩ := h.mapped
  subst hid
  have hclient : ∀ q ∈ a.slaves, (m.chmpx q).isServerMode = false := fun q hq =>
    ha.toPlaces.mode_of_client (List.mem_append_left _ hq)
  refine ⟨p, ?_, ?_⟩
  · rw [ha.slaveNodes_eq]
    refine List.perm_singleton.mp ((List.perm_ext_iff_of_nodup (ha.nodup_slaves.filter _)
      (List.nodup_singleton p)).mpr fun q => ?_)
    rw [List.mem_filter, decide_eq_true_eq, List.mem_singleton]
    constructor
    · intro hq
      exact h.unique q hq.1 p (List.mem_append_left _ hp) hq.2
    · intro he
      rw [he]
      exact ⟨hp, rfl⟩
  · cases hs : a.slaves with
    | nil =>
      rw [hs] at hp
      cases hp
    | cons q l =>
      have hq : q ∈ a.slaves := by rw [hs]; exact List.mem_cons_self
      have hsome : m.chmpxSlaves = some q := by rw [ha.slaves, hs]; rfl
      rw [hsome]
      refine hm.find_eq_some (l := a.clients) ((hclient q hq).trans (hclient p hp).symm)
        (h.valid p hp) (fun r hid hr => ?_) fun r hr he => h.unique p hp r hr he
      rcases ha.live r hid with hr' | hr'
      · rw [hclient p hp, ha.lists.server hr'] at hr
        cases hr
      · exact List.mem_append.mpr hr'

theorem SlaveListed.mem (h : SlaveListed chmpxid m) (ha : Area m a) :
    ∃ p ∈ a.slaves, (m.chmpx p).chmpxid = chmpxid ∧ m.find m.chmpxSlaves chmpxid = some p := by
  obtain ⟨p, hone, hf⟩ := h
  have hp : p ∈ m.slaveNodes.filter fun q => (m.chmpx q).chmpxid = chmpxid := by
    rw [hone]
    exact List.mem_singleton_self p
  rw [ha.slaveNodes_eq, List.mem_filter, decide_eq_true_eq] at hp
  exact ⟨p, hp.1, hp.2, hf⟩

/-! ## One call -/

/-- The record that the node gets. -/
theorem initializeChmpx_slave (hr : Chmpx.refuses env m.group base.hostname = false) :
    ∃ c, Chmpx.initializeChmpx env type m.group .slave base.param = some c ∧
      c.chmpxid = SlaveBase.writtenId env m.group type base := by
  have hr' : ¬Chmpx.refuses env m.group base.param.hostname = true :=
    Bool.eq_false_iff.mp hr
  rw [Chmpx.initializeChmpx, if_neg hr']
  exact ⟨_, rfl, rfl⟩

theorem slaveIdKept_iff (hr : Chmpx.refuses env m.group base.hostname = false) :
    SlaveIdKept env type m.group chmpxid base ↔
      SlaveBase.writtenId env m.group type base = chmpxid := by
  obtain ⟨c, hinit, hid⟩ := @initializeChmpx_slave env m type base hr
  rw [SlaveIdKept, hinit, Option.map_some, hid, Option.some.injEq]

theorem keepsSlaveId_of_accepted (hr : Chmpx.refuses env m.group base.hostname = false) :
    KeepsSlaveId env type chmpxid base m ↔ (∀ p ∈ m.selfNode, (m.chmpx p).chmpxid ≠ chmpxid) ∧
      SlaveBase.writtenId env m.group type base = chmpxid := by
  rw [KeepsSlaveId, hr, if_neg Bool.false_ne_true]

theorem keepsSlaveId_of_refused (hr : Chmpx.refuses env m.group base.hostname = true) :
    KeepsSlaveId env type chmpxid base m ↔ (∀ p ∈ m.selfNode, (m.chmpx p).chmpxid ≠ chmpxid) ∧
      m.find m.chmpxSlaves chmpxid ≠ none := by
  rw [KeepsSlaveId, hr, if_pos rfl]

theorem SlavesMapped.keptBase (h : SlavesMapped m a) (ha : Area m a)
    (hset : SlaveBaseSet env type chmpxid base m a m' a')
    (hid : SlaveIdKept env type m.group chmpxid base)
    (hself : ∀ p ∈ m.selfNode, (m.chmpx p).chmpxid ≠ chmpxid) : SlavesMapped m' a' := by
  obtain ⟨chain, hm⟩ := h.mapped
  exact ⟨setSlaveBase_slaves ha hset hid (fun _ => hself) hm h.toSlavesPlaced,
    (setSlaveBase_mapped ha hset hid hm).1⟩

/-- What makes the call return true. -/
theorem setSlaveBase_true (hset : (setSlaveBase env type chmpxid base m).1 = true) :
    base.hostname ≠ [] ∧ chmpxid = base.chmpxid env m.group type ∧
      (m.find m.chmpxSlaves chmpxid = none → m.chmpxFreeCount ≠ 0) := by
  have hok : ¬(base.hostname.isEmpty || decide (chmpxid ≠ base.chmpxid env m.group type)) =
      true := by
    intro hbad
    rw [setSlaveBase, if_pos hbad] at hset
    cases hset
  refine ⟨?_, ?_, fun hf hzero => ?_⟩
  · intro hhost
    simp [hhost] at hok
  · by_contra hid
    simp [hid] at hok
  · rw [setSlaveBase, if_neg hok, hf] at hset
    dsimp only at hset
    rw [if_pos hzero] at hset
    cases hset

/-- A known slave is written where it is. -/
theorem setSlaveBase_known (hset : (setSlaveBase env type chmpxid base m).1 = true)
    (hf : m.find m.chmpxSlaves chmpxid = some p) :
    (setSlaveBase env type chmpxid base m).2 = m.initializeSlave env type base (some p) := by
  obtain ⟨hhost, hid, -⟩ := setSlaveBase_true hset
  rw [setSlaveBase_of_found hhost hid hf]

theorem setSlaveBase_known_iff (h : SlavesMapped m a) (ha : Area m a)
    (hset : (setSlaveBase env type chmpxid base m).1 = true)
    (hf : m.find m.chmpxSlaves chmpxid = some p) :
    SlaveListed chmpxid (setSlaveBase env type chmpxid base m).2 ↔
      KeepsSlaveId env type chmpxid base m := by
  obtain ⟨hps, hold, hmode⟩ := ha.toPlaces.find_slave hf
  obtain ⟨-, hid, -⟩ := setSlaveBase_true hset
  -- Another slave than the one found has another chmpxid, before and after.
  have hother : ∀ q ∈ a.slaves, (m.chmpx q).chmpxid = chmpxid → q = p := fun q hq he =>
    h.unique q hq p (List.mem_append.mpr hps) (he.trans hold.symm)
  have hself : p ∈ a.slaves → ∀ r ∈ m.selfNode, (m.chmpx r).chmpxid ≠ chmpxid := by
    intro hp r hr he
    rw [ha.selfNode_eq] at hr
    have hpr := h.unique p hp r (List.mem_append_right _ hr) (hold.trans he.symm)
    have hall := ha.nodup
    unfold Placement.all at hall
    exact (List.nodup_append'.mp hall).2.2 (List.mem_append_right _ hp) (hpr ▸ hr)
  rw [setSlaveBase_known hset hf, initializeSlave, initializeAt]
  cases hr : Chmpx.refuses env m.group base.hostname with
  | true =>
    have hinit : Chmpx.initializeChmpx env type m.group .slave base.param = none :=
      Chmpx.initializeChmpx_of_refuses hr
    rw [keepsSlaveId_of_refused hr, hinit]
    constructor
    · intro hl
      obtain ⟨q, hq, he, -⟩ := hl.mem ha
      refine ⟨hself (hother q hq he ▸ hq), ?_⟩
      rw [hf]
      exact Option.some_ne_none p
    · intro hk
      refine h.listed ha (hps.resolve_right fun hs => hk.1 p ?_ hold) hold
      rw [ha.selfNode_eq]
      exact hs
  | false =>
    obtain ⟨c, hinit, hc⟩ := @initializeChmpx_slave env m type base hr
    have hset' : SlaveBaseSet env type chmpxid base m a (m.setChmpx p c) a :=
      .overwritten hid hf hinit
    have ha' : Area (m.setChmpx p c) a :=
      ha.overwriteSlave hps hmode ((initializeChmpx_mode hinit).trans (by decide))
    have hp' : (m.setChmpx p c).chmpx p = c := by rw [chmpx_setChmpx, if_pos rfl]
    rw [keepsSlaveId_of_accepted hr, hinit, ← hc]
    constructor
    · intro hl
      obtain ⟨q, hq, he, -⟩ := hl.mem ha'
      by_cases hqp : q = p
      · rw [hqp, hp'] at he
        exact ⟨hself (hqp ▸ hq), he⟩
      · rw [chmpx_setChmpx, if_neg hqp] at he
        exact absurd (hother q hq he) hqp
    · intro hk
      have hp : p ∈ a.slaves := hps.resolve_right fun hs => hk.1 p (ha.selfNode_eq ▸ hs) hold
      have hkept := (slaveIdKept_iff hr).mpr (hc.symm.trans hk.2)
      refine (h.keptBase ha hset' hkept hk.1).listed ha' hp ?_
      rw [hp']
      exact hk.2

/-- This node is before a new slave in the bucket, so the search does not come to the new
one when both have the chmpxid. -/
theorem AddedSlave.find_ne (hadd : AddedSlave m m' a a' p c) (ha : Area m a)
    (hm : IdsMapped m chain) (hvalid : chmpxid ≠ chmInvalidChmpxId) (hc : c.chmpxid = chmpxid)
    (hq : q ∈ a.self) (hid : (m.chmpx q).chmpxid = chmpxid) (cur : Ptr)
    (hcur : (m'.chmpx cur).isServerMode = false) : m'.find (some cur) chmpxid ≠ some p := by
  subst hc
  have hqc : q ∈ a.clients := List.mem_append_right _ hq
  have hqp : q ≠ p := fun he => ha.toPlaces.client_notMem_frees hqc (he ▸ hadd.mem_free)
  have hout := hm.toMapped.notMem_of_invalid (ha.toPlaces.free_invalid hadd.mem_free)
  have hm' := hadd.mapped hvalid chain hm.toMapped hout
  have hin : q ∈ chain (slotOf c.chmpxid) := by
    rw [← hid]
    exact hm.saved q (hid ▸ hvalid)
  intro hf
  rw [find, Option.bind_some, searchChmpxid, if_neg hvalid, hm'.bucket_eq, Function.update_self,
    List.find?_append] at hf
  cases hfind : (chain (slotOf c.chmpxid)).find? fun r =>
      decide ((m'.chmpx cur).isServerMode = (m'.chmpx r).isServerMode) &&
        decide (c.chmpxid = (m'.chmpx r).chmpxid) with
  | none =>
    rw [List.find?_eq_none] at hfind
    refine hfind q hin ?_
    rw [hadd.chmpx_eq q, if_neg hqp]
    simp [hcur, hid, ha.toPlaces.mode_of_client hqc]
  | some r =>
    rw [hfind, Option.some_or] at hf
    exact hout _ (Option.some.inj hf ▸ List.mem_of_find?_eq_some hfind)

theorem setSlaveBase_new_iff (h : SlavesMapped m a) (ha : Area m a)
    (hset : (setSlaveBase env type chmpxid base m).1 = true)
    (hf : m.find m.chmpxSlaves chmpxid = none) :
    SlaveListed chmpxid (setSlaveBase env type chmpxid base m).2 ↔
      KeepsSlaveId env type chmpxid base m := by
  obtain ⟨hhost, hid, hfree⟩ := setSlaveBase_true hset
  obtain ⟨-, a', p, c, hc, hadd, ha'⟩ := setSlaveBase_new ha hhost hid hf (hfree hf)
  obtain ⟨chain, hm⟩ := h.mapped
  have hvalid : chmpxid ≠ chmInvalidChmpxId := by
    rw [hid]
    exact makeChmpxId_ne_invalid _ _ _ _ _ _ _ _
  have hpold : ∀ q ∈ a.clients, q ≠ p := fun q hq he =>
    ha.toPlaces.client_notMem_frees hq (he ▸ hadd.mem_free)
  have hp' : (setSlaveBase env type chmpxid base m).2.chmpx p = c := by
    rw [hadd.chmpx_eq, if_pos rfl]
  -- No slave of before has the chmpxid, and this node only when there was no slave.
  have hnone : ∀ q ∈ a.clients, (m.chmpx q).chmpxid = chmpxid → a.slaves = [] := by
    intro q hq he
    cases hs : a.slaves with
    | nil => rfl
    | cons s l =>
      have hsome : m.chmpxSlaves = some s := by rw [ha.slaves, hs]; rfl
      rw [hsome] at hf
      exact absurd he (hm.find_none_slave ha.toPlaces (by rw [hs]; simp) hvalid hf q hq)
  have hone : ∀ q ∈ a'.slaves,
      ((setSlaveBase env type chmpxid base m).2.chmpx q).chmpxid = chmpxid →
        q = p ∧ c.chmpxid = chmpxid := by
    intro q hq he
    rcases List.mem_cons.mp (hadd.slaves.mem_iff.mp hq) with hqp | hq
    · rw [hqp, hp'] at he
      exact ⟨hqp, he⟩
    · have hqc : q ∈ a.clients := List.mem_append_left _ hq
      rw [hadd.chmpx_eq, if_neg (hpold q hqc)] at he
      rw [hnone q hqc he] at hq
      cases hq
  cases hr : Chmpx.refuses env m.group base.hostname with
  | true =>
    have hinit : Chmpx.initializeChmpx env type m.group .slave base.param = none :=
      Chmpx.initializeChmpx_of_refuses hr
    have hfreeid : c.chmpxid = chmInvalidChmpxId := by
      rw [hinit] at hc
      rcases hc with hc | ⟨-, hc⟩
      · cases hc
      · rw [hc]
        exact ha.toPlaces.free_invalid hadd.mem_free
    rw [keepsSlaveId_of_refused hr]
    constructor
    · intro hl
      obtain ⟨q, hq, he, -⟩ := hl.mem ha'
      exact absurd ((hone q hq he).2.symm.trans hfreeid) hvalid
    · intro hk
      exact absurd hf hk.2
  | false =>
    have hinit : Chmpx.initializeChmpx env type m.group .slave base.param = some c := by
      rcases hc with hc | ⟨hr', -⟩
      · exact hc
      · rw [hr] at hr'
        cases hr'
    have hcid : c.chmpxid = SlaveBase.writtenId env m.group type base := by
      obtain ⟨d, hd, hdid⟩ := @initializeChmpx_slave env m type base hr
      rw [Option.some.inj (hinit.symm.trans hd), hdid]
    rw [keepsSlaveId_of_accepted hr, ← hcid]
    constructor
    · intro hl
      obtain ⟨q, hq, he, hfind⟩ := hl.mem ha'
      obtain ⟨hqp, hce⟩ := hone q hq he
      refine ⟨fun r hr' hre => ?_, hce⟩
      rw [ha.selfNode_eq] at hr'
      have hmode : ((setSlaveBase env type chmpxid base m).2.chmpx p).isServerMode = false := by
        rw [hp']
        exact hadd.mode
      have hslaves : a.slaves = [] := hnone r (List.mem_append_right _ hr') hre
      have hhead : (setSlaveBase env type chmpxid base m).2.chmpxSlaves = some p := by
        have hone' := hadd.slaves
        rw [hslaves] at hone'
        rw [ha'.slaves, List.perm_singleton.mp hone']
        rfl
      rw [hhead, hqp] at hfind
      exact hadd.find_ne ha hm hvalid hce hr' hre p hmode hfind
    · intro hk
      have hkept := (slaveIdKept_iff hr).mpr (hcid.symm.trans hk.2)
      have hset' : SlaveBaseSet env type chmpxid base m a
          (setSlaveBase env type chmpxid base m).2 a' := .added hid hf hc hadd hhost
      have hin : p ∈ a'.slaves := hadd.slaves.mem_iff.mpr List.mem_cons_self
      refine (h.keptBase ha hset' hkept hk.1).listed ha' hin ?_
      rw [hp']
      exact hk.2

/-- The call keeps the slaves found exactly under the condition. -/
theorem setSlaveBase_iff (h : SlavesMapped m a) (ha : Area m a)
    (hset : (setSlaveBase env type chmpxid base m).1 = true) :
    SlaveListed chmpxid (setSlaveBase env type chmpxid base m).2 ↔
      KeepsSlaveId env type chmpxid base m := by
  cases hf : m.find m.chmpxSlaves chmpxid with
  | some p => exact setSlaveBase_known_iff h ha hset hf
  | none => exact setSlaveBase_new_iff h ha hset hf

/-! ## Runs -/

/-- An operation fits, and a slave that is accepted keeps its chmpxid. -/
def FitsSlaves (env : Env) (op : AreaOp) (m : ChmpxMan) : Prop :=
  Fits env op m ∧ ∀ type chmpxid base, slaveBaseOf m op = some (type, chmpxid, base) →
    (setSlaveBase env type chmpxid base m).1 = true → KeepsSlaveId env type chmpxid base m

theorem SlavesMapped.congr (h : SlavesMapped m a) (hsame : m'.same = m.same)
    (hmap : m'.chmpxidMap = m.chmpxidMap) (harea : m'.chmpxCount = m.chmpxCount)
    (hid : ∀ p, (m'.chmpx p).chmpxid = (m.chmpx p).chmpxid) : SlavesMapped m' a :=
  ⟨h.toSlavesPlaced.sameIds rfl rfl fun p _ => hid p,
    h.mapped.imp fun _ hm => hm.congr hsame hmap harea hid⟩

theorem SlavesMapped.sameShape (h : SlavesMapped m a) (hs : SameShape m m') : SlavesMapped m' a :=
  h.congr hs.same hs.chmpxidMap hs.chmpxCount hs.chmpxid

theorem stable_slavesMapped : Stable SlavesMapped where
  rewritten hw h := h.sameShape hw.shape
  head _ h := h.congr rfl rfl rfl fun _ => rfl
  replica _ h := h.congr rfl rfl rfl fun _ => rfl

theorem SlavesMapped.addedServer (h : SlavesMapped m a) (hpl : Places m a)
    (hadd : AddedServer m m' a a' p c) : SlavesMapped m' a' := by
  obtain ⟨chain, hm⟩ := h.mapped
  exact ⟨h.toSlavesPlaced.addedServer hpl hadd, hm.addedServer hpl hadd⟩

theorem SlavesMapped.droppedServer {eqfd : Bool} (h : SlavesMapped m a) (hpl : Places m a)
    (hp : p ∈ a.svrs) (hd : DroppedServer m m' a a' p eqfd) : SlavesMapped m' a' := by
  obtain ⟨chain, hm⟩ := h.mapped
  exact ⟨h.toSlavesPlaced.droppedServer hpl hp hd, hm.dropped hd.toDropped⟩

/-- A call that returns true with a name that is refused changes nothing when the node is
known, and any other one writes the chmpxid that the slave told. -/
theorem SlavesMapped.baseSet (h : SlavesMapped m a) (ha : Area m a)
    (hset : SlaveBaseSet env type chmpxid base m a m' a')
    (hkeeps : (setSlaveBase env type chmpxid base m).1 = true →
      KeepsSlaveId env type chmpxid base m) : SlavesMapped m' a' := by
  cases hset with
  | refused => exact h
  | @overwritten p c hid hf hinit =>
    have hr : Chmpx.refuses env m.group base.hostname = false :=
      Chmpx.accepted_of_initializeChmpx hinit
    have hhost : base.hostname ≠ [] := by
      intro hhost
      rw [Chmpx.refuses, hhost] at hr
      cases hr
    have hk := (keepsSlaveId_of_accepted hr).mp (hkeeps (by
      rw [setSlaveBase_of_found hhost hid hf]))
    exact h.keptBase ha (.overwritten hid hf hinit) ((slaveIdKept_iff hr).mpr hk.2) hk.1
  | @added _ _ p c hid hf hc hadd hhost =>
    have hfree : m.chmpxFreeCount ≠ 0 := by
      rw [ha.lists.freeCount]
      exact (List.length_pos_of_mem hadd.mem_free).ne'
    have hkeep := hkeeps (setSlaveBase_new ha hhost hid hf hfree).1
    cases hr : Chmpx.refuses env m.group base.hostname with
    | true => exact absurd hf ((keepsSlaveId_of_refused hr).mp hkeep).2
    | false =>
      have hk := (keepsSlaveId_of_accepted hr).mp hkeep
      exact h.keptBase ha (.added hid hf hc hadd hhost) ((slaveIdKept_iff hr).mpr hk.2) hk.1

theorem AreaInvariant.slavesMapped : AreaInvariant FitsSlaves SlavesMapped where
  fits hok := hok.1
  stable := stable_slavesMapped
  resocked _ _ hr h := h.sameShape hr.shape
  merge hok ha h := mergeChmpxSvrs_rule ha hok.1 ⟨stable_slavesMapped,
    fun _ _ _ _ _ _ _ _ hpl _ hadd h => h.addedServer hpl hadd,
    fun _ _ _ _ _ _ hpl hps _ hd h => h.droppedServer hpl hps hd⟩ h
  reload {env cfg eqfd m a} hok ha h := by
    have hrule : (reloadConfiguration env cfg eqfd m).2 = m ∨ ∃ a', Removing SlavesMapped env cfg
        m.keptChmpxId (reloadConfiguration env cfg eqfd m).2 a' a'.svrs [] :=
      reloadConfiguration_rule (P := fun _ => SlavesMapped) ha hok.1
        ⟨fun _ _ h => h, Or.inr fun _ _ h => h.congr rfl rfl rfl fun _ => rfl,
          fun _ h _ _ hadd hp => hp.addedServer h.toPlaces hadd⟩ id
        (fun h hps _ hd hp => hp.droppedServer h.toPlaces hps hd)
        (stable_slavesMapped.replica cfg.replicaCount h)
    rcases hrule with he | ⟨a', hr⟩
    · rw [he]
      exact ⟨a, ha, h⟩
    · exact ⟨a', hr.area, hr.holds⟩
  slaveBase hok hbase ha h hset _ := h.baseSet ha hset (hok.2 _ _ _ hbase)
  removed _ ha _ hps hd h := by
    obtain ⟨chain, hm⟩ := h.mapped
    exact ⟨h.toSlavesPlaced.droppedSlave ha hps hd, hm.dropped hd.toDropped⟩

/-- In every state of a run the slaves are found. -/
theorem reachable_slavesMapped (h : AreaReachable ConfigAllowed FitsSlaves m) :
    ∃ a, Area m a ∧ SlavesMapped m a := by
  refine h.invariant (fun {env cfg m} hrun hstart => ?_) AreaInvariant.slavesMapped
  obtain ⟨a, ha, hmapped, hs⟩ := initialized_rule
    (P := fun _ m a => (∃ chain, IdsMapped m chain) ∧ a.slaves = []) hrun hstart
    ⟨Or.inr fun _ _ hi => ⟨hi.1.imp fun _ hm => hm.congr rfl rfl rfl fun _ => rfl, hi.2⟩,
      fun _ ha _ hadd hi => by
        obtain ⟨chain, hm⟩ := hi.1
        exact ⟨hm.addedServer ha.toPlaces hadd, hadd.slaves.trans hi.2⟩⟩
    fun m a hs => ⟨hs.idsMapped, hs.slaves⟩
  refine ⟨a, ha, ⟨fun p hp => ?_, fun p hp => ?_⟩, hmapped⟩
  · rw [hs] at hp
    cases hp
  · rw [hs] at hp
    cases hp

/-- After a run in which every slave that was accepted kept its chmpxid, the next slave
that is accepted is listed once and found by its chmpxid exactly when it keeps it too. -/
theorem setSlaveBase_listed_iff (h : AreaReachable ConfigAllowed FitsSlaves m)
    (hset : (setSlaveBase env type chmpxid base m).1 = true) :
    SlaveListed chmpxid (setSlaveBase env type chmpxid base m).2 ↔
      KeepsSlaveId env type chmpxid base m := by
  obtain ⟨a, ha, hm⟩ := reachable_slavesMapped h
  exact setSlaveBase_iff hm ha hset

def sampleSlaveId : ChmpxId := (sampleSlave []).chmpxid sampleEnv sampleGroup .name

theorem setSlaveBase_listed_sample :
    SlaveListed sampleSlaveId (setSlaveBase sampleEnv .name sampleSlaveId
      (sampleSlave []) (sampleMan true)).2 :=
  (setSlaveBase_listed_iff (.init (sampleMan_eq true) (sampleCfg_allowed true))
    (by decide +kernel)).mpr ⟨by decide +kernel, by decide +kernel⟩

/-- A data base that has another name for every host. -/
def aliasEnv : Env := { sampleEnv with getHostnameList := fun name => [name ++ [46]] }

/-- A slave that tells the short name of its host: the node gets the chmpxid of the long
name, and the chmpxid that the slave told is in no list. -/
theorem setSlaveBase_otherName :
    ¬∀ m env type chmpxid base, AreaReachable ConfigAllowed FitsSlaves m →
      (setSlaveBase env type chmpxid base m).1 = true →
        SlaveListed chmpxid (setSlaveBase env type chmpxid base m).2 := by
  intro h
  obtain ⟨p, hone, -⟩ := h (sampleMan true) aliasEnv .name sampleSlaveId (sampleSlave [])
    (.init (sampleMan_eq true) (sampleCfg_allowed true)) (by decide +kernel)
  have hnone : (setSlaveBase aliasEnv .name sampleSlaveId (sampleSlave [])
      (sampleMan true)).2.slaveNodes.filter (fun q => ((setSlaveBase aliasEnv .name
        sampleSlaveId (sampleSlave []) (sampleMan true)).2.chmpx q).chmpxid =
          sampleSlaveId) = [] := by decide +kernel
  rw [hnone] at hone
  cases hone

end ChmpxMan
end Chm
