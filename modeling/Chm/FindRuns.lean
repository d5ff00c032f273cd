/-
`Find` along a run.

The servers have different chmpxids, and so have the slaves together with this node when
it is a slave: the map holds it too, although it is in no list.  A search takes the nodes
of one mode only, so a server and a slave may share a chmpxid.
-/
import Chm.UniqueIds

namespace Chm

namespace ChmpxMan

variable {env : Env} {cfg : ChmCfgInfo} {m m' : ChmpxMan} {a a' : Placement} {p q : Ptr}
variable {c : Chmpx} {chmpxid : ChmpxId} {chain : Nat → List Ptr}

/-- The nodes are placed in one way only. -/
theorem Area.unique (h : Area m a) (h' : Area m a') : a = a' := by
  have hs := h.serverNodes_eq.symm.trans h'.serverNodes_eq
  have hf := h.freeNodes_eq.symm.trans h'.freeNodes_eq
  have hl := h.slaveNodes_eq.symm.trans h'.slaveNodes_eq
  have he := h.selfNode_eq.symm.trans h'.selfNode_eq
  cases a
  cases a'
  simp only at hs hf hl he
  rw [hs, hf, hl, he]

/-! ## The slaves and this node -/

def Placement.clients (a : Placement) : List Ptr := a.slaves ++ a.self

/-- The slaves have chmpxids, different from each other's and from this node's. -/
structure SlavesPlaced (m : ChmpxMan) (a : Placement) : Prop where
  valid : ∀ p ∈ a.slaves, (m.chmpx p).chmpxid ≠ chmInvalidChmpxId
  unique : ∀ p ∈ a.slaves, ∀ q ∈ a.clients, (m.chmpx p).chmpxid = (m.chmpx q).chmpxid → p = q

theorem Places.mode_of_client (h : Places m a) (hp : p ∈ a.clients) :
    (m.chmpx p).isServerMode = false := by
  by_contra hne
  have hps := h.lists.server_mem p (by simpa using hne)
  refine h.lists.chains.disjoint_head hps ?_
  rcases List.mem_append.mp hp with hp | hp
  · simp [Placement.rest, hp]
  · simp [Placement.rest, hp]

theorem Places.client_notMem_svrs (h : Places m a) (hp : p ∈ a.clients) : p ∉ a.svrs := by
  intro hps
  have hmode := h.mode_of_client hp
  rw [h.lists.server hps] at hmode
  cases hmode

theorem Places.client_notMem_frees (h : Places m a) (hp : p ∈ a.clients) : p ∉ a.frees := by
  intro hpf
  obtain ⟨-, hl, he⟩ := h.notMem_of_free hpf
  rcases List.mem_append.mp hp with hp | hp
  · exact hl hp
  · exact he hp

/-- A search from a slave that finds nothing leaves no slave out, nor this node. -/
theorem IdsMapped.find_none_slave (h : IdsMapped m chain) (hpl : Places m a) (hq : q ∈ a.slaves)
    (hid : chmpxid ≠ chmInvalidChmpxId) (hf : m.find (some q) chmpxid = none) :
    ∀ r ∈ a.clients, (m.chmpx r).chmpxid ≠ chmpxid := by
  rintro r hr rfl
  have hmode := hpl.mode_of_client (p := q) (List.mem_append_left _ hq)
  rw [find, Option.bind_some, searchChmpxid, if_neg hid, h.toMapped.bucket_eq,
    List.find?_eq_none] at hf
  refine hf r (h.saved r hid) ?_
  simp [hmode, hpl.mode_of_client hr]

theorem SlavesPlaced.sameIds (h : SlavesPlaced m a) (hslaves : a'.slaves = a.slaves)
    (hself : a'.self = a.self)
    (hid : ∀ p ∈ a.clients, (m'.chmpx p).chmpxid = (m.chmpx p).chmpxid) :
    SlavesPlaced m' a' := by
  have hclients : a'.clients = a.clients := by rw [Placement.clients, hslaves, hself]; rfl
  have hsub : ∀ p ∈ a.slaves, p ∈ a.clients := fun p hp => List.mem_append_left _ hp
  refine ⟨fun p hp => ?_, fun p hp q hq he => ?_⟩
  · rw [hslaves] at hp
    rw [hid p (hsub p hp)]
    exact h.valid p hp
  · rw [hslaves] at hp
    rw [hclients] at hq
    rw [hid p (hsub p hp), hid q hq] at he
    exact h.unique p hp q hq he

theorem SlavesPlaced.sameShape (h : SlavesPlaced m a) (hs : SameShape m m') :
    SlavesPlaced m' a :=
  h.sameIds rfl rfl fun p _ => hs.chmpxid p

theorem stable_slavesPlaced : Stable SlavesPlaced where
  rewritten hw h := h.sameShape hw.shape
  head _ h := ⟨h.valid, h.unique⟩
  replica _ h := ⟨h.valid, h.unique⟩

theorem SlavesPlaced.addedServer (h : SlavesPlaced m a) (hpl : Places m a)
    (ha : AddedServer m m' a a' p c) : SlavesPlaced m' a' := by
  refine h.sameIds ha.slaves ha.self fun q hq => ?_
  have hqp : q ≠ p := fun he => hpl.client_notMem_frees hq (he ▸ ha.mem_free)
  rw [ha.chmpx_eq, if_neg hqp]

theorem SlavesPlaced.droppedServer {eqfd : Bool} (h : SlavesPlaced m a) (hpl : Places m a)
    (hp : p ∈ a.svrs) (hd : DroppedServer m m' a a' p eqfd) : SlavesPlaced m' a' := by
  refine h.sameIds hd.slaves hd.self fun q hq => ?_
  have hqp : q ≠ p := fun he => hpl.client_notMem_svrs hq (he ▸ hp)
  rw [hd.chmpx_eq, if_neg hqp]

theorem mergeChmpxSvrs_slaves {args : MergeArgs} {records : List ChmpxSvr} (ha : Area m a)
    (hfits : MergeFits env args records m) (hp : SlavesPlaced m a) :
    ∃ a', Area (mergeChmpxSvrs env args records m).2.2 a' ∧
      SlavesPlaced (mergeChmpxSvrs env args records m).2.2 a' :=
  mergeChmpxSvrs_rule ha hfits ⟨stable_slavesPlaced,
    fun _ _ _ _ _ _ _ _ hpl _ hadd hp => hp.addedServer hpl hadd,
    fun _ _ _ _ _ _ hpl hps _ hd hp => hp.droppedServer hpl hps hd⟩ hp

theorem reloadConfiguration_slaves {eqfd : Bool} (ha : Area m a) (hnames : UpdateNames env cfg m)
    (hp : SlavesPlaced m a) :
    ∃ a', Area (reloadConfiguration env cfg eqfd m).2 a' ∧
      SlavesPlaced (reloadConfiguration env cfg eqfd m).2 a' := by
  have hrule : (reloadConfiguration env cfg eqfd m).2 = m ∨ ∃ a', Removing SlavesPlaced env cfg
      m.keptChmpxId (reloadConfiguration env cfg eqfd m).2 a' a'.svrs [] :=
    reloadConfiguration_rule (P := fun _ => SlavesPlaced) ha hnames
      ⟨fun _ _ h => h, Or.inr fun _ _ h => ⟨h.valid, h.unique⟩,
        fun _ h _ _ hadd hp => hp.addedServer h.toPlaces hadd⟩ id
      (fun h hps _ hd hp => hp.droppedServer h.toPlaces hps hd)
      (stable_slavesPlaced.replica cfg.replicaCount hp)
  rcases hrule with he | ⟨a', hr⟩
  · rw [he]
    exact ⟨a, ha, hp⟩
  · exact ⟨a', hr.area, hr.holds⟩

/-- A slave that connects to a node without slaves has another chmpxid than the node, when
the node is a slave too. -/
def SlaveIsOther (chmpxid : ChmpxId) (m : ChmpxMan) : Prop :=
  m.chmpxSlaves = none → ∀ p ∈ m.selfNode, (m.chmpx p).chmpxid ≠ chmpxid

theorem setSlaveBase_slaves {type : ChmpxIdSeedType} {base : SlaveBase} (ha : Area m a)
    (hset : SlaveBaseSet env type chmpxid base m a m' a')
    (hid : SlaveIdKept env type m.group chmpxid base) (hother : SlaveIsOther chmpxid m)
    (hm : IdsMapped m chain) (hp : SlavesPlaced m a) : SlavesPlaced m' a' := by
  cases hset with
  | refused => exact hp
  | @overwritten p c _ hf hinit =>
    obtain ⟨-, hold, -⟩ := ha.toPlaces.find_slave hf
    refine hp.sameIds rfl rfl fun q _ => ?_
    rw [chmpx_setChmpx]
    split
    · rename_i hqp
      rw [hid.record hinit, hqp, hold]
    · rfl
  | @added _ _ p c _ hf hc hadd =>
    have hinit : Chmpx.initializeChmpx env type m.group .slave base.param = some c := by
      rcases hc with hc | ⟨hr, -⟩
      · exact hc
      · rw [hid.accepted] at hr
        cases hr
    have hcid : c.chmpxid = chmpxid := hid.record hinit
    have hvalid : c.chmpxid ≠ chmInvalidChmpxId := initializeChmpx_valid hinit
    have hnew : ∀ q ∈ a.clients, (m.chmpx q).chmpxid ≠ c.chmpxid := by
      rw [hcid]
      cases hs : a.slaves with
      | nil =>
        intro q hq
        have hnone : m.chmpxSlaves = none := by rw [ha.slaves, hs]; rfl
        rw [Placement.clients, hs, List.nil_append, ← ha.selfNode_eq] at hq
        exact hother hnone q hq
      | cons s l =>
        have hsome : m.chmpxSlaves = some s := by rw [ha.slaves, hs]; rfl
        rw [hsome] at hf
        exact hm.find_none_slave ha.toPlaces (by rw [hs]; simp) (hcid ▸ hvalid) hf
    have hold : ∀ q ∈ a.clients, m'.chmpx q = m.chmpx q := by
      intro q hq
      have hqp : q ≠ p := fun he => ha.toPlaces.client_notMem_frees hq (he ▸ hadd.mem_free)
      rw [hadd.chmpx_eq, if_neg hqp]
    have hcase : ∀ q ∈ a'.clients, q = p ∧ m'.chmpx q = c ∨
        q ∈ a.clients ∧ m'.chmpx q = m.chmpx q := by
      intro q hq
      have hq' : q = p ∨ q ∈ a.clients := by
        rcases List.mem_append.mp hq with hq | hq
        · exact (List.mem_cons.mp (hadd.slaves.mem_iff.mp hq)).imp_right
            (List.mem_append_left _)
        · exact Or.inr (List.mem_append_right _ (hadd.self ▸ hq))
      refine hq'.imp (fun he => ⟨he, ?_⟩) fun hq => ⟨hq, hold q hq⟩
      rw [hadd.chmpx_eq, if_pos he]
    have hslave : ∀ q ∈ a'.slaves, q ≠ p → q ∈ a.slaves := fun q hq hqp =>
      (List.mem_cons.mp (hadd.slaves.mem_iff.mp hq)).resolve_left hqp
    refine ⟨fun q hq => ?_, fun q hq r hr he => ?_⟩
    · rcases hcase q (List.mem_append_left _ hq) with ⟨-, hqc⟩ | ⟨hqa, hqc⟩
      · rw [hqc]
        exact hvalid
      · rw [hqc]
        refine hp.valid q (hslave q hq ?_)
        rintro rfl
        exact ha.toPlaces.client_notMem_frees hqa hadd.mem_free
    · rcases hcase q (List.mem_append_left _ hq) with ⟨hqp, hqc⟩ | ⟨hqa, hqc⟩ <;>
        rcases hcase r hr with ⟨hrp, hrc⟩ | ⟨hra, hrc⟩ <;> rw [hqc, hrc] at he
      · rw [hqp, hrp]
      · exact absurd he.symm (hnew r hra)
      · exact absurd he (hnew q hqa)
      · refine hp.unique q (hslave q hq ?_) r hra he
        rintro rfl
        exact ha.toPlaces.client_notMem_frees hqa hadd.mem_free

theorem Area.nodup_slaves (h : Area m a) : a.slaves.Nodup := by
  have hall := h.nodup
  unfold Placement.all at hall
  exact (List.nodup_append.mp (List.nodup_append.mp hall).1).2.1

theorem SlavesPlaced.droppedSlave {eqfd : Bool} (h : SlavesPlaced m a) (ha : Area m a)
    (hp : p ∈ a.slaves) (hd : DroppedSlave m m' a a' p eqfd) : SlavesPlaced m' a' := by
  have hnd := ha.nodup_slaves
  have hslave : ∀ q ∈ a'.slaves, q ∈ a.slaves ∧ q ≠ p := by
    intro q hq
    refine ⟨hd.slaves.mem_iff.mpr (List.mem_cons_of_mem _ hq), ?_⟩
    rintro rfl
    exact (List.nodup_cons.mp (hd.slaves.nodup_iff.mp hnd)).1 hq
  have hclient : ∀ q ∈ a'.clients, q ∈ a.clients ∧ q ≠ p := by
    intro q hq
    rcases List.mem_append.mp hq with hq | hq
    · exact ⟨List.mem_append_left _ (hslave q hq).1, (hslave q hq).2⟩
    · rw [hd.self] at hq
      refine ⟨List.mem_append_right _ hq, ?_⟩
      rintro rfl
      have hall := ha.nodup
      unfold Placement.all at hall
      exact (List.nodup_append'.mp hall).2.2 (List.mem_append_right _ hp) hq
  refine ⟨fun q hq => ?_, fun q hq r hr he => ?_⟩
  · rw [hd.chmpx_eq, if_neg (hslave q hq).2]
    exact h.valid q (hslave q hq).1
  · rw [hd.chmpx_eq, hd.chmpx_eq, if_neg (hslave q hq).2, if_neg (hclient r hr).2] at he
    exact h.unique q (hslave q hq).1 r (hclient r hr).1 he

/-! ## Runs -/

/-- `Find` from a server or slave list finds each node of the list by its chmpxid, and the
buckets hold the nodes of both lists, `others`, and nothing else. -/
structure Finds (m : ChmpxMan) (others : List Ptr) : Prop where
  servers : ∀ p ∈ m.serverNodes, ∀ q ∈ m.serverNodes,
    m.find (some p) (m.chmpx q).chmpxid = some q
  slaves : ∀ p ∈ m.slaveNodes, ∀ q ∈ m.slaveNodes, m.find (some p) (m.chmpx q).chmpxid = some q
  chains : ∃ chain, Mapped m chain ∧
    (∀ p ∈ m.serverNodes ++ m.slaveNodes, p ∈ chain (slotOf (m.chmpx p).chmpxid)) ∧
    ∀ i, ∀ p ∈ chain i, p ∈ m.serverNodes ++ m.slaveNodes ++ others

/-- An operation fits, gives no server the chmpxid of another one, and no slave another
chmpxid than it told or the one of this node. -/
def FitsFind (env : Env) (op : AreaOp) (m : ChmpxMan) : Prop :=
  FitsIds env op m ∧ ∀ type chmpxid base, slaveBaseOf m op = some (type, chmpxid, base) →
    SlaveIsOther chmpxid m

theorem AreaInvariant.finds :
    AreaInvariant FitsFind fun m a => IdsPlaced m a ∧ SlavesPlaced m a where
  fits hok := hok.1.1
  stable := ⟨fun hw h => ⟨stable_idsPlaced.rewritten hw h.1, stable_slavesPlaced.rewritten hw h.2⟩,
    fun head h => ⟨stable_idsPlaced.head head h.1, stable_slavesPlaced.head head h.2⟩,
    fun n h => ⟨stable_idsPlaced.replica n h.1, stable_slavesPlaced.replica n h.2⟩⟩
  resocked _ _ hr h := ⟨h.1.sameShape hr.shape, h.2.sameShape hr.shape⟩
  merge hok ha h := by
    obtain ⟨a', ha', hi⟩ := mergeChmpxSvrs_ids ha hok.1.1 hok.1.2.2 h.1
    obtain ⟨a'', ha'', hs⟩ := mergeChmpxSvrs_slaves ha hok.1.1 h.2
    exact ⟨a', ha', hi, ha'.unique ha'' ▸ hs⟩
  reload hok ha h := by
    obtain ⟨a', ha', hi⟩ := reloadConfiguration_ids ha hok.1.1 hok.1.2.2 h.1
    obtain ⟨a'', ha'', hs⟩ := reloadConfiguration_slaves ha hok.1.1 h.2
    exact ⟨a', ha', hi, ha'.unique ha'' ▸ hs⟩
  slaveBase hok hbase ha h hset _ := by
    obtain ⟨chain, hm⟩ := h.1.mapped
    have hid := hok.1.2.1 _ _ _ hbase
    obtain ⟨hm', hsvrs, hchm⟩ := setSlaveBase_mapped ha hset hid hm
    exact ⟨h.1.sameServers hm' hsvrs hchm,
      setSlaveBase_slaves ha hset hid (hok.2 _ _ _ hbase) hm h.2⟩
  removed _ ha _ hps hd h := ⟨h.1.droppedSlave ha.toPlaces hps hd, h.2.droppedSlave ha hps hd⟩

/-- A search finds the only node of its mode that has the chmpxid. -/
theorem IdsMapped.find_eq_some {l : List Ptr} (h : IdsMapped m chain)
    (hp : (m.chmpx p).isServerMode = (m.chmpx q).isServerMode)
    (hid : (m.chmpx q).chmpxid ≠ chmInvalidChmpxId)
    (hmode : ∀ r, (m.chmpx r).chmpxid ≠ chmInvalidChmpxId →
      (m.chmpx q).isServerMode = (m.chmpx r).isServerMode → r ∈ l)
    (hunique : ∀ r ∈ l, (m.chmpx q).chmpxid = (m.chmpx r).chmpxid → q = r) :
    m.find (some p) (m.chmpx q).chmpxid = some q := by
  have hin := h.saved q hid
  rw [find, Option.bind_some, searchChmpxid, if_neg hid, h.toMapped.bucket_eq]
  cases hf : (chain (slotOf (m.chmpx q).chmpxid)).find? fun r =>
      decide ((m.chmpx p).isServerMode = (m.chmpx r).isServerMode) &&
        decide ((m.chmpx q).chmpxid = (m.chmpx r).chmpxid) with
  | none =>
    rw [List.find?_eq_none] at hf
    exact absurd (by simp [hp]) (hf q hin)
  | some r =>
    have hr := List.find?_some hf
    rw [Bool.and_eq_true, decide_eq_true_eq, decide_eq_true_eq] at hr
    rw [hunique r (hmode r (hr.2 ▸ hid) (hp.symm.trans hr.1)) hr.2]

end ChmpxMan
end Chm
