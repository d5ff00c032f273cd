/-
The chmpxid map and the chmpxids of the servers along a run.

Every node with a chmpxid is in its bucket, so a merge that finds no server with a
chmpxid adds the first one.  A reload compares attributes and not chmpxids: a configured
server that has been edited gets a second node with the chmpxid of the first.
-/
import Chm.Placed

namespace Chm

namespace ChmpxMan

variable {env : Env} {cfg : ChmCfgInfo} {m m' : ChmpxMan} {a a' : Placement} {p q : Ptr}
variable {c : Chmpx} {chmpxid : ChmpxId} {chain : Nat → List Ptr}

/-! ## The chmpxid map through the moves -/

/-- The map reads as `chain`, and every node with a chmpxid is in its bucket. -/
structure IdsMapped (m : ChmpxMan) (chain : Nat → List Ptr) : Prop extends Mapped m chain where
  saved : ∀ p, (m.chmpx p).chmpxid ≠ chmInvalidChmpxId → p ∈ chain (slotOf (m.chmpx p).chmpxid)

theorem IdsMapped.congr (h : IdsMapped m chain) (hsame : m'.same = m.same)
    (hmap : m'.chmpxidMap = m.chmpxidMap) (harea : m'.chmpxCount = m.chmpxCount)
    (hid : ∀ p, (m'.chmpx p).chmpxid = (m.chmpx p).chmpxid) : IdsMapped m' chain := by
  refine ⟨h.toMapped.congr hsame hmap harea fun _ p _ => hid p, fun p hp => ?_⟩
  rw [hid] at hp ⊢
  exact h.saved p hp

/-- A free node goes into the bucket of the chmpxid it is given. -/
theorem IdsMapped.added (h : IdsMapped m chain) (ha : Added m m' a a' p c)
    (hm : Mapped m' (Function.update chain (slotOf c.chmpxid)
      (chain (slotOf c.chmpxid) ++ [p]))) :
    ∃ chain', IdsMapped m' chain' := by
  refine ⟨_, hm, fun q hq => ?_⟩
  rw [Function.update_apply]
  by_cases hqp : q = p
  · have hc : m'.chmpx q = c := by rw [ha.chmpx_eq, if_pos hqp]
    rw [hc, if_pos rfl, hqp]
    simp
  · have hold : m'.chmpx q = m.chmpx q := by rw [ha.chmpx_eq, if_neg hqp]
    rw [hold] at hq ⊢
    have hin := h.saved q hq
    split
    · rename_i hi
      rw [hi] at hin
      exact List.mem_append_left _ hin
    · exact hin

theorem IdsMapped.addedServer (h : IdsMapped m chain) (hpl : Places m a)
    (ha : AddedServer m m' a a' p c) : ∃ chain', IdsMapped m' chain' :=
  h.added ha.toAdded
    (ha.mapped chain h.toMapped (h.toMapped.notMem_of_invalid (hpl.free_invalid ha.mem_free)))

theorem IdsMapped.addedSlave (h : IdsMapped m chain) (hpl : Places m a)
    (ha : AddedSlave m m' a a' p c) (hid : c.chmpxid ≠ chmInvalidChmpxId) :
    ∃ chain', IdsMapped m' chain' :=
  h.added ha.toAdded
    (ha.mapped hid chain h.toMapped
      (h.toMapped.notMem_of_invalid (hpl.free_invalid ha.mem_free)))

/-- A node that is cleared leaves its bucket. -/
theorem IdsMapped.dropped {eqfd : Bool} (h : IdsMapped m chain) (hd : Dropped m m' a a' p eqfd) :
    ∃ chain', IdsMapped m' chain' := by
  have hother : ∀ q, (m'.chmpx q).chmpxid ≠ chmInvalidChmpxId → q ≠ p ∧
      m'.chmpx q = m.chmpx q := by
    intro q hq
    rw [hd.chmpx_eq] at hq ⊢
    split at hq
    · exact absurd rfl hq
    · rename_i hqp
      exact ⟨hqp, if_neg hqp⟩
  by_cases hp : p ∈ chain (slotOf (m.chmpx p).chmpxid)
  · refine ⟨_, hd.mapped chain _ h.toMapped hp, fun q hq => ?_⟩
    obtain ⟨hqp, hold⟩ := hother q hq
    rw [hold] at hq ⊢
    have hin := h.saved q hq
    rw [Function.update_apply]
    split
    · rename_i hi
      rw [hi] at hin
      exact (List.mem_erase_of_ne hqp).mpr hin
    · exact hin
  · refine ⟨chain, hd.lone chain h.toMapped (h.toMapped.notMem hp), fun q hq => ?_⟩
    obtain ⟨-, hold⟩ := hother q hq
    rw [hold] at hq ⊢
    exact h.saved q hq

/-- A search from a server that finds nothing leaves no server out. -/
theorem IdsMapped.find_none (h : IdsMapped m chain) (hpl : Places m a) (hq : q ∈ a.svrs)
    (hf : m.find (some q) chmpxid = none) : ∀ r ∈ a.svrs, (m.chmpx r).chmpxid ≠ chmpxid := by
  rintro r hr rfl
  have hid := (hpl.lists.isServer r hr).valid
  rw [h.toMapped.find_eq (hpl.lists.server hq) hid, List.find?_eq_none] at hf
  refine hf r (h.saved r hid) ?_
  simp [isServerOf, hpl.lists.server hr]

theorem SelfPlaced.idsMapped (h : SelfPlaced env cfg m a) :
    ∃ chain, IdsMapped (m.withFrees a.frees) chain := by
  obtain ⟨chain, hm, hin⟩ := h.mapped
  exact ⟨chain, hm.congr rfl rfl rfl fun _ _ _ => rfl, hin⟩

/-! ## One chmpxid, one server -/

def serverIds (m : ChmpxMan) : List ChmpxId := m.serverNodes.map fun p => (m.chmpx p).chmpxid

/-- The servers have different chmpxids and the map holds every chmpxid. -/
structure IdsPlaced (m : ChmpxMan) (a : Placement) : Prop where
  mapped : ∃ chain, IdsMapped m chain
  unique : ∀ p ∈ a.svrs, ∀ q ∈ a.svrs, (m.chmpx p).chmpxid = (m.chmpx q).chmpxid → p = q

theorem Area.serverIds_nodup (h : Area m a) (hp : IdsPlaced m a) : m.serverIds.Nodup := by
  rw [serverIds, h.serverNodes_eq]
  exact h.lists.nodup_svrs.map_on hp.unique

theorem IdsPlaced.congr (h : IdsPlaced m a) (hsame : m'.same = m.same)
    (hmap : m'.chmpxidMap = m.chmpxidMap) (harea : m'.chmpxCount = m.chmpxCount)
    (hid : ∀ p, (m'.chmpx p).chmpxid = (m.chmpx p).chmpxid) (hsvrs : a'.svrs = a.svrs) :
    IdsPlaced m' a' := by
  obtain ⟨chain, hm⟩ := h.mapped
  refine ⟨⟨chain, hm.congr hsame hmap harea hid⟩, fun p hp q hq he => ?_⟩
  rw [hsvrs] at hp hq
  rw [hid, hid] at he
  exact h.unique p hp q hq he

theorem IdsPlaced.sameShape (h : IdsPlaced m a) (hs : SameShape m m') : IdsPlaced m' a :=
  h.congr hs.same hs.chmpxidMap hs.chmpxCount hs.chmpxid rfl

theorem stable_idsPlaced : Stable IdsPlaced where
  rewritten hw h := h.sameShape hw.shape
  head _ h := h.congr rfl rfl rfl (fun _ => rfl) rfl
  replica _ h := h.congr rfl rfl rfl (fun _ => rfl) rfl

theorem IdsPlaced.addedServer (h : IdsPlaced m a) (hpl : Places m a)
    (ha : AddedServer m m' a a' p c) (hnew : ∀ q ∈ a.svrs, (m.chmpx q).chmpxid ≠ c.chmpxid) :
    IdsPlaced m' a' := by
  obtain ⟨chain, hm⟩ := h.mapped
  have hcase : ∀ q ∈ a'.svrs, q = p ∧ m'.chmpx q = c ∨ q ∈ a.svrs ∧ m'.chmpx q = m.chmpx q := by
    intro q hq
    rw [ha.chmpx_eq]
    rcases List.mem_cons.mp (ha.svrs.mem_iff.mp hq) with rfl | hq
    · exact Or.inl ⟨rfl, if_pos rfl⟩
    · have hqp : q ≠ p := fun he => (hpl.notMem_of_free ha.mem_free).1 (he ▸ hq)
      exact Or.inr ⟨hq, if_neg hqp⟩
  refine ⟨hm.addedServer hpl ha, fun q hq r hr he => ?_⟩
  rcases hcase q hq with ⟨hqp, hqc⟩ | ⟨hq, hqc⟩ <;>
    rcases hcase r hr with ⟨hrp, hrc⟩ | ⟨hr, hrc⟩ <;> rw [hqc, hrc] at he
  · rw [hqp, hrp]
  · exact absurd he.symm (hnew r hr)
  · exact absurd he (hnew q hq)
  · exact h.unique q hq r hr he

theorem IdsPlaced.droppedServer {eqfd : Bool} (h : IdsPlaced m a)
    (hd : DroppedServer m m' a a' p eqfd) (hnd : a.svrs.Nodup) : IdsPlaced m' a' := by
  obtain ⟨chain, hm⟩ := h.mapped
  have hold : ∀ q ∈ a'.svrs, q ∈ a.svrs ∧ m'.chmpx q = m.chmpx q := by
    intro q hq
    have hnd' := List.nodup_cons.mp (hd.svrs.nodup_iff.mp hnd)
    have hqp : q ≠ p := fun he => hnd'.1 (he ▸ hq)
    exact ⟨hd.svrs.mem_iff.mpr (List.mem_cons_of_mem _ hq), by rw [hd.chmpx_eq, if_neg hqp]⟩
  refine ⟨hm.dropped hd.toDropped, fun q hq r hr he => ?_⟩
  rw [(hold q hq).2, (hold r hr).2] at he
  exact h.unique q (hold q hq).1 r (hold r hr).1 he

/-! ## `MergeChmpxSvrs` -/

/-- The chmpxid in a record that makes a server is the one computed from it. -/
def RecordIds (env : Env) (args : MergeArgs) (records : List ChmpxSvr) (m : ChmpxMan) : Prop :=
  ∀ svr ∈ records, adds svr = true →
    (Chmpx.initializeServer env args.type m.group svr Chmpx.cleared).1 = true

theorem initializeServer_chmpxid {type : ChmpxIdSeedType} {group : CStr} {svr : ChmpxSvr}
    (h : (Chmpx.initializeServer env type group svr c).1 = true) :
    (Chmpx.initializeServer env type group svr c).2.chmpxid = svr.chmpxid := by
  rw [Chmpx.initializeServer] at h ⊢
  split at h
  · cases h
  · split at h
    · cases h
    · rename_i hid
      rw [if_neg hid]
      exact (not_not.mp hid).symm

theorem mergeChmpxSvrs_ids {args : MergeArgs} {records : List ChmpxSvr} (ha : Area m a)
    (hfits : MergeFits env args records m) (hids : RecordIds env args records m)
    (hp : IdsPlaced m a) :
    ∃ a', Area (mergeChmpxSvrs env args records m).2.2 a' ∧
      IdsPlaced (mergeChmpxSvrs env args records m).2.2 a' := by
  refine mergeChmpxSvrs_rule ha hfits ⟨stable_idsPlaced, ?_, ?_⟩ hp
  · intro svr hsvr hadds m m' a a' p hpl hfind hadd hp
    refine hp.addedServer hpl hadd fun q hq => ?_
    obtain ⟨chain, hm⟩ := hp.mapped
    rw [initializeServer_chmpxid (hids svr hsvr hadds)]
    exact hm.find_none hpl hq (hfind q hq) q hq
  · intro _ m m' a a' p hpl _ _ hd hp
    exact hp.droppedServer hd hpl.lists.nodup_svrs

/-! ## `ReloadConfiguration` -/

/-- The servers that a reload makes have chmpxids of their own: other ones than the
servers that stay, and other ones than each other. -/
def ReloadIds (env : Env) (cfg : ChmCfgInfo) (m : ChmpxMan) : Prop :=
  let record := Chmpx.initializeChmpx env cfg.chmpxidType cfg.groupname .server
  (∀ par ∈ cfg.servers, m.isListed env par = false → ∀ c, record par = some c →
    ∀ p ∈ m.serverNodes, staysListed env cfg m.keptChmpxId (m.chmpx p) = true →
      (m.chmpx p).chmpxid ≠ c.chmpxid) ∧
  cfg.servers.Pairwise fun par par' => ∀ c c', record par = some c → record par' = some c' →
    c.chmpxid = c'.chmpxid →
      m.isListed env par = true ∨ m.isListed env par' = true ∨ matchesParam env c par' = true

/-- The servers with a chmpxid in common, except for the ones that will not stay. -/
structure IdsReloaded (env : Env) (cfg : ChmCfgInfo) (selfchmpxid : ChmpxId) (m : ChmpxMan)
    (a : Placement) : Prop where
  mapped : ∃ chain, IdsMapped m chain
  unique : ∀ p ∈ a.svrs, ∀ q ∈ a.svrs, (m.chmpx p).chmpxid = (m.chmpx q).chmpxid →
    p = q ∨ staysListed env cfg selfchmpxid (m.chmpx p) = false ∨
      staysListed env cfg selfchmpxid (m.chmpx q) = false

/-- The first phase when the configured servers `done` have been looked at: the servers of
before are there as they were, and the others come from `done`. -/
structure Reloading (env : Env) (cfg : ChmCfgInfo) (m₀ : ChmpxMan) (a₀ : Placement)
    (done : List ChmpxParam) (m : ChmpxMan) (a : Placement) : Prop
    extends IdsReloaded env cfg m₀.keptChmpxId m a where
  old : ∀ p ∈ a₀.svrs, p ∈ a.svrs ∧ m.chmpx p = m₀.chmpx p
  made : ∀ p ∈ a.svrs, p ∉ a₀.svrs → ∃ par ∈ done, m₀.isListed env par = false ∧
    Chmpx.initializeChmpx env cfg.chmpxidType cfg.groupname .server par = some (m.chmpx p)

theorem Reloading.isListed {m₀ : ChmpxMan} {a₀ : Placement} {done : List ChmpxParam}
    {par : ChmpxParam} (h : Reloading env cfg m₀ a₀ done m a) (ha₀ : Area m₀ a₀) (ha : Area m a)
    (hl : m.isListed env par = false) : m₀.isListed env par = false := by
  by_contra hl₀
  rw [ha₀.isListed_eq, Bool.not_eq_false, List.any_eq_true] at hl₀
  obtain ⟨q, hq, hmatch⟩ := hl₀
  obtain ⟨hq', he⟩ := h.old q hq
  rw [ha.isListed_eq, List.any_eq_false] at hl
  exact hl q hq' (he ▸ hmatch)

/-- A server that the first phase adds shares its chmpxid only with ones that leave. -/
theorem Reloading.added {m₀ : ChmpxMan} {a₀ : Placement} {done rest : List ChmpxParam}
    {par : ChmpxParam} (h : Reloading env cfg m₀ a₀ done m a) (ha₀ : Area m₀ a₀)
    (hids : ReloadIds env cfg m₀) (hcfg : cfg.servers = done ++ par :: rest) (ha : Area m a)
    (hl : m.isListed env par = false)
    (hinit : Chmpx.initializeChmpx env cfg.chmpxidType cfg.groupname .server par = some c)
    (hadd : AddedServer m m' a a' p c) : Reloading env cfg m₀ a₀ (done ++ [par]) m' a' := by
  obtain ⟨chain, hm⟩ := h.mapped
  have hl₀ := h.isListed ha₀ ha hl
  have hps : p ∉ a.svrs := (ha.toPlaces.notMem_of_free hadd.mem_free).1
  have hcase : ∀ q ∈ a'.svrs, q = p ∧ m'.chmpx q = c ∨
      q ≠ p ∧ q ∈ a.svrs ∧ m'.chmpx q = m.chmpx q := by
    intro q hq
    rw [hadd.chmpx_eq]
    rcases List.mem_cons.mp (hadd.svrs.mem_iff.mp hq) with rfl | hq
    · exact Or.inl ⟨rfl, if_pos rfl⟩
    · have hqp : q ≠ p := fun he => hps (he ▸ hq)
      exact Or.inr ⟨hqp, hq, if_neg hqp⟩
  -- A server of the list with the chmpxid of the new one is an old one that leaves.
  have hnew : ∀ q ∈ a.svrs, (m.chmpx q).chmpxid = c.chmpxid →
      staysListed env cfg m₀.keptChmpxId (m.chmpx q) = false := by
    intro q hq he
    by_cases hq₀ : q ∈ a₀.svrs
    · rw [(h.old q hq₀).2] at he ⊢
      by_contra hst
      exact hids.1 par (by rw [hcfg]; simp) hl₀ c hinit q (ha₀.serverNodes_eq ▸ hq₀)
        (by simpa using hst) he
    · obtain ⟨par₁, hpar₁, hl₁, hinit₁⟩ := h.made q hq hq₀
      have hpw := hids.2
      rw [hcfg, List.pairwise_append] at hpw
      rcases hpw.2.2 par₁ hpar₁ par List.mem_cons_self _ c hinit₁ hinit he with h₁ | h₁ | h₁
      · rw [hl₁] at h₁
        cases h₁
      · rw [hl₀] at h₁
        cases h₁
      · rw [ha.isListed_eq, List.any_eq_false] at hl
        exact absurd h₁ (hl q hq)
  refine ⟨⟨hm.addedServer ha.toPlaces hadd, fun q hq r hr he => ?_⟩, fun q hq => ?_,
    fun q hq hq₀ => ?_⟩
  · rcases hcase q hq with ⟨hqp, hqc⟩ | ⟨hqp, hq, hqc⟩ <;>
      rcases hcase r hr with ⟨hrp, hrc⟩ | ⟨hrp, hr, hrc⟩ <;> rw [hqc, hrc] at he ⊢
    · exact Or.inl (hqp.trans hrp.symm)
    · exact Or.inr (Or.inr (hnew r hr he.symm))
    · exact Or.inr (Or.inl (hnew q hq he))
    · exact h.unique q hq r hr he
  · obtain ⟨hq', he⟩ := h.old q hq
    have hqp : q ≠ p := fun heq => hps (heq ▸ hq')
    exact ⟨hadd.svrs.mem_iff.mpr (List.mem_cons_of_mem _ hq'), by
      rw [hadd.chmpx_eq, if_neg hqp, he]⟩
  · rcases hcase q hq with ⟨hqp, hqc⟩ | ⟨hqp, hq, hqc⟩
    · exact ⟨par, by simp, hl₀, hqc ▸ hinit⟩
    · obtain ⟨par₁, hpar₁, hl₁, hinit₁⟩ := h.made q hq hq₀
      exact ⟨par₁, List.mem_append_left _ hpar₁, hl₁, hqc ▸ hinit₁⟩

theorem IdsReloaded.dropped {selfchmpxid : ChmpxId} {eqfd : Bool}
    (h : IdsReloaded env cfg selfchmpxid m a) (hd : DroppedServer m m' a a' p eqfd)
    (hnd : a.svrs.Nodup) : IdsReloaded env cfg selfchmpxid m' a' := by
  obtain ⟨chain, hm⟩ := h.mapped
  have hold : ∀ q ∈ a'.svrs, q ∈ a.svrs ∧ m'.chmpx q = m.chmpx q := by
    intro q hq
    have hnd' := List.nodup_cons.mp (hd.svrs.nodup_iff.mp hnd)
    have hqp : q ≠ p := fun he => hnd'.1 (he ▸ hq)
    exact ⟨hd.svrs.mem_iff.mpr (List.mem_cons_of_mem _ hq), by rw [hd.chmpx_eq, if_neg hqp]⟩
  refine ⟨hm.dropped hd.toDropped, fun q hq r hr he => ?_⟩
  rw [(hold q hq).2, (hold r hr).2] at he ⊢
  exact h.unique q (hold q hq).1 r (hold r hr).1 he

theorem reloadConfiguration_ids {eqfd : Bool} (ha : Area m a) (hnames : UpdateNames env cfg m)
    (hids : ReloadIds env cfg m) (hp : IdsPlaced m a) :
    ∃ a', Area (reloadConfiguration env cfg eqfd m).2 a' ∧
      IdsPlaced (reloadConfiguration env cfg eqfd m).2 a' := by
  have hrule : (reloadConfiguration env cfg eqfd m).2 = m ∨ ∃ a', Removing
      (IdsReloaded env cfg m.keptChmpxId) env cfg m.keptChmpxId
      (reloadConfiguration env cfg eqfd m).2 a' a'.svrs [] := by
    refine reloadConfiguration_rule (P := Reloading env cfg m a) ha hnames ⟨?_, Or.inr ?_, ?_⟩
      (fun h => h.toIdsReloaded) ?_ ?_
    · intro done par rest m' a' _ _ h
      exact ⟨h.toIdsReloaded, h.old, fun q hq hq₀ => (h.made q hq hq₀).imp fun _ hpar =>
        ⟨List.mem_append_left _ hpar.1, hpar.2⟩⟩
    · intro done par rest m' a' n _ h
      exact ⟨⟨h.mapped.imp fun _ hm => hm.congr rfl rfl rfl fun _ => rfl, h.unique⟩, h.old,
        fun q hq hq₀ => (h.made q hq hq₀).imp fun _ hpar =>
          ⟨List.mem_append_left _ hpar.1, hpar.2⟩⟩
    · intro done par rest m₁ m₂ a₁ a₂ p c hcfg ha₁ hl hinit hadd h
      exact h.added ha hids hcfg ha₁ hl hinit hadd
    · intro m₁ m₂ a₁ a₂ p ha₁ _ _ hd h
      exact h.dropped hd ha₁.lists.nodup_svrs
    · refine ⟨⟨hp.mapped.imp fun _ hm => hm.congr rfl rfl rfl fun _ => rfl, fun q hq r hr he =>
        Or.inl (hp.unique q hq r hr he)⟩, fun q hq => ⟨hq, rfl⟩, fun q hq hq₀ => absurd hq hq₀⟩
  rcases hrule with he | ⟨a', hr⟩
  · rw [he]
    exact ⟨a, ha, hp⟩
  · refine ⟨a', hr.area, hr.holds.mapped, fun q hq r hr' he => ?_⟩
    rcases hr.holds.unique q hq r hr' he with heq | hst | hst
    · exact heq
    · rw [hr.stays q hq] at hst
      cases hst
    · rw [hr.stays r hr'] at hst
      cases hst

/-! ## `SetSlaveBase` and `RemoveSlave` -/

/-- The slave is known on this node by the chmpxid that it has told. -/
def SlaveIdKept (env : Env) (type : ChmpxIdSeedType) (group : CStr) (chmpxid : ChmpxId)
    (base : SlaveBase) : Prop :=
  (Chmpx.initializeChmpx env type group .slave base.param).map (·.chmpxid) = some chmpxid

theorem initializeChmpx_valid {type : ChmpxIdSeedType} {group : CStr} {mode : ChmpxMode}
    {par : ChmpxParam} (h : Chmpx.initializeChmpx env type group mode par = some c) :
    c.chmpxid ≠ chmInvalidChmpxId := by
  rw [Chmpx.initializeChmpx] at h
  split at h
  · cases h
  · cases h
    exact makeChmpxId_ne_invalid _ _ _ _ _ _ _ _

theorem SlaveIdKept.record {type : ChmpxIdSeedType} {group : CStr} {base : SlaveBase}
    (h : SlaveIdKept env type group chmpxid base)
    (hinit : Chmpx.initializeChmpx env type group .slave base.param = some c) :
    c.chmpxid = chmpxid := by
  rw [SlaveIdKept, hinit] at h
  exact Option.some.inj h

theorem SlaveIdKept.accepted {type : ChmpxIdSeedType} {group : CStr} {base : SlaveBase}
    (h : SlaveIdKept env type group chmpxid base) :
    Chmpx.refuses env group base.hostname = false := by
  obtain ⟨c, hinit, -⟩ := Option.map_eq_some_iff.mp h
  exact Chmpx.accepted_of_initializeChmpx hinit

/-- What `SetSlaveBase` does to the map when the slave keeps its chmpxid. -/
theorem setSlaveBase_mapped {type : ChmpxIdSeedType} {base : SlaveBase} (ha : Area m a)
    (hset : SlaveBaseSet env type chmpxid base m a m' a')
    (hid : SlaveIdKept env type m.group chmpxid base) (hm : IdsMapped m chain) :
    (∃ chain', IdsMapped m' chain') ∧ a'.svrs = a.svrs ∧
      ∀ p ∈ a.svrs, m'.chmpx p = m.chmpx p := by
  cases hset with
  | refused => exact ⟨⟨chain, hm⟩, rfl, fun _ _ => rfl⟩
  | @overwritten p c _ hf hinit =>
    obtain ⟨-, hold, hmode⟩ := ha.toPlaces.find_slave hf
    refine ⟨⟨chain, hm.congr rfl rfl rfl fun q => ?_⟩, rfl, fun q hq => ?_⟩
    · rw [chmpx_setChmpx]
      split
      · rename_i hqp
        rw [hid.record hinit, hqp, hold]
      · rfl
    · have hqp : q ≠ p := by
        rintro rfl
        rw [ha.lists.server hq] at hmode
        cases hmode
      rw [chmpx_setChmpx, if_neg hqp]
  | @added _ _ p c _ hf hc hadd =>
    have hinit : Chmpx.initializeChmpx env type m.group .slave base.param = some c := by
      rcases hc with hc | ⟨hr, -⟩
      · exact hc
      · rw [hid.accepted] at hr
        cases hr
    refine ⟨hm.addedSlave ha.toPlaces hadd (initializeChmpx_valid hinit), hadd.svrs,
      fun q hq => ?_⟩
    have hqp : q ≠ p := fun he => (ha.toPlaces.notMem_of_free hadd.mem_free).1 (he ▸ hq)
    rw [hadd.chmpx_eq, if_neg hqp]

theorem IdsPlaced.sameServers (h : IdsPlaced m a) (hm : ∃ chain, IdsMapped m' chain)
    (hsvrs : a'.svrs = a.svrs) (hchm : ∀ p ∈ a.svrs, m'.chmpx p = m.chmpx p) :
    IdsPlaced m' a' := by
  refine ⟨hm, fun p hp q hq he => ?_⟩
  rw [hsvrs] at hp hq
  rw [hchm p hp, hchm q hq] at he
  exact h.unique p hp q hq he

theorem IdsPlaced.droppedSlave {eqfd : Bool} (h : IdsPlaced m a) (hpl : Places m a)
    (hp : p ∈ a.slaves) (hd : DroppedSlave m m' a a' p eqfd) : IdsPlaced m' a' := by
  obtain ⟨chain, hm⟩ := h.mapped
  refine h.sameServers (hm.dropped hd.toDropped) hd.svrs fun q hq => ?_
  have hqp : q ≠ p := by
    rintro rfl
    exact hpl.lists.chains.disjoint_head hq (by simp [Placement.rest, hp])
  rw [hd.chmpx_eq, if_neg hqp]

/-! ## Runs -/

/-- The configured servers and this node as a server have different chmpxids. -/
def ConfigIds (env : Env) (cfg : ChmCfgInfo) : Prop :=
  ConfigAllowed env cfg ∧
    (serverRecords env cfg.chmpxidType cfg.groupname (configParams cfg)).Pairwise
      fun c d => c.chmpxid ≠ d.chmpxid

/-- An operation fits and gives no server the chmpxid of another one. -/
def FitsIds (env : Env) (op : AreaOp) (m : ChmpxMan) : Prop :=
  Fits env op m ∧
    (∀ type chmpxid base, slaveBaseOf m op = some (type, chmpxid, base) →
      SlaveIdKept env type m.group chmpxid base) ∧
    match op with
    | .server (.mergeChmpxSvrs args records) => RecordIds env args records m
    | .reloadConfiguration cfg _ => ReloadIds env cfg m
    | _ => True

theorem AreaInvariant.ids : AreaInvariant FitsIds IdsPlaced where
  fits hok := hok.1
  stable := stable_idsPlaced
  resocked _ _ hr hp := hp.sameShape hr.shape
  merge hok ha hp := mergeChmpxSvrs_ids ha hok.1 hok.2.2 hp
  reload hok ha hp := reloadConfiguration_ids ha hok.1 hok.2.2 hp
  slaveBase hok hbase ha hp hset _ := by
    obtain ⟨chain, hm⟩ := hp.mapped
    obtain ⟨hm', hsvrs, hchm⟩ := setSlaveBase_mapped ha hset (hok.2.1 _ _ _ hbase) hm
    exact hp.sameServers hm' hsvrs hchm
  removed _ ha _ hps hd hp := hp.droppedSlave ha.toPlaces hps hd

/-- The servers of `Initialize` between two of the configuration: they and the ones still
to come have different chmpxids. -/
structure IdsInitializing (env : Env) (cfg : ChmCfgInfo) (done : List ChmpxParam) (m : ChmpxMan)
    (a : Placement) : Prop where
  mapped : ∃ chain, IdsMapped m chain
  distinct : ∀ rest, serverParams cfg = done ++ rest →
    ((a.svrs.map fun p => (m.chmpx p).chmpxid) ++
      (serverRecords env cfg.chmpxidType cfg.groupname rest).map (·.chmpxid)).Nodup

theorem IdsInitializing.counted {done rest : List ChmpxParam} {par : ChmpxParam}
    (h : IdsInitializing env cfg done m a) (n : Nat)
    (hcfg : serverParams cfg = done ++ par :: rest) :
    IdsInitializing env cfg (done ++ [par]) (m.setServers n m.chmpxServers) a := by
  refine ⟨h.mapped.imp fun _ hm => hm.congr rfl rfl rfl fun _ => rfl, fun rest' hcfg' => ?_⟩
  have hrest : rest' = rest := by
    rw [hcfg, List.append_assoc] at hcfg'
    exact (List.cons.inj (List.append_cancel_left hcfg')).2.symm
  refine (h.distinct _ hcfg).sublist (List.Sublist.append_left ?_ _)
  rw [hrest]
  exact ((List.sublist_cons_self par rest).filterMap _).map _

theorem IdsInitializing.added {done rest : List ChmpxParam} {par : ChmpxParam}
    (h : IdsInitializing env cfg done m a) (hcfg : serverParams cfg = done ++ par :: rest)
    (ha : Area m a)
    (hinit : Chmpx.initializeChmpx env cfg.chmpxidType cfg.groupname .server par = some c)
    (hadd : AddedServer m m' a a' p c) : IdsInitializing env cfg (done ++ [par]) m' a' := by
  obtain ⟨chain, hm⟩ := h.mapped
  refine ⟨hm.addedServer ha.toPlaces hadd, fun rest' hcfg' => ?_⟩
  have hrest : rest' = rest := by
    rw [hcfg, List.append_assoc] at hcfg'
    exact (List.cons.inj (List.append_cancel_left hcfg')).2.symm
  have hids : (a'.svrs.map fun q => (m'.chmpx q).chmpxid).Perm
      (c.chmpxid :: a.svrs.map fun q => (m.chmpx q).chmpxid) := by
    refine (hadd.svrs.map _).trans ?_
    have hp : m'.chmpx p = c := by rw [hadd.chmpx_eq, if_pos rfl]
    rw [List.map_cons, hp]
    refine List.Perm.cons _ (List.Perm.of_eq (List.map_congr_left fun q hq => ?_))
    have hqp : q ≠ p := fun he => (ha.toPlaces.notMem_of_free hadd.mem_free).1 (he ▸ hq)
    rw [hadd.chmpx_eq, if_neg hqp]
  have hd := h.distinct _ hcfg
  rw [serverRecords, List.filterMap_cons_some hinit, List.map_cons] at hd
  rw [hrest]
  exact (((hids.append_right _).trans List.perm_middle.symm).nodup_iff).mpr hd

/-- This node is a server exactly when the configuration says so. -/
theorem SelfPlaced.svrs_eq (h : SelfPlaced env cfg m a) :
    a.svrs = [] ∨ cfg.isServerMode = true ∧ ∃ p, a.svrs = [p] ∧
      Chmpx.initializeChmpx env cfg.chmpxidType cfg.groupname .server (selfParam cfg) =
        some (m.chmpx p) := by
  cases hs : a.svrs with
  | nil => exact Or.inl rfl
  | cons p l =>
    right
    have hlen := h.single
    rw [hs, List.length_append, List.length_cons] at hlen
    have hl : l = [] := List.length_eq_zero_iff.mp (by omega)
    have hserver : IsServer (m.chmpx p) := h.places.lists.isServer p (by rw [hs]; simp)
    rcases h.records p with he | ⟨-, he⟩
    · exact absurd (hserver.mode) (by rw [he]; decide)
    · have hmode := initializeChmpx_mode he
      rw [hserver.mode] at hmode
      have hself : selfMode cfg = .server := of_decide_eq_true hmode.symm
      rw [hself] at he
      refine ⟨?_, p, by rw [hl], he⟩
      by_contra hne
      rw [selfMode, if_neg hne] at hself
      cases hself

theorem SelfPlaced.idsInitializing (h : SelfPlaced env cfg m a)
    (hids : (serverRecords env cfg.chmpxidType cfg.groupname (configParams cfg)).Pairwise
      fun c d => c.chmpxid ≠ d.chmpxid) :
    IdsInitializing env cfg [] (m.withFrees a.frees) a := by
  refine ⟨h.idsMapped, fun rest hcfg => ?_⟩
  rw [List.nil_append] at hcfg
  rw [← hcfg]
  have hnodup := List.pairwise_map.mpr hids
  rcases h.svrs_eq with hs | ⟨hmode, p, hs, hinit⟩
  · rw [hs]
    refine hnodup.sublist (List.Sublist.map _ (List.Sublist.filterMap _ ?_))
    unfold configParams
    split
    · exact List.sublist_cons_self _ _
    · exact List.Sublist.refl _
  · rw [hs]
    rw [configParams, if_pos hmode, serverRecords, List.filterMap_cons_some hinit] at hnodup
    exact hnodup

theorem run_idsPlaced (h : AreaReachable ConfigIds FitsIds m) : ∃ a, Area m a ∧ IdsPlaced m a :=
  h.invariant (fun {env cfg m} hrun hstart => by
    obtain ⟨a, ha, hi⟩ := initialized_rule (P := IdsInitializing env cfg) hrun hstart.1
      ⟨Or.inr fun n hcfg hi => hi.counted n hcfg,
        fun hcfg ha hinit hadd hi => hi.added hcfg ha hinit hadd⟩
      fun m a hs => hs.idsInitializing hstart.2
    have hd := hi.distinct [] (List.append_nil _).symm
    refine ⟨a, ha, hi.mapped, fun p hp q hq he => ?_⟩
    exact List.inj_on_of_nodup_map (List.nodup_append.mp hd).1 hp hq he) AreaInvariant.ids

/-- In a run that gives no server the chmpxid of another one, the servers have different
chmpxids. -/
theorem run_serverIds (h : AreaReachable ConfigIds FitsIds m) : m.serverIds.Nodup := by
  obtain ⟨a, ha, hp⟩ := run_idsPlaced h
  exact ha.serverIds_nodup hp

/-- The sample configuration with endpoints for its server. -/
def sampleEdited : ChmCfgInfo :=
  { sampleCfg true with
    servers := [{ sampleParam 98 with endpoints := [⟨[101], 80⟩] }] }

theorem run_serverIds_sample : ((sampleMan true).execArea sampleEnv (.server
    (.mergeChmpxSvrs (sampleArgs true)
      [sampleSvr 99 ChmpxSts.srvinUpNormal]))).2.serverIds.Nodup :=
  run_serverIds (.step _ _ (.init (sampleMan_eq true)
    ⟨sampleCfg_allowed true, by decide +kernel⟩)
    ⟨⟨fun h => absurd h (by decide +kernel), fun h => absurd h (by decide +kernel),
      fun svr hsvr _ _ => by
        obtain rfl := List.mem_singleton.mp hsvr
        decide +kernel⟩,
      fun _ _ _ hbase => (by cases hbase),
      fun svr hsvr _ => by
        obtain rfl := List.mem_singleton.mp hsvr
        decide +kernel⟩)

/-- A server comes up, and then the configuration gives it an endpoint: the reload adds a
second node with its chmpxid. -/
theorem reload_duplicatesServer :
    ¬∀ m, AreaReachable ConfigIds (fun _ _ _ => True) m → m.serverIds.Nodup := by
  intro h
  have hm : AreaReachable ConfigIds (fun _ _ _ => True) ((sampleMan true).execArea sampleEnv
      (.server (.mergeChmpxSvrs (sampleArgs false) [sampleSvr 98 ChmpxSts.srvinUpNormal]))).2 :=
    .step _ _ (.init (sampleMan_eq true) ⟨sampleCfg_allowed true, by decide +kernel⟩) trivial
  exact absurd (h _ (.step sampleEnv (.reloadConfiguration sampleEdited true) hm trivial))
    (by decide +kernel)

end ChmpxMan
end Chm
