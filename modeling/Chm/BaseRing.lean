/-
The base ring along a run.

`chmpx_bhash_count` follows the statuses at every step, the hashes and the array
only a renumbering.  Between two renumberings they agree as long as the status
changes leave every server's membership alone, or take all servers out.
-/
import Chm.Routing

namespace Chm

/-! ## Reading a numbered list -/

namespace NumberedFrom

variable {r : Ring} {m m' : ChmpxMan} {svrs : List Ptr} {start : Nat} {p q : Ptr}

/-- Numbering depends on memberships, hashes and slots only. -/
theorem congr (h : NumberedFrom r m svrs start)
    (hmem : ∀ p ∈ svrs, r.member (m'.chmpx p).status = r.member (m.chmpx p).status)
    (hk : Keeps r m m') : NumberedFrom r m' svrs start := by
  have hm : r.members m' svrs = r.members m svrs :=
    List.filter_congr fun p hp => by rw [hmem p hp]
  refine ⟨?_, ?_, fun p hp hno => ?_⟩
  · rw [hm, ← h.hashes]
    exact List.map_congr_left fun p _ => hk.hash p
  · rw [hm, hk.srvs]
    exact h.slots
  · rw [hk.hash]
    exact h.others p hp (hmem p hp ▸ hno)

/-- A member's hash is its place among the members. -/
theorem hash_getElem (h : NumberedFrom r m svrs 0) {i : Nat}
    (hi : i < (r.members m svrs).length) : r.hash (m.chmpx (r.members m svrs)[i]) = i := by
  have hlen : i < ((r.members m svrs).map fun p => r.hash (m.chmpx p)).length := by
    simpa using hi
  have hh : ((r.members m svrs).map fun p => r.hash (m.chmpx p))[i] = i := by
    simp only [h.hashes, List.getElem_range', Nat.zero_add, Nat.one_mul]
  simpa using hh

/-- The slot of a number is the member that holds it. -/
theorem slot (h : NumberedFrom r m svrs 0) {i : Nat} (hi : i < (r.members m svrs).length) :
    ∃ p ∈ svrs, r.srvs m i = some p ∧ r.hash (m.chmpx p) = i := by
  have hs := h.slots i hi
  rw [Nat.zero_add, List.getElem?_eq_getElem hi] at hs
  exact ⟨(r.members m svrs)[i], List.mem_of_mem_filter (List.getElem_mem hi), hs,
    h.hash_getElem hi⟩

end NumberedFrom

namespace ChmpxMan

variable {env : Env} {m m' : ChmpxMan} {svrs frees : List Ptr} {rest : List (List Ptr)} {p : Ptr}

theorem Formed.length_le (h : Formed m svrs frees rest) : svrs.length ≤ chmInvalidHashVal :=
  ((h.lists.length_le List.mem_cons_self).trans h.area).trans (by decide)

/-- A numbered ring is a consistent table. -/
theorem numberedFrom_consistent {r : Ring} (h : NumberedFrom r m svrs 0)
    (hf : Formed m svrs frees rest) : TableConsistent r m (r.members m svrs).length := by
  intro i hi
  obtain ⟨p, hp, hs, hh⟩ := h.slot hi
  have hlen := hf.length_le
  have hle := r.length_members_le m svrs
  exact ⟨by omega, p, hs, hf.lists.isServer p hp, hh⟩

theorem pendingHashCount_eq (hf : Formed m svrs frees rest) :
    m.pendingHashCount m.chmpxServers = (Ring.pending.members m svrs).length := by
  have hw : m.links.walk m.chmpxCount m.chmpxServers = svrs := by
    rw [hf.head]
    exact hf.lists.chains.walk (hf.lists.length_le List.mem_cons_self)
  rw [pendingHashCount, hw, List.countP_eq_length_filter]
  rfl

/-- Tables that agree with the server list are consistent. -/
theorem hashesAgree_consistent (h : HashesAgree m) (hf : WellFormed m) :
    TablesConsistent m := by
  obtain ⟨svrs, frees, rest, hf⟩ := hf
  have hn := h.numbered
  have hc := h.count
  rw [hf.nodes] at hn hc
  refine ⟨?_, ?_⟩
  · rw [hc]
    exact numberedFrom_consistent (hn .base) hf
  · rw [pendingHashCount_eq hf]
    exact numberedFrom_consistent (hn .pending) hf

/-! ## The base ring between renumberings -/

/-- The counter counts the members of the base ring. -/
def CountOk (m : ChmpxMan) (svrs : List Ptr) : Prop :=
  m.chmpxBhashCount = (Ring.base.members m svrs).length

/-- `SetStatus` of a named node refuses an unsafe status and else writes it. -/
theorem setStatus_spec (env : Env) (status : ChmpxSts) (h : (m.chmpx p).name.isEmpty = false) :
    (m.setStatus env status p = (false, m)) ∨
      ∃ m', m.setStatus env status p = (true, m') ∧ (m'.chmpx p).status = status ∧
        (∀ q ≠ p, m'.chmpx q = m.chmpx q) ∧ (∀ r, Keeps r m m') ∧
        m'.chmpxBhashCount = m.chmpxBhashCount := by
  simp only [setStatus, Chmpx.setStatus, h, Bool.false_eq_true, if_false]
  cases hs : status.isSafe with
  | false => exact Or.inl (by simp)
  | true =>
    right
    simp only [Bool.not_true, Bool.false_eq_true, if_false]
    refine ⟨_, rfl, ?_, fun q hq => ?_, fun r => ⟨fun q => ?_, srvs_setChmpx r m p _⟩, rfl⟩
    · rw [chmpx_setChmpx, if_pos rfl]
    · rw [chmpx_setChmpx, if_neg hq]
    · rw [chmpx_setChmpx]
      split
      · rename_i hq
        rw [hq]
        cases r <;> rfl
      · rfl

/-- Every server is out of service and without hashes. -/
def AllOut (m : ChmpxMan) (svrs : List Ptr) : Prop :=
  ∀ p ∈ svrs, (m.chmpx p).status = ChmpxSts.srvoutDownNormal ∧
    ∀ r : Ring, r.hash (m.chmpx p) = chmInvalidHashVal

/-- The loop of `CheckAllServiceOutStatus` takes out every server it visits. -/
theorem serviceOutLoop_spec (env : Env) (ps : List Ptr) :
    ∀ (m : ChmpxMan), (∀ p ∈ ps, (m.chmpx p).name.isEmpty = false) →
      ∃ m', serviceOutLoop env ps true m = (true, m') ∧ AllOut m' ps ∧
        ∀ q ∉ ps, m'.chmpx q = m.chmpx q := by
  induction ps with
  | nil => exact fun m _ => ⟨m, rfl, fun p hp => absurd hp List.not_mem_nil, fun _ _ => rfl⟩
  | cons p ps ih =>
    intro m hname
    have hp := hname p List.mem_cons_self
    rcases setStatus_spec env ChmpxSts.srvoutDownNormal hp with
      hno | ⟨m₁, hrun₁, hst, hframe₁, -, -⟩
    · exfalso
      simp only [setStatus, Chmpx.setStatus, hp, Bool.false_eq_true, if_false,
        show ChmpxSts.srvoutDownNormal.isSafe = true by decide, Bool.not_true] at hno
      cases congrArg Prod.fst hno
    · have hname₁ : ∀ q, (m₁.chmpx q).name = (m.chmpx q).name := fun q => by
        have hs := SameRecords.setStatus m env ChmpxSts.srvoutDownNormal p
        rw [hrun₁] at hs
        exact hs.name q
      obtain ⟨m₂, hrun₂, hsame, hframe₂, hw, -⟩ := set_spec (m := m₁) (p := p) env
        chmInvalidHashVal chmInvalidHashVal .both (hname₁ p ▸ hp)
      obtain ⟨m', hrun, hout, hframe⟩ := ih m₂ fun q hq => by
        rw [hsame.name, hname₁]
        exact hname q (List.mem_cons_of_mem _ hq)
      refine ⟨m', ?_, fun q hq => ?_, fun q hq => ?_⟩
      · simp only [serviceOutLoop, hrun₁, if_true, hrun₂, Bool.and_self]
        exact hrun
      · by_cases hqs : q ∈ ps
        · exact hout q hqs
        · obtain rfl : q = p := (List.mem_cons.mp hq).resolve_right hqs
          rw [hframe q hqs]
          refine ⟨(hsame.status q).trans hst, fun r => ?_⟩
          rw [(hw r (by cases r <;> rfl)).own]
          cases r <;> rfl
      · obtain ⟨hqp, hqs⟩ := not_or.mp (List.mem_cons.not.mp hq)
        rw [hframe q hqs, hframe₂ q hqp, hframe₁ q hqp]

/-- `CheckAllServiceOutStatus` leaves a list with a server up, or with none that
is not a slave, and takes all out of any other. -/
theorem checkAllServiceOutStatus_spec (env : Env) (hf : Formed m svrs frees rest) (hp : p ∈ svrs) :
    (m.checkAllServiceOutStatus env (some p) = (true, m) ∧
      ((∃ q ∈ svrs, (m.chmpx q).status.isSlave = false ∧ (m.chmpx q).status.isUp = true) ∨
        ∀ q ∈ svrs, (m.chmpx q).status.isSlave = true)) ∨
      ∃ m', m.checkAllServiceOutStatus env (some p) = (true, m') ∧ AllOut m' svrs := by
  simp only [checkAllServiceOutStatus, hf.lists.nodes_eq hp]
  split
  · rename_i hup
    obtain ⟨q, hq, hqu⟩ := List.any_eq_true.mp hup
    obtain ⟨hqs, hns⟩ := List.mem_filter.mp hq
    exact Or.inl ⟨rfl, Or.inl ⟨q, hqs, by simpa using hns, hqu⟩⟩
  · split
    · rename_i hemp
      refine Or.inl ⟨rfl, Or.inr fun q hq => ?_⟩
      have hnil := List.filter_eq_nil_iff.mp (List.isEmpty_iff.mp hemp) q hq
      simpa using hnil
    · obtain ⟨m', hrun, hout, -⟩ := serviceOutLoop_spec env svrs m fun q hq => hf.lists.named hq
      exact Or.inr ⟨m', hrun, hout⟩

/-! ## One step -/

/-- A status change takes the last server that is up out. -/
def LastDown (m : ChmpxMan) (p : Ptr) (status : ChmpxSts) : Prop :=
  status.isDown = true ∧ status.isSlave = false ∧
    ∀ q ∈ m.nodes m.chmpxServers, q ≠ p → (m.chmpx q).status.isSlave = false →
      (m.chmpx q).status.isUp = false

/-- The operation leaves the base ring as the last renumbering made it: a status
change keeps its server's membership, or is one that `CheckAllServiceOutStatus`
answers by taking all servers out, and no base hash is set by hand. -/
def KeepsBaseRing (m : ChmpxMan) : Op → Prop
  | .setServerStatus chmpxid status _ =>
    if m.isServerMode && m.getSelfChmpxId = chmpxid then
      ∀ p ∈ m.chmpxSelf, status.isBaseHash = (m.chmpx p).status.isBaseHash
    else
      ∀ p ∈ m.find m.chmpxServers chmpxid,
        status.isBaseHash = (m.chmpx p).status.isBaseHash ∨ LastDown m p status
  | .setSelfStatus status _ =>
    m.isServerMode = true → ∀ p ∈ m.chmpxSelf, status.isBaseHash = (m.chmpx p).status.isBaseHash
  | .setServerHash _ _ _ type | .setSelfHash _ _ type => type.isBase = false
  | _ => True

/-- The operation numbers the base ring anew. -/
def Renumbers (env : Env) (m : ChmpxMan) : Op → Prop
  | .mergeChmpxSvrs _ records => records ≠ []
  | .updateHash type isAllowOperating isAllowSlaveMode =>
    type.isBase = true ∧
      (updateHash env type isAllowOperating isAllowSlaveMode m).1 = true
  | _ => False

/-- This node in server mode is one of its servers. -/
theorem self_mem (hf : Formed m svrs frees rest) (hmode : m.isServerMode = true)
    (hself : m.chmpxSelf = some p) : p ∈ svrs := by
  rw [isServerMode, hself] at hmode
  exact hf.lists.server_mem p hmode

/-- What `Find` finds from the head of the server list is a server. -/
theorem find_servers_mem (hf : Formed m svrs frees rest) {chmpxid : ChmpxId}
    (h : m.find m.chmpxServers chmpxid = some p) : p ∈ svrs := by
  rw [hf.head] at h
  cases svrs with
  | nil => cases h
  | cons s svrs => exact (hf.lists.find_mem List.mem_cons_self h).1

theorem SameShape.man_isServerMode (h : SameShape m m') : m'.isServerMode = m.isServerMode := by
  rw [ChmpxMan.isServerMode, ChmpxMan.isServerMode, h.chmpxSelf]
  split
  · rfl
  · exact h.isServerMode _

/-- Well-formed lists with a right counter. -/
def Counted (m : ChmpxMan) (svrs : List Ptr) : Prop :=
  (∃ frees rest, Formed m svrs frees rest) ∧ CountOk m svrs

/-- The managers whose base ring is as their last renumbering left it: since then,
or since `Initialize`, every operation has kept the base ring. -/
inductive Settled : ChmpxMan → Prop
  | init {env : Env} {cfg : ChmCfgInfo} {m : ChmpxMan} :
      initialized env cfg = some m → ConfigAllowed env cfg → Settled m
  | renumber {m : ChmpxMan} (env : Env) (op : Op) :
      Reachable StepAllowed m → StepAllowed env op m → Renumbers env m op →
        Settled (m.exec env op).2
  | step {m : ChmpxMan} (env : Env) (op : Op) :
      Settled m → StepAllowed env op m → KeepsBaseRing m op → Settled (m.exec env op).2
  | elsewhere {m m' : ChmpxMan} : Settled m → Elsewhere m m' → Settled m'

/-- The sample cluster after a merge that puts its second server into the ring. -/
def sampleRing : ChmpxMan :=
  ((sampleMan true).exec sampleEnv
    (.mergeChmpxSvrs (sampleArgs false) [sampleSvr 98 ChmpxSts.srvinUpNormal])).2

theorem sampleRing_allowed : StepAllowed sampleEnv
    (.mergeChmpxSvrs (sampleArgs false) [sampleSvr 98 ChmpxSts.srvinUpNormal])
    (sampleMan true) := by
  intro svr hsvr _ _
  obtain rfl := List.mem_singleton.mp hsvr
  decide +kernel

/-- A merge in a run leaves tables that routing can use. -/
theorem merge_consistent {args : MergeArgs} {records : List ChmpxSvr} (h : Reachable StepAllowed m)
    (hok : StepAllowed env (.mergeChmpxSvrs args records) m) (hrec : records ≠ []) :
    TablesConsistent (m.exec env (.mergeChmpxSvrs args records)).2 := by
  obtain ⟨hwf, hagree, -⟩ := mergeChmpxSvrs_agrees args
    (reachable_wellFormed h fun _ _ _ h => h) hrec hok
  exact hashesAgree_consistent hagree hwf

theorem sampleRing_consistent : TablesConsistent sampleRing :=
  merge_consistent (.init (sampleMan_eq true) (sampleCfg_allowed true)) sampleRing_allowed
    (List.cons_ne_nil _ _)

theorem sampleRing_listed :
    (sampleRing.getServerChmpxIdAndBaseHashByHashs 0 [] [] true true false).2.1 =
        sampleRing.listed 0 true true false ∧
      sampleRing.listed 0 true true false ≠ [] := by
  have hspec := (getServerChmpxIdAndBaseHashByHashs_spec 0 [] [] true true false
    sampleRing_consistent).2 (by decide +kernel)
  exact ⟨hspec.1, by decide +kernel⟩

/-- The sample cluster after a merge that has its second server join: the pending
ring has a server, the base ring has none yet. -/
def sampleJoining : ChmpxMan :=
  ((sampleMan true).exec sampleEnv
    (.mergeChmpxSvrs (sampleArgs false) [sampleSvr 98 ChmpxSts.srvinUpAdding])).2

/-- In a ring that serves nobody yet the call refuses, though the pending ring has
a server for it. -/
theorem getServerChmpxIdAndBaseHashByHashs_noBase :
    TablesConsistent sampleJoining ∧ sampleJoining.listed 0 true false false ≠ [] ∧
      (sampleJoining.getServerChmpxIdAndBaseHashByHashs 0 [] [] true false false).1 = false := by
  have hok : StepAllowed sampleEnv
      (.mergeChmpxSvrs (sampleArgs false) [sampleSvr 98 ChmpxSts.srvinUpAdding])
      (sampleMan true) := by
    intro svr hsvr _ _
    obtain rfl := List.mem_singleton.mp hsvr
    decide +kernel
  exact ⟨merge_consistent (.init (sampleMan_eq true) (sampleCfg_allowed true)) hok
    (List.cons_ne_nil _ _), by decide +kernel, by decide +kernel⟩

end ChmpxMan
end Chm
