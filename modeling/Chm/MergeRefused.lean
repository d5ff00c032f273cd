/-
What a refused completion of a merge leaves.

`MergeComplete` first retires the servers that are in service, down and to be deleted, on behalf
of them, and only then judges its own status.  So a refusal does not take the retirements back.
All other statuses and base hashes are as they were, and without a server to retire nothing has
changed or been sent.
-/
import Chm.InOrder

namespace Chm

namespace ChmpxMan

variable {m m₁ : ChmpxMan} {p q : Ptr} {id chmpxid : ChmpxId} {isOpen : Bool}
variable {good : ChmpxSts → Prop}

/-- The statuses and both hashes of all nodes are as they were. -/
structure SameStates (m m₁ : ChmpxMan) : Prop where
  status : ∀ q, (m₁.chmpx q).status = (m.chmpx q).status
  baseHash : ∀ q, (m₁.chmpx q).baseHash = (m.chmpx q).baseHash
  pendingHash : ∀ q, (m₁.chmpx q).pendingHash = (m.chmpx q).pendingHash

theorem SameStates.refl (m : ChmpxMan) : SameStates m m :=
  ⟨fun _ => rfl, fun _ => rfl, fun _ => rfl⟩

theorem SameStates.trans {m₂ : ChmpxMan} (h : SameStates m m₁) (h' : SameStates m₁ m₂) :
    SameStates m m₂ where
  status q := (h'.status q).trans (h.status q)
  baseHash q := (h'.baseHash q).trans (h.baseHash q)
  pendingHash q := (h'.pendingHash q).trans (h.pendingHash q)

theorem find_servers_id {svrs frees : List Ptr} {rest : List (List Ptr)}
    (hf : Formed m svrs frees rest) (h : m.find m.chmpxServers chmpxid = some p) :
    (m.chmpx p).chmpxid = chmpxid := by
  rw [hf.head] at h
  cases svrs with
  | nil => cases h
  | cons s svrs => exact (hf.lists.find_mem List.mem_cons_self h).2

/-- Only nodes with the chmpxid changed their status or base hash, and they are service out and
down now. -/
structure RetiresAt (chmpxid : ChmpxId) (m m₁ : ChmpxMan) : Prop where
  shape : SameShape m m₁
  node : ∀ q, (m₁.chmpx q).status = (m.chmpx q).status ∧
      (m₁.chmpx q).baseHash = (m.chmpx q).baseHash ∨
    (m.chmpx q).chmpxid = chmpxid ∧ (m₁.chmpx q).status = ChmpxSts.srvoutDownNormal

theorem RetiresAt.refl (chmpxid : ChmpxId) (m : ChmpxMan) : RetiresAt chmpxid m m :=
  ⟨SameShape.refl m, fun _ => Or.inl ⟨rfl, rfl⟩⟩

/-- What leaves the statuses, and the base hashes of the others. -/
theorem RetiresAt.keep {m₂ : ChmpxMan} (h : RetiresAt chmpxid m m₁) (hshape : SameShape m₁ m₂)
    (hst : ∀ q, (m₂.chmpx q).status = (m₁.chmpx q).status)
    (hbase : ∀ q, (m₂.chmpx q).baseHash = (m₁.chmpx q).baseHash ∨
      (m.chmpx q).chmpxid = chmpxid ∧ (m₁.chmpx q).status = ChmpxSts.srvoutDownNormal) :
    RetiresAt chmpxid m m₂ where
  shape := h.shape.trans hshape
  node q := by
    rw [hst]
    rcases hbase q with hsame | hretired
    · rw [hsame]
      exact h.node q
    · exact Or.inr hretired

/-- The base hash of a server that is out of service is written. -/
theorem RetiresAt.setServerHash {svrs frees : List Ptr} {rest : List (List Ptr)}
    (h : RetiresAt chmpxid m m₁) (hf : Formed m svrs frees rest)
    (hother : m.getSelfChmpxId ≠ chmpxid) (hfind : m.find m.chmpxServers chmpxid = some q)
    (hout : (m₁.chmpx q).status = ChmpxSts.srvoutDownNormal) (env : Env) (hash : ChmHash) :
    RetiresAt chmpxid m (m₁.setServerHash env chmpxid hash 0 .base).2 := by
  have hself : m₁.getSelfChmpxId = m.getSelfChmpxId := by
    rw [getSelfChmpxId, getSelfChmpxId, h.shape.chmpxSelf]
    cases m.chmpxSelf with
    | none => rfl
    | some r => exact h.shape.chmpxid r
  have hname : (m₁.chmpx q).name.isEmpty = false := by
    rw [h.shape.name]
    exact hf.lists.named (find_servers_mem hf hfind)
  obtain ⟨m₂, hrun, hst, hframe, -, -⟩ := set_spec env hash 0 .base hname
  have hshape := (SameRecords.written
    (Written.set (fun _ _ => True) env hash 0 .base q m₁)).toSameShape
  rw [ChmpxMan.setServerHash, hself, if_neg (by simp [hother]), h.shape.find_eq, hfind]
  dsimp only
  rw [hrun] at hshape ⊢
  refine h.keep hshape hst.status fun r => ?_
  by_cases hr : r = q
  · rw [hr]
    exact Or.inr ⟨find_servers_id hf hfind, hout⟩
  · rw [hframe r hr]
    exact Or.inl rfl

theorem RetiresAt.updateHash {svrs frees : List Ptr} {rest : List (List Ptr)}
    (h : RetiresAt chmpxid m m₁) (hf : Formed m₁ svrs frees rest) (hne : svrs ≠ []) (env : Env) :
    (m₁.updateHash env .pending true true).1 = true ∧
      RetiresAt chmpxid m (m₁.updateHash env .pending true true).2 := by
  obtain ⟨m₂, hrun, hloop⟩ := updateHash_spec env .pending hf hne
  have hshape := (SameRecords.updateHash m₁ env .pending true true).toSameShape
  rw [hrun] at hshape ⊢
  exact ⟨rfl, h.keep hshape hloop.statuses.status fun r =>
    Or.inl ((hloop.keeps .base rfl).hash r)⟩

end ChmpxMan

namespace EventSock

open ChmpxMan

variable {io : Outside} {s t : EventSock} {p : Ptr} {id : ChmpxId} {isOpen : Bool}

/-! ## All servers that are listed as down -/

/-- The node is one of the servers to be retired, and not the own one. -/
def Retired (svrs : List ChmpxSvr) (id : ChmpxId) (m m₁ : ChmpxMan) (q : Ptr) : Prop :=
  (m₁.chmpx q).status = ChmpxSts.srvoutDownNormal ∧
    ∃ svr ∈ svrs, changesDownSvr .complete svr.status = true ∧ svr.chmpxid ≠ id ∧
      svr.chmpxid = (m.chmpx q).chmpxid

/-- A status or a base hash only changed where a server was retired. -/
structure RetiresOnly (svrs : List ChmpxSvr) (id : ChmpxId) (m m₁ : ChmpxMan) : Prop where
  shape : SameShape m m₁
  node : ∀ q, (m₁.chmpx q).status = (m.chmpx q).status ∧
      (m₁.chmpx q).baseHash = (m.chmpx q).baseHash ∨ Retired svrs id m m₁ q

theorem RetiresOnly.refl (svrs : List ChmpxSvr) (id : ChmpxId) (m : ChmpxMan) :
    RetiresOnly svrs id m m := ⟨SameShape.refl m, fun _ => Or.inl ⟨rfl, rfl⟩⟩

theorem RetiresOnly.cons {svr : ChmpxSvr} {svrs : List ChmpxSvr} {m m₁ : ChmpxMan}
    (h : RetiresOnly svrs id m m₁) : RetiresOnly (svr :: svrs) id m m₁ where
  shape := h.shape
  node q := (h.node q).imp_right fun ⟨hout, other, hmem, hother⟩ =>
    ⟨hout, other, List.mem_cons_of_mem svr hmem, hother⟩

/-- One server is retired, and then the others. -/
theorem RetiresOnly.turn {svr : ChmpxSvr} {svrs : List ChmpxSvr} {m m₁ m₂ : ChmpxMan}
    (h : RetiresOnly svrs id m₁ m₂) (hone : RetiresAt svr.chmpxid m m₁) (hid : id ≠ svr.chmpxid)
    (hc : changesDownSvr .complete svr.status = true) : RetiresOnly (svr :: svrs) id m m₂ where
  shape := hone.shape.trans h.shape
  node q := by
    rcases h.node q with ⟨hst, hbase⟩ | ⟨hout, other, hmem, hchanges, hne, heq⟩
    · rw [hst, hbase]
      rcases hone.node q with hsame | ⟨heq, hout⟩
      · exact Or.inl hsame
      · exact Or.inr ⟨hst.trans hout, svr, List.mem_cons_self, hc, hid.symm, heq.symm⟩
    · exact Or.inr ⟨hout, other, List.mem_cons_of_mem svr hmem, hchanges, hne,
        heq.trans (hone.shape.chmpxid q)⟩

open RingNet

/-- The own server is added and still to merge, the other one is down and deleted. -/
def refusedMan : ChmpxMan :=
  let m := (ringMan 98 [97, 99] [97, 98, 99]).exec sampleEnv
    (.setSelfStatus ChmpxSts.srvinUpAddpending true)
  let m := m.2.exec sampleEnv (.setServerStatus (sampleId 97) ChmpxSts.srvinDownDeleted true)
  (m.2.exec sampleEnv (.updateHash .both true true)).2

def sockOf (m : ChmpxMan) : EventSock := { ringSock 98 [97, 99] [97, 98, 99] with man := m }

theorem sockOf_man (m : ChmpxMan) : (sockOf m).man = m := rfl

def refusedSock : EventSock := sockOf refusedMan

theorem refusedMan_wellFormed : WellFormed refusedMan := by
  have hinit : (initialized sampleEnv (ringCfg 98 [97, 99])).isSome := by decide +kernel
  have hok : ConfigAllowed sampleEnv (ringCfg 98 [97, 99]) :=
    ⟨by decide +kernel, by decide +kernel⟩
  have hops : ∀ m : ChmpxMan, WellFormed m →
      WellFormed (((m.exec sampleEnv (.setSelfStatus ChmpxSts.srvinUpAddpending true)).2.exec
        sampleEnv (.setServerStatus (sampleId 97) ChmpxSts.srvinDownDeleted true)).2.exec sampleEnv
          (.updateHash .both true true)).2 := by
    intro m hwf
    have hset : WellFormed (m.exec sampleEnv (.setSelfStatus ChmpxSts.srvinUpAddpending true)).2 :=
      exec_wellFormed hwf trivial
    have hdown : WellFormed ((m.exec sampleEnv
        (.setSelfStatus ChmpxSts.srvinUpAddpending true)).2.exec sampleEnv
          (.setServerStatus (sampleId 97) ChmpxSts.srvinDownDeleted true)).2 :=
      exec_wellFormed hset trivial
    exact exec_wellFormed hdown trivial
  unfold refusedMan
  exact hops _ (ringMan_wellFormed [97, 98, 99] hinit hok)

end EventSock

end Chm
