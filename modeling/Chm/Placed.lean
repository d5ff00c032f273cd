/-
Nodes, counters and sockets along a run.

In a run whose operations fit, every node is in one list, and under further conditions
the counters are the lengths of the lists and no socket is lost.  Each condition leaves
out one way in which the code loses a node, a count or a socket, and a short run after the
theorem shows that way.
-/
import Chm.AreaRuns

namespace Chm

namespace ChmpxMan

variable {env : Env} {cfg : ChmCfgInfo} {m m' : ChmpxMan} {a a' : Placement} {p : Ptr}

/-! ## Every node in one list -/

def serverNodes (m : ChmpxMan) : List Ptr := m.links.walk m.chmpxCount m.chmpxServers

def slaveNodes (m : ChmpxMan) : List Ptr := m.links.walk m.chmpxCount m.chmpxSlaves

/-- This node itself when it is a slave; as a server it is in the server list. -/
def selfNode (m : ChmpxMan) : List Ptr := if m.isServerMode then [] else m.chmpxSelf.toList

/-- Each node of the area is in exactly one list, or is this node itself, the lists are
doubly linked from their heads, and the free ones are counted. -/
structure WellPlaced (m : ChmpxMan) : Prop where
  chains : m.links.Chains [m.serverNodes, m.freeNodes, m.slaveNodes]
  cover : (m.serverNodes ++ m.freeNodes ++ m.slaveNodes ++ m.selfNode).Perm
    (List.range m.chmpxCount)
  freeCount : m.chmpxFreeCount = m.freeNodes.length

theorem Area.serverNodes_eq (h : Area m a) : m.serverNodes = a.svrs := by
  rw [serverNodes, h.servers]
  exact h.lists.chains.walk (h.lists.length_le List.mem_cons_self)

theorem Area.freeNodes_eq (h : Area m a) : m.freeNodes = a.frees := h.lists.freeNodes_eq

theorem Area.slaveNodes_eq (h : Area m a) : m.slaveNodes = a.slaves := by
  have hmem : a.slaves ∈ a.svrs :: a.frees :: a.rest := by simp [Placement.rest]
  have hseg := h.lists.chains.seg a.slaves hmem
  rw [slaveNodes, h.slaves]
  exact hseg.walk (h.lists.length_le hmem)

theorem Area.selfNode_eq (h : Area m a) : m.selfNode = a.self := by
  rw [selfNode, isServerMode]
  rcases h.self with ⟨hnil, hself⟩ | ⟨p, hp, hself⟩
  · rw [hnil]
    cases hs : m.chmpxSelf with
    | none => rfl
    | some p => simp [h.lists.server (hself p hs)]
  · have hmode : (m.chmpx p).isServerMode = false := by
      by_contra hne
      have hps := h.lists.server_mem p (by simpa using hne)
      exact h.lists.chains.disjoint_head hps (by simp [Placement.rest, hself])
    simp [hp, hself, hmode]

theorem Area.wellPlaced (h : Area m a) : WellPlaced m := by
  refine ⟨?_, ?_, ?_⟩
  · rw [h.serverNodes_eq, h.freeNodes_eq, h.slaveNodes_eq]
    have hk := h.toPlaces.chains.perm
      (List.perm_append_singleton a.self [a.svrs, a.frees, a.slaves])
    exact hk.tail
  · rw [h.serverNodes_eq, h.freeNodes_eq, h.slaveNodes_eq, h.selfNode_eq]
    exact h.cover
  · rw [h.freeNodes_eq]
    exact h.lists.freeCount

/-- A property that does not look at the placed nodes at all. -/
theorem AreaInvariant.true : AreaInvariant Fits fun _ _ => True where
  fits := id
  stable := ⟨fun _ _ => trivial, fun _ _ => trivial, fun _ _ => trivial⟩
  resocked _ _ _ _ := trivial
  merge hok ha hp := mergeChmpxSvrs_rule ha hok
    ⟨⟨fun _ _ => trivial, fun _ _ => trivial, fun _ _ => trivial⟩,
      fun _ _ _ _ _ _ _ _ _ _ _ _ => trivial, fun _ _ _ _ _ _ _ _ _ _ _ => trivial⟩ hp
  reload hok ha _ := by
    rcases reloadConfiguration_rule (P := fun _ _ _ => True) ha hok
      ⟨fun _ _ _ => trivial, Or.inr fun _ _ _ => trivial, fun _ _ _ _ _ _ => trivial⟩
      id (fun _ _ _ _ _ => trivial) trivial with he | ⟨a', h⟩
    · rw [he]
      exact ⟨_, ha, trivial⟩
    · exact ⟨a', h.area, trivial⟩
  slaveBase _ _ _ _ _ _ := trivial
  removed _ _ _ _ _ _ := trivial

theorem run_area (h : AreaReachable ConfigAllowed Fits m) : ∃ a, Area m a := by
  obtain ⟨a, ha, -⟩ := h.invariant (fun hrun hstart => by
    obtain ⟨a, ha, -⟩ := initialized_rule (P := fun _ _ _ => True) hrun hstart
      ⟨Or.inr fun _ _ _ => trivial, fun _ _ _ _ _ => trivial⟩ fun _ _ _ => trivial
    exact ⟨a, ha, trivial⟩) AreaInvariant.true
  exact ⟨a, ha⟩

/-- In a run whose operations fit, every node is in one list. -/
theorem run_wellPlaced (h : AreaReachable ConfigAllowed Fits m) : WellPlaced m := by
  obtain ⟨a, ha⟩ := run_area h
  exact ha.wellPlaced

theorem run_wellPlaced_sample : WellPlaced ((sampleMan true).execArea sampleEnv
    (.server (.mergeChmpxSvrs (sampleArgs true) [sampleSvr 99 ChmpxSts.srvinUpNormal]))).2 :=
  run_wellPlaced (.step _ _ (.init (sampleMan_eq true) (sampleCfg_allowed true))
    ⟨fun h => absurd h (by decide +kernel), fun h => absurd h (by decide +kernel),
      fun svr hsvr _ _ => by
        obtain rfl := List.mem_singleton.mp hsvr
        decide +kernel⟩)

/-- A slave without servers merges two new ones: the cursor stays null, so the second
becomes a list of its own and the first is in no list. -/
theorem merge_emptyList_losesNode :
    ¬∀ m, AreaReachable ConfigAllowed (fun _ _ _ => True) m → WellPlaced m := by
  intro h
  let m := ((sampleMan false).execArea sampleEnv (.server
    (.mergeChmpxSvrs (sampleArgs true) [sampleSvr 99 ChmpxSts.srvoutDownNormal]))).2
  have hm : AreaReachable ConfigAllowed (fun _ _ _ => True) m :=
    .step _ _ (.init (sampleMan_eq false) (sampleCfg_allowed false)) trivial
  have hp := h _ (.step sampleEnv (.server (.mergeChmpxSvrs (sampleArgs false)
    [sampleSvr 99 ChmpxSts.srvinUpNormal, sampleSvr 100 ChmpxSts.srvinUpNormal])) hm trivial)
  exact absurd hp.cover (by decide +kernel)

/-! ## The counters -/

/-- The counters of the server and slave lists are their lengths. -/
structure ListsCounted (m : ChmpxMan) : Prop where
  servers : m.chmpxServerCount = m.serverNodes.length
  slaves : m.chmpxSlaveCount = m.slaveNodes.length

/-- The area has a node for this process and for every configured server. -/
def ConfigCounted (env : Env) (cfg : ChmCfgInfo) : Prop :=
  ConfigAllowed env cfg ∧ (serverParams cfg).length < cfg.maxChmpxCount

/-- An operation fits, and a reload finds a free node for every server it adds. -/
def FitsCounted (env : Env) (op : AreaOp) (m : ChmpxMan) : Prop :=
  Fits env op m ∧
    match op with
    | .reloadConfiguration cfg _ => (unlisted env m cfg.servers).length ≤ m.chmpxFreeCount
    | _ => True

/-- The counters of the manager, seen from the placed nodes. -/
def CountsPlaced (m : ChmpxMan) (a : Placement) : Prop :=
  m.chmpxServerCount = a.svrs.length ∧ m.chmpxSlaveCount = a.slaves.length

theorem AddedServer.counts {c : Chmpx} (h : AddedServer m m' a a' p c) (hp : CountsPlaced m a) :
    CountsPlaced m' a' :=
  ⟨h.serverCount hp.1, by rw [h.slaveCount, h.slaves, hp.2]⟩

theorem DroppedServer.counts {eqfd : Bool} (h : DroppedServer m m' a a' p eqfd)
    (hp : CountsPlaced m a) : CountsPlaced m' a' :=
  ⟨h.serverCount hp.1, by rw [h.slaveCount, h.slaves, hp.2]⟩

theorem stable_countsPlaced : Stable CountsPlaced where
  rewritten hw hp := ⟨hw.rest.serverCount.trans hp.1, hw.rest.slaveCount.trans hp.2⟩
  head _ hp := hp
  replica _ hp := hp

theorem AreaInvariant.counted : AreaInvariant FitsCounted CountsPlaced where
  fits hok := hok.1
  stable := stable_countsPlaced
  resocked _ _ hr hp := ⟨hr.shape.chmpxServerCount.trans hp.1, hr.slaveCount.trans hp.2⟩
  merge hok ha hp := mergeChmpxSvrs_rule ha hok.1
    ⟨stable_countsPlaced, fun _ _ _ _ _ _ _ _ _ _ hadd hp => hadd.counts hp,
      fun _ _ _ _ _ _ _ _ _ hd hp => hd.counts hp⟩ hp
  reload hok ha hp := by
    rcases reloadConfiguration_rule (P := fun _ => CountsPlaced) ha hok.1
      ⟨fun _ _ hp => hp, Or.inl hok.2, fun _ _ _ _ hadd hp => hadd.counts hp⟩
      id (fun _ _ _ hd hp => hd.counts hp) hp with he | ⟨a', h⟩
    · rw [he]
      exact ⟨_, ha, hp⟩
    · exact ⟨a', h.area, h.holds⟩
  slaveBase _ _ _ hp hset _ := by
    cases hset with
    | refused => exact hp
    | overwritten _ _ _ => exact hp
    | added _ _ _ hadd => exact ⟨by rw [hadd.serverCount, hadd.svrs, hp.1], hadd.slaveCount hp.2⟩
  removed _ _ _ _ hd hp := ⟨by rw [hd.serverCount, hd.svrs, hp.1], hd.slaveCount hp.2⟩

theorem run_countsPlaced (h : AreaReachable ConfigCounted FitsCounted m) :
    ∃ a, Area m a ∧ CountsPlaced m a :=
  h.invariant (fun hrun hstart =>
    initialized_rule (P := fun _ => CountsPlaced) hrun hstart.1
      ⟨Or.inl hstart.2, fun _ _ _ hadd hp => hadd.counts hp⟩ fun m a hs =>
        ⟨hs.serverCount (by have := hstart.2; omega), by
          show m.chmpxSlaveCount = _
          rw [hs.slaveCount, hs.slaves]
          rfl⟩) AreaInvariant.counted

/-- In a run that never runs out of free nodes where it counts a server, the counters are
the lengths of the lists. -/
theorem run_counted (h : AreaReachable ConfigCounted FitsCounted m) : ListsCounted m := by
  obtain ⟨a, ha, hp⟩ := run_countsPlaced h
  refine ⟨?_, ?_⟩
  · rw [ha.serverNodes_eq]
    exact hp.1
  · rw [ha.slaveNodes_eq]
    exact hp.2

theorem run_counted_sample : ListsCounted ((sampleMan true).execArea sampleEnv
    (.reloadConfiguration { sampleCfg true with servers := [sampleParam 98, sampleParam 99] }
      true)).2 :=
  run_counted (.step _ _ (.init (sampleMan_eq true) ⟨sampleCfg_allowed true, by decide +kernel⟩)
    ⟨fun par hpar _ => by
      have hall : ∀ par ∈ [sampleParam 98, sampleParam 99],
          Chmpx.refuses sampleEnv sampleGroup par.hostname = false := by decide +kernel
      exact hall par hpar, by decide +kernel⟩)

/-- An area with one node: `Initialize` counts the configured server, for which there is no
node. -/
theorem initialize_countsWithoutNode :
    ¬∀ m, AreaReachable ConfigAllowed (fun _ _ _ => True) m → ListsCounted m := by
  intro h
  have hstart : ConfigAllowed sampleEnv { sampleCfg true with maxChmpxCount := 1 } :=
    ⟨by decide +kernel, by decide +kernel⟩
  obtain ⟨m, hm⟩ : ∃ m, initialized sampleEnv { sampleCfg true with maxChmpxCount := 1 } = some m :=
    ⟨_, rfl⟩
  have hcount : ∀ m ∈ initialized sampleEnv { sampleCfg true with maxChmpxCount := 1 },
      m.chmpxServerCount ≠ m.serverNodes.length := by decide +kernel
  exact hcount m hm (h m (.init hm hstart)).servers

end ChmpxMan
end Chm
