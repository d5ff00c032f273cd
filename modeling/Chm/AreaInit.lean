/-
`Initialize` as moves of nodes.

This node is popped from the free list of a fresh area, and then a node for every
configured server.  When the free list has run dry a server is counted without a node.
`initialized_rule` follows the loop with the configured servers that are done.
-/
import Chm.Area

namespace Chm

namespace ChmpxMan

variable {env : Env} {cfg : ChmCfgInfo} {type : ChmpxIdSeedType} {group : CStr}
variable {par : ChmpxParam}
variable {m m' : ChmpxMan} {a a' : Placement} {p : Ptr} {c : Chmpx}
variable {P : List ChmpxParam → ChmpxMan → Placement → Prop}

/-! ## One configured server -/

/-- A configured server gets a node of the free list of the cursor. -/
def addConfigured (env : Env) (type : ChmpxIdSeedType) (group : CStr) (par : ChmpxParam)
    (frees : Cursor) (m : ChmpxMan) : Cursor × ChmpxMan :=
  let (p, frees, m) := m.popFront frees
  let m := m.initializeAt env type group .server par p
  (frees, (insertServer type p m.chmpxServers m).2)

theorem initializeChmpx_socklist {mode : ChmpxMode}
    (h : Chmpx.initializeChmpx env type group mode par = some c) : c.socklist = [] := by
  rw [Chmpx.initializeChmpx] at h
  split at h
  · cases h
  · cases h
    rfl

theorem Area.cursorIn (h : Area m a) : CursorIn m.chmpxServers a.svrs := by
  rw [h.servers]
  cases a.svrs with
  | nil => rfl
  | cons q l => exact List.mem_cons_self

theorem insertServer_freeCount (type : ChmpxIdSeedType) (p : Option Ptr) (cur : Cursor)
    (m : ChmpxMan) : (insertServer type p cur m).2.chmpxFreeCount = m.chmpxFreeCount := by
  have hsave : ∀ (m : ChmpxMan) p, (m.saveChmpxIdMap p).chmpxFreeCount = m.chmpxFreeCount := by
    intro m p
    obtain ⟨same, map, he⟩ := saveChmpxIdMap_eq m p
    rw [he]
    rfl
  cases p with
  | none => cases cur <;> rfl
  | some p =>
    cases cur with
    | none => exact hsave m p
    | some c =>
      simp only [insertServer, insert]
      split
      · exact hsave (m.setLinks _) p
      · exact hsave (m.setLinks _) p

theorem initializeChmpx_none {mode : ChmpxMode}
    (h : Chmpx.initializeChmpx env type group mode par = none) :
    Chmpx.refuses env group par.hostname = true := by
  rw [Chmpx.initializeChmpx] at h
  split at h
  · assumption
  · cases h

theorem initializeChmpx_mode {mode : ChmpxMode}
    (h : Chmpx.initializeChmpx env type group mode par = some c) :
    c.isServerMode = decide (mode = .server) := by
  rw [Chmpx.initializeChmpx] at h
  split at h
  · cases h
  · cases h
    cases mode <;> rfl

theorem popFront_group (m : ChmpxMan) (cur : Cursor) : (m.popFront cur).2.2.group = m.group := by
  cases cur <;> rfl

/-- Without a free node the server is only counted. -/
theorem addConfigured_cases (h : Area (m.withFrees a.frees) a)
    (hok : Chmpx.refuses env group par.hostname = false) :
    (a.frees = [] ∧ ∃ n, addConfigured env type group par a.frees.head? m =
        (none, m.setServers n m.chmpxServers) ∧ a.svrs.length ≤ n) ∨
      ∃ p svrs' fs c m₂, Chmpx.initializeChmpx env type group .server par = some c ∧
        a.frees = p :: fs ∧ addConfigured env type group par a.frees.head? m = (fs.head?, m₂) ∧
        AddedServer (m.withFrees a.frees) (m₂.withFrees fs) a ⟨svrs', fs, a.slaves, a.self⟩ p c ∧
        Area (m₂.withFrees fs) ⟨svrs', fs, a.slaves, a.self⟩ ∧
        m₂.chmpxFreeCount = m.chmpxFreeCount := by
  rcases popFront_taken h.toPlaces with ⟨hnil, hpop⟩ | ⟨p, fs, k, hfr, hpop, ht⟩
  · refine Or.inl ⟨hnil, ?_⟩
    have hle : a.svrs.length ≤ m.chmpxServerCount := h.lists.serverCount
    have hservers : m.chmpxServers = a.svrs.head? := h.servers
    cases hs : a.svrs with
    | nil =>
      have hnone : m.chmpxServers = none := by rw [hservers, hs]; rfl
      refine ⟨1, ?_, Nat.zero_le _⟩
      simp only [addConfigured, hpop, initializeAt, insertServer, hnone]
    | cons q l =>
      have hq : q ∈ a.svrs := by rw [hs]; exact List.mem_cons_self
      have hsome : m.chmpxServers = some q := by rw [hservers, hs]; rfl
      have hfirst : m.getFirstPtr (some q) = some q := by
        have hf := h.lists.getFirstPtr_eq hq
        rw [hs] at hf
        exact hf
      refine ⟨m.chmpxServerCount + 1, ?_, ?_⟩
      · simp only [addConfigured, hpop, initializeAt, insertServer, hsome, hfirst]
      · rw [hs] at hle
        omega
  · obtain ⟨c, hinit, hserver⟩ := @initializeChmpx_server env group par type hok
    obtain ⟨svrs', hadded, hplaces, hhead, -⟩ := (ht c).insertServer h.toPlaces hserver
      (initializeChmpx_socklist hinit) type h.cursorIn rfl
    refine Or.inr ⟨p, svrs', fs, c, _, hinit, hfr, ?_, hadded, ⟨hplaces, hhead,
      hadded.site.chmpxCount ▸ h.limit⟩, insertServer_freeCount _ _ _ _⟩
    simp only [addConfigured, hpop, initializeAt, hinit]
    rfl

/-! ## The loop over the configured servers -/

/-- What the loop must keep; it either never runs out of free nodes, or the property does
not care about the counter. -/
structure InitializeKeeps (P : List ChmpxParam → ChmpxMan → Placement → Prop) (env : Env)
    (cfg : ChmCfgInfo) : Prop where
  counted : (serverParams cfg).length < cfg.maxChmpxCount ∨
    ∀ {done par rest m a} n, serverParams cfg = done ++ par :: rest → P done m a →
      P (done ++ [par]) (m.setServers n m.chmpxServers) a
  added : ∀ {done par rest m m' a a' p c}, serverParams cfg = done ++ par :: rest → Area m a →
    Chmpx.initializeChmpx env cfg.chmpxidType cfg.groupname .server par = some c →
    AddedServer m m' a a' p c → P done m a → P (done ++ [par]) m' a'

theorem initializeServers_cons (pars : List ChmpxParam) (frees : Cursor) :
    initializeServers env cfg (par :: pars) frees m =
      let (frees, m) := addConfigured env cfg.chmpxidType m.group par frees m
      initializeServers env cfg pars frees m := by
  have hg := popFront_group m frees
  simp only [initializeServers, addConfigured, initializeNode, hg]

theorem initializeServers_rule (hP : InitializeKeeps P env cfg) (pars : List ChmpxParam) :
    ∀ (done : List ChmpxParam) (m : ChmpxMan) (a : Placement), serverParams cfg = done ++ pars →
      Area (m.withFrees a.frees) a → m.group = cfg.groupname →
      (∀ par ∈ pars, Chmpx.refuses env cfg.groupname par.hostname = false) →
      ((serverParams cfg).length < cfg.maxChmpxCount → pars.length ≤ a.frees.length) →
      P done (m.withFrees a.frees) a →
      ∃ a' m', initializeServers env cfg pars a.frees.head? m = (a'.frees.head?, m') ∧
        Area (m'.withFrees a'.frees) a' ∧ P (serverParams cfg) (m'.withFrees a'.frees) a' := by
  induction pars with
  | nil =>
    intro done m a hcfg h _ _ _ hp
    rw [List.append_nil] at hcfg
    exact ⟨a, m, rfl, h, hcfg ▸ hp⟩
  | cons par pars ih =>
    intro done m a hcfg h hgroup hnames hfree hp
    have hcfg' : serverParams cfg = (done ++ [par]) ++ pars := by rw [hcfg]; simp
    have hnames' := fun q hq => hnames q (List.mem_cons_of_mem _ hq)
    rw [initializeServers_cons, hgroup]
    have hcases := @addConfigured_cases env cfg.chmpxidType cfg.groupname par m a h
      (hnames par List.mem_cons_self)
    rcases hcases with
      ⟨hnil, n, hadd, hn⟩ | ⟨p, svrs', fs, c, m₂, hinit, hfr, hadd, hadded, harea, -⟩
    · have hp' : P (done ++ [par]) ((m.setServers n m.chmpxServers).withFrees a.frees) a := by
        rcases hP.counted with hlt | hc
        · have hle := hfree hlt
          rw [hnil, List.length_cons, List.length_nil] at hle
          omega
        · exact hc n hcfg hp
      have harea : Area ((m.setServers n m.chmpxServers).withFrees a.frees) a :=
        ⟨⟨⟨h.lists.1, h.lists.2, h.lists.3, h.lists.4, hn, h.lists.6, h.lists.7⟩, h.cover,
          h.slaves, h.self, h.live⟩, h.servers, h.limit⟩
      rw [hadd]
      have hnone : a.frees.head? = none := by rw [hnil]; rfl
      have hrest := ih (done ++ [par]) _ a hcfg' harea hgroup hnames' (fun hlt => ?_) hp'
      · rwa [hnone] at hrest
      · have hle := hfree hlt
        rw [List.length_cons] at hle
        omega
    · rw [hadd]
      refine ih (done ++ [par]) m₂ ⟨svrs', fs, a.slaves, a.self⟩ hcfg' harea ?_ hnames'
        (fun hlt => ?_) (hP.added hcfg h hinit hadded hp)
      · have hg : m₂.group = m.group := hadded.site.group
        rw [hg, hgroup]
      · have hle := hfree hlt
        rw [hfr, List.length_cons, List.length_cons] at hle
        show pars.length ≤ fs.length
        omega

/-! ## This node itself -/

theorem freshArea_places (cfg : ChmCfgInfo) :
    Places ((freshArea cfg).withFrees (List.range cfg.maxChmpxCount))
      ⟨[], List.range cfg.maxChmpxCount, [], []⟩ := by
  have h := freshArea_lists cfg
  refine ⟨⟨⟨?_, fun l hl => ?_⟩, fun p hp => ?_, h.frees_head, h.freeCount, h.serverCount,
    h.server_mem, h.isServer⟩, ?_, rfl, Or.inl ⟨rfl, fun p hp => by cases hp⟩, fun p hp => ?_⟩
  · simpa [Placement.rest] using h.chains.nodup
  · simp only [Placement.rest, List.mem_cons, List.not_mem_nil, or_false] at hl
    rcases hl with rfl | rfl | rfl | rfl
    · trivial
    · exact h.chains.seg _ (by simp)
    · trivial
    · trivial
  · exact h.bound p (by simpa [Placement.rest] using hp)
  · simp only [Placement.all, List.nil_append, List.append_nil]
    exact List.Perm.refl _
  · exact absurd rfl hp

def selfMode (cfg : ChmCfgInfo) : ChmpxMode := if cfg.isServerMode then .server else .slave

/-- The area when this node has been set up: in server mode it is the only server, else it
is in no list. -/
structure SelfPlaced (env : Env) (cfg : ChmCfgInfo) (m : ChmpxMan) (a : Placement) : Prop where
  places : Places (m.withFrees a.frees) a
  head : m.chmpxServers = a.svrs.head?
  group : m.group = cfg.groupname
  area : m.chmpxCount = cfg.maxChmpxCount
  frees : a.frees.length = cfg.maxChmpxCount - 1
  slaves : a.slaves = []
  slaveCount : m.chmpxSlaveCount = 0
  serverCount : 0 < cfg.maxChmpxCount → m.chmpxServerCount = a.svrs.length
  single : (a.svrs ++ a.self).length ≤ 1
  records : ∀ p, m.chmpx p = Chmpx.cleared ∨ p ∈ a.svrs ++ a.self ∧
    Chmpx.initializeChmpx env cfg.chmpxidType cfg.groupname (selfMode cfg) (selfParam cfg) =
      some (m.chmpx p)
  sockFreeCount : m.sockFreeCount = cfg.sockCount
  sockFrees : m.sockFrees = cfg.sockCount
  mapped : ∃ chain, Mapped m chain ∧ ∀ p, (m.chmpx p).chmpxid ≠ chmInvalidChmpxId →
    p ∈ chain (slotOf (m.chmpx p).chmpxid)

/-- The chmpxid map with this node alone in it. -/
theorem mapped_self (hm : Mapped m fun _ => []) (hp : p < m.chmpxCount)
    (hother : ∀ q, q ≠ p → (m.chmpx q).chmpxid = chmInvalidChmpxId) :
    ∃ chain, Mapped (m.saveChmpxIdMap p) chain ∧
      ∀ q, (m.chmpx q).chmpxid ≠ chmInvalidChmpxId → q ∈ chain (slotOf (m.chmpx q).chmpxid) := by
  by_cases hid : (m.chmpx p).chmpxid = chmInvalidChmpxId
  · rw [saveChmpxIdMap_invalid hid]
    refine ⟨_, hm, fun q hq => absurd ?_ hq⟩
    by_cases hqp : q = p
    · rw [hqp]
      exact hid
    · exact hother q hqp
  · refine ⟨_, hm.save (fun _ => List.not_mem_nil) hid hp, fun q hq => ?_⟩
    have hqp : q = p := by
      by_contra hqp
      exact hq (hother q hqp)
    rw [hqp, Function.update_self]
    simp

theorem selfPlaced_of {fs : List Ptr} {k : Links Ptr} {n : Nat} {head : Option Ptr}
    (hfr : List.range cfg.maxChmpxCount = p :: fs)
    (hk : k.Chains [[], fs, [p], [], []])
    (hc : c = Chmpx.cleared ∨ Chmpx.initializeChmpx env cfg.chmpxidType cfg.groupname
      (selfMode cfg) (selfParam cfg) = some c)
    (ha : a = ⟨[p], fs, [], []⟩ ∧ IsServer c ∧ n = 1 ∧ head = some p ∨
      a = ⟨[], fs, [], [p]⟩ ∧ c.isServerMode = false ∧ n = 0 ∧ head = none)
    (hm : m = (((((freshArea cfg).setLinks k).setChmpx p c).setServers n
      head).saveChmpxIdMap p).setSelf (some p)) : SelfPlaced env cfg m a := by
  generalize hm₁ : (((freshArea cfg).setLinks k).setChmpx p c).setServers n head = m₁ at hm
  obtain ⟨same, map, hsave⟩ := saveChmpxIdMap_eq m₁ p
  have hlt : p < cfg.maxChmpxCount := List.mem_range.mp (by rw [hfr]; exact List.mem_cons_self)
  have hfs : fs.length = cfg.maxChmpxCount - 1 := by
    have hlen := congrArg List.length hfr
    rw [List.length_range, List.length_cons] at hlen
    omega
  have hchm : ∀ q, m.chmpx q = if q = p then c else Chmpx.cleared := by
    intro q
    rw [hm, hsave, ← hm₁]
    show (((freshArea cfg).setLinks k).setChmpx p c).chmpx q = _
    rw [chmpx_setChmpx]
    rfl
  have hmapped : ∃ chain, Mapped m chain ∧ ∀ q, (m.chmpx q).chmpxid ≠ chmInvalidChmpxId →
      q ∈ chain (slotOf (m.chmpx q).chmpxid) := by
    have h₀ : Mapped (freshArea cfg) fun _ => [] :=
      (freshArea_map cfg []).toMapped.congr rfl rfl rfl fun _ _ _ => rfl
    have h₁ : Mapped m₁ fun _ => [] := by
      rw [← hm₁]
      exact (((h₀.setLinks k).setChmpx (fun _ => List.not_mem_nil) c).congr rfl rfl rfl
        fun _ _ _ => rfl)
    have hother : ∀ q, q ≠ p → (m₁.chmpx q).chmpxid = chmInvalidChmpxId := by
      intro q hq
      rw [← hm₁]
      show ((((freshArea cfg).setLinks k).setChmpx p c).chmpx q).chmpxid = _
      rw [chmpx_setChmpx, if_neg hq]
      rfl
    obtain ⟨chain, hch, hin⟩ := mapped_self h₁ (by rw [← hm₁]; exact hlt) hother
    have heq : m.chmpx = m₁.chmpx := by rw [hm, hsave]; rfl
    refine ⟨chain, ?_, by rw [heq]; exact hin⟩
    rw [hm]
    exact hch.congr rfl rfl rfl fun _ _ _ => rfl
  have hk' : m.links.Chains [fs, [p], [], []] := by
    rw [hm, hsave, ← hm₁]
    exact hk.tail
  have hlive : ∀ q, (m.chmpx q).chmpxid ≠ chmInvalidChmpxId → q = p := by
    intro q hq
    rw [hchm] at hq
    split at hq
    · assumption
    · exact absurd rfl hq
  have hperm : (p :: fs).Perm (List.range m.chmpxCount) := by
    have hcount : m.chmpxCount = cfg.maxChmpxCount := by rw [hm, hsave, ← hm₁]; rfl
    rw [hcount, hfr]
  have hrecords : ∀ q, m.chmpx q = Chmpx.cleared ∨ q = p ∧
      Chmpx.initializeChmpx env cfg.chmpxidType cfg.groupname (selfMode cfg) (selfParam cfg) =
        some (m.chmpx q) := by
    intro q
    rw [hchm]
    split
    · exact hc.imp_right fun h => ⟨by assumption, h⟩
    · exact Or.inl rfl
  have hbound : ∀ q ∈ fs, q < m.chmpxCount := fun q hq =>
    List.mem_range.mp (hperm.mem_iff.mp (List.mem_cons_of_mem _ hq))
  have hp : p < m.chmpxCount := List.mem_range.mp (hperm.mem_iff.mp List.mem_cons_self)
  have hself : m.chmpxSelf = some p := by rw [hm]; rfl
  have hframe : m.chmpxServers = head ∧ m.chmpxServerCount = n ∧ m.chmpxSlaves = none := by
    rw [hm, hsave, ← hm₁]
    exact ⟨rfl, rfl, rfl⟩
  obtain ⟨hhead, hcount, hslaves⟩ := hframe
  have hsite : m.group = cfg.groupname ∧ m.chmpxCount = cfg.maxChmpxCount ∧
      m.chmpxSlaveCount = 0 ∧ m.sockFreeCount = cfg.sockCount ∧ m.sockFrees = cfg.sockCount := by
    rw [hm, hsave, ← hm₁]
    exact ⟨rfl, rfl, rfl, rfl, rfl⟩
  obtain ⟨hgroup, harea, hslaveCount, hsock, hsocks⟩ := hsite
  rcases ha with ⟨rfl, hserver, rfl, rfl⟩ | ⟨rfl, hmode, rfl, rfl⟩
  · refine ⟨⟨⟨hk'.swap, fun q hq => ?_, rfl, rfl, ?_, fun q hq => ?_, fun q hq => ?_⟩, ?_,
      hslaves, Or.inl ⟨rfl, fun q hq => ?_⟩, fun q hq => ?_⟩, hhead, hgroup, harea, hfs, rfl,
      hslaveCount, fun _ => hcount, le_refl _, fun q => ?_, hsock, hsocks, hmapped⟩
    · rcases List.mem_cons.mp (by simpa [Placement.rest] using hq) with rfl | hq
      · exact hp
      · exact hbound q hq
    · exact hcount.ge
    · have hmode : (m.chmpx q).isServerMode = true := hq
      rw [hchm] at hmode
      split at hmode
      · rename_i hqp
        exact List.mem_singleton.mpr hqp
      · cases hmode
    · show IsServer (m.chmpx q)
      rw [hchm, if_pos (List.mem_singleton.mp hq)]
      exact hserver
    · show ([p] ++ fs ++ [] ++ []).Perm (List.range m.chmpxCount)
      simpa using hperm
    · have hq' : m.chmpxSelf = some q := hq
      rw [hself] at hq'
      exact List.mem_singleton.mpr (Option.some.inj hq').symm
    · exact Or.inl (List.mem_singleton.mpr (hlive q hq))
    · exact (hrecords q).imp_right fun h => ⟨List.mem_singleton.mpr h.1, h.2⟩
  · refine ⟨⟨⟨?_, fun q hq => ?_, rfl, rfl, Nat.zero_le _, fun q hq => ?_,
      fun q hq => absurd hq List.not_mem_nil⟩, ?_, hslaves, Or.inr ⟨p, hself, rfl⟩,
      fun q hq => ?_⟩, hhead, hgroup, harea, hfs, rfl, hslaveCount, fun _ => hcount, le_refl _,
      fun q => ?_, hsock, hsocks, hmapped⟩
    · refine hk'.perm ?_
      show ([fs] ++ [p] :: [[], []]).Perm _
      refine List.perm_middle.trans ?_
      show ([[p], fs, [], []] : List (List Ptr)).Perm [[], fs, [], [p]]
      refine (List.perm_append_singleton [p] [fs, [], []]).symm.trans ?_
      exact List.Perm.swap [] fs [[], [p]]
    · have hq' : q ∈ fs ∨ q = p := by simpa [Placement.rest] using hq
      rcases hq' with hq' | rfl
      · exact hbound q hq'
      · exact hp
    · have hq' : (m.chmpx q).isServerMode = true := hq
      rw [hchm] at hq'
      split at hq'
      · rw [hmode] at hq'
        cases hq'
      · cases hq'
    · show ([] ++ fs ++ [] ++ [p]).Perm (List.range m.chmpxCount)
      simpa using (List.perm_append_singleton p fs).trans hperm
    · exact Or.inr (Or.inr (List.mem_singleton.mpr (hlive q hq)))
    · exact (hrecords q).imp_right fun h => ⟨List.mem_singleton.mpr h.1, h.2⟩

theorem initializeSelf_placed (hok : ConfigAllowed env cfg) :
    ∃ m a, initializeSelf env cfg (if 0 < cfg.maxChmpxCount then some 0 else none)
        (freshArea cfg) = (a.frees.head?, m) ∧ SelfPlaced env cfg m a := by
  have hplaces := freshArea_places cfg
  have hhead : (if 0 < cfg.maxChmpxCount then some 0 else none) =
      (List.range cfg.maxChmpxCount).head? := by
    cases cfg.maxChmpxCount with
    | zero => rfl
    | succ n => rw [List.range_succ_eq_map]; rfl
  rw [hhead]
  rcases popFront_taken (m := freshArea cfg) (a := ⟨[], List.range cfg.maxChmpxCount, [], []⟩)
    hplaces with ⟨hnil, hpop⟩ | ⟨p, fs, k, hfr, hpop, ht⟩
  · -- An area without nodes: there is no node for this process either.
    have hnil' : List.range cfg.maxChmpxCount = [] := hnil
    have hzero : cfg.maxChmpxCount = 0 := List.range_eq_nil.mp hnil'
    obtain ⟨n, hn⟩ : ∃ n, initializeSelf env cfg (List.range cfg.maxChmpxCount).head?
        (freshArea cfg) = (none, ((freshArea cfg).setServers n none).setSelf none) := by
      cases hserver : cfg.isServerMode with
      | true =>
        refine ⟨1, ?_⟩
        simp only [initializeSelf, hpop, initializeNode, initializeAt, hserver, if_true]
      | false =>
        refine ⟨0, ?_⟩
        simp only [initializeSelf, hpop, initializeNode, initializeAt, hserver,
          Bool.false_eq_true, if_false]
        rfl
    refine ⟨_, ⟨[], [], [], []⟩, hn, ⟨⟨⟨?_, fun q hq => (by cases hq), rfl, rfl, Nat.zero_le _,
      fun q hq => (by cases hq), fun q hq => absurd hq List.not_mem_nil⟩, ?_, rfl,
      Or.inl ⟨rfl, fun q hq => (by cases hq)⟩, fun q hq => absurd rfl hq⟩, rfl, rfl, rfl, ?_, rfl,
      rfl, fun h => absurd hzero (by omega), by simp, fun q => Or.inl rfl, rfl, rfl, ?_⟩⟩
    · have hk := hplaces.chains
      rw [hnil'] at hk
      exact hk
    · show List.Perm [] (List.range cfg.maxChmpxCount)
      rw [hnil']
    · rw [hzero]
      rfl
    · exact ⟨fun _ => [], (freshArea_map cfg []).toMapped.congr rfl rfl rfl fun _ _ _ => rfl,
        fun q hq => absurd rfl hq⟩
  · have hk : k.Chains [[], fs, [p], [], []] := (ht Chmpx.cleared).chains
    have hgroup : ((freshArea cfg).setLinks k).group = cfg.groupname := rfl
    cases hserver : cfg.isServerMode with
    | true =>
      obtain ⟨c, hinit, hc⟩ := initializeChmpx_server cfg.chmpxidType (hok.1 hserver)
      refine ⟨_, ⟨[p], fs, [], []⟩, ?_, selfPlaced_of hfr hk (Or.inr ?_)
        (Or.inl ⟨rfl, hc, rfl, rfl⟩) rfl⟩
      · simp only [initializeSelf, hpop, initializeNode, initializeAt, hserver, if_true, hgroup,
          hinit]
      · rw [selfMode, hserver, if_pos rfl]
        exact hinit
    | false =>
      obtain ⟨c, hc, hmode, hnode⟩ : ∃ c, (c = Chmpx.cleared ∨ Chmpx.initializeChmpx env
          cfg.chmpxidType cfg.groupname .slave (selfParam cfg) = some c) ∧
          c.isServerMode = false ∧
          ((freshArea cfg).setLinks k).initializeNode env cfg .slave (selfParam cfg) (some p) =
            ((freshArea cfg).setLinks k).setChmpx p c := by
        cases hinit : Chmpx.initializeChmpx env cfg.chmpxidType cfg.groupname .slave
            (selfParam cfg) with
        | none =>
          refine ⟨Chmpx.cleared, Or.inl rfl, rfl, ?_⟩
          simp only [initializeNode, initializeAt, hgroup, hinit]
          exact (setChmpx_chmpx ((freshArea cfg).setLinks k) p).symm
        | some c =>
          refine ⟨c, Or.inr rfl, (initializeChmpx_mode hinit).trans (by decide), ?_⟩
          simp only [initializeNode, initializeAt, hgroup, hinit]
      refine ⟨_, ⟨[], fs, [], [p]⟩, ?_, selfPlaced_of (n := 0) hfr hk
        (hc.imp_right fun h => ?_)
        (Or.inr ⟨rfl, hmode, rfl, show (none : Option Ptr) = none from rfl⟩) rfl⟩
      · simp only [initializeSelf, hpop, hserver, Bool.false_eq_true, if_false, hnode]
        rfl
      · rw [selfMode, hserver, if_neg Bool.false_ne_true]
        exact h

/-- The rule for `Initialize`. -/
theorem initialized_rule (h : initialized env cfg = some m) (hok : ConfigAllowed env cfg)
    (hP : InitializeKeeps P env cfg)
    (hself : ∀ m a, SelfPlaced env cfg m a → P [] (m.withFrees a.frees) a) :
    ∃ a, Area m a ∧ P (serverParams cfg) m a := by
  rw [initialized] at h
  split at h
  · cases h
  · rename_i hlimits
    obtain ⟨m₁, a₁, hrun, h₁⟩ := initializeSelf_placed hok
    have harea : Area (m₁.withFrees a₁.frees) a₁ := by
      refine ⟨h₁.places, h₁.head, ?_⟩
      show m₁.chmpxCount ≤ _
      rw [h₁.area]
      omega
    obtain ⟨a₂, m₂, hrun₂, h₂, hp₂⟩ := initializeServers_rule hP (serverParams cfg) [] m₁ a₁ rfl
      harea h₁.group hok.2 (fun hlt => by rw [h₁.frees]; omega) (hself m₁ a₁ h₁)
    rw [hrun] at h
    dsimp only at h
    rw [hrun₂] at h
    dsimp only at h
    rw [storeFrees_eq h₂.lists] at h
    have hm : m₂.withFrees a₂.frees = m := Option.some.inj h
    rw [hm] at h₂ hp₂
    exact ⟨a₂, h₂, hp₂⟩

end ChmpxMan
end Chm
