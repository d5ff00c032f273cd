/-
`chmpxman_lap::Initialize`: the manager of a fresh area.

All nodes of a fresh area are in one free chain.  This node is popped first, then
one node for every configured server, and what is left is the free list.  Until
the end the free list lives in a local cursor only, so the lemmas speak about the
manager with that cursor stored.
-/
import Chm.MapLists
import Chm.MergeHashes
import Chm.Order

namespace Chm

/-- What `Initialize` reads of the configuration; the parameters of a node are the
ones `cvt_parameters_by_chmpxid_type` has converted. -/
structure ChmCfgInfo where
  groupname : CStr
  replicaCount : Int
  maxChmpxCount : Nat
  isServerMode : Bool
  chmpxidType : ChmpxIdSeedType
  /-- The node of this process, and the name it goes by. -/
  selfnode : ChmpxParam
  selfname : CStr
  servers : List ChmpxParam
  /-- The length of the free socket list. -/
  sockCount : Nat

def maxGroupLength : Nat := 256

namespace ChmpxMan

variable {env : Env} {m m' : ChmpxMan} {svrs frees : List Ptr} {rest : List (List Ptr)} {p : Ptr}

/-! ## The fresh area -/

/-- The links of `CHMPXLIST` nodes `0 .. n - 1` in one chain. -/
def areaLinks (n : Nat) : Links Ptr where
  next p := if p + 1 < n then some (p + 1) else none
  prev p := if 0 < p ∧ p < n then some (p - 1) else none

/-- The area before `Initialize`, with the members that do not depend on the
nodes set. -/
def freshArea (cfg : ChmCfgInfo) : ChmpxMan where
  group := cfg.groupname
  replicaCount := cfg.replicaCount
  chmpxCount := cfg.maxChmpxCount
  links := areaLinks cfg.maxChmpxCount
  same _ := none
  chmpx _ := Chmpx.cleared
  chmpxidMap _ := none
  chmpxBaseSrvs _ := none
  chmpxPendSrvs _ := none
  chmpxSelf := none
  chmpxBhashCount := 0
  chmpxServerCount := 0
  chmpxServers := none
  chmpxSlaveCount := 0
  chmpxSlaves := none
  chmpxFreeCount := 0
  chmpxFrees := none
  sockFreeCount := cfg.sockCount
  sockFrees := cfg.sockCount
  isOperating := false
  lastChmpxid := chmInvalidChmpxId

/-! ## `Initialize` -/

/-- A node of the configuration. -/
def initializeNode (env : Env) (cfg : ChmCfgInfo) (mode : ChmpxMode) (par : ChmpxParam)
    (p : Option Ptr) (m : ChmpxMan) : ChmpxMan :=
  m.initializeAt env cfg.chmpxidType m.group mode par p

/-- The parameters of this node as it initialises itself. -/
def selfParam (cfg : ChmCfgInfo) : ChmpxParam :=
  { cfg.selfnode with
    hostname := if cfg.selfname.isEmpty then cfg.selfnode.hostname else cfg.selfname
    port := if cfg.isServerMode then cfg.selfnode.port else chmInvalidPort }

/-- This node itself: popped from the free list of the cursor. -/
def initializeSelf (env : Env) (cfg : ChmCfgInfo) (frees : Cursor) (m : ChmpxMan) :
    Cursor × ChmpxMan :=
  let (p, frees, m) := m.popFront frees
  let m := m.initializeNode env cfg (if cfg.isServerMode then .server else .slave) (selfParam cfg) p
  let m := if cfg.isServerMode then m.setServers 1 p else m
  let m := match p with
    | none => m
    | some p => m.saveChmpxIdMap p
  (frees, m.setSelf p)

/-- A configured server that is this node itself. -/
def isSelfNode (cfg : ChmCfgInfo) (par : ChmpxParam) : Bool :=
  par.hostname = cfg.selfnode.hostname && par.ctlport = cfg.selfnode.ctlport &&
    par.cuk = cfg.selfnode.cuk && par.customSeed = cfg.selfnode.customSeed &&
    compareHostportPairs par.endpoints cfg.selfnode.endpoints &&
    compareHostportPairs par.ctlendpoints cfg.selfnode.ctlendpoints &&
    compareHostportPairs par.forwardPeers cfg.selfnode.forwardPeers &&
    compareHostportPairs par.reversePeers cfg.selfnode.reversePeers

/-- The configured servers that `Initialize` makes nodes for. -/
def serverParams (cfg : ChmCfgInfo) : List ChmpxParam :=
  cfg.servers.filter fun par => !(cfg.isServerMode && isSelfNode cfg par)

/-- The loop over the configured servers. -/
def initializeServers (env : Env) (cfg : ChmCfgInfo) : List ChmpxParam → Cursor → ChmpxMan →
    Cursor × ChmpxMan
  | [], frees, m => (frees, m)
  | par :: pars, frees, m =>
    let (p, frees, m) := m.popFront frees
    let m := m.initializeNode env cfg .server par p
    let (_, m) := insertServer cfg.chmpxidType p m.chmpxServers m
    initializeServers env cfg pars frees m

/-- `Initialize` on a fresh area. -/
def initialized (env : Env) (cfg : ChmCfgInfo) : Option ChmpxMan :=
  if maxGroupLength ≤ cfg.groupname.length ∨ maxChmpxCount < cfg.maxChmpxCount then none
  else
    let (frees, m) := initializeSelf env cfg (if 0 < cfg.maxChmpxCount then some 0 else none)
      (freshArea cfg)
    let (frees, m) := initializeServers env cfg (serverParams cfg) frees m
    some (m.setFrees (m.nodes frees).length (m.getFirstPtr frees))

/-! ## The lists of a fresh manager -/

/-- Nodes `a, a + 1, ..` of the area up to its end are a segment. -/
theorem areaLinks_seg (n k a : Nat) (h : a + k = n) :
    (areaLinks n).Seg (if 0 < a then some (a - 1) else none) (List.range' a k) none := by
  induction k generalizing a with
  | zero => trivial
  | succ k ih =>
    rw [List.range'_succ]
    refine ⟨?_, ?_, ?_⟩
    · have hlt : a < n := by omega
      simp only [areaLinks, hlt, and_true]
    · cases k with
      | zero =>
        have hge : ¬a + 1 < n := by omega
        simp only [areaLinks, if_neg hge, List.range'_zero]
        rfl
      | succ k =>
        have hlt : a + 1 < n := by omega
        simp only [areaLinks, if_pos hlt, List.range'_succ]
        rfl
    · have := ih (a + 1) (by omega)
      rwa [if_pos (Nat.succ_pos a), Nat.add_sub_cancel] at this

theorem areaLinks_chains (n : Nat) : (areaLinks n).Chains [[], List.range n] where
  nodup := by simpa using List.nodup_range
  seg c hc := by
    rcases List.mem_pair.mp hc with rfl | rfl
    · trivial
    · rw [List.range_eq_range']
      exact areaLinks_seg n n 0 (Nat.zero_add n)

/-- The manager with the free list that is still in a cursor stored. -/
def withFrees (m : ChmpxMan) (frees : List Ptr) : ChmpxMan :=
  m.setFrees frees.length frees.head?

theorem freshArea_lists (cfg : ChmCfgInfo) :
    Lists ((freshArea cfg).withFrees (List.range cfg.maxChmpxCount)) []
      (List.range cfg.maxChmpxCount) [] where
  chains := areaLinks_chains _
  bound p hp := by
    have hp' : p ∈ List.range cfg.maxChmpxCount := by simpa using hp
    exact List.mem_range.mp hp'
  frees_head := rfl
  freeCount := rfl
  serverCount := le_refl _
  server_mem p hp := by cases hp
  isServer p hp := absurd hp List.not_mem_nil

/-- `PopFront` from the head of the free list. -/
theorem popFront_spec (h : Lists (m.withFrees frees) svrs frees rest) :
    (frees = [] ∧ m.popFront frees.head? = (none, none, m)) ∨
      ∃ f fs k, frees = f :: fs ∧ m.popFront frees.head? = (some f, fs.head?, m.setLinks k) ∧
        k.Chains (svrs :: fs :: [f] :: rest) := by
  cases frees with
  | nil => exact Or.inl ⟨rfl, rfl⟩
  | cons f fs =>
    refine Or.inr ⟨f, fs, (m.links.setPrev? fs.head? none).setNext f none, rfl, ?_, ?_⟩
    · have hchains : m.links.Chains ((f :: fs) :: svrs :: rest) := h.chains.swap
      have hlen : (f :: fs).length ≤ m.chmpxCount :=
        h.length_le (List.mem_cons_of_mem _ List.mem_cons_self)
      have hfirst : m.first f = f := Option.some.inj (hchains.first List.mem_cons_self hlen)
      have hnext : m.links.next f = fs.head? := Links.Chains.next_of_cons hchains
      simp only [List.head?_cons, popFront, hfirst, hnext]
    · have hchains : m.links.Chains ((f :: fs) :: svrs :: rest) := h.chains.swap
      have hu := Links.Chains.unlink_of_cons hchains
      have hn : m.links.next f = fs.head? := Links.Chains.next_of_cons hchains
      have hp : m.links.prev f = none := Links.Chains.prev_of_cons hchains
      have he : m.links.unlink f = (m.links.setPrev? fs.head? none).setNext f none := by
        rw [Links.unlink_of_prev_none hp, hn]
      rw [he] at hu
      exact hu.perm (show ([fs, [f]] ++ svrs :: rest).Perm _ from List.perm_middle)

/-- The host names in the configuration are ones that `Initialize` accepts. -/
def ConfigAllowed (env : Env) (cfg : ChmCfgInfo) : Prop :=
  (cfg.isServerMode = true →
    Chmpx.refuses env cfg.groupname (selfParam cfg).hostname = false) ∧
    ∀ par ∈ serverParams cfg, Chmpx.refuses env cfg.groupname par.hostname = false

/-- A node that holds no hash and whose status gives it none. -/
def Idle (c : Chmpx) : Prop :=
  ∀ r : Ring, r.member c.status = false ∧ r.hash c = chmInvalidHashVal

theorem idle_cleared : Idle Chmpx.cleared := by
  rintro (_ | _) <;> exact ⟨by decide, rfl⟩

theorem idle_initializeChmpx {group : CStr} {par : ChmpxParam} {type : ChmpxIdSeedType}
    {mode : ChmpxMode} {c : Chmpx} (h : Chmpx.initializeChmpx env type group mode par = some c) :
    Idle c := by
  rw [Chmpx.initializeChmpx] at h
  split at h
  · cases h
  · cases h
    rintro (_ | _) <;> refine ⟨?_, rfl⟩ <;> dsimp only <;> split <;> decide

/-- The state between two configured servers. -/
structure Initializing (m : ChmpxMan) (svrs frees : List Ptr) (rest : List (List Ptr)) : Prop where
  lists : Lists (m.withFrees frees) svrs frees rest
  head : m.chmpxServers = svrs.head?
  idle : ∀ p, Idle (m.chmpx p)
  bhashCount : m.chmpxBhashCount = 0
  map : ∃ chain, MapOk (m.withFrees frees) chain

/-- A node initialised from the free list is fresh. -/
theorem fresh_of_popFront {k : Links Ptr} {fs : List Ptr} {f : Ptr} (c : Chmpx)
    (hk : k.Chains (svrs :: fs :: [f] :: rest)) :
    Fresh (m.withFrees (f :: fs)) (((m.setLinks k).setChmpx f c).withFrees fs) svrs (f :: fs) fs
      rest f c :=
  ⟨List.Perm.refl _, hk, rfl, ⟨rfl, rfl, rfl, rfl⟩, rfl, rfl, rfl, rfl⟩

theorem idle_setChmpx (h : ∀ q, Idle (m.chmpx q)) {c : Chmpx} (hc : Idle c) (q : Ptr) :
    Idle ((m.setChmpx p c).chmpx q) := by
  rw [chmpx_setChmpx]
  split
  · exact hc
  · exact h q

/-- A node initialised from the free list goes into its bucket. -/
theorem map_inserted (type : ChmpxIdSeedType) (cur : Cursor) {k : Links Ptr} {c : Chmpx}
    {svrs' : List Ptr} (h : Initializing m svrs (p :: frees) rest) (hserver : IsServer c)
    (hins : (insertServer type (some p) cur ((m.setLinks k).setChmpx p c)).2 = m')
    (hl' : Lists (m'.withFrees frees) svrs' frees rest) :
    ∃ chain, MapOk (m'.withFrees frees) chain := by
  obtain ⟨chain, hmap⟩ := h.map
  have hfree := h.lists.freeNodes_eq
  have hid : (m.chmpx p).chmpxid = chmInvalidChmpxId := hmap.free p (by rw [hfree]; simp)
  have hout : ∀ i, p ∉ chain i := hmap.toMapped.notMem_of_invalid hid
  have hbound : p < m.chmpxCount := h.lists.bound p (by simp)
  have hm : Mapped (m.setLinks k) chain :=
    hmap.toMapped.congr rfl rfl rfl fun _ _ _ => rfl
  have hp : ((m.setLinks k).setChmpx p c).chmpx p = c := by rw [chmpx_setChmpx, if_pos rfl]
  have hmapped := (hm.setChmpx hout c).insertServer hout (by rw [hp]; exact hserver.valid) hbound
    type cur
  obtain ⟨hchm, -⟩ := insertServer_frame type (some p) cur ((m.setLinks k).setChmpx p c)
  rw [hins, hp] at hmapped
  rw [hins] at hchm
  have hm' : Mapped (m'.withFrees frees) _ := hmapped.congr rfl rfl rfl fun _ _ _ => rfl
  obtain ⟨chain', hok, -⟩ := hmap.insert hid hm' hchm fun q hq => by
    rw [hl'.freeNodes_eq] at hq
    have hnd : (p :: frees).Nodup := h.lists.chains.tail.nodup_head
    rw [hfree]
    exact ⟨List.mem_cons_of_mem _ hq, fun he => (List.nodup_cons.mp hnd).1 (he ▸ hq)⟩
  exact ⟨chain', hok⟩

/-- With the free list used up a configured server gets no node, but is
counted. -/
theorem insertServer_none (type : ChmpxIdSeedType) (h : Initializing m svrs [] rest) :
    ∃ n, (insertServer type none m.chmpxServers m).2 = m.setServers n m.chmpxServers ∧
      svrs.length ≤ n := by
  have hle : svrs.length ≤ m.chmpxServerCount := h.lists.serverCount
  cases svrs with
  | nil =>
    have hnone : m.chmpxServers = none := h.head
    exact ⟨1, by simp only [insertServer, hnone], Nat.zero_le _⟩
  | cons s svrs =>
    have hs : m.chmpxServers = some s := h.head
    have hfirst : m.getFirstPtr (some s) = some s := h.lists.getFirstPtr_eq List.mem_cons_self
    exact ⟨m.chmpxServerCount + 1, by simp only [insertServer, hs, hfirst], Nat.le_succ_of_le hle⟩

/-- A node initialised from the free list goes into the server list. -/
theorem insertServer_initializing (type : ChmpxIdSeedType)
    (h : Initializing m svrs (p :: frees) rest)
    {k : Links Ptr} (hk : k.Chains (svrs :: frees :: [p] :: rest)) {c : Chmpx}
    (hserver : IsServer c) (hc : Idle c) :
    ∃ m', (insertServer type (some p) m.chmpxServers ((m.setLinks k).setChmpx p c)).2 = m' ∧
      Initializing m' (svrs.orderedInsert (After type m'.chmpx) p) frees rest ∧ SameSite m m' ∧
      m'.chmpx = Function.update m.chmpx p c := by
  have hfresh := fresh_of_popFront (m := m) c hk
  have hidle : ∀ q, Idle (((m.setLinks k).setChmpx p c).chmpx q) := idle_setChmpx h.idle hc
  cases svrs with
  | nil =>
    have hnone : m.chmpxServers = none := h.head
    obtain ⟨same, map, hsave⟩ := saveChmpxIdMap_eq ((m.setLinks k).setChmpx p c) p
    have hins : (insertServer type (some p) none ((m.setLinks k).setChmpx p c)).2 =
        (((m.setLinks k).setChmpx p c).setMap same map).setServers 1 (some p) := by
      simp only [insertServer, hsave]
    have hl : Lists (((((m.setLinks k).setChmpx p c).setMap same map).setServers 1
        (some p)).withFrees frees) [p] frees rest :=
      hfresh.lists h.lists hserver (List.Perm.refl _) hk.tail.swap rfl rfl rfl rfl (le_refl _)
    rw [hnone]
    exact ⟨_, hins, ⟨hl, rfl, hidle, h.bhashCount, map_inserted type none h hserver hins hl⟩,
      ⟨rfl, rfl, rfl, rfl⟩, rfl⟩
  | cons s svrs =>
    have hs : m.chmpxServers = some s := h.head
    have hlen : (s :: svrs).length < ((m.setLinks k).setChmpx p c).chmpxCount :=
      Fresh.length_lt (m := ((m.setLinks k).setChmpx p c).withFrees frees) h.lists hfresh
    obtain ⟨k', same, map, hins, hk'⟩ := insertServer_eq (m := (m.setLinks k).setChmpx p c) type
      List.mem_cons_self hk hlen
    have hrun := congrArg Prod.snd hins
    rw [hs]
    refine ⟨_, hrun, ?_, ⟨rfl, rfl, rfl, rfl⟩, rfl⟩
    suffices hl : Lists (withFrees _ frees) _ frees rest from
      ⟨hl, rfl, hidle, h.bhashCount, map_inserted type (some s) h hserver hrun hl⟩
    exact hfresh.lists h.lists hserver (List.perm_orderedInsert _ p _) hk' rfl rfl rfl rfl
      (Nat.succ_le_succ h.lists.serverCount)

/-- The records that the loop over configured servers makes. -/
def serverRecords (env : Env) (type : ChmpxIdSeedType) (group : CStr) (pars : List ChmpxParam) :
    List Chmpx :=
  pars.filterMap (Chmpx.initializeChmpx env type group .server)

/-- The loop over the configured servers keeps the lists, and keeps them sorted
when the servers are all different. -/
theorem initializeServers_spec (env : Env) (cfg : ChmCfgInfo) (pars : List ChmpxParam) :
    ∀ (m : ChmpxMan) (svrs frees : List Ptr), Initializing m svrs frees rest →
      (∀ par ∈ pars, Chmpx.refuses env m.group par.hostname = false) →
      ∃ m' svrs' frees', initializeServers env cfg pars frees.head? m = (frees'.head?, m') ∧
        Initializing m' svrs' frees' rest ∧ SameSite m m' ∧
        (OrderedWith cfg.chmpxidType m.chmpx svrs
            (serverRecords env cfg.chmpxidType m.group pars) →
          Ordered cfg.chmpxidType m'.chmpx svrs') := by
  induction pars with
  | nil => exact fun m svrs frees h _ => ⟨m, svrs, frees, rfl, h, SameSite.refl m, (·.ordered)⟩
  | cons par pars ih =>
    intro m svrs frees h hok
    have hpars : ∀ par ∈ pars, Chmpx.refuses env m.group par.hostname = false :=
      fun par hp => hok par (List.mem_cons_of_mem _ hp)
    obtain ⟨c, hinit, hserver⟩ := initializeChmpx_server cfg.chmpxidType
      (hok par List.mem_cons_self)
    have hrec : serverRecords env cfg.chmpxidType m.group (par :: pars) =
        c :: serverRecords env cfg.chmpxidType m.group pars := List.filterMap_cons_some hinit
    rw [hrec]
    rcases popFront_spec h.lists with ⟨rfl, hpop⟩ | ⟨f, fs, k, rfl, hpop, hk⟩
    · obtain ⟨n, hins, hn⟩ := insertServer_none cfg.chmpxidType h
      obtain ⟨m', svrs', frees', hrun, h', hsite, hord⟩ := ih (m.setServers n m.chmpxServers) svrs
        []
        ⟨⟨h.lists.1, h.lists.2, h.lists.3, h.lists.4, hn, h.lists.6, h.lists.7⟩, h.head,
          h.idle, h.bhashCount, h.map.imp fun _ hm => hm.congr rfl rfl rfl rfl rfl⟩ hpars
      refine ⟨m', svrs', frees', ?_, h', ⟨hsite.1, hsite.2, hsite.3, hsite.4⟩,
        fun ho => hord ho.tail⟩
      rw [initializeServers, hpop]
      simp only [initializeNode, initializeAt, hins]
      exact hrun
    · obtain ⟨m₁, hins, h₁, hsite₁, hchm⟩ := insertServer_initializing cfg.chmpxidType h hk hserver
        (idle_initializeChmpx hinit)
      obtain ⟨m', svrs', frees', hrun, h', hsite, hord⟩ := ih m₁ _ fs h₁ (hsite₁.group ▸ hpars)
      have hf : f ∉ svrs := fun hf => hk.disjoint_head hf (by simp)
      refine ⟨m', svrs', frees', ?_, h', hsite₁.trans hsite, fun ho => hord ?_⟩
      swap
      · rw [hsite₁.group, hchm]
        exact ho.insert hf
      rw [initializeServers, hpop]
      have hgroup : (m.setLinks k).group = m.group := rfl
      have hservers : ((m.setLinks k).setChmpx f c).chmpxServers = m.chmpxServers := rfl
      simp only [initializeNode, initializeAt, hgroup, hinit, hservers, hins]
      exact hrun

/-- The servers that `Initialize` makes: this node in server mode and the configured
ones. -/
def configParams (cfg : ChmCfgInfo) : List ChmpxParam :=
  if cfg.isServerMode then selfParam cfg :: serverParams cfg else serverParams cfg

/-- The servers of the configuration have different order keys and chmpxids. -/
def ConfigOrdered (env : Env) (cfg : ChmCfgInfo) : Prop :=
  (serverRecords env cfg.chmpxidType cfg.groupname (configParams cfg)).Pairwise fun c d =>
    c.orderKey cfg.chmpxidType ≠ d.orderKey cfg.chmpxidType ∧ c.chmpxid ≠ d.chmpxid

theorem freshArea_map (cfg : ChmCfgInfo) (frees : List Ptr) :
    MapOk ((freshArea cfg).withFrees frees) fun _ => [] where
  path _ := rfl
  nodup _ := List.nodup_nil
  valid _ _ hp := absurd hp List.not_mem_nil
  slot _ _ hp := absurd hp List.not_mem_nil
  bound _ _ hp := absurd hp List.not_mem_nil
  lone _ _ := rfl
  server _ hp := by cases hp
  free _ _ := rfl

/-- This node itself goes into its bucket, when it has a chmpxid. -/
theorem map_self {cfg : ChmCfgInfo} {f : Ptr} {fs : List Ptr} {k : Links Ptr} {c : Chmpx}
    (n : Nat) (head : Option Ptr)
    (hl : Lists ((freshArea cfg).withFrees (f :: fs)) [] (f :: fs) [])
    (hc : c = Chmpx.cleared ∨ c.chmpxid ≠ chmInvalidChmpxId)
    (hsave : ((((freshArea cfg).setLinks k).setChmpx f c).setServers n head).saveChmpxIdMap f = m)
    (hl' : Lists ((m.setSelf (some f)).withFrees fs) svrs fs rest) :
    ∃ chain, MapOk ((m.setSelf (some f)).withFrees fs) chain := by
  have hmap := freshArea_map cfg (f :: fs)
  have hfree : ((m.setSelf (some f)).withFrees fs).freeNodes = fs := hl'.freeNodes_eq
  have hnd : (f :: fs).Nodup := hl.chains.tail.nodup_head
  have hm : Mapped ((((freshArea cfg).setLinks k).setChmpx f c).setServers n head) fun _ => [] :=
    ((hmap.toMapped.setChmpx (fun _ => List.not_mem_nil) c).congr rfl rfl rfl fun _ _ _ => rfl)
  have hf : ((((freshArea cfg).setLinks k).setChmpx f c).setServers n head).chmpx f = c := by
    show (((freshArea cfg).setLinks k).setChmpx f c).chmpx f = c
    rw [chmpx_setChmpx, if_pos rfl]
  by_cases hid : c.chmpxid = chmInvalidChmpxId
  · obtain rfl := hc.resolve_right (not_not.mpr hid)
    rw [saveChmpxIdMap_invalid (by rw [hf]; exact hid)] at hsave
    have hchm : (m.setSelf (some f)).chmpx = (freshArea cfg).chmpx := by
      rw [← hsave]
      exact Function.update_eq_self f _
    have hm' : Mapped ((m.setSelf (some f)).withFrees fs) fun _ => [] := by
      rw [← hsave]
      exact hm.congr rfl rfl rfl fun _ _ _ => rfl
    refine ⟨_, hm', fun p hp => ?_, fun p _ => ?_⟩
    · have hp' : ((m.setSelf (some f)).chmpx p).isServerMode = true := hp
      rw [hchm] at hp'
      cases hp'
    · show ((m.setSelf (some f)).chmpx p).chmpxid = chmInvalidChmpxId
      rw [hchm]
      rfl
  · have hmapped := hm.save (fun _ => List.not_mem_nil) (by rw [hf]; exact hid)
      (hl.bound f (by simp))
    obtain ⟨same, map, he⟩ :=
      saveChmpxIdMap_eq ((((freshArea cfg).setLinks k).setChmpx f c).setServers n head) f
    rw [hf, hsave] at hmapped
    have hm' : Mapped ((m.setSelf (some f)).withFrees fs) _ :=
      hmapped.congr rfl rfl rfl fun _ _ _ => rfl
    rw [hsave] at he
    obtain ⟨chain', hok, -⟩ := hmap.insert rfl hm' (by rw [he]; rfl) fun q hq => by
      rw [hfree] at hq
      rw [hl.freeNodes_eq]
      exact ⟨List.mem_cons_of_mem _ hq, fun heq => (List.nodup_cons.mp hnd).1 (heq ▸ hq)⟩
    exact ⟨chain', hok⟩

/-- This node itself: a server alone in the server list, or a node outside it. -/
theorem initializeSelf_spec (env : Env) (cfg : ChmCfgInfo) (hok : ConfigAllowed env cfg) :
    ∃ m svrs frees rest, initializeSelf env cfg
        (if 0 < cfg.maxChmpxCount then some 0 else none) (freshArea cfg) = (frees.head?, m) ∧
      Initializing m svrs frees rest ∧ m.group = cfg.groupname ∧
      m.chmpxCount = cfg.maxChmpxCount ∧
      (ConfigOrdered env cfg → OrderedWith cfg.chmpxidType m.chmpx svrs
        (serverRecords env cfg.chmpxidType cfg.groupname (serverParams cfg))) := by
  have hl := freshArea_lists cfg
  have hidle : ∀ q, Idle ((freshArea cfg).chmpx q) := fun _ => idle_cleared
  have hhead : (if 0 < cfg.maxChmpxCount then some 0 else none) =
      (List.range cfg.maxChmpxCount).head? := by
    cases cfg.maxChmpxCount with
    | zero => rfl
    | succ n => rw [List.range_succ_eq_map]; rfl
  rw [hhead]
  generalize List.range cfg.maxChmpxCount = frees at hl
  rcases popFront_spec hl with ⟨rfl, hpop⟩ | ⟨f, fs, k, rfl, hpop, hk⟩
  · -- An area without nodes: there is no node for this process either.
    have hord : ConfigOrdered env cfg → ∀ f, OrderedWith cfg.chmpxidType f []
        (serverRecords env cfg.chmpxidType cfg.groupname (serverParams cfg)) := by
      intro h f
      rw [ConfigOrdered, configParams] at h
      split at h
      · exact OrderedWith.nil f
          (h.sublist ((List.sublist_cons_self _ _).filterMap _))
      · exact OrderedWith.nil f h
    have hmap : ∀ m : ChmpxMan, m.chmpx = (freshArea cfg).chmpx → m.same = (freshArea cfg).same →
        m.chmpxidMap = (freshArea cfg).chmpxidMap → m.chmpxCount = (freshArea cfg).chmpxCount →
        m.links = (freshArea cfg).links → ∃ chain, MapOk (m.withFrees []) chain := by
      intro m hchm hsame hmap harea hlinks
      refine ⟨_, (freshArea_map cfg []).congr hsame hmap harea hchm ?_⟩
      show m.links.walk m.chmpxCount none = _
      rw [hlinks, harea]
      rfl
    refine ⟨_, [], [], [], rfl, ⟨?_, ?_, ?_, ?_, ?_⟩, ?_, ?_, fun h => hord h _⟩ <;>
      simp only [initializeNode, initializeAt] <;> split
    · exact ⟨hl.1, hl.2, hl.3, hl.4, Nat.zero_le _, hl.6, hl.7⟩
    · exact hl
    · rfl
    · rfl
    · exact hidle
    · exact hidle
    · rfl
    · rfl
    · exact hmap _ rfl rfl rfl rfl rfl
    · exact hmap _ rfl rfl rfl rfl rfl
    all_goals rfl
  · cases hserver : cfg.isServerMode with
    | true =>
      obtain ⟨c, hinit, hc⟩ := initializeChmpx_server cfg.chmpxidType (hok.1 hserver)
      have hfresh := fresh_of_popFront (m := freshArea cfg) c hk
      have hgroup : ((freshArea cfg).setLinks k).group = cfg.groupname := rfl
      obtain ⟨same, map, hsave⟩ := saveChmpxIdMap_eq
        ((((freshArea cfg).setLinks k).setChmpx f c).setServers 1 (some f)) f
      refine ⟨(((((freshArea cfg).setLinks k).setChmpx f c).setServers 1 (some f)).setMap same
        map).setSelf (some f), [f], fs, [], ?_, ?_, rfl, rfl, fun h => ?_⟩
      · simp only [initializeSelf, hpop, hserver, if_true, initializeNode, initializeAt, hgroup,
          hinit, hsave]
      · have hlists : Lists (((((((freshArea cfg).setLinks k).setChmpx f c).setServers 1
            (some f)).setMap same map).setSelf (some f)).withFrees fs) [f] fs [] :=
          hfresh.lists hl hc (List.Perm.refl _) hk.tail.swap rfl rfl rfl rfl (le_refl _)
        exact ⟨hlists, rfl, idle_setChmpx hidle (idle_initializeChmpx hinit), rfl,
          map_self 1 (some f) hl (Or.inr hc.valid) hsave hlists⟩
      · rw [ConfigOrdered, configParams, if_pos hserver, serverRecords,
          List.filterMap_cons_some hinit] at h
        exact (OrderedWith.nil _ h).insert List.not_mem_nil
    | false =>
      obtain ⟨c, hc, hmode, hid, hnode⟩ : ∃ c, Idle c ∧ c.isServerMode = false ∧
          (c = Chmpx.cleared ∨ c.chmpxid ≠ chmInvalidChmpxId) ∧
          ((freshArea cfg).setLinks k).initializeNode env cfg .slave (selfParam cfg) (some f) =
            ((freshArea cfg).setLinks k).setChmpx f c := by
        cases hinit : Chmpx.initializeChmpx env cfg.chmpxidType cfg.groupname .slave
            (selfParam cfg) with
        | none =>
          refine ⟨Chmpx.cleared, idle_cleared, rfl, Or.inl rfl, ?_⟩
          have hgroup : ((freshArea cfg).setLinks k).group = cfg.groupname := rfl
          simp only [initializeNode, initializeAt, hgroup, hinit]
          exact (setChmpx_chmpx ((freshArea cfg).setLinks k) f).symm
        | some c =>
          refine ⟨c, idle_initializeChmpx hinit, ?_, ?_, ?_⟩
          · rw [Chmpx.initializeChmpx] at hinit
            split at hinit
            · cases hinit
            · cases hinit
              rfl
          · rw [Chmpx.initializeChmpx] at hinit
            split at hinit
            · cases hinit
            · cases hinit
              exact Or.inr (makeChmpxId_ne_invalid _ _ _ _ _ _ _ _)
          · have hgroup : ((freshArea cfg).setLinks k).group = cfg.groupname := rfl
            simp only [initializeNode, initializeAt, hgroup, hinit]
      obtain ⟨same, map, hsave⟩ := saveChmpxIdMap_eq (((freshArea cfg).setLinks k).setChmpx f c) f
      have hlists : Lists ((((((freshArea cfg).setLinks k).setChmpx f c).setMap same map).setSelf
          (some f)).withFrees fs) [] fs [[f]] := by
        refine ⟨hk, fun q hq => hl.bound q ?_, rfl, rfl, Nat.zero_le _, fun q hq => ?_,
          fun q hq => absurd hq List.not_mem_nil⟩
        · simpa [or_comm] using hq
        · have hq' : ((((freshArea cfg).setLinks k).setChmpx f c).chmpx q).isServerMode = true := hq
          rw [chmpx_setChmpx] at hq'
          split at hq'
          · rw [hmode] at hq'
            cases hq'
          · cases hq'
      refine ⟨((((freshArea cfg).setLinks k).setChmpx f c).setMap same map).setSelf (some f), [],
        fs, [[f]], ?_, ⟨hlists, rfl, idle_setChmpx hidle hc, rfl, ?_⟩, rfl, rfl, fun h => ?_⟩
      · simp only [initializeSelf, hpop, hserver, Bool.false_eq_true, if_false, hnode, hsave]
      · exact map_self 0 none hl hid hsave hlists
      · rw [ConfigOrdered, configParams, hserver, if_neg Bool.false_ne_true] at h
        exact OrderedWith.nil _ h

/-- The free list that is left goes from its cursor into the manager. -/
theorem storeFrees_eq (h : Lists (m.withFrees frees) svrs frees rest) :
    m.setFrees (m.nodes frees.head?).length (m.getFirstPtr frees.head?) = m.withFrees frees := by
  cases frees with
  | nil => rfl
  | cons f fs =>
    have hchains : m.links.Chains ((f :: fs) :: svrs :: rest) := h.chains.swap
    have hlen : (f :: fs).length ≤ m.chmpxCount :=
      h.length_le (List.mem_cons_of_mem _ List.mem_cons_self)
    have hfirst : some (m.first f) = some f := hchains.first List.mem_cons_self hlen
    have hnodes : m.nodes (some f) = f :: fs := by
      rw [nodes, nodesFrom, hfirst]
      exact hchains.walk hlen
    rw [List.head?_cons, hnodes]
    show m.setFrees _ (some (m.first f)) = _
    rw [hfirst]
    rfl

/-- A manager that `Initialize` has set up is well formed, its tables agree, as no
server is in a ring, its chmpxid map holds its servers, and its server list is
sorted if the configured servers are different. -/
theorem initialized_spec {cfg : ChmCfgInfo} (h : initialized env cfg = some m)
    (hok : ConfigAllowed env cfg) : WellFormed m ∧ HashesAgree m ∧ (∃ chain, MapOk m chain) ∧
      (ConfigOrdered env cfg → Ordered cfg.chmpxidType m.chmpx (m.nodes m.chmpxServers)) := by
  rw [initialized] at h
  split at h
  · cases h
  · rename_i hlimits
    obtain ⟨m₁, svrs₁, frees₁, rest, hself, h₁, hgroup, harea, hwith⟩ :=
      initializeSelf_spec env cfg hok
    obtain ⟨m₂, svrs₂, frees₂, hrun, h₂, hsite, hord⟩ := initializeServers_spec env cfg
      (serverParams cfg) m₁ svrs₁ frees₁ h₁ (hgroup ▸ hok.2)
    rw [hself] at h
    dsimp only at h
    rw [hrun] at h
    dsimp only at h
    rw [storeFrees_eq h₂.lists] at h
    have hm : m₂.withFrees frees₂ = m := Option.some.inj h
    have hformed : Formed (m₂.withFrees frees₂) svrs₂ frees₂ rest := by
      refine ⟨h₂.lists, h₂.head, ?_⟩
      show m₂.chmpxCount ≤ _
      rw [hsite.chmpxCount, harea]
      omega
    have hmem : ∀ r : Ring, r.members (m₂.withFrees frees₂) svrs₂ = [] := fun r =>
      List.filter_eq_nil_iff.mpr fun p _ => by
        have hp : r.member ((m₂.withFrees frees₂).chmpx p).status = false := (h₂.idle p r).1
        rw [hp]
        exact Bool.false_ne_true
    rw [← hm]
    refine ⟨⟨svrs₂, frees₂, rest, hformed⟩, ⟨fun r => ⟨?_, ?_, ?_⟩, ?_⟩, h₂.map, fun hcfg => ?_⟩
    · rw [hformed.nodes, hmem]
      rfl
    · rw [hformed.nodes, hmem]
      exact fun i hi => absurd hi (Nat.not_lt_zero i)
    · exact fun p _ _ => (h₂.idle p r).2
    · rw [hformed.nodes, hmem]
      exact h₂.bhashCount
    · rw [hformed.nodes]
      exact hord (hgroup ▸ hwith hcfg)

end ChmpxMan
end Chm
