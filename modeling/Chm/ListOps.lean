/-
What the list primitives do to the lists of the area: taking a node from the free
list, putting it into the server list in order, and giving a server back.
-/
import Mathlib.Data.List.Sort
import Chm.ServerList

namespace Chm

/-- Where a search for the first greater element stops is where an ordered
insertion puts the new one. -/
theorem orderedInsert_of_find? {α : Type*} (r : α → α → Prop) [DecidableRel r] (a q : α)
    {l : List α} (h : l.find? (fun b => r a b) = some q) :
    ∃ l₁ l₂, l = l₁ ++ q :: l₂ ∧ l.orderedInsert r a = l₁ ++ a :: q :: l₂ := by
  induction l with
  | nil => cases h
  | cons b l ih =>
    by_cases hb : r a b
    · obtain rfl : b = q := by simpa [List.find?_cons, hb] using h
      exact ⟨[], l, rfl, List.orderedInsert_cons_of_le r l hb⟩
    · obtain ⟨l₁, l₂, hl, ho⟩ := ih (by simpa [List.find?_cons, hb] using h)
      exact ⟨b :: l₁, l₂, by rw [hl]; rfl, by rw [List.orderedInsert_of_not_le r l hb, ho]; rfl⟩

theorem orderedInsert_of_find?_none {α : Type*} (r : α → α → Prop) [DecidableRel r] (a : α)
    {l : List α} (h : l.find? (fun b => r a b) = none) : l.orderedInsert r a = l ++ [a] := by
  induction l with
  | nil => rfl
  | cons b l ih =>
    obtain ⟨hb, hl⟩ : ¬ r a b ∧ l.find? (fun b => r a b) = none := by
      by_cases hb : r a b <;> simp_all
    rw [List.orderedInsert_of_not_le r l hb, ih hl, List.cons_append]

namespace ChmpxMan

variable {m m' : ChmpxMan} {svrs frees : List Ptr} {rest : List (List Ptr)} {p : Ptr}

/-! ## The chmpxid map is no list's business -/

theorem linkBucket_eq (m : ChmpxMan) (chmpxid : ChmpxId) (before : List Ptr) (q : Option Ptr) :
    ∃ same map, m.linkBucket chmpxid before q = m.setMap same map := by
  rw [linkBucket]
  split
  · exact ⟨m.same, _, rfl⟩
  · exact ⟨_, m.chmpxidMap, rfl⟩

theorem saveChmpxIdMap_eq (m : ChmpxMan) (p : Ptr) :
    ∃ same map, m.saveChmpxIdMap p = m.setMap same map := by
  simp only [saveChmpxIdMap]
  split
  · exact ⟨m.same, m.chmpxidMap, rfl⟩
  · obtain ⟨same, map, he⟩ := linkBucket_eq m (m.chmpx p).chmpxid
      (m.bucket (m.chmpx p).chmpxid) (some p)
    rw [he]
    split <;> split
    · exact ⟨m.same, m.chmpxidMap, rfl⟩
    · exact ⟨_, m.chmpxidMap, rfl⟩
    · exact ⟨same, map, rfl⟩
    · exact ⟨_, map, rfl⟩

theorem retrieveChmpxIdMap_eq (m : ChmpxMan) (p : Ptr) :
    ∃ same map, m.retrieveChmpxIdMap p = m.setMap same map := by
  simp only [retrieveChmpxIdMap]
  split
  · exact ⟨_, m.chmpxidMap, rfl⟩
  · obtain ⟨same, map, he⟩ := linkBucket_eq m (m.chmpx p).chmpxid
      ((m.bucket (m.chmpx p).chmpxid).takeWhile (· ≠ p)) (m.same p)
    rw [he]
    exact ⟨_, map, rfl⟩

/-- `Clear` of a node that is in no list changes its record, the map and the
socket counters. -/
theorem clear_eq (m : ChmpxMan) (eqfd : Bool) (p : Ptr) (hp : m.links.prev p = none)
    (hn : m.links.next p = none) :
    ∃ same map count length, m.clear eqfd p =
      ((m.setMap same map).setSocks count length).setChmpx p Chmpx.cleared := by
  obtain ⟨same, map, he⟩ := retrieveChmpxIdMap_eq m p
  have hl := Links.clear_of_none hp hn
  have hs : (m.setMap same map).setLinks ((m.links.setPrev p none).setNext p none) =
      m.setMap same map := by
    rw [hl]
    rfl
  let socks := if eqfd then (m.chmpx p).socklist.length else 0
  refine ⟨same, map, m.sockFreeCount + socks, m.sockFrees + socks, ?_⟩
  rw [clear, he]
  show ((((m.setMap same map).setLinks ((m.links.setPrev p none).setNext p none)).setSocks
    (m.sockFreeCount + socks) (m.sockFrees + socks)).setChmpx p Chmpx.cleared) = _
  rw [hs]

theorem clear_form (m : ChmpxMan) (eqfd : Bool) (p : Ptr) :
    (m.clear eqfd p).chmpx = Function.update m.chmpx p .cleared ∧
      (m.clear eqfd p).group = m.group := by
  obtain ⟨same, map, he⟩ := retrieveChmpxIdMap_eq m p
  unfold clear
  rw [he]
  exact ⟨rfl, rfl⟩

theorem popAny_form (m : ChmpxMan) (cur : Cursor) :
    (m.popAny cur).2.2.chmpx = m.chmpx ∧ (m.popAny cur).2.2.group = m.group := by
  cases cur with
  | none => exact ⟨rfl, rfl⟩
  | some cur =>
    unfold popAny
    dsimp only
    split <;> exact ⟨rfl, rfl⟩

/-! ## The order of insertion -/

/-- `q` comes after `p` in the list order: `compare_order` of `q` with `p` finds
`p` smaller. -/
def After (type : ChmpxIdSeedType) (f : Ptr → Chmpx) (p q : Ptr) : Prop :=
  0 > (f q).compareOrder type (f p)

instance (type : ChmpxIdSeedType) (f : Ptr → Chmpx) : DecidableRel (After type f) :=
  fun p q => inferInstanceAs (Decidable (0 > (f q).compareOrder type (f p)))

/-! ## Taking a node from the free list -/

/-- `PopAny` from the head of a non-empty free list. -/
theorem popAny_spec {f : Ptr} {fs : List Ptr} (h : m.links.Chains (svrs :: (f :: fs) :: rest))
    (hlen : (f :: fs).length ≤ m.chmpxCount) :
    ∃ p frees' cur k, m.popAny (some f) = (some p, cur, m.setLinks k) ∧
      (f :: fs).Perm (p :: frees') ∧ k.Chains (svrs :: frees' :: [p] :: rest) ∧
      (m.setLinks k).getFirstPtr cur = frees'.head? := by
  have h' : m.links.Chains ((f :: fs) :: svrs :: rest) := h.swap
  have hperm : ∀ (a b c : List Ptr), (a :: b :: c :: rest).Perm (c :: a :: b :: rest) := by
    intro a b c
    show ([a, b] ++ c :: rest).Perm (c :: ([a, b] ++ rest))
    exact List.perm_middle
  cases fs with
  | nil =>
    have hn : m.links.next f = none := Links.Chains.next_of_cons h'
    have hp : m.links.prev f = none := Links.Chains.prev_of_cons h'
    refine ⟨f, [], none, m.links.unlink f, ?_, List.Perm.refl _, ?_, rfl⟩
    · simp only [popAny, hn, hp, Links.unlink]
      rfl
    · have hu := Links.Chains.unlink_of_cons h'
      exact hu.perm (hperm [] [f] svrs)
  | cons g gs =>
    have hn : m.links.next f = some g := Links.Chains.next_of_cons h'
    have hfg : m.links.Chains (([f] ++ g :: gs) :: svrs :: rest) := h'
    have hp : m.links.prev g = some f := hfg.prev_of_split
    have hu : (m.links.unlink g).Chains ((f :: gs) :: [g] :: svrs :: rest) :=
      hfg.unlink
    refine ⟨g, f :: gs, some f, m.links.unlink g, ?_, List.Perm.swap g f gs, ?_, ?_⟩
    · simp only [popAny, hn, hp, Links.unlink]
      rfl
    · exact hu.perm (hperm (f :: gs) [g] svrs)
    · have hlen' : (f :: gs).length ≤ m.chmpxCount := by
        simp only [List.length_cons] at hlen ⊢
        omega
      exact hu.first List.mem_cons_self hlen'

/-- What one merged record does to the members that the lists depend on is said
against these, which stay. -/
structure SameSite (m m' : ChmpxMan) : Prop where
  group : m'.group = m.group
  replicaCount : m'.replicaCount = m.replicaCount
  chmpxCount : m'.chmpxCount = m.chmpxCount
  chmpxSelf : m'.chmpxSelf = m.chmpxSelf

theorem SameSite.refl (m : ChmpxMan) : SameSite m m := ⟨rfl, rfl, rfl, rfl⟩

theorem SameSite.trans {m₁ m₂ m₃ : ChmpxMan} (h : SameSite m₁ m₂) (h' : SameSite m₂ m₃) :
    SameSite m₁ m₃ :=
  ⟨h'.group.trans h.group, h'.replicaCount.trans h.replicaCount,
    h'.chmpxCount.trans h.chmpxCount, h'.chmpxSelf.trans h.chmpxSelf⟩

theorem SameShape.site (h : SameShape m m') : SameSite m m' :=
  ⟨h.group, h.replicaCount, h.chmpxCount, h.chmpxSelf⟩

theorem writeBase_eq (m : ChmpxMan) (p : Ptr) (hash : ChmHash) :
    ∃ base pend, m.writeBase p hash = m.setSrvs base pend := by
  rw [writeBase]
  split
  · exact ⟨m.chmpxBaseSrvs, m.chmpxPendSrvs, rfl⟩
  · exact ⟨_, _, rfl⟩

theorem writePend_eq (m : ChmpxMan) (p : Ptr) (hash : ChmHash) :
    ∃ base pend, m.writePend p hash = m.setSrvs base pend := by
  rw [writePend]
  split
  · exact ⟨m.chmpxBaseSrvs, m.chmpxPendSrvs, rfl⟩
  · exact ⟨_, _, rfl⟩

theorem initializeServer_eq (env : Env) (type : ChmpxIdSeedType) (svr : ChmpxSvr) (p : Ptr)
    (m : ChmpxMan) :
    ∃ base pend, m.initializeServer env type svr p =
      (m.setChmpx p (Chmpx.initializeServer env type m.group svr (m.chmpx p)).2).setSrvs
        base pend := by
  simp only [initializeServer]
  split
  · obtain ⟨base, pend, hb⟩ := writeBase_eq (m.setChmpx p
      (Chmpx.initializeServer env type m.group svr (m.chmpx p)).2) p
      (Chmpx.initializeServer env type m.group svr (m.chmpx p)).2.baseHash
    rw [hb]
    obtain ⟨base', pend', hp⟩ := writePend_eq ((m.setChmpx p
      (Chmpx.initializeServer env type m.group svr (m.chmpx p)).2).setSrvs base pend) p
      (Chmpx.initializeServer env type m.group svr (m.chmpx p)).2.pendingHash
    rw [hp]
    exact ⟨base', pend', rfl⟩
  · exact ⟨m.chmpxBaseSrvs, m.chmpxPendSrvs, rfl⟩

/-- A node `p` has been taken from the free list, holds `c`, and is in no list. -/
structure Fresh (m m' : ChmpxMan) (svrs frees frees' : List Ptr) (rest : List (List Ptr))
    (p : Ptr) (c : Chmpx) : Prop where
  perm : frees.Perm (p :: frees')
  chains : m'.links.Chains (svrs :: frees' :: [p] :: rest)
  chmpx : m'.chmpx = Function.update m.chmpx p c
  site : SameSite m m'
  servers : m'.chmpxServers = m.chmpxServers
  serverCount : m'.chmpxServerCount = m.chmpxServerCount
  frees_head : m'.chmpxFrees = frees'.head?
  freeCount : m'.chmpxFreeCount = frees'.length

/-- The node that `newServer` takes holds what `InitializeServer` makes of a
cleared record. -/
theorem newServer_spec (env : Env) (args : MergeArgs) (svr : ChmpxSvr)
    (h : Lists m svrs frees rest) (hf : m.chmpxFreeCount ≠ 0) :
    ∃ p frees' m', newServer env args svr m = (some p, m') ∧
      Fresh m m' svrs frees frees' rest p
        (Chmpx.initializeServer env args.type m.group svr Chmpx.cleared).2 := by
  cases frees with
  | nil => exact absurd h.freeCount hf
  | cons f fs =>
    have hfl : (f :: fs).length ≤ m.chmpxCount :=
      h.length_le (List.mem_cons_of_mem _ List.mem_cons_self)
    obtain ⟨p, frees', cur, k, hpop, hperm, hk, hfirst⟩ := popAny_spec h.chains hfl
    have hfr : m.chmpxFrees = some f := h.frees_head
    have hk' : k.Chains ([p] :: svrs :: frees' :: rest) :=
      hk.perm (show ([svrs, frees'] ++ [p] :: rest).Perm _ from List.perm_middle)
    have hp : k.prev p = none := Links.Chains.prev_of_cons hk'
    have hn : k.next p = none := Links.Chains.next_of_cons hk'
    let m₁ := (m.setLinks k).setFrees (m.chmpxFreeCount - 1) ((m.setLinks k).getFirstPtr cur)
    obtain ⟨same, map, cnt, len, hc⟩ := clear_eq m₁ false p hp hn
    obtain ⟨base, pend, hi⟩ := initializeServer_eq env args.type svr p (m₁.clear false p)
    have hnew : newServer env args svr m =
        (some p, (m₁.clear false p).initializeServer env args.type svr p) := by
      rw [newServer, hfr, hpop]
      rfl
    refine ⟨p, frees', _, hnew, ?_⟩
    rw [hi, hc]
    refine ⟨hperm, hk, ?_, ⟨rfl, rfl, rfl, rfl⟩, rfl, rfl, hfirst, ?_⟩
    · show Function.update (Function.update m.chmpx p Chmpx.cleared) p (Chmpx.initializeServer env
        args.type m.group svr (Function.update m.chmpx p Chmpx.cleared p)).2 = _
      rw [Function.update_self, Function.update_idem]
    · have hlen := hperm.length_eq
      simp only [List.length_cons] at hlen
      show m.chmpxFreeCount - 1 = _
      rw [h.freeCount, List.length_cons]
      omega

/-! ## Putting a server in -/

/-- `Insert` links the new node where an ordered insertion puts it. -/
theorem insert_spec (type : ChmpxIdSeedType) {c : Ptr} {frees' : List Ptr} (hc : c ∈ svrs)
    (hk : m.links.Chains (svrs :: frees' :: [p] :: rest)) (hlen : svrs.length < m.chmpxCount) :
    ∃ cur k same map, m.insert type c p =
        (cur, (m.setLinks k).setMap same map) ∧
      k.Chains ((svrs.orderedInsert (After type m.chmpx) p) :: frees' :: rest) ∧
      ((m.setLinks k).setMap same map).getFirstPtr cur =
        (svrs.orderedInsert (After type m.chmpx) p).head? := by
  have hk' : m.links.Chains (svrs :: [p] :: frees' :: rest) :=
    hk.perm ((List.Perm.swap _ _ _).cons _)
  have hfirst : some (m.first c) = svrs.head? := hk.first hc hlen.le
  have hnodes : m.nodesFrom (m.first c) = svrs := by
    rw [nodesFrom, hfirst]
    exact hk.walk hlen.le
  have hhead : ∀ {k' : Links Ptr} {l : List Ptr} {q : Ptr} {cs : List (List Ptr)},
      k'.Chains (l :: cs) → q ∈ l → l.length ≤ m.chmpxCount →
      some (k'.first m.chmpxCount q) = l.head? := fun hk' hq hl => hk'.first hq hl
  have hperm := List.perm_orderedInsert (After type m.chmpx) p svrs
  have hlen' : (svrs.orderedInsert (After type m.chmpx) p).length ≤ m.chmpxCount := by
    rw [hperm.length_eq]
    exact hlen
  simp only [insert, hnodes]
  split
  · rename_i q hq
    obtain ⟨l₁, l₂, hl, ho⟩ := orderedInsert_of_find? (After type m.chmpx) p q hq
    obtain ⟨same, map, hs⟩ :=
      saveChmpxIdMap_eq (m.setLinks (m.links.linkBefore q p)) p
    have hins : (m.links.linkBefore q p).Chains
        ((svrs.orderedInsert (After type m.chmpx) p) :: frees' :: rest) := by
      rw [ho]
      subst hl
      exact hk'.linkBefore
    refine ⟨some (m.first c), _, same, map, by rw [hs], hins, ?_⟩
    have hmem : m.first c ∈ svrs := List.mem_of_head? hfirst.symm
    exact hhead hins (hperm.mem_iff.mpr (List.mem_cons_of_mem _ hmem)) hlen'
  · rename_i hnone
    have ho := orderedInsert_of_find?_none (After type m.chmpx) p hnone
    have hlast : (some (m.first c)).bind (fun q => (m.nodesFrom q).getLast?) =
        svrs.getLast? := by rw [Option.bind_some, hnodes]
    simp only [pushBack, hlast]
    obtain ⟨same, map, hs⟩ :=
      saveChmpxIdMap_eq (m.setLinks (m.links.linkLast svrs.getLast? p)) p
    have hins : (m.links.linkLast svrs.getLast? p).Chains
        ((svrs.orderedInsert (After type m.chmpx) p) :: frees' :: rest) := by
      rw [ho]
      exact hk'.linkLast
    refine ⟨some p, _, same, map, by rw [hs], hins, ?_⟩
    exact hhead hins (hperm.mem_iff.mpr List.mem_cons_self) hlen'

/-- A host name that `Initialize` accepts makes a named node of the mode asked
for. -/
theorem initializeChmpx_spec {env : Env} {group : CStr} {par : ChmpxParam}
    (type : ChmpxIdSeedType) (mode : ChmpxMode)
    (h : Chmpx.refuses env group par.hostname = false) :
    ∃ c, Chmpx.initializeChmpx env type group mode par = some c ∧ c.mode = mode ∧
      c.name = Chmpx.expandHostname env par.hostname ∧ c.name.isEmpty = false ∧
      c.chmpxid ≠ chmInvalidChmpxId := by
  have hname : (Chmpx.expandHostname env par.hostname).isEmpty = false := by
    simp only [Chmpx.refuses, Bool.or_eq_false_iff] at h
    exact h.2
  refine ⟨_, by rw [Chmpx.initializeChmpx, if_neg (by simp [h])], rfl, rfl, hname, ?_⟩
  exact makeChmpxId_ne_invalid _ _ _ _ _ _ _ _

theorem initializeChmpx_server {env : Env} {group : CStr} {par : ChmpxParam}
    (type : ChmpxIdSeedType) (h : Chmpx.refuses env group par.hostname = false) :
    ∃ c, Chmpx.initializeChmpx env type group .server par = some c ∧ IsServer c := by
  obtain ⟨c, hinit, hmode, -, hname, hid⟩ := initializeChmpx_spec type .server h
  exact ⟨c, hinit, by rw [Chmpx.isServerMode, hmode]; rfl, hname, hid⟩

/-- A record whose host name `Initialize` accepts makes a server. -/
theorem initializeServer_isServer {env : Env} (type : ChmpxIdSeedType) {group : CStr}
    {svr : ChmpxSvr} (h : Chmpx.refuses env group svr.name = false) (c : Chmpx) :
    IsServer (Chmpx.initializeServer env type group svr c).2 := by
  obtain ⟨c', hinit, hserver⟩ := @initializeChmpx_server env group svr.param type h
  rw [Chmpx.initializeServer, hinit]
  dsimp only
  split
  · exact hserver
  · exact ⟨hserver.mode, hserver.named, hserver.valid⟩

namespace Fresh

variable {m₀ : ChmpxMan} {frees' l : List Ptr} {new : Chmpx}

theorem chmpx_eq (hf : Fresh m₀ m svrs frees frees' rest p new) (q : Ptr) :
    m.chmpx q = if q = p then new else m₀.chmpx q := by
  rw [hf.chmpx, Function.update_apply]

theorem perm_flatten (hf : Fresh m₀ m svrs frees frees' rest p new) (hl : l.Perm (p :: svrs)) :
    (l :: frees' :: rest).flatten.Perm (svrs :: frees :: rest).flatten := by
  have h₁ : (l ++ (frees' ++ rest.flatten)).Perm ((p :: svrs) ++ (frees' ++ rest.flatten)) :=
    hl.append_right _
  have h₂ : ((p :: svrs) ++ (frees' ++ rest.flatten)).Perm
      (svrs ++ (p :: frees' ++ rest.flatten)) := by
    simpa using (show (svrs ++ p :: (frees' ++ rest.flatten)).Perm _ from List.perm_middle).symm
  have h₃ : (svrs ++ (p :: frees' ++ rest.flatten)).Perm (svrs ++ (frees ++ rest.flatten)) :=
    (hf.perm.symm.append_right _).append_left _
  simpa using (h₁.trans h₂).trans h₃

/-- A fresh node is outside the server list, which therefore does not fill the
area. -/
theorem length_lt (h : Lists m₀ svrs frees rest)
    (hf : Fresh m₀ m svrs frees frees' rest p new) : svrs.length < m.chmpxCount := by
  rw [hf.site.chmpxCount]
  have hp : p ∉ svrs := fun hp => (hf.chains.disjoint_head hp) (by simp)
  have hnd : (p :: svrs).Nodup := List.nodup_cons.mpr ⟨hp, h.nodup_svrs⟩
  have hsub : (p :: svrs) ⊆ List.range m₀.chmpxCount := by
    intro q hq
    refine List.mem_range.mpr (h.bound q ((hf.perm_flatten (List.Perm.refl _)).mem_iff.mp ?_))
    exact List.mem_flatten.mpr ⟨_, List.mem_cons_self, hq⟩
  have hle := (List.subperm_of_subset hnd hsub).length_le
  rw [List.length_cons, List.length_range] at hle
  exact hle

/-- Once a fresh node of a named server is linked into the server list the lists
are well formed again. -/
theorem lists (h : Lists m₀ svrs frees rest) (hf : Fresh m₀ m svrs frees frees' rest p new)
    (hnew : IsServer new) (hl : l.Perm (p :: svrs))
    (hk : m'.links.Chains (l :: frees' :: rest)) (hchmpx : m'.chmpx = m.chmpx)
    (harea : m'.chmpxCount = m.chmpxCount) (hfh : m'.chmpxFrees = frees'.head?)
    (hfc : m'.chmpxFreeCount = frees'.length) (hsc : svrs.length + 1 ≤ m'.chmpxServerCount) :
    Lists m' l frees' rest := by
  refine ⟨hk, fun q hq => ?_, hfh, hfc, ?_, fun q hq => ?_, fun q hq => ?_⟩
  · rw [harea, hf.site.chmpxCount]
    exact h.bound q ((hf.perm_flatten hl).mem_iff.mp hq)
  · rw [hl.length_eq, List.length_cons]
    exact hsc
  · rw [hchmpx, hf.chmpx_eq] at hq
    refine hl.mem_iff.mpr (List.mem_cons.mpr ?_)
    by_cases hqp : q = p
    · exact Or.inl hqp
    · rw [if_neg hqp] at hq
      exact Or.inr (h.server_mem q hq)
  · rw [hchmpx, hf.chmpx_eq]
    split
    · exact hnew
    · rename_i hqp
      exact h.isServer q ((List.mem_cons.mp (hl.mem_iff.mp hq)).resolve_left hqp)

end Fresh

/-- A node goes into the server list of the cursor in order. -/
theorem insertServer_eq (type : ChmpxIdSeedType) {c : Ptr} {frees' : List Ptr} (hc : c ∈ svrs)
    (hk : m.links.Chains (svrs :: frees' :: [p] :: rest)) (hlen : svrs.length < m.chmpxCount) :
    ∃ k same map, insertServer type (some p) (some c) m =
        ((svrs.orderedInsert (After type m.chmpx) p).head?,
          ((m.setLinks k).setMap same map).setServers (m.chmpxServerCount + 1)
            (svrs.orderedInsert (After type m.chmpx) p).head?) ∧
      k.Chains ((svrs.orderedInsert (After type m.chmpx) p) :: frees' :: rest) := by
  obtain ⟨cur, k, same, map, hins, hk', hfirst⟩ := insert_spec type hc hk hlen
  refine ⟨k, same, map, ?_, hk'⟩
  simp only [insertServer, hins, hfirst]
  rfl

/-- A fresh node of a named server goes into the server list in order. -/
theorem insertServer_spec (type : ChmpxIdSeedType) {m₀ : ChmpxMan} {frees' : List Ptr} {c : Ptr}
    {new : Chmpx} (h : Lists m₀ svrs frees rest) (hf : Fresh m₀ m svrs frees frees' rest p new)
    (hc : c ∈ svrs) (hnew : IsServer new) :
    ∃ m', insertServer type (some p) (some c) m = (m'.chmpxServers, m') ∧
      Lists m' (svrs.orderedInsert (After type m.chmpx) p) frees' rest ∧
      m'.chmpxServers = (svrs.orderedInsert (After type m.chmpx) p).head? ∧
      m'.chmpx = m.chmpx ∧ SameSite m m' := by
  obtain ⟨k, same, map, hins, hk⟩ := insertServer_eq type hc hf.chains (hf.length_lt h)
  refine ⟨((m.setLinks k).setMap same map).setServers (m.chmpxServerCount + 1)
    (svrs.orderedInsert (After type m.chmpx) p).head?, hins, ?_, rfl, rfl, rfl, rfl, rfl, rfl⟩
  refine hf.lists h hnew (List.perm_orderedInsert _ p svrs) hk rfl rfl hf.frees_head
    hf.freeCount ?_
  show svrs.length + 1 ≤ m.chmpxServerCount + 1
  rw [hf.serverCount]
  exact Nat.succ_le_succ h.serverCount

/-! ## Giving a server back -/

/-- `Push` of a lone node onto the free list. -/
theorem push_spec (hk : m.links.Chains (frees :: [p] :: rest)) :
    ∃ k same map, m.push frees.head? p = (some p, (m.setLinks k).setMap same map) ∧
      k.Chains ((p :: frees) :: rest) := by
  cases frees with
  | nil =>
    obtain ⟨same, map, hs⟩ := saveChmpxIdMap_eq (m.setLinks (m.links.linkLast none p)) p
    refine ⟨m.links.linkLast none p, same, map, ?_, hk.linkLast (l := [])⟩
    rw [← hs]
    rfl
  | cons f fs =>
    have hp : m.links.prev f = none := Links.Chains.prev_of_cons hk
    obtain ⟨same, map, hs⟩ := saveChmpxIdMap_eq (m.setLinks (m.links.linkBefore f p)) p
    refine ⟨m.links.linkBefore f p, same, map, ?_, hk.linkBefore_of_cons⟩
    rw [← hs]
    simp only [push, List.head?_cons, Option.bind_some, Links.linkBefore, hp]
    rfl

/-- A cleared node goes to the head of the free list. -/
theorem giveBack_spec (eqfd : Bool) (hk : m.links.Chains ([p] :: frees :: rest))
    (hf : m.chmpxFrees = frees.head?) (hlen : frees.length < m.chmpxCount) :
    (m.giveBack eqfd p).links.Chains ((p :: frees) :: rest) ∧
      (m.giveBack eqfd p).chmpx = Function.update m.chmpx p Chmpx.cleared ∧
      (m.giveBack eqfd p).chmpxFrees = some p ∧
      (m.giveBack eqfd p).chmpxFreeCount = m.chmpxFreeCount + 1 ∧
      (m.giveBack eqfd p).chmpxServerCount = m.chmpxServerCount ∧
      (m.giveBack eqfd p).chmpxServers = m.chmpxServers ∧
      SameSite m (m.giveBack eqfd p) := by
  obtain ⟨same, map, cnt, len, hc⟩ := clear_eq m eqfd p
    (Links.Chains.prev_of_cons hk) (Links.Chains.next_of_cons hk)
  obtain ⟨k, same', map', hpush, hk'⟩ :=
    push_spec (m := ((m.setMap same map).setSocks cnt len).setChmpx p Chmpx.cleared) hk.swap
  have hfirst : some (k.first m.chmpxCount p) = (p :: frees).head? :=
    hk'.first List.mem_cons_self hlen
  have hf' : (((m.setMap same map).setSocks cnt len).setChmpx p Chmpx.cleared).chmpxFrees =
      frees.head? := hf
  rw [giveBack, hc, hf', hpush]
  exact ⟨hk', rfl, hfirst, rfl, rfl, rfl, rfl, rfl, rfl, rfl⟩

/-- Taking a server out of its list and giving it to the free list. -/
theorem removeServer_spec (args : MergeArgs) {s : MergeState} {l₁ l₂ : List Ptr}
    (h : Lists s.man (l₁ ++ p :: l₂) frees rest) :
    Lists (removeServer args p s).man (l₁ ++ l₂) (p :: frees) rest ∧
      (removeServer args p s).cur = l₂.head?.or l₁.getLast? ∧
      (removeServer args p s).isError = s.isError ∧
      (removeServer args p s).man.chmpx = Function.update s.man.chmpx p Chmpx.cleared ∧
      SameSite s.man (removeServer args p s).man := by
  have hn := h.chains.next_of_split
  have hp := h.chains.prev_of_split
  have hu : (s.man.links.unlink p).Chains ([p] :: frees :: (l₁ ++ l₂) :: rest) :=
    h.chains.unlink.perm
      (show ([[p], frees] ++ (l₁ ++ l₂) :: rest).Perm _ from List.perm_middle).symm
  have hflat : ((l₁ ++ l₂) :: (p :: frees) :: rest).flatten.Perm
      ((l₁ ++ p :: l₂) :: frees :: rest).flatten := by
    have h₁ : (l₁ ++ (l₂ ++ p :: (frees ++ rest.flatten))).Perm
        (l₁ ++ (p :: (l₂ ++ (frees ++ rest.flatten)))) := List.perm_middle.append_left l₁
    simpa using h₁
  have hbound : ∀ q ∈ ((l₁ ++ l₂) :: (p :: frees) :: rest).flatten, q < s.man.chmpxCount :=
    fun q hq => h.bound q (hflat.mem_iff.mp hq)
  have hlen : frees.length < s.man.chmpxCount := by
    have hpf : p ∉ frees := fun hpf => h.chains.disjoint_head (a := p) (by simp) (by simp [hpf])
    have hnd : (p :: frees).Nodup :=
      List.nodup_cons.mpr ⟨hpf, h.chains.tail.nodup_head⟩
    have hsub : (p :: frees) ⊆ List.range s.man.chmpxCount := fun q hq =>
      List.mem_range.mpr (hbound q (List.mem_flatten.mpr
        ⟨_, List.mem_cons_of_mem _ List.mem_cons_self, hq⟩))
    have hle := (List.subperm_of_subset hnd hsub).length_le
    rw [List.length_cons, List.length_range] at hle
    exact hle
  obtain ⟨same, map, hr⟩ := retrieveChmpxIdMap_eq (s.man.setLinks (s.man.links.unlink p)) p
  have hs : removeServer args p s =
      let m := (((s.man.setLinks (s.man.links.unlink p)).setMap same map).giveBack args.eqfd p)
      { s with
        cur := (s.man.links.next p).or (s.man.links.prev p)
        man := m.setServers (m.chmpxServerCount - 1) m.chmpxServers } := by
    rw [removeServer, retrieve, hr]
  obtain ⟨hk, hchm, hhead, hcount, hscount, hserv, hsite⟩ := giveBack_spec (p := p)
    (m := (s.man.setLinks (s.man.links.unlink p)).setMap same map) args.eqfd hu h.frees_head hlen
  generalize hm : ((s.man.setLinks (s.man.links.unlink p)).setMap same map).giveBack args.eqfd p =
    m' at *
  have hchm' : m'.chmpx = Function.update s.man.chmpx p Chmpx.cleared := hchm
  have hchmpx : ∀ q, m'.chmpx q = if q = p then Chmpx.cleared else s.man.chmpx q := fun q => by
    rw [hchm', Function.update_apply]
  have hmem : ∀ q ∈ l₁ ++ l₂, q ≠ p ∧ q ∈ l₁ ++ p :: l₂ := by
    intro q hq
    have hnd := h.nodup_svrs
    rw [List.perm_middle.nodup_iff, List.nodup_cons] at hnd
    refine ⟨fun he => hnd.1 (he ▸ hq), ?_⟩
    simp only [List.mem_append, List.mem_cons] at hq ⊢
    tauto
  rw [hs]
  refine ⟨⟨hk.swap, ?_, hhead, ?_, ?_, fun q hq => ?_, fun q hq => ?_⟩, ?_, rfl, hchm',
    hsite.group, hsite.replicaCount, hsite.chmpxCount, hsite.chmpxSelf⟩
  · show ∀ q ∈ _, q < m'.chmpxCount
    rw [hsite.chmpxCount]
    exact hbound
  · show m'.chmpxFreeCount = _
    rw [hcount, List.length_cons, ← h.freeCount]
    rfl
  · have hle := h.serverCount
    show _ ≤ m'.chmpxServerCount - 1
    rw [hscount]
    simp only [List.length_append, List.length_cons] at hle ⊢
    show _ ≤ s.man.chmpxServerCount - 1
    omega
  · have hq' : (m'.chmpx q).isServerMode = true := hq
    rw [hchmpx] at hq'
    split at hq'
    · cases hq'
    · rename_i hqp
      have hmem' := h.server_mem q hq'
      simp only [List.mem_append, List.mem_cons] at hmem' ⊢
      tauto
  · show IsServer (m'.chmpx q)
    rw [hchmpx, if_neg (hmem q hq).1]
    exact h.isServer q (hmem q hq).2
  · show (s.man.links.next p).or (s.man.links.prev p) = _
    rw [hn, hp]

end ChmpxMan
end Chm
