/-
Where the nodes of the area are.

A `Placement` says which nodes are in the server list, the free list and the slave list
and which one is this node itself when it is a slave.  `Places m a` says that the
manager has its nodes there: the lists are disjoint chains and each node of the area is
in one of them.  The moves below are what the operations do with a node: take it from
the free list, put it into the server or slave list, and give it back.
-/
import Chm.Initialize
import Chm.Slaves

namespace Chm

namespace ChmpxMan

structure Placement where
  svrs : List Ptr
  frees : List Ptr
  slaves : List Ptr
  self : List Ptr

namespace Placement

/-- The chains besides the servers and the free nodes. -/
def rest (a : Placement) : List (List Ptr) := [a.slaves, a.self]

def all (a : Placement) : List Ptr := a.svrs ++ a.frees ++ a.slaves ++ a.self

theorem mem_all {a : Placement} {p : Ptr} :
    p ∈ a.all ↔ p ∈ a.svrs ∨ p ∈ a.frees ∨ p ∈ a.slaves ∨ p ∈ a.self := by
  simp only [all, List.mem_append, or_assoc]

theorem flatten_eq (a : Placement) : (a.svrs :: a.frees :: a.rest).flatten = a.all := by
  simp [all, rest]

end Placement

variable {env : Env} {m m' m₁ : ChmpxMan} {a a' : Placement} {p : Ptr} {c : Chmpx}
variable {frees' : List Ptr}

/-- The nodes of the manager are placed as `a` says.  A node with a chmpxid is a
server, a slave or this node itself. -/
structure Places (m : ChmpxMan) (a : Placement) : Prop where
  lists : Lists m a.svrs a.frees a.rest
  cover : a.all.Perm (List.range m.chmpxCount)
  slaves : m.chmpxSlaves = a.slaves.head?
  self : (a.self = [] ∧ ∀ p, m.chmpxSelf = some p → p ∈ a.svrs) ∨
    ∃ p, m.chmpxSelf = some p ∧ a.self = [p]
  live : ∀ p, (m.chmpx p).chmpxid ≠ chmInvalidChmpxId → p ∈ a.svrs ∨ p ∈ a.slaves ∨ p ∈ a.self

namespace Places

theorem nodup (h : Places m a) : a.all.Nodup :=
  h.cover.nodup_iff.mpr List.nodup_range

theorem chains (h : Places m a) : m.links.Chains [a.svrs, a.frees, a.slaves, a.self] :=
  h.lists.chains

/-- A free node is none of the others. -/
theorem notMem_of_free (h : Places m a) (hp : p ∈ a.frees) :
    p ∉ a.svrs ∧ p ∉ a.slaves ∧ p ∉ a.self := by
  have hnd := h.nodup
  unfold Placement.all at hnd
  simp only [List.nodup_append', List.disjoint_append_left] at hnd
  obtain ⟨⟨⟨-, -, hsf⟩, -, -, hfl⟩, -, ⟨-, hfe⟩, -⟩ := hnd
  exact ⟨fun hs => hsf hs hp, fun hl => hfl hp hl, fun he => hfe hp he⟩

theorem free_invalid (h : Places m a) (hp : p ∈ a.frees) :
    (m.chmpx p).chmpxid = chmInvalidChmpxId := by
  by_contra hid
  obtain ⟨hs, hl, he⟩ := h.notMem_of_free hp
  rcases h.live p hid with hp' | hp' | hp'
  · exact hs hp'
  · exact hl hp'
  · exact he hp'

/-- What `Find` finds from the slave list is a slave or this node itself. -/
theorem find_slave (h : Places m a) {chmpxid : ChmpxId}
    (hf : m.find m.chmpxSlaves chmpxid = some p) :
    (p ∈ a.slaves ∨ p ∈ a.self) ∧ (m.chmpx p).chmpxid = chmpxid ∧
      (m.chmpx p).isServerMode = false := by
  rw [h.slaves] at hf
  cases hs : a.slaves with
  | nil =>
    rw [hs] at hf
    cases hf
  | cons s l =>
    have hmem : s ∈ a.slaves := by rw [hs]; exact List.mem_cons_self
    rw [hs, List.head?_cons, find, Option.bind_some, searchChmpxid] at hf
    split at hf
    · cases hf
    · rename_i hid
      have hm := List.find?_some hf
      rw [Bool.and_eq_true, decide_eq_true_eq, decide_eq_true_eq] at hm
      have hmode : (m.chmpx s).isServerMode = false := by
        by_contra hne
        have hsv := h.lists.server_mem s (by simpa using hne)
        have hd : a.svrs.Disjoint (a.frees :: a.rest).flatten := h.lists.chains.disjoint_head
        exact hd hsv (by simp [Placement.rest, hmem])
      rw [hmode] at hm
      rw [← hs]
      refine ⟨?_, hm.2.symm, hm.1.symm⟩
      rcases h.live p (fun he => hid (hm.2.trans he)) with hp | hp
      · have hsrv := h.lists.server hp
        rw [← hm.1] at hsrv
        cases hsrv
      · exact hp

end Places

/-- The manager with its nodes placed and the head of the server list set. -/
structure Area (m : ChmpxMan) (a : Placement) : Prop extends Places m a where
  servers : m.chmpxServers = a.svrs.head?
  limit : m.chmpxCount ≤ maxChmpxCount

theorem Area.formed (h : Area m a) : Formed m a.svrs a.frees a.rest :=
  ⟨h.lists, h.servers, h.limit⟩

/-! ## Writes -/

/-- The members of the manager that a move of one node or a write leaves alone. -/
structure SameRest (m m' : ChmpxMan) : Prop extends SameSite m m' where
  servers : m'.chmpxServers = m.chmpxServers
  serverCount : m'.chmpxServerCount = m.chmpxServerCount
  slaves : m'.chmpxSlaves = m.chmpxSlaves
  slaveCount : m'.chmpxSlaveCount = m.chmpxSlaveCount
  sockFreeCount : m'.sockFreeCount = m.sockFreeCount
  sockFrees : m'.sockFrees = m.sockFrees

theorem SameRest.refl (m : ChmpxMan) : SameRest m m :=
  ⟨SameSite.refl m, rfl, rfl, rfl, rfl, rfl, rfl⟩

theorem SameRest.trans {m₁ m₂ m₃ : ChmpxMan} (h : SameRest m₁ m₂) (h' : SameRest m₂ m₃) :
    SameRest m₁ m₃ :=
  ⟨h.toSameSite.trans h'.toSameSite, h'.servers.trans h.servers,
    h'.serverCount.trans h.serverCount, h'.slaves.trans h.slaves,
    h'.slaveCount.trans h.slaveCount, h'.sockFreeCount.trans h.sockFreeCount,
    h'.sockFrees.trans h.sockFrees⟩

/-- Any number of writes to records, seen from the lists. -/
structure Rewritten (m m' : ChmpxMan) : Prop where
  shape : SameShape m m'
  rest : SameRest m m'
  socklist : ∀ p, (m'.chmpx p).socklist = (m.chmpx p).socklist

theorem Rewritten.of_written {P : ChmpxMode → ChmpxSts → Prop}
    (h : Written (Chmpx.RecordWrite P) m m') : Rewritten m m' := by
  induction h with
  | refl => exact ⟨SameShape.refl m, SameRest.refl m, fun _ => rfl⟩
  | tail hw hstep ih =>
    refine ⟨SameShape.written (hw.tail hstep), ih.rest.trans ?_, fun p => ?_⟩
    · cases hstep <;> exact ⟨⟨rfl, rfl, rfl, rfl⟩, rfl, rfl, rfl, rfl, rfl, rfl⟩
    · refine Eq.trans ?_ (ih.socklist p)
      cases hstep with
      | chmpx hc =>
        rw [chmpx_setChmpx]
        split
        · rename_i hp
          rw [hp]
          exact hc.socklist
        · rfl
      | srvs base pend => rfl
      | recount cur => rfl

theorem Rewritten.of_status {P : ChmpxMode → ChmpxSts → Prop}
    (h : Written (Chmpx.StatusWrite P) m m') : Rewritten m m' :=
  of_written (h.mono fun _ _ => Chmpx.StatusWrite.record)

theorem Rewritten.places (h : Rewritten m m') (hp : Places m a) : Places m' a where
  lists := h.shape.lists hp.lists
  cover := h.rest.chmpxCount ▸ hp.cover
  slaves := h.rest.slaves.trans hp.slaves
  self := h.rest.chmpxSelf ▸ hp.self
  live p hid := hp.live p (h.shape.chmpxid p ▸ hid)

theorem Rewritten.area (h : Rewritten m m') (ha : Area m a) : Area m' a :=
  ⟨h.places ha.toPlaces, h.rest.servers.trans ha.servers, h.rest.chmpxCount ▸ ha.limit⟩

/-! ## Taking a node -/

/-- The node `p` has left the free list, holds `c` and is in no list and no bucket. -/
structure Taken (m m' : ChmpxMan) (a : Placement) (frees' : List Ptr) (p : Ptr) (c : Chmpx) :
    Prop where
  rest : SameRest m m'
  frees : a.frees.Perm (p :: frees')
  chains : m'.links.Chains [a.svrs, frees', [p], a.slaves, a.self]
  chmpx : m'.chmpx = Function.update m.chmpx p c
  mapped : ∀ chain, Mapped m chain → (∀ i, p ∉ chain i) → Mapped m' chain

theorem Taken.chmpx_eq (h : Taken m m' a frees' p c) (q : Ptr) :
    m'.chmpx q = if q = p then c else m.chmpx q := by
  rw [h.chmpx, Function.update_apply]

theorem Taken.chmpx_self (h : Taken m m' a frees' p c) : m'.chmpx p = c := by
  rw [h.chmpx_eq, if_pos rfl]

theorem clear_rest (p : Ptr) (m : ChmpxMan) : SameRest m (m.clear false p) := by
  obtain ⟨same, map, hr⟩ := retrieveChmpxIdMap_eq m p
  unfold clear
  rw [hr]
  exact ⟨⟨rfl, rfl, rfl, rfl⟩, rfl, rfl, rfl, rfl, rfl, rfl⟩

theorem initializeServer_rest (env : Env) (type : ChmpxIdSeedType) (svr : ChmpxSvr) (p : Ptr)
    (m : ChmpxMan) : SameRest m (m.initializeServer env type svr p) := by
  obtain ⟨base, pend, hi⟩ := initializeServer_eq env type svr p m
  rw [hi]
  exact ⟨⟨rfl, rfl, rfl, rfl⟩, rfl, rfl, rfl, rfl, rfl, rfl⟩

theorem newServer_rest (env : Env) (args : MergeArgs) (svr : ChmpxSvr) (m : ChmpxMan) :
    SameRest m (newServer env args svr m).2 := by
  obtain ⟨r, cur', k, hpop⟩ := popAny_setLinks m m.chmpxFrees
  simp only [newServer, hpop]
  have hpopped : SameRest m ((m.setLinks k).setFrees ((m.setLinks k).chmpxFreeCount - 1)
      ((m.setLinks k).getFirstPtr cur')) :=
    ⟨⟨rfl, rfl, rfl, rfl⟩, rfl, rfl, rfl, rfl, rfl, rfl⟩
  cases r with
  | none => exact hpopped
  | some p =>
    exact (hpopped.trans (clear_rest p _)).trans (initializeServer_rest env args.type svr p _)

/-- The node that a merge makes of a record. -/
theorem newServer_taken (env : Env) (args : MergeArgs) (svr : ChmpxSvr) (h : Places m a)
    (hf : m.chmpxFreeCount ≠ 0) :
    ∃ p frees' m₁, newServer env args svr m = (some p, m₁) ∧
      Taken m m₁ a frees' p
        (Chmpx.initializeServer env args.type m.group svr Chmpx.cleared).2 ∧
      m₁.chmpxFrees = frees'.head? ∧ m₁.chmpxFreeCount = frees'.length := by
  obtain ⟨p, frees', m₁, hnew, hfresh⟩ := newServer_spec env args svr h.lists hf
  refine ⟨p, frees', m₁, hnew, ⟨?_, hfresh.perm, hfresh.chains, hfresh.chmpx, ?_⟩,
    hfresh.frees_head, hfresh.freeCount⟩
  · have hrest := newServer_rest env args svr m
    rw [hnew] at hrest
    exact hrest
  · intro chain hm hp
    exact hm.newServer hp hnew

/-- The node that `PopAny` takes from the free list, with a record written in it. -/
theorem popAny_taken (h : Places m a) (hf : m.chmpxFreeCount ≠ 0) :
    ∃ p frees' cur k, m.popAny m.chmpxFrees = (some p, cur, m.setLinks k) ∧
      (m.setLinks k).getFirstPtr cur = frees'.head? ∧
      m.chmpxFreeCount - 1 = frees'.length ∧ p ∈ a.frees ∧
      ∀ c n head, Taken m (((m.setLinks k).setFrees n head).setChmpx p c) a frees' p c := by
  have hcount := h.lists.freeCount
  have hhead := h.lists.frees_head
  cases hfr : a.frees with
  | nil =>
    rw [hfr] at hcount
    exact absurd hcount hf
  | cons f fs =>
    have hl := h.lists
    rw [hfr] at hl hcount hhead
    have hlen : (f :: fs).length ≤ m.chmpxCount :=
      hl.length_le (List.mem_cons_of_mem _ List.mem_cons_self)
    obtain ⟨p, frees', cur, k, hpop, hperm, hk, hfirst⟩ := popAny_spec hl.chains hlen
    have hlen' := hperm.length_eq
    refine ⟨p, frees', cur, k, ?_, hfirst, ?_, hperm.mem_iff.mpr List.mem_cons_self, ?_⟩
    · rw [hhead]
      exact hpop
    · rw [hcount, hlen', List.length_cons, Nat.add_sub_cancel]
    · intro c n head
      refine ⟨⟨⟨rfl, rfl, rfl, rfl⟩, rfl, rfl, rfl, rfl, rfl, rfl⟩, hfr ▸ hperm, hk, rfl, ?_⟩
      intro chain hm hp
      exact (hm.setChmpx hp c).congr rfl rfl rfl fun _ _ _ => rfl

/-- The node that `PopFront` takes from a free list that is still in a cursor. -/
theorem popFront_taken (h : Places (m.withFrees a.frees) a) :
    (a.frees = [] ∧ m.popFront a.frees.head? = (none, none, m)) ∨
      ∃ p fs k, a.frees = p :: fs ∧ m.popFront a.frees.head? = (some p, fs.head?, m.setLinks k) ∧
        ∀ c, Taken (m.withFrees a.frees) ((m.setLinks k).setChmpx p c) a fs p c := by
  rcases popFront_spec h.lists with hnone | ⟨p, fs, k, hfr, hpop, hk⟩
  · exact Or.inl hnone
  · refine Or.inr ⟨p, fs, k, hfr, hpop, fun c => ?_⟩
    refine ⟨⟨⟨rfl, rfl, rfl, rfl⟩, rfl, rfl, rfl, rfl, rfl, rfl⟩, hfr ▸ List.Perm.refl _, hk,
      rfl, ?_⟩
    intro chain hm hp
    exact (hm.setChmpx hp c).congr rfl rfl rfl fun _ _ _ => rfl

theorem Places.withFrees_eq (h : Places m a) : m.withFrees a.frees = m := by
  unfold withFrees setFrees
  rw [← h.lists.freeCount, ← h.lists.frees_head]

/-! ## Putting a node in -/

/-- The node `p` has gone from the free list into one of the others and holds `c`. -/
structure Added (m m' : ChmpxMan) (a a' : Placement) (p : Ptr) (c : Chmpx) : Prop where
  site : SameSite m m'
  frees : a.frees.Perm (p :: a'.frees)
  self : a'.self = a.self
  chmpx : m'.chmpx = Function.update m.chmpx p c
  socklist : c.socklist = [] ∨ c = m.chmpx p
  sockFreeCount : m'.sockFreeCount = m.sockFreeCount
  sockFrees : m'.sockFrees = m.sockFrees

structure AddedServer (m m' : ChmpxMan) (a a' : Placement) (p : Ptr) (c : Chmpx) : Prop
    extends Added m m' a a' p c where
  server : IsServer c
  svrs : a'.svrs.Perm (p :: a.svrs)
  slaves : a'.slaves = a.slaves
  slaveCount : m'.chmpxSlaveCount = m.chmpxSlaveCount
  serverCount : m.chmpxServerCount = a.svrs.length → m'.chmpxServerCount = a'.svrs.length
  mapped : ∀ chain, Mapped m chain → (∀ i, p ∉ chain i) →
    Mapped m' (Function.update chain (slotOf c.chmpxid) (chain (slotOf c.chmpxid) ++ [p]))

structure AddedSlave (m m' : ChmpxMan) (a a' : Placement) (p : Ptr) (c : Chmpx) : Prop
    extends Added m m' a a' p c where
  mode : c.isServerMode = false
  svrs : a'.svrs = a.svrs
  slaves : a'.slaves.Perm (p :: a.slaves)
  serverCount : m'.chmpxServerCount = m.chmpxServerCount
  slaveCount : m.chmpxSlaveCount = a.slaves.length → m'.chmpxSlaveCount = a'.slaves.length
  mapped : c.chmpxid ≠ chmInvalidChmpxId → ∀ chain, Mapped m chain → (∀ i, p ∉ chain i) →
    Mapped m' (Function.update chain (slotOf c.chmpxid) (chain (slotOf c.chmpxid) ++ [p]))

theorem Added.chmpx_eq (h : Added m m' a a' p c) (q : Ptr) :
    m'.chmpx q = if q = p then c else m.chmpx q := by
  rw [h.chmpx, Function.update_apply]

theorem Added.mem_free (h : Added m m' a a' p c) : p ∈ a.frees :=
  h.frees.mem_iff.mpr List.mem_cons_self

/-- A free node is outside every other list, so none of them fills the area. -/
theorem Places.length_lt (h : Places m a) (hp : p ∈ a.frees) :
    a.svrs.length < m.chmpxCount ∧ a.slaves.length < m.chmpxCount := by
  have hlen := h.cover.length_eq
  have hpos := List.length_pos_of_mem hp
  simp only [Placement.all, List.length_append, List.length_range] at hlen
  omega

/-- A node that was free is in the list of its mode, and the nodes are placed again. -/
theorem Added.places (h : Places m a) (ha : Added m m' a a' p c)
    (hchains : m'.links.Chains [a'.svrs, a'.frees, a'.slaves, a'.self])
    (hcover : a'.all.Perm a.all) (hhead : m'.chmpxFrees = a'.frees.head?)
    (hcount : m'.chmpxFreeCount = a'.frees.length)
    (hserverCount : a'.svrs.length ≤ m'.chmpxServerCount)
    (hslaves : m'.chmpxSlaves = a'.slaves.head?)
    (hsvr : ∀ q, q ∈ a'.svrs ↔ q = p ∧ c.isServerMode = true ∨ q ∈ a.svrs)
    (hslave : ∀ q, q ∈ a'.slaves ↔ q = p ∧ c.isServerMode = false ∨ q ∈ a.slaves)
    (hserver : c.isServerMode = true → IsServer c) : Places m' a' := by
  have hfree := h.notMem_of_free ha.mem_free
  have hcover' : a'.all.Perm (List.range m'.chmpxCount) := by
    rw [ha.site.chmpxCount]
    exact hcover.trans h.cover
  refine ⟨⟨hchains, fun q hq => ?_, hhead, hcount, hserverCount, fun q hq => ?_,
    fun q hq => ?_⟩, hcover', hslaves, ?_, fun q hq => ?_⟩
  · rw [a'.flatten_eq] at hq
    exact List.mem_range.mp (hcover'.mem_iff.mp hq)
  · rw [ha.chmpx_eq] at hq
    rw [hsvr]
    split at hq
    · rename_i hqp
      exact Or.inl ⟨hqp, hq⟩
    · exact Or.inr (h.lists.server_mem q hq)
  · rw [ha.chmpx_eq]
    rcases (hsvr q).mp hq with ⟨hqp, hmode⟩ | hq
    · rw [if_pos hqp]
      exact hserver hmode
    · rw [if_neg fun hqp : q = p => hfree.1 (hqp ▸ hq)]
      exact h.lists.isServer q hq
  · rw [ha.site.chmpxSelf, ha.self]
    refine h.self.imp (fun hs => ⟨hs.1, fun q hq => ?_⟩) id
    rw [hsvr]
    exact Or.inr (hs.2 q hq)
  · rw [ha.chmpx_eq] at hq
    rw [hsvr, hslave, ha.self]
    split at hq
    · rename_i hqp
      cases hmode : c.isServerMode with
      | true => exact Or.inl (Or.inl ⟨hqp, rfl⟩)
      | false => exact Or.inr (Or.inl (Or.inl ⟨hqp, rfl⟩))
    · rcases h.live q hq with hq | hq | hq
      · exact Or.inl (Or.inr hq)
      · exact Or.inr (Or.inl (Or.inr hq))
      · exact Or.inr (Or.inr hq)

/-- The cursor of the server list is null exactly when the list is empty. -/
theorem Taken.insertServer (h : Places m a) (ht : Taken m m₁ a frees' p c)
    (hserver : IsServer c) (hsock : c.socklist = []) (type : ChmpxIdSeedType) {cur : Cursor}
    (hcur : CursorIn cur a.svrs)
    (hm' : m' = (insertServer type (some p) cur m₁).2.setFrees frees'.length frees'.head?) :
    ∃ svrs', AddedServer m m' a ⟨svrs', frees', a.slaves, a.self⟩ p c ∧
      Places m' ⟨svrs', frees', a.slaves, a.self⟩ ∧ m'.chmpxServers = svrs'.head? ∧
      (insertServer type (some p) cur m₁).1 = cur.bind fun _ => svrs'.head? := by
  have hbound : p < m₁.chmpxCount := by
    rw [ht.rest.chmpxCount]
    exact h.lists.bound p (by simp [ht.frees.mem_iff])
  have hlen : a.svrs.length < m₁.chmpxCount := by
    rw [ht.rest.chmpxCount]
    exact (h.length_lt (ht.frees.mem_iff.mpr List.mem_cons_self)).1
  -- What the two cases of the list have to provide.
  obtain ⟨k, same, map, svrs', n, hins, hk, hperm, hcount, hle⟩ : ∃ k same map svrs' n,
      ChmpxMan.insertServer type (some p) cur m₁ =
        (cur.bind fun _ => svrs'.head?,
          ((m₁.setLinks k).setMap same map).setServers n svrs'.head?) ∧
      k.Chains [svrs', frees', a.slaves, a.self] ∧ svrs'.Perm (p :: a.svrs) ∧
      (m.chmpxServerCount = a.svrs.length → n = svrs'.length) ∧ svrs'.length ≤ n := by
    cases cur with
    | none =>
      have hnil : a.svrs = [] := hcur
      have hk := ht.chains
      rw [hnil] at hk
      obtain ⟨same, map, hs⟩ := saveChmpxIdMap_eq m₁ p
      refine ⟨m₁.links, same, map, [p], 1, ?_, hk.tail.swap, by rw [hnil], fun _ => rfl,
        le_refl _⟩
      simp only [ChmpxMan.insertServer, hs]
      rfl
    | some q =>
      obtain ⟨k, same, map, hins, hk⟩ := insertServer_eq type hcur ht.chains hlen
      have hperm := List.perm_orderedInsert (After type m₁.chmpx) p a.svrs
      have hplen := hperm.length_eq
      have hle := h.lists.serverCount
      rw [List.length_cons] at hplen
      refine ⟨k, same, map, _, m₁.chmpxServerCount + 1, hins, hk, hperm, fun he => ?_, ?_⟩
      · rw [hplen, ht.rest.serverCount, he]
      · rw [hplen, ht.rest.serverCount]
        omega
  have hman : m' = (((m₁.setLinks k).setMap same map).setServers n svrs'.head?).setFrees
      frees'.length frees'.head? := by rw [hm', hins]
  have hadded : Added m m' a ⟨svrs', frees', a.slaves, a.self⟩ p c := by
    rw [hman]
    exact ⟨⟨ht.rest.group, ht.rest.replicaCount, ht.rest.chmpxCount, ht.rest.chmpxSelf⟩,
      ht.frees, rfl, ht.chmpx, Or.inl hsock, ht.rest.sockFreeCount, ht.rest.sockFrees⟩
  have hsvr : ∀ q, q ∈ svrs' ↔ q = p ∧ c.isServerMode = true ∨ q ∈ a.svrs := by
    intro q
    rw [hperm.mem_iff, List.mem_cons, hserver.mode]
    simp
  refine ⟨svrs', ⟨hadded, hserver, hperm, rfl, ?_, ?_, ?_⟩, ?_, ?_, ?_⟩
  · rw [hman]
    exact ht.rest.slaveCount
  · intro hc
    rw [hman]
    exact hcount hc
  · intro chain hm hp
    have hid : (m₁.chmpx p).chmpxid ≠ chmInvalidChmpxId := by
      rw [ht.chmpx_self]
      exact hserver.valid
    have hins' := (ht.mapped chain hm hp).insertServer hp hid hbound type cur
    rw [ht.chmpx_self] at hins'
    rw [hm']
    exact hins'.congr rfl rfl rfl fun _ _ _ => rfl
  · refine hadded.places h ?_ ?_ ?_ ?_ ?_ ?_ hsvr (fun q => ?_) fun _ => hserver
    · rw [hman]
      exact hk
    · have hp := ht.frees
      unfold Placement.all
      have h₁ : (svrs' ++ frees').Perm (a.svrs ++ a.frees) := by
        refine (hperm.append_right frees').trans ?_
        exact List.perm_middle.symm.trans (hp.symm.append_left a.svrs)
      exact (h₁.append_right _).append_right _
    · rw [hman]
      rfl
    · rw [hman]
      rfl
    · rw [hman]
      exact hle
    · rw [hman]
      exact ht.rest.slaves.trans h.slaves
    · rw [hserver.mode]
      simp
  · rw [hman]
    rfl
  · rw [hins]

theorem Taken.insertSlave (h : Places m a) (ht : Taken m m₁ a frees' p c)
    (hmode : c.isServerMode = false) (hsock : c.socklist = [] ∨ c = m.chmpx p)
    (type : ChmpxIdSeedType)
    (hhead : m₁.chmpxFrees = frees'.head?) (hcount : m₁.chmpxFreeCount = frees'.length) :
    ∃ slaves', AddedSlave m (insertSlave type (some p) m₁) a ⟨a.svrs, frees', slaves', a.self⟩
        p c ∧
      Places (insertSlave type (some p) m₁) ⟨a.svrs, frees', slaves', a.self⟩ ∧
      (insertSlave type (some p) m₁).chmpxServers = m.chmpxServers := by
  have hbound : p < m₁.chmpxCount := by
    rw [ht.rest.chmpxCount]
    exact h.lists.bound p (by simp [ht.frees.mem_iff])
  have hlen : a.slaves.length < m₁.chmpxCount := by
    rw [ht.rest.chmpxCount]
    exact (h.length_lt (ht.frees.mem_iff.mpr List.mem_cons_self)).2
  have hslaves : m₁.chmpxSlaves = a.slaves.head? := ht.rest.slaves.trans h.slaves
  have hchains : m₁.links.Chains [a.slaves, frees', [p], a.svrs, a.self] := by
    refine ht.chains.perm ?_
    show ([a.svrs, frees', [p]] ++ a.slaves :: [a.self]).Perm _
    refine List.perm_middle.trans (List.Perm.cons _ ?_)
    exact (@List.perm_middle _ a.svrs [frees', [p]] [a.self]).symm
  obtain ⟨k, same, map, slaves', n, hins, hk, hperm, hn⟩ : ∃ k same map slaves' n,
      ChmpxMan.insertSlave type (some p) m₁ =
        ((m₁.setLinks k).setMap same map).setSlaves n slaves'.head? ∧
      k.Chains [slaves', frees', a.svrs, a.self] ∧ slaves'.Perm (p :: a.slaves) ∧
      (m.chmpxSlaveCount = a.slaves.length → n = slaves'.length) := by
    cases hs : a.slaves with
    | nil =>
      have hk := hchains
      rw [hs] at hk hslaves
      obtain ⟨same, map, hsave⟩ := saveChmpxIdMap_eq m₁ p
      refine ⟨m₁.links, same, map, [p], 1, ?_, hk.tail.swap, List.Perm.refl _, fun _ => rfl⟩
      have hnone : m₁.chmpxSlaves = none := hslaves
      simp only [ChmpxMan.insertSlave, hnone, hsave]
      rfl
    | cons q l =>
      have hq : q ∈ a.slaves := by rw [hs]; exact List.mem_cons_self
      rw [hs] at hslaves
      have hsome : m₁.chmpxSlaves = some q := hslaves
      obtain ⟨cur, k, same, map, hins, hk, hfirst⟩ := insert_spec type hq hchains hlen
      have hperm := List.perm_orderedInsert (After type m₁.chmpx) p a.slaves
      have hplen := hperm.length_eq
      refine ⟨k, same, map, _, m₁.chmpxSlaveCount + 1, ?_, hk, hs ▸ hperm, fun he => ?_⟩
      · simp only [ChmpxMan.insertSlave, hsome, hins, hfirst]
        rfl
      · rw [hplen, ht.rest.slaveCount, he, List.length_cons, hs]
        rfl
  have hadded : Added m (ChmpxMan.insertSlave type (some p) m₁) a
      ⟨a.svrs, frees', slaves', a.self⟩ p c := by
    rw [hins]
    exact ⟨⟨ht.rest.group, ht.rest.replicaCount, ht.rest.chmpxCount, ht.rest.chmpxSelf⟩,
      ht.frees, rfl, ht.chmpx, hsock, ht.rest.sockFreeCount, ht.rest.sockFrees⟩
  have hslave : ∀ q, q ∈ slaves' ↔ q = p ∧ c.isServerMode = false ∨ q ∈ a.slaves := by
    intro q
    rw [hperm.mem_iff, List.mem_cons, hmode]
    simp
  refine ⟨slaves', ⟨hadded, hmode, rfl, hperm, ?_, ?_, ?_⟩, ?_, ?_⟩
  · rw [hins]
    exact ht.rest.serverCount
  · intro hc
    rw [hins]
    exact hn hc
  · intro hid chain hm hp
    have hmap := ht.mapped chain hm hp
    have hp₁ : m₁.chmpx p = c := ht.chmpx_self
    unfold ChmpxMan.insertSlave
    split
    · rename_i q _
      have hins' := hmap.insert hp (by rw [hp₁]; exact hid) hbound type q
      rw [hp₁] at hins'
      exact hins'.congr rfl rfl rfl fun _ _ _ => rfl
    · have hsave := hmap.save hp (by rw [hp₁]; exact hid) hbound
      rw [hp₁] at hsave
      exact hsave.congr rfl rfl rfl fun _ _ _ => rfl
  · refine hadded.places h ?_ ?_ ?_ ?_ ?_ ?_ (fun q => ?_) hslave fun he => ?_
    · rw [hins]
      refine hk.perm ?_
      show (slaves' :: ([frees'] ++ a.svrs :: [a.self])).Perm _
      refine (List.Perm.cons _ List.perm_middle).trans ?_
      exact (@List.perm_middle _ slaves' [a.svrs, frees'] [a.self]).symm
    · have h₁ : (frees' ++ slaves').Perm (a.frees ++ a.slaves) := by
        refine (hperm.append_left frees').trans (List.perm_middle.trans ?_)
        exact ht.frees.symm.append_right a.slaves
      unfold Placement.all
      simp only [List.append_assoc]
      refine List.Perm.append_left _ ?_
      rw [← List.append_assoc, ← List.append_assoc]
      exact h₁.append_right _
    · rw [hins]
      exact hhead
    · rw [hins]
      exact hcount
    · rw [hins]
      exact ht.rest.serverCount ▸ h.lists.serverCount
    · rw [hins]
      rfl
    · rw [hmode]
      simp
    · rw [hmode] at he
      cases he
  · rw [hins]
    exact ht.rest.servers

/-! ## Giving a node back -/

/-- The sockets that `Clear` gives to the free socket list. -/
def closedSocks (eqfd : Bool) (c : Chmpx) : Nat := if eqfd then c.socklist.length else 0

/-- The node `p` has gone from one of the lists to the head of the free list. -/
structure Dropped (m m' : ChmpxMan) (a a' : Placement) (p : Ptr) (eqfd : Bool) : Prop where
  site : SameSite m m'
  frees : a'.frees = p :: a.frees
  self : a'.self = a.self
  chmpx : m'.chmpx = Function.update m.chmpx p Chmpx.cleared
  sockFreeCount : m'.sockFreeCount = m.sockFreeCount + closedSocks eqfd (m.chmpx p)
  sockFrees : m'.sockFrees = m.sockFrees + closedSocks eqfd (m.chmpx p)
  mapped : ∀ chain i, Mapped m chain → p ∈ chain i →
    Mapped m' (Function.update chain i ((chain i).erase p))
  lone : ∀ chain, Mapped m chain → (∀ i, p ∉ chain i) → Mapped m' chain

structure DroppedServer (m m' : ChmpxMan) (a a' : Placement) (p : Ptr) (eqfd : Bool) : Prop
    extends Dropped m m' a a' p eqfd where
  svrs : a.svrs.Perm (p :: a'.svrs)
  slaves : a'.slaves = a.slaves
  slaveCount : m'.chmpxSlaveCount = m.chmpxSlaveCount
  serverCount : m.chmpxServerCount = a.svrs.length → m'.chmpxServerCount = a'.svrs.length

structure DroppedSlave (m m' : ChmpxMan) (a a' : Placement) (p : Ptr) (eqfd : Bool) : Prop
    extends Dropped m m' a a' p eqfd where
  svrs : a'.svrs = a.svrs
  slaves : a.slaves.Perm (p :: a'.slaves)
  serverCount : m'.chmpxServerCount = m.chmpxServerCount
  slaveCount : m.chmpxSlaveCount = a.slaves.length → m'.chmpxSlaveCount = a'.slaves.length

theorem Dropped.chmpx_eq {eqfd : Bool} (h : Dropped m m' a a' p eqfd) (q : Ptr) :
    m'.chmpx q = if q = p then Chmpx.cleared else m.chmpx q := by
  rw [h.chmpx, Function.update_apply]

/-- What `giveBack` writes. -/
theorem giveBack_form (eqfd : Bool) (p : Ptr) (m : ChmpxMan) :
    ∃ k same map n head, m.giveBack eqfd p =
      ((((m.setMap same map).setLinks k).setSocks
        (m.sockFreeCount + closedSocks eqfd (m.chmpx p))
        (m.sockFrees + closedSocks eqfd (m.chmpx p))).setChmpx p Chmpx.cleared).setFrees n
          head := by
  obtain ⟨same, map, hr⟩ := retrieveChmpxIdMap_eq m p
  have hclear : m.clear eqfd p = (((m.setMap same map).setLinks
      ((m.links.setPrev p none).setNext p none)).setSocks
        (m.sockFreeCount + closedSocks eqfd (m.chmpx p))
        (m.sockFrees + closedSocks eqfd (m.chmpx p))).setChmpx p Chmpx.cleared := by
    unfold clear
    rw [hr]
    rfl
  have hpush : ∃ k same map, (m.clear eqfd p).push (m.clear eqfd p).chmpxFrees p =
      (some p, ((m.clear eqfd p).setLinks k).setMap same map) := by
    simp only [push]
    generalize (((m.clear eqfd p).links.setPrev p ((m.clear eqfd p).chmpxFrees.bind
      (m.clear eqfd p).links.prev)).setNext p (m.clear eqfd p).chmpxFrees).setPrev?
        (m.clear eqfd p).chmpxFrees (some p) = k
    obtain ⟨same', map', hs⟩ := saveChmpxIdMap_eq ((m.clear eqfd p).setLinks k) p
    exact ⟨k, same', map', by rw [hs]⟩
  obtain ⟨k, same', map', hp⟩ := hpush
  refine ⟨k, same', map', m.chmpxFreeCount + 1,
    (((m.clear eqfd p).setLinks k).setMap same' map').getFirstPtr (some p), ?_⟩
  unfold giveBack
  dsimp only
  rw [hp, hclear]
  rfl

theorem giveBack_rest (eqfd : Bool) (p : Ptr) (m : ChmpxMan) :
    SameSite m (m.giveBack eqfd p) ∧ (m.giveBack eqfd p).chmpxSlaves = m.chmpxSlaves ∧
      (m.giveBack eqfd p).chmpxSlaveCount = m.chmpxSlaveCount ∧
      (m.giveBack eqfd p).sockFreeCount =
        m.sockFreeCount + closedSocks eqfd (m.chmpx p) ∧
      (m.giveBack eqfd p).sockFrees = m.sockFrees + closedSocks eqfd (m.chmpx p) := by
  obtain ⟨k, same, map, n, head, he⟩ := giveBack_form eqfd p m
  rw [he]
  exact ⟨⟨rfl, rfl, rfl, rfl⟩, rfl, rfl, rfl, rfl⟩

/-- The node `p` has been taken out of its list and its bucket. -/
structure Retrieved (m m₁ : ChmpxMan) (p : Ptr) : Prop where
  site : SameSite m m₁
  links : m₁.links = m.links.unlink p
  chmpx : m₁.chmpx = m.chmpx
  frees : m₁.chmpxFrees = m.chmpxFrees
  freeCount : m₁.chmpxFreeCount = m.chmpxFreeCount
  sockFreeCount : m₁.sockFreeCount = m.sockFreeCount
  sockFrees : m₁.sockFrees = m.sockFrees
  same : m₁.same = (m.retrieve p).2.same
  chmpxidMap : m₁.chmpxidMap = (m.retrieve p).2.chmpxidMap

theorem retrieve_form (m : ChmpxMan) (p : Ptr) :
    ∃ same map, m.retrieve p =
      ((m.links.next p).or (m.links.prev p), (m.setLinks (m.links.unlink p)).setMap same map) := by
  obtain ⟨same, map, he⟩ := retrieveChmpxIdMap_eq (m.setLinks (m.links.unlink p)) p
  exact ⟨same, map, by rw [retrieve, he]⟩

theorem retrieved (m : ChmpxMan) (p : Ptr) : Retrieved m (m.retrieve p).2 p := by
  obtain ⟨same, map, he⟩ := retrieve_form m p
  refine ⟨?_, ?_, ?_, ?_, ?_, ?_, ?_, rfl, rfl⟩ <;> rw [he]
  · exact ⟨rfl, rfl, rfl, rfl⟩
  all_goals rfl

theorem Retrieved.dropped (hr : Retrieved m m₁ p) (a a' : Placement) (eqfd : Bool)
    (hframe : a'.self = a.self) (hfrees : a'.frees = p :: a.frees)
    (hk : m₁.links.Chains ([p] :: a.frees :: a'.rest ++ [a'.svrs]))
    (hhead : m.chmpxFrees = a.frees.head?) (hlen : a.frees.length < m.chmpxCount) :
    Dropped m (m₁.giveBack eqfd p) a a' p eqfd ∧
      (m₁.giveBack eqfd p).links.Chains [a'.svrs, a'.frees, a'.slaves, a'.self] ∧
      (m₁.giveBack eqfd p).chmpxFrees = some p ∧
      (m₁.giveBack eqfd p).chmpxFreeCount = m.chmpxFreeCount + 1 ∧
      (m₁.giveBack eqfd p).chmpxServers = m₁.chmpxServers ∧
      (m₁.giveBack eqfd p).chmpxServerCount = m₁.chmpxServerCount := by
  have hk' : m₁.links.Chains ([p] :: a.frees :: (a'.rest ++ [a'.svrs])) := hk
  obtain ⟨hchains, hchm, hfh, hfc, hsc, hs, hsite⟩ := giveBack_spec eqfd hk'
    (hr.frees.trans hhead) (by rw [hr.site.chmpxCount]; exact hlen)
  obtain ⟨-, -, -, hsock, hsocks⟩ := giveBack_rest eqfd p m₁
  have hm₁ : m₁.same = (m.retrieve p).2.same ∧ m₁.chmpxidMap = (m.retrieve p).2.chmpxidMap ∧
      m₁.chmpxCount = m.chmpxCount ∧ m₁.chmpx = m.chmpx :=
    ⟨hr.same, hr.chmpxidMap, hr.site.chmpxCount, hr.chmpx⟩
  refine ⟨⟨hr.site.trans hsite, hfrees, hframe, hchm.trans (by rw [hr.chmpx]), ?_, ?_, ?_, ?_⟩,
    ?_, hfh, ?_, hs, hsc⟩
  · rw [hsock, hr.sockFreeCount, hr.chmpx]
  · rw [hsocks, hr.sockFrees, hr.chmpx]
  · exact fun chain i hm hp => hm.retrieve_giveBack hp eqfd hm₁
  · exact fun chain hm hp => hm.retrieve_giveBack_lone hp eqfd hm₁
  · rw [hfrees]
    refine hchains.perm ?_
    show ([p :: a.frees, a'.slaves, a'.self] ++ a'.svrs :: []).Perm _
    exact List.perm_middle
  · rw [hfc, hr.freeCount]

/-- A node that is free again is in no other list, and the nodes are placed again. -/
theorem Dropped.places {eqfd : Bool} (h : Places m a) (hd : Dropped m m' a a' p eqfd)
    (hchains : m'.links.Chains [a'.svrs, a'.frees, a'.slaves, a'.self])
    (hcover : a'.all.Perm a.all) (hhead : m'.chmpxFrees = some p)
    (hcount : m'.chmpxFreeCount = m.chmpxFreeCount + 1)
    (hserverCount : a'.svrs.length ≤ m'.chmpxServerCount)
    (hslaves : m'.chmpxSlaves = a'.slaves.head?)
    (hsvr : ∀ q, q ∈ a'.svrs ↔ q ≠ p ∧ q ∈ a.svrs)
    (hslave : ∀ q, q ∈ a'.slaves ↔ q ≠ p ∧ q ∈ a.slaves)
    (hself : p ∈ a.svrs → m.chmpxSelf ≠ some p) : Places m' a' := by
  have hcover' : a'.all.Perm (List.range m'.chmpxCount) := by
    rw [hd.site.chmpxCount]
    exact hcover.trans h.cover
  refine ⟨⟨hchains, fun q hq => ?_, ?_, ?_, hserverCount, fun q hq => ?_, fun q hq => ?_⟩,
    hcover', hslaves, ?_, fun q hq => ?_⟩
  · rw [a'.flatten_eq] at hq
    exact List.mem_range.mp (hcover'.mem_iff.mp hq)
  · rw [hhead, hd.frees]
    rfl
  · rw [hcount, hd.frees, h.lists.freeCount]
    rfl
  · rw [hd.chmpx_eq] at hq
    split at hq
    · cases hq
    · rename_i hqp
      exact (hsvr q).mpr ⟨hqp, h.lists.server_mem q hq⟩
  · obtain ⟨hqp, hq⟩ := (hsvr q).mp hq
    rw [hd.chmpx_eq, if_neg hqp]
    exact h.lists.isServer q hq
  · rw [hd.site.chmpxSelf, hd.self]
    refine h.self.imp (fun hs => ⟨hs.1, fun q hq => (hsvr q).mpr ⟨?_, hs.2 q hq⟩⟩) id
    rintro rfl
    exact hself (hs.2 q hq) hq
  · rw [hd.chmpx_eq] at hq
    rw [hsvr, hslave, hd.self]
    split at hq
    · exact absurd rfl hq
    · rename_i hqp
      rcases h.live q hq with hq | hq | hq
      · exact Or.inl ⟨hqp, hq⟩
      · exact Or.inr (Or.inl ⟨hqp, hq⟩)
      · exact Or.inr (Or.inr hq)

theorem Places.frees_length_lt (h : Places m a) (hp : p ∈ a.svrs ∨ p ∈ a.slaves) :
    a.frees.length < m.chmpxCount := by
  have hlen := h.cover.length_eq
  simp only [Placement.all, List.length_append, List.length_range] at hlen
  rcases hp with hp | hp
  · have hpos := List.length_pos_of_mem hp
    omega
  · have hpos := List.length_pos_of_mem hp
    omega

theorem mem_remove {l₁ l₂ : List Ptr} (hnd : (l₁ ++ p :: l₂).Nodup) (q : Ptr) :
    q ∈ l₁ ++ l₂ ↔ q ≠ p ∧ q ∈ l₁ ++ p :: l₂ := by
  rw [List.perm_middle.nodup_iff, List.nodup_cons] at hnd
  rw [List.perm_middle.mem_iff, List.mem_cons]
  constructor
  · intro hq
    exact ⟨fun he => hnd.1 (he ▸ hq), Or.inr hq⟩
  · rintro ⟨hqp, hq⟩
    exact hq.resolve_left hqp

/-- A server other than this node leaves its list. -/
theorem Places.dropServer (h : Places m a) {l₁ l₂ : List Ptr} (hl : a.svrs = l₁ ++ p :: l₂)
    (hself : m.chmpxSelf ≠ some p) (eqfd : Bool) (head : Option Ptr)
    (hm' : m' = (((m.retrieve p).2.giveBack eqfd p).setServers
      (((m.retrieve p).2.giveBack eqfd p).chmpxServerCount - 1) head)) :
    DroppedServer m m' a ⟨l₁ ++ l₂, p :: a.frees, a.slaves, a.self⟩ p eqfd ∧
      Places m' ⟨l₁ ++ l₂, p :: a.frees, a.slaves, a.self⟩ ∧
      (m.retrieve p).1 = l₂.head?.or l₁.getLast? := by
  have hps : p ∈ a.svrs := by rw [hl]; simp
  have hnd : (l₁ ++ p :: l₂).Nodup := hl ▸ h.lists.nodup_svrs
  have hchains := h.chains
  rw [hl] at hchains
  have hr := retrieved m p
  have hk : (m.retrieve p).2.links.Chains ([p] :: a.frees :: [a.slaves, a.self] ++ [l₁ ++ l₂]) := by
    rw [hr.links]
    refine hchains.unlink.perm ?_
    show ((l₁ ++ l₂) :: [[p], a.frees, a.slaves, a.self]).Perm _
    exact (List.perm_append_singleton _ _).symm
  obtain ⟨hd, hkc, hfh, hfc, -, hsc⟩ := hr.dropped a
    ⟨l₁ ++ l₂, p :: a.frees, a.slaves, a.self⟩ eqfd rfl rfl hk h.lists.frees_head
    (h.frees_length_lt (Or.inl hps))
  obtain ⟨-, hslaves, hslaveCount, -⟩ := giveBack_rest eqfd p (m.retrieve p).2
  obtain ⟨same, map, he⟩ := retrieve_form m p
  have hscount : (m.retrieve p).2.chmpxServerCount = m.chmpxServerCount := by rw [he]; rfl
  have hle := h.lists.serverCount
  rw [hl] at hle
  simp only [List.length_append, List.length_cons] at hle
  have hd' : Dropped m m' a ⟨l₁ ++ l₂, p :: a.frees, a.slaves, a.self⟩ p eqfd := by
    rw [hm']
    exact ⟨⟨hd.site.1, hd.site.2, hd.site.3, hd.site.4⟩, rfl, rfl, hd.chmpx, hd.sockFreeCount,
      hd.sockFrees,
      fun chain i hm hp => (hd.mapped chain i hm hp).congr rfl rfl rfl fun _ _ _ => rfl,
      fun chain hm hp => (hd.lone chain hm hp).congr rfl rfl rfl fun _ _ _ => rfl⟩
  subst hm'
  refine ⟨⟨hd', hl ▸ List.perm_middle, rfl, ?_, ?_⟩, ?_, ?_⟩
  · show ((m.retrieve p).2.giveBack eqfd p).chmpxSlaveCount = _
    rw [hslaveCount, he]
    rfl
  · intro hc
    rw [hl] at hc
    simp only [List.length_append, List.length_cons] at hc
    show ((m.retrieve p).2.giveBack eqfd p).chmpxServerCount - 1 = (l₁ ++ l₂).length
    rw [hsc, hscount, hc, List.length_append]
    omega
  · refine hd'.places h hkc ?_ hfh hfc ?_ ?_ ?_ ?_ fun _ => hself
    · unfold Placement.all
      rw [hl]
      simp only [List.append_assoc, List.cons_append]
      exact (List.Perm.append_left l₁ (@List.perm_middle _ _ l₂ _))
    · show (l₁ ++ l₂).length ≤ ((m.retrieve p).2.giveBack eqfd p).chmpxServerCount - 1
      rw [hsc, hscount, List.length_append]
      omega
    · show ((m.retrieve p).2.giveBack eqfd p).chmpxSlaves = _
      rw [hslaves, he]
      exact h.slaves
    · intro q
      rw [hl]
      exact mem_remove hnd q
    · intro q
      refine ⟨fun hq => ⟨?_, hq⟩, fun hq => hq.2⟩
      rintro rfl
      exact h.lists.chains.disjoint_head hps (by simp [Placement.rest, hq])
  · rw [he, hchains.next_of_split, hchains.prev_of_split]

/-- `RemoveSlave` of a slave in the list. -/
theorem Places.dropSlave (h : Places m a) (hp : p ∈ a.slaves) {chmpxid : ChmpxId}
    (hf : m.find m.chmpxSlaves chmpxid = some p) (eqfd : Bool)
    (hm' : m' = (m.removeSlave chmpxid eqfd).2) :
    ∃ slaves', DroppedSlave m m' a ⟨a.svrs, p :: a.frees, slaves', a.self⟩ p eqfd ∧
      Places m' ⟨a.svrs, p :: a.frees, slaves', a.self⟩ ∧ m'.chmpxServers = m.chmpxServers := by
  obtain ⟨l₁, l₂, hl⟩ := List.append_of_mem hp
  have hchains : m.links.Chains ((l₁ ++ p :: l₂) :: [a.svrs, a.frees, a.self]) := by
    rw [← hl]
    refine h.chains.perm ?_
    show ([a.svrs, a.frees] ++ a.slaves :: [a.self]).Perm _
    exact List.perm_middle
  have hnd : (l₁ ++ p :: l₂).Nodup := hchains.nodup_head
  obtain ⟨same, map, he⟩ := retrieve_form m p
  have hu : (m.links.unlink p).Chains ((l₁ ++ l₂) :: [[p], a.svrs, a.frees, a.self]) :=
    hchains.unlink
  have hr := retrieved m p
  have hcur : (m.retrieve p).1 = l₂.head?.or l₁.getLast? := by
    rw [he, hchains.next_of_split, hchains.prev_of_split]
  have hlen : (l₁ ++ l₂).length ≤ m.chmpxCount := by
    have hle := h.cover.length_eq
    simp only [Placement.all, List.length_append, List.length_range, hl, List.length_cons] at hle
    rw [List.length_append]
    omega
  -- The slave list after `Retrieve`: its head and its counter.
  obtain ⟨m₁, n, hm₁, hman, hn⟩ : ∃ m₁ n, m₁ = (m.retrieve p).2.setSlaves n (l₁ ++ l₂).head? ∧
      m' = m₁.giveBack eqfd p ∧
      (m.chmpxSlaveCount = a.slaves.length → n = (l₁ ++ l₂).length) := by
    rw [hl, List.length_append, List.length_cons]
    have hrun : (m.removeSlave chmpxid eqfd).2 =
        ((m.retrieve p).1.elim ((m.retrieve p).2.setSlaves 0 none) fun _ =>
          (m.retrieve p).2.setSlaves ((m.retrieve p).2.chmpxSlaveCount - 1)
            ((m.retrieve p).2.getFirstPtr (m.retrieve p).1)).giveBack eqfd p := by
      cases hc : (m.retrieve p).1 <;> simp only [removeSlave, hf, hc] <;> rfl
    rw [hrun, hcur] at hm'
    cases hc : l₂.head?.or l₁.getLast? with
    | none =>
      obtain ⟨h₂, h₁⟩ := Option.or_eq_none_iff.mp hc
      obtain rfl := List.head?_eq_none_iff.mp h₂
      obtain rfl := List.getLast?_eq_none_iff.mp h₁
      rw [hc] at hm'
      exact ⟨_, 0, rfl, hm', fun _ => rfl⟩
    | some q =>
      have hq : q ∈ l₁ ++ l₂ := by
        rcases Option.or_eq_some_iff.mp hc with hq | ⟨-, hq⟩
        · exact List.mem_append_right _ (List.mem_of_head? hq)
        · exact List.mem_append_left _ (List.mem_of_getLast? hq)
      rw [hc, Option.elim_some] at hm'
      refine ⟨_, (m.retrieve p).2.chmpxSlaveCount - 1, rfl, ?_, fun hcount => ?_⟩
      rotate_right
      · have hcount' : (m.retrieve p).2.chmpxSlaveCount = m.chmpxSlaveCount := by rw [he]; rfl
        show (m.retrieve p).2.chmpxSlaveCount - 1 = _
        rw [hcount', hcount, List.length_append]
        omega
      · have hfirst : (m.retrieve p).2.getFirstPtr (some q) = (l₁ ++ l₂).head? := by
          rw [he]
          exact hu.first hq hlen
        rw [hm', hfirst]
  have hr₁ : Retrieved m m₁ p := by
    rw [hm₁]
    exact ⟨⟨hr.site.1, hr.site.2, hr.site.3, hr.site.4⟩, hr.links, hr.chmpx, hr.frees,
      hr.freeCount, hr.sockFreeCount, hr.sockFrees, hr.same, hr.chmpxidMap⟩
  have hk : m₁.links.Chains ([p] :: a.frees :: [l₁ ++ l₂, a.self] ++ [a.svrs]) := by
    rw [hr₁.links]
    refine hu.perm ?_
    have h₁ : ((l₁ ++ l₂) :: [[p], a.svrs, a.frees, a.self]).Perm
        ([p] :: (l₁ ++ l₂) :: [a.svrs, a.frees, a.self]) := List.Perm.swap _ _ _
    refine h₁.trans (List.Perm.cons _ ?_)
    show ([l₁ ++ l₂, a.svrs] ++ a.frees :: [a.self]).Perm (a.frees :: [l₁ ++ l₂, a.self, a.svrs])
    refine List.perm_middle.trans (List.Perm.cons _ (List.Perm.cons _ ?_))
    exact List.Perm.swap _ _ _
  obtain ⟨hd, hkc, hfh, hfc, hs, hsc⟩ := hr₁.dropped a
    ⟨a.svrs, p :: a.frees, l₁ ++ l₂, a.self⟩ eqfd rfl rfl hk h.lists.frees_head
    (h.frees_length_lt (Or.inr hp))
  obtain ⟨-, hslaves, hslaveCount, -⟩ := giveBack_rest eqfd p m₁
  have hservers : m₁.chmpxServers = m.chmpxServers ∧ m₁.chmpxServerCount = m.chmpxServerCount := by
    rw [hm₁, he]
    exact ⟨rfl, rfl⟩
  subst hman
  refine ⟨l₁ ++ l₂, ⟨hd, rfl, hl ▸ List.perm_middle, hsc.trans hservers.2, fun hc => ?_⟩, ?_,
    hs.trans hservers.1⟩
  · rw [hslaveCount, hm₁]
    exact hn hc
  · refine hd.places h hkc ?_ hfh hfc ?_ ?_ ?_ ?_ ?_
    · unfold Placement.all
      rw [hl]
      have h₁ : (p :: a.frees ++ (l₁ ++ l₂)).Perm (a.frees ++ (l₁ ++ p :: l₂)) := by
        rw [← List.append_assoc, ← List.append_assoc]
        exact (@List.perm_middle _ p (a.frees ++ l₁) l₂).symm
      simp only [List.append_assoc]
      refine List.Perm.append_left _ ?_
      have h₂ := h₁.append_right a.self
      simpa only [List.append_assoc, List.cons_append] using h₂
    · rw [hsc, hservers.2]
      exact h.lists.serverCount
    · rw [hslaves, hm₁]
      rfl
    · intro q
      refine ⟨fun hq => ⟨?_, hq⟩, fun hq => hq.2⟩
      rintro rfl
      exact h.lists.chains.disjoint_head hq (by simp [Placement.rest, hp])
    · intro q
      rw [hl]
      exact mem_remove hnd q
    · intro hps
      exact absurd hp fun hp => h.lists.chains.disjoint_head hps (by simp [Placement.rest, hp])

end ChmpxMan
end Chm
