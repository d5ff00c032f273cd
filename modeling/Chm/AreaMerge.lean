/-
`MergeChmpxSvrs` as moves of nodes.

A record is merged where its server is, is left out, or moves a free node to the server
list; the second phase moves servers to the free list.  `mergeChmpxSvrs_rule` is the
rule for a property of the placed nodes: what every such move keeps, the call keeps.
-/
import Chm.Area
import Chm.StatusMerge

namespace Chm

namespace ChmpxMan

variable {env : Env} {args : MergeArgs} {selfchmpxid : ChmpxId} {svr : ChmpxSvr}
variable {m m' : ChmpxMan} {s : MergeState} {a a' : Placement} {p : Ptr} {c : Chmpx}
variable {records : List ChmpxSvr} {P : ChmpxMan → Placement → Prop}

/-- A property of the placed nodes that is no matter of the records' contents, of the head
of the server list and of the replica count. -/
structure Stable (P : ChmpxMan → Placement → Prop) : Prop where
  rewritten : ∀ {m m' a}, Rewritten m m' → P m a → P m' a
  head : ∀ {m a} head, P m a → P (m.setServers m.chmpxServerCount head) a
  replica : ∀ {m a} n, P m a → P { m with replicaCount := n } a

/-- A record that adds a server that is not in the list. -/
def adds (svr : ChmpxSvr) : Bool := svr.status ≠ ChmpxSts.srvoutDownNormal

/-- The records that make servers when the list is empty. -/
def addedRecords (records : List ChmpxSvr) (m : ChmpxMan) : List ChmpxSvr :=
  (records.filter adds).take m.chmpxFreeCount

/-- A call that finds no server in the list adds one at most, and none when it also
removes servers.  Every record that adds a server has a host name that `Initialize`
accepts. -/
structure MergeFits (env : Env) (args : MergeArgs) (records : List ChmpxSvr) (m : ChmpxMan) :
    Prop where
  single : m.chmpxServers = none → (addedRecords records m).length ≤ 1
  noRemove : m.chmpxServers = none → args.isRemove = true → addedRecords records m = []
  names : ∀ svr ∈ records, m.chmpxFreeCount ≠ 0 → adds svr = true →
    Chmpx.refuses env m.group svr.name = false

/-- What the moves of one call must keep. -/
structure MergeKeeps (P : ChmpxMan → Placement → Prop) (env : Env) (args : MergeArgs)
    (group : CStr) (selfchmpxid : ChmpxId) (records : List ChmpxSvr) : Prop where
  stable : Stable P
  added : ∀ svr ∈ records, adds svr = true → ∀ {m m' a a' p}, Places m a →
    (∀ q ∈ a.svrs, m.find (some q) svr.chmpxid = none) →
    AddedServer m m' a a' p
      (Chmpx.initializeServer env args.type group svr Chmpx.cleared).2 → P m a → P m' a'
  dropped : args.isRemove = true → ∀ {m m' a a' p}, Places m a → p ∈ a.svrs →
    kept selfchmpxid (records.map (·.chmpxid)) (m.chmpx p) = false →
    DroppedServer m m' a a' p args.eqfd → P m a → P m' a'

/-- A server that is this node itself has the chmpxid that a merge keeps. -/
def SelfKept (m : ChmpxMan) (selfchmpxid : ChmpxId) : Prop :=
  ∀ p, m.chmpxSelf = some p → (m.chmpx p).isServerMode = true →
    (m.chmpx p).chmpxid = selfchmpxid

theorem selfKept_keptChmpxId (m : ChmpxMan) : SelfKept m m.keptChmpxId := by
  intro p hp hmode
  have hsm : m.isServerMode = true := by
    rw [isServerMode, hp]
    exact hmode
  rw [keptChmpxId, if_pos hsm, getSelfChmpxId, hp]

theorem SelfKept.rewritten (h : SelfKept m selfchmpxid) (hw : Rewritten m m') :
    SelfKept m' selfchmpxid := by
  intro p hp hmode
  rw [hw.shape.chmpxid]
  exact h p (hw.shape.chmpxSelf ▸ hp) (hw.shape.isServerMode p ▸ hmode)

theorem Places.self_not_free (h : Places m a) (hp : m.chmpxSelf = some p) : p ∉ a.frees := by
  intro hfree
  obtain ⟨hs, -, he⟩ := h.notMem_of_free hfree
  rcases h.self with ⟨-, hself⟩ | ⟨q, hq, hself⟩
  · exact hs (hself p hp)
  · rw [hq] at hp
    obtain rfl : q = p := Option.some.inj hp
    exact he (by rw [hself]; exact List.mem_cons_self)

theorem SelfKept.added (h : SelfKept m selfchmpxid) (hpl : Places m a)
    (ha : Added m m' a a' p c) : SelfKept m' selfchmpxid := by
  intro q hq hmode
  rw [ha.site.chmpxSelf] at hq
  have hqp : q ≠ p := fun he => hpl.self_not_free hq (he ▸ ha.mem_free)
  rw [ha.chmpx_eq, if_neg hqp] at hmode ⊢
  exact h q hq hmode

theorem SelfKept.dropped {eqfd : Bool} (h : SelfKept m selfchmpxid)
    (hd : Dropped m m' a a' p eqfd) : SelfKept m' selfchmpxid := by
  intro q hq hmode
  rw [hd.site.chmpxSelf] at hq
  rw [hd.chmpx_eq] at hmode ⊢
  split at hmode
  · cases hmode
  · rename_i hqp
    rw [if_neg hqp]
    exact h q hq hmode

/-- A server that is not kept is another node. -/
theorem SelfKept.ne_self {chmpxids : List ChmpxId} (h : SelfKept m selfchmpxid)
    (hpl : Places m a) (hp : p ∈ a.svrs)
    (hk : kept selfchmpxid chmpxids (m.chmpx p) = false) : m.chmpxSelf ≠ some p := by
  intro hself
  have hid := h p hself (hpl.lists.server hp)
  simp [kept, hid] at hk

/-! ## The first phase -/

/-- The state between two records of a server list that is not empty. -/
structure Filling (s : MergeState) (a : Placement) : Prop where
  places : Places s.man a
  head : s.man.chmpxServers = a.svrs.head?
  cur : ∃ c ∈ a.svrs, s.cur = some c

/-- A host name that makes a server makes one without sockets. -/
theorem initializeServer_socklist (env : Env) (type : ChmpxIdSeedType) (group : CStr)
    (svr : ChmpxSvr) :
    (Chmpx.initializeServer env type group svr Chmpx.cleared).2.socklist = [] := by
  rw [Chmpx.initializeServer, Chmpx.initializeChmpx]
  split
  · rfl
  · rename_i hc
    split at hc
    · cases hc
    · cases hc
      dsimp only
      split <;> rfl

/-- A record of an unknown server moves a free node to the list. -/
theorem mergeRecord_added (args : MergeArgs) (selfchmpxid : ChmpxId) (h : Places s.man a)
    (hcur : CursorIn s.cur a.svrs) (hf : s.man.find s.cur svr.chmpxid = none)
    (hfree : s.man.chmpxFreeCount ≠ 0) (hadds : adds svr = true)
    (hname : Chmpx.refuses env s.man.group svr.name = false) :
    ∃ p svrs' frees', AddedServer s.man (mergeRecord env args selfchmpxid svr s).1.man a
        ⟨svrs', frees', a.slaves, a.self⟩ p
        (Chmpx.initializeServer env args.type s.man.group svr Chmpx.cleared).2 ∧
      Places (mergeRecord env args selfchmpxid svr s).1.man
        ⟨svrs', frees', a.slaves, a.self⟩ ∧
      (mergeRecord env args selfchmpxid svr s).1.man.chmpxServers = svrs'.head? ∧
      (mergeRecord env args selfchmpxid svr s).1.cur = s.cur.bind fun _ => svrs'.head? := by
  obtain ⟨p, frees', m₁, hnew, ht, hhead, hcount⟩ := newServer_taken env args svr h hfree
  have hserver := initializeServer_isServer args.type hname Chmpx.cleared
  have hst : svr.status ≠ ChmpxSts.srvoutDownNormal := by simpa [adds] using hadds
  have hrun : (mergeRecord env args selfchmpxid svr s).1 =
      { s with
        cur := (insertServer args.type (some p) s.cur m₁).1
        man := (insertServer args.type (some p) s.cur m₁).2 } := by
    simp only [mergeRecord, hf, if_neg hfree, if_neg hst, hnew]
  have hframe : (insertServer args.type (some p) s.cur m₁).2.chmpxFrees = frees'.head? ∧
      (insertServer args.type (some p) s.cur m₁).2.chmpxFreeCount = frees'.length := by
    rw [← hhead, ← hcount]
    cases s.cur with
    | none =>
      obtain ⟨same, map, hs⟩ := saveChmpxIdMap_eq m₁ p
      simp only [insertServer, hs]
      exact ⟨rfl, rfl⟩
    | some q =>
      have hsave : ∀ k : Links Ptr,
          ((m₁.setLinks k).saveChmpxIdMap p).chmpxFrees = m₁.chmpxFrees ∧
          ((m₁.setLinks k).saveChmpxIdMap p).chmpxFreeCount = m₁.chmpxFreeCount := by
        intro k
        obtain ⟨same, map, hs⟩ := saveChmpxIdMap_eq (m₁.setLinks k) p
        rw [hs]
        exact ⟨rfl, rfl⟩
      simp only [insertServer, insert]
      split <;> exact hsave _
  have hself : (insertServer args.type (some p) s.cur m₁).2 =
      (insertServer args.type (some p) s.cur m₁).2.setFrees frees'.length frees'.head? := by
    rw [← hframe.1, ← hframe.2]
    rfl
  obtain ⟨svrs', hadded, hplaces, hservers, hcur'⟩ := ht.insertServer h hserver
    (initializeServer_socklist env args.type s.man.group svr) args.type hcur hself
  rw [hrun]
  exact ⟨p, svrs', frees', hadded, hplaces, hservers, hcur'⟩

/-- One record of a server list that is not empty. -/
theorem mergeRecord_rule (hP : MergeKeeps P env args s.man.group selfchmpxid records)
    (hsvr : svr ∈ records) (h : Filling s a) (hname : NameAccepted env s.man svr)
    (hself : SelfKept s.man selfchmpxid) (hp : P s.man a) :
    ∃ a', Filling (mergeRecord env args selfchmpxid svr s).1 a' ∧
      SelfKept (mergeRecord env args selfchmpxid svr s).1.man selfchmpxid ∧
      P (mergeRecord env args selfchmpxid svr s).1.man a' := by
  obtain ⟨c, hc, hcur⟩ := h.cur
  cases hf : s.man.find s.cur svr.chmpxid with
  | some p =>
    have hmem : p ∈ a.svrs := by
      rw [hcur] at hf
      exact (h.places.lists.find_mem hc hf).1
    have hw : Rewritten s.man (mergeRecord env args selfchmpxid svr s).1.man := by
      simp only [mergeRecord, hf]
      exact Rewritten.of_written
        (Written.mergeChmpxSvr (P := fun _ _ => True) (fun _ => trivial) env args.type p s.man)
    have hcur' : (mergeRecord env args selfchmpxid svr s).1.cur = some p := by
      simp only [mergeRecord, hf]
    exact ⟨a, ⟨hw.places h.places, hw.rest.servers.trans h.head, p, hmem, hcur'⟩,
      hself.rewritten hw, hP.stable.rewritten hw hp⟩
  | none =>
    by_cases hfree : s.man.chmpxFreeCount = 0
    · have hrun : (mergeRecord env args selfchmpxid svr s).1 = { s with isError := true } := by
        simp only [mergeRecord, hf, if_pos hfree]
      rw [hrun]
      exact ⟨a, ⟨h.places, h.head, h.cur⟩, hself, hp⟩
    · by_cases hadds : adds svr = true
      · have hname' := hname hfree (by simpa [adds] using hadds)
        obtain ⟨p, svrs', frees', hadded, hplaces, hhead, hcur'⟩ := mergeRecord_added
          args selfchmpxid h.places (by rw [hcur]; exact hc) hf hfree hadds hname'
        rw [hcur] at hf
        have hnone : ∀ q ∈ a.svrs, s.man.find (some q) svr.chmpxid = none := by
          intro q hq
          rw [← hf]
          unfold find
          simp only [Option.bind_some, searchChmpxid, h.places.lists.server hq,
            h.places.lists.server hc]
        refine ⟨_, ⟨hplaces, hhead, ?_⟩, hself.added h.places hadded.toAdded,
          hP.added svr hsvr hadds h.places hnone hadded hp⟩
        rw [hcur', hcur]
        have hperm := hadded.svrs
        cases hl : svrs' with
        | nil =>
          rw [hl] at hperm
          exact absurd hperm.length_eq (by simp)
        | cons q l => exact ⟨q, List.mem_cons_self, rfl⟩
      · have hst : svr.status = ChmpxSts.srvoutDownNormal := by simpa [adds] using hadds
        have hrun : (mergeRecord env args selfchmpxid svr s).1 = s := by
          simp only [mergeRecord, hf, if_neg hfree, if_pos hst]
        rw [hrun]
        exact ⟨a, h, hself, hp⟩

theorem Filling.merging (h : Filling s a) : Merging s a.svrs a.frees a.rest :=
  ⟨h.places.lists, h.head, h.cur⟩

/-- The first phase on a server list that is not empty. -/
theorem mergeRecords_rule (hP : MergeKeeps P env args m.group selfchmpxid records)
    (rs : List ChmpxSvr) (hsub : ∀ svr ∈ rs, svr ∈ records) (hsite : SameSite m s.man)
    (h : Filling s a) (hname : ∀ svr ∈ rs, NameAccepted env s.man svr)
    (hself : SelfKept s.man selfchmpxid) (hp : P s.man a) :
    ∃ a', Filling (mergeRecords env args selfchmpxid rs s).1 a' ∧
      SelfKept (mergeRecords env args selfchmpxid rs s).1.man selfchmpxid ∧
      P (mergeRecords env args selfchmpxid rs s).1.man a' ∧
      SameSite m (mergeRecords env args selfchmpxid rs s).1.man := by
  induction rs generalizing s a with
  | nil => exact ⟨a, h, hself, hp, hsite⟩
  | cons svr rs ih =>
    have hsvr := hname svr List.mem_cons_self
    obtain ⟨hstep, hfree, -⟩ := mergeRecord_merging args selfchmpxid h.merging hsvr
    obtain ⟨a', h', hself', hp'⟩ := mergeRecord_rule (hsite.group ▸ hP)
      (hsub svr List.mem_cons_self) h hsvr hself hp
    have hname' : ∀ r ∈ rs,
        NameAccepted env (mergeRecord env args selfchmpxid svr s).1.man r := by
      intro r hr hne hst
      rw [hstep.group]
      exact hname r (List.mem_cons_of_mem _ hr) (by omega) hst
    exact ih (fun r hr => hsub r (List.mem_cons_of_mem _ hr)) (hsite.trans hstep) h' hname' hself'
      hp'

/-- The first phase on an empty server list that adds one server at most.  The cursor
stays null. -/
theorem mergeRecords_empty (hP : MergeKeeps P env args m.group selfchmpxid records)
    (rs : List ChmpxSvr) (hsub : ∀ svr ∈ rs, svr ∈ records) (hsite : SameSite m s.man)
    (h : Places s.man a) (hnil : a.svrs = []) (hhead : s.man.chmpxServers = none)
    (hcur : s.cur = none) (hsingle : (addedRecords rs s.man).length ≤ 1)
    (hname : ∀ svr ∈ rs, NameAccepted env s.man svr)
    (hself : SelfKept s.man selfchmpxid) (hp : P s.man a) :
    (mergeRecords env args selfchmpxid rs s).1.cur = none ∧ ∃ a',
      Places (mergeRecords env args selfchmpxid rs s).1.man a' ∧
      (mergeRecords env args selfchmpxid rs s).1.man.chmpxServers = a'.svrs.head? ∧
      P (mergeRecords env args selfchmpxid rs s).1.man a' ∧
      SameSite m (mergeRecords env args selfchmpxid rs s).1.man := by
  have hidle : ∀ (rs' : List ChmpxSvr) (s' : MergeState) (b : Placement), s'.cur = none →
      (s'.man.chmpxFreeCount = 0 ∨ ∀ svr ∈ rs', svr.status = ChmpxSts.srvoutDownNormal) →
      SameSite m s'.man → Places s'.man b → s'.man.chmpxServers = b.svrs.head? → P s'.man b →
      (mergeRecords env args selfchmpxid rs' s').1.cur = none ∧ ∃ a',
        Places (mergeRecords env args selfchmpxid rs' s').1.man a' ∧
        (mergeRecords env args selfchmpxid rs' s').1.man.chmpxServers = a'.svrs.head? ∧
        P (mergeRecords env args selfchmpxid rs' s').1.man a' ∧
        SameSite m (mergeRecords env args selfchmpxid rs' s').1.man := by
    intro rs' s' b hc hadd hs hb hh hpb
    obtain ⟨hman, hcur'⟩ := mergeRecords_idle env args selfchmpxid rs' hc hadd
    rw [hman]
    exact ⟨hcur', b, hb, hh, hpb, hs⟩
  have hhead' : s.man.chmpxServers = a.svrs.head? := by rw [hhead, hnil]; rfl
  induction rs generalizing s with
  | nil => exact ⟨hcur, a, h, hhead', hp, hsite⟩
  | cons svr rs ih =>
    by_cases hfree : s.man.chmpxFreeCount = 0
    · exact hidle (svr :: rs) s a hcur (Or.inl hfree) hsite h hhead' hp
    · have hf : s.man.find s.cur svr.chmpxid = none := by rw [hcur]; rfl
      have hrs : ∀ r ∈ rs, r ∈ records := fun r hr => hsub r (List.mem_cons_of_mem _ hr)
      by_cases hadds : adds svr = true
      · have hname' := hname svr List.mem_cons_self hfree (by simpa [adds] using hadds)
        obtain ⟨p, svrs', frees', hadded, hplaces, hservers, hcur'⟩ := mergeRecord_added args
          selfchmpxid h (by rw [hcur]; exact hnil) hf hfree hadds hname'
        rw [hcur] at hcur'
        rw [hsite.group] at hadded
        have hpb := hP.added svr (hsub svr List.mem_cons_self) hadds h
          (fun q hq => absurd hq (by simp [hnil])) hadded hp
        -- Either this was the last free node or no further record adds a server.
        have hadd : (mergeRecord env args selfchmpxid svr s).1.man.chmpxFreeCount = 0 ∨
            ∀ r ∈ rs, r.status = ChmpxSts.srvoutDownNormal := by
          have hfc : (mergeRecord env args selfchmpxid svr s).1.man.chmpxFreeCount =
              frees'.length := hplaces.lists.freeCount
          have hfc' := h.lists.freeCount
          have hlen : a.frees.length = frees'.length + 1 := hadded.frees.length_eq
          unfold addedRecords at hsingle
          rw [List.filter_cons_of_pos hadds, List.length_take, List.length_cons] at hsingle
          by_cases hz : s.man.chmpxFreeCount = 1
          · left
            omega
          · right
            have hnone : rs.filter adds = [] := List.length_eq_zero_iff.mp (by omega)
            intro r hr
            have hr' := List.filter_eq_nil_iff.mp hnone r hr
            simpa [adds] using hr'
        exact hidle rs _ _ hcur' hadd (hsite.trans hadded.site) hplaces hservers hpb
      · have hst : svr.status = ChmpxSts.srvoutDownNormal := by simpa [adds] using hadds
        have hrun : (mergeRecord env args selfchmpxid svr s).1 = s := by
          simp only [mergeRecord, hf, if_neg hfree, if_pos hst]
        have hrest := ih hrs hsite h hhead hcur
          (by
            unfold addedRecords at hsingle ⊢
            rwa [List.filter_cons_of_neg hadds] at hsingle)
          (fun r hr => hname r (List.mem_cons_of_mem _ hr)) hself hp hhead'
        have hcons : (mergeRecords env args selfchmpxid (svr :: rs) s).1 =
            (mergeRecords env args selfchmpxid rs s).1 := by
          show (mergeRecords env args selfchmpxid rs
            (mergeRecord env args selfchmpxid svr s).1).1 = _
          rw [hrun]
        rw [hcons]
        exact hrest

/-! ## The second phase -/

/-- The servers of a manager are in one list only. -/
theorem Lists.svrs_unique {l l' f f' : List Ptr} {r r' : List (List Ptr)} (h : Lists m l f r)
    (h' : Lists m l' f' r') : l = l' := by
  have hmem : ∀ p, p ∈ l ↔ p ∈ l' := fun p =>
    ⟨fun hp => h'.server_mem p (h.server hp), fun hp => h.server_mem p (h'.server hp)⟩
  cases l with
  | nil =>
    cases l' with
    | nil => rfl
    | cons q l' => exact absurd ((hmem q).mpr List.mem_cons_self) List.not_mem_nil
  | cons p l =>
    have hp := (hmem p).mp List.mem_cons_self
    exact (h.nodes_eq List.mem_cons_self).symm.trans (h'.nodes_eq hp)

theorem Places.setServers (h : Places m a) (head : Option Ptr) :
    Places (m.setServers m.chmpxServerCount head) a :=
  ⟨h.lists.setServers head, h.cover, h.slaves, h.self, h.live⟩

/-- The second phase moves the servers that it does not keep to the free list. -/
theorem removeServers_rule (hP : MergeKeeps P env args m.group selfchmpxid records)
    (hremove : args.isRemove = true) (h : Filling s a) (hself : SelfKept s.man selfchmpxid)
    (hp : P s.man a) :
    ∃ a', Places (removeServers args selfchmpxid (records.map (·.chmpxid)) s).man a' ∧
      (removeServers args selfchmpxid (records.map (·.chmpxid)) s).man.chmpxServers =
        a'.svrs.head? ∧
      P (removeServers args selfchmpxid (records.map (·.chmpxid)) s).man a' ∧
      SameSite s.man (removeServers args selfchmpxid (records.map (·.chmpxid)) s).man := by
  obtain ⟨frees', hr⟩ := removeServers_spec args selfchmpxid h.merging (records.map (·.chmpxid))
  obtain ⟨c, hc, hcur⟩ := h.cur
  have hfirst : s.man.first c ∈ a.svrs := by
    have hf := h.places.lists.first_eq hc
    exact List.mem_of_head? hf.symm
  have hloop := removeLoop_rule (P := fun m => ∃ b, Places m b ∧ SelfKept m selfchmpxid ∧ P m b)
    args selfchmpxid (records.map (·.chmpxid))
    (fun t q l₁ l₂ frees (hl : Lists t.man (l₁ ++ q :: l₂) frees a.rest) hk
        ⟨b, hb, hbself, hpb⟩ => by
      have hq : q ∈ b.svrs := hb.lists.server_mem q (hl.server (by simp))
      obtain ⟨k₁, k₂, hsplit⟩ := List.append_of_mem hq
      obtain ⟨hd, hplaces, -⟩ := hb.dropServer hsplit (hbself.ne_self hb hq hk) args.eqfd
        ((t.man.retrieve q).2.giveBack args.eqfd q).chmpxServers
        (show (removeServer args q t).man = _ from rfl)
      exact ⟨_, hplaces, hbself.dropped hd.toDropped,
        hP.dropped hremove hb hq hk hd hpb⟩)
    (s.man.chmpxCount + 2) { s with cur := some (s.man.first c) } a.svrs a.frees h.places.lists
    hfirst ⟨a, h.places, hself, hp⟩
  obtain ⟨b, hb, -, hpb⟩ := hloop
  have hman : ∃ head, (removeServers args selfchmpxid (records.map (·.chmpxid)) s).man =
      (removeLoop args selfchmpxid (records.map (·.chmpxid)) (s.man.chmpxCount + 2)
        { s with cur := some (s.man.first c) }).man.setServers
        (removeLoop args selfchmpxid (records.map (·.chmpxid)) (s.man.chmpxCount + 2)
          { s with cur := some (s.man.first c) }).man.chmpxServerCount head := by
    simp only [removeServers, hcur, setServersHead]
    split
    · exact ⟨none, rfl⟩
    · exact ⟨_, rfl⟩
  obtain ⟨head, hman⟩ := hman
  have hplaces : Places (removeServers args selfchmpxid (records.map (·.chmpxid)) s).man b := by
    rw [hman]
    exact hb.setServers head
  refine ⟨b, hplaces, ?_, ?_, hr.site⟩
  · rw [hr.head, hr.lists.svrs_unique hplaces.lists]
  · rw [hman]
    exact hP.stable.head head hpb

/-! ## The whole call -/

/-- The rule for `MergeChmpxSvrs`. -/
theorem mergeChmpxSvrs_rule (h : Area m a) (hfits : MergeFits env args records m)
    (hP : MergeKeeps P env args m.group m.keptChmpxId records) (hp : P m a) :
    ∃ a', Area (mergeChmpxSvrs env args records m).2.2 a' ∧
      P (mergeChmpxSvrs env args records m).2.2 a' := by
  by_cases hrec : records = []
  · subst hrec
    exact ⟨a, h, hp⟩
  obtain ⟨s, hs, -, hman⟩ := mergeChmpxSvrs_eq env args m hrec
  rw [mergeRecords_chmpxid] at hs
  have hself := selfKept_keptChmpxId m
  have hnames : ∀ svr ∈ records, NameAccepted env m svr := fun svr hsvr hfree hst =>
    hfits.names svr hsvr hfree (by simpa [adds] using hst)
  obtain ⟨a', hplaces, hhead, hpa, hsite⟩ : ∃ a', Places s.man a' ∧
      s.man.chmpxServers = a'.svrs.head? ∧ P s.man a' ∧ SameSite m s.man := by
    rw [hs]
    cases hsvrs : a.svrs with
    | nil =>
      have hnone : m.chmpxServers = none := by rw [h.servers, hsvrs]; rfl
      obtain ⟨hcur, a', hplaces, hhead, hpa, hsite⟩ := mergeRecords_empty
        (s := ⟨m.chmpxServers, false, m⟩) hP records (fun _ h => h) (SameSite.refl m) h.toPlaces
        hsvrs hnone hnone (hfits.single hnone) hnames hself hp
      unfold removePhase
      split
      · -- Nothing was added, and the head is set to null again.
        rename_i hrm
        have hremove : args.isRemove = true := (Bool.and_eq_true_iff.mp hrm).2
        have hadd : m.chmpxFreeCount = 0 ∨
            ∀ svr ∈ records, svr.status = ChmpxSts.srvoutDownNormal := by
          rcases List.take_eq_nil_iff.mp (hfits.noRemove hnone hremove) with hz | hz
          · exact Or.inl hz
          · refine Or.inr fun svr hsvr => ?_
            simpa [adds] using List.filter_eq_nil_iff.mp hz svr hsvr
        obtain ⟨hsame, -⟩ := mergeRecords_idle env args m.keptChmpxId records
          (s := ⟨m.chmpxServers, false, m⟩) hnone hadd
        rw [removeServers, hcur]
        dsimp only
        have hform : ∃ n, (setServersHead (mergeRecords env args m.keptChmpxId records
            ⟨m.chmpxServers, false, m⟩).1).man = m.setServers m.chmpxServerCount n ∧
            n = none := by
          simp only [setServersHead, hsame, hcur]
          split <;> exact ⟨none, rfl, rfl⟩
        obtain ⟨n, hform, rfl⟩ := hform
        rw [hform]
        exact ⟨a, h.toPlaces.setServers none, by rw [hsvrs]; rfl, hP.stable.head none hp,
          ⟨rfl, rfl, rfl, rfl⟩⟩
      · exact ⟨a', hplaces, hhead, hpa, hsite⟩
    | cons q l =>
      have hfill : Filling ⟨m.chmpxServers, false, m⟩ a :=
        ⟨h.toPlaces, h.servers, q, by rw [hsvrs]; exact List.mem_cons_self,
          by show m.chmpxServers = some q; rw [h.servers, hsvrs]; rfl⟩
      obtain ⟨a', hfill', hself', hpa, hsite⟩ := mergeRecords_rule hP records (fun _ h => h)
        (SameSite.refl m) hfill hnames hself hp
      unfold removePhase
      split
      · rename_i hrm
        have hremove : args.isRemove = true := (Bool.and_eq_true_iff.mp hrm).2
        obtain ⟨b, hb, hhead, hpb, hsite'⟩ := removeServers_rule hP hremove hfill' hself' hpa
        exact ⟨b, hb, hhead, hpb, hsite.trans hsite'⟩
      · exact ⟨a', hfill'.places, hfill'.head, hpa, hsite⟩
  have hw : Rewritten s.man ((s.man.updateHash env .both true true).2.recount s.cur) :=
    Rewritten.of_status ((Written.updateHash (fun _ _ => True) env .both true true s.man).trans
      (Written.single (Write.recount s.cur)))
  have harea : Area s.man a' := ⟨hplaces, hhead, hsite.chmpxCount ▸ h.limit⟩
  rw [hman]
  exact ⟨a', hw.area harea, hP.stable.rewritten hw hpa⟩

end ChmpxMan
end Chm
