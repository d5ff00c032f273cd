/-
What `MergeChmpxSvrs` does to the server list.

`mergeRecord_cases` says once what the first phase can do with a record: merge it
into the server it is about, leave it out, or add a server in order.  The second
phase filters the list (`removeLoop_spec`).
-/
import Chm.ListOps

namespace Chm

namespace ChmpxMan

variable {env : Env} {args : MergeArgs} {selfchmpxid : ChmpxId} {svr : ChmpxSvr}
variable {m : ChmpxMan} {s : MergeState} {svrs frees : List Ptr} {rest : List (List Ptr)}
variable {p c : Ptr}

/-- The state between two records of a non-empty server list: its head is set and
the cursor is at one of its servers. -/
structure Merging (s : MergeState) (svrs frees : List Ptr) (rest : List (List Ptr)) : Prop where
  lists : Lists s.man svrs frees rest
  head : s.man.chmpxServers = svrs.head?
  cur : ∃ c ∈ svrs, s.cur = some c

/-- A record went into the node of its server. -/
structure MergedAt (env : Env) (args : MergeArgs) (selfchmpxid : ChmpxId) (svr : ChmpxSvr)
    (s s' : MergeState) (svrs : List Ptr) (p : Ptr) : Prop where
  mem : p ∈ svrs
  chmpxid : (s.man.chmpx p).chmpxid = svr.chmpxid
  cur : s'.cur = some p
  isError : s'.isError = s.isError
  man : s'.man = s.man.mergeChmpxSvr env args.type
    (selfRecord args selfchmpxid (s.man.chmpx p) svr) p

/-- A record made a new server at `p`. -/
structure AddedAt (env : Env) (args : MergeArgs) (svr : ChmpxSvr) (s s' : MergeState)
    (svrs frees frees' : List Ptr) (rest : List (List Ptr)) (p : Ptr) : Prop where
  status : svr.status ≠ ChmpxSts.srvoutDownNormal
  fresh : p ∉ svrs
  free : frees.Perm (p :: frees')
  lists : Lists s'.man (svrs.orderedInsert (After args.type s'.man.chmpx) p) frees' rest
  head : s'.man.chmpxServers = (svrs.orderedInsert (After args.type s'.man.chmpx) p).head?
  cur : s'.cur = s'.man.chmpxServers
  isError : s'.isError = s.isError
  chmpx : s'.man.chmpx = Function.update s.man.chmpx p
    (Chmpx.initializeServer env args.type s.man.group svr Chmpx.cleared).2
  site : SameSite s.man s'.man
  run : ∃ m, newServer env args svr s.man = (some p, m) ∧
    s'.man = (insertServer args.type (some p) s.cur m).2

/-- A record that would make a new server has a host name that `Initialize`
accepts. -/
def NameAccepted (env : Env) (m : ChmpxMan) (svr : ChmpxSvr) : Prop :=
  m.chmpxFreeCount ≠ 0 → svr.status ≠ ChmpxSts.srvoutDownNormal →
    Chmpx.refuses env m.group svr.name = false

theorem AddedAt.merging {s' : MergeState} {frees' : List Ptr}
    (h : AddedAt env args svr s s' svrs frees frees' rest p) :
    Merging s' (svrs.orderedInsert (After args.type s'.man.chmpx) p) frees' rest := by
  refine ⟨h.lists, h.head, ?_⟩
  have hperm := List.perm_orderedInsert (After args.type s'.man.chmpx) p svrs
  cases hl : svrs.orderedInsert (After args.type s'.man.chmpx) p with
  | nil => exact absurd (hl ▸ hperm).symm (List.cons_ne_nil _ _ ∘ List.Perm.eq_nil)
  | cons q l => exact ⟨q, List.mem_cons_self, by rw [h.cur, h.head, hl]; rfl⟩

/-- What the first phase does with one record. -/
theorem mergeRecord_cases (args : MergeArgs) (selfchmpxid : ChmpxId)
    (h : Merging s svrs frees rest) (hname : NameAccepted env s.man svr) :
    (∃ p, s.man.find s.cur svr.chmpxid = some p ∧
        MergedAt env args selfchmpxid svr s (mergeRecord env args selfchmpxid svr s).1 svrs p) ∨
      s.man.find s.cur svr.chmpxid = none ∧ s.man.chmpxFreeCount = 0 ∧
        (mergeRecord env args selfchmpxid svr s).1 = { s with isError := true } ∨
      s.man.find s.cur svr.chmpxid = none ∧ svr.status = ChmpxSts.srvoutDownNormal ∧
        (mergeRecord env args selfchmpxid svr s).1 = s ∨
      s.man.find s.cur svr.chmpxid = none ∧ ∃ p frees',
        AddedAt env args svr s (mergeRecord env args selfchmpxid svr s).1 svrs frees frees' rest
          p := by
  obtain ⟨c, hc, hcur⟩ := h.cur
  rw [mergeRecord]
  cases hf : s.man.find s.cur svr.chmpxid with
  | some p =>
    rw [hcur] at hf
    obtain ⟨hp, hid⟩ := h.lists.find_mem hc hf
    exact Or.inl ⟨p, rfl, hp, hid, rfl, rfl, rfl⟩
  | none =>
    refine Or.inr ?_
    dsimp only
    by_cases hfree : s.man.chmpxFreeCount = 0
    · exact Or.inl ⟨rfl, hfree, by rw [if_pos hfree]⟩
    · by_cases hst : svr.status = ChmpxSts.srvoutDownNormal
      · exact Or.inr (Or.inl ⟨rfl, hst, by rw [if_neg hfree, if_pos hst]⟩)
      · refine Or.inr (Or.inr ⟨rfl, ?_⟩)
        obtain ⟨p, frees', m₁, hnew, hfresh⟩ := newServer_spec env args svr h.lists hfree
        have hserver := initializeServer_isServer args.type (hname hfree hst)
          Chmpx.cleared
        obtain ⟨m₂, hins, hl, hhead, hchm, hsite⟩ := insertServer_spec args.type h.lists hfresh hc
          hserver
        refine ⟨p, frees', ?_⟩
        have hrun : m₂ = (insertServer args.type (some p) s.cur m₁).2 := by rw [hcur, hins]
        rw [if_neg hfree, if_neg hst, hnew, hcur]
        dsimp only
        rw [hins]
        have hp : p ∉ svrs := fun hp => (hfresh.chains.disjoint_head hp) (by simp)
        exact ⟨hst, hp, hfresh.perm, hchm ▸ hl, hchm ▸ hhead, rfl, rfl, hchm.trans hfresh.chmpx,
          hfresh.site.trans hsite, m₁, hnew, hrun⟩

/-- One record keeps the lists. -/
theorem mergeRecord_merging (args : MergeArgs) (selfchmpxid : ChmpxId)
    (h : Merging s svrs frees rest) (hname : NameAccepted env s.man svr) :
    SameSite s.man (mergeRecord env args selfchmpxid svr s).1.man ∧
      (mergeRecord env args selfchmpxid svr s).1.man.chmpxFreeCount ≤ s.man.chmpxFreeCount ∧
      ∃ svrs' frees', Merging (mergeRecord env args selfchmpxid svr s).1 svrs' frees' rest := by
  rcases mergeRecord_cases args selfchmpxid h hname with
    ⟨p, -, hm⟩ | ⟨-, -, he⟩ | ⟨-, -, he⟩ | ⟨-, p, frees', ha⟩
  · have hs := SameShape.mergeChmpxSvr s.man env args.type
      (selfRecord args selfchmpxid (s.man.chmpx p) svr) p
    rw [← hm.man] at hs
    exact ⟨hs.site, hs.chmpxFreeCount.le, svrs, frees, hs.lists h.lists,
      hs.chmpxServers.trans h.head, p, hm.mem, hm.cur⟩
  · rw [he]
    exact ⟨SameSite.refl _, le_refl _, svrs, frees, h.lists, h.head, h.cur⟩
  · rw [he]
    exact ⟨SameSite.refl _, le_refl _, svrs, frees, h⟩
  · refine ⟨ha.site, ?_, _, frees', ha.merging⟩
    rw [ha.lists.freeCount, h.lists.freeCount, ha.free.length_eq, List.length_cons]
    exact Nat.le_succ _

/-- The first phase keeps the lists. -/
theorem mergeRecords_merging (args : MergeArgs) (selfchmpxid : ChmpxId) (records : List ChmpxSvr)
    (h : Merging s svrs frees rest)
    (hname : ∀ svr ∈ records, NameAccepted env s.man svr) :
    SameSite s.man (mergeRecords env args selfchmpxid records s).1.man ∧ ∃ svrs' frees',
      Merging (mergeRecords env args selfchmpxid records s).1 svrs' frees' rest := by
  induction records generalizing s svrs frees with
  | nil => exact ⟨SameSite.refl _, svrs, frees, h⟩
  | cons svr records ih =>
    obtain ⟨hsite, hfree, svrs', frees', h'⟩ := mergeRecord_merging args selfchmpxid
      h (hname svr List.mem_cons_self)
    obtain ⟨hsite', hr⟩ := ih h' fun svr hsvr hne hst => by
      rw [hsite.group]
      exact hname svr (List.mem_cons_of_mem _ hsvr) (by omega) hst
    exact ⟨hsite.trans hsite', hr⟩

/-- With no server to start from and none to add, the first phase does nothing
but report the lack of free nodes. -/
theorem mergeRecords_idle (env : Env) (args : MergeArgs) (selfchmpxid : ChmpxId)
    (records : List ChmpxSvr) (hcur : s.cur = none)
    (hadd : s.man.chmpxFreeCount = 0 ∨
      ∀ svr ∈ records, svr.status = ChmpxSts.srvoutDownNormal) :
    (mergeRecords env args selfchmpxid records s).1.man = s.man ∧
      (mergeRecords env args selfchmpxid records s).1.cur = none := by
  induction records generalizing s with
  | nil => exact ⟨rfl, hcur⟩
  | cons svr records ih =>
    have hstep : (mergeRecord env args selfchmpxid svr s).1.man = s.man ∧
        (mergeRecord env args selfchmpxid svr s).1.cur = none := by
      have hf : s.man.find s.cur svr.chmpxid = none := by rw [hcur]; rfl
      simp only [mergeRecord, hf]
      rcases hadd with hfree | hst
      · rw [if_pos hfree]
        exact ⟨rfl, hcur⟩
      · rw [if_pos (hst svr List.mem_cons_self)]
        split <;> exact ⟨rfl, hcur⟩
    obtain ⟨hman, hnone⟩ := ih hstep.2 (by
      rw [hstep.1]
      exact hadd.imp_right fun hst svr hsvr => hst svr (List.mem_cons_of_mem _ hsvr))
    exact ⟨hman.trans hstep.1, hnone⟩

/-- Each record of a call is in order at the state that the records before it leave. -/
def EachRecord (K : ChmpxSvr → MergeState → Prop) (env : Env) (args : MergeArgs)
    (selfchmpxid : ChmpxId) : List ChmpxSvr → MergeState → Prop
  | [], _ => True
  | svr :: svrs, s =>
    K svr s ∧ EachRecord K env args selfchmpxid svrs (mergeRecord env args selfchmpxid svr s).1

theorem EachRecord.mono {K K' : ChmpxSvr → MergeState → Prop} (hK : ∀ svr s, K svr s → K' svr s)
    (records : List ChmpxSvr) :
    ∀ s, EachRecord K env args selfchmpxid records s →
      EachRecord K' env args selfchmpxid records s := by
  induction records with
  | nil => exact fun _ _ => trivial
  | cons svr records ih => exact fun s h => ⟨hK svr s h.1, ih _ h.2⟩

theorem eachRecord {K : ChmpxSvr → MergeState → Prop} (hK : ∀ svr s, K svr s)
    (records : List ChmpxSvr) : ∀ s, EachRecord K env args selfchmpxid records s := by
  induction records with
  | nil => exact fun _ => trivial
  | cons svr records ih => exact fun s => ⟨hK svr s, ih _⟩

/-! ## The second phase -/

/-- The second phase keeps a server: it is this node's own or a record names
it. -/
def kept (selfchmpxid : ChmpxId) (chmpxids : List ChmpxId) (c : Chmpx) : Bool :=
  c.chmpxid = selfchmpxid ∨ c.chmpxid ∈ chmpxids

/-- The servers of `svrs` that the second phase keeps. -/
def keptServers (selfchmpxid : ChmpxId) (chmpxids : List ChmpxId) (chmpx : Ptr → Chmpx)
    (svrs : List Ptr) : List Ptr :=
  svrs.filter fun p => kept selfchmpxid chmpxids (chmpx p)

theorem keptServers_cons_of_pos {chmpxids : List ChmpxId} {chmpx : Ptr → Chmpx} {l : List Ptr}
    (h : kept selfchmpxid chmpxids (chmpx p) = true) :
    keptServers selfchmpxid chmpxids chmpx (p :: l) =
      p :: keptServers selfchmpxid chmpxids chmpx l :=
  List.filter_cons_of_pos h

theorem keptServers_cons_of_neg {chmpxids : List ChmpxId} {chmpx : Ptr → Chmpx} {l : List Ptr}
    (h : ¬kept selfchmpxid chmpxids (chmpx p) = true) :
    keptServers selfchmpxid chmpxids chmpx (p :: l) =
      keptServers selfchmpxid chmpxids chmpx l :=
  List.filter_cons_of_neg h

/-- The cursor is at one of `svrs`, or null when there is none. -/
def CursorIn (cur : Cursor) (svrs : List Ptr) : Prop :=
  match cur with
  | none => svrs = []
  | some c => c ∈ svrs

/-- From a server on, the loop takes out what is not kept.  The induction is on
the servers after the cursor; when the last one goes the cursor falls back to one
that was kept before, and the loop ends there. -/
theorem removeLoop_spec (args : MergeArgs) (selfchmpxid : ChmpxId) (chmpxids : List ChmpxId)
    (l₂ : List Ptr) :
    ∀ (l₁ : List Ptr) (p : Ptr) (s : MergeState) (frees : List Ptr) (fuel : Nat),
      Lists s.man (l₁ ++ p :: l₂) frees rest → s.cur = some p →
      (∀ q ∈ l₁, kept selfchmpxid chmpxids (s.man.chmpx q) = true) → l₂.length + 2 ≤ fuel →
      ∃ frees', Lists (removeLoop args selfchmpxid chmpxids fuel s).man
          (l₁ ++ keptServers selfchmpxid chmpxids s.man.chmpx (p :: l₂)) frees' rest ∧
        CursorIn (removeLoop args selfchmpxid chmpxids fuel s).cur
          (l₁ ++ keptServers selfchmpxid chmpxids s.man.chmpx (p :: l₂)) ∧
        SameSite s.man (removeLoop args selfchmpxid chmpxids fuel s).man ∧
        ∀ q ∈ l₁ ++ keptServers selfchmpxid chmpxids s.man.chmpx (p :: l₂),
          (removeLoop args selfchmpxid chmpxids fuel s).man.chmpx q = s.man.chmpx q := by
  induction l₂ with
  | nil =>
    intro l₁ p s frees fuel h hcur hkept hfuel
    obtain ⟨fuel, rfl⟩ : ∃ n, fuel = n + 2 := ⟨fuel - 2, by simp at hfuel; omega⟩
    by_cases hk : kept selfchmpxid chmpxids (s.man.chmpx p) = true
    · have hnext : s.man.toNext p = none := h.chains.next_of_split
      have hs : removeLoop args selfchmpxid chmpxids (fuel + 2) s = s := by
        rw [removeLoop, hcur]
        dsimp only
        rw [if_pos (by simpa [kept] using hk), hnext]
      rw [hs, keptServers_cons_of_pos hk]
      refine ⟨frees, h, ?_, SameSite.refl _, fun _ _ => rfl⟩
      rw [hcur]
      exact List.mem_append_right _ List.mem_cons_self
    · obtain ⟨hl, hc, -, hchm, hsite⟩ := removeServer_spec args h
      have hstep : removeLoop args selfchmpxid chmpxids (fuel + 2) s =
          removeLoop args selfchmpxid chmpxids (fuel + 1) (removeServer args p s) := by
        rw [removeLoop, hcur]
        dsimp only
        rw [if_neg (by simpa [kept] using hk)]
      have hsame : ∀ q ∈ l₁, (removeServer args p s).man.chmpx q = s.man.chmpx q := by
        intro q hq
        have hne : q ≠ p := fun he => by
          have hnd := h.nodup_svrs
          rw [he] at hq
          exact (List.nodup_append'.mp hnd).2.2 hq List.mem_cons_self
        rw [hchm, Function.update_of_ne hne]
      rw [hstep, keptServers_cons_of_neg hk, keptServers, List.filter_nil, List.append_nil]
      rw [List.append_nil] at hl
      cases l₁ using List.reverseRecOn with
      | nil =>
        have hnone : (removeServer args p s).cur = none := hc
        refine ⟨p :: frees, ?_, ?_, ?_, fun q hq => absurd hq List.not_mem_nil⟩
        all_goals
          rw [removeLoop, hnone]
          dsimp only
          split
        · exact hl
        · exact ⟨hl.1, hl.2, hl.3, hl.4, hl.5, hl.6, hl.7⟩
        · rw [hnone]
          rfl
        · rfl
        · exact hsite
        · exact hsite
      | append_singleton l₁ z =>
        have hz : (removeServer args p s).cur = some z := by
          rw [hc]
          simp
        have hkz : kept selfchmpxid chmpxids ((removeServer args p s).man.chmpx z) = true := by
          rw [hsame z (by simp)]
          exact hkept z (by simp)
        have hnext : (removeServer args p s).man.toNext z = none := hl.chains.next_of_split
        have hs : removeLoop args selfchmpxid chmpxids (fuel + 1) (removeServer args p s) =
            removeServer args p s := by
          rw [removeLoop, hz]
          dsimp only
          rw [if_pos (by simpa [kept] using hkz), hnext]
        rw [hs]
        refine ⟨p :: frees, hl, ?_, hsite, hsame⟩
        rw [hz]
        exact List.mem_append_right _ List.mem_cons_self
  | cons r l₂ ih =>
    intro l₁ p s frees fuel h hcur hkept hfuel
    obtain ⟨fuel, rfl⟩ : ∃ n, fuel = n + 1 := ⟨fuel - 1, by simp at hfuel; omega⟩
    have hfuel' : l₂.length + 2 ≤ fuel := by
      rw [List.length_cons] at hfuel
      omega
    by_cases hk : kept selfchmpxid chmpxids (s.man.chmpx p) = true
    · have hnext : s.man.toNext p = some r := h.chains.next_of_split
      have hs : removeLoop args selfchmpxid chmpxids (fuel + 1) s =
          removeLoop args selfchmpxid chmpxids fuel { s with cur := some r } := by
        rw [removeLoop, hcur]
        dsimp only
        rw [if_pos (by simpa [kept] using hk), hnext]
      have hl' : Lists s.man ((l₁ ++ [p]) ++ r :: l₂) frees rest := by simpa using h
      have hkept' : ∀ q ∈ l₁ ++ [p], kept selfchmpxid chmpxids (s.man.chmpx q) = true := by
        intro q hq
        rcases List.mem_append.mp hq with hq | hq
        · exact hkept q hq
        · rw [List.mem_singleton.mp hq]
          exact hk
      have hr := ih (l₁ ++ [p]) r { s with cur := some r } frees fuel hl' rfl hkept' hfuel'
      rw [hs, keptServers_cons_of_pos hk]
      simpa only [List.append_assoc, List.singleton_append] using hr
    · obtain ⟨hl, hc, -, hchm, hsite⟩ := removeServer_spec args h
      have hstep : removeLoop args selfchmpxid chmpxids (fuel + 1) s =
          removeLoop args selfchmpxid chmpxids fuel (removeServer args p s) := by
        rw [removeLoop, hcur]
        dsimp only
        rw [if_neg (by simpa [kept] using hk)]
      have hsame : ∀ q ∈ l₁ ++ r :: l₂,
          (removeServer args p s).man.chmpx q = s.man.chmpx q := by
        intro q hq
        have hne : q ≠ p := fun he => by
          have hnd := h.nodup_svrs
          rw [List.perm_middle.nodup_iff, List.nodup_cons] at hnd
          exact hnd.1 (he ▸ hq)
        rw [hchm, Function.update_of_ne hne]
      have hkept' : ∀ q ∈ l₁,
          kept selfchmpxid chmpxids ((removeServer args p s).man.chmpx q) = true := by
        intro q hq
        rw [hsame q (List.mem_append_left _ hq)]
        exact hkept q hq
      have hfilter : keptServers selfchmpxid chmpxids (removeServer args p s).man.chmpx (r :: l₂) =
          keptServers selfchmpxid chmpxids s.man.chmpx (r :: l₂) :=
        List.filter_congr fun q hq => by rw [hsame q (List.mem_append_right _ hq)]
      obtain ⟨frees', h₁, h₂, h₃, h₄⟩ := ih l₁ r (removeServer args p s) (p :: frees) fuel hl hc
        hkept' hfuel'
      rw [hfilter] at h₁ h₂ h₄
      rw [hstep, keptServers_cons_of_neg hk]
      refine ⟨frees', h₁, h₂, hsite.trans h₃, fun q hq => (h₄ q hq).trans (hsame q ?_)⟩
      rcases List.mem_append.mp hq with hq | hq
      · exact List.mem_append_left _ hq
      · exact List.mem_append_right _ (List.mem_of_mem_filter hq)

theorem Lists.setServers (h : Lists m svrs frees rest) (head : Option Ptr) :
    Lists (m.setServers m.chmpxServerCount head) svrs frees rest :=
  ⟨h.1, h.2, h.3, h.4, h.5, h.6, h.7⟩

/-- What the second phase leaves. -/
structure Removed (s s' : MergeState) (svrs frees : List Ptr) (rest : List (List Ptr)) : Prop where
  lists : Lists s'.man svrs frees rest
  head : s'.man.chmpxServers = svrs.head?
  cur : CursorIn s'.cur svrs
  site : SameSite s.man s'.man
  chmpx : ∀ q ∈ svrs, s'.man.chmpx q = s.man.chmpx q

theorem setServersHead_spec {s' : MergeState} {l : List Ptr} (hl : Lists s'.man l frees rest)
    (hcur : CursorIn s'.cur l) :
    Lists (setServersHead s').man l frees rest ∧ (setServersHead s').man.chmpxServers = l.head? ∧
      CursorIn (setServersHead s').cur l ∧ (setServersHead s').man.chmpx = s'.man.chmpx ∧
      SameSite s'.man (setServersHead s').man := by
  have hk := hl.serverCount
  rw [setServersHead]
  split
  · rename_i h0
    obtain rfl : l = [] := List.length_eq_zero_iff.mp (by omega)
    exact ⟨hl.setServers none, rfl, hcur, rfl, rfl, rfl, rfl, rfl⟩
  · have hhead : s'.man.getFirstPtr s'.cur = l.head? := by
      cases hcs : s'.cur with
      | none =>
        rw [hcs] at hcur
        have hnil : l = [] := hcur
        rw [hnil]
        rfl
      | some c =>
        rw [hcs] at hcur
        exact hl.getFirstPtr_eq hcur
    refine ⟨hl.setServers _, hhead, ?_, rfl, rfl, rfl, rfl, rfl⟩
    show CursorIn (s'.man.getFirstPtr s'.cur) l
    rw [hhead]
    cases l with
    | nil => rfl
    | cons q l => exact List.mem_cons_self

/-- The second phase leaves the servers that are kept. -/
theorem removeServers_spec (args : MergeArgs) (selfchmpxid : ChmpxId)
    (h : Merging s svrs frees rest) (chmpxids : List ChmpxId) :
    ∃ frees', Removed s (removeServers args selfchmpxid chmpxids s)
      (keptServers selfchmpxid chmpxids s.man.chmpx svrs) frees' rest := by
  obtain ⟨c, hc, hcur⟩ := h.cur
  cases svrs with
  | nil => cases hc
  | cons p l₂ =>
    have hfirst : s.man.first c = p := Option.some.inj (h.lists.first_eq hc)
    have hlen : l₂.length + 2 ≤ s.man.chmpxCount + 2 := by
      have := h.lists.length_le List.mem_cons_self
      rw [List.length_cons] at this
      omega
    obtain ⟨frees', hl, hcin, hsite, hchm⟩ := removeLoop_spec args
      selfchmpxid chmpxids l₂ [] p { s with cur := some p } frees
      (s.man.chmpxCount + 2) h.lists rfl (fun q hq => absurd hq List.not_mem_nil) hlen
    rw [List.nil_append] at hl hcin hchm
    obtain ⟨hl', hhead, hcin', hchm', hsite'⟩ := setServersHead_spec hl hcin
    rw [removeServers, hcur]
    dsimp only
    rw [hfirst]
    exact ⟨frees', hl', hhead, hcin', hsite.trans hsite', fun q hq => by rw [hchm', hchm q hq]⟩

end ChmpxMan
end Chm
