/-
Merging the records of a status update.

`MergeChmpxSvrsForStatusUpdate` keeps the records of all servers, compares the packet's with
them and merges the packet's.  When that fails it merges the kept ones.  The merge fails when
a record of an unknown server finds no free node: `mergeRecords_isError` says so of the first
phase, whose table of chmpxids and free nodes `hasRoom` follows.
-/
import Chm.CompareSvrs
import Chm.EventSock
import Chm.InOrder
import Chm.UniqueIds

namespace Chm

namespace EventSock

/-- The arguments of `MergeChmpxSvrs` in a status update: no server is removed, and the node
is not starting. -/
def updateArgs (io : Outside) (type : ChmpxIdSeedType) (eqfd : Bool) (call : Nat) :
    ChmpxMan.MergeArgs where
  type := type
  isClientJoin := io.isClientJoin call
  isRemove := false
  isInitProcess := false
  eqfd := eqfd

def mergeChmpxSvrs (io : Outside) (type : ChmpxIdSeedType) (svrs : List ChmpxSvr)
    (s : EventSock) : Bool × EventSock :=
  s.call io (.server (.mergeChmpxSvrs (updateArgs io type s.eqfd s.calls) svrs))

/-- `MergeChmpxSvrsForStatusUpdate`. -/
def mergeChmpxSvrsForStatusUpdate (io : Outside) (cmp : Comparing) (svrs : List ChmpxSvr)
    (s : EventSock) : Bool × EventSock :=
  match s.getChmpxSvrs io with
  | none => (false, s)
  | some own =>
    if !cmp.compareChmpxSvrs (cmp.seedType = .custom) false true own svrs then (false, s)
    else
      let (ok, s) := s.mergeChmpxSvrs io cmp.seedType svrs
      if ok then (true, s)
      else
        -- The recovery; its result is only reported.
        (false, (s.mergeChmpxSvrs io cmp.seedType own).2)

end EventSock

namespace ChmpxMan

variable {env : Env} {args : MergeArgs} {selfchmpxid : ChmpxId} {svr : ChmpxSvr}
variable {m m₁ : ChmpxMan} {s : MergeState} {svrs frees : List Ptr} {rest : List (List Ptr)}
variable {p q : Ptr} {ids : List ChmpxId} {records : List ChmpxSvr}

/-! ## Room for the records -/

/-- The chmpxid of the server that a record makes. -/
def newChmpxId (env : Env) (type : ChmpxIdSeedType) (group : CStr) (svr : ChmpxSvr) : ChmpxId :=
  (Chmpx.initializeServer env type group svr Chmpx.cleared).2.chmpxid

/-- The records, one after the other, each name a chmpxid of the table or find it with a free
place.  A record of an unknown server takes the place unless its server is out of service
and down. -/
def hasRoom (newId : ChmpxSvr → ChmpxId) : List ChmpxId → Nat → List ChmpxSvr → Bool
  | _, _, [] => true
  | ids, free, svr :: svrs =>
    if svr.chmpxid ∈ ids then hasRoom newId ids free svrs
    else if free = 0 then false
    else if svr.status = ChmpxSts.srvoutDownNormal then hasRoom newId ids free svrs
    else hasRoom newId (newId svr :: ids) (free - 1) svrs

/-- Between two records: the lists are well formed and `ids` are the servers' chmpxids, which
the map holds. -/
structure Knows (ids : List ChmpxId) (s : MergeState) (svrs frees : List Ptr)
    (rest : List (List Ptr)) : Prop extends Merging s svrs frees rest where
  mapped : ∃ chain, MapOk s.man chain
  known : ∀ chmpxid, chmpxid ∈ ids ↔ ∃ p ∈ svrs, (s.man.chmpx p).chmpxid = chmpxid

theorem Knows.find_none_iff (h : Knows ids s svrs frees rest) (chmpxid : ChmpxId) :
    s.man.find s.cur chmpxid = none ↔ chmpxid ∉ ids := by
  obtain ⟨c, hc, hcur⟩ := h.cur
  obtain ⟨chain, hm⟩ := h.mapped
  rw [hcur, h.known]
  constructor
  · rintro hf ⟨p, hp, rfl⟩
    have hserver := h.lists.isServer p hp
    rw [hm.toMapped.find_eq (h.lists.server hc) hserver.valid, List.find?_eq_none] at hf
    refine hf p (hm.server p hserver.mode) ?_
    simp [isServerOf, hserver.mode]
  · intro hno
    cases hf : s.man.find (some c) chmpxid with
    | none => rfl
    | some p =>
      obtain ⟨hp, hid⟩ := h.lists.find_mem hc hf
      exact absurd ⟨p, hp, hid⟩ hno

/-- A record of a known server goes into the node of a server with its chmpxid. -/
theorem Knows.mergedAt (h : Knows ids s svrs frees rest) (env : Env) (args : MergeArgs)
    (selfchmpxid : ChmpxId) (hid : svr.chmpxid ∈ ids) :
    ∃ p, MergedAt env args selfchmpxid svr s (mergeRecord env args selfchmpxid svr s).1 svrs p := by
  obtain ⟨c, hc, hcur⟩ := h.cur
  rw [mergeRecord]
  cases hf : s.man.find s.cur svr.chmpxid with
  | none => exact absurd hid ((h.find_none_iff _).mp hf)
  | some p =>
    rw [hcur] at hf
    obtain ⟨hp, hpid⟩ := h.lists.find_mem hc hf
    exact ⟨p, hp, hpid, rfl, rfl, rfl⟩

theorem Knows.merged {s' : MergeState} (h : Knows ids s svrs frees rest)
    (hm : MergedAt env args selfchmpxid svr s s' svrs p) : Knows ids s' svrs frees rest := by
  have hs := SameShape.mergeChmpxSvr s.man env args.type
    (selfRecord args selfchmpxid (s.man.chmpx p) svr) p
  rw [← hm.man] at hs
  refine ⟨⟨hs.lists h.lists, hs.chmpxServers.trans h.head, p, hm.mem, hm.cur⟩,
    h.mapped.imp fun _ hmap => hmap.sameShape hs, fun chmpxid => ?_⟩
  simp only [hs.chmpxid]
  exact h.known chmpxid

theorem Knows.added {s' : MergeState} {frees' : List Ptr} (h : Knows ids s svrs frees rest)
    (ha : AddedAt env args svr s s' svrs frees frees' rest p)
    (hname : Chmpx.refuses env s.man.group svr.name = false) :
    ∃ svrs', Knows (newChmpxId env args.type s.man.group svr :: ids) s' svrs' frees' rest ∧
      svrs'.length = svrs.length + 1 := by
  obtain ⟨chain, hm⟩ := h.mapped
  obtain ⟨chain', hm', -⟩ := hm.added h.lists ha rfl
    (initializeServer_isServer args.type hname Chmpx.cleared)
  have hperm := List.perm_orderedInsert (After args.type s'.man.chmpx) p svrs
  refine ⟨_, ⟨ha.merging, ⟨chain', hm'⟩, fun chmpxid => ?_⟩, hperm.length_eq⟩
  have hold : ∀ q ∈ svrs, s'.man.chmpx q = s.man.chmpx q := fun q hq => by
    have hqp : q ≠ p := fun he => ha.fresh (he ▸ hq)
    rw [ha.chmpx, Function.update_of_ne hqp]
  have hnew : (s'.man.chmpx p).chmpxid = newChmpxId env args.type s.man.group svr := by
    rw [ha.chmpx, Function.update_self]
    rfl
  rw [List.mem_cons, h.known]
  constructor
  · rintro (rfl | ⟨q, hq, rfl⟩)
    · exact ⟨p, hperm.mem_iff.mpr List.mem_cons_self, hnew⟩
    · exact ⟨q, hperm.mem_iff.mpr (List.mem_cons_of_mem _ hq), by rw [hold q hq]⟩
  · rintro ⟨q, hq, rfl⟩
    rcases List.mem_cons.mp (hperm.mem_iff.mp hq) with rfl | hq
    · exact Or.inl hnew
    · exact Or.inr ⟨q, hq, by rw [hold q hq]⟩

/-- A record of an unknown server has a host name that `Initialize` accepts, when it adds
the server. -/
def AddsNamed (env : Env) (ids : List ChmpxId) (m : ChmpxMan) (records : List ChmpxSvr) : Prop :=
  ∀ svr ∈ records, svr.chmpxid ∉ ids → NameAccepted env m svr

/-- The records that follow have room as they have in the table that a record leaves. -/
theorem AddsNamed.next {ids' : List ChmpxId} (h : AddsNamed env ids m (svr :: records))
    (hsub : ids ⊆ ids') (hgroup : m₁.group = m.group)
    (hfree : m₁.chmpxFreeCount ≤ m.chmpxFreeCount) : AddsNamed env ids' m₁ records := by
  intro r hr hid hne hst
  rw [hgroup]
  exact h r (List.mem_cons_of_mem svr hr) (fun hold => hid (hsub hold)) (by omega) hst

/-- The first phase reports an error exactly when the records have no room, and then no node
is free.  It moves free nodes to the server list and nothing else. -/
theorem mergeRecords_isError (args : MergeArgs) (selfchmpxid : ChmpxId)
    (h : Knows ids s svrs frees rest) (hnames : AddsNamed env ids s.man records) :
    (mergeRecords env args selfchmpxid records s).1.isError = (s.isError ||
        !hasRoom (newChmpxId env args.type s.man.group) ids frees.length records) ∧
      SameSite s.man (mergeRecords env args selfchmpxid records s).1.man ∧
      ∃ ids' svrs' frees',
        Knows ids' (mergeRecords env args selfchmpxid records s).1 svrs' frees' rest ∧
        svrs'.length + frees'.length = svrs.length + frees.length ∧
        frees'.length ≤ frees.length ∧
        ((mergeRecords env args selfchmpxid records s).1.isError = true →
          s.isError = true ∨ frees' = []) := by
  induction records generalizing s ids svrs frees with
  | nil =>
    exact ⟨(Bool.or_false _).symm, SameSite.refl _, ids, svrs, frees, h, rfl, le_refl _, Or.inl⟩
  | cons svr records ih =>
    have hrun : (mergeRecords env args selfchmpxid (svr :: records) s).1 =
        (mergeRecords env args selfchmpxid records (mergeRecord env args selfchmpxid svr s).1).1 :=
      rfl
    have hfc := h.lists.freeCount
    rw [hrun]
    by_cases hid : svr.chmpxid ∈ ids
    · obtain ⟨p, hm⟩ := h.mergedAt env args selfchmpxid hid
      have hs := SameShape.mergeChmpxSvr s.man env args.type
        (selfRecord args selfchmpxid (s.man.chmpx p) svr) p
      rw [← hm.man] at hs
      obtain ⟨herr, hsite, hrest⟩ := ih (h.merged hm)
        (hnames.next (List.Subset.refl _) hs.group hs.chmpxFreeCount.le)
      rw [hm.isError, hs.group] at herr
      rw [hm.isError] at hrest
      rw [hasRoom, if_pos hid]
      exact ⟨herr, hs.site.trans hsite, hrest⟩
    · have hnone := (h.find_none_iff _).mpr hid
      by_cases hfree : s.man.chmpxFreeCount = 0
      · -- No node is free, now and later.
        have hnil : frees = [] := List.length_eq_zero_iff.mp (hfc.symm.trans hfree)
        have he : (mergeRecord env args selfchmpxid svr s).1 = { s with isError := true } := by
          simp only [mergeRecord, hnone, if_pos hfree]
        rw [he]
        obtain ⟨herr, hsite, ids', svrs', frees', hk, hsum, hle, -⟩ := ih
          (s := { s with isError := true }) ⟨⟨h.lists, h.head, h.cur⟩, h.mapped, h.known⟩
          (hnames.next (List.Subset.refl _) rfl le_rfl)
        rw [hasRoom, if_neg hid, hnil, List.length_nil, if_pos rfl, herr]
        rw [hnil] at hsum hle
        exact ⟨by simp, hsite, ids', svrs', frees', hk, hsum, hle,
          fun _ => Or.inr (List.length_eq_zero_iff.mp (Nat.le_zero.mp hle))⟩
      · have hlen : frees.length ≠ 0 := hfc ▸ hfree
        have hname := hnames svr List.mem_cons_self hid
        rw [hasRoom, if_neg hid, if_neg hlen]
        rcases mergeRecord_cases args selfchmpxid h.toMerging hname with
          ⟨p, hf, -⟩ | ⟨-, h0, -⟩ | ⟨-, hst, he⟩ | ⟨-, p, frees', ha⟩
        · rw [hnone] at hf
          cases hf
        · exact absurd h0 hfree
        · rw [he, if_pos hst]
          exact ih h (hnames.next (List.Subset.refl _) rfl le_rfl)
        · have hlen' : frees.length = frees'.length + 1 := ha.free.length_eq
          obtain ⟨svrs', hk, hone⟩ := h.added ha (hname hfree ha.status)
          obtain ⟨herr, hsite, ids'', svrs'', frees'', hk', hsum, hle, hfull⟩ := ih hk
            (hnames.next (List.subset_cons_self _ _) ha.site.group
              (by rw [hfc, hk.lists.freeCount]; omega))
          rw [ha.isError, ha.site.group] at herr
          rw [ha.isError] at hfull
          rw [if_neg ha.status, hlen', Nat.add_sub_cancel]
          exact ⟨herr, ha.site.trans hsite, ids'', svrs'', frees'', hk', by omega, by omega, hfull⟩

/-! ## The whole call -/

/-- The chmpxids of the servers in list order. -/
def idsOf (m : ChmpxMan) (svrs : List Ptr) : List ChmpxId := svrs.map fun p => (m.chmpx p).chmpxid

theorem Formed.knows (h : Formed m svrs frees rest) (hmap : ∃ chain, MapOk m chain)
    (hne : svrs ≠ []) :
    Knows (m.idsOf svrs) ⟨m.chmpxServers, false, m⟩ svrs frees rest := by
  obtain ⟨p, l, rfl⟩ := List.exists_cons_of_ne_nil hne
  exact ⟨h.merging, hmap, fun chmpxid => List.mem_map⟩

/-- A call that removes no server and does not fail the renumbering. -/
theorem mergeChmpxSvrs_keeping (hremove : args.isRemove = false) (hrec : records ≠ [])
    (env : Env) (m : ChmpxMan) :
    ∃ s, s = (mergeRecords env args m.keptChmpxId records ⟨m.chmpxServers, false, m⟩).1 ∧
      (mergeChmpxSvrs env args records m).1 =
        !(s.isError || !(s.man.updateHash env .both true true).1) ∧
      (mergeChmpxSvrs env args records m).2.2 =
        (s.man.updateHash env .both true true).2.recount s.cur := by
  obtain ⟨s, hs, hres, hman⟩ := mergeChmpxSvrs_eq env args m hrec
  rw [removePhase, hremove, Bool.and_false, if_neg Bool.false_ne_true] at hs
  exact ⟨s, hs, hres, hman⟩

/-- A call on a list that is not empty fails exactly when the records have no room, and then
no node is free. -/
theorem mergeChmpxSvrs_hasRoom (env : Env) (args : MergeArgs) (hremove : args.isRemove = false)
    (hrec : records ≠ []) (h : Formed m svrs frees rest) (hmap : ∃ chain, MapOk m chain)
    (hne : svrs ≠ []) (hnames : AddsNamed env (m.idsOf svrs) m records) :
    (mergeChmpxSvrs env args records m).1 =
        hasRoom (newChmpxId env args.type m.group) (m.idsOf svrs) frees.length records ∧
      ∃ svrs' frees', Formed (mergeChmpxSvrs env args records m).2.2 svrs' frees' rest ∧
        (∃ chain, MapOk (mergeChmpxSvrs env args records m).2.2 chain) ∧
        svrs'.length + frees'.length = svrs.length + frees.length ∧
        frees'.length ≤ frees.length ∧
        ((mergeChmpxSvrs env args records m).1 = false → frees' = []) := by
  obtain ⟨s, hs, hres, hman⟩ := mergeChmpxSvrs_keeping hremove hrec env m
  obtain ⟨herr, hsite, ids', svrs', frees', hk, hsum, hle, hfull⟩ :=
    mergeRecords_isError args m.keptChmpxId (h.knows hmap hne) hnames
  rw [← hs] at herr hsite hk hfull
  have hf : Formed s.man svrs' frees' rest :=
    ⟨hk.lists, hk.head, hsite.chmpxCount ▸ h.area⟩
  have hne' : svrs' ≠ [] := by
    obtain ⟨c, hc, -⟩ := hk.cur
    exact List.ne_nil_of_mem hc
  have hok : (s.man.updateHash env .both true true).1 = true := by
    obtain ⟨m', hrun, -⟩ := updateHash_spec env .both hf hne'
    rw [hrun]
  have hshape : SameShape s.man ((s.man.updateHash env .both true true).2.recount s.cur) :=
    ((SameRecords.updateHash _ env .both true true).trans (SameRecords.recount _ s.cur)).toSameShape
  rw [hok, Bool.not_true, Bool.or_false] at hres
  rw [hman]
  refine ⟨?_, svrs', frees', hshape.formed hf, hk.mapped.imp fun _ hm => hm.sameShape hshape, hsum,
    hle, fun hno => ?_⟩
  · rw [hres, herr, Bool.false_or, Bool.not_not]
  · rw [hres] at hno
    exact (hfull (by simpa using hno)).resolve_left Bool.false_ne_true

end ChmpxMan
end Chm
