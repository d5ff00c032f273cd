/-
What `MergeChmpxSvrs` does to the status of one server.

A record comes with the time at which its status was set at the node that set it.
`CompareStatusUpdateTime` decides from the stamps of the two records whether the
status is taken.  When it decides as the times would, the node's status goes through
a call as a last-writer-wins register goes through its records.
-/
import Chm.Lib.LastWriter
import Chm.MapLists
import Chm.MergeHashes

namespace Chm

namespace ChmpxMan

variable {ω : Type*} [LinearOrder ω] {env : Env} {args : MergeArgs} {selfchmpxid chmpxid : ChmpxId}
variable {m m' : ChmpxMan} {s : MergeState} {svrs frees : List Ptr} {rest : List (List Ptr)}
variable {chain : Nat → List Ptr} {p : Ptr} {v : Option ChmpxSts}
variable {record : ChmpxSvr × ω} {records : List (ChmpxSvr × ω)}
variable {held : Option (Stamped ω ChmpxSts)}

/-- The status that a node has of a server. -/
def statusOf (m : ChmpxMan) (chmpxid : ChmpxId) : Option ChmpxSts :=
  (m.find m.chmpxServers chmpxid).map fun p => (m.chmpx p).status

/-- The map finds the server with the status `v`. -/
def Shows (m : ChmpxMan) (chmpxid : ChmpxId) (v : Option ChmpxSts) : Prop :=
  ∃ chain, MapOk m chain ∧ (m.lookup chain chmpxid).map (·.status) = v

theorem MapOk.statusOf_eq (h : MapOk m chain) (hf : Formed m svrs frees rest)
    (hid : chmpxid ≠ chmInvalidChmpxId) :
    (m.lookup chain chmpxid).map (·.status) = m.statusOf chmpxid := by
  unfold statusOf
  rw [hf.head]
  cases svrs with
  | nil =>
    have hnone : m.lookup chain chmpxid = none := by
      refine List.find?_eq_none.mpr fun c hc => ?_
      obtain ⟨q, -, rfl⟩ := List.mem_map.mp hc
      intro hq
      rw [isServerOf, Bool.and_eq_true] at hq
      exact List.not_mem_nil (hf.lists.server_mem q hq.1)
    rw [hnone]
    rfl
  | cons p l =>
    rw [← h.find_map hf.lists List.mem_cons_self hid, Option.map_map]
    rfl

theorem Shows.statusOf_eq (h : Shows m chmpxid v) (hf : Formed m svrs frees rest)
    (hid : chmpxid ≠ chmInvalidChmpxId) : m.statusOf chmpxid = v := by
  obtain ⟨chain, hm, hv⟩ := h
  rw [← hm.statusOf_eq hf hid, hv]

/-- A step that moves no node and changes no status. -/
theorem Shows.congr (h : Shows m chmpxid v) (hs : SameShape m m') (hst : SameStatuses m m') :
    Shows m' chmpxid v := by
  obtain ⟨chain, hm, hv⟩ := h
  refine ⟨chain, hm.sameShape hs, ?_⟩
  have hp : ∀ q, isServerOf chmpxid (m'.chmpx q) = isServerOf chmpxid (m.chmpx q) := by
    intro q
    rw [isServerOf, isServerOf, hs.isServerMode, hs.chmpxid]
  rw [← hv]
  unfold lookup
  rw [List.find?_map, List.find?_map, Option.map_map, Option.map_map]
  have hpred : isServerOf chmpxid ∘ m'.chmpx = isServerOf chmpxid ∘ m.chmpx := funext hp
  rw [hpred]
  exact congrArg (fun f => Option.map f _) (funext hst.status)

/-- A node that the map finds, written in place. -/
theorem MapOk.shows_update {c : Chmpx} (h : MapOk m chain) (hl : Lists m svrs frees rest)
    {cur : Ptr} (hcur : cur ∈ svrs) (hid : chmpxid ≠ chmInvalidChmpxId)
    (hf : m.find (some cur) chmpxid = some p) (hs : SameShape m m') (hp : m'.chmpx p = c) :
    Shows m' chmpxid (some c.status) := by
  have hm := h.sameShape hs
  refine ⟨chain, hm, ?_⟩
  have hf' : m'.find (some cur) chmpxid = some p := by
    rw [hm.toMapped.find_eq ((hs.lists hl).server hcur) hid]
    rw [h.toMapped.find_eq (hl.server hcur) hid] at hf
    rw [← hf]
    refine congrArg (fun f => List.find? f _) (funext fun q => ?_)
    rw [isServerOf, isServerOf, hs.isServerMode, hs.chmpxid]
  rw [← hm.find_map (hs.lists hl) hcur hid, hf', Option.map_some, hp, Option.map_some]

/-! ## One record -/

/-- What a register of the server's status does with a record. -/
def takeRecord (chmpxid : ChmpxId) (held : Option (Stamped ω ChmpxSts))
    (record : ChmpxSvr × ω) : Option (Stamped ω ChmpxSts) :=
  if record.1.chmpxid = chmpxid then LastWriter.take held ⟨record.2, record.1.status⟩ else held

/-- A record of the server is merged without being rewritten or refused, and its
status is taken exactly when it is not older than the one held; or it makes the
server.  A record of another server makes no node of this one. -/
def RecordInOrder (env : Env) (args : MergeArgs) (selfchmpxid chmpxid : ChmpxId)
    (record : ChmpxSvr × ω) (held : Option (Stamped ω ChmpxSts)) (s : MergeState) : Prop :=
  match s.man.find s.cur record.1.chmpxid with
  | some p => record.1.chmpxid = chmpxid →
      (s.man.chmpx p).sameChmpx env args.type record.1 = true ∧
      (s.man.chmpx p).blocksMerge record.1 = false ∧
      (selfRecord args selfchmpxid (s.man.chmpx p) record.1).status = record.1.status ∧
      ((s.man.chmpx p).takesStatus env record.1 = true ↔ ∀ a, held = some a → a.time ≤ record.2)
  | none =>
      (record.1.chmpxid = chmpxid →
        s.man.chmpxFreeCount ≠ 0 ∧ record.1.status ≠ ChmpxSts.srvoutDownNormal) ∧
      (s.man.chmpxFreeCount ≠ 0 → record.1.status ≠ ChmpxSts.srvoutDownNormal →
        (Chmpx.initializeServer env args.type s.man.group record.1 Chmpx.cleared).1 = true)

/-- Every record of a call is, at the state that the records before it leave. -/
def RecordsInOrder (env : Env) (args : MergeArgs) (selfchmpxid chmpxid : ChmpxId) :
    List (ChmpxSvr × ω) → Option (Stamped ω ChmpxSts) → MergeState → Prop
  | [], _, _ => True
  | record :: records, held, s =>
    RecordInOrder env args selfchmpxid chmpxid record held s ∧
      RecordsInOrder env args selfchmpxid chmpxid records (takeRecord chmpxid held record)
        (mergeRecord env args selfchmpxid record.1 s).1

/-- A record that is merged leaves its status or the old one. -/
theorem mergeChmpxSvr_status {type : ChmpxIdSeedType} {c : Chmpx} {svr : ChmpxSvr}
    (hsame : c.sameChmpx env type svr = true) (hblock : c.blocksMerge svr = false) :
    ∃ c', c.mergeChmpxSvr env type svr = some c' ∧
      c'.status = if c.takesStatus env svr then svr.status else c.status := by
  unfold Chmpx.mergeChmpxSvr
  rw [hsame, hblock]
  exact ⟨_, rfl, rfl⟩

/-- Rewriting a record's status changes nothing else of it. -/
theorem selfRecord_eq (args : MergeArgs) (selfchmpxid : ChmpxId) (c : Chmpx) (svr : ChmpxSvr) :
    ∃ status, selfRecord args selfchmpxid c svr = { svr with status := status } := by
  unfold selfRecord
  split
  · exact ⟨_, rfl⟩
  · exact ⟨svr.status, rfl⟩

/-- A record that makes a server makes it with its own chmpxid and status. -/
theorem initializeServer_record {type : ChmpxIdSeedType} {group : CStr} {svr : ChmpxSvr} {c : Chmpx}
    (h : (Chmpx.initializeServer env type group svr c).1 = true) :
    (Chmpx.initializeServer env type group svr c).2.chmpxid = svr.chmpxid ∧
      (Chmpx.initializeServer env type group svr c).2.status = svr.status := by
  unfold Chmpx.initializeServer at h ⊢
  split
  · rename_i hinit
    rw [hinit] at h
    cases h
  · rename_i c' hinit
    rw [hinit] at h
    dsimp only at h ⊢
    split
    · rename_i hid
      rw [if_pos hid] at h
      cases h
    · rename_i hid
      exact ⟨(not_not.mp hid).symm, rfl⟩

/-- One record in order goes through the register. -/
theorem mergeRecord_shows (h : Merging s svrs frees rest) (hid : chmpxid ≠ chmInvalidChmpxId)
    (hname : NameAccepted env s.man record.1)
    (hord : RecordInOrder env args selfchmpxid chmpxid record held s)
    (hv : Shows s.man chmpxid (held.map (·.value))) :
    Shows (mergeRecord env args selfchmpxid record.1 s).1.man chmpxid
      ((takeRecord chmpxid held record).map (·.value)) := by
  obtain ⟨chain, hm, hlook⟩ := hv
  obtain ⟨cur, hcur, hscur⟩ := h.cur
  unfold RecordInOrder at hord
  unfold takeRecord
  rcases mergeRecord_cases args selfchmpxid h hname with
    ⟨p, hf, hmer⟩ | ⟨hf, hfree, he⟩ | ⟨hf, hst, he⟩ | ⟨hf, p, frees', ha⟩
  · rw [hf] at hord
    dsimp only at hord
    have hs := SameShape.mergeChmpxSvr s.man env args.type
      (selfRecord args selfchmpxid (s.man.chmpx p) record.1) p
    rw [← hmer.man] at hs
    obtain ⟨status, hself⟩ := selfRecord_eq args selfchmpxid (s.man.chmpx p) record.1
    have hchm := chmpx_mergeChmpxSvr env args.type
      (selfRecord args selfchmpxid (s.man.chmpx p) record.1) p s.man
    rw [← hmer.man] at hchm
    by_cases hrec : record.1.chmpxid = chmpxid
    · obtain ⟨hsame, hblock, hstatus, htakes⟩ := hord hrec
      have hsvr : selfRecord args selfchmpxid (s.man.chmpx p) record.1 = record.1 := by
        rw [hself] at hstatus ⊢
        dsimp only at hstatus
        rw [hstatus]
      obtain ⟨c, hc, hcs⟩ := mergeChmpxSvr_status hsame hblock
      rw [hsvr, hc] at hchm
      dsimp only at hchm
      rw [hscur, hrec] at hf
      have hshow := hm.shows_update h.lists hcur hid hf hs (by rw [hchm, Function.update_self])
      have hold : held.map (·.value) = some (s.man.chmpx p).status := by
        rw [← hlook, ← hm.find_map h.lists hcur hid, hf]
        rfl
      obtain ⟨b, hb, hbv⟩ := Option.map_eq_some_iff.mp hold
      rw [if_pos hrec, hb]
      have htake : c.status = (if b.time ≤ record.2 then record.1.status else b.value) := by
        rw [hcs, hbv]
        refine if_congr (htakes.trans ⟨fun hall => hall b hb, fun hle a ha => ?_⟩) rfl rfl
        rw [hb] at ha
        cases ha
        exact hle
      unfold LastWriter.take
      dsimp only
      rw [htake] at hshow
      split
      · rename_i hle
        rwa [if_pos hle] at hshow
      · rename_i hle
        rwa [if_neg hle] at hshow
    · rw [if_neg hrec, ← hlook]
      have hpid : (s.man.chmpx p).chmpxid ≠ chmpxid := fun he => hrec (hmer.chmpxid.symm.trans he)
      have hchm' : ∃ c, (mergeRecord env args selfchmpxid record.1 s).1.man.chmpx =
          Function.update s.man.chmpx p c := by
        rw [hchm]
        split
        · exact ⟨_, (Function.update_eq_self p _).symm⟩
        · exact ⟨_, rfl⟩
      obtain ⟨c, hc⟩ := hchm'
      obtain ⟨hm', hl'⟩ := hm.merged (h.lists.server hmer.mem) hc hs
      exact ⟨chain, hm', by rw [hl' chmpxid hpid]⟩
  · rw [hf] at hord
    have hrec : record.1.chmpxid ≠ chmpxid := fun hrec => (hord.1 hrec).1 hfree
    rw [he, if_neg hrec]
    exact ⟨chain, hm, hlook⟩
  · rw [hf] at hord
    have hrec : record.1.chmpxid ≠ chmpxid := fun hrec => (hord.1 hrec).2 hst
    rw [he, if_neg hrec]
    exact ⟨chain, hm, hlook⟩
  · rw [hf] at hord
    have hfree : s.man.chmpxFreeCount ≠ 0 := by
      rw [h.lists.freeCount, ha.free.length_eq]
      exact Nat.succ_ne_zero _
    obtain ⟨hnid, hnst⟩ := initializeServer_record (hord.2 hfree ha.status)
    obtain ⟨chain', hm', hl'⟩ := hm.added h.lists ha rfl
      (initializeServer_isServer args.type (hname hfree ha.status) Chmpx.cleared)
    refine ⟨chain', hm', ?_⟩
    rw [hl', hnid]
    by_cases hrec : record.1.chmpxid = chmpxid
    · have hnone : s.man.lookup chain chmpxid = none := by
        rw [← hm.find_map h.lists hcur hid, ← hscur, ← hrec, hf]
        rfl
      have hheld : held = none := by
        rw [hnone] at hlook
        exact Option.map_eq_none_iff.mp hlook.symm
      rw [if_pos hrec, if_pos hrec, hnone, hheld]
      exact congrArg some hnst
    · rw [if_neg hrec, if_neg hrec, Option.or_none, hlook]

/-! ## The whole call -/

/-- The first phase in order goes through the register. -/
theorem mergeRecords_shows (records : List (ChmpxSvr × ω)) (hid : chmpxid ≠ chmInvalidChmpxId)
    (h : Merging s svrs frees rest)
    (hname : ∀ record ∈ records, NameAccepted env s.man record.1)
    (hord : RecordsInOrder env args selfchmpxid chmpxid records held s)
    (hv : Shows s.man chmpxid (held.map (·.value))) :
    Shows (mergeRecords env args selfchmpxid (records.map Prod.fst) s).1.man chmpxid
      ((records.foldl (takeRecord chmpxid) held).map (·.value)) := by
  induction records generalizing s svrs frees held with
  | nil => exact hv
  | cons record records ih =>
    have hrec := hname record List.mem_cons_self
    obtain ⟨hsite, hfree, svrs', frees', h'⟩ := mergeRecord_merging args selfchmpxid h hrec
    have hname' : ∀ r ∈ records,
        NameAccepted env (mergeRecord env args selfchmpxid record.1 s).1.man r.1 := by
      intro r hr hne hst
      rw [hsite.group]
      exact hname r (List.mem_cons_of_mem _ hr) (by omega) hst
    exact ih h' hname' hord.2 (mergeRecord_shows h hid hrec hord.1 hv)

/-- The records keep their chmpxids. -/
theorem mergeRecords_chmpxid (records : List ChmpxSvr) (s : MergeState) :
    (mergeRecords env args selfchmpxid records s).2.map (·.chmpxid) =
      records.map (·.chmpxid) := by
  induction records generalizing s with
  | nil => rfl
  | cons svr records ih =>
    have hrec : (mergeRecord env args selfchmpxid svr s).2.chmpxid = svr.chmpxid := by
      unfold mergeRecord
      split
      · rename_i p _
        obtain ⟨status, he⟩ := selfRecord_eq args selfchmpxid (s.man.chmpx p) svr
        show (selfRecord args selfchmpxid (s.man.chmpx p) svr).chmpxid = svr.chmpxid
        rw [he]
      · split
        · rfl
        · split <;> rfl
    show (mergeRecord env args selfchmpxid svr s).2.chmpxid ::
      (mergeRecords env args selfchmpxid records _).2.map (·.chmpxid) = _
    rw [hrec, ih, List.map_cons]

/-- The second phase shows what it showed before when it keeps the server. -/
theorem removePhase_shows (h : Merging s svrs frees rest) {chmpxids : List ChmpxId}
    (hkeep : args.isRemove = true → chmpxid = selfchmpxid ∨ chmpxid ∈ chmpxids)
    (hv : Shows s.man chmpxid v) :
    Shows (removePhase args selfchmpxid chmpxids s).man chmpxid v := by
  unfold removePhase
  split
  · rename_i hrem
    have hkeep' := hkeep (Bool.and_eq_true_iff.mp hrem).2
    obtain ⟨c, hc, hcur⟩ := h.cur
    have hrule : ∀ (s : MergeState) (p : Ptr) (l₁ l₂ frees : List Ptr),
        Lists s.man (l₁ ++ p :: l₂) frees rest →
        kept selfchmpxid chmpxids (s.man.chmpx p) = false → Shows s.man chmpxid v →
        Shows (removeServer args p s).man chmpxid v := by
      intro s p l₁ l₂ frees hl hk hv
      obtain ⟨chain, hm, hlook⟩ := hv
      obtain ⟨chain', hm', hl'⟩ := hm.removed hl args
      refine ⟨chain', hm', ?_⟩
      have hne : (s.man.chmpx p).chmpxid ≠ chmpxid := by
        intro he
        rw [kept, decide_eq_false_iff_not, he] at hk
        exact hk hkeep'
      rw [hl' chmpxid hne, hlook]
    have hfirst : CursorIn (some (s.man.first c)) svrs := by
      have hhead := h.lists.first_eq hc
      exact List.mem_of_head? hhead.symm
    have hloop := removeLoop_rule (P := fun m => Shows m chmpxid v) args selfchmpxid chmpxids hrule
      (s.man.chmpxCount + 2) { s with cur := some (s.man.first c) } svrs frees h.lists hfirst hv
    unfold removeServers
    rw [hcur]
    dsimp only
    generalize removeLoop args selfchmpxid chmpxids (s.man.chmpxCount + 2)
      { s with cur := some (s.man.first c) } = t at hloop
    obtain ⟨chain, hm, hlook⟩ := hloop
    unfold setServersHead
    split
    · exact ⟨chain, hm.congr rfl rfl rfl rfl rfl, hlook⟩
    · exact ⟨chain, hm.congr rfl rfl rfl rfl rfl, hlook⟩
  · exact hv

/-- Renumbering and recounting change no status. -/
theorem renumber_statuses (env : Env) (hf : Formed m svrs frees rest) (cur : Cursor) :
    SameStatuses m ((m.updateHash env .both true true).2.recount cur) := by
  cases svrs with
  | nil =>
    rw [updateHash_nil env .both hf.head]
    exact ⟨fun _ => rfl, fun _ => rfl⟩
  | cons p l =>
    obtain ⟨m', hrun, hloop⟩ := updateHash_spec env .both hf (List.cons_ne_nil p l)
    rw [hrun]
    exact ⟨hloop.statuses.name, hloop.statuses.status⟩

/-- In an empty list no record of the server is in order when the call is allowed. -/
theorem foldl_takeRecord_nil (records : List (ChmpxSvr × ω)) (hcur : s.cur = none)
    (hadd : s.man.chmpxFreeCount = 0 ∨
      ∀ record ∈ records, record.1.status = ChmpxSts.srvoutDownNormal)
    (hord : RecordsInOrder env args selfchmpxid chmpxid records held s) :
    records.foldl (takeRecord chmpxid) held = held := by
  induction records generalizing s held with
  | nil => rfl
  | cons record records ih =>
    have hf : s.man.find s.cur record.1.chmpxid = none := by
      rw [hcur]
      rfl
    have hstatus : s.man.chmpxFreeCount = 0 ∨ ∀ svr ∈ [record.1],
        svr.status = ChmpxSts.srvoutDownNormal := by
      refine hadd.imp_right fun hst svr hsvr => ?_
      rw [List.mem_singleton.mp hsvr]
      exact hst record List.mem_cons_self
    have hin := hord.1
    unfold RecordInOrder at hin
    rw [hf] at hin
    have hrec : record.1.chmpxid ≠ chmpxid := by
      intro hrec
      obtain ⟨hfree, hst⟩ := hin.1 hrec
      rcases hstatus with h0 | hall
      · exact hfree h0
      · exact hst (hall _ List.mem_cons_self)
    have htake : takeRecord chmpxid held record = held := if_neg hrec
    obtain ⟨hman, hnone⟩ := mergeRecords_idle env args selfchmpxid [record.1] hcur hstatus
    have hord' := hord.2
    rw [htake] at hord'
    rw [List.foldl_cons, htake]
    refine ih hnone ?_ hord'
    rw [hman]
    exact hadd.imp_right fun hst r hr => hst r (List.mem_cons_of_mem _ hr)

/-- A call whose records are in order and that keeps the server goes through the
register, record after record. -/
theorem mergeChmpxSvrs_shows (args : MergeArgs) (hf : Formed m svrs frees rest)
    (hid : chmpxid ≠ chmInvalidChmpxId) (hrec : records ≠ [])
    (hok : MergeAllowed env (records.map Prod.fst) m)
    (hkeep : args.isRemove = true →
      chmpxid = m.keptChmpxId ∨ chmpxid ∈ records.map (·.1.chmpxid))
    (hord : RecordsInOrder env args m.keptChmpxId chmpxid records held
      ⟨m.chmpxServers, false, m⟩)
    (hv : Shows m chmpxid (held.map (·.value))) :
    Shows (mergeChmpxSvrs env args (records.map Prod.fst) m).2.2 chmpxid
      ((records.foldl (takeRecord chmpxid) held).map (·.value)) := by
  have hne : records.map Prod.fst ≠ [] := fun he => hrec (List.map_eq_nil_iff.mp he)
  obtain ⟨t, ht, -, hman⟩ := mergeChmpxSvrs_eq env args m hne
  rw [mergeRecords_chmpxid, List.map_map] at ht
  obtain ⟨svrs', frees', hm⟩ := removePhase_merged args hf hok
    (records.map ((·.chmpxid) ∘ Prod.fst))
  rw [← ht] at hm
  have hshape : SameRecords t.man ((t.man.updateHash env .both true true).2.recount t.cur) :=
    (SameRecords.updateHash _ env .both true true).trans (SameRecords.recount _ t.cur)
  rw [hman]
  suffices hshow : Shows t.man chmpxid
      ((records.foldl (takeRecord chmpxid) held).map (·.value)) from
    hshow.congr hshape.toSameShape (renumber_statuses env hm.formed t.cur)
  rw [ht]
  cases svrs with
  | nil =>
    have hnone : m.chmpxServers = none := hf.head
    have hadd : m.chmpxFreeCount = 0 ∨
        ∀ record ∈ records, record.1.status = ChmpxSts.srvoutDownNormal := by
      by_cases hfree : m.chmpxFreeCount = 0
      · exact Or.inl hfree
      · refine Or.inr fun record hrecord => ?_
        by_contra hst
        exact (hok record.1 (List.mem_map_of_mem hrecord) hfree hst).1 hnone
    rw [foldl_takeRecord_nil (s := ⟨m.chmpxServers, false, m⟩) records hnone hadd hord]
    obtain ⟨hman', hcur'⟩ := mergeRecords_nil env args hf hok
    obtain ⟨chain, hmap, hlook⟩ := hv
    unfold removePhase
    split
    · unfold removeServers
      rw [hcur']
      dsimp only
      unfold setServersHead
      split
      · rw [hman']
        exact ⟨chain, hmap.congr rfl rfl rfl rfl rfl, hlook⟩
      · rw [hman']
        exact ⟨chain, hmap.congr rfl rfl rfl rfl rfl, hlook⟩
    · rw [hman']
      exact ⟨chain, hmap, hlook⟩
  | cons p l =>
    have hname : ∀ record ∈ records, NameAccepted env m record.1 :=
      fun record hrecord hfree hst => (hok record.1 (List.mem_map_of_mem hrecord) hfree hst).2
    have hname' : ∀ svr ∈ records.map Prod.fst, NameAccepted env m svr :=
      fun svr hsvr hfree hst => (hok svr hsvr hfree hst).2
    obtain ⟨-, svrs'', frees'', hmer⟩ := mergeRecords_merging args m.keptChmpxId
      (records.map Prod.fst) hf.merging hname'
    exact removePhase_shows hmer hkeep
      (mergeRecords_shows records hid hf.merging hname hord hv)

end ChmpxMan
end Chm
