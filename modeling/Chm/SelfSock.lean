/-
The own status and the own listening socket.

A server that does not listen must not be up: other nodes send to the servers that are up.
`SetSelfStatus` and `SetServerStatus` refuse to take a closed node up, and `MergeChmpxSvrs`
rewrites an up record about this node while it is closed.  Two rows of that table, for
SERVICE OUT and for SLAVE, and the actions it has no row for keep the record up.
-/
import Chm.CompleteLap
import Chm.Settled

namespace Chm

namespace ChmpxMan

variable {env : Env} {args : MergeArgs} {svr : ChmpxSvr} {m m' : ChmpxMan} {s : MergeState}
variable {svrs frees : List Ptr} {rest : List (List Ptr)} {p : Ptr} {id : ChmpxId} {isOpen : Bool}

/-! ## The record about this node -/

/-- The statuses that `selfMergeStatus` takes down while the node is closed. -/
def fallsDown (status : ChmpxSts) : Bool :=
  status.isSrvin && (status.isNoact || status.isAdd || status.isDelete)

theorem setNosup_isUp (status : ChmpxSts) : status.setNosup.isUp = status.isUp := by
  have h : status.setNosup &&& ChmpxSts.maskLive = status &&& ChmpxSts.maskLive :=
    ChmpxSts.put_and_other _ _ status (by decide) (by decide)
  rw [ChmpxSts.isUp, ChmpxSts.isUp, ChmpxSts.has, ChmpxSts.has, h]

/-- A record is up after the rewriting just when it was up and has no row that takes it
down. -/
theorem selfMergeStatus_closed (isClientJoin : Bool) (status : ChmpxSts) :
    (selfMergeStatus isClientJoin false false status).isUp =
      (status.isUp && !fallsDown status) := by
  unfold selfMergeStatus
  cases hup : status.isUp with
  | false => simp [hup]
  | true =>
    have hsrvout : ChmpxSts.srvoutUpNormal.setNosup.isUp = true := by decide
    have hslave : ChmpxSts.slaveUpNormal.setNosup.isUp = true := by decide
    have hnormal : ChmpxSts.srvinDownNormal.setNosup.isUp = false := by decide
    have hsrvoutDown : ChmpxSts.srvoutDownNormal.setNosup.isUp = false := by decide
    have hdelpending : ChmpxSts.srvinDownDelpending.setNosup.isUp = false := by decide
    have hdeleted : ChmpxSts.srvinDownDeleted.setNosup.isUp = false := by decide
    unfold fallsDown
    by_cases hin : status.isSrvin = true
    · by_cases hno : status.isNoact = true
      · simp [hin, hno, hnormal]
      · by_cases hadd : status.isAdd = true
        · simp [hin, hno, hadd, hsrvoutDown]
        · by_cases hdel : status.isDelete = true
          · by_cases hpend : status.isPending = true
            · simp [hin, hno, hadd, hdel, hpend, hdelpending]
            · simp [hin, hno, hadd, hdel, hpend, hdeleted]
          · simp [hin, hno, hadd, hdel, setNosup_isUp, hup]
    · by_cases hout : status.isSrvout = true
      · simp [hin, hout, hsrvout]
      · simp [hin, hout, hslave]

/-- The record of this node is merged and its status is taken. -/
def takesRecord (env : Env) (args : MergeArgs) (c : Chmpx) (svr : ChmpxSvr) : Bool :=
  c.sameChmpx env args.type svr && !c.blocksMerge svr && c.takesStatus env svr

/-- What a record about a closed and down node leaves: it is up just when the record is
taken, is up and has no row that takes it down. -/
theorem mergeChmpxSvr_selfUp {c c' : Chmpx} (hinit : args.isInitProcess = false)
    (hclosed : selfsockOpen c = false) (hdown : c.status.isUp = false)
    (hid : id = svr.chmpxid)
    (hmerge : c.mergeChmpxSvr env args.type (selfRecord args id c svr) = some c') :
    c'.status.isUp =
      (takesRecord env args c svr && svr.status.isUp && !fallsDown svr.status) := by
  have hself : (selfRecord args id c svr).status.isUp =
      (svr.status.isUp && !fallsDown svr.status) := by
    rw [selfRecord]
    by_cases hst : c.status = svr.status
    · rw [if_neg (by simp [hst]), ← hst, hdown]
      rfl
    · rw [if_pos ⟨hid, hst⟩, hinit, hclosed]
      exact selfMergeStatus_closed _ _
  obtain ⟨status, he⟩ := selfRecord_eq args id c svr
  rw [he] at hmerge hself
  have hsame : c.sameChmpx env args.type { svr with status := status } =
      c.sameChmpx env args.type svr := rfl
  have hblock : c.blocksMerge { svr with status := status } = c.blocksMerge svr := rfl
  have htakes : c.takesStatus env { svr with status := status } = c.takesStatus env svr := rfl
  rw [Chmpx.mergeChmpxSvr, hsame, hblock, htakes] at hmerge
  rw [takesRecord]
  cases hs : c.sameChmpx env args.type svr with
  | false =>
    rw [hs] at hmerge
    cases hmerge
  | true =>
    cases hb : c.blocksMerge svr with
    | true =>
      rw [hs, hb] at hmerge
      cases hmerge
    | false =>
      rw [hs, hb, if_neg (by decide), if_neg (by decide)] at hmerge
      rw [← Option.some.inj hmerge]
      cases ht : c.takesStatus env svr with
      | false => simp [hdown]
      | true => simpa using hself

/-! ## The two phases -/

/-- The record of this node at its place in the server list. -/
structure OwnAt (p : Ptr) (id : ChmpxId) (isOpen : Bool) (good : ChmpxSts → Prop) (m : ChmpxMan)
    (svrs : List Ptr) : Prop where
  self : m.chmpxSelf = some p
  mem : p ∈ svrs
  isServerMode : (m.chmpx p).isServerMode = true
  chmpxid : (m.chmpx p).chmpxid = id
  selfsock : selfsockOpen (m.chmpx p) = isOpen
  status : good (m.chmpx p).status

/-- A record about this node leaves a good status. -/
def RecordKeeps (p : Ptr) (id : ChmpxId) (isOpen : Bool) (good : ChmpxSts → Prop) (env : Env)
    (args : MergeArgs) (svr : ChmpxSvr) (s : MergeState) : Prop :=
  ∀ c, s.man.find s.cur svr.chmpxid = some p → s.man.chmpxSelf = some p → id = svr.chmpxid →
    selfsockOpen (s.man.chmpx p) = isOpen → good (s.man.chmpx p).status →
    (s.man.chmpx p).mergeChmpxSvr env args.type (selfRecord args id (s.man.chmpx p) svr) = some c →
    good c.status

/-- No record about this node keeps it up while it is closed. -/
def RecordFalls (env : Env) (args : MergeArgs) (svr : ChmpxSvr) (s : MergeState) : Prop :=
  ∀ p, s.man.find s.cur svr.chmpxid = some p → s.man.chmpxSelf = some p →
    selfsockOpen (s.man.chmpx p) = false →
      (takesRecord env args (s.man.chmpx p) svr && svr.status.isUp && !fallsDown svr.status) = false

theorem RecordFalls.keeps (hinit : isOpen = false → args.isInitProcess = false)
    (h : isOpen = false → RecordFalls env args svr s) :
    RecordKeeps p id isOpen (fun status => status.isUp = true → isOpen = true) env args svr s := by
  intro c hf hself hid hsock hstatus hm hup
  cases isOpen with
  | true => rfl
  | false =>
    have hdown : (s.man.chmpx p).status.isUp = false :=
      Bool.eq_false_iff.mpr fun hp => absurd (hstatus hp) (by decide)
    rw [mergeChmpxSvr_selfUp (hinit rfl) hsock hdown hid hm, h rfl p hf hself hsock] at hup
    exact hup

variable {good : ChmpxSts → Prop}

theorem OwnAt.congr {svrs' : List Ptr} (h : OwnAt p id isOpen good m svrs)
    (hself : m'.chmpxSelf = m.chmpxSelf) (hmem : p ∈ svrs') (hc : m'.chmpx p = m.chmpx p) :
    OwnAt p id isOpen good m' svrs' :=
  ⟨hself.trans h.self, hmem, hc ▸ h.isServerMode, hc ▸ h.chmpxid, hc ▸ h.selfsock,
    hc ▸ h.status⟩

/-- Merging a record keeps the own socket. -/
theorem mergeChmpxSvr_selfsock {type : ChmpxIdSeedType} {c c' : Chmpx}
    (h : c.mergeChmpxSvr env type svr = some c') :
    selfsockOpen c' = selfsockOpen c ∧ c'.chmpxid = c.chmpxid ∧
      c'.isServerMode = c.isServerMode := by
  unfold Chmpx.mergeChmpxSvr at h
  split at h
  · cases h
  · split at h
    · cases h
    · cases h
      exact ⟨rfl, rfl, rfl⟩

/-- One record. -/
theorem mergeRecord_own (hs : Merging s svrs frees rest) (hname : NameAccepted env s.man svr)
    (h : OwnAt p id isOpen good s.man svrs)
    (hkeeps : RecordKeeps p id isOpen good env args svr s) :
    ∃ svrs' frees', Merging (mergeRecord env args id svr s).1 svrs' frees' rest ∧
      OwnAt p id isOpen good (mergeRecord env args id svr s).1.man svrs' := by
  rcases mergeRecord_cases args id hs hname with
    ⟨q, hf, hm⟩ | ⟨-, -, he⟩ | ⟨-, -, he⟩ | ⟨-, q, frees', ha⟩
  · have hshape := SameShape.mergeChmpxSvr s.man env args.type
      (selfRecord args id (s.man.chmpx q) svr) q
    have hmerging : Merging (mergeRecord env args id svr s).1 svrs frees rest := by
      rw [← hm.man] at hshape
      exact ⟨hshape.lists hs.lists, hshape.chmpxServers.trans hs.head, q, hm.mem, hm.cur⟩
    refine ⟨svrs, frees, hmerging, ?_⟩
    rw [hm.man]
    have hchmpx := chmpx_mergeChmpxSvr env args.type (selfRecord args id (s.man.chmpx q) svr) q
      s.man
    cases hc : (s.man.chmpx q).mergeChmpxSvr env args.type
        (selfRecord args id (s.man.chmpx q) svr) with
    | none =>
      rw [hc] at hchmpx
      exact h.congr hshape.chmpxSelf h.mem (congrFun hchmpx p)
    | some c =>
      rw [hc] at hchmpx
      dsimp only at hchmpx
      by_cases hq : p = q
      · subst hq
        have hp := congrFun hchmpx p
        rw [Function.update_self] at hp
        have hgood := hkeeps c hf h.self (h.chmpxid.symm.trans hm.chmpxid) h.selfsock h.status hc
        obtain ⟨hsock, hchmpxid, hmode⟩ := mergeChmpxSvr_selfsock hc
        refine ⟨hshape.chmpxSelf.trans h.self, h.mem, ?_, ?_, ?_, ?_⟩
        · rw [hp, hmode, h.isServerMode]
        · rw [hp, hchmpxid, h.chmpxid]
        · rw [hp, hsock, h.selfsock]
        · rw [hp]
          exact hgood
      · apply h.congr hshape.chmpxSelf h.mem
        rw [hchmpx, Function.update_of_ne hq]
  · rw [he]
    exact ⟨svrs, frees, ⟨hs.lists, hs.head, hs.cur⟩, h⟩
  · rw [he]
    exact ⟨svrs, frees, hs, h⟩
  · have hq : p ≠ q := fun he => ha.fresh (he ▸ h.mem)
    refine ⟨_, frees', ha.merging, h.congr ha.site.chmpxSelf ?_ ?_⟩
    · rw [(List.perm_orderedInsert _ q svrs).mem_iff]
      exact List.mem_cons_of_mem _ h.mem
    · rw [ha.chmpx, Function.update_of_ne hq]

/-- The first phase. -/
theorem mergeRecords_own (records : List ChmpxSvr) :
    ∀ (s : MergeState) (svrs frees : List Ptr), Merging s svrs frees rest →
      (∀ svr ∈ records, NameAccepted env s.man svr) → OwnAt p id isOpen good s.man svrs →
      EachRecord (RecordKeeps p id isOpen good env args) env args id records s →
      ∃ svrs' frees', Merging (mergeRecords env args id records s).1 svrs' frees' rest ∧
        OwnAt p id isOpen good (mergeRecords env args id records s).1.man svrs' := by
  induction records with
  | nil => exact fun s svrs frees hs _ h _ => ⟨svrs, frees, hs, h⟩
  | cons svr records ih =>
    intro s svrs frees hs hname h hkeeps
    have hsvr := hname svr List.mem_cons_self
    obtain ⟨svrs', frees', hs', h'⟩ := mergeRecord_own hs hsvr h hkeeps.1
    obtain ⟨hsite, hfree, -⟩ := mergeRecord_merging args id hs hsvr
    apply ih _ svrs' frees' hs' _ h' hkeeps.2
    intro r hr hne hst
    rw [hsite.group]
    exact hname r (List.mem_cons_of_mem _ hr) (by omega) hst

/-- The second phase keeps the own record. -/
theorem removePhase_own {chmpxids : List ChmpxId} (hs : Merging s svrs frees rest)
    (h : OwnAt p id isOpen good s.man svrs) :
    ∃ svrs', OwnAt p id isOpen good (removePhase args id chmpxids s).man svrs' := by
  rw [removePhase]
  split
  · obtain ⟨frees', hr⟩ := removeServers_spec args id hs chmpxids
    have hmem : p ∈ keptServers id chmpxids s.man.chmpx svrs :=
      List.mem_filter.mpr ⟨h.mem, decide_eq_true (Or.inl h.chmpxid)⟩
    exact ⟨_, h.congr hr.site.chmpxSelf hmem (hr.chmpx p hmem)⟩
  · exact ⟨svrs, h⟩

/-! ## One operation -/

/-- A server that is up listens. -/
def ListensUp (m : ChmpxMan) : Prop :=
  ∀ p, m.chmpxSelf = some p → (m.chmpx p).status.isUp = true → selfsockOpen (m.chmpx p) = true

/-- What a server keeps along a run. -/
def Listening (m : ChmpxMan) : Prop :=
  ∃ p id isOpen, SelfIs p id isOpen (fun status => status.isUp = true → isOpen = true) m

theorem Listening.listensUp (h : Listening m) : ListensUp m := by
  obtain ⟨p, id, isOpen, h⟩ := h
  intro q hq hup
  obtain rfl : p = q := Option.some.inj (h.self.symm.trans hq)
  exact h.isOpen.trans (h.status hup)

theorem Listening.of_server (hf : WellFormed m) (hmode : m.isServerMode = true)
    (h : ListensUp m) : Listening m := by
  cases hself : m.chmpxSelf with
  | none =>
    rw [ChmpxMan.isServerMode, hself] at hmode
    cases hmode
  | some p => exact ⟨p, _, _, hf, hmode, hself, rfl, rfl, h p hself⟩

theorem SelfIs.mergeChmpxSvrs (h : SelfIs p id isOpen good m) {records : List ChmpxSvr}
    (hok : MergeAllowed env records m)
    (hkeeps : EachRecord (RecordKeeps p id isOpen good env args) env args id records
      ⟨m.chmpxServers, false, m⟩) :
    SelfIs p id isOpen good (mergeChmpxSvrs env args records m).2.2 := by
  by_cases hrec : records = []
  · rw [hrec]
    exact h
  obtain ⟨svrs, frees, rest, hf⟩ := h.wellFormed
  have hmem := h.mem hf
  have hwell := (mergeChmpxSvrs_agrees args h.wellFormed hrec hok).1
  have hid : m.keptChmpxId = id := by
    rw [keptChmpxId, h.isServerMode, if_pos rfl, h.getSelfChmpxId]
  have hmode : (m.chmpx p).isServerMode = true := hf.lists.server hmem
  have hown : OwnAt p id isOpen good m svrs :=
    ⟨h.self, hmem, hmode, h.chmpxid, h.isOpen, h.status⟩
  obtain ⟨q, l, rfl⟩ := List.exists_cons_of_ne_nil (List.ne_nil_of_mem hmem)
  obtain ⟨svrs', frees', hm, hown'⟩ := mergeRecords_own records
    ⟨m.chmpxServers, false, m⟩ (q :: l) frees hf.merging
    (fun svr hsvr hfree hst => (hok svr hsvr hfree hst).2) hown hkeeps
  obtain ⟨s, hs, -, hman⟩ := mergeChmpxSvrs_eq env args m hrec
  rw [hid] at hs
  have hrem : ∃ svrs'', OwnAt p id isOpen good s.man svrs'' := by
    rw [hs]
    exact removePhase_own hm hown'
  obtain ⟨svrs'', hrem⟩ := hrem
  have hw : Written (Chmpx.StatusWrite fun _ _ => False) s.man
      ((s.man.updateHash env .both true true).2.recount s.cur) :=
    (Written.updateHash _ env .both true true s.man).trans (Written.single (Write.recount s.cur))
  have hshape := (SameRecords.written hw).toSameShape
  have hlisten := (updateHash_sameListen env .both true true s.man).trans
    (recount_sameListen _ s.cur)
  have hstatus := (hw.status_cases p).resolve_right not_false
  rw [hman] at hwell ⊢
  refine ⟨hwell, ?_, hshape.chmpxSelf.trans hrem.self, (hshape.chmpxid p).trans hrem.chmpxid, ?_,
    ?_⟩
  · rw [ChmpxMan.isServerMode, hshape.chmpxSelf, hrem.self]
    exact (hshape.isServerMode p).trans hrem.isServerMode
  · rw [selfsockOpen, hshape.name, hlisten.selfsock]
    exact hrem.selfsock
  · rw [hstatus]
    exact hrem.status

/-! ### The other operations -/

theorem changeSuspendFlag_isUp (status : ChmpxSts) (b : Bool) :
    (status.changeSuspendFlag b).isUp = status.isUp := by
  have hsup : status.setSuspend.isUp = status.isUp := by
    have h : status.setSuspend &&& ChmpxSts.maskLive = status &&& ChmpxSts.maskLive :=
      ChmpxSts.put_and_other _ _ status (by decide) (by decide)
    rw [ChmpxSts.isUp, ChmpxSts.isUp, ChmpxSts.has, ChmpxSts.has, h]
  rw [ChmpxSts.changeSuspendFlag]
  split
  · exact setNosup_isUp status
  · split
    · exact hsup
    · exact setNosup_isUp status

/-- What `SetServerStatus` does to another server leaves the own status or takes it out of
service. -/
theorem SelfIs.setServerStatus_other (h : SelfIs p id isOpen good m)
    (hout : good ChmpxSts.srvoutDownNormal) {chmpxid : ChmpxId} (hid : id ≠ chmpxid)
    (env : Env) (status : ChmpxSts) (b : Bool) :
    SelfIs p id isOpen good (m.setServerStatus env chmpxid status b).2 := by
  unfold ChmpxMan.setServerStatus
  rw [h.getSelfChmpxId, if_neg (by simp [hid])]
  cases hfind : m.find m.chmpxServers chmpxid with
  | none => exact h
  | some q =>
    obtain ⟨hpq, -⟩ := h.find_other hid hfind
    have hw : Written (Chmpx.StatusWrite fun _ _ => True) m (m.setStatus env status q).2 :=
      Written.setStatus (fun _ _ => trivial) env q m
    have hkept : SelfIs p id isOpen good (m.setStatus env status q).2 := by
      apply h.congr (SameRecords.written hw).toSameShape (setStatus_sameListen ..)
      rw [ChmpxMan.setStatus]
      split
      · exact h.status
      · show good ((m.setChmpx q _).chmpx p).status
        rw [chmpx_setChmpx, if_neg hpq]
        exact h.status
    have hrecount : ∀ {m' : ChmpxMan}, SelfIs p id isOpen good m' →
        SelfIs p id isOpen good (m'.recount (some q)) := fun h' =>
      h'.congr (SameRecords.recount _ _).toSameShape (recount_sameListen ..) h'.status
    dsimp only
    generalize m.setStatus env status q = r at hkept ⊢
    obtain ⟨ok, m'⟩ := r
    cases ok with
    | false => exact hkept
    | true =>
      have hall : SelfIs p id isOpen good (m'.checkAllServiceOutStatus env (some q)).2 := by
        apply hkept.written (P := (· = ChmpxSts.srvoutDownNormal))
        · exact Written.checkAllServiceOutStatus (P := fun _ st => st = ChmpxSts.srvoutDownNormal)
            (fun _ => rfl) env (some q) m'
        · exact checkAllServiceOutStatus_sameListen ..
        · rintro st rfl
          exact hout
      dsimp only
      split
      · generalize m'.checkAllServiceOutStatus env (some q) = r₂ at hall ⊢
        obtain ⟨ok₂, m₂⟩ := r₂
        cases ok₂ with
        | false => exact hall
        | true => exact hrecount hall
      · exact hrecount hkept

theorem up_closed_or (isOpen : Bool) (status : ChmpxSts) :
    status.isUp = true ∧ isOpen = false ∨ (status.isUp = true → isOpen = true) := by
  cases isOpen with
  | true => exact Or.inr fun _ => rfl
  | false =>
    by_cases hup : status.isUp = true
    · exact Or.inl ⟨hup, rfl⟩
    · exact Or.inr fun hup' => absurd hup' hup

/-- The own status is written up only while the node listens. -/
theorem SelfIs.setServerStatus_own
    (h : SelfIs p id isOpen (fun status => status.isUp = true → isOpen = true) m) (env : Env)
    (status : ChmpxSts) (b : Bool) :
    SelfIs p id isOpen (fun status => status.isUp = true → isOpen = true)
      (m.setServerStatus env id status b).2 := by
  rcases up_closed_or isOpen status with ⟨hup, hclosed⟩ | hgood
  · have he : m.setServerStatus env id status b = (false, m) := by
      rw [ChmpxMan.setServerStatus, h.isServerMode, h.getSelfChmpxId, if_pos (by simp), h.self]
      dsimp only
      rw [h.isOpen, hup, hclosed]
      simp
    rw [he]
    exact h
  · apply h.written (P := fun st => st.isUp = true → isOpen = true)
    · apply Written.setServerStatus
      intro st hst _ _
      rw [statusesOfServer, h.isServerMode, h.getSelfChmpxId, if_pos (by simp)] at hst
      rw [List.mem_singleton.mp hst, changeSuspendFlag_isUp]
      exact hgood
    · exact setServerStatus_sameListen ..
    · exact fun _ h => h

theorem SelfIs.setServerStatus_listens
    (h : SelfIs p id isOpen (fun status => status.isUp = true → isOpen = true) m) (env : Env)
    (chmpxid : ChmpxId) (status : ChmpxSts) (b : Bool) :
    SelfIs p id isOpen (fun status => status.isUp = true → isOpen = true)
      (m.setServerStatus env chmpxid status b).2 := by
  by_cases hid : id = chmpxid
  · rw [← hid]
    exact h.setServerStatus_own env status b
  · have hdown : ChmpxSts.srvoutDownNormal.isUp = true → isOpen = true := fun hup =>
      absurd hup (by decide)
    exact h.setServerStatus_other hdown hid env status b

theorem setSelfStatus_sameListen (env : Env) (status : ChmpxSts) (b : Bool) (m : ChmpxMan) :
    SameListen m (m.setSelfStatus env status b).2 := by
  unfold ChmpxMan.setSelfStatus
  split
  · exact SameListen.refl m
  · rename_i q _
    split
    · exact SameListen.refl m
    · have hs := setStatus_sameListen env
        (if m.isServerMode then status.changeSuspendFlag !b else status) q m
      dsimp only
      split <;> rename_i hst <;> rw [hst] at hs
      · exact hs
      · split
        · exact hs.trans (recount_sameListen _ _)
        · exact hs

theorem updateLastStatusTime_sameListen (env : Env) (chmpxid : ChmpxId) (m : ChmpxMan) :
    SameListen m (m.updateLastStatusTime env chmpxid).2 := by
  simp only [ChmpxMan.updateLastStatusTime, Chmpx.updateLastStatusTime]
  split
  · exact SameListen.refl m
  · split
    · exact SameListen.refl m
    · rename_i hc
      split at hc
      · cases hc
      · cases hc
        exact setChmpx_sameListen rfl

theorem SelfIs.setSelfStatus
    (h : SelfIs p id isOpen (fun status => status.isUp = true → isOpen = true) m) (env : Env)
    (status : ChmpxSts) (b : Bool) :
    SelfIs p id isOpen (fun status => status.isUp = true → isOpen = true)
      (m.setSelfStatus env status b).2 := by
  rcases up_closed_or isOpen status with ⟨hup, hclosed⟩ | hgood
  · have he : m.setSelfStatus env status b = (false, m) := by
      rw [ChmpxMan.setSelfStatus, h.self]
      dsimp only
      rw [h.isServerMode, h.isOpen, hup, hclosed]
      simp
    rw [he]
    exact h
  · apply h.written (P := fun st => st.isUp = true → isOpen = true)
    · apply Written.setSelfStatus
      rw [statusOfSelf, h.isServerMode, if_pos rfl, changeSuspendFlag_isUp]
      exact fun _ _ => hgood
    · exact setSelfStatus_sameListen ..
    · exact fun _ h => h

/-! ## Runs of a server node -/

/-- The status that `SetEventQueue` sets once the node listens. -/
def listenStatus (status : ChmpxSts) : ChmpxSts :=
  if status.isSrvin then
    if status.isUp then
      if status.isNoact then
        if status.isNothing then status.changeSuspendFlag true
        else ChmpxSts.srvinUpNormal.changeSuspendFlag true
      else if status.isAdd then ChmpxSts.srvinUpAddpending.changeSuspendFlag true
      else if status.isDelete then
        if status.isPending || status.isDoing || status.isDone then status.changeSuspendFlag true
        else status
      else status
    else if status.isNoact then ChmpxSts.srvinUpNormal.changeSuspendFlag true
    else if status.isPending then ChmpxSts.srvinUpDelpending.changeSuspendFlag true
    else ChmpxSts.srvinUpDeleted.changeSuspendFlag true
  else if status.isSrvout then ChmpxSts.srvoutUpNormal.changeSuspendFlag true
  else ChmpxSts.slaveUpNormal

/-- `SetEventQueue` of a server: the initial merge with the records of another server, when
one answers, then the listening socket and the own status.  A node that fails here does not
run. -/
def setEventQueue (env : Env) (args : MergeArgs) (records : List ChmpxSvr) (sock ctlsock : Int)
    (isClientJoin : Bool) (m : ChmpxMan) : Option ChmpxMan :=
  let args := { args with isRemove := true, isInitProcess := true }
  let (ok, _, m) := mergeChmpxSvrs env args records m
  if !records.isEmpty && !ok then none
  else if sock = chmInvalidSock then none
  else
    match m.setSelfSocks sock ctlsock with
    | (false, _) => none
    | (true, m) =>
      match m.setSelfStatus env (listenStatus m.getSelfStatus) isClientJoin with
      | (false, _) => none
      | (true, m) => some m

/-- `CloseSelfSocks`. -/
def closeSelfSocks (env : Env) (isClientJoin : Bool) (m : ChmpxMan) : ChmpxMan :=
  let (_, m) := m.setSelfSocks chmInvalidSock chmInvalidSock
  (m.setSelfStatus env m.getSelfStatus.changeToDown isClientJoin).2

/-- A step of the rest of the program: the lists stay well formed, and the own record stays
as it is. -/
structure Aside (m m' : ChmpxMan) : Prop where
  wellFormed : WellFormed m'
  chmpxSelf : m'.chmpxSelf = m.chmpxSelf
  chmpx : ∀ p, m.chmpxSelf = some p → m'.chmpx p = m.chmpx p

/-- What a server node does with its own record: the operations, and the two functions that
open and close the listening socket. -/
inductive SelfOp
  | op (op : Op)
  | setEventQueue (args : MergeArgs) (records : List ChmpxSvr) (sock ctlsock : Int)
      (isClientJoin : Bool)
  | closeSelfSocks (isClientJoin : Bool)

def execSelf (env : Env) (m : ChmpxMan) : SelfOp → Option ChmpxMan
  | .op op => some (m.exec env op).2
  | .setEventQueue args records sock ctlsock isClientJoin =>
    m.setEventQueue env args records sock ctlsock isClientJoin
  | .closeSelfSocks isClientJoin => some (m.closeSelfSocks env isClientJoin)

/-- The managers of a server node that a run reaches whose operations all meet `ok` when they
start. -/
inductive SelfReachable (ok : Env → SelfOp → ChmpxMan → Prop) : ChmpxMan → Prop
  | init {env : Env} {cfg : ChmCfgInfo} {m : ChmpxMan} : initialized env cfg = some m →
      ConfigAllowed env cfg → m.isServerMode = true → SelfReachable ok m
  | step {m m' : ChmpxMan} (env : Env) (op : SelfOp) : SelfReachable ok m → ok env op m →
      m.execSelf env op = some m' → SelfReachable ok m'
  | aside {m m' : ChmpxMan} : SelfReachable ok m → Aside m m' → SelfReachable ok m'

/-- The condition of a run: merges keep the lists, an initial merge finds the node listening
or is the one of `SetEventQueue`, no other merge keeps a closed node up, and the socket is
closed by `CloseSelfSocks` with a status that goes down. -/
def SelfAllowed (env : Env) (op : SelfOp) (m : ChmpxMan) : Prop :=
  match op with
  | .op (.mergeChmpxSvrs args records) => MergeAllowed env records m ∧
      ∀ p, m.chmpxSelf = some p → selfsockOpen (m.chmpx p) = false →
        args.isInitProcess = false ∧
          EachRecord (RecordFalls env args) env args m.getSelfChmpxId records
            ⟨m.chmpxServers, false, m⟩
  | .op (.setSelfSocks sock _) => sock ≠ chmInvalidSock
  | .op _ => True
  | .setEventQueue _ records _ _ _ => MergeAllowed env records m
  | .closeSelfSocks _ => m.getSelfStatus.changeToDown.isUp = false

/-! ### The steps -/

theorem setSelfSocks_eq (h : SelfIs p id isOpen good m)
    (sock ctlsock : Int) :
    m.setSelfSocks sock ctlsock =
      (true, m.setChmpx p { m.chmpx p with selfsock := sock, selfctlsock := ctlsock }) := by
  rw [setSelfSocks, h.self]
  dsimp only
  rw [h.named]
  rfl

theorem SelfIs.setSelfSocks (h : SelfIs p id isOpen good m)
    (sock ctlsock : Int) :
    SelfIs p id (decide (sock ≠ chmInvalidSock)) good (m.setSelfSocks sock ctlsock).2 := by
  have hw : Written (Chmpx.StatusWrite fun _ _ => False) m (m.setSelfSocks sock ctlsock).2 :=
    Written.setSelfSocks _ sock ctlsock m
  have hshape := (SameRecords.written hw).toSameShape
  obtain ⟨svrs, frees, rest, hf⟩ := h.wellFormed
  have hmode : (m.chmpx p).isServerMode = true := hf.lists.server (h.mem hf)
  refine ⟨⟨svrs, frees, rest, hshape.formed hf⟩, ?_, hshape.chmpxSelf.trans h.self,
    (hshape.chmpxid p).trans h.chmpxid, ?_, ?_⟩
  · rw [ChmpxMan.isServerMode, hshape.chmpxSelf, h.self]
    exact (hshape.isServerMode p).trans hmode
  · rw [selfsockOpen, hshape.name, h.named, setSelfSocks_eq h, chmpx_setChmpx, if_pos rfl]
    rfl
  · rw [(hw.status_cases p).resolve_right not_false]
    exact h.status

/-- A down status that is safe is set. -/
theorem SelfIs.setSelfStatus_down (h : SelfIs p id isOpen good m)
    {status : ChmpxSts} {b : Bool} (hup : status.isUp = false)
    (hsafe : (status.changeSuspendFlag !b).isSafe = true) (env : Env) :
    SelfIs p id isOpen (fun status => status.isUp = true → isOpen = true)
      (m.setSelfStatus env status b).2 := by
  have hw : Written (Chmpx.StatusWrite fun _ _ => True) m (m.setSelfStatus env status b).2 :=
    Written.setSelfStatus fun _ _ => trivial
  have hset : ((m.setSelfStatus env status b).2.chmpx p).status = status.changeSuspendFlag !b := by
    rw [ChmpxMan.setSelfStatus, h.self]
    dsimp only
    have hst : m.setStatus env (status.changeSuspendFlag !b) p = (true, m.setChmpx p
        { m.chmpx p with status := status.changeSuspendFlag !b, lastStatusTime := env.now p }) := by
      rw [ChmpxMan.setStatus, Chmpx.setStatus, h.named, hsafe]
      rfl
    rw [h.isServerMode, hup, if_neg (by simp), if_pos rfl, hst]
    dsimp only
    split
    · show ((m.setChmpx p _).chmpx p).status = _
      rw [chmpx_setChmpx, if_pos rfl]
    · rw [chmpx_setChmpx, if_pos rfl]
  have hany : SelfIs p id isOpen (fun _ => True) m := h.mono fun _ => trivial
  have hkept := hany.congr (SameRecords.written hw).toSameShape
    (setSelfStatus_sameListen env status b m) trivial
  apply hkept.mono
  intro _ hup'
  rw [hset, changeSuspendFlag_isUp, hup] at hup'
  cases hup'

theorem changeToDown_cases (status : ChmpxSts) :
    status.changeToDown = status ∨ status.changeToDown = ChmpxSts.srvinDownNormal ∨
      status.changeToDown = ChmpxSts.srvoutDownNormal ∨
      status.changeToDown = ChmpxSts.srvinDownDeleted ∨
      status.changeToDown = ChmpxSts.srvinDownDelpending := by
  unfold ChmpxSts.changeToDown
  split_ifs <;> simp

/-- A status that `CHANGE_CHMPXSTS_TO_DOWN` takes down becomes a safe one. -/
theorem changeToDown_isSafe {status : ChmpxSts} (hup : status.isUp = true)
    (hdown : status.changeToDown.isUp = false) (b : Bool) :
    (status.changeToDown.changeSuspendFlag b).isSafe = true := by
  rcases changeToDown_cases status with he | he | he | he | he
  · rw [he, hup] at hdown
    cases hdown
  all_goals
    rw [he]
    cases b <;> decide

theorem Listening.closeSelfSocks (h : Listening m)
    (hdown : m.getSelfStatus.changeToDown.isUp = false) (env : Env) (b : Bool) :
    Listening (m.closeSelfSocks env b) := by
  obtain ⟨p, id, isOpen, h⟩ := h
  have hclosed := h.setSelfSocks chmInvalidSock chmInvalidSock
  have hstatus : (m.setSelfSocks chmInvalidSock chmInvalidSock).2.getSelfStatus =
      m.getSelfStatus := by
    rw [ChmpxMan.getSelfStatus, ChmpxMan.getSelfStatus, hclosed.self, h.self, setSelfSocks_eq h]
    show ((m.setChmpx p _).chmpx p).status = _
    rw [chmpx_setChmpx, if_pos rfl]
  refine ⟨p, id, decide (chmInvalidSock ≠ chmInvalidSock), ?_⟩
  show SelfIs p id _ _ ((m.setSelfSocks chmInvalidSock chmInvalidSock).2.setSelfStatus env _ b).2
  by_cases hup : m.getSelfStatus.isUp = true
  · have hsafe := changeToDown_isSafe hup hdown (!b)
    rw [← hstatus] at hdown hsafe
    exact hclosed.setSelfStatus_down hdown hsafe env
  · apply SelfIs.setSelfStatus
    apply hclosed.mono
    intro _ hup'
    have hself := hclosed.self
    rw [ChmpxMan.getSelfStatus, hself] at hstatus
    dsimp only at hstatus
    rw [hstatus] at hup'
    exact absurd hup' hup

theorem SelfIs.listening_status (h : SelfIs p id true (fun _ => True) m) :
    SelfIs p id true (fun status => status.isUp = true → true = true) m :=
  h.mono fun _ _ => rfl

theorem Listening.setEventQueue (h : Listening m) {records : List ChmpxSvr}
    (hok : MergeAllowed env records m) {sock ctlsock : Int} {b : Bool}
    (hrun : m.setEventQueue env args records sock ctlsock b = some m') : Listening m' := by
  obtain ⟨p, id, isOpen, h⟩ := h
  have hany : SelfIs p id isOpen (fun _ => True) m := h.mono fun _ => trivial
  have hmerged : SelfIs p id isOpen (fun _ => True)
      (mergeChmpxSvrs env { args with isRemove := true, isInitProcess := true } records m).2.2 :=
    hany.mergeChmpxSvrs hok (eachRecord (fun _ _ _ _ _ _ _ _ _ => trivial) records _)
  rw [ChmpxMan.setEventQueue] at hrun
  generalize mergeChmpxSvrs env { args with isRemove := true, isInitProcess := true } records m = r
    at hrun hmerged
  obtain ⟨ok, records', m₁⟩ := r
  dsimp only at hrun hmerged
  split at hrun
  · cases hrun
  · split at hrun
    · cases hrun
    · rename_i hsock
      have hopen := hmerged.setSelfSocks sock ctlsock
      rw [decide_eq_true hsock] at hopen
      generalize m₁.setSelfSocks sock ctlsock = r₂ at hrun hopen
      obtain ⟨ok₂, m₂⟩ := r₂
      cases ok₂ with
      | false => cases hrun
      | true =>
        have hset := (hopen.listening_status).setSelfStatus env (listenStatus m₂.getSelfStatus) b
        dsimp only at hrun hset
        generalize m₂.setSelfStatus env (listenStatus m₂.getSelfStatus) b = r₃ at hrun hset
        obtain ⟨ok₃, m₃⟩ := r₃
        cases ok₃ with
        | false => cases hrun
        | true =>
          obtain rfl : m₃ = m' := Option.some.inj hrun
          exact ⟨p, id, true, hset⟩

theorem Listening.exec (h : Listening m) {op : Op} (hok : SelfAllowed env (.op op) m) :
    Listening (m.exec env op).2 := by
  obtain ⟨p, id, isOpen, h⟩ := h
  have hwritten : ∀ {m' : ChmpxMan}, Written (Chmpx.StatusWrite fun _ _ => False) m m' →
      SameListen m m' → Listening m' := fun hw hl =>
    ⟨p, id, isOpen, h.written (P := fun _ => False) hw hl fun _ hP => hP.elim⟩
  cases op with
  | mergeChmpxSvrs args records =>
    refine ⟨p, id, isOpen, h.mergeChmpxSvrs hok.1 ?_⟩
    cases isOpen with
    | true => exact eachRecord (fun _ _ _ _ _ _ _ _ _ _ => rfl) records _
    | false =>
      obtain ⟨hinit, hfalls⟩ := hok.2 p h.self h.isOpen
      rw [h.getSelfChmpxId] at hfalls
      exact hfalls.mono (fun _ _ hf => RecordFalls.keeps (fun _ => hinit) fun _ => hf) records _
  | updateHash type b b' =>
    exact hwritten (Written.updateHash _ env type b b' m) (updateHash_sameListen ..)
  | setServerStatus chmpxid status b =>
    exact ⟨p, id, isOpen, h.setServerStatus_listens env chmpxid status b⟩
  | setSelfStatus status b => exact ⟨p, id, isOpen, h.setSelfStatus env status b⟩
  | setServerHash chmpxid base pending type =>
    exact hwritten (Written.setServerHash _ env _ _ _ _ m) (setServerHash_sameListen ..)
  | setSelfHash base pending type =>
    have hl : SameListen m (m.setSelfHash env base pending type).2 := by
      rw [ChmpxMan.setSelfHash, h.self]
      exact set_sameListen ..
    exact hwritten (Written.setSelfHash _ env _ _ _ m) hl
  | updateLastStatusTime chmpxid =>
    exact hwritten (Written.updateLastStatusTime _ env _ m) (updateLastStatusTime_sameListen ..)
  | setSelfSocks sock ctlsock =>
    have hsock : sock ≠ chmInvalidSock := hok
    have hopen := h.setSelfSocks sock ctlsock
    rw [decide_eq_true hsock] at hopen
    exact ⟨p, id, true, hopen.mono fun _ _ => rfl⟩

/-- In every run of a server node whose steps are allowed, a server that is up listens. -/
theorem reachable_listensUp (h : SelfReachable SelfAllowed m) : ListensUp m := by
  suffices hl : Listening m from hl.listensUp
  induction h with
  | @init env cfg m hinit hcfg hmode =>
    apply Listening.of_server (initialized_spec hinit hcfg).1 hmode
    intro p hself hup
    have hserver : (m.chmpx p).isServerMode = true := by
      rwa [ChmpxMan.isServerMode, hself] at hmode
    have hdown := initialized_servers (P := fun status => status.isUp = false) (by decide) hinit p
      hserver
    dsimp only at hdown
    rw [hdown] at hup
    cases hup
  | step env op _ hok hrun ih =>
    cases op with
    | op op =>
      rw [← Option.some.inj hrun]
      exact ih.exec hok
    | setEventQueue args records sock ctlsock b => exact ih.setEventQueue hok hrun
    | closeSelfSocks b =>
      rw [← Option.some.inj hrun]
      exact ih.closeSelfSocks hok env b
  | aside _ ha ih =>
    obtain ⟨p, id, isOpen, h⟩ := ih
    have hc := ha.chmpx p h.self
    refine ⟨p, id, isOpen, ha.wellFormed, ?_, ha.chmpxSelf.trans h.self, ?_, ?_, ?_⟩
    · have hmode := h.isServerMode
      rw [ChmpxMan.isServerMode, h.self] at hmode
      rw [ChmpxMan.isServerMode, ha.chmpxSelf, h.self]
      dsimp only
      rw [hc]
      exact hmode
    · rw [hc, h.chmpxid]
    · rw [hc, h.isOpen]
    · rw [hc]
      exact h.status

theorem reachable_listensUp_sample : ListensUp ((sampleMan true).exec sampleEnv
    (.mergeChmpxSvrs (sampleArgs false) [sampleSvr 97 ChmpxSts.srvinUpNormal])).2 := by
  have hallowed : MergeAllowed sampleEnv [sampleSvr 97 ChmpxSts.srvinUpNormal]
      (sampleMan true) := by
    intro svr hsvr _ _
    obtain rfl := List.mem_singleton.mp hsvr
    decide +kernel
  have hfalls : fallsDown ChmpxSts.srvinUpNormal = true := by decide
  refine reachable_listensUp (SelfReachable.step sampleEnv (.op (.mergeChmpxSvrs (sampleArgs false)
    [sampleSvr 97 ChmpxSts.srvinUpNormal]))
    (.init (sampleMan_eq true) (sampleCfg_allowed true) (by decide +kernel)) ⟨hallowed, ?_⟩ rfl)
  intro p _ _
  refine ⟨rfl, fun q _ _ _ => ?_, trivial⟩
  rw [sampleSvr, hfalls]
  simp

/-- A record that says that this node is up and out of service, while it is closed, is taken
as it is. -/
theorem merge_srvoutUp :
    ¬∀ (m : ChmpxMan) (env : Env) (args : MergeArgs) (records : List ChmpxSvr),
      SelfReachable (fun _ _ _ => True) m → args.isInitProcess = false →
        ListensUp (mergeChmpxSvrs env args records m).2.2 := by
  intro h
  have hrun : SelfReachable (fun _ _ _ => True) (sampleMan true) :=
    .init (sampleMan_eq true) (sampleCfg_allowed true) (by decide +kernel)
  have hup := h (sampleMan true) sampleEnv (sampleArgs false)
    [sampleSvr 97 ChmpxSts.srvoutUpNormal] hrun rfl 0
  exact absurd (hup (by decide +kernel) (by decide +kernel)) (by decide +kernel)

end ChmpxMan
end Chm
