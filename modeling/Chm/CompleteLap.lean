/-
What a lap of MERGE_COMPLETE leaves behind.

A server that sends the packet on with success has promised to complete its merge.  The
check of that promise and the one of `MergeComplete` agree unless the server is up and still
to merge.
-/
import Chm.Circulation
import Chm.Complete

namespace Chm

namespace ChmpxMan

variable {env : Env} {m m₁ m₂ : ChmpxMan} {p : Ptr}

/-! ## The listening sockets -/

/-- No listening socket is opened or closed. -/
structure SameListen (m m' : ChmpxMan) : Prop where
  selfsock : ∀ p, (m'.chmpx p).selfsock = (m.chmpx p).selfsock

theorem SameListen.refl (m : ChmpxMan) : SameListen m m := ⟨fun _ => rfl⟩

theorem SameListen.trans (h : SameListen m m₁) (h' : SameListen m₁ m₂) : SameListen m m₂ :=
  ⟨fun p => (h'.selfsock p).trans (h.selfsock p)⟩

theorem setChmpx_sameListen {c : Chmpx} (hc : c.selfsock = (m.chmpx p).selfsock) :
    SameListen m (m.setChmpx p c) := by
  constructor
  intro q
  rw [chmpx_setChmpx]
  by_cases hq : q = p
  · rw [if_pos hq, hq]
    exact hc
  · rw [if_neg hq]

theorem writeBase_sameListen (m : ChmpxMan) (p : Ptr) (hash : ChmHash) :
    SameListen m (m.writeBase p hash) := by
  rw [writeBase]
  split
  · exact SameListen.refl m
  · exact ⟨fun _ => rfl⟩

theorem writePend_sameListen (m : ChmpxMan) (p : Ptr) (hash : ChmHash) :
    SameListen m (m.writePend p hash) := by
  rw [writePend]
  split
  · exact SameListen.refl m
  · exact ⟨fun _ => rfl⟩

theorem recount_sameListen (m : ChmpxMan) (cur : Cursor) : SameListen m (m.recount cur) :=
  ⟨fun _ => rfl⟩

theorem set_sameListen (env : Env) (base pending : ChmHash) (type : HashTg) (p : Ptr)
    (m : ChmpxMan) : SameListen m (m.set env base pending type p).2 := by
  rw [ChmpxMan.set, Chmpx.set]
  split
  · exact SameListen.refl m
  · rename_i c hc
    have hsock : c.selfsock = (m.chmpx p).selfsock := by
      split at hc
      · cases hc
      · rw [← Option.some.inj hc]
    have hset : SameListen m (m.setChmpx p c) := setChmpx_sameListen hsock
    have hbase := hset.trans (writeBase_sameListen (m.setChmpx p c) p base)
    cases type
    · exact hbase
    · exact hset.trans (writePend_sameListen _ p pending)
    · exact hbase.trans (writePend_sameListen _ p pending)

theorem setStatus_sameListen (env : Env) (status : ChmpxSts) (p : Ptr) (m : ChmpxMan) :
    SameListen m (m.setStatus env status p).2 := by
  rw [ChmpxMan.setStatus, Chmpx.setStatus]
  split
  · exact SameListen.refl m
  · rename_i c hc
    apply setChmpx_sameListen
    split at hc
    · cases hc
    · split at hc
      · cases hc
      · rw [← Option.some.inj hc]

theorem updateHashLoop_sameListen (env : Env) (type : HashTg) (ps : List Ptr) :
    ∀ (base pending : ChmHash) (m : ChmpxMan),
      SameListen m (updateHashLoop env type ps base pending m).2 := by
  induction ps with
  | nil => exact fun _ _ m => SameListen.refl m
  | cons p ps ih =>
    intro base pending m
    unfold updateHashLoop
    split
    · exact SameListen.refl m
    · refine SameListen.trans ?_ (ih _ _ _)
      have hb : SameListen m (if type.isBase then
          (m.set env (if type.isBase && (m.chmpx p).status.isBaseHash then base
            else chmInvalidHashVal) 0 .base p).2 else m) := by
        split
        · exact set_sameListen ..
        · exact SameListen.refl m
      generalize (if type.isBase then
          (m.set env (if type.isBase && (m.chmpx p).status.isBaseHash then base
            else chmInvalidHashVal) 0 .base p).2 else m) = m₁ at hb ⊢
      refine hb.trans ?_
      split
      · exact set_sameListen ..
      · exact SameListen.refl _

theorem updateHash_sameListen (env : Env) (type : HashTg) (b b' : Bool) (m : ChmpxMan) :
    SameListen m (m.updateHash env type b b').2 := by
  unfold ChmpxMan.updateHash
  split
  · exact SameListen.refl m
  · split
    · exact SameListen.refl m
    · unfold listUpdateHash
      split
      · exact SameListen.refl m
      · exact updateHashLoop_sameListen ..

theorem serviceOutLoop_sameListen (env : Env) (ps : List Ptr) :
    ∀ (result : Bool) (m : ChmpxMan), SameListen m (serviceOutLoop env ps result m).2 := by
  induction ps with
  | nil => exact fun _ m => SameListen.refl m
  | cons p ps ih =>
    intro result m
    have hs := setStatus_sameListen env ChmpxSts.srvoutDownNormal p m
    unfold serviceOutLoop
    generalize m.setStatus env ChmpxSts.srvoutDownNormal p = r at hs ⊢
    refine SameListen.trans ?_ (ih _ _)
    obtain ⟨ok, m₁⟩ := r
    cases ok
    · exact hs
    · exact hs.trans (set_sameListen ..)

theorem checkAllServiceOutStatus_sameListen (env : Env) (cur : Cursor) (m : ChmpxMan) :
    SameListen m (m.checkAllServiceOutStatus env cur).2 := by
  unfold checkAllServiceOutStatus
  split
  · exact SameListen.refl m
  · dsimp only
    split
    · exact SameListen.refl m
    · split
      · exact SameListen.refl m
      · exact serviceOutLoop_sameListen ..

theorem setServerStatus_sameListen (env : Env) (chmpxid : ChmpxId) (status : ChmpxSts)
    (isClientJoin : Bool) (m : ChmpxMan) :
    SameListen m (m.setServerStatus env chmpxid status isClientJoin).2 := by
  unfold ChmpxMan.setServerStatus
  split
  · split
    · exact SameListen.refl m
    · rename_i p _
      split
      · exact SameListen.refl m
      · split
        · exact SameListen.refl m
        · have hs := setStatus_sameListen env (status.changeSuspendFlag !isClientJoin) p m
          split <;> rename_i hst <;> rw [hst] at hs
          · exact hs
          · exact hs.trans (recount_sameListen _ _)
  · split
    · exact SameListen.refl m
    · rename_i p _
      have hs := setStatus_sameListen env status p m
      split <;> rename_i m₁ hst <;> rw [hst] at hs
      · exact hs
      · have hc := hs.trans (checkAllServiceOutStatus_sameListen env (some p) m₁)
        split
        · split <;> rename_i hco <;> rw [hco] at hc
          · exact hc
          · exact hc.trans (recount_sameListen _ _)
        · exact hs.trans (recount_sameListen _ _)

theorem setServerHash_sameListen (env : Env) (chmpxid : ChmpxId) (base pending : ChmHash)
    (type : HashTg) (m : ChmpxMan) :
    SameListen m (m.setServerHash env chmpxid base pending type).2 := by
  unfold ChmpxMan.setServerHash ChmpxMan.setSelfHash
  split
  · split
    · exact SameListen.refl m
    · exact set_sameListen ..
  · split
    · exact SameListen.refl m
    · exact set_sameListen ..

theorem setServerSocks_sameListen (chmpxid : ChmpxId) (sock ctlsock : Int)
    (isSock isCtlsock : Bool) (m : ChmpxMan) :
    SameListen m (setServerSocks chmpxid sock ctlsock isSock isCtlsock m).2 := by
  unfold setServerSocks
  split
  · exact SameListen.refl m
  · rename_i p _
    unfold setSock
    dsimp only
    split
    · exact SameListen.refl m
    · split
      · exact SameListen.refl m
      · have hsock : SameListen m (if (isSock && decide (sock ≠ chmInvalidSock)) = true then
            (m.setSocks (m.sockFreeCount - 1) (m.sockFrees - 1)).setChmpx p
              { m.chmpx p with socklist := sock :: (m.chmpx p).socklist } else m) := by
          split
          · have hfrees : SameListen m (m.setSocks (m.sockFreeCount - 1) (m.sockFrees - 1)) :=
              ⟨fun _ => rfl⟩
            exact hfrees.trans (setChmpx_sameListen rfl)
          · exact SameListen.refl m
        split
        · exact hsock.trans (setChmpx_sameListen rfl)
        · exact hsock

/-! ## The own record -/

/-- A server of the ring: its lists are intact, and it listens just while it is up. -/
structure Member (m : ChmpxMan) : Prop where
  wellFormed : WellFormed m
  isServerMode : m.isServerMode = true
  listens : ∀ p, m.chmpxSelf = some p → selfsockOpen (m.chmpx p) = (m.chmpx p).status.isUp

/-- The own record of a server is at `p`; its socket is open or not, and its status is one of
some. -/
structure SelfIs (p : Ptr) (id : ChmpxId) (isOpen : Bool) (good : ChmpxSts → Prop)
    (m : ChmpxMan) : Prop where
  wellFormed : WellFormed m
  isServerMode : m.isServerMode = true
  self : m.chmpxSelf = some p
  chmpxid : (m.chmpx p).chmpxid = id
  isOpen : selfsockOpen (m.chmpx p) = isOpen
  status : good (m.chmpx p).status

variable {id : ChmpxId} {isOpen : Bool} {good good' : ChmpxSts → Prop}

theorem Member.self_eq (h : Member m) : ∃ p, m.chmpxSelf = some p := by
  have hmode := h.isServerMode
  rw [ChmpxMan.isServerMode] at hmode
  cases hself : m.chmpxSelf with
  | none =>
    rw [hself] at hmode
    cases hmode
  | some p => exact ⟨p, rfl⟩

theorem SelfIs.mono (h : SelfIs p id isOpen good m)
    (hgood : good (m.chmpx p).status → good' (m.chmpx p).status) : SelfIs p id isOpen good' m :=
  ⟨h.wellFormed, h.isServerMode, h.self, h.chmpxid, h.isOpen, hgood h.status⟩

theorem SelfIs.getSelfStatus (h : SelfIs p id isOpen good m) : good m.getSelfStatus := by
  rw [ChmpxMan.getSelfStatus, h.self]
  exact h.status

theorem SelfIs.getSelfChmpxId (h : SelfIs p id isOpen good m) : m.getSelfChmpxId = id := by
  rw [ChmpxMan.getSelfChmpxId, h.self]
  exact h.chmpxid

/-- The node of the own record is in the server list. -/
theorem SelfIs.mem (h : SelfIs p id isOpen good m) {svrs frees : List Ptr} {rest : List (List Ptr)}
    (hf : Formed m svrs frees rest) : p ∈ svrs := by
  apply hf.lists.server_mem p
  have hmode := h.isServerMode
  rw [ChmpxMan.isServerMode, h.self] at hmode
  exact hmode

theorem SelfIs.named (h : SelfIs p id isOpen good m) : (m.chmpx p).name.isEmpty = false := by
  obtain ⟨svrs, frees, rest, hf⟩ := h.wellFormed
  exact hf.lists.named (h.mem hf)

theorem SelfIs.congr (h : SelfIs p id isOpen good m) (hshape : SameShape m m₁)
    (hlisten : SameListen m m₁) (hstatus : good (m₁.chmpx p).status) :
    SelfIs p id isOpen good m₁ where
  wellFormed := by
    obtain ⟨svrs, frees, rest, hf⟩ := h.wellFormed
    exact ⟨svrs, frees, rest, hshape.formed hf⟩
  isServerMode := by
    have hmode := h.isServerMode
    rw [ChmpxMan.isServerMode, h.self] at hmode
    rw [ChmpxMan.isServerMode, hshape.chmpxSelf, h.self]
    exact (hshape.isServerMode p).trans hmode
  self := hshape.chmpxSelf.trans h.self
  chmpxid := (hshape.chmpxid p).trans h.chmpxid
  isOpen := by
    rw [← h.isOpen, selfsockOpen, selfsockOpen, hshape.name, hlisten.selfsock]
  status := hstatus

theorem Written.status_cases {P : ChmpxSts → Prop}
    (h : Written (Chmpx.StatusWrite fun _ => P) m m₁) (q : Ptr) :
    (m₁.chmpx q).status = (m.chmpx q).status ∨ P (m₁.chmpx q).status := by
  induction h with
  | refl => exact Or.inl rfl
  | tail _ hw ih =>
    cases hw with
    | @chmpx p c hc =>
      rw [chmpx_setChmpx]
      by_cases hq : q = p
      · subst hq
        rw [if_pos rfl]
        rcases hc.status with hsame | hP
        · rw [hsame]
          exact ih
        · exact Or.inr hP
      · rw [if_neg hq]
        exact ih
    | srvs base pend => exact ih
    | recount cur => exact ih

theorem SelfIs.written {P : ChmpxSts → Prop} (h : SelfIs p id isOpen good m)
    (hw : Written (Chmpx.StatusWrite fun _ => P) m m₁) (hlisten : SameListen m m₁)
    (hP : ∀ status, P status → good status) : SelfIs p id isOpen good m₁ := by
  apply h.congr (SameRecords.written hw).toSameShape hlisten
  rcases hw.status_cases p with hsame | hnew
  · rw [hsame]
    exact h.status
  · exact hP _ hnew

theorem SelfIs.setServerHash (h : SelfIs p id isOpen good m) (env : Env) (chmpxid : ChmpxId)
    (base pending : ChmHash) (type : HashTg) :
    SelfIs p id isOpen good (m.setServerHash env chmpxid base pending type).2 :=
  h.written (P := fun _ => False) (Written.setServerHash _ env chmpxid base pending type m)
    (setServerHash_sameListen ..) fun _ hP => hP.elim

theorem SelfIs.updateHash (h : SelfIs p id isOpen good m) (env : Env) (type : HashTg) :
    (m.updateHash env type true true).1 = true ∧
      SelfIs p id isOpen good (m.updateHash env type true true).2 := by
  constructor
  · obtain ⟨svrs, frees, rest, hf⟩ := h.wellFormed
    obtain ⟨m', hm, -⟩ := updateHash_spec env type hf (List.ne_nil_of_mem (h.mem hf))
    rw [hm]
  · exact h.written (P := fun _ => False) (Written.updateHash _ env type true true m)
      (updateHash_sameListen ..) fun _ hP => hP.elim

theorem changeSuspendFlag_srvoutDownNormal (b : Bool) :
    ChmpxSts.srvoutDownNormal.changeSuspendFlag b = ChmpxSts.srvoutDownNormal := by
  cases b <;> decide

/-- `SRVOUT_DOWN_NORMAL` for a server writes no other status. -/
theorem setServerStatus_out (env : Env) (chmpxid : ChmpxId) (b : Bool) (m : ChmpxMan) :
    Written (Chmpx.StatusWrite fun _ => (· = ChmpxSts.srvoutDownNormal)) m
      (m.setServerStatus env chmpxid ChmpxSts.srvoutDownNormal b).2 := by
  apply Written.setServerStatus (P := fun _ => (· = ChmpxSts.srvoutDownNormal))
  intro st hst _ _
  rw [statusesOfServer, changeSuspendFlag_srvoutDownNormal] at hst
  split at hst
  · exact List.mem_singleton.mp hst
  · simpa using hst

/-- A status that may become `SRVOUT_DOWN_NORMAL`. -/
theorem SelfIs.setServerStatus (h : SelfIs p id isOpen good m)
    (hout : good ChmpxSts.srvoutDownNormal) (env : Env) (chmpxid : ChmpxId) (b : Bool) :
    SelfIs p id isOpen good
      (m.setServerStatus env chmpxid ChmpxSts.srvoutDownNormal b).2 := by
  apply h.written (setServerStatus_out env chmpxid b m)
  · exact setServerStatus_sameListen ..
  · rintro status rfl
    exact hout

/-- A server that listens does not take itself down. -/
theorem SelfIs.setServerStatus_self (h : SelfIs p id true good m) (env : Env) (b : Bool) :
    m.setServerStatus env id ChmpxSts.srvoutDownNormal b = (false, m) := by
  have hdown : ChmpxSts.srvoutDownNormal.isDown = true := by decide
  rw [ChmpxMan.setServerStatus, h.isServerMode, h.getSelfChmpxId, if_pos (by simp), h.self]
  dsimp only
  rw [hdown, h.isOpen, if_pos (by simp)]

/-- One that does not listen does. -/
theorem SelfIs.setServerStatus_closed (h : SelfIs p id false good m) (env : Env) (b : Bool) :
    SelfIs p id false (· = ChmpxSts.srvoutDownNormal)
      (m.setServerStatus env id ChmpxSts.srvoutDownNormal b).2 := by
  have hany : SelfIs p id false (fun _ => True) m := h.mono fun _ => trivial
  have hkept := hany.setServerStatus trivial env id b
  refine ⟨hkept.wellFormed, hkept.isServerMode, hkept.self, hkept.chmpxid, hkept.isOpen, ?_⟩
  have hsafe : ChmpxSts.srvoutDownNormal.isSafe = true := by decide
  have hup : ChmpxSts.srvoutDownNormal.isUp = false := by decide
  rw [ChmpxMan.setServerStatus, h.isServerMode, h.getSelfChmpxId, if_pos (by simp), h.self]
  dsimp only
  rw [h.isOpen, hup, if_neg (by simp), if_neg (by simp), changeSuspendFlag_srvoutDownNormal,
    ChmpxMan.setStatus, Chmpx.setStatus, h.named, hsafe]
  simp [recount, chmpx_setChmpx]

/-- The node that is found for another chmpxid is not this one. -/
theorem SelfIs.find_other (h : SelfIs p id isOpen good m) {chmpxid : ChmpxId} (hid : id ≠ chmpxid)
    {q : Ptr} (hfind : m.find m.chmpxServers chmpxid = some q) :
    p ≠ q ∧ ∀ svrs frees rest, Formed m svrs frees rest → q ∈ svrs := by
  have hmem : ∀ svrs frees rest, Formed m svrs frees rest →
      q ∈ svrs ∧ (m.chmpx q).chmpxid = chmpxid := by
    intro svrs frees rest hf
    have hp := h.mem hf
    have hservers : m.chmpxServers = some (m.first p) := by
      rw [hf.head, hf.lists.first_eq hp]
    have hfirst : m.first p ∈ svrs := by
      have hhead := hf.head
      rw [hservers] at hhead
      exact List.mem_of_head? hhead.symm
    rw [hservers] at hfind
    exact hf.lists.find_mem hfirst hfind
  refine ⟨?_, fun svrs frees rest hf => (hmem svrs frees rest hf).1⟩
  rintro rfl
  obtain ⟨svrs, frees, rest, hf⟩ := h.wellFormed
  exact hid (h.chmpxid.symm.trans (hmem svrs frees rest hf).2)

/-- What is done to another server leaves a server alone that is up. -/
theorem SelfIs.setServerStatus_up {status : ChmpxSts} (h : SelfIs p id true (· = status) m)
    (hsrvin : status.isSrvin = true) (hup : status.isUp = true) (env : Env) (chmpxid : ChmpxId)
    (b : Bool) :
    SelfIs p id true (· = status)
      (m.setServerStatus env chmpxid ChmpxSts.srvoutDownNormal b).2 := by
  by_cases hid : id = chmpxid
  · rw [← hid, h.setServerStatus_self env b]
    exact h
  · obtain ⟨svrs, frees, rest, hf⟩ := h.wellFormed
    have hp := h.mem hf
    unfold ChmpxMan.setServerStatus
    rw [h.getSelfChmpxId, if_neg (by simp [hid])]
    cases hfind : m.find m.chmpxServers chmpxid with
    | none => exact h
    | some q =>
      obtain ⟨hpq, hmem⟩ := h.find_other hid hfind
      have hq := hmem svrs frees rest hf
      have hw : Written (Chmpx.StatusWrite fun _ _ => True) m
          (m.setStatus env ChmpxSts.srvoutDownNormal q).2 :=
        Written.setStatus (fun _ _ => trivial) env q m
      have hkept : SelfIs p id true (· = status)
          (m.setStatus env ChmpxSts.srvoutDownNormal q).2 := by
        apply h.congr (SameRecords.written hw).toSameShape (setStatus_sameListen ..)
        rw [ChmpxMan.setStatus]
        split
        · exact h.status
        · show ((m.setChmpx q _).chmpx p).status = status
          rw [chmpx_setChmpx, if_neg hpq]
          exact h.status
      dsimp only
      have hf' := (SameRecords.written hw).toSameShape.formed hf
      generalize m.setStatus env ChmpxSts.srvoutDownNormal q = r at hkept hf' ⊢
      obtain ⟨ok, m'⟩ := r
      cases ok with
      | false => exact hkept
      | true =>
        -- This server is up, so not all servers are out of service.
        have hany : m'.checkAllServiceOutStatus env (some q) = (true, m') := by
          have hstatus : (m'.chmpx p).status = status := hkept.status
          have hslave : status.isSlave = false := by
            rw [ChmpxSts.isSrvin, ChmpxSts.has, beq_iff_eq] at hsrvin
            rw [ChmpxSts.isSlave, ChmpxSts.has, ← hsrvin]
            decide
          rw [checkAllServiceOutStatus, hf'.lists.nodes_eq hq, if_pos]
          apply List.any_eq_true.mpr
          refine ⟨p, List.mem_filter.mpr ⟨hp, ?_⟩, ?_⟩
          · rw [hstatus, hslave]
            rfl
          · rw [hstatus, hup]
        dsimp only
        rw [hany]
        split
        · exact hkept.congr (SameRecords.recount m' _).toSameShape (recount_sameListen ..)
            hkept.status
        · exact hkept.congr (SameRecords.recount m' _).toSameShape (recount_sameListen ..)
            hkept.status

end ChmpxMan

namespace EventSock

open ChmpxMan

variable {io : Outside} {s t : EventSock} {p : Ptr} {id : ChmpxId} {isOpen : Bool}
variable {good : ChmpxSts → Prop}

/-! ## The own status through the changes of down servers -/

theorem getNextRingChmpxId_sameListen (io : Outside) (s : EventSock) :
    SameListen s.man (s.getNextRingChmpxId io).2.man :=
  getNextRingChmpxId_rel (R := fun s s₁ => SameListen s.man s₁.man)
    (fun s => SameListen.refl s.man) (fun h h' => h.trans h') (fun s => SameListen.refl s.man)
    (fun _ _ _ _ => setServerSocks_sameListen ..) io s

theorem getNextRingChmpxId_self (h : SelfIs p id isOpen good s.man) (io : Outside) :
    SelfIs p id isOpen good (s.getNextRingChmpxId io).2.man := by
  have hring := getNextRingChmpxId_sameRing io s
  apply h.congr hring.toSameShape (getNextRingChmpxId_sameListen io s)
  rw [hring.status]
  exact h.status

/-- One turn of `ChangeDownSvrStatusByMerge` once the status of the server is set: the loop
goes on. -/
theorem changeDownSvrLoop_turn (io : Outside) (chmpxid : ChmpxId) (svr : ChmpxSvr)
    (svrs : List ChmpxSvr) (s : EventSock)
    (h : SelfIs p id isOpen good (if changesDownSvr .complete svr.status then
      (s.setServerStatus io svr.chmpxid ChmpxSts.srvoutDownNormal).2.man else s.man)) :
    ∃ s', changeDownSvrLoop io .complete chmpxid (svr :: svrs) s =
      changeDownSvrLoop io .complete chmpxid svrs s' ∧ SelfIs p id isOpen good s'.man := by
  rw [changeDownSvrLoop]
  cases hc : changesDownSvr .complete svr.status with
  | false =>
    rw [hc, if_neg (by decide)] at h
    rw [if_pos (by decide)]
    exact ⟨s, rfl, h⟩
  | true =>
    rw [hc, if_pos rfl] at h
    rw [if_neg (by decide)]
    show ∃ s', _ ∧ _
    have hst : downSvrStatus .complete = ChmpxSts.srvoutDownNormal := rfl
    rw [hst]
    generalize s.setServerStatus io svr.chmpxid ChmpxSts.srvoutDownNormal = r at h ⊢
    obtain ⟨ok, s₁⟩ := r
    dsimp only at h ⊢
    cases ok with
    | false => exact ⟨s₁, rfl, h⟩
    | true =>
      simp only [and_self, if_true]
      have hb : SelfIs p id isOpen good
          (s₁.setServerBaseHash io svr.chmpxid chmInvalidHashVal).2.man := h.setServerHash ..
      generalize s₁.setServerBaseHash io svr.chmpxid chmInvalidHashVal = r₂ at hb ⊢
      obtain ⟨ok₂, s₂⟩ := r₂
      dsimp only at hb ⊢
      cases ok₂ with
      | false => exact ⟨s₂, rfl, hb⟩
      | true =>
        obtain ⟨hok, hu⟩ := hb.updateHash (io.env s₂.calls) .pending
        have hok' : (s₂.updateHash io .pending).1 = true := hok
        have hu' : SelfIs p id isOpen good (s₂.updateHash io .pending).2.man := hu
        generalize s₂.updateHash io .pending = r₃ at hok' hu' ⊢
        obtain ⟨ok₃, s₃⟩ := r₃
        obtain rfl : ok₃ = true := hok'
        refine ⟨_, rfl, ?_⟩
        split
        · exact hu'
        · rw [noticeStatus_man]
          exact hu'

/-- The status of a server that is up stays. -/
theorem changeDownSvrLoop_up {status : ChmpxSts} (hsrvin : status.isSrvin = true)
    (hup : status.isUp = true) (io : Outside) (chmpxid : ChmpxId) (svrs : List ChmpxSvr) :
    ∀ s : EventSock, SelfIs p id true (· = status) s.man →
      SelfIs p id true (· = status) (changeDownSvrLoop io .complete chmpxid svrs s).2.man := by
  induction svrs with
  | nil => exact fun _ h => h
  | cons svr svrs ih =>
    intro s h
    have hset : SelfIs p id true (· = status) (if changesDownSvr .complete svr.status then
        (s.setServerStatus io svr.chmpxid ChmpxSts.srvoutDownNormal).2.man else s.man) := by
      split
      · exact h.setServerStatus_up hsrvin hup ..
      · exact h
    obtain ⟨s', heq, h'⟩ := changeDownSvrLoop_turn io chmpxid svr svrs s hset
    rw [heq]
    exact ih s' h'

/-- A status stays or becomes `SRVOUT_DOWN_NORMAL`. -/
theorem changeDownSvrLoop_out (hout : good ChmpxSts.srvoutDownNormal) (io : Outside)
    (chmpxid : ChmpxId) (svrs : List ChmpxSvr) :
    ∀ s : EventSock, SelfIs p id isOpen good s.man →
      SelfIs p id isOpen good (changeDownSvrLoop io .complete chmpxid svrs s).2.man := by
  induction svrs with
  | nil => exact fun _ h => h
  | cons svr svrs ih =>
    intro s h
    have hset : SelfIs p id isOpen good (if changesDownSvr .complete svr.status then
        (s.setServerStatus io svr.chmpxid ChmpxSts.srvoutDownNormal).2.man else s.man) := by
      split
      · exact h.setServerStatus hout ..
      · exact h
    obtain ⟨s', heq, h'⟩ := changeDownSvrLoop_turn io chmpxid svr svrs s hset
    rw [heq]
    exact ih s' h'

/-- The turn of the own record takes a server out that does not listen. -/
theorem changeDownSvrLoop_closed (io : Outside) (chmpxid : ChmpxId) {own : ChmpxSvr}
    (hid : own.chmpxid = id) (hchanges : changesDownSvr .complete own.status = true)
    (svrs : List ChmpxSvr) :
    ∀ s : EventSock, SelfIs p id false (fun _ => True) s.man → own ∈ svrs →
      SelfIs p id false (· = ChmpxSts.srvoutDownNormal)
        (changeDownSvrLoop io .complete chmpxid svrs s).2.man := by
  induction svrs with
  | nil => exact fun _ _ hown => absurd hown List.not_mem_nil
  | cons svr svrs ih =>
    intro s h hown
    by_cases hsvr : own = svr
    · have hset : SelfIs p id false (· = ChmpxSts.srvoutDownNormal)
          (if changesDownSvr .complete svr.status then
            (s.setServerStatus io svr.chmpxid ChmpxSts.srvoutDownNormal).2.man else s.man) := by
        rw [← hsvr, if_pos hchanges, hid]
        exact h.setServerStatus_closed _ _
      obtain ⟨s', heq, h'⟩ := changeDownSvrLoop_turn io chmpxid svr svrs s hset
      rw [heq]
      have hout : ChmpxSts.srvoutDownNormal = ChmpxSts.srvoutDownNormal := rfl
      exact @changeDownSvrLoop_out p id false (· = ChmpxSts.srvoutDownNormal) hout io chmpxid
        svrs s' h'
    · have hset : SelfIs p id false (fun _ => True) (if changesDownSvr .complete svr.status then
          (s.setServerStatus io svr.chmpxid ChmpxSts.srvoutDownNormal).2.man else s.man) := by
        split
        · exact h.setServerStatus trivial ..
        · exact h
      obtain ⟨s', heq, h'⟩ := changeDownSvrLoop_turn io chmpxid svr svrs s hset
      rw [heq]
      exact ih s' h' ((List.mem_cons.mp hown).resolve_left hsvr)

theorem selfIs_of_member (h : Member s.man) :
    ∃ p id, SelfIs p id s.man.getSelfStatus.isUp (· = s.man.getSelfStatus) s.man := by
  obtain ⟨p, hself⟩ := h.self_eq
  have hstatus : s.man.getSelfStatus = (s.man.chmpx p).status := by rw [getSelfStatus, hself]
  refine ⟨p, _, h.wellFormed, h.isServerMode, hself, rfl, ?_, hstatus.symm⟩
  rw [hstatus]
  exact h.listens p hself

/-- The records of all servers have the own one among them. -/
theorem record_mem (h : SelfIs p id isOpen good s.man) (io : Outside) :
    ∃ svrs, s.getChmpxSvrs io = some svrs ∧ (s.man.chmpx p).getChmpxSvr ∈ svrs := by
  obtain ⟨svrs, frees, rest, hf⟩ := h.wellFormed
  have hp := h.mem hf
  have hcount := hf.lists.serverCount
  have hlen := hf.lists.length_le List.mem_cons_self
  have hwalk : s.man.fromHead = svrs := by
    rw [fromHead, hf.head]
    exact hf.lists.chains.walk hlen
  have hne : s.man.chmpxServerCount ≠ 0 := by
    have hpos := List.length_pos_of_mem hp
    omega
  rw [EventSock.getChmpxSvrs, ChmpxMan.getChmpxSvrs, if_neg hne, hwalk]
  refine ⟨_, rfl, ?_⟩
  rw [List.take_append, List.take_of_length_le (by rw [List.length_map]; exact hcount)]
  exact List.mem_append_left _ (List.mem_map_of_mem hp)

/-- The own status after the changes of the down servers. -/
structure OwnStatus (status status' : ChmpxSts) : Prop where
  cases : status' = status ∨ status' = ChmpxSts.srvoutDownNormal
  up : status.isSrvin = true → status.isUp = true → status' = status
  deleted : changesDownSvr .complete status = true → status' = ChmpxSts.srvoutDownNormal

theorem changesDownSvr_down {status : ChmpxSts} (h : changesDownSvr .complete status = true) :
    status.isUp = false := by
  rw [changesDownSvr, Bool.and_eq_true, Bool.and_eq_true, Bool.and_eq_true] at h
  have hdown := h.1.1.2
  rw [ChmpxSts.isDown, ChmpxSts.has, beq_iff_eq] at hdown
  rw [ChmpxSts.isUp, ChmpxSts.has, ← hdown]
  decide

/-- The own status stays or becomes `SRVOUT_DOWN_NORMAL`, and stays while the server is up. -/
theorem changeDownSvrStatusByMerge_kept {status : ChmpxSts}
    (h : SelfIs p id isOpen (· = status) s.man) (hopen : status.isUp = true → isOpen = true)
    (io : Outside) :
    SelfIs p id isOpen (fun status' => (status' = status ∨ status' = ChmpxSts.srvoutDownNormal) ∧
        (status.isSrvin = true → status.isUp = true → status' = status))
      (s.changeDownSvrStatusByMerge io .complete).2.man := by
  unfold changeDownSvrStatusByMerge
  cases s.getChmpxSvrs io with
  | none => exact h.mono fun heq => ⟨Or.inl heq, fun _ _ => heq⟩
  | some svrs =>
    have hnext := getNextRingChmpxId_self h io
    dsimp only
    generalize (s.getNextRingChmpxId io).2 = s₁ at hnext
    generalize (s.getNextRingChmpxId io).1 = chmpxid
    have hstart : SelfIs p id isOpen (fun st => st = status ∨ st = ChmpxSts.srvoutDownNormal)
        s₁.man := hnext.mono Or.inl
    have hcases := changeDownSvrLoop_out (Or.inr rfl) io chmpxid svrs s₁ hstart
    refine hcases.mono fun hor => ⟨hor, fun hsrvin hup => ?_⟩
    rw [hopen hup] at hnext
    exact (changeDownSvrLoop_up hsrvin hup io chmpxid svrs s₁ hnext).status

theorem changeDownSvrStatusByMerge_own (h : Member s.man) (io : Outside) :
    ∃ p id, SelfIs p id s.man.getSelfStatus.isUp (OwnStatus s.man.getSelfStatus)
      (s.changeDownSvrStatusByMerge io .complete).2.man := by
  obtain ⟨p, id, hself⟩ := selfIs_of_member h
  obtain ⟨svrs, hsvrs, hown⟩ := record_mem hself io
  have hkept := changeDownSvrStatusByMerge_kept hself (fun hup => hup) io
  have hstatus : (s.man.chmpx p).status = s.man.getSelfStatus := hself.status
  have hid : (s.man.chmpx p).getChmpxSvr.chmpxid = id := hself.chmpxid
  refine ⟨p, id, hkept.mono fun hst => ⟨hst.1, hst.2, fun hchanges => ?_⟩⟩
  have hnext := getNextRingChmpxId_self hself io
  rw [changesDownSvr_down hchanges] at hnext
  have hchanges' : changesDownSvr .complete (s.man.chmpx p).getChmpxSvr.status = true := by
    show changesDownSvr .complete (s.man.chmpx p).status = true
    rw [hstatus]
    exact hchanges
  unfold changeDownSvrStatusByMerge
  rw [hsvrs]
  exact (changeDownSvrLoop_closed io _ hid hchanges' svrs _ (hnext.mono fun _ => trivial)
    hown).status

/-! ## The two checks -/

/-- Up and still to merge, or up with an action that there is not. -/
def stillToMerge (status : ChmpxSts) : Bool :=
  status.isSrvin && status.isUp &&
    (!(status.isNoact || status.isAdd || status.isDelete) ||
      status.isPending && (status.isAdd || !status.isSuspend))

/-- `MergeComplete` refuses the own status. -/
def refusesMergeComplete (io : Outside) (s : EventSock) : Bool :=
  (statusOfMergeComplete
    (s.changeDownSvrStatusByMerge io .complete).2.man.getSelfStatus).isNone

theorem not_done_of_pending {status : ChmpxSts} (h : status.isPending = true) :
    status.isDone = false ∧ status.isDoing = false := by
  rw [ChmpxSts.isPending, ChmpxSts.has, beq_iff_eq] at h
  rw [ChmpxSts.isDone, ChmpxSts.isDoing, ChmpxSts.has, ChmpxSts.has, ← h]
  decide

theorem isDown_of_not_up {status : ChmpxSts} (h : status.isUp = false) : status.isDown = true := by
  have hbit : status &&& BitVec.twoPow 64 0 =
      if status.getLsbD 0 then BitVec.twoPow 64 0 else 0#64 := BitVec.and_twoPow status 0
  have hmask : ChmpxSts.maskLive = BitVec.twoPow 64 0 := by decide
  have hup : ChmpxSts.valUp = BitVec.twoPow 64 0 := by decide
  have hdown : ChmpxSts.valDown = 0#64 := by decide
  rw [ChmpxSts.isUp, ChmpxSts.has, hmask, hup, hbit] at h
  rw [ChmpxSts.isDown, ChmpxSts.has, hmask, hdown, hbit]
  by_cases hlsb : status.getLsbD 0 = true
  · rw [if_pos hlsb] at h
    simp at h
  · rw [if_neg hlsb]
    decide

theorem statusOfMergeComplete_out :
    (statusOfMergeComplete ChmpxSts.srvoutDownNormal).isNone = false := by decide

/-- The two checks on a server that is up. -/
theorem answerMergeComplete_up {status : ChmpxSts} (hsrvin : status.isSrvin = true)
    (hup : status.isUp = true) (hanswer : (answerMergeComplete status).1 = true) :
    ((answerMergeComplete status).2 = true ∧ (statusOfMergeComplete status).isNone = false) ↔
      stillToMerge status = false := by
  have hpending : status.isPending = true → status.isDone = false ∧ status.isDoing = false :=
    not_done_of_pending
  revert hanswer
  unfold answerMergeComplete statusOfMergeComplete stillToMerge
  simp only [hsrvin, hup, if_true, apply_ite Option.isNone, Option.isNone_none,
    Option.isNone_some]
  generalize status.isDone = done at hpending ⊢
  generalize status.isDoing = doing at hpending ⊢
  generalize status.isPending = pending at hpending ⊢
  generalize status.isSuspend = suspend
  generalize status.isNoact = noact
  generalize status.isAdd = add
  generalize status.isDelete = delete
  revert done doing pending suspend noact add delete
  decide +kernel

/-- A server that turns the result to an error is not still to merge. -/
theorem stillToMerge_of_answer {status : ChmpxSts}
    (hanswer : (answerMergeComplete status).1 = false) : stillToMerge status = false := by
  have hpending : status.isPending = true → status.isDone = false ∧ status.isDoing = false :=
    not_done_of_pending
  have hnoact : status.isNoact = true → status.isAdd = false := by
    intro h
    rw [ChmpxSts.isNoact, ChmpxSts.has, beq_iff_eq] at h
    rw [ChmpxSts.isAdd, ChmpxSts.has, ← h]
    decide
  revert hanswer
  unfold answerMergeComplete stillToMerge
  generalize status.isDone = done at hpending ⊢
  generalize status.isDoing = doing at hpending ⊢
  generalize status.isPending = pending at hpending ⊢
  generalize status.isSuspend = suspend
  generalize status.isNoact = noact at hnoact ⊢
  generalize status.isAdd = add at hnoact ⊢
  generalize status.isDelete = delete
  generalize status.isSrvin = srvin
  generalize status.isUp = up
  generalize status.isDown = down
  revert done doing pending suspend noact add delete srvin up down
  decide +kernel

/-- The check before the packet is sent on, against the one of the merge itself. -/
theorem answerMergeComplete_iff {status status' : ChmpxSts} (h : OwnStatus status status')
    (hanswer : (answerMergeComplete status).1 = true) :
    ((answerMergeComplete status).2 = true ∧ (statusOfMergeComplete status').isNone = false) ↔
      stillToMerge status = false := by
  by_cases hsrvin : status.isSrvin = true
  · by_cases hup : status.isUp = true
    · rw [h.up hsrvin hup]
      exact answerMergeComplete_up hsrvin hup hanswer
    · have hdown := isDown_of_not_up (eq_false_of_ne_true hup)
      have hstill : stillToMerge status = false := by simp [stillToMerge, hup]
      have htwo : (answerMergeComplete status).2 = true := by
        rw [answerMergeComplete, if_pos hsrvin, if_neg hup, if_pos hdown]
      refine iff_of_true ⟨htwo, ?_⟩ hstill
      rcases h.cases with hsame | hout
      · by_cases hdelete : status.isDelete = true
        · have hchanges : changesDownSvr .complete status = true := by
            simp [changesDownSvr, hsrvin, hdown, hdelete]
          rw [h.deleted hchanges]
          exact statusOfMergeComplete_out
        · rw [hsame, statusOfMergeComplete, if_pos hsrvin, if_neg hup, if_neg hdelete]
          rfl
      · rw [hout]
        exact statusOfMergeComplete_out
  · have hstill : stillToMerge status = false := by simp [stillToMerge, hsrvin]
    have htwo : (answerMergeComplete status).2 = true := by
      rw [answerMergeComplete, if_neg hsrvin]
    refine iff_of_true ⟨htwo, ?_⟩ hstill
    rcases h.cases with hsame | hout
    · rw [hsame, statusOfMergeComplete, if_neg hsrvin]
      rfl
    · rw [hout]
      exact statusOfMergeComplete_out

/-! ## The base hash -/

/-- `MergeComplete` up to its write of the base hash, with the status to come. -/
def commitMerge (io : Outside) (s : EventSock) : Option (ChmpxSts × EventSock) :=
  let (_, s) := s.changeDownSvrStatusByMerge io .complete
  match s.man.getSelfHash with
  | none => none
  | some (_, hash) =>
    match statusOfMergeComplete s.man.getSelfStatus with
    | none => none
    | some status =>
      let (ok, s) := s.setSelfBaseHash io hash
      if !ok then none else some (status, s)

/-- The rest of `MergeComplete`. -/
def afterCommit (io : Outside) (status : ChmpxSts) (s : EventSock) : Bool × EventSock :=
  let (ok, s) := s.setSelfStatus io status
  if !ok then (false, s)
  else
    let (_, s) := s.updateSelfLastStatusTime io
    let (_, s) := s.reloadConfiguration io
    match s.man.getSelfChmpxSvr with
    | none => (false, s)
    | some svr =>
      let (chmpxid, s) := s.getNextRingChmpxId io
      s.noticeStatus io chmpxid svr

theorem mergeComplete_of_commit {status : ChmpxSts} (h : s.commitMerge io = some (status, t)) :
    s.mergeComplete io = t.afterCommit io status := by
  rw [commitMerge] at h
  rw [mergeComplete]
  generalize s.changeDownSvrStatusByMerge io .complete = r at h ⊢
  obtain ⟨ok, s₁⟩ := r
  dsimp only at h ⊢
  cases hhash : s₁.man.getSelfHash with
  | none =>
    rw [hhash] at h
    cases h
  | some hashes =>
    rw [hhash] at h
    cases hst : statusOfMergeComplete s₁.man.getSelfStatus with
    | none =>
      rw [hst] at h
      cases h
    | some status' =>
      rw [hst] at h
      dsimp only at h ⊢
      generalize s₁.setSelfBaseHash io hashes.2 = r₂ at h ⊢
      obtain ⟨ok₂, s₂⟩ := r₂
      cases ok₂ with
      | false => cases h
      | true =>
        obtain ⟨rfl, rfl⟩ := Prod.mk.inj (Option.some.inj h)
        rfl

/-- The server writes its pending hash as its base hash, and goes on from there. -/
def Committed (io : Outside) (s : EventSock) : Prop :=
  ∃ base hash status t,
    (s.changeDownSvrStatusByMerge io .complete).2.man.getSelfHash = some (base, hash) ∧
      s.commitMerge io = some (status, t) ∧ t.man.getSelfHash = some (hash, hash) ∧
      s.mergeComplete io = t.afterCommit io status

theorem not_committed_of_refuses (h : s.refusesMergeComplete io = true) : ¬ Committed io s := by
  rintro ⟨base, hash, status, t, -, hcommit, -⟩
  rw [refusesMergeComplete, Option.isNone_iff_eq_none] at h
  rw [commitMerge] at hcommit
  generalize s.changeDownSvrStatusByMerge io .complete = r at h hcommit
  obtain ⟨ok, s₁⟩ := r
  dsimp only at h hcommit
  rw [h] at hcommit
  split at hcommit <;> cases hcommit

/-- `SetSelfBaseHash` with the pending hash. -/
theorem setSelfBaseHash_self {base hash : ChmHash} (h : SelfIs p id isOpen good s.man)
    (hhash : s.man.getSelfHash = some (base, hash)) (io : Outside) :
    (s.setSelfBaseHash io hash).1 = true ∧
      (s.setSelfBaseHash io hash).2.man.getSelfHash = some (hash, hash) := by
  have hname := h.named
  rw [ChmpxMan.getSelfHash, h.self] at hhash
  dsimp only at hhash
  rw [hname, if_neg (by decide)] at hhash
  obtain ⟨-, hpend⟩ := Prod.mk.inj (Option.some.inj hhash)
  show (s.man.setSelfHash (io.env s.calls) hash 0 .base).1 = true ∧
    (s.man.setSelfHash (io.env s.calls) hash 0 .base).2.getSelfHash = some (hash, hash)
  rw [ChmpxMan.setSelfHash, h.self]
  dsimp only
  rw [ChmpxMan.set, Chmpx.set, hname]
  refine ⟨rfl, ?_⟩
  have hbase : ∀ m : ChmpxMan, (m.writeBase p hash).getSelfHash = m.getSelfHash := by
    intro m
    rw [writeBase]
    split <;> rfl
  simp only [HashTg.isBase, HashTg.isPending, if_true, Bool.false_eq_true, if_false]
  rw [hbase, ChmpxMan.getSelfHash]
  rw [show (ChmpxMan.setChmpx _ _ _).chmpxSelf = some p from h.self]
  dsimp only
  rw [chmpx_setChmpx, if_pos rfl]
  dsimp only
  rw [hname, if_neg (by decide), hpend]

/-- A server that does not refuse its own status commits. -/
theorem committed_of_member (hs : Member s.man) (h : s.refusesMergeComplete io = false) :
    Committed io s := by
  obtain ⟨p, id, hself⟩ := changeDownSvrStatusByMerge_own hs io
  rw [refusesMergeComplete, Option.isNone_eq_false_iff, Option.isSome_iff_exists] at h
  obtain ⟨status, hst⟩ := h
  generalize hdown : s.changeDownSvrStatusByMerge io .complete = r at hst hself
  obtain ⟨ok, s₁⟩ := r
  dsimp only at hst hself
  have hhash : s₁.man.getSelfHash =
      some ((s₁.man.chmpx p).baseHash, (s₁.man.chmpx p).pendingHash) := by
    rw [ChmpxMan.getSelfHash, hself.self]
    dsimp only
    rw [hself.named, if_neg (by decide)]
  obtain ⟨hok, hset⟩ := setSelfBaseHash_self hself hhash io
  have hcommit : s.commitMerge io =
      some (status, (s₁.setSelfBaseHash io (s₁.man.chmpx p).pendingHash).2) := by
    rw [commitMerge, hdown]
    dsimp only
    rw [hhash]
    dsimp only
    rw [hst]
    dsimp only
    rw [hok, if_neg (by decide)]
  refine ⟨(s₁.man.chmpx p).baseHash, _, status, _, ?_, hcommit, hset,
    mergeComplete_of_commit hcommit⟩
  rw [hdown]
  exact hhash

/-! ## A server of the lap -/

/-- The packet with success from another server goes on with success: `is_completed`, and the
state once it is sent. -/
def Forwards (io : Outside) (dept : ChmpxId) (s : EventSock) (isCompleted : Bool)
    (t : EventSock) : Prop :=
  ∃ pkt s₁, s.pxComReceiveMergeComplete io dept true = (true, ⟨some pkt, isCompleted⟩, s₁) ∧
    pkt.body = .mergeComplete true ∧ s₁.send io pkt = (true, t)

/-- A server that sends the packet on with success goes on to complete, does not refuse its
own status and commits. -/
def CompletesWhatItAccepts (io : Outside) (dept : ChmpxId) (s : EventSock) : Prop :=
  ∀ isCompleted t, Forwards io dept s isCompleted t →
    isCompleted = true ∧ t.refusesMergeComplete io = false ∧ Committed io t

/-- The packet is for another server, there is a next one, and it can be reached. -/
def PassesOn (io : Outside) (dept : ChmpxId) (s : EventSock) : Prop :=
  let (next, s₁) := s.getNextRingChmpxId io
  dept ≠ s.man.getSelfChmpxId ∧ next ≠ chmInvalidChmpxId ∧
    isSafeDeptAndNextChmpxId s₁.man dept next = true ∧ io.sends s₁.calls = true

theorem getNextRingChmpxId_member (h : Member s.man) (io : Outside) :
    Member (s.getNextRingChmpxId io).2.man := by
  obtain ⟨p, id, hself⟩ := selfIs_of_member h
  have hnext := getNextRingChmpxId_self hself io
  have hring := getNextRingChmpxId_sameRing io s
  refine ⟨hnext.wellFormed, hnext.isServerMode, fun q hq => ?_⟩
  obtain rfl : p = q := Option.some.inj (hnext.self.symm.trans hq)
  have hstatus : ((s.getNextRingChmpxId io).2.man.chmpx p).status = s.man.getSelfStatus :=
    hnext.status
  rw [hnext.isOpen, hstatus]

theorem getNextRingChmpxId_getSelfStatus (io : Outside) (s : EventSock) :
    (s.getNextRingChmpxId io).2.man.getSelfStatus = s.man.getSelfStatus := by
  have hring := getNextRingChmpxId_sameRing io s
  rw [ChmpxMan.getSelfStatus, ChmpxMan.getSelfStatus, hring.chmpxSelf]
  split
  · rfl
  · exact hring.status _

theorem forwards_iff {isCompleted : Bool} (io : Outside) (dept : ChmpxId) (s t : EventSock) :
    Forwards io dept s isCompleted t ↔
      PassesOn io dept s ∧ answerMergeComplete s.man.getSelfStatus = (true, isCompleted) ∧
        ((s.getNextRingChmpxId io).2.send io ⟨.v2, dept, (s.getNextRingChmpxId io).1,
          .mergeComplete true⟩).2 = t := by
  have hstatus := getNextRingChmpxId_getSelfStatus io s
  unfold Forwards PassesOn pxComReceiveMergeComplete
  generalize s.getNextRingChmpxId io = r at hstatus ⊢
  obtain ⟨next, s₂⟩ := r
  dsimp only at hstatus ⊢
  by_cases hdept : dept = s.man.getSelfChmpxId
  · -- The departure sends nothing on.
    rw [if_pos hdept, if_pos rfl]
    refine iff_of_false ?_ fun h => h.1.1 hdept
    rintro ⟨pkt, s₁, hrecv, -⟩
    have hpkt := congrArg (fun x => x.2.1.pkt) hrecv
    cases hpkt
  · rw [if_neg hdept]
    by_cases hnext : next = chmInvalidChmpxId
    · rw [if_pos hnext]
      refine iff_of_false ?_ fun h => h.1.2.1 hnext
      rintro ⟨pkt, s₁, hrecv, -⟩
      cases hrecv
    · rw [if_neg hnext]
      cases hsafe : isSafeDeptAndNextChmpxId s₂.man dept next with
      | false =>
        rw [if_pos (by decide)]
        refine iff_of_false ?_ fun h => absurd h.1.2.2.1 (by decide)
        rintro ⟨pkt, s₁, hrecv, -⟩
        cases hrecv
      | true =>
        rw [if_neg (by decide), if_pos rfl, hstatus]
        constructor
        · rintro ⟨pkt, s₁, hrecv, hbody, hsend⟩
          simp only [Prod.mk.injEq, CompleteAnswer.mk.injEq, Option.some.injEq, true_and] at hrecv
          obtain ⟨⟨rfl, hcompleted⟩, rfl⟩ := hrecv
          have hanswer : (answerMergeComplete s.man.getSelfStatus).1 = true :=
            PxCom.mergeComplete.inj hbody
          rw [hanswer] at hsend
          refine ⟨⟨hdept, hnext, rfl, congrArg Prod.fst hsend⟩, ?_, congrArg Prod.snd hsend⟩
          rw [← hanswer, ← hcompleted]
        · rintro ⟨⟨-, -, -, hok⟩, hanswer, ht⟩
          rw [hanswer]
          refine ⟨_, s₂, rfl, rfl, ?_⟩
          rw [← ht]
          exact Prod.ext hok rfl

/-- A member of the ring completes what it accepts just if it is not up and still to merge. -/
theorem completesWhatItAccepts_iff {dept : ChmpxId} (hs : Member s.man) :
    CompletesWhatItAccepts io dept s ↔
      (PassesOn io dept s → stillToMerge s.man.getSelfStatus = false) := by
  have hmember : Member (s.getNextRingChmpxId io).2.man := getNextRingChmpxId_member hs io
  have hsame := getNextRingChmpxId_getSelfStatus io s
  have hcompletes : ∀ (pkt : ComPkt),
      (answerMergeComplete s.man.getSelfStatus).1 = true →
      ((answerMergeComplete s.man.getSelfStatus).2 = true ∧
        ((s.getNextRingChmpxId io).2.send io pkt).2.refusesMergeComplete io = false ↔
        stillToMerge s.man.getSelfStatus = false) := by
    intro pkt hanswer
    have hmem : Member ((s.getNextRingChmpxId io).2.send io pkt).2.man := hmember
    obtain ⟨p, id, hself⟩ := changeDownSvrStatusByMerge_own hmem io
    have hown : OwnStatus s.man.getSelfStatus
        (((s.getNextRingChmpxId io).2.send io pkt).2.changeDownSvrStatusByMerge io
          .complete).2.man.getSelfStatus := by
      rw [← hsame]
      exact hself.getSelfStatus
    exact answerMergeComplete_iff hown hanswer
  constructor
  · intro h hpass
    by_cases hanswer : (answerMergeComplete s.man.getSelfStatus).1 = true
    · have hforwards := (forwards_iff io dept s _).mpr ⟨hpass, Prod.ext hanswer rfl, rfl⟩
      obtain ⟨hcompleted, hrefuses, -⟩ := h _ _ hforwards
      exact (hcompletes _ hanswer).mp ⟨hcompleted, hrefuses⟩
    · exact stillToMerge_of_answer (eq_false_of_ne_true hanswer)
  · intro h isCompleted t hforwards
    obtain ⟨hpass, hanswer, ht⟩ := (forwards_iff io dept s t).mp hforwards
    have hstill := h hpass
    obtain ⟨htwo, hrefuses⟩ := (hcompletes _ (congrArg Prod.fst hanswer)).mpr hstill
    rw [ht] at hrefuses
    rw [hanswer] at htwo
    refine ⟨htwo, hrefuses, committed_of_member ?_ hrefuses⟩
    rw [← ht]
    exact hmember

/-! ## The lap -/

/-- A server as the packet finds it, and what it meets outside. -/
structure LapServer where
  io : Outside
  sock : EventSock

/-- The result that a server sends on, if it sends the packet on. -/
def sentOn (dept : ChmpxId) (result : Bool) (n : LapServer) : Option Bool :=
  match n.sock.pxComReceiveMergeComplete n.io dept result with
  | (true, ⟨some pkt, _⟩, s) =>
    if (s.send n.io pkt).1 then
      match pkt.body with
      | .mergeComplete result => some result
      | _ => none
    else none
  | _ => none

/-- The result with which the packet comes back to its departure. -/
def lapResult (dept : ChmpxId) : Bool → List LapServer → Option Bool
  | result, [] => some result
  | result, n :: ns => (sentOn dept result n).bind fun result => lapResult dept result ns

/-- The server sends the packet on and then commits. -/
def CommitsInLap (dept : ChmpxId) (n : LapServer) : Prop :=
  ∃ t, Forwards n.io dept n.sock true t ∧ Committed n.io t ∧
    n.sock.processMergeComplete n.io dept true = (true, t.processCompleted n.io dept)

theorem process_of_forwards {dept : ChmpxId} (h : Forwards io dept s true t) :
    s.processMergeComplete io dept true = (true, t.processCompleted io dept) := by
  obtain ⟨pkt, s₁, hrecv, -, hsend⟩ := h
  simp only [processMergeComplete, receiveAndSend, hrecv, hsend]
  rfl

theorem sentOn_true {dept : ChmpxId} {result : Bool} {n : LapServer}
    (h : sentOn dept result n = some true) :
    ∃ pkt isCompleted s₁ t,
      n.sock.pxComReceiveMergeComplete n.io dept result = (true, ⟨some pkt, isCompleted⟩, s₁) ∧
        pkt.body = .mergeComplete true ∧ s₁.send n.io pkt = (true, t) := by
  unfold sentOn at h
  split at h
  · rename_i pkt isCompleted s₁ hrecv
    split at h
    · rename_i hok
      split at h
      · rename_i hbody
        rw [Option.some.inj h] at hbody
        exact ⟨pkt, isCompleted, s₁, _, hrecv, hbody, Prod.ext hok rfl⟩
      · cases h
    · cases h
  · cases h

/-- An error stays one. -/
theorem receive_false {dept : ChmpxId} {pkt : ComPkt} {isCompleted : Bool}
    (h : s.pxComReceiveMergeComplete io dept false = (true, ⟨some pkt, isCompleted⟩, t)) :
    pkt.body = .mergeComplete false := by
  unfold pxComReceiveMergeComplete at h
  split at h
  · cases h
  · dsimp only at h
    split at h
    · cases h
    · split at h
      · cases h
      · simp only [Prod.mk.injEq, CompleteAnswer.mk.injEq, Option.some.injEq, true_and] at h
        obtain ⟨⟨rfl, -⟩, -⟩ := h
        rfl

theorem lapResult_true {dept : ChmpxId} {ns : List LapServer} {result : Bool}
    (h : lapResult dept result ns = some true) :
    result = true ∧ ∀ n ∈ ns, ∃ isCompleted t, Forwards n.io dept n.sock isCompleted t := by
  induction ns generalizing result with
  | nil => exact ⟨Option.some.inj h, fun _ hn => absurd hn List.not_mem_nil⟩
  | cons n ns ih =>
    rw [lapResult] at h
    cases hsent : sentOn dept result n with
    | none =>
      rw [hsent] at h
      cases h
    | some result' =>
      rw [hsent] at h
      obtain ⟨rfl, hrest⟩ := ih h
      obtain ⟨pkt, isCompleted, s₁, t, hrecv, hbody, hsend⟩ := sentOn_true hsent
      cases result with
      | false =>
        rw [receive_false hrecv] at hbody
        cases hbody
      | true =>
        refine ⟨rfl, fun n' hn' => ?_⟩
        rcases List.mem_cons.mp hn' with rfl | hn'
        · exact ⟨isCompleted, t, pkt, s₁, hrecv, hbody, hsend⟩
        · exact hrest n' hn'

/-- A member of the ring completes what it accepts just if it is not up and still to merge;
and when none of them is, a lap that comes back with success has been committed by all. -/
theorem mergeComplete_lap (dept : ChmpxId) (ns : List LapServer)
    (hmember : ∀ n ∈ ns, Member n.sock.man) :
    (∀ n ∈ ns, CompletesWhatItAccepts n.io dept n.sock ↔
      (PassesOn n.io dept n.sock → stillToMerge n.sock.man.getSelfStatus = false)) ∧
    ((∀ n ∈ ns, PassesOn n.io dept n.sock → stillToMerge n.sock.man.getSelfStatus = false) →
      lapResult dept true ns = some true → ∀ n ∈ ns, CommitsInLap dept n) := by
  refine ⟨fun n hn => completesWhatItAccepts_iff (hmember n hn), fun hok hresult n hn => ?_⟩
  obtain ⟨isCompleted, t, hforwards⟩ := (lapResult_true hresult).2 n hn
  have hcompletes := (completesWhatItAccepts_iff (hmember n hn)).mpr (hok n hn)
  obtain ⟨rfl, -, hcommitted⟩ := hcompletes isCompleted t hforwards
  exact ⟨t, hforwards, hcommitted, process_of_forwards hforwards⟩

/-! ### A lap that is committed, and one that is not -/

open RingNet

/-- A server beside the departure, up and in service with the action of its status. -/
def lapMan (status : ChmpxSts) : ChmpxMan :=
  let m := (ringMan 98 [97] [97, 98]).exec sampleEnv (.setSelfStatus status true)
  (m.2.exec sampleEnv (.updateHash .pending true true)).2

def lapServer (status : ChmpxSts) : LapServer :=
  ⟨sampleOutside, { ringSock 98 [97] [97, 98] with man := lapMan status }⟩

theorem lapServer_man (status : ChmpxSts) : (lapServer status).sock.man = lapMan status := rfl

theorem lapServer_added_member : Member (lapServer ChmpxSts.srvinUpAdded).sock.man := by
  have hinit : (initialized sampleEnv (ringCfg 98 [97])).isSome := by decide +kernel
  have hok : ConfigAllowed sampleEnv (ringCfg 98 [97]) := ⟨by decide +kernel, by decide +kernel⟩
  have hring := ringMan_wellFormed [97, 98] hinit hok
  have hlistens : ∀ p ∈ (lapMan ChmpxSts.srvinUpAdded).chmpxSelf,
      selfsockOpen ((lapMan ChmpxSts.srvinUpAdded).chmpx p) =
        ((lapMan ChmpxSts.srvinUpAdded).chmpx p).status.isUp := by
    decide +kernel
  have hops : ∀ m : ChmpxMan, WellFormed m →
      WellFormed ((m.exec sampleEnv (.setSelfStatus ChmpxSts.srvinUpAdded true)).2.exec sampleEnv
        (.updateHash .pending true true)).2 := by
    intro m hwf
    have hset : WellFormed (m.exec sampleEnv (.setSelfStatus ChmpxSts.srvinUpAdded true)).2 :=
      exec_wellFormed hwf trivial
    exact exec_wellFormed hset trivial
  have hwf : WellFormed (lapMan ChmpxSts.srvinUpAdded) := by
    unfold lapMan
    exact hops _ hring
  rw [lapServer_man]
  exact ⟨hwf, by decide +kernel, hlistens⟩

theorem mergeComplete_lap_sample :
    lapResult (sampleId 97) true [lapServer ChmpxSts.srvinUpAdded] = some true ∧
      CommitsInLap (sampleId 97) (lapServer ChmpxSts.srvinUpAdded) := by
  have hmember : ∀ n ∈ [lapServer ChmpxSts.srvinUpAdded], Member n.sock.man := by
    intro n hn
    rw [List.mem_singleton.mp hn]
    exact lapServer_added_member
  have hresult : lapResult (sampleId 97) true [lapServer ChmpxSts.srvinUpAdded] = some true := by
    decide +kernel
  have hok : ∀ n ∈ [lapServer ChmpxSts.srvinUpAdded], PassesOn n.io (sampleId 97) n.sock →
      stillToMerge n.sock.man.getSelfStatus = false := by
    intro n hn _
    rw [List.mem_singleton.mp hn]
    decide +kernel
  exact ⟨hresult, (mergeComplete_lap (sampleId 97) _ hmember).2 hok hresult _
    (List.mem_singleton_self _)⟩

/-- A server that is added and still to merge lets the lap come back with success and then
refuses, so it keeps its old base hash. -/
theorem addpending_refuses :
    lapResult (sampleId 97) true [lapServer ChmpxSts.srvinUpAddpending] = some true ∧
      ¬ CompletesWhatItAccepts sampleOutside (sampleId 97)
        (lapServer ChmpxSts.srvinUpAddpending).sock ∧
      ¬ CommitsInLap (sampleId 97) (lapServer ChmpxSts.srvinUpAddpending) ∧
      (lapServer ChmpxSts.srvinUpAddpending).sock.man.getSelfHash =
        some (chmInvalidHashVal, 1) ∧
      ((lapServer ChmpxSts.srvinUpAddpending).sock.processMergeComplete sampleOutside
        (sampleId 97) true).2.man.getSelfHash = some (chmInvalidHashVal, 1) := by
  have hresult : lapResult (sampleId 97) true [lapServer ChmpxSts.srvinUpAddpending] =
      some true := by
    decide +kernel
  have hrefuses : (((lapServer ChmpxSts.srvinUpAddpending).sock.getNextRingChmpxId
      sampleOutside).2.send sampleOutside ⟨.v2, sampleId 97,
        ((lapServer ChmpxSts.srvinUpAddpending).sock.getNextRingChmpxId sampleOutside).1,
        .mergeComplete true⟩).2.refusesMergeComplete sampleOutside = true := by
    decide +kernel
  refine ⟨hresult, fun hcompletes => ?_, fun hcommits => ?_, by decide +kernel, by decide +kernel⟩
  · obtain ⟨isCompleted, t, hforwards⟩ := (lapResult_true hresult).2 _ (List.mem_singleton_self _)
    have hno := (hcompletes isCompleted t hforwards).2.1
    obtain ⟨-, -, ht⟩ := (forwards_iff _ _ _ t).mp hforwards
    rw [← ht] at hno
    exact Bool.noConfusion (hno.symm.trans hrefuses)
  · obtain ⟨t, hforwards, hcommitted, -⟩ := hcommits
    obtain ⟨-, -, ht⟩ := (forwards_iff _ _ _ t).mp hforwards
    rw [← ht] at hcommitted
    exact not_committed_of_refuses hrefuses hcommitted

end EventSock

end Chm
