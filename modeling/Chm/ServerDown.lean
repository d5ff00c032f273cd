/-
The notice that a server is down.

A node whose socket to a server has hung up takes the server down in its own list, chains the ring
anew and sends SERVER_DOWN around it; each node that the notice comes to takes the server down too
and sends the notice on (`LiveView.notifyHup`, `LiveView.processing`).  Neither sets a server up,
and with a list that counts on the live servers neither passes one of these over.
-/
import Chm.Circulation
import Chm.MergeRefused
import Chm.ServiceOut

namespace Chm

namespace ChmpxSts

/-- A test of another field does not see the SUSPEND flag. -/
theorem has_and {mask val : ChmpxSts} (h : ~~~maskSuspend &&& mask = mask) (status : ChmpxSts) :
    has mask val (status &&& ~~~maskSuspend) = has mask val status := by
  rw [has, has, BitVec.and_assoc, h]

/-- The ACTION field of a safe status says what is done to the server. -/
theorem action_of_isSafe {status : ChmpxSts} (hsafe : status.isSafe = true) :
    status.isNoact = true ∨ status.isAdd = true ∨ status.isDelete = true := by
  rw [isSafe, Bool.and_eq_true] at hsafe
  have hw : (status &&& ~~~maskSuspend) ∈ safeWords := List.contains_iff_mem.mp hsafe.2
  have hmask : ~~~maskSuspend &&& maskAction = maskAction := by decide
  rw [isNoact, isAdd, isDelete, ← has_and hmask status, ← has_and hmask status,
    ← has_and hmask status]
  generalize status &&& ~~~maskSuspend = word at hw
  simp only [safeWords, List.mem_cons, List.not_mem_nil, or_false] at hw
  rcases hw with rfl | rfl | rfl | rfl | rfl | rfl | rfl | rfl | rfl | rfl | rfl | rfl | rfl |
    rfl | rfl | rfl | rfl
  all_goals decide

/-- A safe status of a server is taken down, and stays safe. -/
theorem changeToDown_server {status : ChmpxSts} (hsafe : status.isSafe = true)
    (hserver : status.isServer = true) :
    status.changeToDown.isUp = false ∧ status.changeToDown.isSafe = true := by
  constructor
  · have haction := action_of_isSafe hsafe
    unfold changeToDown
    by_cases hsrvin : status.isSrvin = true
    · rw [if_pos hsrvin]
      by_cases hup : status.isUp = true
      · rw [if_pos hup]
        rcases haction with hact | hact | hact
        · rw [if_pos hact]
          decide
        · split
          · decide
          · decide
        · split
          · decide
          · split
            · decide
            · split
              · decide
              · decide
      · rw [if_neg hup]
        split
        · split
          · decide
          · decide
        · exact Bool.eq_false_iff.mpr hup
    · rw [isServer, Bool.or_eq_true, or_iff_left hsrvin] at hserver
      rw [if_neg hsrvin, if_pos hserver]
      decide
  · rcases ChmpxMan.changeToDown_cases status with he | he | he | he | he
    · rw [he]
      exact hsafe
    all_goals
      rw [he]
      decide

end ChmpxSts

/-- A SERVER_DOWN: whether its result is SUCCESS, and the server that is down. -/
structure ServerDown where
  dept : ChmpxId
  term : ChmpxId
  ok : Bool
  chmpxid : ChmpxId
  deriving DecidableEq

namespace EventSock

open ChmpxMan

/-- `PxComSendServerDown`, with the packet when it is on its way. -/
def pxComSendServerDown (io : Outside) (chmpxid downchmpxid : ChmpxId) (s : EventSock) :
    Bool × Option ServerDown × EventSock :=
  if chmpxid = chmInvalidChmpxId ∨ downchmpxid = chmInvalidChmpxId then (false, none, s)
  else
    let pkt : ServerDown := ⟨s.man.getSelfChmpxId, chmpxid, true, downchmpxid⟩
    let ok := io.sends s.calls
    (ok, if ok then some pkt else none, { s with calls := s.calls + 1 })

/-- The end of `ServerDownNotifyHup` without another server on the ring. -/
def serverDownAlone (io : Outside) (isOperating : Bool) (chmpxid : ChmpxId) (s : EventSock) :
    Bool × EventSock :=
  let (ok, s) := if isOperating then s.mergeAbort io else (true, s)
  if !ok then (false, s)
  else if s.isAutoMerge then s.requestServiceOut io chmpxid else (true, s)

/-- The end of `ServerDownNotifyHup` with a next server. -/
def serverDownOnRing (io : Outside) (isOperating : Bool) (next chmpxid : ChmpxId) (s : EventSock) :
    Bool × Option ServerDown × EventSock :=
  let (_, _, s) := s.checkRechainRing io next
  let s := if isOperating then (s.pxComSendMergeAbort io next).2 else s
  s.pxComSendServerDown io next chmpxid

/-- `ServerDownNotifyHup`. -/
def serverDownNotifyHup (io : Outside) (chmpxid : ChmpxId) (s : EventSock) :
    Bool × Option ServerDown × EventSock :=
  if chmpxid = chmInvalidChmpxId then (false, none, s)
  else if getServerSock s.man chmpxid ≠ [] then (true, none, s)
  else
    let isOperating := s.man.isOperating
    let status := (s.man.getServerStatus chmpxid).changeToDown
    if status = s.man.getServerStatus chmpxid then (true, none, s)
    else
      let (_, s) := s.setServerStatus io chmpxid status
      if !s.isServerMode then (true, none, s)
      else
        let (next, s) := s.getNextRingChmpxId io
        if next = chmInvalidChmpxId then
          let (ok, s) := s.serverDownAlone io isOperating chmpxid
          (ok, none, s)
        else s.serverDownOnRing io isOperating next chmpxid

/-- `PxComReceiveServerDown` at the departure. -/
def serverDownAround (io : Outside) (pkt : ServerDown) (s : EventSock) : Bool × EventSock :=
  if !pkt.ok ∨ pkt.chmpxid = chmInvalidChmpxId then (false, s)
  else if s.isAutoMerge then s.requestServiceOut io pkt.chmpxid else (true, s)

/-- `PxComReceiveServerDown` elsewhere takes the server down. -/
def serverDownTake (io : Outside) (chmpxid : ChmpxId) (s : EventSock) : Bool × EventSock :=
  let s := s.eraseServerSocks io chmpxid (getServerSock s.man chmpxid)
  let status := (s.man.getServerStatus chmpxid).changeToDown
  if status = s.man.getServerStatus chmpxid then (true, s)
  else s.setServerStatus io chmpxid status

/-- `PxComReceiveServerDown`, with the packet that `Processing` is to send on. -/
def pxComReceiveServerDown (io : Outside) (pkt : ServerDown) (s : EventSock) :
    Bool × Option ServerDown × EventSock :=
  if pkt.dept = s.man.getSelfChmpxId then
    let (ok, s) := s.serverDownAround io pkt
    (ok, none, s)
  else
    let (ok, s) := s.serverDownTake io pkt.chmpxid
    let (next, s) := s.getNextRingChmpxId io
    if next = chmInvalidChmpxId then (true, none, s)
    else if !isSafeDeptAndNextChmpxId s.man pkt.dept next then (true, none, s)
    else (true, some { pkt with term := next, ok := ok && pkt.ok }, s)

/-- `Processing` of a SERVER_DOWN. -/
def processingServerDown (io : Outside) (pkt : ServerDown) (s : EventSock) :
    Bool × Option ServerDown × EventSock :=
  match s.pxComReceiveServerDown io pkt with
  | (ok, none, s) => (ok, none, s)
  | (_, some pkt, s) =>
    let ok := io.sends s.calls
    (ok, if ok then some pkt else none, { s with calls := s.calls + 1 })

/-! ## What stays down -/

/-- No server with the chmpxid is up. -/
def Down (chmpxid : ChmpxId) (m : ChmpxMan) : Prop :=
  ∀ q, (m.chmpx q).chmpxid = chmpxid → (m.chmpx q).isServerMode = true →
    (m.chmpx q).status.isUp = false

/-- The lists stay, and a status stays or is one of a server that is not up. -/
structure DownOnly (m m₁ : ChmpxMan) : Prop extends SameShape m m₁ where
  status : ∀ q, (m₁.chmpx q).status = (m.chmpx q).status ∨ (m₁.chmpx q).status.isUp = false

variable {m m₁ m₂ : ChmpxMan} {io : Outside} {s s₁ : EventSock} {p : Ptr}
variable {chmpxid other : ChmpxId}

theorem DownOnly.trans (h : DownOnly m m₁) (h' : DownOnly m₁ m₂) : DownOnly m m₂ where
  toSameShape := h.toSameShape.trans h'.toSameShape
  status q := by
    rcases h'.status q with hsame | hdown
    · rw [hsame]
      exact h.status q
    · exact Or.inr hdown

theorem DownOnly.written {P : ChmpxSts → Prop} (hP : ∀ status, P status → status.isUp = false)
    (hw : Written (Chmpx.StatusWrite fun _ => P) m m₁) : DownOnly m m₁ where
  toSameShape := (SameRecords.written hw).toSameShape
  status q := (hw.status_cases q).imp id (hP _)

/-- A write that brings no status. -/
theorem DownOnly.unwritten (hw : Written (Chmpx.StatusWrite fun _ _ => False) m m₁) :
    DownOnly m m₁ := DownOnly.written (fun _ hno => hno.elim) hw

theorem DownOnly.of_sameRing (h : SameRing m m₁) : DownOnly m m₁ where
  toSameShape := h.toSameShape
  status q := Or.inl (h.status q)

theorem DownOnly.of_man (h : m₁ = m) : DownOnly m m₁ := by
  rw [h]
  exact DownOnly.of_sameRing (SameRing.refl m)

theorem DownOnly.down (h : DownOnly m m₁) (hd : Down chmpxid m) : Down chmpxid m₁ := by
  intro q hid hmode
  rw [h.chmpxid] at hid
  rw [h.isServerMode] at hmode
  rcases h.status q with hsame | hdown
  · rw [hsame]
    exact hd q hid hmode
  · exact hdown

/-- A status that is not up makes no server up. -/
theorem setServerStatus_downOnly {status : ChmpxSts} (hdown : status.isUp = false) (io : Outside)
    (chmpxid : ChmpxId) (s : EventSock) :
    DownOnly s.man (s.setServerStatus io chmpxid status).2.man := by
  refine DownOnly.written (P := fun st => st.isUp = false) (fun _ h => h) ?_
  apply Written.setServerStatus (P := fun _ st => st.isUp = false)
  intro st hst _ _
  rw [statusesOfServer] at hst
  split at hst
  · rw [List.mem_singleton.mp hst, changeSuspendFlag_isUp]
    exact hdown
  · rcases List.mem_pair.mp hst with rfl | rfl
    · exact hdown
    · decide

theorem downSvrStatus_isUp (type : DownSvrMerge) : (downSvrStatus type).isUp = false := by
  cases type <;> decide

theorem changeDownSvrLoop_downOnly (io : Outside) (type : DownSvrMerge) (chmpxid : ChmpxId)
    (svrs : List ChmpxSvr) :
    ∀ s : EventSock, DownOnly s.man (changeDownSvrLoop io type chmpxid svrs s).2.man := by
  induction svrs with
  | nil => exact fun s => DownOnly.of_man rfl
  | cons svr svrs ih =>
    intro s
    rw [changeDownSvrLoop]
    split
    · exact ih s
    · have hset : DownOnly s.man (s.setServerStatus io svr.chmpxid (downSvrStatus type)).2.man :=
        setServerStatus_downOnly (downSvrStatus_isUp type) io svr.chmpxid s
      dsimp only
      generalize s.setServerStatus io svr.chmpxid (downSvrStatus type) = r at hset ⊢
      have hbase : DownOnly s.man (if r.1 = true ∧ type = .complete then
          r.2.setServerBaseHash io svr.chmpxid chmInvalidHashVal else (r.1, r.2)).2.man := by
        split
        · exact hset.trans (DownOnly.unwritten (Written.setServerHash _ _ _ _ _ _ r.2.man))
        · exact hset
      generalize (if r.1 = true ∧ type = .complete then
        r.2.setServerBaseHash io svr.chmpxid chmInvalidHashVal else (r.1, r.2)) = r₂ at hbase ⊢
      split
      · exact hbase.trans (ih r₂.2)
      · have hhash : DownOnly s.man (r₂.2.updateHash io .pending).2.man :=
          hbase.trans (DownOnly.unwritten (Written.updateHash _ _ _ true true r₂.2.man))
        generalize r₂.2.updateHash io .pending = r₃ at hhash ⊢
        split
        · exact hhash
        · refine hhash.trans (DownOnly.trans ?_ (ih _))
          split
          · exact DownOnly.of_man rfl
          · exact DownOnly.of_man (noticeStatus_man ..)

theorem changeDownSvrStatusByMerge_downOnly (io : Outside) (type : DownSvrMerge) (s : EventSock) :
    DownOnly s.man (s.changeDownSvrStatusByMerge io type).2.man := by
  unfold changeDownSvrStatusByMerge
  split
  · exact DownOnly.of_man rfl
  · exact (DownOnly.of_sameRing (getNextRingChmpxId_sameRing io s)).trans
      (changeDownSvrLoop_downOnly io type _ _ _)

/-! ## The own status aside -/

/-- The server list begins with a server. -/
def HeadServer (m : ChmpxMan) : Prop :=
  ∀ c, m.chmpxServers = some c → (m.chmpx c).isServerMode = true

theorem HeadServer.congr (hhead : HeadServer m) (h : SameShape m m₁) : HeadServer m₁ := by
  intro c hc
  rw [h.isServerMode]
  exact hhead c (h.chmpxServers.symm.trans hc)

/-- The status of a server that is down is not up. -/
theorem Down.getServerStatus (h : Down chmpxid m) (hhead : HeadServer m) :
    (m.getServerStatus chmpxid).isUp = false := by
  unfold ChmpxMan.getServerStatus
  split
  · decide
  · split
    · decide
    · rename_i q hfind
      obtain ⟨c, hc, hsearch⟩ := Option.bind_eq_some_iff.mp hfind
      unfold searchChmpxid at hsearch
      split at hsearch
      · cases hsearch
      · have hq := List.find?_some hsearch
        rw [Bool.and_eq_true, decide_eq_true_eq, decide_eq_true_eq, hhead c hc] at hq
        exact h q hq.2.symm hq.1.symm

/-- The own record has another chmpxid, and the server is down. -/
structure DownAside (p : Ptr) (chmpxid : ChmpxId) (m : ChmpxMan) : Prop where
  self : m.chmpxSelf = some p
  head : HeadServer m
  other : (m.chmpx p).chmpxid ≠ chmpxid
  down : Down chmpxid m

theorem DownAside.downOnly (h : DownAside p chmpxid m) (hrun : DownOnly m m₁) :
    DownAside p chmpxid m₁ where
  self := hrun.chmpxSelf.trans h.self
  head := h.head.congr hrun.toSameShape
  other := by
    rw [hrun.chmpxid]
    exact h.other
  down := hrun.down h.down

/-- A write to one record leaves the others. -/
theorem setStatus_frame (env : Env) (status : ChmpxSts) (m : ChmpxMan) {q : Ptr} (hq : q ≠ p) :
    (m.setStatus env status p).2.chmpx q = m.chmpx q := by
  rw [ChmpxMan.setStatus]
  split
  · rfl
  · rw [chmpx_setChmpx, if_neg hq]

theorem DownAside.setSelfStatus (h : DownAside p chmpxid m) (env : Env) (status : ChmpxSts)
    (b : Bool) : DownAside p chmpxid (m.setSelfStatus env status b).2 := by
  have hset : ∀ st, DownAside p chmpxid (m.setStatus env st p).2 := by
    intro st
    have hshape := (SameRecords.setStatus m env st p).toSameShape
    refine ⟨hshape.chmpxSelf.trans h.self, h.head.congr hshape, ?_, fun q hid hmode => ?_⟩
    · rw [hshape.chmpxid]
      exact h.other
    · rw [hshape.chmpxid] at hid
      rw [hshape.isServerMode] at hmode
      have hq : q ≠ p := by
        rintro rfl
        exact h.other hid
      rw [setStatus_frame env st m hq]
      exact h.down q hid hmode
  rw [ChmpxMan.setSelfStatus, h.self]
  dsimp only
  split
  · exact h
  · have hrun := hset (if m.isServerMode then status.changeSuspendFlag !b else status)
    generalize m.setStatus env _ p = r at hrun ⊢
    obtain ⟨ok, m₁⟩ := r
    cases ok with
    | false => exact hrun
    | true =>
      dsimp only
      split
      · exact ⟨hrun.self, hrun.head, hrun.other, hrun.down⟩
      · exact hrun

/-- A reload sets no server up. -/
theorem DownAside.reloadConfiguration (h : DownAside p chmpxid m) (env : Env) (cfg : ChmCfgInfo)
    (eqfd : Bool) : Down chmpxid (m.reloadConfiguration env cfg eqfd).2 := by
  have hset : ∀ {m : ChmpxMan} {q : Ptr} {c : Chmpx}, c.status.isUp = false →
      Down chmpxid m → Down chmpxid (m.setChmpx q c) := by
    intro m q c hdown hd r hid hmode
    rw [chmpx_setChmpx] at hid hmode ⊢
    split at hid
    · rename_i hr
      rw [if_pos hr]
      exact hdown
    · rename_i hr
      rw [if_neg hr] at hmode ⊢
      exact hd r hid hmode
  refine reloadConfiguration_keeps (I := Down chmpxid) (fun h hc _ q => ?_)
    (fun hc h => hset ?_ h) (fun h => hset (by decide) h) cfg eqfd h.down
  · rw [hc]
    exact h q
  · unfold Chmpx.initializeChmpx at hc
    split at hc
    · cases hc
    · cases hc
      show ChmpxSts.srvoutDownNormal.isUp = false
      decide

/-! ## The functions that the notice calls -/

theorem DownAside.set (h : DownAside p chmpxid s.man) (io : Outside) (status : ChmpxSts) :
    DownAside p chmpxid (s.setSelfStatus io status).2.man :=
  DownAside.setSelfStatus h (io.env s.calls) status (io.isClientJoin s.calls)

theorem DownAside.updateHash (h : DownAside p chmpxid s.man) (io : Outside) (type : HashTg) :
    DownAside p chmpxid (s.updateHash io type).2.man :=
  h.downOnly (DownOnly.unwritten (Written.updateHash _ _ _ true true s.man))

theorem DownAside.next (h : DownAside p chmpxid s.man) (io : Outside) :
    DownAside p chmpxid (s.getNextRingChmpxId io).2.man :=
  h.downOnly (DownOnly.of_sameRing (getNextRingChmpxId_sameRing io s))

theorem DownAside.notice (h : DownAside p chmpxid s.man) (io : Outside) (next : ChmpxId)
    (svr : ChmpxSvr) : DownAside p chmpxid (s.noticeStatus io next svr).2.man :=
  h.downOnly (DownOnly.of_man (noticeStatus_man ..))

theorem DownAside.mergeAbort (h : DownAside p chmpxid s.man) (io : Outside) :
    DownAside p chmpxid (s.mergeAbort io).2.man := by
  unfold EventSock.mergeAbort
  have ht : DownAside p chmpxid (if s.isDoMerge ∧ io.hasThread s.calls then
      { s with isRunMerge := false } else s).man := by
    split
    · exact h
    · exact h
  dsimp only
  generalize (if s.isDoMerge ∧ io.hasThread s.calls then { s with isRunMerge := false } else s) = t
    at ht ⊢
  have hset := ht.set io (statusOfMergeAbort t.man.getSelfStatus)
  generalize t.setSelfStatus io (statusOfMergeAbort t.man.getSelfStatus) = r at hset ⊢
  split
  · exact hset
  · have hhash := hset.updateHash io .pending
    generalize r.2.updateHash io .pending = r₂ at hhash ⊢
    split
    · exact hhash
    · split
      · exact hhash
      · rename_i svr _
        have hnotice := (hhash.next io).notice io (r₂.2.getNextRingChmpxId io).1 svr
        generalize (r₂.2.getNextRingChmpxId io).2.noticeStatus io
          (r₂.2.getNextRingChmpxId io).1 svr = r₃ at hnotice ⊢
        split
        · exact hnotice
        · exact hnotice.downOnly (changeDownSvrStatusByMerge_downOnly io .abort r₃.2)

theorem DownAside.mergeComplete (h : DownAside p chmpxid s.man) (io : Outside) :
    Down chmpxid (s.mergeComplete io).2.man := by
  unfold EventSock.mergeComplete
  have hdown := h.downOnly (changeDownSvrStatusByMerge_downOnly io .complete s)
  dsimp only
  generalize (s.changeDownSvrStatusByMerge io .complete).2 = t at hdown ⊢
  split
  · exact hdown.down
  · rename_i hash _
    split
    · exact hdown.down
    · rename_i status _
      have hbase : DownAside p chmpxid (t.setSelfBaseHash io hash).2.man :=
        hdown.downOnly (DownOnly.unwritten (Written.setSelfHash _ _ _ _ _ t.man))
      generalize t.setSelfBaseHash io hash = r at hbase ⊢
      split
      · exact hbase.down
      · have hset := hbase.set io status
        generalize r.2.setSelfStatus io status = r₂ at hset ⊢
        split
        · exact hset.down
        · have htime : DownAside p chmpxid (r₂.2.updateSelfLastStatusTime io).2.man :=
            hset.downOnly (DownOnly.unwritten (Written.updateLastStatusTime _ _ _ r₂.2.man))
          generalize (r₂.2.updateSelfLastStatusTime io).2 = t₂ at htime ⊢
          have hreload : Down chmpxid (t₂.reloadConfiguration io).2.man :=
            htime.reloadConfiguration (io.env t₂.calls) (io.cfg t₂.calls) t₂.eqfd
          generalize (t₂.reloadConfiguration io).2 = t₃ at hreload ⊢
          split
          · exact hreload
          · rw [noticeStatus_man]
            exact (DownOnly.of_sameRing (getNextRingChmpxId_sameRing io t₃)).down hreload

theorem pxComSendMergeComplete_man (io : Outside) (next : ChmpxId) (s : EventSock) :
    (s.pxComSendMergeComplete io next).2.man = s.man := by
  unfold pxComSendMergeComplete
  split
  · rfl
  · exact send_man ..

theorem pxComSendMergeAbort_man (io : Outside) (next : ChmpxId) (s : EventSock) :
    (s.pxComSendMergeAbort io next).2.man = s.man := by
  unfold pxComSendMergeAbort
  split
  · rfl
  · exact send_man ..

theorem DownAside.requestMergeComplete (h : DownAside p chmpxid s.man) (io : Outside) :
    Down chmpxid (s.requestMergeComplete io).2.man := by
  unfold EventSock.requestMergeComplete
  split
  · exact h.down
  · have hnext := h.next io
    generalize s.getNextRingChmpxId io = r at hnext ⊢
    dsimp only
    split
    · exact DownAside.mergeComplete (s := { r.2 with isMergeDoneProcessing := false }) hnext io
    · have htime : DownAside p chmpxid (r.2.updateSelfLastStatusTime io).2.man :=
        hnext.downOnly (DownOnly.unwritten (Written.updateLastStatusTime _ _ _ r.2.man))
      generalize (r.2.updateSelfLastStatusTime io).2 = t at htime ⊢
      split
      · exact htime.down
      · rename_i svr _
        have hsent : (t.pxComSendStatusChange io r.1 svr).2.man = t.man :=
          pxComSendStatusChange_man ..
        generalize t.pxComSendStatusChange io r.1 svr = r₂ at hsent ⊢
        split
        · rw [hsent]
          exact htime.down
        · rw [pxComSendMergeComplete_man, hsent]
          exact htime.down

theorem isUp_changeToSrvout {status : ChmpxSts} (hdown : status.isUp = false) :
    status.changeToSrvout.isUp = false := by
  unfold ChmpxSts.changeToSrvout
  split
  · rw [hdown, if_neg Bool.false_ne_true]
    split
    · split
      · decide
      · exact hdown
    · exact hdown
  · exact hdown

/-- A service out of a server that is down makes no server up. -/
theorem DownAside.requestServiceOut (h : DownAside p chmpxid s.man)
    (hother : s.man.getSelfChmpxId ≠ other) (hvalid : other ≠ chmInvalidChmpxId)
    (hdown : Down other s.man) (io : Outside) :
    Down chmpxid (s.requestServiceOut io other).2.man := by
  have htarget : s.serviceOutTarget other = other := if_neg hvalid
  unfold EventSock.requestServiceOut
  rw [htarget, if_neg hother]
  split
  · exact h.down
  · split
    · exact h.down
    · unfold serviceOutOther
      dsimp only
      split
      · exact h.down
      · have hset := h.downOnly (setServerStatus_downOnly
          (isUp_changeToSrvout (hdown.getServerStatus h.head)) io other s)
        generalize s.setServerStatus io other (s.man.getServerStatus other).changeToSrvout = r
          at hset ⊢
        split
        · exact hset.down
        · have hhash := hset.updateHash io .pending
          generalize r.2.updateHash io .pending = r₂ at hhash ⊢
          split
          · exact hhash.down
          · split
            · exact hhash.down
            · rename_i svr _
              have hnotice := (hhash.next io).notice io (r₂.2.getNextRingChmpxId io).1 svr
              generalize (r₂.2.getNextRingChmpxId io).2.noticeStatus io
                (r₂.2.getNextRingChmpxId io).1 svr = r₃ at hnotice ⊢
              split
              · exact hnotice.down
              · unfold completeServiceOut
                split
                · exact hnotice.requestMergeComplete io
                · exact hnotice.down

/-! ## A node that counts on the live servers -/

/-- The node of `y` reads `ring`, finds its servers and takes the live ones to be up. -/
structure Reads (ring : List ChmpxId) (live : ChmpxId → Bool) (y : ChmpxId) (m : ChmpxMan) : Prop
    extends RingView m ring where
  self : m.getSelfChmpxId = y
  mapped : ∃ chain, MapOk m chain
  up : ∀ q ∈ m.nodes m.chmpxServers, live (m.chmpx q).chmpxid = true →
    (m.chmpx q).status.isUp = true

/-- The statuses of its servers are safe ones of servers. -/
structure LiveView (ring : List ChmpxId) (live : ChmpxId → Bool) (y : ChmpxId) (m : ChmpxMan) :
    Prop extends Reads ring live y m where
  statuses : ∀ q ∈ m.nodes m.chmpxServers,
    (m.chmpx q).status.isSafe = true ∧ (m.chmpx q).status.isServer = true

variable {ring u v : List ChmpxId} {live : ChmpxId → Bool} {x y z d next : ChmpxId}
variable {svrs frees : List Ptr} {rest : List (List Ptr)} {q : Ptr} {new : ChmpxSts}

/-- Every server of the list is found by its chmpxid. -/
theorem finds_of_mapOk {chain : Nat → List Ptr} (h : MapOk m chain)
    (hf : Formed m svrs frees rest)
    (hnd : (svrs.map fun q => (m.chmpx q).chmpxid).Nodup) (hq : q ∈ svrs) :
    m.find m.chmpxServers (m.chmpx q).chmpxid = some q := by
  obtain ⟨c, l, rfl⟩ := List.exists_cons_of_ne_nil (List.ne_nil_of_mem hq)
  have hc : c ∈ c :: l := List.mem_cons_self
  have hhead : m.chmpxServers = some c := hf.head
  rw [hhead]
  have hfound := h.find_map hf.lists hc (hf.lists.isServer q hq).valid
  have hmode := hf.lists.server hq
  have hin : (m.lookup chain (m.chmpx q).chmpxid).isSome = true := by
    rw [lookup, List.find?_isSome]
    exact ⟨m.chmpx q, List.mem_map_of_mem (h.server q hmode), by simp [isServerOf, hmode]⟩
  rw [← hfound, Option.isSome_map] at hin
  obtain ⟨r, hr⟩ := Option.isSome_iff_exists.mp hin
  obtain ⟨hrm, hid⟩ := hf.lists.find_mem hc hr
  rw [hr, List.inj_on_of_nodup_map hnd hrm hq hid]

/-- What is known of the node: its place in the list, and that it finds the servers. -/
theorem Reads.spec (h : Reads ring live y m) (hnd : ring.Nodup) :
    ∃ svrs frees rest p, Formed m svrs frees rest ∧ m.chmpxSelf = some p ∧ p ∈ svrs ∧
      (m.chmpx p).chmpxid = y ∧ ring = svrs.map (fun q => (m.chmpx q).chmpxid) ∧
      m.nodes m.chmpxServers = svrs ∧
      ∀ q ∈ svrs, m.find m.chmpxServers (m.chmpx q).chmpxid = some q := by
  obtain ⟨svrs, frees, rest, p, hf, hself, hp, rfl, hid, hnodes⟩ := h.toRingView.spec
  obtain ⟨chain, hm⟩ := h.mapped
  exact ⟨svrs, frees, rest, p, hf, hself, hp, hid.symm.trans h.self, rfl, hnodes,
    fun q hq => finds_of_mapOk hm hf hnd hq⟩

theorem Reads.getServerStatus_eq (h : Reads ring live y m) (hnd : ring.Nodup)
    (hq : q ∈ m.nodes m.chmpxServers) :
    m.getServerStatus (m.chmpx q).chmpxid = (m.chmpx q).status := by
  obtain ⟨svrs, frees, rest, p, hf, -, -, -, -, hnodes, hfound⟩ := h.spec hnd
  rw [hnodes] at hq
  have hne : m.chmpxServers ≠ none := by
    rw [hf.head]
    exact fun hnil => List.ne_nil_of_mem hq (List.head?_eq_none_iff.mp hnil)
  rw [ChmpxMan.getServerStatus, if_neg hne, hfound q hq]

theorem Reads.upView (h : Reads ring live y m) (hnd : ring.Nodup) :
    UpView m ring fun x => (m.getServerStatus x).isUp where
  toRingView := h.toRingView
  up_eq q hq := by rw [h.getServerStatus_eq hnd hq]

/-- A live server of the ring is up. -/
theorem Reads.up_of_live (h : Reads ring live y m) (hnd : ring.Nodup) (hz : z ∈ ring)
    (hlive : live z = true) : (m.getServerStatus z).isUp = true := by
  obtain ⟨svrs, frees, rest, p, -, -, -, -, hring, hnodes, -⟩ := h.spec hnd
  rw [hring] at hz
  obtain ⟨q, hq, rfl⟩ := List.mem_map.mp hz
  rw [← hnodes] at hq
  rw [h.getServerStatus_eq hnd hq]
  exact h.up q hq hlive

/-- A server of the ring that is not up is not live. -/
theorem Reads.not_live (h : Reads ring live y m) (hnd : ring.Nodup) (hz : z ∈ ring)
    (hdown : (m.getServerStatus z).isUp = false) : live z = false := by
  refine Bool.eq_false_iff.mpr fun hlive => ?_
  rw [h.up_of_live hnd hz hlive] at hdown
  cases hdown

theorem DownOnly.reads (h : DownOnly m m₁) (hr : Reads ring live y m)
    (hup : ∀ q ∈ m.nodes m.chmpxServers, live (m.chmpx q).chmpxid = true →
      (m₁.chmpx q).status = (m.chmpx q).status) : Reads ring live y m₁ := by
  have hnodes : m₁.nodes m₁.chmpxServers = m.nodes m.chmpxServers := by
    unfold ChmpxMan.nodes ChmpxMan.first ChmpxMan.nodesFrom
    rw [h.chmpxServers, h.links, h.chmpxCount]
  obtain ⟨svrs, frees, rest, hf⟩ := hr.wellFormed
  obtain ⟨chain, hm⟩ := hr.mapped
  refine ⟨⟨⟨svrs, frees, rest, h.formed hf⟩, ?_, ?_⟩, ?_, ⟨chain, hm.sameShape h.toSameShape⟩,
    fun q hq hlive => ?_⟩
  · exact h.toSameShape.man_isServerMode.trans hr.isServerMode
  · rw [ringIds, hnodes, List.map_congr_left fun q _ => h.chmpxid q]
    exact hr.ids_eq
  · exact h.toSameShape.selfChmpxId.trans hr.self
  · rw [hnodes] at hq
    rw [h.chmpxid] at hlive
    rw [hup q hq hlive]
    exact hr.up q hq hlive

theorem SameRing.reads (h : SameRing m m₁) (hr : Reads ring live y m) : Reads ring live y m₁ :=
  (DownOnly.of_sameRing h).reads hr fun q _ _ => h.status q

theorem SameRing.liveView (h : SameRing m m₁) (hr : LiveView ring live y m) :
    LiveView ring live y m₁ where
  toReads := h.reads hr.toReads
  statuses q hq := by
    rw [h.nodes] at hq
    rw [h.status]
    exact hr.statuses q hq

/-! ## The next server -/

/-- Those between `y` and the next server of a node are not live. -/
theorem Reads.find_next (h : Reads ring live y s.man) (hnd : ring.Nodup)
    (hx : (Circle.behind ring y).find? (fun x => (s.man.getServerStatus x).isUp) = some x)
    (io : Outside) : (s.getNextRingChmpxId io).1 = x := by
  rw [← h.self] at hx
  exact (h.upView hnd).sock_getNextRingChmpxId hnd io hx

/-- A packet that starts at `y` passes no live server over. -/
theorem Reads.starts (h : Reads ring live y s.man) (hnd : ring.Nodup) (io : Outside)
    (hnext : (s.getNextRingChmpxId io).1 ≠ chmInvalidChmpxId) :
    ∃ w v, Circle.round ring y = w ++ (s.getNextRingChmpxId io).1 :: v ∧
      ∀ z ∈ w, live z = false := by
  cases hx : (Circle.behind ring y).find? fun x => (s.man.getServerStatus x).isUp with
  | none =>
    rw [← h.self] at hx
    exact absurd ((h.upView hnd).sock_getNextRingChmpxId_none hnd io hx) hnext
  | some x =>
    obtain ⟨w, v, hround, hw⟩ := Circle.round_start hx
    refine ⟨w, v, by rw [hround, h.find_next hnd hx io], fun z hz => ?_⟩
    have hy : y ∈ ring := h.self ▸ h.toRingView.self_mem
    have hzm : z ∈ ring := by
      rw [← Circle.mem_round hy, hround]
      exact List.mem_append_left _ hz
    exact h.not_live hnd hzm (hw z hz)

/-- One that `y` sends on passes none over before its departure. -/
theorem Reads.goesOn (h : Reads ring live y s.man) (hnd : ring.Nodup) (hd : d ∈ ring)
    (hlive : live d = true) (hround : Circle.round ring d = u ++ y :: v) (hne : y ≠ d)
    (io : Outside) :
    ∃ w v', Circle.round ring d = u ++ y :: (w ++ (s.getNextRingChmpxId io).1 :: v') ∧
      ∀ z ∈ w, live z = false := by
  have hup : (s.man.getServerStatus d).isUp = true := h.up_of_live hnd hd hlive
  obtain ⟨w, x, v', hx, hround', hw⟩ := Circle.round_step hnd hd
    (fun x => (s.man.getServerStatus x).isUp) hup hround hne
  refine ⟨w, v', by rw [hround', h.find_next hnd hx io], fun z hz => ?_⟩
  have hzm : z ∈ ring := by
    rw [← Circle.mem_round hd, hround']
    exact List.mem_append_right _ (List.mem_cons_of_mem _ (List.mem_append_left _ hz))
  exact h.not_live hnd hzm (hw z hz)

/-! ## Taking a server down -/

theorem isUp_changeToDown {status : ChmpxSts} (hne : status.changeToDown ≠ status) :
    status.changeToDown.isUp = false := by
  rcases ChmpxMan.changeToDown_cases status with he | he | he | he | he
  · exact absurd he hne
  all_goals
    rw [he]
    decide

/-- `SetServerStatus` leaves the other servers as they are while one of them is up. -/
theorem setServerStatus_frame (hf : Formed m svrs frees rest) {r : Ptr} (hr : r ∈ svrs)
    (hrx : (m.chmpx r).chmpxid ≠ x) (hup : (m.chmpx r).status.isUp = true)
    (hserver : (m.chmpx r).status.isServer = true) (env : Env) (new : ChmpxSts) (b : Bool)
    (hqx : (m.chmpx q).chmpxid ≠ x) :
    ((m.setServerStatus env x new b).2.chmpx q).status = (m.chmpx q).status := by
  have hother : ∀ {p : Ptr}, (m.chmpx p).chmpxid = x → ∀ q, (m.chmpx q).chmpxid ≠ x →
      ∀ st, (m.setStatus env st p).2.chmpx q = m.chmpx q := by
    intro p hp q hq st
    refine setStatus_frame env st m fun hqp => hq ?_
    rw [hqp]
    exact hp
  unfold ChmpxMan.setServerStatus
  split
  · rename_i hown
    rw [Bool.and_eq_true, decide_eq_true_eq] at hown
    split
    · rfl
    · rename_i p hself
      have hp : (m.chmpx p).chmpxid = x := by
        rw [← hown.2, ChmpxMan.getSelfChmpxId, hself]
      have hframe := hother hp q hqx (new.changeSuspendFlag !b)
      split
      · rfl
      · split
        · rfl
        · generalize m.setStatus env (new.changeSuspendFlag !b) p = res at hframe ⊢
          obtain ⟨ok, m₁⟩ := res
          cases ok <;> exact congrArg Chmpx.status hframe
  · split
    · rfl
    · rename_i p hfind
      have hp : p ∈ svrs ∧ (m.chmpx p).chmpxid = x := by
        obtain ⟨c, l, rfl⟩ := List.exists_cons_of_ne_nil (List.ne_nil_of_mem hr)
        have hhead : m.chmpxServers = some c := hf.head
        rw [hhead] at hfind
        exact hf.lists.find_mem List.mem_cons_self hfind
      have hframe := hother hp.2 q hqx new
      have hrframe := hother hp.2 r hrx new
      have hshape := (SameRecords.setStatus m env new p).toSameShape
      generalize m.setStatus env new p = res at hframe hrframe hshape ⊢
      obtain ⟨ok, m₁⟩ := res
      cases ok with
      | false => exact congrArg Chmpx.status hframe
      | true =>
        dsimp only at hframe hrframe hshape ⊢
        have hidle : m₁.checkAllServiceOutStatus env (some p) = (true, m₁) := by
          rw [ChmpxMan.checkAllServiceOutStatus, (hshape.formed hf).lists.nodes_eq hp.1, if_pos]
          refine List.any_eq_true.mpr ⟨r, List.mem_filter.mpr ⟨hr, ?_⟩, ?_⟩
          · rw [hrframe, ChmpxSts.isSlave_of_isServer hserver]
            rfl
          · rw [hrframe]
            exact hup
        rw [hidle]
        split
        · exact congrArg Chmpx.status hframe
        · exact congrArg Chmpx.status hframe

/-- A node that takes down a server that is not live still takes the live ones to be up. -/
theorem LiveView.setServerStatus (h : LiveView ring live y s.man) (hnd : ring.Nodup)
    (hd : d ∈ ring) (hlive : live d = true) (hx : live x = false) (hdown : new.isUp = false)
    (io : Outside) : Reads ring live y (s.setServerStatus io x new).2.man := by
  obtain ⟨svrs, frees, rest, p, hf, -, -, -, hring, hnodes, -⟩ := h.spec hnd
  rw [hring] at hd
  obtain ⟨r, hr, rfl⟩ := List.mem_map.mp hd
  have hup : (s.man.chmpx r).status.isUp = true := h.up r (hnodes ▸ hr) hlive
  refine (setServerStatus_downOnly hdown io x s).reads h.toReads fun q _ hq => ?_
  refine setServerStatus_frame hf hr (fun heq => ?_) hup (h.statuses r (hnodes ▸ hr)).2 _ _ _
    fun heq => ?_
  · rw [heq, hx] at hlive
    cases hlive
  · rw [heq, hx] at hq
    cases hq

/-- Another server that is taken down is down. -/
theorem LiveView.taken (h : LiveView ring live y s.man) (hnd : ring.Nodup) (hxy : x ≠ y)
    (io : Outside) :
    Down x (if (s.man.getServerStatus x).changeToDown = s.man.getServerStatus x then (true, s)
      else s.setServerStatus io x (s.man.getServerStatus x).changeToDown).2.man := by
  obtain ⟨svrs, frees, rest, p, hf, -, -, -, hring, hnodes, hfound⟩ := h.spec hnd
  by_cases hx : x ∈ ring
  · rw [hring] at hx
    obtain ⟨q, hq, rfl⟩ := List.mem_map.mp hx
    rw [h.getServerStatus_eq hnd (hnodes ▸ hq)]
    obtain ⟨hsafe, hserver⟩ := h.statuses q (hnodes ▸ hq)
    obtain ⟨hdown, hsafe'⟩ := ChmpxSts.changeToDown_server hsafe hserver
    rw [hring] at hnd
    have honly : ∀ r, (s.man.chmpx r).chmpxid = (s.man.chmpx q).chmpxid →
        (s.man.chmpx r).isServerMode = true → r = q := fun r hid hmode =>
      List.inj_on_of_nodup_map hnd (hf.lists.server_mem r hmode) hq hid
    split
    · rename_i hsame
      rw [hsame] at hdown
      intro r hid hmode
      rw [honly r hid hmode]
      exact hdown
    · obtain ⟨m₁, hrun, hc⟩ := setStatus_changed (hf.lists.named hq) hsafe' (io.env s.calls)
      have hdown₁ : Down (s.man.chmpx q).chmpxid m₁ := by
        intro r hid hmode
        rw [hc.shape.chmpxid] at hid
        rw [hc.shape.isServerMode] at hmode
        rw [honly r hid hmode, hc.own]
        exact hdown
      show Down _ (s.man.setServerStatus (io.env s.calls) (s.man.chmpx q).chmpxid _ _).2
      rw [ChmpxMan.setServerStatus, h.self, if_neg (by simp [hxy.symm]), hfound q hq]
      dsimp only
      rw [hrun]
      dsimp only
      have hcheck : DownOnly m₁ (m₁.checkAllServiceOutStatus (io.env s.calls) (some q)).2 :=
        DownOnly.written (P := (· = ChmpxSts.srvoutDownNormal)) (fun st hst => by rw [hst]; decide)
          (Written.checkAllServiceOutStatus (P := fun _ => (· = ChmpxSts.srvoutDownNormal))
            (fun _ => rfl) _ _ _)
      have hout := hcheck.down hdown₁
      generalize m₁.checkAllServiceOutStatus (io.env s.calls) (some q) = res at hout ⊢
      split
      · obtain ⟨ok, m₂⟩ := res
        cases ok <;> exact hout
      · exact hdown₁
  · have hnone : Down x s.man := by
      rintro r rfl hmode
      refine absurd ?_ hx
      rw [hring]
      exact List.mem_map_of_mem (hf.lists.server_mem r hmode)
    split
    · exact hnone
    · rename_i hne
      exact (setServerStatus_downOnly (isUp_changeToDown hne) io x s).down hnone

/-! ## The two functions at one node -/

theorem Reads.downAside (h : Reads ring live y m) (hnd : ring.Nodup) (hlive : live y = true)
    (hx : live x = false) (hdown : Down x m) : ∃ p, DownAside p x m := by
  obtain ⟨svrs, frees, rest, p, hf, hself, -, hid, -, -, -⟩ := h.spec hnd
  refine ⟨p, hself, fun c hc => ?_, fun heq => ?_, hdown⟩
  · rw [hf.head] at hc
    exact hf.lists.server (List.mem_of_head? hc)
  · rw [← hid, heq, hx] at hlive
    cases hlive

theorem serverDownTake_downOnly (io : Outside) (x : ChmpxId) (s : EventSock) :
    DownOnly s.man (s.serverDownTake io x).2.man := by
  unfold serverDownTake
  have herase := DownOnly.of_sameRing (eraseServerSocks_sameRing io x (getServerSock s.man x) s)
  generalize s.eraseServerSocks io x (getServerSock s.man x) = t at herase ⊢
  dsimp only
  split
  · exact herase
  · rename_i hne
    exact herase.trans (setServerStatus_downOnly (isUp_changeToDown hne) io x t)

theorem LiveView.serverDownTake (h : LiveView ring live y s.man) (hnd : ring.Nodup)
    (hd : d ∈ ring) (hlive : live d = true) (hx : live x = false) (io : Outside) :
    Reads ring live y (s.serverDownTake io x).2.man ∧
      (x ≠ y → Down x (s.serverDownTake io x).2.man) := by
  unfold EventSock.serverDownTake
  have herase := (eraseServerSocks_sameRing io x (getServerSock s.man x) s).liveView h
  generalize s.eraseServerSocks io x (getServerSock s.man x) = t at herase ⊢
  refine ⟨?_, fun hxy => herase.taken hnd hxy io⟩
  dsimp only
  split
  · exact herase.toReads
  · rename_i hne
    exact herase.setServerStatus hnd hd hlive hx (isUp_changeToDown hne) io

/-- A node that has another departure's notice sends it on in the round of the departure. -/
theorem LiveView.processing (h : LiveView ring live y s.man) (hnd : ring.Nodup) (pkt : ServerDown)
    (hd : pkt.dept ∈ ring) (hlive : live pkt.dept = true) (hx : live pkt.chmpxid = false)
    (hne : y ≠ pkt.dept) (hround : Circle.round ring pkt.dept = u ++ y :: v) (io : Outside) :
    DownOnly s.man (s.processingServerDown io pkt).2.2.man ∧
      (live y = true → Down pkt.chmpxid (s.processingServerDown io pkt).2.2.man) ∧
      ∀ pkt' ∈ (s.processingServerDown io pkt).2.1, pkt'.dept = pkt.dept ∧
        pkt'.chmpxid = pkt.chmpxid ∧ ∃ w v', (∀ z ∈ w, live z = false) ∧
          Circle.round ring pkt.dept = u ++ y :: (w ++ pkt'.term :: v') := by
  obtain ⟨hreads, htaken⟩ := h.serverDownTake hnd hd hlive hx io
  have honly := serverDownTake_downOnly io pkt.chmpxid s
  have hnoself : pkt.dept ≠ s.man.getSelfChmpxId := by
    rw [h.self]
    exact hne.symm
  unfold processingServerDown pxComReceiveServerDown
  rw [if_neg hnoself]
  dsimp only
  generalize s.serverDownTake io pkt.chmpxid = r at hreads htaken honly ⊢
  obtain ⟨took, t₀⟩ := r
  dsimp only at hreads htaken honly ⊢
  obtain ⟨w, v', hround', hw⟩ := hreads.goesOn hnd hd hlive hround hne io
  have hnext := honly.trans (DownOnly.of_sameRing (getNextRingChmpxId_sameRing io t₀))
  have hdown : live y = true → Down pkt.chmpxid (t₀.getNextRingChmpxId io).2.man := by
    intro hy
    refine (DownOnly.of_sameRing (getNextRingChmpxId_sameRing io t₀)).down (htaken ?_)
    rintro rfl
    rw [hx] at hy
    cases hy
  generalize t₀.getNextRingChmpxId io = res at hround' hnext hdown ⊢
  obtain ⟨next, t⟩ := res
  dsimp only at hround' hnext hdown ⊢
  split
  · rename_i heq
    split at heq
    · cases heq
      exact ⟨hnext, hdown, fun pkt' hp => by cases hp⟩
    · split at heq
      · cases heq
        exact ⟨hnext, hdown, fun pkt' hp => by cases hp⟩
      · cases heq
  · rename_i heq
    split at heq
    · cases heq
    · split at heq
      · cases heq
      · cases heq
        refine ⟨hnext, hdown, fun pkt' hp => ?_⟩
        dsimp only at hp
        split at hp
        · cases hp
          exact ⟨rfl, rfl, w, v', hw, hround'⟩
        · cases hp

/-- At its departure the notice ends. -/
theorem LiveView.processing_around (h : LiveView ring live y s.man) (hnd : ring.Nodup)
    (hlive : live y = true) (pkt : ServerDown) (hdept : pkt.dept = y)
    (hpx : live pkt.chmpxid = false) (hpkt : Down pkt.chmpxid s.man) (io : Outside) :
    (s.processingServerDown io pkt).2.1 = none ∧
      ∀ x, live x = false → Down x s.man → Down x (s.processingServerDown io pkt).2.2.man := by
  have hself : pkt.dept = s.man.getSelfChmpxId := hdept.trans h.self.symm
  have haround : ∀ x, live x = false → Down x s.man → Down x (s.serverDownAround io pkt).2.man := by
    intro x hx hdown
    obtain ⟨p, ha⟩ := h.toReads.downAside hnd hlive hx hdown
    unfold serverDownAround
    split
    · exact hdown
    · rename_i hok
      split
      · refine ha.requestServiceOut (fun heq => ?_) (fun hno => hok (Or.inr hno)) hpkt io
        rw [← heq, h.self, hlive] at hpx
        cases hpx
      · exact hdown
  unfold processingServerDown pxComReceiveServerDown
  rw [if_pos hself]
  generalize s.serverDownAround io pkt = r at haround ⊢
  obtain ⟨ok, t⟩ := r
  exact ⟨rfl, haround⟩

theorem serverDownOnRing_man (io : Outside) (b : Bool) (next x : ChmpxId) (s : EventSock) :
    SameRing s.man (s.serverDownOnRing io b next x).2.2.man ∧
      ∀ pkt ∈ (s.serverDownOnRing io b next x).2.1,
        pkt = ⟨s.man.getSelfChmpxId, next, true, x⟩ := by
  have hrechain := checkRechainRing_sameRing io next s
  unfold serverDownOnRing
  dsimp only
  generalize (s.checkRechainRing io next).2.2 = t at hrechain ⊢
  have habort : SameRing s.man (if b then (t.pxComSendMergeAbort io next).2 else t).man := by
    split
    · rw [pxComSendMergeAbort_man]
      exact hrechain
    · exact hrechain
  generalize (if b then (t.pxComSendMergeAbort io next).2 else t) = t' at habort ⊢
  unfold pxComSendServerDown
  split
  · exact ⟨habort, fun pkt hp => by cases hp⟩
  · refine ⟨habort, fun pkt hp => ?_⟩
    dsimp only at hp
    split at hp
    · cases hp
      rw [habort.selfChmpxId]
    · cases hp

theorem DownAside.self_ne (h : DownAside p chmpxid m) : m.getSelfChmpxId ≠ chmpxid := by
  rw [ChmpxMan.getSelfChmpxId, h.self]
  exact h.other

theorem DownAside.serverDownAlone (h : DownAside p x s.man) (hother : DownAside p other s.man)
    (hvalid : other ≠ chmInvalidChmpxId) (b : Bool) (io : Outside) :
    Down x (s.serverDownAlone io b other).2.man := by
  unfold EventSock.serverDownAlone
  have habort : ∀ z, DownAside p z s.man →
      DownAside p z (if b then s.mergeAbort io else (true, s)).2.man := by
    intro z hz
    split
    · exact hz.mergeAbort io
    · exact hz
  have hx := habort x h
  have hdown := habort other hother
  generalize (if b then s.mergeAbort io else (true, s)) = r at hx hdown ⊢
  obtain ⟨ok, t⟩ := r
  dsimp only at hx hdown ⊢
  split
  · exact hx.down
  · split
    · exact hx.requestServiceOut hdown.self_ne hvalid hdown.down io
    · exact hx.down

/-- A node that sends a notice has taken the server down, and passes no live server over. -/
theorem LiveView.notifyHup (h : LiveView ring live y s.man) (hnd : ring.Nodup)
    (hlive : live y = true) (hx : live x = false) (io : Outside) :
    (∀ z, live z = false → Down z s.man → Down z (s.serverDownNotifyHup io x).2.2.man) ∧
      ∀ pkt ∈ (s.serverDownNotifyHup io x).2.1, pkt.dept = y ∧ pkt.chmpxid = x ∧
        Reads ring live y (s.serverDownNotifyHup io x).2.2.man ∧
        Down x (s.serverDownNotifyHup io x).2.2.man ∧
        ∃ w v, Circle.round ring y = w ++ pkt.term :: v ∧ ∀ z ∈ w, live z = false := by
  have hy : y ∈ ring := h.self ▸ h.toRingView.self_mem
  have hxy : x ≠ y := by
    rintro rfl
    rw [hx] at hlive
    cases hlive
  have htaken := h.taken hnd hxy io
  unfold serverDownNotifyHup
  split
  · exact ⟨fun z _ hz => hz, fun pkt hp => by cases hp⟩
  · rename_i hvalid
    split
    · exact ⟨fun z _ hz => hz, fun pkt hp => by cases hp⟩
    · dsimp only
      split
      · exact ⟨fun z _ hz => hz, fun pkt hp => by cases hp⟩
      · rename_i hne
        rw [if_neg hne] at htaken
        have hdown := isUp_changeToDown hne
        have honly : DownOnly s.man _ := setServerStatus_downOnly hdown io x s
        have hreads := h.setServerStatus hnd hy hlive hx hdown io
        generalize s.setServerStatus io x (s.man.getServerStatus x).changeToDown = r
          at htaken honly hreads ⊢
        obtain ⟨took, t⟩ := r
        dsimp only at htaken honly hreads ⊢
        split
        · exact ⟨fun z _ hz => honly.down hz, fun pkt hp => by cases hp⟩
        · have hstart := hreads.starts hnd io
          have hnext := getNextRingChmpxId_sameRing io t
          generalize t.getNextRingChmpxId io = res at hstart hnext ⊢
          obtain ⟨next, t'⟩ := res
          dsimp only at hstart hnext ⊢
          have hkeep := honly.trans (DownOnly.of_sameRing hnext)
          have hreads' := hnext.reads hreads
          have htaken' : Down x t'.man := (DownOnly.of_sameRing hnext).down htaken
          split
          · refine ⟨fun z hz hzd => ?_, fun pkt hp => by cases hp⟩
            obtain ⟨p, ha⟩ := hreads'.downAside hnd hlive hx htaken'
            obtain ⟨p', hb⟩ := hreads'.downAside hnd hlive hz (hkeep.down hzd)
            have hpp : p' = p := Option.some.inj (hb.self.symm.trans ha.self)
            rw [hpp] at hb
            exact hb.serverDownAlone ha hvalid _ io
          · rename_i hsome
            obtain ⟨hring, hpkt⟩ := serverDownOnRing_man io s.man.isOperating next x t'
            have hend := hkeep.trans (DownOnly.of_sameRing hring)
            refine ⟨fun z _ hz => hend.down hz, fun pkt hp => ?_⟩
            rw [hpkt pkt hp]
            exact ⟨hreads'.self, rfl, hring.reads hreads',
              (DownOnly.of_sameRing hring).down htaken', hstart hsome⟩

end EventSock

end Chm
