/-
A server in order, and what a request for a status leaves of it.

The words of `CHANGE_CHMPXSTS_TO_SRVIN` and `CHANGE_CHMPXSTS_TO_SRVOUT` take the place of another
one's word without turning a server up or down.  A server that is in order stays so when one status
is replaced, and the next server, the checks of the completion and the notices are told by the
statuses alone.
-/
import Chm.CompleteLap
import Chm.SelfSock
import Chm.ServerLaps
import Chm.Settled
import Chm.SuspendLaps

namespace Chm

/-! ## What the macros change -/

namespace ChmpxSts

variable {status : ChmpxSts}

theorem isSlave_of_isServer (h : status.isServer = true) : status.isSlave = false := by
  rw [isServer, isSrvout, isSrvin, has, has, Bool.or_eq_true, beq_iff_eq, beq_iff_eq] at h
  rw [isSlave, has]
  rcases h with hring | hring <;> rw [← hring] <;> decide

theorem isUp_iff_not_isDown : status.isUp = !status.isDown := by
  cases hup : status.isUp with
  | false =>
    rw [EventSock.isDown_of_not_up hup]
    rfl
  | true =>
    rw [isUp, has, beq_iff_eq] at hup
    rw [isDown, has, ← hup]
    decide

/-- A status that takes another one's place: a safe one of a server that is up as before, differs
and does not keep a merge from being completed. -/
structure Replaces (new old : ChmpxSts) : Prop where
  up : new.isUp = old.isUp
  safe : new.isSafe = true
  server : new.isServer = true
  ne : new ≠ old
  runs : EventSock.blocksMergeComplete new = false

/-- The three service outs. -/
inductive ServiceOut (status : ChmpxSts) : ChmpxSts → Prop
  | delete : status.isUp = true → status.isNoact = true → status.isOperating = false →
      ServiceOut status srvinUpDelpending
  | cancel : status.isUp = true → status.isAdd = true → status.isOperating = false →
      ServiceOut status srvoutUpNormal
  | down : status.isUp = false → status.isNoact = true → ServiceOut status srvinDownDelpending

/-- A status that is taken out does not keep a merge from being completed. -/
theorem ServiceOut.runs {status new : ChmpxSts} (h : ServiceOut status new) :
    EventSock.blocksMergeComplete status = false := by
  have hdoing : status.isOperating = false → status.isDoing = false := by
    rw [isOperating, Bool.or_eq_false_iff]
    exact fun h => h.1
  have hdown : status.isUp = true → status.isDown = false := by
    rw [isUp_iff_not_isDown]
    simp
  unfold EventSock.blocksMergeComplete
  cases h with
  | delete hup _ hop => simp [hdoing hop, hdown hup]
  | cancel hup _ hop => simp [hdoing hop, hdown hup]
  | down hup hnoact =>
    have hdelete : status.isDelete = false := by
      rw [isNoact, has, beq_iff_eq] at hnoact
      rw [isDelete, has, ← hnoact]
      decide
    simp [hup, hdelete]

end ChmpxSts

/-! ## A server in order -/

namespace ChmpxMan

variable {m m₁ : ChmpxMan} {svrs frees : List Ptr} {rest : List (List Ptr)} {p q : Ptr}

/-- A server of the ring, at `p`: the lists are intact, every server is found by its chmpxid and
counted, the statuses of the servers are safe ones of servers, and this one listens while it is
up. -/
structure Node (m : ChmpxMan) (svrs frees : List Ptr) (rest : List (List Ptr)) (p : Ptr) :
    Prop where
  formed : Formed m svrs frees rest
  self : m.chmpxSelf = some p
  mem : p ∈ svrs
  listens : (m.chmpx p).status.isUp = true → selfsockOpen (m.chmpx p) = true
  found : ∀ q ∈ svrs, m.find m.chmpxServers (m.chmpx q).chmpxid = some q
  counted : m.chmpxServerCount = svrs.length
  statuses : ∀ q ∈ svrs, (m.chmpx q).status.isSafe = true ∧ (m.chmpx q).status.isServer = true
  others : ∀ q, (m.chmpx q).isServerMode = false → (m.chmpx q).status.isSrvin = false

/-- The manager of a server that is in order. -/
def InOrder (m : ChmpxMan) : Prop := ∃ svrs frees rest p, Node m svrs frees rest p

theorem SameShape.find_eq (h : SameShape m m₁) (chmpxid : ChmpxId) :
    m₁.find m₁.chmpxServers chmpxid = m.find m.chmpxServers chmpxid := by
  simp only [find, searchChmpxid, bucket, h.chmpxServers, h.same, h.chmpxCount, h.chmpxidMap,
    h.chmpxid, h.isServerMode]

namespace Node

theorem isServerMode (h : Node m svrs frees rest p) : m.isServerMode = true := by
  rw [ChmpxMan.isServerMode, h.self]
  exact h.formed.lists.server h.mem

theorem selfIs (h : Node m svrs frees rest p) :
    SelfIs p (m.chmpx p).chmpxid (selfsockOpen (m.chmpx p)) (· = (m.chmpx p).status) m :=
  ⟨⟨svrs, frees, rest, h.formed⟩, h.isServerMode, h.self, rfl, rfl, rfl⟩

theorem getSelfChmpxId (h : Node m svrs frees rest p) :
    m.getSelfChmpxId = (m.chmpx p).chmpxid := by
  rw [ChmpxMan.getSelfChmpxId, h.self]

theorem getSelfStatus (h : Node m svrs frees rest p) : m.getSelfStatus = (m.chmpx p).status := by
  rw [ChmpxMan.getSelfStatus, h.self]

theorem servers (h : Node m svrs frees rest p) : m.chmpxServers ≠ none := by
  rw [h.formed.head]
  exact fun hnil => List.ne_nil_of_mem h.mem (List.head?_eq_none_iff.mp hnil)

/-- The status of a server of the list. -/
theorem getServerStatus (h : Node m svrs frees rest p) (hq : q ∈ svrs) :
    m.getServerStatus (m.chmpx q).chmpxid = (m.chmpx q).status := by
  rw [ChmpxMan.getServerStatus, if_neg h.servers, h.found q hq]

/-- What leaves the lists and keeps the servers up or down keeps the server in order. -/
theorem congr (h : Node m svrs frees rest p) (hshape : SameShape m m₁) (hlisten : SameListen m m₁)
    (hup : ∀ q ∈ svrs, (m₁.chmpx q).status.isUp = (m.chmpx q).status.isUp)
    (hst : ∀ q ∈ svrs, (m₁.chmpx q).status.isSafe = true ∧ (m₁.chmpx q).status.isServer = true)
    (hothers : ∀ q, (m.chmpx q).isServerMode = false → (m₁.chmpx q).status.isSrvin = false) :
    Node m₁ svrs frees rest p where
  formed := hshape.formed h.formed
  self := hshape.chmpxSelf.trans h.self
  mem := h.mem
  listens := by
    rw [hup p h.mem, selfsockOpen, hshape.name, hlisten.selfsock]
    exact h.listens
  found q hq := by
    rw [hshape.find_eq, hshape.chmpxid]
    exact h.found q hq
  counted := hshape.chmpxServerCount.trans h.counted
  statuses := hst
  others q hq := hothers q ((hshape.isServerMode q).symm.trans hq)

/-- What leaves the statuses does. -/
theorem same (h : Node m svrs frees rest p) (hshape : SameShape m m₁) (hlisten : SameListen m m₁)
    (hst : ∀ q, (m₁.chmpx q).status = (m.chmpx q).status) : Node m₁ svrs frees rest p :=
  h.congr hshape hlisten (fun q _ => by rw [hst]) (fun q hq => by rw [hst]; exact h.statuses q hq)
    fun q hq => by rw [hst]; exact h.others q hq

end Node

/-! ## One status changes -/

/-- The status of the node at `q` has become `new`. -/
structure Changed (m m₁ : ChmpxMan) (q : Ptr) (new : ChmpxSts) : Prop where
  shape : SameShape m m₁
  listen : SameListen m m₁
  own : (m₁.chmpx q).status = new
  frame : ∀ r ≠ q, (m₁.chmpx r).status = (m.chmpx r).status

/-- Some server is up. -/
def ServerUp (m : ChmpxMan) (svrs : List Ptr) : Prop := ∃ q ∈ svrs, (m.chmpx q).status.isUp = true

/-- The status of some server keeps a merge from being completed. -/
def Blocked (m : ChmpxMan) (svrs : List Ptr) : Prop :=
  ∃ q ∈ svrs, EventSock.blocksMergeComplete (m.chmpx q).status = true

/-- No node has the chmpxid and the status. -/
def Gone (chmpxid : ChmpxId) (old : ChmpxSts) (m : ChmpxMan) : Prop :=
  ∀ q, (m.chmpx q).chmpxid = chmpxid → (m.chmpx q).status ≠ old

variable {new old : ChmpxSts} {env : Env} {chmpxid : ChmpxId}

theorem Changed.up (h : Changed m m₁ q new) (hnew : new.Replaces (m.chmpx q).status) (r : Ptr) :
    (m₁.chmpx r).status.isUp = (m.chmpx r).status.isUp := by
  by_cases hr : r = q
  · rw [hr, h.own, hnew.up]
  · rw [h.frame r hr]

theorem Changed.recount (h : Changed m m₁ q new) (cur : Cursor) :
    Changed m (m₁.recount cur) q new where
  shape := h.shape.trans (SameRecords.recount m₁ cur).toSameShape
  listen := h.listen.trans (recount_sameListen m₁ cur)
  own := h.own
  frame := h.frame

/-- `SetStatus` with a safe status. -/
theorem setStatus_changed (hname : (m.chmpx q).name.isEmpty = false) (hsafe : new.isSafe = true)
    (env : Env) : ∃ m₁, m.setStatus env new q = (true, m₁) ∧ Changed m m₁ q new := by
  have hshape := (SameRecords.setStatus m env new q).toSameShape
  have hlisten := setStatus_sameListen env new q m
  rcases setStatus_spec env new hname with hno | ⟨m₁, hrun, hown, hframe, -, -⟩
  · simp [ChmpxMan.setStatus, Chmpx.setStatus, hname, hsafe] at hno
  · rw [hrun] at hshape hlisten
    exact ⟨m₁, hrun, hshape, hlisten, hown, fun r hr => by rw [hframe r hr]⟩

/-- `SetSelfStatus` with a status that is up only if this server listens. -/
theorem SelfIs.setSelfStatus_changed {id : ChmpxId} {isOpen : Bool} {good : ChmpxSts → Prop}
    (h : SelfIs p id isOpen good m) (b : Bool)
    (hsafe : (new.changeSuspendFlag !b).isSafe = true) (hup : new.isUp = true → isOpen = true)
    (env : Env) :
    ∃ m₁, m.setSelfStatus env new b = (true, m₁) ∧
      Changed m m₁ p (new.changeSuspendFlag !b) := by
  obtain ⟨m₁, hrun, hc⟩ := setStatus_changed h.named hsafe env
  refine ⟨m₁.recount (some p), ?_, hc.recount _⟩
  have hopen : (new.isUp && !isOpen) = false := by
    cases hn : new.isUp with
    | false => rfl
    | true =>
      rw [hup hn]
      rfl
  have hmode₁ : m₁.isServerMode = true := hc.shape.man_isServerMode.trans h.isServerMode
  rw [ChmpxMan.setSelfStatus, h.self]
  simp only [h.isServerMode, Bool.true_and, h.isOpen, hopen, Bool.false_eq_true, if_false, if_true,
    hrun, hmode₁]

namespace Node

theorem changed (h : Node m svrs frees rest p) (hq : q ∈ svrs) (hc : Changed m m₁ q new)
    (hnew : new.Replaces (m.chmpx q).status) : Node m₁ svrs frees rest p := by
  refine h.congr hc.shape hc.listen (fun r _ => hc.up hnew r) (fun r hr => ?_) fun r hmode => ?_
  · by_cases hrq : r = q
    · rw [hrq, hc.own]
      exact ⟨hnew.safe, hnew.server⟩
    · rw [hc.frame r hrq]
      exact h.statuses r hr
  · have hrq : r ≠ q := by
      rintro rfl
      rw [h.formed.lists.server hq] at hmode
      cases hmode
    rw [hc.frame r hrq]
    exact h.others r hmode

theorem nodup_ids (h : Node m svrs frees rest p) {r : Ptr} (hq : q ∈ svrs) (hr : r ∈ svrs)
    (hid : (m.chmpx q).chmpxid = (m.chmpx r).chmpxid) : q = r := by
  have hfind := h.found q hq
  rw [hid, h.found r hr] at hfind
  exact (Option.some.inj hfind).symm

/-- Only the server had the chmpxid and the status. -/
theorem gone (h : Node m svrs frees rest p) (hq : q ∈ svrs) (hc : Changed m m₁ q new)
    (hnew : new.Replaces (m.chmpx q).status) (hsrvin : (m.chmpx q).status.isSrvin = true) :
    Gone (m.chmpx q).chmpxid (m.chmpx q).status m₁ := by
  intro r hid
  by_cases hrq : r = q
  · rw [hrq, hc.own]
    exact hnew.ne
  · rw [hc.frame r hrq]
    rw [hc.shape.chmpxid] at hid
    cases hmode : (m.chmpx r).isServerMode with
    | true => exact absurd (h.nodup_ids (h.formed.lists.server_mem r hmode) hq hid) hrq
    | false =>
      intro heq
      have hno := h.others r hmode
      rw [heq, hsrvin] at hno
      cases hno

theorem setStatus (h : Node m svrs frees rest p) (hq : q ∈ svrs) (hsafe : new.isSafe = true)
    (env : Env) : ∃ m₁, m.setStatus env new q = (true, m₁) ∧ Changed m m₁ q new :=
  setStatus_changed (h.formed.lists.named hq) hsafe env

/-- `SetSelfStatus` with a status that is up only if this server is. -/
theorem setSelfStatus (h : Node m svrs frees rest p) (b : Bool)
    (hsafe : (new.changeSuspendFlag !b).isSafe = true)
    (hup : new.isUp = true → (m.chmpx p).status.isUp = true) (env : Env) :
    ∃ m₁, m.setSelfStatus env new b = (true, m₁) ∧
      Changed m m₁ p (new.changeSuspendFlag !b) :=
  h.selfIs.setSelfStatus_changed b hsafe (fun hn => h.listens (hup hn)) env

theorem updateHash (h : Node m svrs frees rest p) (env : Env) (type : HashTg) :
    ∃ m₁, m.updateHash env type true true = (true, m₁) ∧ SameShape m m₁ ∧ SameListen m m₁ ∧
      ∀ r, (m₁.chmpx r).status = (m.chmpx r).status := by
  obtain ⟨m₁, hrun, hloop⟩ := updateHash_spec env type h.formed (List.ne_nil_of_mem h.mem)
  have hshape := (SameRecords.updateHash m env type true true).toSameShape
  have hlisten := updateHash_sameListen env type true true m
  rw [hrun] at hshape hlisten
  exact ⟨m₁, hrun, hshape, hlisten, hloop.statuses.status⟩

theorem checkAllServiceOutStatus_up (h : Node m svrs frees rest p) (hq : q ∈ svrs)
    (hup : ServerUp m svrs) (env : Env) :
    m.checkAllServiceOutStatus env (some q) = (true, m) := by
  obtain ⟨r, hr, hrup⟩ := hup
  have hslave := ChmpxSts.isSlave_of_isServer (h.statuses r hr).2
  rw [checkAllServiceOutStatus, h.formed.lists.nodes_eq hq, if_pos]
  exact List.any_eq_true.mpr ⟨r, List.mem_filter.mpr ⟨hr, by rw [hslave]; rfl⟩, hrup⟩

/-- `SetServerStatus` of another server changes its status, and takes all servers out when no
server is up any more. -/
theorem setServerStatus (h : Node m svrs frees rest p) (hq : q ∈ svrs) (hqp : q ≠ p)
    (hnew : new.Replaces (m.chmpx q).status) (b : Bool) (env : Env) :
    ∃ m₁, m.setServerStatus env (m.chmpx q).chmpxid new b = (true, m₁) ∧
      Node m₁ svrs frees rest p ∧ SameShape m m₁ ∧
      (Changed m m₁ q new ∧ (new.isDown = true → ServerUp m svrs) ∨
        ¬ServerUp m svrs ∧ AllOut m₁ svrs ∧
          ∀ r, (m₁.chmpx r).status = (m.chmpx r).status ∨ (m₁.chmpx r).status = new ∨
            (m₁.chmpx r).status = ChmpxSts.srvoutDownNormal) := by
  obtain ⟨m₁, hrun, hc⟩ := h.setStatus hq hnew.safe env
  have h₁ := h.changed hq hc hnew
  have hother : ¬(m.isServerMode && m.getSelfChmpxId = (m.chmpx q).chmpxid) = true := by
    rw [h.isServerMode, h.getSelfChmpxId, Bool.true_and, decide_eq_true_eq]
    exact fun hid => hqp (h.nodup_ids hq h.mem hid.symm)
  rw [ChmpxMan.setServerStatus, if_neg hother, h.found q hq]
  simp only [hrun]
  have hrecount : ∀ {m₂ : ChmpxMan}, Node m₂ svrs frees rest p →
      Node (m₂.recount (some q)) svrs frees rest p := fun h₂ =>
    h₂.same (SameRecords.recount _ _).toSameShape (recount_sameListen _ _) fun _ => rfl
  have hups : ServerUp m₁ svrs ↔ ServerUp m svrs := by
    simp only [ServerUp, hc.up hnew]
  by_cases hdown : new.isDown = true
  · rw [if_pos hdown]
    by_cases hup : ServerUp m svrs
    · rw [h₁.checkAllServiceOutStatus_up hq (hups.mpr hup)]
      exact ⟨_, rfl, hrecount h₁, (hc.recount _).shape, Or.inl ⟨hc.recount _, fun _ => hup⟩⟩
    · have hw : Written (Chmpx.StatusWrite fun _ => (· = ChmpxSts.srvoutDownNormal)) m₁
          (m₁.checkAllServiceOutStatus env (some q)).2 :=
        Written.checkAllServiceOutStatus (P := fun _ => (· = ChmpxSts.srvoutDownNormal))
          (fun _ => rfl) env (some q) m₁
      have hlisten := checkAllServiceOutStatus_sameListen env (some q) m₁
      have hserver : (m₁.chmpx q).status.isSlave = false := by
        rw [hc.own]
        exact ChmpxSts.isSlave_of_isServer hnew.server
      rcases checkAllServiceOutStatus_spec env h₁.formed hq with ⟨-, hsome | hall⟩ | ⟨m₂, hm₂, hout⟩
      · obtain ⟨r, hr, -, hrup⟩ := hsome
        exact absurd (hups.mp ⟨r, hr, hrup⟩) hup
      · rw [hall q hq] at hserver
        cases hserver
      · rw [hm₂] at hw hlisten ⊢
        have hshape₂ := (SameRecords.written hw).toSameShape
        have h₂ : Node m₂ svrs frees rest p := by
          refine h₁.congr hshape₂ hlisten (fun r hr => ?_) (fun r hr => ?_) fun r hmode => ?_
          · have hno : (m₁.chmpx r).status.isUp = false :=
              Bool.eq_false_iff.mpr fun hrup => hup (hups.mp ⟨r, hr, hrup⟩)
            rw [(hout r hr).1, hno]
            decide
          · rw [(hout r hr).1]
            exact ⟨by decide, by decide⟩
          · rcases hw.status_cases r with hsame | hnew'
            · rw [hsame]
              exact h₁.others r hmode
            · rw [hnew']
              decide
        refine ⟨_, rfl, hrecount h₂, (hc.shape.trans hshape₂).trans
          (SameRecords.recount m₂ _).toSameShape, Or.inr ⟨hup, hout, fun r => ?_⟩⟩
        rcases hw.status_cases r with hsame | hnew'
        · by_cases hrq : r = q
          · refine Or.inr (Or.inl ?_)
            rw [hrq] at hsame ⊢
            exact hsame.trans hc.own
          · exact Or.inl (hsame.trans (hc.frame r hrq))
        · exact Or.inr (Or.inr hnew')
  · rw [if_neg hdown]
    exact ⟨_, rfl, hrecount h₁, (hc.recount _).shape,
      Or.inl ⟨hc.recount _, fun hd => absurd hd hdown⟩⟩

end Node

end ChmpxMan

namespace EventSock

open ChmpxMan

variable {io : Outside} {s : EventSock} {svrs frees : List Ptr} {rest : List (List Ptr)} {p : Ptr}
variable {chmpxid : ChmpxId} {old : ChmpxSts}

/-- A call whose operation is known. -/
theorem call_eq {op : AreaOp} {ok : Bool} {m₁ : ChmpxMan}
    (h : s.man.execArea (io.env s.calls) op = (ok, m₁)) :
    s.call io op = (ok, { s with man := m₁, calls := s.calls + 1 }) := by
  rw [call, h]

/-! ## The next server -/

/-- Some server besides the one at `p` is up. -/
def OtherUp (m : ChmpxMan) (svrs : List Ptr) (p : Ptr) : Prop :=
  ∃ q ∈ svrs, q ≠ p ∧ (m.chmpx q).status.isUp = true

/-- The lists stay, and a status stays or becomes `SRVOUT_DOWN_NORMAL`. -/
structure OutOnly (m m₁ : ChmpxMan) : Prop extends SameShape m m₁ where
  status : ∀ q, (m₁.chmpx q).status = (m.chmpx q).status ∨
    (m₁.chmpx q).status = ChmpxSts.srvoutDownNormal

variable {m m₁ m₂ : ChmpxMan}

theorem OutOnly.trans (h : OutOnly m m₁) (h' : OutOnly m₁ m₂) : OutOnly m m₂ where
  toSameShape := h.toSameShape.trans h'.toSameShape
  status q := by
    rcases h'.status q with hsame | hout
    · rw [hsame]
      exact h.status q
    · exact Or.inr hout

theorem OutOnly.written
    (hw : Written (Chmpx.StatusWrite fun _ => (· = ChmpxSts.srvoutDownNormal)) m m₁) :
    OutOnly m m₁ where
  toSameShape := (SameRecords.written hw).toSameShape
  status := hw.status_cases

theorem OutOnly.of_sameRing (h : SameRing m m₁) : OutOnly m m₁ where
  toSameShape := h.toSameShape
  status q := Or.inl (h.status q)

/-- The own record has another chmpxid, and no node has the chmpxid and the status. -/
structure GoneAside (p : Ptr) (chmpxid : ChmpxId) (old : ChmpxSts) (m : ChmpxMan) : Prop where
  self : m.chmpxSelf = some p
  other : (m.chmpx p).chmpxid ≠ chmpxid
  gone : Gone chmpxid old m

/-- The own status does not matter to it. -/
theorem GoneAside.setSelfStatus (h : GoneAside p chmpxid old m) (env : Env) (status : ChmpxSts)
    (b : Bool) : GoneAside p chmpxid old (m.setSelfStatus env status b).2 := by
  have hset : ∀ st, GoneAside p chmpxid old (m.setStatus env st p).2 := by
    intro st
    have hshape := (SameRecords.setStatus m env st p).toSameShape
    refine ⟨hshape.chmpxSelf.trans h.self, ?_, fun q hid => ?_⟩
    · rw [hshape.chmpxid]
      exact h.other
    · rw [hshape.chmpxid] at hid
      have hq : q ≠ p := by
        rintro rfl
        exact h.other hid
      have hsame : (m.setStatus env st p).2.chmpx q = m.chmpx q := by
        rw [ChmpxMan.setStatus]
        split
        · rfl
        · rw [chmpx_setChmpx, if_neg hq]
      rw [hsame]
      exact h.gone q hid
  rw [ChmpxMan.setSelfStatus, h.self]
  dsimp only
  split
  · exact h
  · have hrun := hset (if m.isServerMode then status.changeSuspendFlag !b else status)
    generalize m.setStatus env _ p = r at hrun ⊢
    obtain ⟨ok, m₁⟩ := r
    cases ok with
    | false => exact hrun
    | true =>
      dsimp only
      split
      · exact ⟨hrun.self, hrun.other, hrun.gone⟩
      · exact hrun

/-- A reload sets no server up in service. -/
theorem GoneAside.reloadConfiguration (h : GoneAside p chmpxid old m) (hsrvin : old.isSrvin = true)
    (env : Env) (cfg : ChmCfgInfo) (eqfd : Bool) :
    (m.reloadConfiguration env cfg eqfd).2.chmpxSelf = some p ∧
      Gone chmpxid old (m.reloadConfiguration env cfg eqfd).2 := by
  have hset : ∀ {m : ChmpxMan} {q : Ptr} {c : Chmpx}, c.status.isSrvin = false →
      m.chmpxSelf = some p ∧ Gone chmpxid old m →
        (m.setChmpx q c).chmpxSelf = some p ∧ Gone chmpxid old (m.setChmpx q c) := by
    rintro m q c hout ⟨hself, hgone⟩
    refine ⟨hself, fun r hid => ?_⟩
    rw [chmpx_setChmpx] at hid ⊢
    split at hid
    · rename_i hr
      rw [if_pos hr]
      rintro rfl
      rw [hsrvin] at hout
      cases hout
    · rename_i hr
      rw [if_neg hr]
      exact hgone r hid
  refine reloadConfiguration_keeps (I := fun m => m.chmpxSelf = some p ∧ Gone chmpxid old m)
    (fun h hc hself => ?_) (fun hc h => hset ?_ h) (fun h => hset (by decide) h) cfg eqfd
    ⟨h.self, h.gone⟩
  · refine ⟨hself.trans h.1, fun q => ?_⟩
    rw [hc]
    exact h.2 q
  · unfold Chmpx.initializeChmpx at hc
    split at hc
    · cases hc
    · cases hc
      show ChmpxSts.srvoutDownNormal.isSrvin = false
      decide

end EventSock

end Chm
