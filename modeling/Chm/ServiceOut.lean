/-
Service in and service out.

`RequestServiceIn` and `RequestServiceOut` set a status, number the pending hashes anew, tell the
other servers and, after a service out, complete the merge when that is set to be automatic.  Each
of these can fail, and none is taken back.  `RequestServiceOut` of the own server also sends to the
next server of the ring when there is none, and says that it has failed.
-/
import Chm.InOrder

namespace Chm

namespace EventSock

open ChmpxMan

/-! ## The request -/

/-- The end of `RequestServiceOut`. -/
def completeServiceOut (io : Outside) (s : EventSock) : Bool × EventSock :=
  if s.isAutoMerge then s.requestMergeComplete io else (true, s)

/-- The notice of the own service out.  Without a next server the notice to the slaves is not the
end of it. -/
def noticeSelfServiceOut (io : Outside) (svr : ChmpxSvr) (s : EventSock) : Bool × EventSock :=
  let (chmpxid, s) := s.getNextRingChmpxId io
  let s := if chmpxid = chmInvalidChmpxId then s.pxComSendSlavesStatusChange io svr else s
  s.pxComSendStatusChange io chmpxid svr

/-- The part of `RequestServiceOut` for the own server. -/
def serviceOutSelf (io : Outside) (chmpxid : ChmpxId) (s : EventSock) : Bool × EventSock :=
  let status := (s.man.getServerStatus chmpxid).changeToSrvout
  if status = s.man.getServerStatus chmpxid then (false, s)
  else
    let (ok, s) := s.setSelfStatus io status
    if !ok then (false, s)
    else
      let (ok, s) := s.updateHash io .pending
      if !ok then (false, s)
      else
        match s.man.getSelfChmpxSvr with
        | none => (false, s)
        | some svr =>
          let (ok, s) := s.noticeSelfServiceOut io svr
          if !ok then (false, s) else s.completeServiceOut io

/-- The part for another server. -/
def serviceOutOther (io : Outside) (chmpxid : ChmpxId) (s : EventSock) : Bool × EventSock :=
  let status := (s.man.getServerStatus chmpxid).changeToSrvout
  if status = s.man.getServerStatus chmpxid then (true, s)
  else
    let (ok, s) := s.setServerStatus io chmpxid status
    if !ok then (false, s)
    else
      let (ok, s) := s.updateHash io .pending
      if !ok then (false, s)
      else
        match s.man.getChmpxSvr chmpxid with
        | none => (false, s)
        | some svr =>
          let (next, s) := s.getNextRingChmpxId io
          let (ok, s) := s.noticeStatus io next svr
          if !ok then (false, s) else s.completeServiceOut io

/-- The server that a service out is for: this one when none is given. -/
def serviceOutTarget (chmpxid : ChmpxId) (s : EventSock) : ChmpxId :=
  if chmpxid = chmInvalidChmpxId then s.man.getSelfChmpxId else chmpxid

/-- `RequestServiceOut`. -/
def requestServiceOut (io : Outside) (chmpxid : ChmpxId) (s : EventSock) : Bool × EventSock :=
  if !s.isServerMode then (false, s)
  else if s.man.isOperating then (false, s)
  else if s.man.getSelfChmpxId = s.serviceOutTarget chmpxid then
    s.serviceOutSelf io (s.serviceOutTarget chmpxid)
  else s.serviceOutOther io (s.serviceOutTarget chmpxid)

variable {io : Outside} {s : EventSock} {svrs frees : List Ptr} {rest : List (List Ptr)} {p : Ptr}
variable {chmpxid : ChmpxId} {old : ChmpxSts} {m m₁ : ChmpxMan}

/-! ## The completion without another server -/

/-- `RequestMergeComplete` fails: a server is still to finish, or this one is and no other is up. -/
def Unfinished (m : ChmpxMan) (svrs : List Ptr) (p : Ptr) : Prop :=
  Blocked m svrs ∨
    ¬OtherUp m svrs p ∧ (statusOfMergeComplete (m.chmpx p).status).isNone = true

/-- What a request does once the status is set leaves the server in order and the statuses. -/
structure GoesOn (svrs frees : List Ptr) (rest : List (List Ptr)) (p : Ptr)
    (s s₁ : EventSock) : Prop where
  node : Node s₁.man svrs frees rest p
  ring : SameRing s.man s₁.man
  isAutoMerge : s₁.isAutoMerge = s.isAutoMerge

variable {s₁ s₂ : EventSock}

theorem GoesOn.trans (h : GoesOn svrs frees rest p s s₁) (h' : GoesOn svrs frees rest p s₁ s₂) :
    GoesOn svrs frees rest p s s₂ :=
  ⟨h'.node, h.ring.trans h'.ring, h'.isAutoMerge.trans h.isAutoMerge⟩

theorem SameRing.getServerStatus_eq (h : SameRing m m₁) (chmpxid : ChmpxId) :
    m₁.getServerStatus chmpxid = m.getServerStatus chmpxid := by
  rw [ChmpxMan.getServerStatus, ChmpxMan.getServerStatus, h.toSameShape.find_eq, h.chmpxServers]
  simp only [h.status]

/-- The status of the target and all pending hashes are as before. -/
def Untouched (chmpxid : ChmpxId) (s s₁ : EventSock) : Prop :=
  s₁.man.getServerStatus chmpxid = s.man.getServerStatus chmpxid ∧
    ∀ q, (s₁.man.chmpx q).pendingHash = (s.man.chmpx q).pendingHash

theorem Untouched.refl (chmpxid : ChmpxId) (s : EventSock) : Untouched chmpxid s s :=
  ⟨rfl, fun _ => rfl⟩

/-- The completion after a service out fails, although the service out is done. -/
def CompletionFails (svrs : List Ptr) (p : Ptr) (s : EventSock) : Prop :=
  s.isAutoMerge = true ∧ ServerUp s.man svrs ∧ Unfinished s.man svrs p

/-- The target of a service out is as requested: the request gets past its checks, is for another
server, and has nothing to change. -/
def AlreadyOut (chmpxid : ChmpxId) (s : EventSock) : Prop :=
  s.isServerMode = true ∧ s.man.isOperating = false ∧ chmpxid ≠ s.man.getSelfChmpxId ∧
    (s.man.getServerStatus chmpxid).changeToSrvout = s.man.getServerStatus chmpxid

/-- What a service out says of its target. -/
structure OutAnswers (svrs : List Ptr) (p : Ptr) (chmpxid : ChmpxId) (s : EventSock)
    (r : Bool × EventSock) : Prop where
  done : r.1 = true ↔
    r.2.man.getServerStatus chmpxid ≠ s.man.getServerStatus chmpxid ∧ ¬CompletionFails svrs p s ∨
      AlreadyOut chmpxid s
  failed : r.1 = false → Untouched chmpxid s r.2 ∨
    r.2.man.getServerStatus chmpxid ≠ s.man.getServerStatus chmpxid ∧ CompletionFails svrs p s

theorem OutAnswers.refused (hno : ¬AlreadyOut chmpxid s) :
    OutAnswers svrs p chmpxid s (false, s) := by
  refine ⟨iff_of_false Bool.false_ne_true ?_, fun _ => Or.inl (Untouched.refl _ s)⟩
  rintro (⟨hne, -⟩ | halready)
  · exact hne rfl
  · exact hno halready

theorem OutAnswers.changed {r : Bool × EventSock}
    (hne : r.2.man.getServerStatus chmpxid ≠ s.man.getServerStatus chmpxid)
    (hok : r.1 = true ↔ ¬CompletionFails svrs p s) (hno : ¬AlreadyOut chmpxid s) :
    OutAnswers svrs p chmpxid s r := by
  refine ⟨by rw [hok, and_iff_right hne, or_iff_left hno], fun hfalse => Or.inr ⟨hne, ?_⟩⟩
  by_contra hc
  rw [hok.mpr hc] at hfalse
  cases hfalse

end EventSock

end Chm