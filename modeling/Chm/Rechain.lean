/-
Transferring a packet along the ring.

A packet that is not back at its departure goes on to the next server that is up, if
`IsSafeDeptAndNextChmpxId` allows it.  JOIN_RING and STATUS_CHANGE first look whether
the server they are about has to be chained in, which opens and closes sockets and
leaves the ring as it is.
-/
import Chm.EventCalls
import Chm.RingWalk

namespace Chm

/-- The packets that go around the ring.  The record in two of them decides about sockets. -/
inductive RingCom
  | joinRing (server : ChmpxId)
  | statusUpdate
  | statusConfirm
  | statusChange (server : ChmpxId)
  | mergeStart
  | mergeAbort
  | mergeComplete
  | mergeSuspend
  | mergeNosuspend
  | serverDown
  | reqUpdatedata
  deriving DecidableEq, Repr

namespace EventSock

/-- `GetServerSock`. -/
def getServerSock (m : ChmpxMan) (chmpxid : ChmpxId) : List Int :=
  match m.find m.chmpxServers chmpxid with
  | none => []
  | some p => if (m.chmpx p).name.isEmpty then [] else (m.chmpx p).socklist

/-- `seversockmap.erase` of each socket of a server: its callback is `RemoveServerSock`. -/
def eraseServerSocks (io : Outside) (chmpxid : ChmpxId) : List Int → EventSock → EventSock
  | [], s => s
  | sock :: socks, s =>
    eraseServerSocks io chmpxid socks (s.call io (.removeServerSock chmpxid sock)).2

/-- The loop of `CloseRechainRing` over the servers behind `pos`. -/
def closeRechainLoop (io : Outside) (now : ChmpxId) (selfpos : Ptr) :
    Nat → Ptr → EventSock → EventSock
  | 0, _, s => s
  | fuel + 1, pos, s =>
    match s.man.getNextServerPos (some selfpos) (some pos) true true with
    | none => s
    | some pos =>
      match s.man.getServerBase pos with
      | none => closeRechainLoop io now selfpos fuel pos s
      | some chmpxid =>
        if chmpxid = chmInvalidChmpxId ∨ now = chmpxid then
          closeRechainLoop io now selfpos fuel pos s
        else
          closeRechainLoop io now selfpos fuel pos
            (s.eraseServerSocks io chmpxid (getServerSock s.man chmpxid))

/-- `RechainRing`: connect to the new next server and close the sockets to the others. -/
def rechainRing (io : Outside) (new : ChmpxId) (s : EventSock) : Bool × EventSock :=
  if new = chmInvalidChmpxId then (false, s)
  else
    let (ok, s) := s.connectServer io new
    if !ok then (false, s)
    else
      match s.man.chmpxSelf with
      | none => (false, s)
      | some selfpos =>
        (true, closeRechainLoop io new selfpos (s.man.chmpxCount + 1) selfpos s)

/-- The loop of `CheckRechainRing`: which of the two servers comes first behind `pos`. -/
def checkRechainLoop (io : Outside) (new now : ChmpxId) (selfpos : Ptr) :
    Nat → Ptr → EventSock → Bool × EventSock
  | 0, _, s => (false, s)
  | fuel + 1, pos, s =>
    match s.man.getNextServerPos (some selfpos) (some pos) true true with
    | none => (false, s)
    | some pos =>
      match s.man.getServerBase pos with
      | none => checkRechainLoop io new now selfpos fuel pos s
      | some chmpxid =>
        if chmpxid = chmInvalidChmpxId then checkRechainLoop io new now selfpos fuel pos s
        else if now = chmpxid then
          if getServerSock s.man now ≠ [] then (false, s) else s.rechainRing io now
        else if new = chmpxid then s.rechainRing io new
        else checkRechainLoop io new now selfpos fuel pos s

/-- `CheckRechainRing`: its result, and whether the ring has been chained anew. -/
def checkRechainRing (io : Outside) (new : ChmpxId) (s : EventSock) : Bool × Bool × EventSock :=
  if new = chmInvalidChmpxId then (false, false, s)
  else
    let now := s.man.getNextRingChmpxId
    if now = new ∧ getServerSock s.man now ≠ [] then (true, false, s)
    else
      match s.man.chmpxSelf with
      | none => (false, false, s)
      | some selfpos =>
        let (isRechain, s) := checkRechainLoop io new now selfpos (s.man.chmpxCount + 1) selfpos s
        (true, isRechain, s)

/-- The next server of a packet, as its receiver reads it. -/
def nextOfRing (io : Outside) (com : RingCom) (s : EventSock) : ChmpxId × EventSock :=
  match com with
  | .joinRing server =>
    let (_, isRechain, s) := s.checkRechainRing io server
    if isRechain then (server, s) else s.getNextRingChmpxId io
  | .statusChange server =>
    let (_, _, s) := s.checkRechainRing io server
    s.getNextRingChmpxId io
  | _ => s.getNextRingChmpxId io

/-- Where a packet of another departure is sent on, if it is. -/
def transfer (io : Outside) (com : RingCom) (dept : ChmpxId) (s : EventSock) :
    Option ChmpxId × EventSock :=
  let (next, s) := s.nextOfRing io com
  if next = chmInvalidChmpxId then (none, s)
  else if isSafeDeptAndNextChmpxId s.man dept next then (some next, s) else (none, s)

/-! ## Sockets do not change the ring -/

open ChmpxMan

variable {m m' : ChmpxMan} {ids : List ChmpxId} {up : ChmpxId → Bool} {dept next : ChmpxId}

/-- The lists and the statuses are as they were. -/
structure SameRing (m m' : ChmpxMan) : Prop extends SameShape m m' where
  status : ∀ p, (m'.chmpx p).status = (m.chmpx p).status

theorem SameRing.refl (m : ChmpxMan) : SameRing m m := ⟨SameShape.refl m, fun _ => rfl⟩

theorem SameRing.trans {m₁ m₂ m₃ : ChmpxMan} (h : SameRing m₁ m₂) (h' : SameRing m₂ m₃) :
    SameRing m₁ m₃ :=
  ⟨h.toSameShape.trans h'.toSameShape, fun p => (h'.status p).trans (h.status p)⟩

theorem setSock_sameRing (sock ctlsock : Int) (isSock isCtlsock : Bool) (p : Ptr)
    (m : ChmpxMan) : SameRing m (setSock sock ctlsock isSock isCtlsock p m).2 := by
  refine ⟨(setSock_resocked sock ctlsock isSock isCtlsock p m).shape, fun q => ?_⟩
  by_cases hq : q = p
  · rw [hq]
    unfold setSock
    dsimp only
    split
    · rfl
    · split
      · rfl
      · cases isSock && decide (sock ≠ chmInvalidSock) <;> cases isCtlsock <;>
          simp [chmpx_setChmpx]
  · rw [(setSock_resocked sock ctlsock isSock isCtlsock p m).chmpx q hq]

theorem removeSock_sameRing (sock : Int) (p : Ptr) (m : ChmpxMan) :
    SameRing m (removeSock sock p m).2 := by
  refine ⟨(removeSock_resocked sock p m).shape, fun q => ?_⟩
  by_cases hq : q = p
  · rw [hq]
    unfold removeSock
    dsimp only
    split
    · rfl
    · split
      · simp [chmpx_setChmpx]
      · rfl
  · rw [(removeSock_resocked sock p m).chmpx q hq]

theorem setServerSocks_sameRing (chmpxid : ChmpxId) (sock ctlsock : Int)
    (isSock isCtlsock : Bool) (m : ChmpxMan) :
    SameRing m (setServerSocks chmpxid sock ctlsock isSock isCtlsock m).2 := by
  unfold setServerSocks
  split
  · exact SameRing.refl m
  · exact setSock_sameRing sock ctlsock isSock isCtlsock _ m

theorem removeServerSock_sameRing (chmpxid : ChmpxId) (sock : Int) (m : ChmpxMan) :
    SameRing m (removeServerSock chmpxid sock m).2 := by
  unfold removeServerSock
  split
  · exact SameRing.refl m
  · exact removeSock_sameRing sock _ m

theorem connectServer_sameRing (io : Outside) (chmpxid : ChmpxId) (s : EventSock) :
    SameRing s.man (s.connectServer io chmpxid).2.man :=
  connectServer_rel (R := fun s s₁ => SameRing s.man s₁.man) (fun s => SameRing.refl s.man)
    (fun s => SameRing.refl s.man) (fun _ _ _ s => setServerSocks_sameRing _ _ _ _ _ s.man)
    io chmpxid s

theorem getNextRingChmpxId_sameRing (io : Outside) (s : EventSock) :
    SameRing s.man (s.getNextRingChmpxId io).2.man :=
  getNextRingChmpxId_rel (R := fun s s₁ => SameRing s.man s₁.man) (fun s => SameRing.refl s.man)
    (fun h h' => h.trans h') (fun s => SameRing.refl s.man)
    (fun _ _ _ s => setServerSocks_sameRing _ _ _ _ _ s.man) io s

theorem eraseServerSocks_sameRing (io : Outside) (chmpxid : ChmpxId) (socks : List Int) :
    ∀ s : EventSock, SameRing s.man (eraseServerSocks io chmpxid socks s).man := by
  induction socks with
  | nil => exact fun s => SameRing.refl s.man
  | cons sock socks ih =>
    intro s
    have hcall := removeServerSock_sameRing chmpxid sock s.man
    exact hcall.trans (ih (s.call io (.removeServerSock chmpxid sock)).2)

theorem closeRechainLoop_sameRing (io : Outside) (now : ChmpxId) (selfpos : Ptr) (fuel : Nat) :
    ∀ (pos : Ptr) (s : EventSock),
      SameRing s.man (closeRechainLoop io now selfpos fuel pos s).man := by
  induction fuel with
  | zero => exact fun _ s => SameRing.refl s.man
  | succ fuel ih =>
    intro pos s
    rw [closeRechainLoop]
    split
    · exact SameRing.refl s.man
    · split
      · exact ih _ s
      · split
        · exact ih _ s
        · exact (eraseServerSocks_sameRing io _ _ s).trans (ih _ _)

theorem rechainRing_sameRing (io : Outside) (new : ChmpxId) (s : EventSock) :
    SameRing s.man (s.rechainRing io new).2.man := by
  unfold rechainRing
  have hconn := connectServer_sameRing io new s
  split
  · exact SameRing.refl s.man
  · dsimp only
    split
    · exact hconn
    · split
      · exact hconn
      · exact hconn.trans (closeRechainLoop_sameRing io new _ _ _ _)

theorem checkRechainLoop_sameRing (io : Outside) (new now : ChmpxId) (selfpos : Ptr)
    (fuel : Nat) : ∀ (pos : Ptr) (s : EventSock),
      SameRing s.man (checkRechainLoop io new now selfpos fuel pos s).2.man := by
  induction fuel with
  | zero => exact fun _ s => SameRing.refl s.man
  | succ fuel ih =>
    intro pos s
    rw [checkRechainLoop]
    split
    · exact SameRing.refl s.man
    · split
      · exact ih _ s
      · split
        · exact ih _ s
        · split
          · split
            · exact SameRing.refl s.man
            · exact rechainRing_sameRing io _ s
          · split
            · exact rechainRing_sameRing io _ s
            · exact ih _ s

theorem checkRechainRing_sameRing (io : Outside) (new : ChmpxId) (s : EventSock) :
    SameRing s.man (s.checkRechainRing io new).2.2.man := by
  unfold checkRechainRing
  split
  · exact SameRing.refl s.man
  · dsimp only
    split
    · exact SameRing.refl s.man
    · split
      · exact SameRing.refl s.man
      · exact checkRechainLoop_sameRing io _ _ _ _ _ s

theorem nextOfRing_sameRing (io : Outside) (com : RingCom) (s : EventSock) :
    SameRing s.man (s.nextOfRing io com).2.man := by
  have hnext := getNextRingChmpxId_sameRing io s
  cases com with
  | joinRing server =>
    have hcheck := checkRechainRing_sameRing io server s
    unfold nextOfRing
    dsimp only
    split
    · exact hcheck
    · exact hcheck.trans (getNextRingChmpxId_sameRing io _)
  | statusChange server =>
    exact (checkRechainRing_sameRing io server s).trans (getNextRingChmpxId_sameRing io _)
  | _ => exact hnext

theorem transfer_sameRing (io : Outside) (com : RingCom) (dept : ChmpxId) (s : EventSock) :
    SameRing s.man (s.transfer io com dept).2.man := by
  have hnext := nextOfRing_sameRing io com s
  unfold transfer
  dsimp only
  split
  · exact hnext
  · split
    · exact hnext
    · exact hnext

/-! ## The next server of a node with a view of the ring -/

/-- A node reads `ids` and has `up` of the statuses. -/
structure UpView (m : ChmpxMan) (ids : List ChmpxId) (up : ChmpxId → Bool) : Prop
    extends RingView m ids where
  up_eq : ∀ p ∈ m.nodes m.chmpxServers, (m.chmpx p).status.isUp = up (m.chmpx p).chmpxid

theorem SameRing.nodes (h : SameRing m m') :
    m'.nodes m'.chmpxServers = m.nodes m.chmpxServers := by
  unfold ChmpxMan.nodes ChmpxMan.first ChmpxMan.nodesFrom
  rw [h.chmpxServers, h.links, h.chmpxCount]

theorem SameRing.selfChmpxId (h : SameRing m m') : m'.getSelfChmpxId = m.getSelfChmpxId :=
  h.toSameShape.selfChmpxId

theorem SameRing.ringView (h : SameRing m m') (hv : RingView m ids) : RingView m' ids where
  wellFormed := by
    obtain ⟨svrs, frees, rest, hf⟩ := hv.wellFormed
    exact ⟨svrs, frees, rest, h.formed hf⟩
  isServerMode := by
    have hmode := hv.isServerMode
    unfold ChmpxMan.isServerMode at hmode ⊢
    rw [h.chmpxSelf]
    cases hself : m.chmpxSelf with
    | none =>
      rw [hself] at hmode
      cases hmode
    | some p =>
      rw [hself] at hmode
      exact (h.toSameShape.isServerMode p).trans hmode
  ids_eq := by
    rw [ringIds, h.nodes, List.map_congr_left fun p _ => h.chmpxid p]
    exact hv.ids_eq

theorem SameRing.upView (h : SameRing m m') (hv : UpView m ids up) : UpView m' ids up where
  toRingView := h.ringView hv.toRingView
  up_eq p hp := by
    rw [h.nodes] at hp
    rw [h.status, h.chmpxid]
    exact hv.up_eq p hp

theorem UpView.getNextRingChmpxId_eq (h : UpView m ids up) (hnd : ids.Nodup)
    (hx : (Circle.behind ids m.getSelfChmpxId).find? up = some next) :
    m.getNextRingChmpxId = next := by
  rw [h.toRingView.getNextRingChmpxId_eq hnd h.up_eq, hx]
  rfl

theorem UpView.mem_of_find (h : UpView m ids up)
    (hx : (Circle.behind ids m.getSelfChmpxId).find? up = some next) : next ∈ ids :=
  Circle.mem_of_mem_behind h.self_mem (List.mem_of_find?_eq_some hx)

/-- The event socket goes on to the server that the manager finds. -/
theorem UpView.sock_getNextRingChmpxId {s : EventSock} (h : UpView s.man ids up)
    (hnd : ids.Nodup) (io : Outside)
    (hx : (Circle.behind ids s.man.getSelfChmpxId).find? up = some next) :
    (s.getNextRingChmpxId io).1 = next := by
  have hm := h.getNextRingChmpxId_eq hnd hx
  have hvalid := h.valid (h.mem_of_find hx)
  unfold getNextRingChmpxId
  rw [hm, if_pos hvalid]

/-! ## Chaining anew -/

theorem checkRechainLoop_eq {s : EventSock} {svrs frees : List Ptr} {rest : List (List Ptr)}
    {p : Ptr} (h : Lists s.man svrs frees rest) (hhead : s.man.chmpxServers = svrs.head?)
    (hself : s.man.chmpxSelf = some p) (hp : p ∈ svrs) (io : Outside) (new now : ChmpxId)
    (fuel : Nat) :
    ∀ (q : Ptr) (w : List Ptr), WalkAt svrs p q w → w.length < fuel →
      checkRechainLoop io new now p fuel q s =
        match (w.map fun c => (s.man.chmpx c).chmpxid).find? fun x => x = now || x = new with
        | none => (false, s)
        | some x =>
          if x = now ∧ getServerSock s.man now ≠ [] then (false, s) else s.rechainRing io x := by
  induction fuel with
  | zero => exact fun _ w _ hw => absurd hw (Nat.not_lt_zero _)
  | succ fuel ih =>
    intro q w hw hlen
    rw [checkRechainLoop, h.getNextServerPos_eq hhead hself hp hw]
    cases w with
    | nil => rfl
    | cons c w =>
      have hc : c ∈ svrs := Circle.mem_of_mem_behind hp (hw.mem List.mem_cons_self)
      have hvalid : (s.man.chmpx c).chmpxid ≠ chmInvalidChmpxId := (h.isServer c hc).valid
      have hgo := ih c w hw.step (Nat.lt_of_succ_lt_succ hlen)
      rw [List.head?_cons]
      simp only [h.getServerBase_eq hc, if_neg hvalid, List.map_cons, List.find?_cons]
      by_cases hnow : now = (s.man.chmpx c).chmpxid
      · simp [hnow]
      · by_cases hnew : new = (s.man.chmpx c).chmpxid
        · simp [hnow, Ne.symm hnow, hnew]
        · have hcnow : ((s.man.chmpx c).chmpxid = now) = False := eq_false (Ne.symm hnow)
          have hcnew : ((s.man.chmpx c).chmpxid = new) = False := eq_false (Ne.symm hnew)
          rw [if_neg hnow, if_neg hnew, hgo]
          simp [hcnow, hcnew]

/-- A joined server that is up does not come before the first server that is up. -/
theorem find?_up_or {l : List ChmpxId} {server : ChmpxId} (hx : l.find? up = some next)
    (hup : up server = true) :
    l.find? (fun x => x = next || x = server) = some next := by
  induction l with
  | nil => cases hx
  | cons x l ih =>
    rw [List.find?_cons] at hx
    cases hux : up x with
    | true =>
      rw [hux] at hx
      obtain rfl := Option.some.inj hx
      simp
    | false =>
      rw [hux] at hx
      have hxn : x ≠ next := by
        rintro rfl
        have hnext := List.find?_some hx
        rw [hux] at hnext
        cases hnext
      have hxs : x ≠ server := by
        rintro rfl
        rw [hux] at hup
        cases hup
      rw [List.find?_cons]
      simpa [hxn, hxs] using ih hx

/-- JOIN_RING keeps to the next server: there is a socket to it, there cannot be one, or
it is the server that joins. -/
def KeepsNext (io : Outside) (com : RingCom) (next : ChmpxId) (s : EventSock) : Prop :=
  match com with
  | .joinRing server =>
    server = next ∨ getServerSock s.man next ≠ [] ∨ (s.connectServer io next).1 = false
  | _ => True

theorem rechainRing_fails {io : Outside} {s : EventSock}
    (h : (s.connectServer io next).1 = false) : (s.rechainRing io next).1 = false := by
  unfold rechainRing
  split
  · rfl
  · dsimp only
    rw [h]
    rfl

/-- A node that chains its ring anew for a server that joins has that server next. -/
theorem UpView.server_of_rechain {s : EventSock} (h : UpView s.man ids up) (hnd : ids.Nodup)
    {io : Outside} {server : ChmpxId} (hup : up server = true)
    (hx : (Circle.behind ids s.man.getSelfChmpxId).find? up = some next)
    (hkeep : KeepsNext io (.joinRing server) next s)
    (hre : (s.checkRechainRing io server).2.1 = true) : server = next := by
  have hm := h.getNextRingChmpxId_eq hnd hx
  obtain ⟨svrs, frees, rest, p, hf, hself, hp, hids, hid, -⟩ := h.toRingView.spec
  have hlen : (Circle.behind svrs p).length < s.man.chmpxCount + 1 := by
    have hperm := (Circle.cons_behind_perm hp).length_eq
    have hle : svrs.length ≤ s.man.chmpxCount := hf.lists.length_le List.mem_cons_self
    rw [List.length_cons] at hperm
    omega
  have hloop := checkRechainLoop_eq hf.lists hf.head hself hp io server next
    (s.man.chmpxCount + 1) p _ (Or.inl ⟨rfl, rfl⟩) hlen
  rw [hids] at hnd
  rw [hids, hid, Circle.behind_map hnd hp] at hx
  rw [find?_up_or hx hup] at hloop
  unfold checkRechainRing at hre
  rw [hm] at hre
  split at hre
  · cases hre
  · dsimp only at hre
    split at hre
    · cases hre
    · rw [hself] at hre
      dsimp only at hre
      rw [hloop] at hre
      dsimp only at hre
      rcases hkeep with hserver | hsock | hfail
      · exact hserver
      · rw [if_pos ⟨rfl, hsock⟩] at hre
        cases hre
      · split at hre
        · cases hre
        · rw [rechainRing_fails hfail] at hre
          cases hre

theorem UpView.nextOfRing_eq {s : EventSock} (h : UpView s.man ids up) (hnd : ids.Nodup)
    {io : Outside} {com : RingCom} (hup : ∀ server, com = .joinRing server → up server = true)
    (hx : (Circle.behind ids s.man.getSelfChmpxId).find? up = some next)
    (hkeep : KeepsNext io com next s) : (s.nextOfRing io com).1 = next := by
  have hafter : ∀ s' : EventSock, SameRing s.man s'.man → (s'.getNextRingChmpxId io).1 = next := by
    intro s' hs
    apply (hs.upView h).sock_getNextRingChmpxId hnd io
    rw [hs.selfChmpxId]
    exact hx
  cases com with
  | joinRing server =>
    have hre := h.server_of_rechain hnd (hup server rfl) hx hkeep
    have hs := checkRechainRing_sameRing io server s
    unfold nextOfRing
    dsimp only
    split
    · rename_i hr
      exact hre hr
    · exact hafter _ hs
  | statusChange server => exact hafter _ (checkRechainRing_sameRing io server s)
  | _ => exact hafter s (SameRing.refl s.man)

/-! ## The transfer -/

/-- A node that lists the departure sends on towards it. -/
theorem RingView.transfer_towards {s : EventSock} {io : Outside} {com : RingCom}
    (h : RingView s.man ids) (hnd : ids.Nodup) (hdept : dept ∈ ids)
    (hne : dept ≠ s.man.getSelfChmpxId) (ht : (s.transfer io com dept).1 = some next) :
    Circle.Towards ids s.man.getSelfChmpxId dept next := by
  have hs := nextOfRing_sameRing io com s
  have hv := hs.ringView h
  unfold transfer at ht
  dsimp only at ht
  split at ht
  · cases ht
  · rename_i hvalid
    split at ht
    · rename_i hsafe
      rw [Option.some.inj ht] at hvalid hsafe
      have htw := hv.towards hnd hvalid hdept (by rwa [hs.selfChmpxId]) hsafe
      rwa [hs.selfChmpxId] at htw
    · cases ht

/-- A node sends on to the first server that is up, if the departure is not before it. -/
theorem UpView.transfer_eq {s : EventSock} (h : UpView s.man ids up) (hnd : ids.Nodup)
    {io : Outside} {com : RingCom} (hup : ∀ server, com = .joinRing server → up server = true)
    (hdept : dept ∈ ids) (hx : (Circle.behind ids s.man.getSelfChmpxId).find? up = some next)
    (ht : Circle.Towards ids s.man.getSelfChmpxId dept next) (hkeep : KeepsNext io com next s) :
    (s.transfer io com dept).1 = some next := by
  have hs := nextOfRing_sameRing io com s
  have hv := hs.ringView h.toRingView
  have hmem := h.mem_of_find hx
  have hsafe := hv.safe_of_towards hnd hdept hmem (by rwa [hs.selfChmpxId])
  have hnext := h.nextOfRing_eq hnd hup hx hkeep
  unfold transfer
  dsimp only
  rw [hnext, if_neg (h.valid hmem), if_pos hsafe]

end EventSock
end Chm
