/-
What the merge functions do to the event socket.

Each of them is a run of operations of the manager, of packets and of writes of the flags of the
merge.  The only statuses that they give to other servers are the two of down servers, and none
of them merges records.
-/
import Chm.EventSock

namespace Chm

namespace EventSock

variable {m m₁ m₂ : ChmpxMan} {io : Outside} {s s₁ s₂ : EventSock}

/-- One operation that meets `ok`, or a write of `last_chmpxid`. -/
inductive Act (ok : AreaOp → Prop) (m : ChmpxMan) : ChmpxMan → Prop
  | op (env : Env) (op : AreaOp) : ok op → Act ok m (m.execArea env op).2
  | last (chmpxid : ChmpxId) : Act ok m { m with lastChmpxid := chmpxid }

/-- Any number of them. -/
def Ran (ok : AreaOp → Prop) : ChmpxMan → ChmpxMan → Prop := Relation.ReflTransGen (Act ok)

/-- The operations of the merge functions. -/
def MergeOp : AreaOp → Prop
  | .server (.mergeChmpxSvrs _ _) => False
  | .server (.setServerStatus _ status _) =>
    status = ChmpxSts.srvinDownDeleted ∨ status = ChmpxSts.srvoutDownNormal
  | .server _ => True
  | .reloadConfiguration _ _ => True
  | .setServerSocks _ _ _ _ _ => True
  | _ => False

section

variable {ok : AreaOp → Prop}

theorem Ran.refl (ok : AreaOp → Prop) (m : ChmpxMan) : Ran ok m m := Relation.ReflTransGen.refl

theorem Ran.trans (h : Ran ok m m₁) (h' : Ran ok m₁ m₂) : Ran ok m m₂ :=
  Relation.ReflTransGen.trans h h'

theorem Ran.of_eq (h : m₁ = m) : Ran ok m m₁ := by
  rw [h]
  exact Ran.refl ok m

/-- A property that every operation keeps is kept by a run of them. -/
theorem Ran.keeps {P : ChmpxMan → Prop} (h : Ran ok m m₁)
    (hop : ∀ (env : Env) (op : AreaOp) (m : ChmpxMan), ok op → P m → P (m.execArea env op).2)
    (hlast : ∀ (chmpxid : ChmpxId) (m : ChmpxMan), P m → P { m with lastChmpxid := chmpxid })
    (hp : P m) : P m₁ := by
  induction h with
  | refl => exact hp
  | tail _ hact ih =>
    cases hact with
    | op env op hok => exact hop env op _ hok ih
    | last chmpxid => exact hlast chmpxid _ ih

end

/-- One thing that a merge function does; the packets that it sends meet `ok`. -/
inductive Doing (ok : ComPkt → Prop) (s : EventSock) : EventSock → Prop
  | call (io : Outside) (op : AreaOp) : MergeOp op → Doing ok s (s.call io op).2
  | send (io : Outside) (pkt : ComPkt) : ok pkt → Doing ok s (s.send io pkt).2
  | last (chmpxid : ChmpxId) : Doing ok s { s with man := { s.man with lastChmpxid := chmpxid } }
  | flags {s₁ : EventSock} : s₁.man = s.man → s₁.sent = s.sent → Doing ok s s₁

/-- Any number of them. -/
def Did (ok : ComPkt → Prop) : EventSock → EventSock → Prop := Relation.ReflTransGen (Doing ok)

variable {ok : ComPkt → Prop}

theorem Did.refl (ok : ComPkt → Prop) (s : EventSock) : Did ok s s := Relation.ReflTransGen.refl

theorem Did.trans (h : Did ok s s₁) (h' : Did ok s₁ s₂) : Did ok s s₂ :=
  Relation.ReflTransGen.trans h h'

theorem Did.call (h : Did ok s s₁) (io : Outside) {op : AreaOp} (hop : MergeOp op) :
    Did ok s (s₁.call io op).2 := h.tail (.call io op hop)

theorem Did.flags (h : Did ok s s₁) (hman : s₂.man = s₁.man) (hsent : s₂.sent = s₁.sent) :
    Did ok s s₂ := h.tail (.flags hman hsent)

theorem send_did (io : Outside) {pkt : ComPkt} (h : ok pkt) (s : EventSock) :
    Did ok s (s.send io pkt).2 := Relation.ReflTransGen.single (.send io pkt h)

/-- The manager goes through its own operations only. -/
theorem Did.ran (h : Did ok s s₁) : Ran MergeOp s.man s₁.man := by
  induction h with
  | refl => exact Ran.refl MergeOp s.man
  | tail _ hdoing ih =>
    refine ih.trans ?_
    cases hdoing with
    | call io op hop => exact Relation.ReflTransGen.single (.op (io.env _) op hop)
    | send io pkt => exact Ran.refl MergeOp _
    | last chmpxid => exact Relation.ReflTransGen.single (.last chmpxid)
    | flags hman => exact Ran.of_eq hman

/-! ## Packets -/

/-- From `s` to `s₁` packets have been sent, and all of them meet `ok`. -/
def Posts (ok : ComPkt → Prop) (s s₁ : EventSock) : Prop :=
  ∃ new, s₁.sent = s.sent ++ new ∧ ∀ pkt ∈ new, ok pkt

theorem Posts.of_eq (h : s₁.sent = s.sent) : Posts ok s s₁ :=
  ⟨[], by rw [h, List.append_nil], fun _ hpkt => absurd hpkt List.not_mem_nil⟩

theorem Posts.refl (ok : ComPkt → Prop) (s : EventSock) : Posts ok s s := Posts.of_eq rfl

theorem Posts.trans (h : Posts ok s s₁) (h' : Posts ok s₁ s₂) : Posts ok s s₂ := by
  obtain ⟨new, he, hok⟩ := h
  obtain ⟨new', he', hok'⟩ := h'
  refine ⟨new ++ new', by rw [he', he, List.append_assoc], fun pkt hpkt => ?_⟩
  rcases List.mem_append.mp hpkt with hpkt | hpkt
  · exact hok pkt hpkt
  · exact hok' pkt hpkt

theorem Posts.call (h : Posts ok s s₁) (io : Outside) (op : AreaOp) :
    Posts ok s (s₁.call io op).2 := h.trans (Posts.of_eq rfl)

theorem send_posts (io : Outside) {pkt : ComPkt} (h : ok pkt) (s : EventSock) :
    Posts ok s (s.send io pkt).2 := by
  unfold send
  dsimp only
  split
  · exact ⟨[pkt], rfl, fun pkt' hpkt => by rwa [List.mem_singleton.mp hpkt]⟩
  · exact Posts.of_eq rfl

/-- All that a merge function does adds packets that meet `ok`. -/
theorem Did.posts (h : Did ok s s₁) : Posts ok s s₁ := by
  induction h with
  | refl => exact Posts.refl ok s
  | tail _ hdoing ih =>
    cases hdoing with
    | call io op => exact ih.call io op
    | send io pkt hpkt => exact ih.trans (send_posts io hpkt _)
    | last chmpxid => exact ih.trans (Posts.of_eq rfl)
    | flags _ hsent => exact ih.trans (Posts.of_eq hsent)

/-! ## Sending leaves the manager -/

theorem send_man (io : Outside) (pkt : ComPkt) (s : EventSock) :
    (s.send io pkt).2.man = s.man := rfl

theorem pxComSendSlavesStatusChange_man (io : Outside) (svr : ChmpxSvr) (s : EventSock) :
    (s.pxComSendSlavesStatusChange io svr).man = s.man := by
  unfold pxComSendSlavesStatusChange
  generalize (s.man.getSlaveChmpxIds.filter fun chmpxid => !s.man.isServerChmpxId chmpxid) = ids
  induction ids generalizing s with
  | nil => rfl
  | cons chmpxid ids ih =>
    rw [List.foldl_cons, ih]
    exact send_man io _ s

theorem pxComSendStatusChange_man (io : Outside) (chmpxid : ChmpxId) (svr : ChmpxSvr)
    (s : EventSock) : (s.pxComSendStatusChange io chmpxid svr).2.man = s.man := by
  unfold pxComSendStatusChange
  split
  · rfl
  · dsimp only
    split
    · exact send_man io _ s
    · rw [pxComSendSlavesStatusChange_man]
      exact send_man io _ s

theorem noticeStatus_man (io : Outside) (chmpxid : ChmpxId) (svr : ChmpxSvr) (s : EventSock) :
    (s.noticeStatus io chmpxid svr).2.man = s.man := by
  unfold noticeStatus
  split
  · exact pxComSendSlavesStatusChange_man io svr s
  · exact pxComSendStatusChange_man io chmpxid svr s

/-- The merge functions. -/
inductive SockOp
  | mergeStart
  | mergeAbort
  | mergeComplete
  | mergeDone
  | requestMergeStart
  | requestMergeComplete

def exec (io : Outside) (s : EventSock) : SockOp → Bool × EventSock
  | .mergeStart => s.mergeStart io
  | .mergeAbort => s.mergeAbort io
  | .mergeComplete => s.mergeComplete io
  | .mergeDone => s.mergeDone io
  | .requestMergeStart => s.requestMergeStart io
  | .requestMergeComplete => s.requestMergeComplete io

/-! ## The ring -/

section

variable {R : EventSock → EventSock → Prop} (hrefl : ∀ s, R s s)
  (htrans : ∀ {s s₁ s₂}, R s s₁ → R s₁ s₂ → R s s₂)
  (hfails : ∀ s : EventSock, R s { s with calls := s.calls + 1 })
  (hconnects : ∀ io chmpxid sock s,
    R s (s.call io (.setServerSocks chmpxid sock chmInvalidSock true false)).2)

include hrefl hfails hconnects

/-- What a connection that fails and one that is made both do, `ConnectServer` does. -/
theorem connectServer_rel (io : Outside) (chmpxid : ChmpxId) (s : EventSock) :
    R s (s.connectServer io chmpxid).2 := by
  unfold connectServer
  split
  · exact hrefl s
  · split
    · exact hrefl s
    · split
      · exact hfails s
      · exact hconnects io chmpxid _ s

include htrans

theorem nextRingLoop_rel (io : Outside) (selfpos : Ptr) (fuel : Nat) :
    ∀ (pos : Ptr) (s : EventSock), R s (nextRingLoop io selfpos fuel pos s).2 := by
  induction fuel with
  | zero => exact fun _ s => hrefl s
  | succ fuel ih =>
    intro pos s
    unfold nextRingLoop
    split
    · exact hrefl s
    · split
      · exact ih _ s
      · rename_i chmpxid _
        have hc := connectServer_rel hrefl hfails hconnects io chmpxid s
        dsimp only
        split
        · split
          · exact hc
          · exact htrans hc (ih _ _)
        · exact ih _ s

/-- And so does the way to the next server of the ring. -/
theorem getNextRingChmpxId_rel (io : Outside) (s : EventSock) :
    R s (s.getNextRingChmpxId io).2 := by
  unfold getNextRingChmpxId
  split
  · exact hrefl s
  · split
    · exact hrefl s
    · exact nextRingLoop_rel hrefl htrans hfails hconnects io _ _ _ s

end

theorem getNextRingChmpxId_did (io : Outside) (s : EventSock) :
    Did ok s (s.getNextRingChmpxId io).2 :=
  getNextRingChmpxId_rel (Did.refl ok) Did.trans (fun s => (Did.refl ok s).flags rfl rfl)
    (fun io _ _ s => (Did.refl ok s).call io trivial) io s

/-! ## Status changes -/

section

variable (hst : ∀ (s : EventSock) (chmpxid : ChmpxId) (svr : ChmpxSvr),
  ok (s.packet s.comprotoVer chmpxid (.statusChange true (s.comprotoVer.carry svr))))

include hst

theorem pxComSendSlavesStatusChange_did (io : Outside) (svr : ChmpxSvr) (s : EventSock) :
    Did ok s (s.pxComSendSlavesStatusChange io svr) := by
  unfold pxComSendSlavesStatusChange
  generalize (s.man.getSlaveChmpxIds.filter fun chmpxid => !s.man.isServerChmpxId chmpxid) = ids
  induction ids generalizing s with
  | nil => exact Did.refl ok s
  | cons chmpxid ids ih =>
    rw [List.foldl_cons]
    exact (send_did io (hst s chmpxid svr) s).trans (ih _)

theorem pxComSendStatusChange_did (io : Outside) (chmpxid : ChmpxId) (svr : ChmpxSvr)
    (s : EventSock) : Did ok s (s.pxComSendStatusChange io chmpxid svr).2 := by
  unfold pxComSendStatusChange
  split
  · exact Did.refl ok s
  · have hs := send_did io (hst s chmpxid svr) s
    dsimp only
    split
    · exact hs
    · exact hs.trans (pxComSendSlavesStatusChange_did hst io svr _)

theorem noticeStatus_did (io : Outside) (chmpxid : ChmpxId) (svr : ChmpxSvr) (s : EventSock) :
    Did ok s (s.noticeStatus io chmpxid svr).2 := by
  unfold noticeStatus
  split
  · exact pxComSendSlavesStatusChange_did hst io svr s
  · exact pxComSendStatusChange_did hst io chmpxid svr s

theorem changeStatusBeforeMergeStart_did (io : Outside) (s : EventSock) :
    Did ok s (s.changeStatusBeforeMergeStart io).2 := by
  unfold changeStatusBeforeMergeStart
  split
  · exact Did.refl ok s
  · split
    · exact Did.refl ok s
    · rename_i status _
      have hs : Did ok s (s.setSelfStatus io status).2 := (Did.refl ok s).call io trivial
      dsimp only
      split
      · exact hs
      · have hn := hs.trans (getNextRingChmpxId_did io (s.setSelfStatus io status).2)
        split
        · exact hn
        · exact hn.trans (noticeStatus_did hst io _ _ _)

omit hst in
theorem downSvrStatus_mergeOp (type : DownSvrMerge) (chmpxid : ChmpxId) (b : Bool) :
    MergeOp (.server (.setServerStatus chmpxid (downSvrStatus type) b)) := by
  cases type
  · exact Or.inl rfl
  · exact Or.inr rfl
  · exact Or.inr rfl

theorem changeDownSvrLoop_did (io : Outside) (type : DownSvrMerge) (chmpxid : ChmpxId)
    (svrs : List ChmpxSvr) :
    ∀ s : EventSock, Did ok s (changeDownSvrLoop io type chmpxid svrs s).2 := by
  induction svrs with
  | nil => exact fun s => Did.refl ok s
  | cons svr svrs ih =>
    intro s
    unfold changeDownSvrLoop
    split
    · exact ih s
    · have hs : Did ok s (s.setServerStatus io svr.chmpxid (downSvrStatus type)).2 :=
        (Did.refl ok s).call io (downSvrStatus_mergeOp type _ _)
      generalize s.setServerStatus io svr.chmpxid (downSvrStatus type) = r at hs ⊢
      have hb : Did ok s (if r.1 = true ∧ type = .complete then
          r.2.setServerBaseHash io svr.chmpxid chmInvalidHashVal else (r.1, r.2)).2 := by
        split
        · exact hs.call io trivial
        · exact hs
      dsimp only
      generalize (if r.1 = true ∧ type = .complete then
          r.2.setServerBaseHash io svr.chmpxid chmInvalidHashVal else (r.1, r.2)) = t at hb ⊢
      have hu : Did ok s (t.2.updateHash io .pending).2 := hb.call io trivial
      generalize t.2.updateHash io .pending = u at hu ⊢
      split
      · exact hb.trans (ih t.2)
      · split
        · exact hu
        · refine Did.trans ?_ (ih _)
          split
          · exact hu
          · exact hu.trans (noticeStatus_did hst io _ _ _)

theorem changeDownSvrStatusByMerge_did (io : Outside) (type : DownSvrMerge) (s : EventSock) :
    Did ok s (s.changeDownSvrStatusByMerge io type).2 := by
  unfold changeDownSvrStatusByMerge
  split
  · exact Did.refl ok s
  · exact (getNextRingChmpxId_did io s).trans (changeDownSvrLoop_did hst io type _ _ _)

theorem mergeComplete_did (io : Outside) (s : EventSock) :
    Did ok s (s.mergeComplete io).2 := by
  unfold mergeComplete
  have hd := changeDownSvrStatusByMerge_did hst io .complete s
  dsimp only
  generalize (s.changeDownSvrStatusByMerge io .complete).2 = t at hd ⊢
  split
  · exact hd
  · rename_i hash _
    split
    · exact hd
    · rename_i status _
      have hb : Did ok s (t.setSelfBaseHash io hash).2 := hd.call io trivial
      generalize t.setSelfBaseHash io hash = u at hb ⊢
      split
      · exact hb
      · have hs : Did ok s (u.2.setSelfStatus io status).2 := hb.call io trivial
        generalize u.2.setSelfStatus io status = v at hs ⊢
        split
        · exact hs
        · have htime : Did ok s (v.2.updateSelfLastStatusTime io).2 := hs.call io trivial
          have hl : Did ok s ((v.2.updateSelfLastStatusTime io).2.reloadConfiguration io).2 :=
            htime.call io trivial
          split
          · exact hl
          · exact (hl.trans (getNextRingChmpxId_did io _)).trans
              (noticeStatus_did hst io _ _ _)

theorem mergeAbort_did (io : Outside) (s : EventSock) : Did ok s (s.mergeAbort io).2 := by
  unfold mergeAbort
  have ht : Did ok s (if s.isDoMerge ∧ io.hasThread s.calls then { s with isRunMerge := false }
      else s) := by
    split
    · exact (Did.refl ok s).flags rfl rfl
    · exact Did.refl ok s
  dsimp only
  generalize (if s.isDoMerge ∧ io.hasThread s.calls then { s with isRunMerge := false }
      else s) = t at ht ⊢
  have hs : Did ok s (t.setSelfStatus io (statusOfMergeAbort t.man.getSelfStatus)).2 :=
    ht.call io trivial
  generalize t.setSelfStatus io (statusOfMergeAbort t.man.getSelfStatus) = u at hs ⊢
  split
  · exact hs
  · have hu : Did ok s (u.2.updateHash io .pending).2 := hs.call io trivial
    generalize u.2.updateHash io .pending = v at hu ⊢
    split
    · exact hu
    · split
      · exact hu
      · rename_i svr _
        have hn := (hu.trans (getNextRingChmpxId_did io v.2)).trans
          (noticeStatus_did hst io (v.2.getNextRingChmpxId io).1 svr _)
        split
        · exact hn
        · exact hn.trans (changeDownSvrStatusByMerge_did hst io .abort _)

/-! ## Complete, done and start -/

section

variable (hcomplete : ∀ (s : EventSock) (chmpxid : ChmpxId),
  ok (s.packet .v2 chmpxid (.mergeComplete true)))

include hcomplete

omit hst in
theorem pxComSendMergeComplete_did (io : Outside) (chmpxid : ChmpxId) (s : EventSock) :
    Did ok s (s.pxComSendMergeComplete io chmpxid).2 := by
  unfold pxComSendMergeComplete
  split
  · exact Did.refl ok s
  · exact send_did io (hcomplete s chmpxid) s

theorem requestMergeComplete_did (io : Outside) (s : EventSock) :
    Did ok s (s.requestMergeComplete io).2 := by
  unfold requestMergeComplete
  split
  · exact Did.refl ok s
  · have hn : Did ok s (s.getNextRingChmpxId io).2 := getNextRingChmpxId_did io s
    dsimp only
    generalize s.getNextRingChmpxId io = r at hn ⊢
    split
    · have hflag : Did ok s { r.2 with isMergeDoneProcessing := false } :=
        hn.flags rfl rfl
      exact hflag.trans (mergeComplete_did hst io _)
    · have hl : Did ok s (r.2.updateSelfLastStatusTime io).2 := hn.call io trivial
      split
      · exact hl
      · rename_i svr _
        have hc := hl.trans (pxComSendStatusChange_did hst io r.1 svr _)
        split
        · exact hc
        · exact hc.trans (pxComSendMergeComplete_did hcomplete io _ _)

theorem afterMergeDone_did (io : Outside) (s : EventSock) :
    Did ok s (s.afterMergeDone io).2 := by
  unfold afterMergeDone
  have hn : Did ok s (s.getNextRingChmpxId io).2 := getNextRingChmpxId_did io s
  dsimp only
  generalize s.getNextRingChmpxId io = r at hn ⊢
  have hrest : ∀ t : Bool × Bool × EventSock, Did ok s t.2.2 →
      Did ok s (if t.1 then (false, t.2.2)
        else if !t.2.2.isAutoMerge then (true, t.2.2)
        else if t.2.1 then (true, (t.2.2.requestMergeComplete io).2)
        else (true, { t.2.2 with isMergeDoneProcessing := true })).2 := by
    intro t ht
    split
    · exact ht
    · split
      · exact ht
      · split
        · exact ht.trans (requestMergeComplete_did hst hcomplete io t.2.2)
        · exact ht.flags rfl rfl
  apply hrest
  split
  · exact hn
  · rename_i svr _
    split
    · have hsl := hn.trans (pxComSendSlavesStatusChange_did hst io svr r.2)
      split
      · exact hsl.trans (requestMergeComplete_did hst hcomplete io _)
      · exact hsl
    · exact hn.trans (pxComSendStatusChange_did hst io r.1 _ _)

theorem mergeDone_did (io : Outside) (s : EventSock) : Did ok s (s.mergeDone io).2 := by
  unfold mergeDone
  dsimp only
  split
  · exact Did.refl ok s
  · split
    · exact Did.refl ok s
    · split
      · exact Did.refl ok s
      · have hs : Did ok s (s.setSelfStatus io s.man.getSelfStatus.setDone).2 :=
          (Did.refl ok s).call io trivial
        split
        · exact hs
        · exact hs.trans (afterMergeDone_did hst hcomplete io _)

omit hst hcomplete in
theorem getServerChmpxIdByHashs_did (hash : ChmHash) (s : EventSock) :
    Did ok s (s.getServerChmpxIdByHashs hash).2 := by
  show Did ok s { s with
    man := (s.man.getServerChmpxIdAndBaseHashByHashs hash [] [] false true true).2.2.2 }
  unfold ChmpxMan.getServerChmpxIdAndBaseHashByHashs
  split
  · exact Did.refl ok s
  · have hlast : ∀ chmpxid, Did ok s { s with
        man := if chmpxid = chmInvalidChmpxId then s.man
          else { s.man with lastChmpxid := chmpxid } } := by
      intro chmpxid
      split
      · exact Did.refl ok s
      · exact Relation.ReflTransGen.single (.last chmpxid)
    exact hlast _

omit hst hcomplete in
theorem getServerChmpxIdByBaseHash_did (basehash : ChmHash) (s : EventSock) :
    Did ok s (s.getServerChmpxIdByBaseHash basehash).2 :=
  (getServerChmpxIdByHashs_did basehash s).trans (getServerChmpxIdByHashs_did _ _)

theorem runMerge_did (io : Outside) (s : EventSock) : Did ok s (s.runMerge io).2 := by
  unfold runMerge
  split
  · exact Did.refl ok s
  · split
    · exact Did.refl ok s
    · split
      · exact mergeDone_did hst hcomplete io s
      · rename_i basehash _ _
        have hl : Did ok s (if s.man.isPendingExchangeData then
            (s.man.getServerChmpxIds false, s)
          else s.getServerChmpxIdByBaseHash basehash).2 := by
          split
          · exact Did.refl ok s
          · exact getServerChmpxIdByBaseHash_did basehash s
        dsimp only
        generalize (if s.man.isPendingExchangeData then (s.man.getServerChmpxIds false, s)
          else s.getServerChmpxIdByBaseHash basehash) = r at hl ⊢
        generalize ((r.1.filter (· ≠ r.2.man.getSelfChmpxId)).eraseDups) = ids
        have hm : Did ok s { r.2 with mergeidmap := ids.map fun chmpxid => (chmpxid, .inival) } :=
          hl.flags rfl rfl
        split
        · exact hm.trans (mergeDone_did hst hcomplete io _)
        · split
          · exact hm.flags rfl rfl
          · exact hm.flags rfl rfl

theorem mergeStart_did (io : Outside) (s : EventSock) : Did ok s (s.mergeStart io).2 := by
  unfold mergeStart
  have hc := changeStatusBeforeMergeStart_did hst io s
  dsimp only
  split
  · exact hc
  · have hd := hc.trans (changeDownSvrStatusByMerge_did hst io .start _)
    split
    · exact hd.trans (runMerge_did hst hcomplete io _)
    · exact hd.trans (mergeDone_did hst hcomplete io _)

section

variable (hconfirm : ∀ (s : EventSock) (chmpxid : ChmpxId) (svrs : List ChmpxSvr),
  ok (s.packet s.comprotoVer chmpxid (.statusConfirm true (svrs.map s.comprotoVer.carry))))

include hconfirm

omit hst hcomplete in
theorem pxComSendStatusConfirm_did (io : Outside) (chmpxid : ChmpxId) (svrs : List ChmpxSvr)
    (s : EventSock) : Did ok s (s.pxComSendStatusConfirm io chmpxid svrs).2 := by
  unfold pxComSendStatusConfirm
  split
  · exact Did.refl ok s
  · exact send_did io (hconfirm s chmpxid svrs) s

theorem requestMergeStart_did (io : Outside) (s : EventSock) :
    Did ok s (s.requestMergeStart io).2 := by
  unfold requestMergeStart
  split
  · exact Did.refl ok s
  · have hn : Did ok s (s.getNextRingChmpxId io).2 := getNextRingChmpxId_did io s
    dsimp only
    split
    · exact hn.trans (mergeStart_did hst hcomplete io _)
    · have hl : Did ok s ((s.getNextRingChmpxId io).2.updateSelfLastStatusTime io).2 :=
        hn.call io trivial
      split
      · exact hl
      · exact hl.trans (pxComSendStatusConfirm_did hconfirm io _ _ _)

theorem exec_did (io : Outside) (s : EventSock) (op : SockOp) : Did ok s (s.exec io op).2 := by
  cases op with
  | mergeStart => exact mergeStart_did hst hcomplete io s
  | mergeAbort => exact mergeAbort_did hst io s
  | mergeComplete => exact mergeComplete_did hst io s
  | mergeDone => exact mergeDone_did hst hcomplete io s
  | requestMergeStart => exact requestMergeStart_did hst hcomplete hconfirm io s
  | requestMergeComplete => exact requestMergeComplete_did hst hcomplete io s

end

end

end

/-! ## Runs -/

theorem exec_ran (io : Outside) (s : EventSock) (op : SockOp) :
    Ran MergeOp s.man (s.exec io op).2.man := by
  have h : Did (fun _ => True) s (s.exec io op).2 :=
    exec_did (fun _ _ _ => trivial) (fun _ _ => trivial) (fun _ _ _ => trivial) io s op
  exact h.ran

/-- The event sockets that a run reaches: from a manager that `Initialize` has set up, by
operations of the manager that meet `ok`, by the merge functions, and by whatever leaves
the manager as it is. -/
inductive Reachable (ok : Env → AreaOp → ChmpxMan → Prop) : EventSock → Prop
  | init {env : Env} {cfg : ChmCfgInfo} {s : EventSock} :
      ChmpxMan.initialized env cfg = some s.man → Reachable ok s
  | manager {s : EventSock} (env : Env) (op : AreaOp) :
      Reachable ok s → ok env op s.man → Reachable ok { s with man := (s.man.execArea env op).2 }
  | merge {s : EventSock} (io : Outside) (op : SockOp) :
      Reachable ok s → Reachable ok (s.exec io op).2
  | elsewhere {s s' : EventSock} : Reachable ok s → s'.man = s.man → Reachable ok s'

/-- A property of the manager that `Initialize` establishes and every operation keeps. -/
theorem Reachable.invariant {ok : Env → AreaOp → ChmpxMan → Prop} {P : ChmpxMan → Prop}
    (h : Reachable ok s)
    (hinit : ∀ {env cfg m}, ChmpxMan.initialized env cfg = some m → P m)
    (hop : ∀ (env : Env) (op : AreaOp) (m : ChmpxMan), ok env op m → P m → P (m.execArea env op).2)
    (hmerge : ∀ (env : Env) (op : AreaOp) (m : ChmpxMan), MergeOp op → P m →
      P (m.execArea env op).2)
    (hlast : ∀ (chmpxid : ChmpxId) (m : ChmpxMan), P m → P { m with lastChmpxid := chmpxid }) :
    P s.man := by
  induction h with
  | init hrun => exact hinit hrun
  | manager env op _ hok ih => exact hop env op _ hok ih
  | @merge s io op _ ih => exact (exec_ran io s op).keeps hmerge hlast ih
  | elsewhere _ he ih =>
    rw [he]
    exact ih

end EventSock
end Chm
