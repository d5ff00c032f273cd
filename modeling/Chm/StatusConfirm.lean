/-
STATUS_CONFIRM and the start of a merge.

The departure sends its server table around the ring.  Each server compares the table
with its own one, turns the result to an error when they differ, and sends the records
on as they came in.  Only a packet that comes back with success starts a merge.
-/
import Chm.Circulation
import Chm.CompareSvrs
import Chm.EventCalls

namespace Chm

theorem ComVersion.carry_carry (version : ComVersion) (svr : ChmpxSvr) :
    version.carry (version.carry svr) = version.carry svr := by
  cases version <;> rfl

namespace EventSock

/-- `PxComReceiveStatusConfirm` at the departure. -/
def receiveConfirmAround (io : Outside) (result : Bool) (s : EventSock) : Bool × EventSock :=
  let (next, s) := s.getNextRingChmpxId io
  if next = chmInvalidChmpxId then (false, s)
  else if result then
    -- While it is merging it does not start a new merge.
    if !s.checkAllStatusForMergeStart io then (true, s) else s.pxComSendMergeStart io next
  else
    let (_, s) := s.updateSelfLastStatusTime io
    match s.man.getSelfChmpxSvr with
    | none => (false, s)
    | some svr =>
      let (ok, s) := s.pxComSendStatusChange io next svr
      if !ok then (false, s)
      else
        match s.getChmpxSvrs io with
        | none => (false, s)
        | some svrs => s.pxComSendStatusConfirm io next svrs

/-- `PxComReceiveStatusConfirm` at another server, which answers with a packet to send on. -/
def receiveConfirmTransfer (io : Outside) (cmp : Comparing) (version : ComVersion)
    (dept : ChmpxId) (result : Bool) (svrs : List ChmpxSvr) (s : EventSock) :
    Bool × Option ComPkt × EventSock :=
  let (next, s) := s.getNextRingChmpxId io
  if next = chmInvalidChmpxId then (false, none, s)
  else
    let reqsvrs := svrs.map version.carry
    let result := result && s.man.compareChmpxSvrs cmp (io.heap s.calls) reqsvrs
    if isSafeDeptAndNextChmpxId s.man dept next then
      (true, some ⟨version, dept, next, .statusConfirm result (reqsvrs.map version.carry)⟩, s)
    else (true, none, s)

/-- `PxComReceiveStatusConfirm`. -/
def pxComReceiveStatusConfirm (io : Outside) (cmp : Comparing) (version : ComVersion)
    (dept : ChmpxId) (result : Bool) (svrs : List ChmpxSvr) (s : EventSock) :
    Bool × Option ComPkt × EventSock :=
  if dept = s.man.getSelfChmpxId then
    let (ok, s) := s.receiveConfirmAround io result
    (ok, none, s)
  else s.receiveConfirmTransfer io cmp version dept result svrs

/-- The table that a server compares a packet with. -/
def comparedTable (io : Outside) (s : EventSock) : List ChmpxSvr :=
  let (_, s) := s.getNextRingChmpxId io
  (s.getChmpxSvrs io).getD []

/-! ## What the handler sends -/

variable {io : Outside} {cmp : Comparing} {s : EventSock}

/-- The records of a packet are as its version has them. -/
def Carried (pkt : ComPkt) : Prop :=
  ∀ result svrs, pkt.body = .statusConfirm result svrs → svrs.map pkt.version.carry = svrs

/-- Anything but the start of a merge. -/
def NoMergeStart (pkt : ComPkt) : Prop :=
  Carried pkt ∧ ∀ result, pkt.body ≠ .mergeStart result

/-- The same, or the start of a merge from this node after a success. -/
def MergeStartOf (self : ChmpxId) (result : Bool) (pkt : ComPkt) : Prop :=
  Carried pkt ∧ ((∀ result', pkt.body ≠ .mergeStart result') ∨ result = true ∧ pkt.dept = self)

theorem NoMergeStart.mergeStartOf {self : ChmpxId} {result : Bool} {pkt : ComPkt}
    (h : NoMergeStart pkt) : MergeStartOf self result pkt := ⟨h.1, Or.inl h.2⟩

theorem statusChange_noMergeStart (s : EventSock) (chmpxid : ChmpxId) (svr : ChmpxSvr) :
    NoMergeStart (s.packet s.comprotoVer chmpxid (.statusChange true (s.comprotoVer.carry svr))) :=
  ⟨nofun, nofun⟩

theorem statusConfirm_noMergeStart (s : EventSock) (chmpxid : ChmpxId) (svrs : List ChmpxSvr) :
    NoMergeStart (s.packet s.comprotoVer chmpxid
      (.statusConfirm true (svrs.map s.comprotoVer.carry))) := by
  refine ⟨fun result svrs' h => ?_, nofun⟩
  obtain ⟨-, rfl⟩ := PxCom.statusConfirm.inj h
  rw [List.map_map]
  exact List.map_congr_left fun svr _ => s.comprotoVer.carry_carry svr

theorem exec_noMergeStart (io : Outside) (s : EventSock) (op : SockOp) :
    Posts NoMergeStart s (s.exec io op).2 :=
  Did.posts (exec_did statusChange_noMergeStart (fun _ _ => ⟨nofun, nofun⟩)
    statusConfirm_noMergeStart io s op)

/-- At the departure a merge starts only from a success. -/
theorem receiveConfirmAround_posts (io : Outside) (result : Bool) (s : EventSock) :
    Posts (MergeStartOf s.man.getSelfChmpxId result) s (s.receiveConfirmAround io result).2 := by
  unfold receiveConfirmAround
  have hn : Posts (MergeStartOf s.man.getSelfChmpxId result) s (s.getNextRingChmpxId io).2 :=
    (getNextRingChmpxId_did io s).posts
  have hself := (getNextRingChmpxId_sameRing io s).selfChmpxId
  dsimp only
  generalize s.getNextRingChmpxId io = r at hn hself ⊢
  split
  · exact hn
  · split
    · rename_i hresult
      split
      · exact hn
      · unfold pxComSendMergeStart
        split
        · exact hn
        · exact hn.trans (send_posts io ⟨nofun, Or.inr ⟨hresult, hself⟩⟩ r.2)
    · have hl := hn.call io (.server (.updateLastStatusTime chmInvalidChmpxId))
      split
      · exact hl
      · rename_i svr _
        have hc := hl.trans (Did.posts (pxComSendStatusChange_did
          (fun s chmpxid svr => (statusChange_noMergeStart s chmpxid svr).mergeStartOf)
          io r.1 svr _))
        split
        · exact hc
        · split
          · exact hc
          · exact hc.trans (Did.posts (pxComSendStatusConfirm_did
              (fun s chmpxid svrs => (statusConfirm_noMergeStart s chmpxid svrs).mergeStartOf)
              io _ _ _))

theorem receiveConfirmTransfer_posts (io : Outside) (cmp : Comparing) (version : ComVersion)
    (dept : ChmpxId) (result : Bool) (svrs : List ChmpxSvr) (s : EventSock) :
    Posts NoMergeStart s (s.receiveConfirmTransfer io cmp version dept result svrs).2.2 := by
  unfold receiveConfirmTransfer
  have hn : Posts NoMergeStart s (s.getNextRingChmpxId io).2 := (getNextRingChmpxId_did io s).posts
  dsimp only
  split
  · exact hn
  · split
    · exact hn
    · exact hn

/-- A packet that is sent on has its departure and its records, and success only if it had
it before and the tables agree. -/
theorem receiveConfirmTransfer_packet {version : ComVersion} {dept : ChmpxId} {result : Bool}
    {svrs : List ChmpxSvr} {pkt : ComPkt} (hcarried : svrs.map version.carry = svrs)
    (h : (s.receiveConfirmTransfer io cmp version dept result svrs).2.1 = some pkt) :
    pkt.version = version ∧ pkt.dept = dept ∧ ∃ result', pkt.body = .statusConfirm result' svrs ∧
      (result' = true → result = true ∧ TablesAgree (s.comparedTable io) svrs) := by
  unfold receiveConfirmTransfer at h
  dsimp only at h
  rw [hcarried] at h
  split at h
  · cases h
  · split at h
    · obtain rfl := Option.some.inj h
      refine ⟨rfl, rfl, _, by rw [hcarried], fun hresult => ?_⟩
      obtain ⟨hbefore, hcmp⟩ := Bool.and_eq_true_iff.mp hresult
      exact ⟨hbefore, ChmpxMan.tablesAgree hcmp⟩
    · cases h

end EventSock

/-! ## Nodes and packets -/

/-- A packet on its way, the records that it has started with, and the servers that have
sent it on, each with the table that it had then. -/
structure Travel where
  pkt : ComPkt
  snapshot : List ChmpxSvr
  passed : List (ChmpxId × List ChmpxSvr)
  deriving DecidableEq

/-- The nodes, the packets on their way, and the starts of merges that nodes have sent, each
with the packet that the node was handling. -/
structure ConfirmNet (ι : Type*) where
  nodes : ι → EventSock
  flying : List Travel
  starts : List (ComPkt × Option Travel)

/-- A node changes, runs a merge function or takes in a STATUS_CONFIRM; another packet goes
on; or a packet is used up or lost. -/
inductive ConfirmEvent (ι : Type*)
  | change (i : ι) (s : EventSock)
  | exec (i : ι) (io : Outside) (op : EventSock.SockOp)
  | confirm (i : ι) (io : Outside) (cmp : Comparing) (l₁ : List Travel) (p : Travel)
      (result : Bool) (svrs : List ChmpxSvr) (l₂ : List Travel)
  | pass (l₁ : List Travel) (p : Travel) (next : ChmpxId) (l₂ : List Travel)
  | drop (l₁ : List Travel) (p : Travel) (l₂ : List Travel)

namespace ConfirmNet

open EventSock

variable {ι : Type*} {net : ConfirmNet ι}

/-- The records of a packet. -/
def records : PxCom → List ChmpxSvr
  | .statusConfirm _ svrs => svrs
  | _ => []

def isMergeStart : PxCom → Bool
  | .mergeStart _ => true
  | _ => false

def Possible (net : ConfirmNet ι) : ConfirmEvent ι → Prop
  | .change i s => s.sent = (net.nodes i).sent
  | .exec _ _ _ => True
  | .confirm i _ _ l₁ p result svrs l₂ =>
    net.flying = l₁ ++ p :: l₂ ∧ p.pkt.body = .statusConfirm result svrs ∧
      p.pkt.term = (net.nodes i).man.getSelfChmpxId
  | .pass l₁ p _ l₂ =>
    net.flying = l₁ ++ p :: l₂ ∧ ∀ result svrs, p.pkt.body ≠ .statusConfirm result svrs
  | .drop l₁ p l₂ => net.flying = l₁ ++ p :: l₂

variable [DecidableEq ι]

/-- A node becomes `s`, the packets that it has sent on the way are added to `rest`, and
the starts of merges are noted with what the node was handling. -/
def launch (net : ConfirmNet ι) (i : ι) (s : EventSock) (rest : List Travel)
    (handling : Option Travel) : ConfirmNet ι :=
  let new := s.sent.drop (net.nodes i).sent.length
  { nodes := Function.update net.nodes i s
    flying := rest ++ new.map fun pkt => ⟨pkt, records pkt.body, []⟩
    starts := net.starts ++
      (new.filter fun pkt => isMergeStart pkt.body).map fun pkt => (pkt, handling) }

def happen (net : ConfirmNet ι) : ConfirmEvent ι → ConfirmNet ι
  | .change i s => { net with nodes := Function.update net.nodes i s }
  | .exec i io op => net.launch i ((net.nodes i).exec io op).2 net.flying none
  | .confirm i io cmp l₁ p result svrs l₂ =>
    let s := net.nodes i
    let (_, answer, s') := s.pxComReceiveStatusConfirm io cmp p.pkt.version p.pkt.dept result svrs
    let passed := p.passed ++ [(p.pkt.term, s.comparedTable io)]
    let on := answer.toList.map fun pkt => { p with pkt := pkt, passed := passed }
    net.launch i s' (l₁ ++ on ++ l₂) (some p)
  | .pass l₁ p next l₂ =>
    { net with flying := l₁ ++ { p with pkt := { p.pkt with term := next } } :: l₂ }
  | .drop l₁ _ l₂ => { net with flying := l₁ ++ l₂ }

/-- The nets of a run.  It starts without packets. -/
inductive Reachable : ConfirmNet ι → Prop
  | init (nodes : ι → EventSock) : Reachable ⟨nodes, [], []⟩
  | step {net : ConfirmNet ι} (e : ConfirmEvent ι) :
      Reachable net → net.Possible e → Reachable (net.happen e)

/-- A STATUS_CONFIRM with success has the records that it has started with, and every
server that has sent it on had a table that agrees with them. -/
def Agreed (p : Travel) : Prop :=
  ∀ svrs, p.pkt.body = .statusConfirm true svrs →
    svrs = p.snapshot ∧ ∀ passed ∈ p.passed, TablesAgree passed.2 svrs

/-- The start of a merge has been sent by the departure of a STATUS_CONFIRM that was back
with success. -/
def StartedBy (start : ComPkt × Option Travel) : Prop :=
  ∃ p svrs, start.2 = some p ∧ p.pkt.body = .statusConfirm true svrs ∧
    p.pkt.term = p.pkt.dept ∧ start.1.dept = p.pkt.dept ∧ Agreed p

/-- The invariant of a packet. -/
structure Confirmed (p : Travel) : Prop where
  carried : Carried p.pkt
  snapshot : ∀ result svrs, p.pkt.body = .statusConfirm result svrs → svrs = p.snapshot
  agrees : ∀ svrs, p.pkt.body = .statusConfirm true svrs →
    ∀ passed ∈ p.passed, TablesAgree passed.2 svrs

omit [DecidableEq ι] in
theorem Confirmed.agreed {p : Travel} (h : Confirmed p) : Agreed p :=
  fun svrs hbody => ⟨h.snapshot true svrs hbody, h.agrees svrs hbody⟩

structure Sound (net : ConfirmNet ι) : Prop where
  flying : ∀ p ∈ net.flying, Confirmed p
  starts : ∀ start ∈ net.starts, StartedBy start

omit [DecidableEq ι] in
theorem confirmed_new {pkt : ComPkt} (h : Carried pkt) : Confirmed ⟨pkt, records pkt.body, []⟩ where
  carried := h
  snapshot result svrs hbody := by
    show svrs = records pkt.body
    rw [show pkt.body = .statusConfirm result svrs from hbody]
    rfl
  agrees svrs _ passed hpassed := absurd hpassed List.not_mem_nil

omit [DecidableEq ι] in
theorem not_isMergeStart {body : PxCom} (h : ∀ result, body ≠ .mergeStart result) :
    isMergeStart body = false := by
  unfold isMergeStart
  split
  · rename_i result
    exact absurd rfl (h result)
  · rfl

/-- A node sends packets that are carried, and a start of a merge only on the packet it
handles. -/
theorem Sound.launch (h : Sound net) {i : ι} {s : EventSock} {rest : List Travel}
    {handling : Option Travel} {ok : ComPkt → Prop} (hposts : Posts ok (net.nodes i) s)
    (hcarried : ∀ pkt, ok pkt → Carried pkt)
    (hstart : ∀ pkt, ok pkt → isMergeStart pkt.body = true → StartedBy (pkt, handling))
    (hrest : ∀ p ∈ rest, Confirmed p) : Sound (net.launch i s rest handling) := by
  obtain ⟨new, hsent, hok⟩ := hposts
  have hnew : s.sent.drop (net.nodes i).sent.length = new := by
    rw [hsent, List.drop_left]
  constructor
  · intro p hp
    unfold ConfirmNet.launch at hp
    rw [hnew] at hp
    rcases List.mem_append.mp hp with hp | hp
    · exact hrest p hp
    · obtain ⟨pkt, hpkt, rfl⟩ := List.mem_map.mp hp
      exact confirmed_new (hcarried pkt (hok pkt hpkt))
  · intro start hs
    unfold ConfirmNet.launch at hs
    rw [hnew] at hs
    rcases List.mem_append.mp hs with hs | hs
    · exact h.starts start hs
    · obtain ⟨pkt, hpkt, rfl⟩ := List.mem_map.mp hs
      obtain ⟨hpkt, hms⟩ := List.mem_filter.mp hpkt
      exact hstart pkt (hok pkt hpkt) hms

/-- A server sends a STATUS_CONFIRM on. -/
theorem Confirmed.transfer {p : Travel} (h : Confirmed p) {s : EventSock} {io : Outside}
    {cmp : Comparing} {result : Bool} {svrs : List ChmpxSvr} {pkt : ComPkt}
    (hbody : p.pkt.body = .statusConfirm result svrs)
    (hanswer : (s.receiveConfirmTransfer io cmp p.pkt.version p.pkt.dept result svrs).2.1 =
      some pkt) :
    Confirmed { p with
      pkt := pkt
      passed := p.passed ++ [(p.pkt.term, s.comparedTable io)] } := by
  have hcarried := h.carried result svrs hbody
  obtain ⟨hver, -, result', hbody', hagree⟩ := receiveConfirmTransfer_packet hcarried hanswer
  constructor
  · intro result'' svrs'' hb
    rw [hbody'] at hb
    obtain ⟨-, rfl⟩ := PxCom.statusConfirm.inj hb
    rw [hver]
    exact hcarried
  · intro result'' svrs'' hb
    rw [hbody'] at hb
    obtain ⟨-, rfl⟩ := PxCom.statusConfirm.inj hb
    exact h.snapshot result svrs hbody
  · intro svrs'' hb passed hpassed
    rw [hbody'] at hb
    obtain ⟨hresult', rfl⟩ := PxCom.statusConfirm.inj hb
    obtain ⟨hresult, htable⟩ := hagree hresult'
    rcases List.mem_append.mp hpassed with hpassed | hpassed
    · exact h.agrees svrs (by rw [hbody, hresult]) passed hpassed
    · rw [List.mem_singleton.mp hpassed]
      exact htable

/-- One event. -/
theorem Sound.happen (h : Sound net) {e : ConfirmEvent ι} (hposs : net.Possible e) :
    Sound (net.happen e) := by
  cases e with
  | change i s => exact ⟨h.flying, h.starts⟩
  | exec i io op =>
    apply h.launch (exec_noMergeStart io (net.nodes i) op) (fun pkt hpkt => hpkt.1) ?_ h.flying
    intro pkt hpkt hms
    rw [not_isMergeStart hpkt.2] at hms
    cases hms
  | pass l₁ p next l₂ =>
    obtain ⟨hflying, hbody⟩ := hposs
    refine ⟨fun q hq => ?_, h.starts⟩
    rcases List.mem_append.mp hq with hq | hq
    · exact h.flying q (hflying ▸ List.mem_append_left _ hq)
    · rcases List.mem_cons.mp hq with rfl | hq
      · exact ⟨fun result svrs hb => absurd hb (hbody result svrs),
          fun result svrs hb => absurd hb (hbody result svrs),
          fun svrs hb => absurd hb (hbody true svrs)⟩
      · exact h.flying q (hflying ▸ List.mem_append_right _ (List.mem_cons_of_mem p hq))
  | drop l₁ p l₂ =>
    refine ⟨fun q hq => h.flying q ?_, h.starts⟩
    rw [show net.flying = l₁ ++ p :: l₂ from hposs]
    rcases List.mem_append.mp hq with hq | hq
    · exact List.mem_append_left _ hq
    · exact List.mem_append_right _ (List.mem_cons_of_mem p hq)
  | confirm i io cmp l₁ p result svrs l₂ =>
    obtain ⟨hflying, hbody, hterm⟩ := hposs
    have hp : Confirmed p := h.flying p (by rw [hflying]; simp)
    have hrest : ∀ q ∈ l₁ ++ l₂, Confirmed q := by
      intro q hq
      apply h.flying q
      rw [hflying]
      rcases List.mem_append.mp hq with hq | hq
      · exact List.mem_append_left _ hq
      · exact List.mem_append_right _ (List.mem_cons_of_mem p hq)
    unfold ConfirmNet.happen pxComReceiveStatusConfirm
    by_cases hdept : p.pkt.dept = (net.nodes i).man.getSelfChmpxId
    · simp only [if_pos hdept]
      apply h.launch (receiveConfirmAround_posts io result (net.nodes i)) (fun pkt hpkt => hpkt.1)
      · intro pkt hpkt hms
        rcases hpkt.2 with hno | ⟨hresult, hself⟩
        · rw [not_isMergeStart hno] at hms
          cases hms
        · exact ⟨p, svrs, rfl, by rw [hbody, hresult], hterm.trans hdept.symm,
            hself.trans hdept.symm, hp.agreed⟩
      · simpa using hrest
    · simp only [if_neg hdept]
      apply h.launch (receiveConfirmTransfer_posts io cmp p.pkt.version p.pkt.dept result svrs
        (net.nodes i)) (fun pkt hpkt => hpkt.1)
      · intro pkt hpkt hms
        rw [not_isMergeStart hpkt.2] at hms
        cases hms
      · intro q hq
        rw [List.append_assoc] at hq
        rcases List.mem_append.mp hq with hq | hq
        · exact hrest q (List.mem_append_left l₂ hq)
        · rcases List.mem_append.mp hq with hq | hq
          · obtain ⟨pkt, hpkt, rfl⟩ := List.mem_map.mp hq
            exact hp.transfer hbody (Option.mem_toList.mp hpkt)
          · exact hrest q (List.mem_append_right l₁ hq)

/-- A STATUS_CONFIRM that has kept its success went only through servers whose tables
agreed with it, and no merge starts but on such a packet that is back at its departure. -/
theorem reachable_confirmed (h : Reachable net) :
    (∀ p ∈ net.flying, Agreed p) ∧ ∀ start ∈ net.starts, StartedBy start := by
  have hs : Sound net := by
    induction h with
    | init nodes =>
      exact ⟨fun p hp => absurd hp List.not_mem_nil, fun p hp => absurd hp List.not_mem_nil⟩
    | step e _ hposs ih => exact ih.happen hposs
  exact ⟨fun p hp => (hs.flying p hp).agreed, hs.starts⟩

/-! ## A sample -/

open ChmpxMan RingNet

def sampleComparing : Comparing := ⟨sampleEnv, .name, fun _ _ => true⟩

def noTravel : Travel := ⟨⟨.v2, 0, 0, .mergeStart true⟩, [], []⟩

/-- The first of the three servers asks for a merge, and its packet goes around. -/
def askedNet : ConfirmNet (Fin 3) :=
  (ConfirmNet.mk sampleNodes [] []).happen (.exec 0 sampleOutside .requestMergeStart)

def askedTravel : Travel := askedNet.flying.headD noTravel

def backNet : ConfirmNet (Fin 3) :=
  askedNet.happen (.confirm 2 sampleOutside sampleComparing [] askedTravel true
    askedTravel.snapshot [])

def backTravel : Travel := backNet.flying.headD noTravel

def startedNet : ConfirmNet (Fin 3) :=
  backNet.happen (.confirm 0 sampleOutside sampleComparing [] backTravel true
    backTravel.snapshot [])

theorem startedNet_reachable : Reachable backNet ∧ Reachable startedNet := by
  have hasked : Reachable askedNet := .step _ (.init sampleNodes) trivial
  have hback : Reachable backNet := by
    refine .step _ hasked ⟨?_, ?_, ?_⟩ <;> decide +kernel
  refine ⟨hback, .step _ hback ⟨?_, ?_, ?_⟩⟩ <;> decide +kernel

theorem reachable_confirmed_sample : backTravel.passed.length = 1 ∧ Agreed backTravel ∧
    StartedBy (⟨.v2, sampleId 97, sampleId 99, .mergeStart true⟩, some backTravel) :=
  ⟨by decide +kernel,
    (reachable_confirmed startedNet_reachable.1).1 backTravel (by decide +kernel),
    (reachable_confirmed startedNet_reachable.2).2 _ (by decide +kernel)⟩

end ConfirmNet
end Chm
