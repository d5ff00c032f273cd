/-
The MERGE_COMPLETE packets of one request.

A request sends one packet around the ring.  A server that does not complete sends the
packet on and starts a lap of its own, the departure as well as the others.  While only
servers without a packet of their own do so, no departure has two packets on their way.
-/
import Chm.CompleteLap
import Chm.EventCalls

namespace Chm

def ComPkt.isMergeComplete (pkt : ComPkt) : Bool :=
  match pkt.body with
  | .mergeComplete _ => true
  | _ => false

/-- The packet says `CHMPX_COM_RES_SUCCESS`. -/
def ComPkt.isSuccess (pkt : ComPkt) : Bool :=
  match pkt.body with
  | .statusConfirm result _ | .statusChange result _ | .mergeStart result | .mergeAbort result
  | .mergeComplete result => result

namespace EventSock

/-- The MERGE_COMPLETE packets that a node has sent. -/
def completePkts (s : EventSock) : List ComPkt := s.sent.filter (·.isMergeComplete)

/-- Those that it has sent since. -/
def newCompletePkts (s s' : EventSock) : List ComPkt := s'.completePkts.drop s.completePkts.length

/-- A server that gets the packet completes: the lap was a success, or it is one up to here and
the own status does not speak against it. -/
def Finishes (io : Outside) (dept : ChmpxId) (result : Bool) (s : EventSock) : Prop :=
  result = true ∧ (dept = s.man.getSelfChmpxId ∨
    (s.getNextRingChmpxId io).1 ≠ chmInvalidChmpxId ∧
      isSafeDeptAndNextChmpxId (s.getNextRingChmpxId io).2.man dept
        (s.getNextRingChmpxId io).1 = true ∧
      (answerMergeComplete s.man.getSelfStatus).2 = true)

end EventSock

/-- The nodes, and the MERGE_COMPLETE packets on their way. -/
structure CompleteNet (ι : Type*) where
  nodes : ι → EventSock
  flying : List ComPkt

/-- A node changes, gets the packet at an index, or that packet is lost. -/
inductive CompleteEvent (ι : Type*)
  | change (i : ι) (s : EventSock)
  | deliver (i : ι) (io : Outside) (k : Nat)
  | lose (k : Nat)

namespace CompleteNet

open EventSock

variable {ι : Type*} [DecidableEq ι] {net : CompleteNet ι}

def happen (net : CompleteNet ι) : CompleteEvent ι → CompleteNet ι
  | .change i s => { net with nodes := Function.update net.nodes i s }
  | .deliver i io k =>
    match net.flying[k]? with
    | none => net
    | some p =>
      let s := ((net.nodes i).processMergeComplete io p.dept p.isSuccess).2
      { nodes := Function.update net.nodes i s
        flying := net.flying.eraseIdx k ++ newCompletePkts (net.nodes i) s }
  | .lose k => { net with flying := net.flying.eraseIdx k }

/-- A packet comes in where it is sent to; and what the server starts once it has completed,
by itself or in other events, is not another request. -/
def Possible (net : CompleteNet ι) : CompleteEvent ι → Prop
  | .change _ _ | .lose _ => True
  | .deliver i io k => ∀ p ∈ net.flying[k]?, (net.nodes i).man.getSelfChmpxId = p.term ∧
      ∀ t, (net.nodes i).receiveAndSend io p.dept p.isSuccess = (true, true, t) →
        (t.processCompleted io p.dept).completePkts = t.completePkts

/-- `RequestMergeComplete` at a node, without a packet on its way. -/
def requested (nodes : ι → EventSock) (i : ι) (io : Outside) : CompleteNet ι :=
  let s := ((nodes i).requestMergeComplete io).2
  ⟨Function.update nodes i s, newCompletePkts (nodes i) s⟩

/-- The nets of a run that one `RequestMergeComplete` starts and whose events all meet `ok`. -/
inductive Reachable (ok : CompleteNet ι → CompleteEvent ι → Prop) : CompleteNet ι → Prop
  | init (nodes : ι → EventSock) (i : ι) (io : Outside) : Reachable ok (requested nodes i io)
  | step {net : CompleteNet ι} (e : CompleteEvent ι) :
      Reachable ok net → net.Possible e → ok net e → Reachable ok (net.happen e)

/-- No departure has more than one packet on its way. -/
def OnePerDeparture (net : CompleteNet ι) : Prop :=
  ∀ dept, net.flying.countP (·.dept = dept) ≤ 1

/-- A server that gets a packet of another one and does not complete has no packet of its own
on its way. -/
def RetriesAlone (net : CompleteNet ι) : CompleteEvent ι → Prop
  | .deliver i io k => ∀ p ∈ net.flying[k]?, p.dept ≠ (net.nodes i).man.getSelfChmpxId →
      ¬ Finishes io p.dept p.isSuccess (net.nodes i) →
      ∀ q ∈ net.flying, q.dept ≠ (net.nodes i).man.getSelfChmpxId
  | _ => True

end CompleteNet

namespace EventSock

open ChmpxMan

variable {io : Outside} {s s₁ s₂ t : EventSock} {dept : ChmpxId} {result isCompleted : Bool}
variable {new new' : List ComPkt}

/-! ## The packets of a step -/

/-- From `s` to `s₁` these MERGE_COMPLETE packets have been sent. -/
def Sends (new : List ComPkt) (s s₁ : EventSock) : Prop :=
  s₁.completePkts = s.completePkts ++ new

theorem Sends.new_eq (h : Sends new s s₁) : newCompletePkts s s₁ = new := by
  rw [newCompletePkts, h, List.drop_left]

theorem Sends.trans (h : Sends new s s₁) (h' : Sends new' s₁ s₂) : Sends (new ++ new') s s₂ := by
  rw [Sends, h', h, List.append_assoc]

theorem Sends.of_posts (h : Posts (·.isMergeComplete = false) s s₁) : Sends [] s s₁ := by
  obtain ⟨new, heq, hnew⟩ := h
  have hnone : new.filter (·.isMergeComplete) = [] := by
    apply List.filter_eq_nil_iff.mpr
    intro pkt hpkt
    rw [hnew pkt hpkt]
    decide
  rw [Sends, completePkts, heq, List.filter_append, hnone]
  rfl

theorem Sends.trans_nil (h : Sends [] s s₁) (h' : Sends new s₁ s₂) : Sends new s s₂ :=
  h.trans h'

/-- A MERGE_COMPLETE packet, if it is sent. -/
theorem send_sends {pkt : ComPkt} (h : pkt.isMergeComplete = true) (io : Outside)
    (s : EventSock) :
    Sends (if (s.send io pkt).1 then [pkt] else []) s (s.send io pkt).2 := by
  rw [Sends, completePkts, completePkts, send]
  dsimp only
  cases io.sends s.calls with
  | false => simp
  | true => simp [List.filter_append, h]

theorem statusChange_other (s : EventSock) (chmpxid : ChmpxId) (svr : ChmpxSvr) :
    (s.packet s.comprotoVer chmpxid (.statusChange true
      (s.comprotoVer.carry svr))).isMergeComplete = false := rfl

theorem serviceOutDeleted_posts (io : Outside) (next : ChmpxId) (fuel : Nat) :
    ∀ s : EventSock,
      Posts (·.isMergeComplete = false) s (serviceOutDeleted io next fuel s).2 := by
  induction fuel with
  | zero => exact fun s => Posts.refl _ s
  | succ fuel ih =>
    intro s
    rw [serviceOutDeleted]
    dsimp only
    split
    · exact Posts.refl _ s
    · have hs : Posts (·.isMergeComplete = false) s
          (s.setServerStatus io (s.man.getChmpxIdByStatus ChmpxSts.srvinDownDeleted)
            ChmpxSts.srvoutDownNormal).2 := (Posts.refl _ s).call io _
      generalize s.setServerStatus io (s.man.getChmpxIdByStatus ChmpxSts.srvinDownDeleted)
        ChmpxSts.srvoutDownNormal = r at hs ⊢
      split
      · exact hs
      · split
        · exact hs
        · rename_i svr _
          have hn := hs.trans (Did.posts (noticeStatus_did statusChange_other io next svr r.2))
          split
          · exact hn
          · exact hn.trans (ih _)

/-- The packet that is sent on has the same departure, and the departure sends none on. -/
def SentOn (dept self : ChmpxId) (new : List ComPkt) : Prop :=
  new = [] ∨ dept ≠ self ∧ ∃ pkt, new = [pkt] ∧ pkt.dept = dept

/-- What the first part of the step sends, where it leaves a server that does not complete,
and when that is so. -/
theorem receiveAndSend_spec (io : Outside) (dept : ChmpxId) (result : Bool) (s : EventSock) :
    ∃ new, Sends new s (s.receiveAndSend io dept result).2.2 ∧
      SentOn dept s.man.getSelfChmpxId new ∧
      ((s.receiveAndSend io dept result).2.1 = false →
        ¬ Finishes io dept result s ∧
          (s.receiveAndSend io dept result).2.2.man.getSelfChmpxId = s.man.getSelfChmpxId) := by
  unfold receiveAndSend pxComReceiveMergeComplete
  by_cases hdept : dept = s.man.getSelfChmpxId
  · rw [if_pos hdept]
    cases result with
    | true =>
      rw [if_pos rfl]
      have hposts := (getNextRingChmpxId_did io s).posts.trans (serviceOutDeleted_posts io
        (s.getNextRingChmpxId io).1 ((s.getNextRingChmpxId io).2.man.chmpxCount + 1)
        (s.getNextRingChmpxId io).2)
      dsimp only
      generalize serviceOutDeleted io (s.getNextRingChmpxId io).1
        ((s.getNextRingChmpxId io).2.man.chmpxCount + 1) (s.getNextRingChmpxId io).2 = r at hposts ⊢
      obtain ⟨ok, s₁⟩ := r
      cases ok <;> exact ⟨[], Sends.of_posts hposts, Or.inl rfl, fun h => by cases h⟩
    | false =>
      refine ⟨[], Sends.of_posts (Posts.refl _ s), Or.inl rfl, fun _ => ⟨fun h => ?_, rfl⟩⟩
      cases h.1
  · rw [if_neg hdept]
    have hposts : Posts (·.isMergeComplete = false) s (s.getNextRingChmpxId io).2 :=
      (getNextRingChmpxId_did io s).posts
    have hself := (getNextRingChmpxId_sameRing io s).selfChmpxId
    have hstatus := getNextRingChmpxId_getSelfStatus io s
    unfold Finishes
    generalize s.getNextRingChmpxId io = r at hposts hself hstatus ⊢
    obtain ⟨next, s₁⟩ := r
    dsimp only at hposts hself hstatus ⊢
    by_cases hnext : next = chmInvalidChmpxId
    · rw [if_pos hnext]
      refine ⟨[], Sends.of_posts hposts, Or.inl rfl, fun _ => ⟨fun h => ?_, hself⟩⟩
      rcases h.2 with h | h
      · exact hdept h
      · exact h.1 hnext
    · rw [if_neg hnext]
      cases hsafe : isSafeDeptAndNextChmpxId s₁.man dept next with
      | false =>
        refine ⟨[], Sends.of_posts hposts, Or.inl rfl, fun _ => ⟨fun h => ?_, hself⟩⟩
        rcases h.2 with h | h
        · exact hdept h
        · cases h.2.1
      | true =>
        simp only [Bool.not_true, Bool.false_eq_true, if_false]
        generalize hanswer : (if result = true then answerMergeComplete s₁.man.getSelfStatus
          else (false, false)) = answer
        have hsend := @send_sends ⟨.v2, dept, next, .mergeComplete answer.1⟩ rfl io s₁
        refine ⟨_, (Sends.of_posts hposts).trans_nil hsend, ?_, fun hcompleted => ⟨?_, hself⟩⟩
        · split
          · exact Or.inr ⟨hdept, _, rfl, rfl⟩
          · exact Or.inl rfl
        · rintro ⟨hresult, hor⟩
          have hcompleted' : answer.2 = false := hcompleted
          rw [← hanswer, if_pos hresult, hstatus] at hcompleted'
          rcases hor with h | h
          · exact hdept h
          · rw [h.2.2] at hcompleted'
            cases hcompleted'

/-- A server that does not complete starts at most one lap. -/
theorem retryMergeComplete_sends (io : Outside) (s : EventSock) :
    ∃ new, Sends new s (s.retryMergeComplete io) ∧
      (new = [] ∨ ∃ pkt, new = [pkt] ∧ pkt.dept = s.man.getSelfChmpxId) := by
  unfold retryMergeComplete
  have hposts : Posts (·.isMergeComplete = false) s (s.getNextRingChmpxId io).2 :=
    (getNextRingChmpxId_did io s).posts
  have hself := (getNextRingChmpxId_sameRing io s).selfChmpxId
  generalize s.getNextRingChmpxId io = r at hposts hself ⊢
  obtain ⟨next, s₁⟩ := r
  dsimp only at hposts hself ⊢
  split
  · exact ⟨[], Sends.of_posts hposts, Or.inl rfl⟩
  · rename_i hnext
    have htime : Posts (·.isMergeComplete = false) s (s₁.updateSelfLastStatusTime io).2 :=
      hposts.call io _
    have hself' : (s₁.updateSelfLastStatusTime io).2.man.getSelfChmpxId = s.man.getSelfChmpxId := by
      have hshape : SameShape s₁.man (s₁.updateSelfLastStatusTime io).2.man :=
        (SameRecords.written (Written.updateLastStatusTime (fun _ _ => True) (io.env s₁.calls)
          chmInvalidChmpxId s₁.man)).toSameShape
      rw [hshape.selfChmpxId, hself]
    generalize s₁.updateSelfLastStatusTime io = r at htime hself' ⊢
    split
    · exact ⟨[], Sends.of_posts htime, Or.inl rfl⟩
    · rename_i svr _
      have hchange := htime.trans (Did.posts
        (pxComSendStatusChange_did statusChange_other io next svr r.2))
      have hman := pxComSendStatusChange_man io next svr r.2
      generalize r.2.pxComSendStatusChange io next svr = r₂ at hchange hman ⊢
      split
      · exact ⟨[], Sends.of_posts hchange, Or.inl rfl⟩
      · rw [pxComSendMergeComplete, if_neg hnext]
        refine ⟨_, (Sends.of_posts hchange).trans_nil (send_sends rfl io r₂.2), ?_⟩
        split
        · refine Or.inr ⟨_, rfl, ?_⟩
          show r₂.2.man.getSelfChmpxId = _
          rw [hman, hself']
        · exact Or.inl rfl

/-- The packets of a whole step. -/
theorem processMergeComplete_sends (io : Outside) (dept : ChmpxId) (result : Bool) (s : EventSock)
    (hnew : ∀ t, s.receiveAndSend io dept result = (true, true, t) →
      (t.processCompleted io dept).completePkts = t.completePkts) :
    ∃ new own, Sends (new ++ own) s (s.processMergeComplete io dept result).2 ∧
      SentOn dept s.man.getSelfChmpxId new ∧
      (own = [] ∨ ¬ Finishes io dept result s ∧
        ∃ pkt, own = [pkt] ∧ pkt.dept = s.man.getSelfChmpxId) := by
  obtain ⟨new, hsends, hsent, hfails⟩ := receiveAndSend_spec io dept result s
  unfold processMergeComplete
  generalize s.receiveAndSend io dept result = r at hnew hsends hfails ⊢
  obtain ⟨ok, isCompleted, t⟩ := r
  dsimp only at hsends hfails ⊢
  cases ok with
  | false => exact ⟨new, [], by rw [List.append_nil]; exact hsends, hsent, Or.inl rfl⟩
  | true =>
    cases isCompleted with
    | true =>
      have hdone : Sends [] t (t.processCompleted io dept) := by
        rw [Sends, hnew t rfl, List.append_nil]
      exact ⟨new, [], hsends.trans hdone, hsent, Or.inl rfl⟩
    | false =>
      obtain ⟨hfinish, hself⟩ := hfails rfl
      obtain ⟨own, hown, hdept⟩ := retryMergeComplete_sends io t
      rw [hself] at hdept
      exact ⟨new, own, hsends.trans hown, hsent, hdept.imp_right fun h => ⟨hfinish, h⟩⟩

/-- A request sends at most one packet. -/
theorem requestMergeComplete_sends (io : Outside) (s : EventSock) :
    ∃ new, Sends new s (s.requestMergeComplete io).2 ∧ new.length ≤ 1 := by
  unfold requestMergeComplete
  split
  · exact ⟨[], Sends.of_posts (Posts.refl _ s), Nat.zero_le 1⟩
  · have hposts : Posts (·.isMergeComplete = false) s (s.getNextRingChmpxId io).2 :=
      (getNextRingChmpxId_did io s).posts
    dsimp only
    generalize s.getNextRingChmpxId io = r at hposts ⊢
    split
    · have hflag : Posts (·.isMergeComplete = false) s
          { r.2 with isMergeDoneProcessing := false } := hposts.trans (Posts.of_eq rfl)
      have hall := hflag.trans (Did.posts (mergeComplete_did statusChange_other io _))
      exact ⟨[], Sends.of_posts hall, Nat.zero_le 1⟩
    · rename_i hnext
      have htime : Posts (·.isMergeComplete = false) s (r.2.updateSelfLastStatusTime io).2 :=
        hposts.call io _
      split
      · exact ⟨[], Sends.of_posts htime, Nat.zero_le 1⟩
      · rename_i svr _
        have hchange := htime.trans (Did.posts
          (pxComSendStatusChange_did statusChange_other io r.1 svr _))
        split
        · exact ⟨[], Sends.of_posts hchange, Nat.zero_le 1⟩
        · rw [pxComSendMergeComplete, if_neg hnext]
          refine ⟨_, (Sends.of_posts hchange).trans_nil (send_sends rfl io _), ?_⟩
          split
          · exact Nat.le_refl 1
          · exact Nat.zero_le 1

end EventSock

namespace CompleteNet

open EventSock

open ChmpxMan RingNet

variable {ι : Type*} [DecidableEq ι] {net : CompleteNet ι}

/-! ## One packet for each departure -/

theorem requested_onePerDeparture (nodes : ι → EventSock) (i : ι) (io : Outside) :
    OnePerDeparture (requested nodes i io) := by
  intro dept
  obtain ⟨new, hsends, hlen⟩ := requestMergeComplete_sends io (nodes i)
  show (newCompletePkts (nodes i) _).countP _ ≤ 1
  rw [hsends.new_eq]
  exact Nat.le_trans List.countP_le_length hlen

omit [DecidableEq ι] in
/-- A packet that has come in, and the others. -/
theorem countP_flying {p : ComPkt} {k : Nat} (hk : net.flying[k]? = some p) (dept : ChmpxId) :
    net.flying.countP (·.dept = dept) =
      (if p.dept = dept then 1 else 0) + (net.flying.eraseIdx k).countP (·.dept = dept) := by
  obtain ⟨hlt, rfl⟩ := List.getElem?_eq_some_iff.mp hk
  rw [← (List.getElem_cons_eraseIdx_perm hlt).countP_eq, List.countP_cons, Nat.add_comm]
  simp

theorem deliver_onePerDeparture {i : ι} {io : Outside} {k : Nat} (h : OnePerDeparture net)
    (hposs : net.Possible (.deliver i io k)) (hretry : RetriesAlone net (.deliver i io k)) :
    OnePerDeparture (net.happen (.deliver i io k)) := by
  cases hk : net.flying[k]? with
  | none =>
    rw [happen, hk]
    exact h
  | some p =>
    obtain ⟨-, hnew⟩ := hposs p hk
    obtain ⟨new, own, hsends, hsent, hown⟩ :=
      processMergeComplete_sends io p.dept p.isSuccess (net.nodes i) hnew
    have halone := hretry p hk
    intro dept
    rw [happen, hk]
    dsimp only
    rw [hsends.new_eq, List.countP_append, List.countP_append]
    have hall := h dept
    rw [countP_flying hk dept] at hall
    -- The server's own packets come from a lap that it starts.
    have hnone : own ≠ [] → p.dept ≠ (net.nodes i).man.getSelfChmpxId →
        (net.flying.eraseIdx k).countP (·.dept = (net.nodes i).man.getSelfChmpxId) = 0 := by
      intro hne hdept
      have hfinish := (hown.resolve_left hne).1
      apply List.countP_eq_zero.mpr
      intro q hq hself
      exact halone hdept hfinish q (List.mem_of_mem_eraseIdx hq) (by simpa using hself)
    have hcount : own.countP (·.dept = dept) ≤
        if own ≠ [] ∧ dept = (net.nodes i).man.getSelfChmpxId then 1 else 0 := by
      rcases hown with rfl | ⟨-, pkt, rfl, hpkt⟩
      · simp
      · by_cases hd : dept = (net.nodes i).man.getSelfChmpxId
        · simp [hd, hpkt]
        · simp [hd, hpkt, Ne.symm hd]
    have hcount' : new.countP (·.dept = dept) ≤
        if p.dept ≠ (net.nodes i).man.getSelfChmpxId ∧ p.dept = dept then 1 else 0 := by
      rcases hsent with rfl | ⟨hne, pkt, rfl, hpkt⟩
      · simp
      · by_cases hd : p.dept = dept
        · simp [hd, hpkt] at hne ⊢
          simp [hne]
        · simp [hd, hpkt]
    by_cases hd : p.dept = dept
    · -- The packet itself is gone, and what comes for it is sent on or is a new lap of it.
      subst hd
      by_cases hself : p.dept = (net.nodes i).man.getSelfChmpxId
      · have hnew : new.countP (·.dept = p.dept) ≤ 0 := by
          simpa [hself] using hcount'
        have hown : own.countP (·.dept = p.dept) ≤ 1 := by
          split at hcount <;> omega
        simp only [if_pos] at hall
        omega
      · have hown : own.countP (·.dept = p.dept) ≤ 0 := by
          simpa [hself] using hcount
        have hnew : new.countP (·.dept = p.dept) ≤ 1 := by
          split at hcount' <;> omega
        simp only [if_pos] at hall
        omega
    · have hnew : new.countP (·.dept = dept) ≤ 0 := by
        simpa [hd] using hcount'
      rw [if_neg hd] at hall
      by_cases hlap : own ≠ [] ∧ dept = (net.nodes i).man.getSelfChmpxId
      · obtain ⟨hne, rfl⟩ := hlap
        rw [if_pos ⟨hne, rfl⟩] at hcount
        have hflying := hnone hne hd
        omega
      · rw [if_neg hlap] at hcount
        omega

omit [DecidableEq ι] in
theorem lose_onePerDeparture (h : OnePerDeparture net) (k : Nat) :
    OnePerDeparture { net with flying := net.flying.eraseIdx k } := by
  intro dept
  have hsub := (List.eraseIdx_sublist net.flying k).countP_le (p := (·.dept = dept))
  exact Nat.le_trans hsub (h dept)

/-- In a run of one request, a departure has at most one packet on its way as long as the
servers that do not complete have none of their own. -/
theorem reachable_onePerDeparture (h : Reachable RetriesAlone net) : OnePerDeparture net := by
  induction h with
  | init nodes i io => exact requested_onePerDeparture nodes i io
  | step e _ hposs hretry ih =>
    cases e with
    | change i s => exact ih
    | deliver i io k => exact deliver_onePerDeparture ih hposs hretry
    | lose k => exact lose_onePerDeparture ih k

/-! ## Two servers with equal views -/

/-- The servers 97 and 98, of which 98 is suspended. -/
def suspendedMan (self other : Nat) : ChmpxMan :=
  ((ringMan self [other] [97, 98]).exec sampleEnv (.setServerStatus (sampleId 98)
    (ChmpxSts.srvinUpNormal.changeSuspendFlag true) false)).2

/-- The servers that a node knows, with their statuses. -/
def viewOf (m : ChmpxMan) : List (ChmpxId × ChmpxSts) :=
  m.fromHead.map fun p => ((m.chmpx p).chmpxid, (m.chmpx p).status)

def suspendedNodes : Bool → EventSock
  | false => { ringSock 97 [98] [97, 98] with man := suspendedMan 97 98 }
  | true => { ringSock 98 [97] [97, 98] with man := suspendedMan 98 97 }

/-- The request of 97 has come to 98, which sends it on with an error and starts a lap. -/
def refusedNet : CompleteNet Bool :=
  (requested suspendedNodes false sampleOutside).happen (.deliver true sampleOutside 0)

/-- The error has come back to 97, which starts a lap again. -/
def retriedNet : CompleteNet Bool := refusedNet.happen (.deliver false sampleOutside 0)

/-- This lap has come to 98. -/
def multipliedNet : CompleteNet Bool := retriedNet.happen (.deliver true sampleOutside 1)

omit [DecidableEq ι] in
theorem possible_of_retries {i : ι} {io : Outside} {k : Nat} {p : ComPkt}
    (hk : net.flying[k]? = some p) (hself : (net.nodes i).man.getSelfChmpxId = p.term)
    (hretry : ((net.nodes i).receiveAndSend io p.dept p.isSuccess).2.1 = false) :
    net.Possible (.deliver i io k) := by
  intro q hq
  rw [hk] at hq
  obtain rfl := Option.some.inj hq
  refine ⟨hself, fun t ht => ?_⟩
  rw [ht] at hretry
  cases hretry

theorem refusedNet_possible :
    (requested suspendedNodes false sampleOutside).Possible (.deliver true sampleOutside 0) :=
  possible_of_retries (p := ⟨.v2, sampleId 97, sampleId 98, .mergeComplete true⟩)
    (by decide +kernel) (by decide +kernel) (by decide +kernel)

theorem retriedNet_possible : refusedNet.Possible (.deliver false sampleOutside 0) :=
  possible_of_retries (p := ⟨.v2, sampleId 97, sampleId 97, .mergeComplete false⟩)
    (by decide +kernel) (by decide +kernel) (by decide +kernel)

theorem multipliedNet_possible : retriedNet.Possible (.deliver true sampleOutside 1) :=
  possible_of_retries (p := ⟨.v2, sampleId 97, sampleId 98, .mergeComplete true⟩)
    (by decide +kernel) (by decide +kernel) (by decide +kernel)

theorem reachable_onePerDeparture_sample :
    retriedNet.flying.map (·.dept) = [sampleId 98, sampleId 97] ∧ OnePerDeparture retriedNet := by
  have hrefused : Reachable RetriesAlone refusedNet := by
    refine (Reachable.init suspendedNodes false sampleOutside).step _ refusedNet_possible ?_
    intro p _ _ _
    decide +kernel
  have hretried : Reachable RetriesAlone retriedNet := by
    refine hrefused.step _ retriedNet_possible fun p hp hdept => ?_
    have hown : ∀ p ∈ refusedNet.flying[0]?,
        p.dept = (refusedNet.nodes false).man.getSelfChmpxId := by
      decide +kernel
    exact absurd (hown p hp) hdept
  exact ⟨by decide +kernel, reachable_onePerDeparture hretried⟩

/-- Both servers see the same, and 98 has two packets on their way. -/
theorem suspended_multiplies :
    viewOf (suspendedNodes false).man = viewOf (suspendedNodes true).man ∧
      Reachable (fun _ _ => True) multipliedNet ∧ ¬ OnePerDeparture multipliedNet := by
  have hrequested : Reachable (fun _ _ => True)
      (requested suspendedNodes false sampleOutside) := Reachable.init ..
  have hrefused : Reachable (fun _ _ => True) refusedNet :=
    hrequested.step _ refusedNet_possible trivial
  have hretried : Reachable (fun _ _ => True) retriedNet :=
    hrefused.step _ retriedNet_possible trivial
  have hcount : multipliedNet.flying.countP (·.dept = sampleId 98) = 2 := by decide +kernel
  refine ⟨by decide +kernel, hretried.step _ multipliedNet_possible trivial, fun hone => ?_⟩
  have hle := hone (sampleId 98)
  omega

end CompleteNet

end Chm
