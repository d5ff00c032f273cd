/-
Msgids across reloads.

`Find` is bounded by the number of queues that the last reload wrote, while the msgids and
the area are those of the start.  As long as the bound covers the msgids that are handed
out and stays inside the area, each of them is found and freed; `HeldMsgs` keeps the list
of them beside the state.
-/
import Chm.MqRuns

namespace Chm

/-- `CHMINFO` with the msgids that `AssignMsg` returned and nobody freed since. -/
structure HeldMsgs where
  info : ChmInfo
  held : List Nat

/-- An operation on the queues, or a reload. -/
inductive InfoOp
  | msg (op : MsgInfo.MsgOp)
  | reload (env : Env) (cfg : InfoCfg) (eqfd : Bool)

namespace HeldMsgs

open MsgInfo

def heldAfter (s : HeldMsgs) : MsgOp → List Nat
  | .assign self isChmpx isActivated =>
    let msgid := (s.info.msgs.assignMsg self isChmpx isActivated).1
    if msgid = chmInvalidMsgId then s.held else msgid :: s.held
  | .free msgid => s.held.filter (· ≠ msgid)
  | _ => s.held

def exec (s : HeldMsgs) : InfoOp → HeldMsgs
  | .msg op => ⟨{ s.info with msgs := s.info.msgs.exec op }, s.heldAfter op⟩
  | .reload env cfg eqfd => ⟨(s.info.reloadConfiguration env cfg eqfd).2, s.held⟩

def run (s : HeldMsgs) (ops : List InfoOp) : HeldMsgs := ops.foldl exec s

/-! ## What is wanted -/

/-- The msgid is of a head that is handed out, and `FreeMsg` frees that head. -/
def Freeable (m : MsgInfo) (msgid : Nat) : Prop :=
  ∃ p, m.find msgid = some p ∧ (m.msghead p).flag.isAssigned = true ∧
    (m.freeMsg msgid).1 = true ∧ p ∈ (m.freeMsg msgid).2.nodesOf .free ∧
      ((m.freeMsg msgid).2.msghead p).flag.isNotAssigned = true

/-- All msgids that are handed out can be freed, and `FreeMsg` stays in the area. -/
structure FreeKept (s : HeldMsgs) : Prop where
  freeable : ∀ msgid ∈ s.held, Freeable s.info.msgs msgid
  reach : ∀ msgid, ∀ p ∈ s.info.msgs.freeMsgReach msgid, p < s.info.msgs.areaCount

/-! ## Steps that keep the bound above the msgids -/

/-- A reload whose number of queues covers the msgids that are handed out and is not above
that of the area; a msgid is handed out only below the bound. -/
def StepCovers (s : HeldMsgs) : InfoOp → Prop
  | .msg (.assign ..) =>
    ∀ p : Nat, s.info.msgs.freeMsgs = some p → (p : Int) < s.info.msgs.maxMqueue
  | .msg _ => True
  | .reload _ cfg _ =>
    s.info.refuses cfg = false → 0 ≤ cfg.maxMqueue ∧
      cfg.maxMqueue ≤ s.info.msgs.areaCount ∧
        ∀ msgid ∈ s.held, (msgid : Int) < s.info.msgs.baseMsgid + cfg.maxMqueue

def RunCovers (s : HeldMsgs) : List InfoOp → Prop
  | [] => True
  | op :: ops => StepCovers s op ∧ RunCovers (s.exec op) ops

variable {s : HeldMsgs} {m m' : MsgInfo} {a a' : MsgKind → List Ptr} {k : MsgKind} {p : Ptr}
  {n msgid : Nat}

/-- A msgid of a head below the bound that is in a list of assigned heads. -/
def IsHeld (m : MsgInfo) (a : MsgKind → List Ptr) (n : Nat) (msgid : Nat) : Prop :=
  ∃ k p, k ≠ .free ∧ p ∈ a k ∧ p < n ∧ (m.msghead p).msgid = msgid

structure Covered (s : HeldMsgs) (a : MsgKind → List Ptr) (n : Nat) : Prop where
  placing : Placing s.info.msgs a
  maxMqueue : s.info.msgs.maxMqueue = n
  inside : n ≤ s.info.msgs.areaCount
  held : ∀ msgid ∈ s.held, IsHeld s.info.msgs a n msgid

theorem IsHeld.congr (h : IsHeld m a n msgid)
    (hids : ∀ p, (m'.msghead p).msgid = (m.msghead p).msgid) : IsHeld m' a n msgid := by
  obtain ⟨k, p, hk, hp, hlt, he⟩ := h
  exact ⟨k, p, hk, hp, hlt, (hids p).trans he⟩

/-- A head that is not moved to the free list stays held. -/
theorem IsHeld.move (h : IsHeld m a n msgid) (hpl : Placing m a) (hp : p ∈ a k) {k' : MsgKind}
    (hk' : k' ≠ .free ∨ (m.msghead p).msgid ≠ msgid)
    (hids : ∀ p, (m'.msghead p).msgid = (m.msghead p).msgid) :
    IsHeld m' (MsgInfo.move a p k k') n msgid := by
  obtain ⟨j, q, hj, hq, hlt, he⟩ := h
  by_cases hqp : q = p
  · subst hqp
    have hfree : k' ≠ .free := hk'.resolve_right fun hne => hne he
    exact ⟨k', q, hfree, (mem_move hpl hp).mpr (Or.inl ⟨rfl, rfl⟩), hlt, (hids q).trans he⟩
  · exact ⟨j, q, hj, (mem_move hpl hp).mpr (Or.inr ⟨hqp, hq⟩), hlt, (hids q).trans he⟩

theorem freeable_of_isHeld (h : Placing m a) (hmax : m.maxMqueue = n) (hn : n ≤ m.areaCount)
    (hheld : IsHeld m a n msgid) : Freeable m msgid := by
  obtain ⟨k, p, hk, hp, hlt, rfl⟩ := hheld
  have hf := find_msgid h hmax hn hlt
  obtain ⟨hres, hpl, -⟩ := freeMsg_spec h (msgid_ne_invalid h (h.lt hp)) hf hp hk
  have hfree : p ∈ MsgInfo.move a p k .free .free := (mem_move h hp).mpr (Or.inl ⟨rfl, rfl⟩)
  refine ⟨p, hf, ?_, hres, ?_, ?_⟩
  · rw [h.flag k p hp]
    cases k with
    | free => exact absurd rfl hk
    | assigned => decide
    | activated => decide
    | chmpx => decide
  · rwa [nodesOf_eq hpl]
  · rw [hpl.flag _ p hfree]
    decide

/-- `FreeMsg` reads and writes inside of the area. -/
theorem freeMsgReach_lt (h : Placing m a) (hmax : m.maxMqueue = n) (hn : n ≤ m.areaCount)
    (msgid : Nat) (hp : p ∈ m.freeMsgReach msgid) : p < m.areaCount := by
  rw [freeMsgReach] at hp
  rcases List.mem_cons.mp hp with rfl | hp
  · exact h.fits.1
  · cases hf : m.findIndex msgid with
    | none =>
      rw [hf] at hp
      cases hp
    | some q =>
      rw [hf] at hp
      have hq : q < m.areaCount := findIndex_lt h hmax hn hf
      obtain ⟨k, hk⟩ := h.exists_kind hq
      have hc := h.chains_front k
      rcases List.mem_append.mp hp with hp | hp
      · rcases List.mem_cons.mp hp with rfl | hp
        · exact hq
        · rcases List.mem_append.mp hp with hp | hp
          · exact h.lt (hc.next_mem hk (Option.mem_toList.mp hp))
          · exact h.lt (hc.follow_prev_mem (fun r hr => hc.prev_mem hk hr) hp)
      · have hfree : ∀ r, m.freeMsgs = some r → r ∈ a .free := by
          intro r hr
          have hhead := h.head .free
          exact List.mem_of_head? (hhead.symm.trans hr)
        exact h.lt ((h.chains_front .free).follow_prev_mem hfree hp)

theorem Covered.freeKept (h : Covered s a n) : FreeKept s where
  freeable msgid hid := freeable_of_isHeld h.placing h.maxMqueue h.inside (h.held msgid hid)
  reach msgid _ hp := freeMsgReach_lt h.placing h.maxMqueue h.inside msgid hp

/-! ## Steps -/

theorem assign_covered (h : Covered s a n) {self : Nat} {isChmpx isActivated : Bool}
    (hcov : StepCovers s (.msg (.assign self isChmpx isActivated))) :
    ∃ a' n', Covered (s.exec (.msg (.assign self isChmpx isActivated))) a' n' ∧
      (s.exec (.msg (.assign self isChmpx isActivated))).info.msgs.areaCount =
        s.info.msgs.areaCount := by
  have hpl := h.placing
  rcases assignMsg_spec hpl self isChmpx isActivated with
    ⟨-, he⟩ | ⟨p, fs, hfree, hid, hpl', hs⟩
  · have hexec : s.exec (.msg (.assign self isChmpx isActivated)) = s := by
      simp only [exec, MsgInfo.exec, heldAfter, he, if_pos]
    rw [hexec]
    exact ⟨a, n, h, rfl⟩
  · have hp : p ∈ a .free := by rw [hfree]; exact List.mem_cons_self
    have hkind := MsgKind.ofAssign_ne_free isChmpx isActivated
    have hlt : p < n := by
      have hhead : s.info.msgs.freeMsgs = some p := by
        have := hpl.head .free
        rwa [hfree] at this
      have hb := hcov p hhead
      rw [h.maxMqueue] at hb
      exact Int.ofNat_lt.mp hb
    have hnew : IsHeld (s.info.msgs.assignMsg self isChmpx isActivated).2
        (MsgInfo.move a p .free (MsgKind.ofAssign isChmpx isActivated)) n
          (s.info.msgs.msghead p).msgid :=
      ⟨_, p, hkind, (mem_move hpl hp).mpr (Or.inl ⟨rfl, rfl⟩), hlt, hs.msgid p⟩
    refine ⟨_, n, ⟨hpl', hs.maxMqueue.trans h.maxMqueue, ?_, fun msgid hm => ?_⟩, hs.areaCount⟩
    · exact h.inside.trans (Nat.le_of_eq hs.areaCount.symm)
    · have hm' : msgid ∈ s.heldAfter (.assign self isChmpx isActivated) := hm
      rw [heldAfter, hid, if_neg (msgid_ne_invalid hpl (hpl.lt hp))] at hm'
      rcases List.mem_cons.mp hm' with rfl | hm'
      · exact hnew
      · exact (h.held msgid hm').move hpl hp (Or.inl hkind) hs.msgid

theorem free_covered (h : Covered s a n) (msgid : Nat) :
    ∃ a' n', Covered (s.exec (.msg (.free msgid))) a' n' ∧
      (s.exec (.msg (.free msgid))).info.msgs.areaCount = s.info.msgs.areaCount := by
  have hpl := h.placing
  obtain ⟨hs, hcases⟩ := freeMsg_cases hpl h.maxMqueue h.inside msgid
  have hmem : ∀ {id}, id ∈ (s.exec (.msg (.free msgid))).held → id ∈ s.held ∧ id ≠ msgid := by
    intro id hid
    have hid' : id ∈ s.held.filter (· ≠ msgid) := hid
    simpa using hid'
  have hmax := hs.maxMqueue.trans h.maxMqueue
  have hin := h.inside.trans (Nat.le_of_eq hs.areaCount.symm)
  rcases hcases with ⟨p, k, hf, hp, -, hpl'⟩ | ⟨-, hpl'⟩
  · refine ⟨_, n, ⟨hpl', hmax, hin, fun id hid => ?_⟩, hs.areaCount⟩
    have hid' := hmem hid
    have hne : (s.info.msgs.msghead p).msgid ≠ id := by
      rw [msgid_of_find hf]
      exact hid'.2.symm
    exact (h.held id hid'.1).move hpl hp (Or.inr hne) hs.msgid
  · exact ⟨a, n, ⟨hpl', hmax, hin, fun id hid => (h.held id (hmem hid).1).congr hs.msgid⟩,
      hs.areaCount⟩

/-- An operation that hands out and frees nothing. -/
theorem keep_covered (h : Covered s a n) {op : MsgOp} (hheld : s.heldAfter op = s.held)
    (hs : SameArea s.info.msgs (s.info.msgs.exec op))
    (hids : ∀ p, ((s.info.msgs.exec op).msghead p).msgid = (s.info.msgs.msghead p).msgid)
    (hcases : (∃ p k k', k' ≠ .free ∧ p ∈ a k ∧
        Placing (s.info.msgs.exec op) (MsgInfo.move a p k k')) ∨
      Placing (s.info.msgs.exec op) a) :
    ∃ a' n', Covered (s.exec (.msg op)) a' n' ∧
      (s.exec (.msg op)).info.msgs.areaCount = s.info.msgs.areaCount := by
  have hmax := hs.maxMqueue.trans h.maxMqueue
  have hin := h.inside.trans (Nat.le_of_eq hs.areaCount.symm)
  have hmem : ∀ {id}, id ∈ (s.exec (.msg op)).held → id ∈ s.held := by
    intro id hid
    rw [← hheld]
    exact hid
  rcases hcases with ⟨p, k, k', hk', hp, hpl'⟩ | hpl'
  · exact ⟨_, n, ⟨hpl', hmax, hin, fun id hid =>
      (h.held id (hmem hid)).move h.placing hp (Or.inl hk') hids⟩, hs.areaCount⟩
  · exact ⟨a, n, ⟨hpl', hmax, hin, fun id hid => (h.held id (hmem hid)).congr hids⟩,
      hs.areaCount⟩

theorem setMqFlagStatus_covered (h : Covered s a n) {self msgid : Nat} {isActivated : Bool}
    {op : MsgOp} (hheld : s.heldAfter op = s.held)
    (hop : s.info.msgs.exec op = (s.info.msgs.setMqFlagStatus self msgid true isActivated).2) :
    ∃ a' n', Covered (s.exec (.msg op)) a' n' ∧
      (s.exec (.msg op)).info.msgs.areaCount = s.info.msgs.areaCount := by
  obtain ⟨hs, hcases⟩ :=
    setMqFlagStatus_cases h.placing h.maxMqueue h.inside self msgid isActivated
  rw [← hop] at hs hcases
  refine keep_covered h hheld hs.sameArea hs.msgid ?_
  rcases hcases with ⟨p, -, hp, hpl'⟩ | hpl'
  · exact Or.inl ⟨p, _, clientKind isActivated, clientKind_ne_free isActivated, hp, hpl'⟩
  · exact Or.inr hpl'

theorem getRandomMsgId_msghead (m : MsgInfo) (isChmpx isActivated : Bool) :
    (m.getRandomMsgId isChmpx isActivated).2.msghead = m.msghead := by
  rcases getRandomMsgId_cases m isChmpx isActivated with he | he
  · rw [he]
  · rw [he]
    cases isChmpx <;> cases isActivated <;> rfl

/-- What a reload writes of the queues. -/
theorem reload_msgs (env : Env) (cfg : InfoCfg) (eqfd : Bool) (info : ChmInfo) :
    (info.reloadConfiguration env cfg eqfd).2.msgs =
      if info.refuses cfg then info.msgs else { info.msgs with maxMqueue := cfg.maxMqueue } := by
  rw [ChmInfo.reloadConfiguration]
  split <;> rfl

theorem reload_covered (h : Covered s a n) {env : Env} {cfg : InfoCfg} {eqfd : Bool}
    (hcov : StepCovers s (.reload env cfg eqfd)) :
    ∃ a' n', Covered (s.exec (.reload env cfg eqfd)) a' n' ∧
      (s.exec (.reload env cfg eqfd)).info.msgs.areaCount = s.info.msgs.areaCount := by
  have hm : (s.exec (.reload env cfg eqfd)).info.msgs = _ := reload_msgs env cfg eqfd s.info
  cases hr : s.info.refuses cfg with
  | true =>
    rw [hr, if_pos rfl] at hm
    refine ⟨a, n, ⟨?_, ?_, ?_, fun msgid hid => ?_⟩, by rw [hm]⟩
    · rw [hm]
      exact h.placing
    · rw [hm]
      exact h.maxMqueue
    · rw [hm]
      exact h.inside
    · rw [hm]
      exact h.held msgid hid
  | false =>
    rw [hr, if_neg (by decide)] at hm
    obtain ⟨hzero, hle, hheld⟩ := hcov hr
    obtain ⟨n', hn'⟩ : ∃ n' : Nat, cfg.maxMqueue = n' := ⟨_, (Int.toNat_of_nonneg hzero).symm⟩
    have hpl := h.placing
    refine ⟨a, n', ⟨?_, ?_, ?_, fun msgid hid => ?_⟩, by rw [hm]⟩
    · rw [hm]
      exact ⟨hpl.chains, hpl.covers, hpl.head, hpl.count, hpl.flag, hpl.msgid, hpl.fits⟩
    · rw [hm]
      exact hn'
    · rw [hm]
      show n' ≤ s.info.msgs.areaCount
      omega
    · rw [hm]
      obtain ⟨k, p, hk, hp, -, rfl⟩ := h.held msgid hid
      have hlt := hheld _ hid
      rw [hpl.msgid p (hpl.lt hp), hn', Nat.cast_add] at hlt
      exact ⟨k, p, hk, hp, Int.ofNat_lt.mp (Int.lt_of_add_lt_add_left hlt), rfl⟩

theorem exec_covered (h : Covered s a n) {op : InfoOp} (hcov : StepCovers s op) :
    ∃ a' n', Covered (s.exec op) a' n' ∧
      (s.exec op).info.msgs.areaCount = s.info.msgs.areaCount := by
  cases op with
  | reload env cfg eqfd => exact reload_covered h hcov
  | msg op =>
    cases op with
    | assign self isChmpx isActivated => exact assign_covered h hcov
    | free msgid => exact free_covered h msgid
    | activate self msgid => exact setMqFlagStatus_covered h rfl rfl
    | disactivate self msgid => exact setMqFlagStatus_covered h rfl rfl
    | random isChmpx isActivated =>
      have hr := getRandomMsgId_placing h.placing isChmpx isActivated
      refine keep_covered h rfl hr.2 (fun p => ?_) (Or.inr hr.1)
      have hm := getRandomMsgId_msghead s.info.msgs isChmpx isActivated
      exact congrArg MqMsgHead.msgid (congrFun hm p)

/-! ## Runs -/

theorem run_covered (h : Covered s a n) {ops : List InfoOp} (hops : RunCovers s ops) :
    (∃ a' n', Covered (s.run ops) a' n') ∧
      (s.run ops).info.msgs.areaCount = s.info.msgs.areaCount := by
  induction ops generalizing s a n with
  | nil => exact ⟨⟨a, n, h⟩, rfl⟩
  | cons op ops ih =>
    obtain ⟨a', n', h', hcount⟩ := exec_covered h hops.1
    obtain ⟨hcov, hcount'⟩ := ih h' hops.2
    exact ⟨hcov, hcount'.trans hcount⟩

theorem start_covered {env : Env} {cfg : InfoCfg} {outside : Links Ptr × (Ptr → MqMsgHead)}
    {info : ChmInfo} (h : ChmInfo.start env cfg outside = some info) (hpos : 0 < cfg.maxMqueue) :
    Covered ⟨info, []⟩ (allFree info.msgs.areaCount) info.msgs.areaCount := by
  have hm : ChmInfo.startMsgs env cfg outside = some info.msgs := by
    rw [ChmInfo.start] at h
    split at h
    · cases h
      assumption
    · cases h
  obtain ⟨hpl, hmax⟩ := startMsgs_kept hm hpos
  exact ⟨hpl, hmax, Nat.le_refl _, by simp⟩

/-- From a start with a queue, as long as the bound that reloads write covers the msgids
that are handed out and is not above that of the area, every msgid that is handed out can
be freed and `FreeMsg` stays in the area of the start. -/
theorem run_freeKept {env : Env} {cfg : InfoCfg} {outside : Links Ptr × (Ptr → MqMsgHead)}
    {info : ChmInfo} (h : ChmInfo.start env cfg outside = some info) (hpos : 0 < cfg.maxMqueue)
    {ops : List InfoOp} (hops : RunCovers ⟨info, []⟩ ops) :
    FreeKept (HeldMsgs.run ⟨info, []⟩ ops) ∧
      (HeldMsgs.run ⟨info, []⟩ ops).info.msgs.areaCount = info.msgs.areaCount := by
  obtain ⟨⟨a, n, hcov⟩, hcount⟩ := run_covered (start_covered h hpos) hops
  exact ⟨hcov.freeKept, hcount⟩

/-! ### Reloads with more and with fewer queues -/

/-- A node with a queue for the server and one for clients. -/
def sampleInfo : ChmInfo :=
  (ChmInfo.start ChmpxMan.sampleEnv (ChmInfo.sampleInfoCfg ChmpxMan.sampleGroup 1 1)
    ChmInfo.emptyOutside).get (by decide +kernel)

theorem sampleInfo_eq :
    ChmInfo.start ChmpxMan.sampleEnv (ChmInfo.sampleInfoCfg ChmpxMan.sampleGroup 1 1)
      ChmInfo.emptyOutside = some sampleInfo :=
  (Option.some_get _).symm

def sampleReload (maxClientMqCnt : Int) : InfoOp :=
  .reload ChmpxMan.sampleEnv (ChmInfo.sampleInfoCfg ChmpxMan.sampleGroup 1 maxClientMqCnt) true

instance decStepCovers (s : HeldMsgs) : DecidablePred (StepCovers s)
  | .msg (.assign ..) => inferInstanceAs (Decidable (∀ p, _ = some p → _))
  | .msg (.free _) | .msg (.activate ..) | .msg (.disactivate ..) | .msg (.random ..) =>
    .isTrue trivial
  | .reload .. => inferInstanceAs (Decidable (_ → _))

instance decRunCovers (s : HeldMsgs) : DecidablePred (RunCovers s)
  | [] => .isTrue trivial
  | op :: ops => @instDecidableAnd _ _ (decStepCovers s op) (decRunCovers (s.exec op) ops)

theorem run_freeKept_sample :
    FreeKept (HeldMsgs.run ⟨sampleInfo, []⟩ [.msg (.assign 7 false true), sampleReload 0,
      sampleReload 1, .msg (.assign 7 false false)]) :=
  (run_freeKept sampleInfo_eq (by decide) (by decide +kernel)).1

/-- After an accepted reload with fewer queues a msgid that is handed out is not freed; after
one with more, `FreeMsg` looks at a head behind the area. -/
theorem reload_not_freeKept :
    let s : HeldMsgs := HeldMsgs.run ⟨sampleInfo, []⟩
      [.msg (.assign 7 false true), .msg (.assign 7 false true)]
    let reloaded := fun n => s.info.reloadConfiguration ChmpxMan.sampleEnv
      (ChmInfo.sampleInfoCfg ChmpxMan.sampleGroup 1 n) true
    let msgid := (sampleInfo.msgs.msghead 1).msgid
    msgid ∈ s.held ∧
      (reloaded 0).1 = true ∧ ((reloaded 0).2.msgs.freeMsg msgid).1 = false ∧
      (reloaded 2).1 = true ∧ 2 ∈ (reloaded 2).2.msgs.freeMsgReach (msgid + 1) ∧
        (reloaded 2).2.msgs.areaCount = 2 := by
  decide +kernel

end HeldMsgs
end Chm
