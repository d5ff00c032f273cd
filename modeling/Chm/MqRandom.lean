/-
The msgid that `GetRandomMsgId` hands out for a send.

It is the one after the msgid handed out last, in the list where that one is now.  Freeing
a msgid forgets it; disactivating does not.
-/
import Chm.MqRuns

namespace Chm

namespace MsgInfo

variable {m m' : MsgInfo} {a : MsgKind → List Ptr} {k : MsgKind} {p q : Ptr}

/-- The msgid of a head of a list, or none. -/
def Cached (m : MsgInfo) (l : List Ptr) (msgid : Nat) : Prop :=
  msgid = chmInvalidMsgId ∨ ∃ p ∈ l, (m.msghead p).msgid = msgid

/-- The list whose msgids somebody reads. -/
def readKind (isChmpx : Bool) : MsgKind := if isChmpx then .chmpx else .activated

/-- The last msgids are of heads in the lists that they are taken from. -/
def LastsKept (m : MsgInfo) (a : MsgKind → List Ptr) : Prop :=
  ∀ isChmpx, Cached m (a (readKind isChmpx)) (m.lastMsgid isChmpx true)

/-- A msgid that is assigned, activated and of the kind. -/
def Readable (m : MsgInfo) (isChmpx : Bool) (msgid : Nat) : Prop :=
  ∃ p < m.areaCount, (m.msghead p).msgid = msgid ∧ (m.msghead p).flag.isAssigned = true ∧
    (m.msghead p).flag.isActivated = true ∧
      (if isChmpx then (m.msghead p).flag.isChmpxproc else (m.msghead p).flag.isClientproc) = true

/-- `GetRandomMsgId` for a send returns nothing or what somebody reads. -/
def RandomReadable (m : MsgInfo) : Prop :=
  ∀ isChmpx, (m.getRandomMsgId isChmpx true).1 = chmInvalidMsgId ∨
    Readable m isChmpx (m.getRandomMsgId isChmpx true).1

section Random

theorem readable_of_mem {isChmpx : Bool} (h : Placing m a) (hp : p ∈ a (readKind isChmpx)) :
    Readable m isChmpx (m.msghead p).msgid := by
  refine ⟨p, h.lt hp, rfl, ?_⟩
  rw [h.flag _ p hp]
  cases isChmpx <;> decide

theorem toNext_mem (h : Placing m a) (hp : p ∈ a k) : m.toNext p ∈ a k := by
  rw [toNext]
  cases hn : m.links.next p with
  | none => exact List.mem_of_head? (h.first hp).symm
  | some q => exact (h.chains_front k).next_mem hp hn

theorem find_of_mem (h : Placing m a) (hmax : m.maxMqueue = m.areaCount) (hp : p ∈ a k) :
    m.find (m.msghead p).msgid = some p :=
  find_msgid h hmax (Nat.le_refl _) (h.lt hp)

theorem nextMsgid_of_mem (h : Placing m a) (hmax : m.maxMqueue = m.areaCount) (hp : p ∈ a k) :
    m.nextMsgid (m.msghead p).msgid = (m.msghead (m.toNext p)).msgid := by
  rw [nextMsgid, if_neg (msgid_ne_invalid h (h.lt hp)), find_of_mem h hmax hp]

/-- After the last msgid comes the next one of the same list. -/
theorem nextMsgid_cached (h : Placing m a) (hmax : m.maxMqueue = m.areaCount) {last : Nat}
    (hlast : Cached m (a k) last) : Cached m (a k) (m.nextMsgid last) := by
  rcases hlast with rfl | ⟨p, hp, rfl⟩
  · exact Or.inl (by rw [nextMsgid, if_pos rfl])
  · rw [nextMsgid_of_mem h hmax hp]
    exact Or.inr ⟨_, toNext_mem h hp, rfl⟩

theorem baseMsgs_mem (h : Placing m a) {isChmpx : Bool}
    (hb : m.baseMsgs isChmpx true = some p) : p ∈ a (readKind isChmpx) := by
  have hhead : m.listHead (readKind isChmpx) = some p := by
    cases isChmpx with
    | true =>
      have hb' : (if m.chmpxMsgCount = 0 then none else m.chmpxMsgs) = some p := hb
      split at hb'
      · cases hb'
      · exact hb'
    | false =>
      have hb' : (if m.activatedMsgCount = 0 then none else m.activatedMsgs) = some p := hb
      split at hb'
      · cases hb'
      · exact hb'
  rw [h.head] at hhead
  exact List.mem_of_head? hhead

theorem getRandomMsgId_cached (h : Placing m a) (hmax : m.maxMqueue = m.areaCount)
    (hlast : LastsKept m a) (isChmpx : Bool) :
    Cached m (a (readKind isChmpx)) (m.getRandomMsgId isChmpx true).1 := by
  have hnext := nextMsgid_cached h hmax (hlast isChmpx)
  rw [getRandomMsgId]
  dsimp only
  split
  · exact hnext
  · split
    · exact Or.inl rfl
    · rename_i p hb
      exact Or.inr ⟨p, baseMsgs_mem h hb, rfl⟩

theorem randomReadable_of_lastsKept (h : Placing m a) (hmax : m.maxMqueue = m.areaCount)
    (hlast : LastsKept m a) : RandomReadable m := by
  intro isChmpx
  rcases getRandomMsgId_cached h hmax hlast isChmpx with he | ⟨p, hp, he⟩
  · exact Or.inl he
  · rw [← he]
    exact Or.inr (readable_of_mem h hp)

/-! ### Steps that spare the last msgid -/

/-- A step that does not disactivate the msgid that was handed out last. -/
def SparesLast (m : MsgInfo) : MsgOp → Prop
  | .disactivate _ msgid => msgid = m.lastMsgidActivated → msgid = chmInvalidMsgId
  | _ => True

/-- A run of such steps. -/
def RunSpares (m : MsgInfo) : List MsgOp → Prop
  | [] => True
  | op :: ops => SparesLast m op ∧ RunSpares (m.exec op) ops

instance decSparesLast (m : MsgInfo) : DecidablePred (SparesLast m)
  | .disactivate .. => inferInstanceAs (Decidable (_ → _))
  | .assign .. | .free _ | .activate .. | .random .. => .isTrue trivial

instance decRunSpares (m : MsgInfo) : DecidablePred (RunSpares m)
  | [] => .isTrue trivial
  | op :: ops => @instDecidableAnd _ _ (decSparesLast m op) (decRunSpares (m.exec op) ops)

/-- A cached msgid stays one while its head is not moved. -/
theorem Cached.move {k' : MsgKind} {l : Nat} (hc : Cached m (a k) l) (hpl : Placing m a)
    {j : MsgKind} (hp : p ∈ a j) (hne : l = chmInvalidMsgId ∨ (m.msghead p).msgid ≠ l)
    (hids : ∀ p, (m'.msghead p).msgid = (m.msghead p).msgid) :
    Cached m' (MsgInfo.move a p j k' k) l := by
  rcases hc with hl | ⟨q, hq, rfl⟩
  · exact Or.inl hl
  · refine Or.inr ⟨q, (mem_move hpl hp).mpr (Or.inr ⟨?_, hq⟩), hids q⟩
    rintro rfl
    rcases hne with hl | hne
    · exact msgid_ne_invalid hpl (hpl.lt hq) hl
    · exact hne rfl

theorem Cached.congr {l : Nat} (hc : Cached m (a k) l)
    (hids : ∀ p, (m'.msghead p).msgid = (m.msghead p).msgid) : Cached m' (a k) l := by
  rcases hc with hl | ⟨q, hq, rfl⟩
  · exact Or.inl hl
  · exact Or.inr ⟨q, hq, hids q⟩

/-- A cached msgid is not of a head of another list. -/
theorem Cached.ne_of_mem {l : Nat} (hc : Cached m (a k) l) (hpl : Placing m a) {j : MsgKind}
    (hp : p ∈ a j) (hj : j ≠ k) : l = chmInvalidMsgId ∨ (m.msghead p).msgid ≠ l := by
  rcases hc with hl | ⟨q, hq, rfl⟩
  · exact Or.inl hl
  · refine Or.inr fun he => hj ?_
    have hpq := msgid_inj hpl (hpl.lt hp) (hpl.lt hq) he
    subst hpq
    exact hpl.kind_unique hp hq

theorem lastMsgid_sameIds (hs : SameIds m m') (isChmpx : Bool) :
    m'.lastMsgid isChmpx true = m.lastMsgid isChmpx true := by
  cases isChmpx with
  | true => exact hs.lastMsgidChmpx
  | false => exact hs.lastMsgidActivated

theorem lastMsgid_clearLast (m : MsgInfo) (msgid : Nat) (isChmpx : Bool) :
    (m.clearLast msgid).lastMsgid isChmpx true =
      if msgid = m.lastMsgid isChmpx true then chmInvalidMsgId else m.lastMsgid isChmpx true := by
  cases isChmpx <;> rfl

theorem assign_lastsKept (h : Placing m a) (hl : LastsKept m a) (self : Nat)
    (isChmpx isActivated : Bool) :
    ∃ a', Placing (m.assignMsg self isChmpx isActivated).2 a' ∧
      SameArea m (m.assignMsg self isChmpx isActivated).2 ∧
        LastsKept (m.assignMsg self isChmpx isActivated).2 a' := by
  rcases assignMsg_spec h self isChmpx isActivated with ⟨-, he⟩ | ⟨p, fs, hfree, -, hpl, hs⟩
  · rw [he]
    exact ⟨a, h, ⟨rfl, rfl, rfl⟩, hl⟩
  · have hp : p ∈ a .free := by rw [hfree]; exact List.mem_cons_self
    refine ⟨_, hpl, hs.sameArea, fun isChmpx' => ?_⟩
    have hj : MsgKind.free ≠ readKind isChmpx' := by cases isChmpx' <;> decide
    rw [lastMsgid_sameIds hs]
    exact (hl isChmpx').move h hp ((hl isChmpx').ne_of_mem h hp hj) hs.msgid

theorem free_lastsKept (h : Placing m a) (hmax : m.maxMqueue = m.areaCount) (hl : LastsKept m a)
    (msgid : Nat) :
    ∃ a', Placing (m.freeMsg msgid).2 a' ∧ SameArea m (m.freeMsg msgid).2 ∧
      LastsKept (m.freeMsg msgid).2 a' := by
  obtain ⟨hs, hcases⟩ := freeMsg_cases h hmax (Nat.le_refl _) msgid
  have hlast : ∀ isChmpx, Cached m (a (readKind isChmpx))
      ((m.freeMsg msgid).2.lastMsgid isChmpx true) := by
    intro isChmpx
    rw [lastMsgid_sameIds hs, lastMsgid_clearLast]
    split
    · exact Or.inl rfl
    · exact hl isChmpx
  rcases hcases with ⟨p, k, hf, hp, -, hpl⟩ | ⟨-, hpl⟩
  · refine ⟨_, hpl, ⟨hs.maxMqueue, hs.baseMsgid, hs.areaCount⟩, fun isChmpx => ?_⟩
    -- The msgid of the head that leaves is forgotten.
    have hne : (m.freeMsg msgid).2.lastMsgid isChmpx true = chmInvalidMsgId ∨
        (m.msghead p).msgid ≠ (m.freeMsg msgid).2.lastMsgid isChmpx true := by
      rw [lastMsgid_sameIds hs, lastMsgid_clearLast, msgid_of_find hf]
      by_cases he : msgid = m.lastMsgid isChmpx true
      · exact Or.inl (if_pos he)
      · rw [if_neg he]
        exact Or.inr he
    exact (hlast isChmpx).move h hp hne hs.msgid
  · exact ⟨a, hpl, ⟨hs.maxMqueue, hs.baseMsgid, hs.areaCount⟩,
      fun isChmpx => (hlast isChmpx).congr hs.msgid⟩

/-- A change of the activation keeps the last msgids if it does not take a head away from
them. -/
theorem setMqFlagStatus_lastsKept (h : Placing m a) (hmax : m.maxMqueue = m.areaCount)
    (hl : LastsKept m a) (self msgid : Nat) (isActivated : Bool)
    (hspare : isActivated = false → msgid = m.lastMsgidActivated → msgid = chmInvalidMsgId) :
    ∃ a', Placing (m.setMqFlagStatus self msgid true isActivated).2 a' ∧
      SameArea m (m.setMqFlagStatus self msgid true isActivated).2 ∧
        LastsKept (m.setMqFlagStatus self msgid true isActivated).2 a' := by
  obtain ⟨hs, ⟨p, hf, hp, hpl⟩ | hpl⟩ :=
    setMqFlagStatus_cases h hmax (Nat.le_refl _) self msgid isActivated
  · refine ⟨_, hpl, hs.sameArea, fun isChmpx => ?_⟩
    rw [lastMsgid_sameIds hs]
    have hne : m.lastMsgid isChmpx true = chmInvalidMsgId ∨
        (m.msghead p).msgid ≠ m.lastMsgid isChmpx true := by
      by_cases hj : clientKind (!isActivated) = readKind isChmpx
      · -- The head leaves the activated list, so it is not the one handed out last.
        have hact : isActivated = false ∧ isChmpx = false := by
          cases isActivated <;> cases isChmpx <;>
            first | exact ⟨rfl, rfl⟩ | exact absurd hj (by decide)
        rw [hact.2, msgid_of_find hf]
        by_cases he : msgid = m.lastMsgidActivated
        · exact Or.inl (he.symm.trans (hspare hact.1 he))
        · exact Or.inr he
      · exact (hl isChmpx).ne_of_mem h hp hj
    exact (hl isChmpx).move h hp hne hs.msgid
  · refine ⟨a, hpl, hs.sameArea, fun isChmpx => ?_⟩
    rw [lastMsgid_sameIds hs]
    exact (hl isChmpx).congr hs.msgid

theorem random_lastsKept (h : Placing m a) (hmax : m.maxMqueue = m.areaCount)
    (hl : LastsKept m a) (isChmpx isActivated : Bool) :
    LastsKept (m.getRandomMsgId isChmpx isActivated).2 a := by
  rcases getRandomMsgId_cases m isChmpx isActivated with he | he
  · rw [he]
    exact hl
  · rw [he]
    have hres := getRandomMsgId_cached h hmax hl
    intro isChmpx'
    cases isChmpx with
    | true =>
      -- For the server's queues the second argument is not looked at.
      have hsame : m.getRandomMsgId true isActivated = m.getRandomMsgId true true := rfl
      cases isChmpx' with
      | true =>
        rw [hsame]
        exact hres true
      | false => exact hl false
    | false =>
      cases isActivated with
      | false =>
        cases isChmpx' with
        | true => exact hl true
        | false => exact hl false
      | true =>
        cases isChmpx' with
        | true => exact hl true
        | false => exact hres false

theorem exec_lastsKept (h : Placing m a) (hmax : m.maxMqueue = m.areaCount) (hl : LastsKept m a)
    {op : MsgOp} (hspare : SparesLast m op) :
    ∃ a', Placing (m.exec op) a' ∧ SameArea m (m.exec op) ∧ LastsKept (m.exec op) a' := by
  cases op with
  | assign self isChmpx isActivated => exact assign_lastsKept h hl self isChmpx isActivated
  | free msgid => exact free_lastsKept h hmax hl msgid
  | activate self msgid =>
    exact setMqFlagStatus_lastsKept h hmax hl self msgid true (fun ht => by cases ht)
  | disactivate self msgid =>
    exact setMqFlagStatus_lastsKept h hmax hl self msgid false fun _ => hspare
  | random isChmpx isActivated =>
    have hr := getRandomMsgId_placing h isChmpx isActivated
    exact ⟨a, hr.1, hr.2, random_lastsKept h hmax hl isChmpx isActivated⟩

/-- Once the msgid handed out last is disactivated, the next one is of a disactivated head. -/
theorem not_randomReadable_of_disactivate (h : Placing m a) (hmax : m.maxMqueue = m.areaCount)
    (hl : LastsKept m a) (self : Nat) (hlast : m.lastMsgidActivated ≠ chmInvalidMsgId) :
    ¬ RandomReadable (m.exec (.disactivate self m.lastMsgidActivated)) := by
  obtain ⟨p, hp, he⟩ := (hl false).resolve_left hlast
  have he' : (m.msghead p).msgid = m.lastMsgidActivated := he
  have hf : m.find m.lastMsgidActivated = some p := by
    rw [← he']
    exact find_of_mem h hmax hp
  obtain ⟨hpl, hs⟩ := setMqFlagStatus_spec self h hlast hf false hp
  show ¬ RandomReadable (m.setMqFlagStatus self m.lastMsgidActivated true false).2
  generalize (m.setMqFlagStatus self m.lastMsgidActivated true false).2 = m' at hpl hs
  have hmax' : m'.maxMqueue = m'.areaCount := by rw [hs.maxMqueue, hs.areaCount, hmax]
  have hp' : p ∈ move a p .activated .assigned .assigned :=
    (mem_move h hp).mpr (Or.inl ⟨rfl, rfl⟩)
  have hn := toNext_mem hpl hp'
  have hres : (m'.getRandomMsgId false true).1 = (m'.msghead (m'.toNext p)).msgid := by
    have hlast' : m'.lastMsgid false true = (m'.msghead p).msgid := by
      rw [lastMsgid_sameIds hs, hs.msgid]
      exact he.symm
    rw [getRandomMsgId]
    dsimp only
    rw [hlast', nextMsgid_of_mem hpl hmax' hp', if_pos (msgid_ne_invalid hpl (hpl.lt hn))]
  intro hread
  rcases hread false with hbad | ⟨q, hq, hid, -, hact, -⟩
  · rw [hres] at hbad
    exact msgid_ne_invalid hpl (hpl.lt hn) hbad
  · have hqn := msgid_inj hpl hq (hpl.lt hn) (hid.trans hres)
    rw [hqn, hpl.flag _ _ hn] at hact
    exact absurd hact (by decide)

/-- From a start with a queue, all that is handed out for a send along a run is read by
somebody, if and only if no step disactivates the msgid handed out last. -/
theorem run_randomReadable_iff {env : Env} {cfg : InfoCfg}
    {outside : Links Ptr × (Ptr → MqMsgHead)} (h : ChmInfo.startMsgs env cfg outside = some m)
    (hpos : 0 < cfg.maxMqueue) (ops : List MsgOp) :
    (∀ pre, pre <+: ops → RandomReadable (m.run pre)) ↔ RunSpares m ops := by
  obtain ⟨hpl, hmax⟩ := startMsgs_kept h hpos
  have hl : LastsKept m (allFree m.areaCount) := by
    have he := initializeMsgs_eq h
    intro isChmpx
    cases isChmpx with
    | true => exact Or.inl he.2.2.2.1
    | false => exact Or.inl he.2.2.2.2.1
  clear h hpos
  generalize allFree m.areaCount = a at hpl hl
  induction ops generalizing m a with
  | nil =>
    refine ⟨fun _ => trivial, fun _ pre hpre => ?_⟩
    rw [List.prefix_nil.mp hpre]
    exact randomReadable_of_lastsKept hpl hmax hl
  | cons op ops ih =>
    have hstep : SparesLast m op → ((∀ pre, pre <+: ops → RandomReadable ((m.exec op).run pre)) ↔
        RunSpares (m.exec op) ops) := by
      intro hspare
      obtain ⟨a', hpl', hs, hl'⟩ := exec_lastsKept hpl hmax hl hspare
      exact ih (by rw [hs.maxMqueue, hs.areaCount, hmax]) a' hpl' hl'
    constructor
    · intro hall
      have hspare : SparesLast m op := by
        cases op with
        | disactivate self msgid =>
          rintro rfl
          by_contra hne
          exact not_randomReadable_of_disactivate hpl hmax hl self hne
            (hall [.disactivate self m.lastMsgidActivated] ⟨ops, rfl⟩)
        | _ => trivial
      exact ⟨hspare, (hstep hspare).mp fun pre hpre =>
        hall (op :: pre) (List.cons_prefix_cons.mpr ⟨rfl, hpre⟩)⟩
    · rintro ⟨hspare, hrest⟩ pre hpre
      rcases List.prefix_cons_iff.mp hpre with rfl | ⟨t, rfl, ht⟩
      · exact randomReadable_of_lastsKept hpl hmax hl
      · exact (hstep hspare).mpr hrest t ht

/-- Two activated heads, one of which is handed out and then another disactivated. -/
def sparingOps : List MsgOp :=
  [.assign 7 false true, .assign 7 false true, .random false true,
    .disactivate 7 (sampleMsgs.assignMsg 7 false true).1]

/-- The only activated head is handed out, and then disactivated. -/
def losingOps : List MsgOp :=
  [.assign 7 false true, .random false true,
    .disactivate 7 (sampleMsgs.assignMsg 7 false true).1]

theorem run_randomReadable_sample : RandomReadable (sampleMsgs.run sparingOps) :=
  (run_randomReadable_iff sampleMsgs_eq (by decide) sparingOps).mpr (by decide +kernel)
    sparingOps List.prefix_rfl

theorem random_disactivated :
    let m := sampleMsgs.run losingOps
    (m.getRandomMsgId false true).1 = (sampleMsgs.assignMsg 7 false true).1 ∧
      (m.getRandomMsgId false true).1 ≠ chmInvalidMsgId ∧
        m.isMsgidActivated (m.getRandomMsgId false true).1 = false ∧ ¬ RandomReadable m := by
  intro m
  refine ⟨by decide +kernel, by decide +kernel, by decide +kernel, ?_⟩
  simp only [RandomReadable, Readable]
  decide +kernel

end Random

end MsgInfo
end Chm
