/-
The walks along the ring of servers.

A node reads its server list as a circle from itself on.  `GetNextRingChmpxId` is the
first server of that circle that is up, and `IsSafeDeptAndNextChmpxId` looks which of two
servers it meets first.
-/
import Chm.EventSock
import Chm.Lib.Circle
import Mathlib.Data.List.Find

namespace Chm

namespace ChmpxMan

variable {m : ChmpxMan} {svrs frees : List Ptr} {rest : List (List Ptr)} {p q : Ptr}

/-- The chmpxids of the server list. -/
def ringIds (m : ChmpxMan) : List ChmpxId :=
  (m.nodes m.chmpxServers).map fun p => (m.chmpx p).chmpxid

/-! ## `ToNext` -/

theorem Lists.next_or_first (h : Lists m svrs frees rest) (hp : p ∈ svrs) :
    (match m.links.next p with
      | some q => q
      | none => m.first p) = ((Circle.behind svrs p).head?).getD p := by
  obtain ⟨u, v, -, he, hb⟩ := Circle.behind_split hp
  have hn : m.links.next p = v.head? := by
    have hc := h.chains
    rw [he] at hc
    exact hc.next_of_split
  have hf := h.first_eq hp
  rw [hn, hb]
  cases v with
  | cons q v => rfl
  | nil =>
    rw [List.nil_append]
    show m.first p = u.head?.getD p
    rw [he] at hf
    cases u with
    | nil => exact Option.some.inj hf
    | cons q u => exact Option.some.inj hf

/-- The loop of `ToNext` that has still to see `w` before it is back. -/
theorem Lists.toNextLoop_eq (h : Lists m svrs frees rest) (hp : p ∈ svrs) (passes : Chmpx → Bool)
    (fuel : Nat) :
    ∀ (s w : List Ptr), Circle.behind svrs p = s ++ w → w.length < fuel →
      m.toNextLoop true passes p fuel (w.head?.getD p) = w.find? fun q => passes (m.chmpx q) := by
  induction fuel with
  | zero => exact fun _ w _ hw => absurd hw (Nat.not_lt_zero _)
  | succ fuel ih =>
    intro s w hb hw
    have hnot := Circle.notMem_behind h.nodup_svrs hp
    cases w with
    | nil =>
      show (if p = p then none else _) = none
      exact if_pos rfl
    | cons q w =>
      rw [hb] at hnot
      have hq : q ∈ svrs := by
        apply Circle.mem_of_mem_behind hp
        rw [hb]
        simp
      have hne : q ≠ p := by
        rintro rfl
        exact hnot (by simp)
      have hwalk := h.next_or_first hq
      rw [Circle.behind_of_behind h.nodup_svrs hp hb] at hwalk
      have hgo := ih (s ++ [q]) w (by rw [hb]; simp) (Nat.lt_of_succ_lt_succ hw)
      have hhead : ((w ++ p :: s).head?).getD q = w.head?.getD p := by
        cases w <;> rfl
      rw [hhead] at hwalk
      rw [List.head?_cons, Option.getD_some, toNextLoop, if_neg hne, List.find?_cons]
      cases hpass : passes (m.chmpx q) with
      | true => rfl
      | false =>
        rw [← hgo, ← hwalk]
        cases m.links.next q <;> rfl

theorem Lists.toNextPassing_eq (h : Lists m svrs frees rest) (hp : p ∈ svrs)
    (passes : Chmpx → Bool) :
    m.toNextPassing true passes p =
      (Circle.behind svrs p).find? fun q => passes (m.chmpx q) := by
  have hlen : (Circle.behind svrs p).length < m.chmpxCount + 1 := by
    have hperm := (Circle.cons_behind_perm hp).length_eq
    have hle : svrs.length ≤ m.chmpxCount := h.length_le List.mem_cons_self
    rw [List.length_cons] at hperm
    omega
  have hloop := h.toNextLoop_eq hp passes (m.chmpxCount + 1) [] (Circle.behind svrs p) rfl hlen
  rw [← h.next_or_first hp] at hloop
  rw [← hloop, toNextPassing]
  cases m.links.next p <;> rfl

/-- The next server that is up. -/
theorem Lists.getNextRingChmpxId_eq (h : Lists m svrs frees rest) (hself : m.chmpxSelf = some p)
    (hp : p ∈ svrs) :
    m.getNextRingChmpxId =
      match (Circle.behind svrs p).find? fun q => (m.chmpx q).status.isUp with
      | none => chmInvalidChmpxId
      | some q => (m.chmpx q).chmpxid := by
  have hmode : m.isServerMode = true := by
    rw [isServerMode, hself]
    exact h.server hp
  rw [getNextRingChmpxId, hmode, hself, Option.bind_some, h.toNextPassing_eq hp]
  rfl

/-! ## `GetNextServerPos` -/

/-- A walk from `p` is at `q` and has still to see `w`. -/
def WalkAt (svrs : List Ptr) (p q : Ptr) (w : List Ptr) : Prop :=
  q = p ∧ w = Circle.behind svrs p ∨ ∃ s, Circle.behind svrs p = s ++ q :: w

theorem WalkAt.step {c : Ptr} {w : List Ptr} (h : WalkAt svrs p q (c :: w)) :
    WalkAt svrs p c w := by
  rcases h with ⟨-, h⟩ | ⟨s, h⟩
  · exact Or.inr ⟨[], h.symm⟩
  · exact Or.inr ⟨s ++ [q], by rw [h]; simp⟩

theorem WalkAt.mem {c : Ptr} {w : List Ptr} (h : WalkAt svrs p q w) (hc : c ∈ w) :
    c ∈ Circle.behind svrs p := by
  rcases h with ⟨-, rfl⟩ | ⟨s, h⟩
  · exact hc
  · rw [h]
    exact List.mem_append_right s (List.mem_cons_of_mem q hc)

theorem WalkAt.suffix {s w : List Ptr} {c : Ptr} (h : WalkAt svrs p q (s ++ c :: w)) :
    WalkAt svrs p c w := by
  rcases h with ⟨-, h⟩ | ⟨t, h⟩
  · exact Or.inr ⟨s, h.symm⟩
  · exact Or.inr ⟨t ++ q :: s, by rw [h]; simp⟩

theorem WalkAt.server {w : List Ptr} (h : WalkAt svrs p q w) (hp : p ∈ svrs) : q ∈ svrs := by
  rcases h with ⟨rfl, -⟩ | ⟨s, hs⟩
  · exact hp
  · apply Circle.mem_of_mem_behind hp
    rw [hs]
    simp

/-- A walk does not come back to where it started or is. -/
theorem WalkAt.notMem {w : List Ptr} (h : WalkAt svrs p q w) (hl : svrs.Nodup) (hp : p ∈ svrs) :
    p ∉ w ∧ q ∉ w := by
  have hnot := Circle.notMem_behind hl hp
  have hpw : p ∉ w := fun hmem => hnot (h.mem hmem)
  refine ⟨hpw, ?_⟩
  rcases h with ⟨rfl, -⟩ | ⟨s, hs⟩
  · exact hpw
  · have hnd := Circle.nodup_behind hl hp
    rw [hs] at hnd
    exact (Circle.notMem_of_split hnd).2

/-- What is behind the place of a walk: what it has still to see, and then its start. -/
theorem WalkAt.head_behind {w : List Ptr} (h : WalkAt svrs p q w) (hl : svrs.Nodup)
    (hp : p ∈ svrs) : (Circle.behind svrs q).head?.getD q = w.head?.getD p := by
  rcases h with ⟨rfl, rfl⟩ | ⟨s, hs⟩
  · rfl
  · rw [Circle.behind_of_behind hl hp hs]
    cases w <;> rfl

/-- The servers that a walk does not skip. -/
def keepsServer (m : ChmpxMan) (isSkipSelf : Bool) (q : Ptr) : Bool :=
  !(isSkipSelf && m.chmpxSelf = some q)

theorem keepsServer_iff {isSkipSelf : Bool} :
    m.keepsServer isSkipSelf q = true ↔ ¬(isSkipSelf = true ∧ m.chmpxSelf = some q) := by
  cases isSkipSelf <;> simp [keepsServer]

/-- The next position of a walk. -/
theorem Lists.getNextServerPos_walk (h : Lists m svrs frees rest)
    (hhead : m.chmpxServers = svrs.head?) (hp : p ∈ svrs) (isSkipSelf : Bool) {w : List Ptr}
    (hw : WalkAt svrs p q w) :
    m.getNextServerPos (some p) (some q) isSkipSelf true =
      (w.filter (m.keepsServer isSkipSelf)).head? := by
  have hq := hw.server hp
  have hne : m.chmpxServers ≠ none := by
    rw [hhead]
    intro hnil
    rw [List.head?_eq_none_iff.mp hnil] at hp
    exact absurd hp List.not_mem_nil
  have hcount : m.chmpxServerCount ≠ 0 := by
    have hle := h.serverCount
    have hpos := List.length_pos_of_mem hp
    omega
  have hnext : ∀ {r : Ptr} {u : List Ptr}, r ∈ svrs → WalkAt svrs p r u →
      (m.toNextPassing true (fun _ => true) r).getD r = u.head?.getD p := by
    intro r u hr hu
    rw [h.toNextPassing_eq hr, ← hu.head_behind h.nodup_svrs hp]
    cases Circle.behind svrs r <;> rfl
  obtain ⟨hpw, hqw⟩ := hw.notMem h.nodup_svrs hp
  simp only [getNextServerPos, hcount, hne, hnext hq hw, false_or, if_false, reduceCtorEq,
    false_and]
  cases w with
  | nil => simp
  | cons c w =>
    obtain ⟨hpc, hpw⟩ := List.ne_and_not_mem_of_not_mem_cons hpw
    obtain ⟨hqc, hqw⟩ := List.ne_and_not_mem_of_not_mem_cons hqw
    have hc : c ∈ svrs := Circle.mem_of_mem_behind hp (hw.mem List.mem_cons_self)
    rw [List.head?_cons, Option.getD_some, List.filter_cons, if_neg (by simp [hpc, hqc])]
    by_cases hskip : isSkipSelf = true ∧ m.chmpxSelf = some c
    · -- This node is next; the walk goes on to the one behind it.
      have hkeep : ¬m.keepsServer isSkipSelf c = true := fun hk => keepsServer_iff.mp hk hskip
      have hrest : w.filter (m.keepsServer isSkipSelf) = w := by
        refine List.filter_eq_self.mpr fun r hr => ?_
        have hrc : c ≠ r := by
          rintro rfl
          exact (hw.step.notMem h.nodup_svrs hp).2 hr
        exact keepsServer_iff.mpr fun ⟨_, hself⟩ => hrc (Option.some.inj (hskip.2.symm.trans hself))
      rw [if_pos hskip, if_neg hkeep, Option.map_some, hnext hc hw.step,
        hrest]
      cases w with
      | nil => simp
      | cons d w =>
        have hcd : c ≠ d := by
          rintro rfl
          exact (hw.step.notMem h.nodup_svrs hp).2 List.mem_cons_self
        have hpd : p ≠ d := fun he => hpw (he ▸ List.mem_cons_self)
        have hqd : q ≠ d := fun he => hqw (he ▸ List.mem_cons_self)
        simp [hskip.2, hcd, hpd, hqd]
    · rw [if_neg hskip, if_pos (keepsServer_iff.mpr hskip), List.head?_cons]

/-- The next position of a walk that started at this node. -/
theorem Lists.getNextServerPos_eq (h : Lists m svrs frees rest)
    (hhead : m.chmpxServers = svrs.head?) (hself : m.chmpxSelf = some p) (hp : p ∈ svrs)
    {w : List Ptr} (hw : WalkAt svrs p q w) :
    m.getNextServerPos (some p) (some q) true true = w.head? := by
  have hkeep : w.filter (m.keepsServer true) = w := by
    refine List.filter_eq_self.mpr fun r hr => ?_
    have hpr : p ≠ r := by
      rintro rfl
      exact (hw.notMem h.nodup_svrs hp).1 hr
    exact keepsServer_iff.mpr fun ⟨_, hr⟩ => hpr (Option.some.inj (hself.symm.trans hr))
  rw [h.getNextServerPos_walk hhead hp true hw, hkeep]

/-! ## `IsSafeDeptAndNextChmpxId` -/

theorem Lists.getServerBase_eq (h : Lists m svrs frees rest) (hp : p ∈ svrs) :
    m.getServerBase p = some (m.chmpx p).chmpxid := by
  rw [getServerBase, h.named hp]
  rfl

end ChmpxMan

namespace EventSock

open ChmpxMan

variable {m : ChmpxMan} {svrs frees : List Ptr} {rest : List (List Ptr)} {p q : Ptr}

theorem safeDeptLoop_eq (h : Lists m svrs frees rest) (hhead : m.chmpxServers = svrs.head?)
    (hself : m.chmpxSelf = some p) (hp : p ∈ svrs) (dept next : ChmpxId) (fuel : Nat) :
    ∀ (q : Ptr) (w : List Ptr), WalkAt svrs p q w → w.length < fuel →
      safeDeptLoop m dept next p fuel q =
        decide (((w.map fun c => (m.chmpx c).chmpxid).find? fun x => x = next || x = dept) =
          some next) := by
  induction fuel with
  | zero => exact fun _ w _ hw => absurd hw (Nat.not_lt_zero _)
  | succ fuel ih =>
    intro q w hw hlen
    rw [safeDeptLoop, h.getNextServerPos_eq hhead hself hp hw]
    cases w with
    | nil => rfl
    | cons c w =>
      have hc : c ∈ svrs := Circle.mem_of_mem_behind hp (hw.mem List.mem_cons_self)
      have hvalid : (m.chmpx c).chmpxid ≠ chmInvalidChmpxId := (h.isServer c hc).valid
      have hgo := ih c w hw.step (Nat.lt_of_succ_lt_succ hlen)
      rw [List.head?_cons]
      simp only [h.getServerBase_eq hc, if_neg hvalid, List.map_cons, List.find?_cons]
      by_cases hn : next = (m.chmpx c).chmpxid
      · simp [hn]
      · by_cases hd : dept = (m.chmpx c).chmpxid
        · simp [hn, hd, eq_comm]
        · rw [if_neg hn, if_neg hd, hgo]
          have hcn : ((m.chmpx c).chmpxid = next) = False := eq_false (Ne.symm hn)
          have hcd : ((m.chmpx c).chmpxid = dept) = False := eq_false (Ne.symm hd)
          simp [hcn, hcd]

/-! ## The ring in chmpxids -/

/-- A node in server mode with an intact server list that reads `ids`. -/
structure RingView (m : ChmpxMan) (ids : List ChmpxId) : Prop where
  wellFormed : WellFormed m
  isServerMode : m.isServerMode = true
  ids_eq : m.ringIds = ids

/-- The server list behind a view, with this node in it. -/
theorem RingView.spec {ids : List ChmpxId} (h : RingView m ids) :
    ∃ svrs frees rest p, Formed m svrs frees rest ∧ m.chmpxSelf = some p ∧ p ∈ svrs ∧
      ids = svrs.map (fun q => (m.chmpx q).chmpxid) ∧ m.getSelfChmpxId = (m.chmpx p).chmpxid ∧
      m.nodes m.chmpxServers = svrs := by
  obtain ⟨svrs, frees, rest, hf⟩ := h.wellFormed
  have hmode := h.isServerMode
  unfold ChmpxMan.isServerMode at hmode
  have hnodes := hf.lists.nodes_servers hf.head
  have hids := h.ids_eq
  rw [ringIds, hnodes] at hids
  cases hself : m.chmpxSelf with
  | none =>
    rw [hself] at hmode
    cases hmode
  | some p =>
    rw [hself] at hmode
    refine ⟨svrs, frees, rest, p, hf, rfl, hf.lists.server_mem p hmode, hids.symm, ?_, hnodes⟩
    rw [getSelfChmpxId, hself]

variable {ids : List ChmpxId} {dept next : ChmpxId}

theorem RingView.self_mem (h : RingView m ids) : m.getSelfChmpxId ∈ ids := by
  obtain ⟨svrs, frees, rest, p, -, -, hp, rfl, hid, -⟩ := h.spec
  rw [hid]
  exact List.mem_map_of_mem hp

theorem RingView.valid (h : RingView m ids) {x : ChmpxId} (hx : x ∈ ids) :
    x ≠ chmInvalidChmpxId := by
  obtain ⟨svrs, frees, rest, p, hf, -, -, rfl, -, -⟩ := h.spec
  obtain ⟨q, hq, rfl⟩ := List.mem_map.mp hx
  exact (hf.lists.isServer q hq).valid

/-- `IsSafeDeptAndNextChmpxId`: the next server comes before the departure, or is it. -/
theorem RingView.isSafe_eq (h : RingView m ids) (hnd : ids.Nodup)
    (hdept : dept ≠ chmInvalidChmpxId) (hnext : next ≠ chmInvalidChmpxId) :
    isSafeDeptAndNextChmpxId m dept next = true ↔
      dept = next ∨ (Circle.behind ids m.getSelfChmpxId).find? (fun x => x = next || x = dept) =
        some next := by
  obtain ⟨svrs, frees, rest, p, hf, hself, hp, rfl, hid, -⟩ := h.spec
  have hlen : (Circle.behind svrs p).length < m.chmpxCount + 1 := by
    have hperm := (Circle.cons_behind_perm hp).length_eq
    have hle : svrs.length ≤ m.chmpxCount := hf.lists.length_le List.mem_cons_self
    rw [List.length_cons] at hperm
    omega
  have hloop := safeDeptLoop_eq hf.lists hf.head hself hp dept next (m.chmpxCount + 1) p _
    (Or.inl ⟨rfl, rfl⟩) hlen
  rw [hid, Circle.behind_map hnd hp]
  unfold isSafeDeptAndNextChmpxId
  rw [if_neg (by simp [Ne.symm hdept, Ne.symm hnext]), hself]
  by_cases hd : dept = next
  · rw [if_pos hd]
    exact ⟨fun _ => Or.inl hd, fun _ => rfl⟩
  · rw [if_neg hd]
    dsimp only
    rw [hloop, decide_eq_true_eq]
    exact ⟨Or.inr, fun hor => hor.resolve_left hd⟩

/-- A safe transfer from a node that lists the departure does not pass it. -/
theorem RingView.towards (h : RingView m ids) (hnd : ids.Nodup)
    (hnext : next ≠ chmInvalidChmpxId) (hlisted : dept ∈ ids) (hne : dept ≠ m.getSelfChmpxId)
    (hsafe : isSafeDeptAndNextChmpxId m dept next = true) :
    Circle.Towards ids m.getSelfChmpxId dept next := by
  rcases (h.isSafe_eq hnd (h.valid hlisted) hnext).mp hsafe with hd | hfind
  · exact Or.inl hd.symm
  · by_cases hd : next = dept
    · exact Or.inl hd
    · obtain ⟨-, u, v, hb, hu⟩ := List.find?_eq_some_iff_append.mp hfind
      have hdept := Circle.mem_behind h.self_mem hlisted hne
      refine Or.inr ?_
      rw [hb] at hdept ⊢
      have hv : dept ∈ v := by
        rcases List.mem_append.mp hdept with hmem | hmem
        · exact absurd (hu dept hmem) (by simp)
        · exact (List.mem_cons.mp hmem).resolve_left (Ne.symm hd)
      exact (List.nil_sublist u).append ((List.singleton_sublist.mpr hv).cons_cons next)

/-- A transfer that does not pass the departure is safe. -/
theorem RingView.safe_of_towards (h : RingView m ids) (hnd : ids.Nodup) (hlisted : dept ∈ ids)
    (hnext : next ∈ ids) (ht : Circle.Towards ids m.getSelfChmpxId dept next) :
    isSafeDeptAndNextChmpxId m dept next = true := by
  refine (h.isSafe_eq hnd (h.valid hlisted) (h.valid hnext)).mpr ?_
  rcases ht with hd | hs
  · exact Or.inl hd.symm
  · refine Or.inr ?_
    have hb := Circle.nodup_behind hnd h.self_mem
    generalize Circle.behind ids m.getSelfChmpxId = l at hs hb
    induction l with
    | nil => cases hs
    | cons y l ih =>
      have hy := (List.nodup_cons.mp hb).1
      rw [List.find?_cons]
      by_cases hx : y = next
      · simp [hx]
      · have hl : [next, dept].Sublist l := by
          rcases List.sublist_cons_iff.mp hs with hs | ⟨r, hr, -⟩
          · exact hs
          · exact absurd (List.cons.inj hr).1.symm hx
        have hyd : y ≠ dept := by
          rintro rfl
          exact hy (hl.subset (by simp))
        simpa [hx, hyd] using ih hl (List.nodup_cons.mp hb).2

/-- The next server on the ring, when the node has `up` of the statuses. -/
theorem RingView.getNextRingChmpxId_eq (h : RingView m ids) (hnd : ids.Nodup)
    {up : ChmpxId → Bool}
    (hup : ∀ q ∈ m.nodes m.chmpxServers, (m.chmpx q).status.isUp = up (m.chmpx q).chmpxid) :
    m.getNextRingChmpxId =
      ((Circle.behind ids m.getSelfChmpxId).find? up).getD chmInvalidChmpxId := by
  obtain ⟨svrs, frees, rest, p, hf, hself, hp, rfl, hid, hnodes⟩ := h.spec
  rw [hnodes] at hup
  rw [hid, Circle.behind_map hnd hp, hf.lists.getNextRingChmpxId_eq hself hp, List.find?_map]
  have hfind : (Circle.behind svrs p).find? (fun q => (m.chmpx q).status.isUp) =
      (Circle.behind svrs p).find? (up ∘ fun q => (m.chmpx q).chmpxid) := by
    apply List.find?_congr
    exact fun q hq => hup q (Circle.mem_of_mem_behind hp hq)
  rw [hfind]
  cases (Circle.behind svrs p).find? (up ∘ fun q => (m.chmpx q).chmpxid) <;> rfl

end EventSock
end Chm
