/-
The notice that a server is down, around the ring.

The lists of the nodes do not agree while a notice is on its way: the next server of a node is the
first one that this node takes to be up.  While no node takes a server down that the others count
on, the notice passes none of these over, so once it is back at its departure all of them have
taken the server down (`reachable_down`), however many servers go down at once.
-/
import Chm.ServerDown

namespace Chm

/-- The nodes, the notices on their way, and those that are back at their departure. -/
structure DownNet where
  nodes : ChmpxId → EventSock
  flying : List ServerDown
  returned : List ServerDown

/-- A node changes, a node loses its sockets to a server, or a notice comes in or is lost. -/
inductive DownEvent
  | change (y : ChmpxId) (s : EventSock)
  | hup (y : ChmpxId) (io : Outside) (chmpxid : ChmpxId)
  | deliver (io : Outside) (l₁ : List ServerDown) (pkt : ServerDown) (l₂ : List ServerDown)
  | lose (l₁ : List ServerDown) (pkt : ServerDown) (l₂ : List ServerDown)

namespace DownNet

open EventSock

variable {net : DownNet} {nodes nodes' : ChmpxId → EventSock} {ring : List ChmpxId}
variable {live : ChmpxId → Bool} {pkt : ServerDown} {y : ChmpxId} {s : EventSock}

/-- A notice is on its way before it comes in or is lost. -/
def Possible (net : DownNet) : DownEvent → Prop
  | .change _ _ | .hup _ _ _ => True
  | .deliver _ l₁ pkt l₂ | .lose l₁ pkt l₂ => net.flying = l₁ ++ pkt :: l₂

def happen (net : DownNet) : DownEvent → DownNet
  | .change y s => { net with nodes := Function.update net.nodes y s }
  | .hup y io chmpxid =>
    let (_, pkt, s) := (net.nodes y).serverDownNotifyHup io chmpxid
    { net with
      nodes := Function.update net.nodes y s
      flying := net.flying ++ pkt.toList }
  | .deliver io l₁ pkt l₂ =>
    let (_, next, s) := (net.nodes pkt.term).processingServerDown io pkt
    { nodes := Function.update net.nodes pkt.term s
      flying := l₁ ++ next.toList ++ l₂
      returned := if pkt.dept = pkt.term then net.returned ++ [pkt] else net.returned }
  | .lose l₁ _ l₂ => { net with flying := l₁ ++ l₂ }

theorem nodes_hup (net : DownNet) (y : ChmpxId) (io : Outside) (x z : ChmpxId) :
    (net.happen (.hup y io x)).nodes z =
      Function.update net.nodes y ((net.nodes y).serverDownNotifyHup io x).2.2 z := rfl

theorem nodes_deliver (net : DownNet) (io : Outside) (l₁ l₂ : List ServerDown) (pkt : ServerDown)
    (z : ChmpxId) :
    (net.happen (.deliver io l₁ pkt l₂)).nodes z = Function.update net.nodes pkt.term
      ((net.nodes pkt.term).processingServerDown io pkt).2.2 z := rfl

/-- The nets of a run whose events all meet `ok`.  It starts without notices. -/
inductive Reachable (ok : DownNet → DownEvent → Prop) : DownNet → Prop
  | init (nodes : ChmpxId → EventSock) : Reachable ok ⟨nodes, [], []⟩
  | step {net : DownNet} (e : DownEvent) :
      Reachable ok net → net.Possible e → ok net e → Reachable ok (net.happen e)

/-- The `live` servers are those that every acting node takes to be up, and no node sets another
server up. -/
def Steady (ring : List ChmpxId) (live : ChmpxId → Bool) (net : DownNet) : DownEvent → Prop
  | .change y s => ∀ x, live x = false → Down x (net.nodes y).man → Down x s.man
  | .hup y _ chmpxid =>
    LiveView ring live y (net.nodes y).man ∧ live y = true ∧ live chmpxid = false
  | .deliver _ _ pkt _ => LiveView ring live pkt.term (net.nodes pkt.term).man
  | .lose _ _ _ => True

/-! ## Whom a notice has told -/

/-- What is down at a node stays down there. -/
def Keeps (live : ChmpxId → Bool) (nodes nodes' : ChmpxId → EventSock) : Prop :=
  ∀ z x, live x = false → Down x (nodes z).man → Down x (nodes' z).man

/-- The live servers on the way of a notice, from its departure to where it goes now, have the
server down. -/
structure Passed (ring : List ChmpxId) (live : ChmpxId → Bool) (nodes : ChmpxId → EventSock)
    (pkt : ServerDown) : Prop where
  dept_mem : pkt.dept ∈ ring
  dept_live : live pkt.dept = true
  gone : live pkt.chmpxid = false
  own : Down pkt.chmpxid (nodes pkt.dept).man
  round : ∃ u v, Circle.round ring pkt.dept = u ++ pkt.term :: v ∧
    ∀ z ∈ u, live z = true → Down pkt.chmpxid (nodes z).man

/-- All live servers have the server of a notice down. -/
structure TakenDown (ring : List ChmpxId) (live : ChmpxId → Bool) (nodes : ChmpxId → EventSock)
    (pkt : ServerDown) : Prop where
  gone : live pkt.chmpxid = false
  down : ∀ z ∈ ring, live z = true → Down pkt.chmpxid (nodes z).man

theorem Passed.mono (h : Passed ring live nodes pkt) (hkeep : Keeps live nodes nodes') :
    Passed ring live nodes' pkt := by
  obtain ⟨u, v, hround, hu⟩ := h.round
  exact ⟨h.dept_mem, h.dept_live, h.gone, hkeep _ _ h.gone h.own, u, v, hround,
    fun z hz hlive => hkeep z _ h.gone (hu z hz hlive)⟩

theorem TakenDown.mono (h : TakenDown ring live nodes pkt) (hkeep : Keeps live nodes nodes') :
    TakenDown ring live nodes' pkt :=
  ⟨h.gone, fun z hz hlive => hkeep z _ h.gone (h.down z hz hlive)⟩

theorem keeps_update (h : ∀ x, live x = false → Down x (nodes y).man → Down x s.man) :
    Keeps live nodes (Function.update nodes y s) := by
  intro z x hx hdown
  by_cases hz : z = y
  · subst hz
    rw [Function.update_self]
    exact h x hx hdown
  · rw [Function.update_of_ne hz]
    exact hdown

/-- Back at its departure a notice has been at every live server. -/
theorem Passed.takenDown (h : Passed ring live nodes pkt) (hnd : ring.Nodup)
    (hback : pkt.dept = pkt.term) : TakenDown ring live nodes pkt := by
  obtain ⟨u, v, hround, hu⟩ := h.round
  rw [← hback] at hround
  have hend := Circle.round_end hnd h.dept_mem hround
  refine ⟨h.gone, fun z hz hlive => ?_⟩
  by_cases hzd : z = pkt.dept
  · rw [hzd]
    exact h.own
  · refine hu z ?_ hlive
    rw [hend]
    exact Circle.mem_behind h.dept_mem hz hzd

/-! ## One event -/

/-- A hang-up. -/
theorem hup_spec (hnd : ring.Nodup) {x : ChmpxId} (hview : LiveView ring live y (nodes y).man)
    (hlive : live y = true) (hx : live x = false) (io : Outside) :
    let r := (nodes y).serverDownNotifyHup io x
    Keeps live nodes (Function.update nodes y r.2.2) ∧
      ∀ pkt ∈ r.2.1, Passed ring live (Function.update nodes y r.2.2) pkt := by
  dsimp only
  obtain ⟨hkeep, hsent⟩ := hview.notifyHup hnd hlive hx io
  refine ⟨keeps_update hkeep, fun pkt hp => ?_⟩
  obtain ⟨hdept, hgone, -, hdown, w, v, hround, hw⟩ := hsent pkt hp
  refine ⟨?_, ?_, ?_, ?_, w, v, ?_, fun z hz hzl => ?_⟩
  · rw [hdept]
    exact hview.self ▸ hview.toRingView.self_mem
  · rw [hdept]
    exact hlive
  · rw [hgone]
    exact hx
  · rw [hdept, hgone, Function.update_self]
    exact hdown
  · rw [hdept]
    exact hround
  · rw [hw z hz] at hzl
    cases hzl

/-- A notice that comes in. -/
theorem deliver_spec (hnd : ring.Nodup) (h : Passed ring live nodes pkt)
    (hview : LiveView ring live pkt.term (nodes pkt.term).man) (io : Outside) :
    let r := (nodes pkt.term).processingServerDown io pkt
    Keeps live nodes (Function.update nodes pkt.term r.2.2) ∧
      ∀ pkt' ∈ r.2.1, Passed ring live (Function.update nodes pkt.term r.2.2) pkt' := by
  dsimp only
  by_cases hback : pkt.dept = pkt.term
  · have hlive : live pkt.term = true := hback ▸ h.dept_live
    have hown : Down pkt.chmpxid (nodes pkt.term).man := hback ▸ h.own
    obtain ⟨hnone, hkeep⟩ := hview.processing_around hnd hlive pkt hback h.gone hown io
    refine ⟨keeps_update hkeep, fun pkt' hp => ?_⟩
    rw [hnone] at hp
    cases hp
  · obtain ⟨u, v, hround, hu⟩ := h.round
    obtain ⟨honly, htaken, hsent⟩ :=
      hview.processing hnd pkt h.dept_mem h.dept_live h.gone (Ne.symm hback) hround io
    have hkeep : Keeps live nodes (Function.update nodes pkt.term
        ((nodes pkt.term).processingServerDown io pkt).2.2) :=
      keeps_update fun x _ hdown => honly.down hdown
    refine ⟨hkeep, fun pkt' hp => ?_⟩
    obtain ⟨hdept, hgone, w, v', hw, hround'⟩ := hsent pkt' hp
    refine ⟨?_, ?_, ?_, ?_, u ++ pkt.term :: w, v', ?_, fun z hz hzl => ?_⟩
    · rw [hdept]
      exact h.dept_mem
    · rw [hdept]
      exact h.dept_live
    · rw [hgone]
      exact h.gone
    · rw [hdept, hgone]
      exact hkeep _ _ h.gone h.own
    · rw [hdept, hround', List.append_assoc, List.cons_append]
    · rw [hgone]
      rcases List.mem_append.mp hz with hz | hz
      · exact hkeep _ _ h.gone (hu z hz hzl)
      · rcases List.mem_cons.mp hz with rfl | hz
        · rw [Function.update_self]
          exact htaken hzl
        · rw [hw z hz] at hzl
          cases hzl

/-- What holds of every reachable net. -/
structure Kept (ring : List ChmpxId) (live : ChmpxId → Bool) (net : DownNet) : Prop where
  flying : ∀ pkt ∈ net.flying, Passed ring live net.nodes pkt
  returned : ∀ pkt ∈ net.returned, TakenDown ring live net.nodes pkt

theorem Kept.step (h : Kept ring live net) (hnd : ring.Nodup) {e : DownEvent}
    (hposs : net.Possible e) (hok : Steady ring live net e) : Kept ring live (net.happen e) := by
  cases e with
  | change y s =>
    have hkeep : Keeps live net.nodes (Function.update net.nodes y s) := keeps_update hok
    exact ⟨fun pkt hp => (h.flying pkt hp).mono hkeep, fun pkt hp => (h.returned pkt hp).mono hkeep⟩
  | hup y io x =>
    obtain ⟨hview, hlive, hx⟩ := hok
    obtain ⟨hkeep, hsent⟩ := hup_spec hnd hview hlive hx io
    refine ⟨fun pkt hp => ?_, fun pkt hp => (h.returned pkt hp).mono hkeep⟩
    rcases List.mem_append.mp hp with hp | hp
    · exact (h.flying pkt hp).mono hkeep
    · exact hsent pkt (Option.mem_toList.mp hp)
  | deliver io l₁ pkt l₂ =>
    have hflying : net.flying = l₁ ++ pkt :: l₂ := hposs
    have hpassed : Passed ring live net.nodes pkt := by
      apply h.flying
      rw [hflying]
      simp
    obtain ⟨hkeep, hsent⟩ := deliver_spec hnd hpassed hok io
    refine ⟨fun pkt' hp => ?_, fun pkt' hp => ?_⟩
    · have hrest : ∀ pkt' ∈ l₁ ++ l₂, Passed ring live net.nodes pkt' := by
        intro pkt' hp
        apply h.flying
        rw [hflying]
        simp only [List.mem_append, List.mem_cons] at hp ⊢
        tauto
      simp only [happen, List.mem_append, Option.mem_toList] at hp
      rcases hp with (hp | hp) | hp
      · exact (hrest pkt' (List.mem_append_left _ hp)).mono hkeep
      · exact hsent pkt' hp
      · exact (hrest pkt' (List.mem_append_right _ hp)).mono hkeep
    · have hcases : pkt' ∈ net.returned ∨ pkt.dept = pkt.term ∧ pkt' = pkt := by
        simp only [happen] at hp
        split at hp
        · rename_i hback
          rcases List.mem_append.mp hp with hp | hp
          · exact Or.inl hp
          · exact Or.inr ⟨hback, List.mem_singleton.mp hp⟩
        · exact Or.inl hp
      rcases hcases with hp | ⟨hback, rfl⟩
      · exact (h.returned pkt' hp).mono hkeep
      · exact (hpassed.takenDown hnd hback).mono hkeep
  | lose l₁ pkt l₂ =>
    have hflying : net.flying = l₁ ++ pkt :: l₂ := hposs
    refine ⟨fun pkt' hp => h.flying pkt' ?_, h.returned⟩
    rw [hflying]
    simp only [happen, List.mem_append, List.mem_cons] at hp ⊢
    tauto

theorem reachable_kept (hnd : ring.Nodup) (h : Reachable (Steady ring live) net) :
    Kept ring live net := by
  induction h with
  | init nodes =>
    exact ⟨fun pkt hp => absurd hp List.not_mem_nil, fun pkt hp => absurd hp List.not_mem_nil⟩
  | step e _ hposs hok ih => exact ih.step hnd hposs hok

/-- Once the notice of a server that is down is back at its departure, no live server of the ring
takes that server to be up. -/
theorem reachable_down (ring : List ChmpxId) (live : ChmpxId → Bool) (hring : ring.Nodup)
    (h : Reachable (Steady ring live) net) :
    ∀ pkt ∈ net.returned, ∀ y ∈ ring, live y = true → Down pkt.chmpxid (net.nodes y).man :=
  fun pkt hp => ((reachable_kept hring h).returned pkt hp).down

/-! ## A sample -/

open RingNet
open ChmpxMan hiding sampleRing

theorem ringMan_mapOk {self : Nat} {others : List Nat} (ups : List Nat)
    (hinit : (initialized sampleEnv (ringCfg self others)).isSome)
    (hok : ConfigAllowed sampleEnv (ringCfg self others)) :
    ∃ chain, MapOk (ringMan self others ups) chain := by
  obtain ⟨m, hm⟩ := Option.isSome_iff_exists.mp hinit
  have hstep : ∀ op ∈ ringOps ups, ∀ args records, op ≠ .mergeChmpxSvrs args records := by
    intro op hop args records heq
    simp only [ringOps, List.mem_cons, List.mem_map] at hop
    rcases hop with rfl | ⟨name, -, rfl⟩
    · cases heq
    · cases heq
  have hrun : ∀ (ops : List Op) (m : ChmpxMan),
      (∀ op ∈ ops, ∀ args records, op ≠ .mergeChmpxSvrs args records) →
      (∃ chain, MapOk m chain) →
      ∃ chain, MapOk (ops.foldl (fun m op => (m.exec sampleEnv op).2) m) chain := by
    intro ops
    induction ops with
    | nil => exact fun m _ hmap => hmap
    | cons op ops ih =>
      rintro m hops ⟨chain, hmap⟩
      apply ih
      · exact fun op' hop' => hops op' (List.mem_cons_of_mem op hop')
      · exact ⟨chain, hmap.sameShape
          (exec_sameRecords sampleEnv m (hops op List.mem_cons_self)).toSameShape⟩
  unfold ringMan
  rw [hm, Option.getD_some]
  exact hrun _ m hstep (initialized_spec hm hok).2.2.1

/-- Three servers that know each other and are all up; the second one goes down. -/
def sampleDownNodes (y : ChmpxId) : EventSock :=
  if y = sampleId 97 then ringSock 97 [98, 99] [97, 98, 99]
  else ringSock 99 [97, 98] [97, 98, 99]

theorem sampleDownNodes_view :
    LiveView sampleRing sampleUp (sampleId 97) (sampleDownNodes (sampleId 97)).man ∧
      LiveView sampleRing sampleUp (sampleId 99) (sampleDownNodes (sampleId 99)).man := by
  have hfirst : sampleDownNodes (sampleId 97) = ringSock 97 [98, 99] [97, 98, 99] := if_pos rfl
  have hlast : sampleDownNodes (sampleId 99) = ringSock 99 [97, 98] [97, 98, 99] :=
    if_neg (by decide +kernel)
  have hman : ∀ self others ups, (ringSock self others ups).man = ringMan self others ups :=
    fun _ _ _ => rfl
  rw [hfirst, hlast, hman, hman]
  have hview : ∀ self others y,
      (initialized sampleEnv (ringCfg self others)).isSome →
      ConfigAllowed sampleEnv (ringCfg self others) →
      (ringMan self others [97, 98, 99]).isServerMode = true →
      (ringMan self others [97, 98, 99]).ringIds = sampleRing →
      (ringMan self others [97, 98, 99]).getSelfChmpxId = y →
      (∀ q ∈ (ringMan self others [97, 98, 99]).nodes
        (ringMan self others [97, 98, 99]).chmpxServers,
        ((ringMan self others [97, 98, 99]).chmpx q).status.isUp = true ∧
        ((ringMan self others [97, 98, 99]).chmpx q).status.isSafe = true ∧
        ((ringMan self others [97, 98, 99]).chmpx q).status.isServer = true) →
      LiveView sampleRing sampleUp y (ringMan self others [97, 98, 99]) := by
    intro self others y hinit hok hmode hids hself hstatus
    exact ⟨⟨⟨ringMan_wellFormed _ hinit hok, hmode, hids⟩, hself, ringMan_mapOk _ hinit hok,
      fun q hq _ => (hstatus q hq).1⟩, fun q hq => (hstatus q hq).2⟩
  refine ⟨hview 97 [98, 99] (sampleId 97) ?_ ⟨?_, ?_⟩ ?_ ?_ ?_ ?_,
    hview 99 [97, 98] (sampleId 99) ?_ ⟨?_, ?_⟩ ?_ ?_ ?_ ?_⟩
  all_goals decide +kernel

/-- The notice of the first server, that goes to `term`. -/
def sampleNotice (term : ChmpxId) : ServerDown := ⟨sampleId 97, term, true, sampleId 98⟩

def sampleHup : DownNet :=
  (DownNet.mk sampleDownNodes [] []).happen (.hup (sampleId 97) sampleOutside (sampleId 98))

def sampleHop : DownNet :=
  sampleHup.happen (.deliver sampleOutside [] (sampleNotice (sampleId 99)) [])

def sampleBack : DownNet :=
  sampleHop.happen (.deliver sampleOutside [] (sampleNotice (sampleId 97)) [])

theorem sampleBack_reachable : Reachable (Steady sampleRing sampleUp) sampleBack := by
  obtain ⟨hfirst, hlast⟩ := sampleDownNodes_view
  have hnd : sampleRing.Nodup := by decide +kernel
  have hup : sampleUp (sampleId 97) = true := by decide +kernel
  have hgone : sampleUp (sampleId 98) = false := by decide +kernel
  have hne : sampleId 99 ≠ sampleId 97 := by decide +kernel
  -- The node of the notice's departure, after it has taken the server down.
  have hsent : sampleNotice (sampleId 99) ∈
      ((sampleDownNodes (sampleId 97)).serverDownNotifyHup sampleOutside (sampleId 98)).2.1 := by
    decide +kernel
  have hreads := ((hfirst.notifyHup hnd hup hgone sampleOutside).2 _ hsent).2.2.1
  have hstatuses : ∀ q ∈ ((sampleDownNodes (sampleId 97)).serverDownNotifyHup sampleOutside
      (sampleId 98)).2.2.man.nodes ((sampleDownNodes (sampleId 97)).serverDownNotifyHup
      sampleOutside (sampleId 98)).2.2.man.chmpxServers,
      (((sampleDownNodes (sampleId 97)).serverDownNotifyHup sampleOutside
        (sampleId 98)).2.2.man.chmpx q).status.isSafe = true ∧
      (((sampleDownNodes (sampleId 97)).serverDownNotifyHup sampleOutside
        (sampleId 98)).2.2.man.chmpx q).status.isServer = true := by
    decide +kernel
  have h₁ : Reachable (Steady sampleRing sampleUp) sampleHup :=
    Reachable.step (.hup (sampleId 97) sampleOutside (sampleId 98)) (.init sampleDownNodes)
      trivial ⟨hfirst, hup, hgone⟩
  have h₂ : Reachable (Steady sampleRing sampleUp) sampleHop := by
    refine Reachable.step (.deliver sampleOutside [] (sampleNotice (sampleId 99)) []) h₁ ?_ ?_
    · unfold Possible
      dsimp only
      decide +kernel
    · unfold Steady sampleNotice sampleHup
      dsimp only
      rw [nodes_hup, Function.update_of_ne hne]
      exact hlast
  refine Reachable.step (.deliver sampleOutside [] (sampleNotice (sampleId 97)) []) h₂ ?_ ?_
  · unfold Possible
    dsimp only
    decide +kernel
  · unfold Steady sampleHop sampleNotice sampleHup
    dsimp only
    rw [nodes_deliver, Function.update_of_ne hne.symm, nodes_hup, Function.update_self]
    dsimp only
    exact ⟨hreads, hstatuses⟩

theorem reachable_down_sample :
    Down (sampleNotice (sampleId 97)).chmpxid (sampleBack.nodes (sampleId 99)).man :=
  reachable_down sampleRing sampleUp (by decide +kernel) sampleBack_reachable
    (sampleNotice (sampleId 97)) (by decide +kernel) (sampleId 99) (by decide +kernel)
    (by decide +kernel)

end DownNet
end Chm
