/-
Packets that go around the ring.

Every node has its own server list.  A packet travels from its departure from node to
node, in any order with others, and the nodes may change between two deliveries.  A
packet is followed with the nodes that have sent it on.  While every hop stays on the
near side of the departure, the trail is a part of one round; with equal lists and
statuses it is the round of all servers that are up.
-/
import Chm.Rechain

namespace Chm

/-- A packet on its way, and the nodes that have sent it on. -/
structure Circuit where
  com : RingCom
  dept : ChmpxId
  term : ChmpxId
  trail : List ChmpxId
  deriving DecidableEq

/-- The nodes, the packets on their way, and those that no node sends on any more. -/
structure RingNet (ι : Type*) where
  nodes : ι → EventSock
  flying : List Circuit
  ended : List Circuit

/-- A node changes, a packet starts at it or comes in at it, or a packet is lost. -/
inductive RingEvent (ι : Type*)
  | change (i : ι) (s : EventSock)
  | send (i : ι) (com : RingCom) (next : ChmpxId)
  | deliver (i : ι) (io : Outside) (l₁ : List Circuit) (p : Circuit) (l₂ : List Circuit)
  | lose (l₁ : List Circuit) (p : Circuit) (l₂ : List Circuit)

namespace RingNet

open EventSock

variable {ι : Type*} {net : RingNet ι} {ring : List ChmpxId}
variable {up : ChmpxId → Bool} {p : Circuit}

/-- The packets that have been sent. -/
def packets (net : RingNet ι) : List Circuit := net.flying ++ net.ended

/-- A packet is on its way before it is lost, or comes in at the node it is for. -/
def Possible (net : RingNet ι) : RingEvent ι → Prop
  | .change _ _ | .send _ _ _ => True
  | .deliver i _ l₁ p l₂ =>
    net.flying = l₁ ++ p :: l₂ ∧ (net.nodes i).man.getSelfChmpxId = p.term
  | .lose l₁ p l₂ => net.flying = l₁ ++ p :: l₂

variable [DecidableEq ι]

def happen (net : RingNet ι) : RingEvent ι → RingNet ι
  | .change i s => { net with nodes := Function.update net.nodes i s }
  | .send i com next =>
    { net with
      flying := net.flying ++ [⟨com, (net.nodes i).man.getSelfChmpxId, next, []⟩] }
  | .deliver i io l₁ p l₂ =>
    -- Back at its departure the packet is used up.
    if p.dept = p.term then { net with flying := l₁ ++ l₂, ended := net.ended ++ [p] }
    else
      let (next, s) := (net.nodes i).transfer io p.com p.dept
      let nodes := Function.update net.nodes i s
      match next with
      | none => ⟨nodes, l₁ ++ l₂, net.ended ++ [p]⟩
      | some next =>
        ⟨nodes, l₁ ++ { p with term := next, trail := p.trail ++ [p.term] } :: l₂, net.ended⟩
  | .lose l₁ _ l₂ => { net with flying := l₁ ++ l₂ }

/-- The nets of a run whose events all meet `ok`.  It starts without packets. -/
inductive Reachable (ok : RingNet ι → RingEvent ι → Prop) : RingNet ι → Prop
  | init (nodes : ι → EventSock) : Reachable ok ⟨nodes, [], []⟩
  | step {net : RingNet ι} (e : RingEvent ι) :
      Reachable ok net → net.Possible e → ok net e → Reachable ok (net.happen e)

/-! ## What an event does to the packets -/

/-- A property of packets is kept by an event when the packet that is sent has it and
the one that is sent on keeps it. -/
theorem packets_happen {P : Circuit → Prop} {e : RingEvent ι} (hposs : net.Possible e)
    (h : ∀ p ∈ net.packets, P p)
    (hsend : ∀ i com next, e = .send i com next →
      P ⟨com, (net.nodes i).man.getSelfChmpxId, next, []⟩)
    (hdeliver : ∀ i io l₁ p l₂ next, e = .deliver i io l₁ p l₂ → P p → p.dept ≠ p.term →
      ((net.nodes i).transfer io p.com p.dept).1 = some next →
      P { p with term := next, trail := p.trail ++ [p.term] }) :
    ∀ p ∈ (net.happen e).packets, P p := by
  unfold packets at h ⊢
  cases e with
  | change i s => exact h
  | send i com next =>
    intro p hp
    have hmem : p ∈ net.flying ++ net.ended ∨
        p = ⟨com, (net.nodes i).man.getSelfChmpxId, next, []⟩ := by
      simp only [happen, List.mem_append, List.mem_singleton] at hp ⊢
      tauto
    rcases hmem with hp | rfl
    · exact h p hp
    · exact hsend i com next rfl
  | lose l₁ q l₂ =>
    intro p hp
    apply h p
    rw [show net.flying = l₁ ++ q :: l₂ from hposs]
    simp only [happen, List.mem_append, List.mem_cons] at hp ⊢
    tauto
  | deliver i io l₁ q l₂ =>
    have hq : P q := by
      apply h q
      rw [hposs.1]
      simp
    have hrest : ∀ p, p ∈ l₁ ∨ p ∈ l₂ ∨ p ∈ net.ended ∨ p = q → P p := by
      intro p hp
      by_cases hpq : p = q
      · exact hpq ▸ hq
      · apply h p
        rw [hposs.1]
        simp only [List.mem_append, List.mem_cons]
        tauto
    intro p hp
    unfold happen at hp
    dsimp only at hp
    split at hp
    · apply hrest p
      simp only [List.mem_append, List.mem_singleton] at hp
      tauto
    · rename_i hdept
      split at hp
      · apply hrest p
        simp only [List.mem_append, List.mem_singleton] at hp
        tauto
      · rename_i next hnext
        have hmem : (p ∈ l₁ ∨ p ∈ l₂ ∨ p ∈ net.ended ∨ p = q) ∨
            p = { q with term := next, trail := q.trail ++ [q.term] } := by
          simp only [List.mem_append, List.mem_cons] at hp
          tauto
        rcases hmem with hp | rfl
        · exact hrest p hp
        · exact hdeliver i io l₁ q l₂ next rfl hq hdept hnext

/-! ## Nodes with different lists -/

/-- What a node's list and hop are to be for a packet: the list has the order of the
ring, and a node that does not list the departure does not send past its place. -/
def StaysShort (ring : List ChmpxId) (net : RingNet ι) : RingEvent ι → Prop
  | .deliver i io _ p _ =>
    p.dept ∈ ring ∧ ∃ ids, RingView (net.nodes i).man ids ∧ ids.Sublist ring ∧
      (p.dept ∈ ids ∨ ∀ next, ((net.nodes i).transfer io p.com p.dept).1 = some next →
        Circle.Towards ring p.term p.dept next)
  | _ => True

/-- The trail of a packet is a part of the round behind its departure. -/
def TrailOk (ring : List ChmpxId) (p : Circuit) : Prop :=
  p.trail = [] ∨ p.dept ∈ ring ∧
    (p.trail ++ [p.term]).Sublist (Circle.behind ring p.dept ++ [p.dept])

theorem TrailOk.length_le (h : TrailOk ring p) : p.trail.length ≤ ring.length := by
  rcases h with h | ⟨hdept, h⟩
  · rw [h]
    exact Nat.zero_le _
  · have hlen := h.length_le
    rw [Circle.length_behind hdept, List.length_append, List.length_singleton] at hlen
    omega

omit [DecidableEq ι] in
/-- One hop. -/
theorem StaysShort.trailOk (hring : ring.Nodup) {i : ι} {io : Outside}
    {l₁ l₂ : List Circuit} {next : ChmpxId} (hposs : net.Possible (.deliver i io l₁ p l₂))
    (hok : StaysShort ring net (.deliver i io l₁ p l₂)) (h : TrailOk ring p)
    (hne : p.dept ≠ p.term) (ht : ((net.nodes i).transfer io p.com p.dept).1 = some next) :
    TrailOk ring { p with term := next, trail := p.trail ++ [p.term] } := by
  obtain ⟨hdept, ids, hv, hsub, hor⟩ := hok
  have hself := hposs.2
  have hterm : p.term ∈ ids := hself ▸ hv.self_mem
  have hids : ids.Nodup := hring.sublist hsub
  have htowards : Circle.Towards ring p.term p.dept next := by
    rcases hor with hlisted | htowards
    · have hne' : p.dept ≠ (net.nodes i).man.getSelfChmpxId := by
        rw [hself]
        exact hne
      have htw := hv.transfer_towards hids hlisted hne' ht
      rw [hself] at htw
      exact htw.imp id fun hs => hs.trans (Circle.behind_sublist hring hsub hterm)
    · exact htowards next ht
  refine Or.inr ⟨hdept, ?_⟩
  apply Circle.towards_step hring hdept ?_ htowards
  rcases h with hnil | ⟨-, htrail⟩
  · rw [hnil]
    exact List.singleton_sublist.mpr (Circle.mem_behind hdept (hsub.subset hterm) (Ne.symm hne))
  · exact Circle.sublist_of_ne htrail (Ne.symm hne)

theorem reachable_trailOk (hring : ring.Nodup) (h : Reachable (StaysShort ring) net) :
    ∀ p ∈ net.packets, TrailOk ring p := by
  induction h with
  | init nodes => exact fun p hp => absurd hp List.not_mem_nil
  | step e _ hposs hok ih =>
    apply packets_happen hposs ih
    · exact fun i com next _ => Or.inl rfl
    · rintro i io l₁ p l₂ next rfl hp hne ht
      exact StaysShort.trailOk hring hposs hok hp hne ht

/-! ## Nodes with the same list -/

/-- The nodes that send and receive have the list `ring` and the statuses `up`. -/
def SameViews (ring : List ChmpxId) (up : ChmpxId → Bool) (net : RingNet ι) :
    RingEvent ι → Prop
  | .send i com next =>
    let m := (net.nodes i).man
    UpView m ring up ∧ up m.getSelfChmpxId = true ∧ m.getNextRingChmpxId ≠ chmInvalidChmpxId ∧
      next = m.getNextRingChmpxId ∧ ∀ server, com = .joinRing server → server = m.getSelfChmpxId
  | .deliver i io _ p _ =>
    UpView (net.nodes i).man ring up ∧
      KeepsNext io p.com (net.nodes i).man.getNextRingChmpxId (net.nodes i)
  | _ => True

/-- A packet is on the tour of the servers that are up. -/
structure OnTour (ring : List ChmpxId) (up : ChmpxId → Bool) (p : Circuit) : Prop where
  dept_mem : p.dept ∈ ring
  dept_up : up p.dept = true
  server : ∀ server, p.com = .joinRing server → server = p.dept
  tour : p.trail ++ [p.term] <+: Circle.tour ring up p.dept

omit [DecidableEq ι] in
theorem SameViews.onTour_send (hring : ring.Nodup) {i : ι} {com : RingCom} {next : ChmpxId}
    (hok : SameViews ring up net (.send i com next)) :
    OnTour ring up ⟨com, (net.nodes i).man.getSelfChmpxId, next, []⟩ := by
  obtain ⟨hv, hself, hvalid, rfl, hserver⟩ := hok
  refine ⟨hv.self_mem, hself, hserver, ?_⟩
  apply Circle.tour_start
  rw [hv.toRingView.getNextRingChmpxId_eq hring hv.up_eq] at hvalid ⊢
  cases hf : (Circle.behind ring (net.nodes i).man.getSelfChmpxId).find? up with
  | none =>
    rw [hf] at hvalid
    exact absurd rfl hvalid
  | some x => rfl

omit [DecidableEq ι] in
/-- One hop of the tour. -/
theorem SameViews.transfer_eq (hring : ring.Nodup) {i : ι} {io : Outside}
    {l₁ l₂ : List Circuit} (hposs : net.Possible (.deliver i io l₁ p l₂))
    (hok : SameViews ring up net (.deliver i io l₁ p l₂)) (h : OnTour ring up p)
    (hne : p.dept ≠ p.term) :
    ∃ x, ((net.nodes i).transfer io p.com p.dept).1 = some x ∧
      OnTour ring up { p with term := x, trail := p.trail ++ [p.term] } := by
  obtain ⟨hv, hkeep⟩ := hok
  obtain ⟨x, hx, htw, htour⟩ := Circle.tour_step hring h.dept_mem h.dept_up h.tour (Ne.symm hne)
  have hself := hposs.2
  rw [← hself] at hx htw
  have hnext := hv.getNextRingChmpxId_eq hring hx
  rw [hnext] at hkeep
  have hup : ∀ server, p.com = .joinRing server → up server = true := by
    intro server hcom
    rw [h.server server hcom]
    exact h.dept_up
  exact ⟨x, hv.transfer_eq hring hup h.dept_mem hx htw hkeep,
    h.dept_mem, h.dept_up, h.server, htour⟩

/-- A packet that has been used up is back at its departure. -/
def Returned (p : Circuit) : Prop := p.term = p.dept

theorem SameViews.ended (hring : ring.Nodup) {e : RingEvent ι} (hposs : net.Possible e)
    (hok : SameViews ring up net e) (htour : ∀ p ∈ net.packets, OnTour ring up p)
    (h : ∀ p ∈ net.ended, Returned p) : ∀ p ∈ (net.happen e).ended, Returned p := by
  cases e with
  | change i s => exact h
  | send i com next => exact h
  | lose l₁ q l₂ => exact h
  | deliver i io l₁ q l₂ =>
    have hq : OnTour ring up q := by
      apply htour q
      rw [packets, hposs.1]
      simp
    unfold happen
    dsimp only
    split
    · rename_i hback
      intro p hp
      rcases List.mem_append.mp hp with hp | hp
      · exact h p hp
      · rw [List.mem_singleton.mp hp]
        exact hback.symm
    · rename_i hne
      obtain ⟨x, hx, -⟩ := SameViews.transfer_eq hring hposs hok hq hne
      rw [hx]
      exact h

theorem reachable_onTour (hring : ring.Nodup) (h : Reachable (SameViews ring up) net) :
    (∀ p ∈ net.packets, OnTour ring up p) ∧ ∀ p ∈ net.ended, Returned p := by
  induction h with
  | init nodes =>
    exact ⟨fun p hp => absurd hp List.not_mem_nil, fun p hp => absurd hp List.not_mem_nil⟩
  | step e _ hposs hok ih =>
    refine ⟨?_, SameViews.ended hring hposs hok ih.1 ih.2⟩
    apply packets_happen hposs ih.1
    · rintro i com next rfl
      exact SameViews.onTour_send hring hok
    · rintro i io l₁ p l₂ next rfl hp hne ht
      obtain ⟨x, hx, htour⟩ := SameViews.transfer_eq hring hposs hok hp hne
      rw [hx] at ht
      rw [← Option.some.inj ht]
      exact htour

/-- A packet is sent on at most once for each server of the ring, whatever lists the nodes
have, while no hop passes the departure.  Where the nodes agree, it visits the servers that are
up one after another, each once, and its departure last. -/
theorem circulates (ring : List ChmpxId) (up : ChmpxId → Bool) (hring : ring.Nodup) :
    (∀ net : RingNet ι, Reachable (StaysShort ring) net →
      ∀ p ∈ net.packets, p.trail.length ≤ ring.length) ∧
    ∀ net : RingNet ι, Reachable (SameViews ring up) net →
      (∀ p ∈ net.flying, p.trail ++ [p.term] <+: Circle.tour ring up p.dept) ∧
      ∀ p ∈ net.ended, p.term = p.dept ∧ (p.trail ++ [p.term]).Perm (ring.filter up) := by
  refine ⟨fun net h p hp => (reachable_trailOk hring h p hp).length_le, fun net h => ?_⟩
  obtain ⟨htour, hended⟩ := reachable_onTour hring h
  refine ⟨fun p hp => (htour p (List.mem_append_left _ hp)).tour, fun p hp => ?_⟩
  have hp' := htour p (List.mem_append_right _ hp)
  have hback : p.term = p.dept := hended p hp
  have hend := hp'.tour
  rw [hback] at hend ⊢
  refine ⟨rfl, ?_⟩
  rw [Circle.tour_end hring hp'.dept_mem hend]
  exact Circle.tour_perm hp'.dept_mem hp'.dept_up

/-! ## Samples -/

open ChmpxMan

def sampleId (name : Nat) : ChmpxId := (sampleSvr name ChmpxSts.srvinUpNormal).chmpxid

/-- A server of which some servers are up. -/
def ringOps (ups : List Nat) : List Op :=
  .setSelfSocks 3 4 :: ups.map fun name =>
    .setServerStatus (sampleId name) ChmpxSts.srvinUpNormal true

def ringCfg (self : Nat) (others : List Nat) : ChmCfgInfo :=
  { sampleCfg true with
    selfnode := sampleParam self
    servers := others.map sampleParam }

def ringMan (self : Nat) (others ups : List Nat) : ChmpxMan :=
  (ringOps ups).foldl (fun m op => (m.exec sampleEnv op).2)
    ((initialized sampleEnv (ringCfg self others)).getD (freshArea (ringCfg self others)))

def ringSock (self : Nat) (others ups : List Nat) : EventSock where
  man := ringMan self others ups
  eqfd := true
  comprotoVer := .v2
  isServerMode := true
  isAutoMerge := true
  isDoMerge := true
  isRunMerge := false
  isMergeDoneProcessing := false
  startupServicein := false
  mergeidmap := []
  sent := []
  calls := 0

def sampleOutside : Outside where
  env _ := sampleEnv
  cfg _ := sampleCfg true
  isClientJoin _ := true
  sends _ := true
  connects _ := none
  heap _ _ := sampleSvr 0 0
  hasThread _ := true
  doWorkThread _ := true

theorem ringMan_wellFormed {self : Nat} {others : List Nat} (ups : List Nat)
    (hinit : (initialized sampleEnv (ringCfg self others)).isSome)
    (hok : ConfigAllowed sampleEnv (ringCfg self others)) :
    WellFormed (ringMan self others ups) := by
  obtain ⟨m, hm⟩ := Option.isSome_iff_exists.mp hinit
  have hstep : ∀ op ∈ ringOps ups, ∀ m, StepAllowed sampleEnv op m := by
    intro op hop m
    simp only [ringOps, List.mem_cons, List.mem_map] at hop
    rcases hop with rfl | ⟨name, -, rfl⟩ <;> exact trivial
  have hrun : ∀ (ops : List Op) (m : ChmpxMan), (∀ op ∈ ops, ∀ m, StepAllowed sampleEnv op m) →
      WellFormed m → WellFormed (ops.foldl (fun m op => (m.exec sampleEnv op).2) m) := by
    intro ops
    induction ops with
    | nil => exact fun m _ hwf => hwf
    | cons op ops ih =>
      intro m hops hwf
      apply ih
      · exact fun op' hop' => hops op' (List.mem_cons_of_mem op hop')
      · exact exec_wellFormed hwf (hops op List.mem_cons_self m)
  unfold ringMan
  rw [hm, Option.getD_some]
  exact hrun _ m hstep (initialized_spec hm hok).1

omit [DecidableEq ι] in
/-- Without a rechain a node sends on to its next server and stays as it is. -/
theorem transfer_mergeStart {s : EventSock} {io : Outside} {dept next : ChmpxId}
    (hnext : s.man.getNextRingChmpxId = next) (hvalid : next ≠ chmInvalidChmpxId)
    (hsafe : isSafeDeptAndNextChmpxId s.man dept next = true) :
    s.transfer io .mergeStart dept = (some next, s) := by
  have hget : s.getNextRingChmpxId io = (next, s) := by
    unfold EventSock.getNextRingChmpxId
    rw [hnext, if_pos hvalid]
  unfold transfer nextOfRing
  dsimp only
  rw [hget]
  dsimp only
  rw [if_neg hvalid, if_pos hsafe]

theorem happen_mergeStart {nodes : ι → EventSock} {ended : List Circuit} {i : ι} {io : Outside}
    {dept term next : ChmpxId} {trail : List ChmpxId} (hne : dept ≠ term)
    (hnext : (nodes i).man.getNextRingChmpxId = next) (hvalid : next ≠ chmInvalidChmpxId)
    (hsafe : isSafeDeptAndNextChmpxId (nodes i).man dept next = true) :
    (RingNet.mk nodes [⟨.mergeStart, dept, term, trail⟩] ended).happen
        (.deliver i io [] ⟨.mergeStart, dept, term, trail⟩ []) =
      ⟨nodes, [⟨.mergeStart, dept, next, trail ++ [term]⟩], ended⟩ := by
  unfold happen
  dsimp only
  rw [if_neg hne, transfer_mergeStart hnext hvalid hsafe]
  dsimp only
  rw [Function.update_eq_self]
  rfl

/-! ### A round -/

instance : NeZero (2 + 1) := Nat.instNeZeroSucc

/-- Three servers that know each other; the second one is down. -/
def sampleNodes (i : Fin 3) : EventSock :=
  ringSock (97 + i) ([97, 98, 99].filter (· ≠ 97 + i.val)) [97, 99]

def sampleRing : List ChmpxId := [sampleId 97, sampleId 98, sampleId 99]

def sampleUp (chmpxid : ChmpxId) : Bool := chmpxid ≠ sampleId 98

def sampleCircuit : Circuit := ⟨.mergeStart, sampleId 97, sampleId 97, [sampleId 99]⟩

theorem sampleNodes_view (i : Fin 3) : UpView (sampleNodes i).man sampleRing sampleUp := by
  have hinit : ∀ i : Fin 3, (initialized sampleEnv
      (ringCfg (97 + i) ([97, 98, 99].filter (· ≠ 97 + i.val)))).isSome := by
    decide +kernel
  have hok : ∀ i : Fin 3, ConfigAllowed sampleEnv
      (ringCfg (97 + i) ([97, 98, 99].filter (· ≠ 97 + i.val))) := by
    intro i
    match i with
    | 0 | 1 | 2 => exact ⟨by decide +kernel, by decide +kernel⟩
  have hmode : ∀ i : Fin 3, (sampleNodes i).man.isServerMode = true := by decide +kernel
  have hids : ∀ i : Fin 3, (sampleNodes i).man.ringIds = sampleRing := by decide +kernel
  have hup : ∀ i : Fin 3, ∀ p ∈ (sampleNodes i).man.nodes (sampleNodes i).man.chmpxServers,
      ((sampleNodes i).man.chmpx p).status.isUp =
        sampleUp ((sampleNodes i).man.chmpx p).chmpxid := by
    intro i
    match i with
    | 0 | 1 | 2 => decide +kernel
  exact ⟨⟨ringMan_wellFormed _ (hinit i) (hok i), hmode i, hids i⟩, hup i⟩

/-- The run in which the first server's packet goes around. -/
theorem sampleNet_reachable {ok : RingNet (Fin 3) → RingEvent (Fin 3) → Prop}
    (hsend : ok ⟨sampleNodes, [], []⟩ (.send 0 .mergeStart (sampleId 99)))
    (hdeliver : ∀ (i : Fin 3) (dept term : ChmpxId) (trail : List ChmpxId), dept ∈ sampleRing →
      ok ⟨sampleNodes, [⟨.mergeStart, dept, term, trail⟩], []⟩
        (.deliver i sampleOutside [] ⟨.mergeStart, dept, term, trail⟩ [])) :
    Reachable ok ⟨sampleNodes, [], [sampleCircuit]⟩ := by
  have hdept : sampleId 97 ∈ sampleRing := List.mem_cons_self
  have hself₀ : (sampleNodes 0).man.getSelfChmpxId = sampleId 97 := by decide +kernel
  have hself₂ : (sampleNodes 2).man.getSelfChmpxId = sampleId 99 := by decide +kernel
  have h₁ : Reachable ok ⟨sampleNodes, [⟨.mergeStart, sampleId 97, sampleId 99, []⟩], []⟩ := by
    have h := Reachable.step (.send 0 .mergeStart (sampleId 99)) (.init sampleNodes) trivial hsend
    unfold happen at h
    dsimp only at h
    rw [hself₀] at h
    exact h
  have h₂ : Reachable ok ⟨sampleNodes, [sampleCircuit], []⟩ := by
    have hposs : (RingNet.mk sampleNodes [⟨.mergeStart, sampleId 97, sampleId 99, []⟩] []).Possible
        (.deliver 2 sampleOutside [] ⟨.mergeStart, sampleId 97, sampleId 99, []⟩ []) := by
      unfold Possible
      dsimp only
      exact ⟨rfl, hself₂⟩
    have h := Reachable.step _ h₁ hposs (hdeliver 2 _ _ _ hdept)
    rwa [happen_mergeStart (by decide +kernel)
      (show (sampleNodes 2).man.getNextRingChmpxId = sampleId 97 by decide +kernel)
      (by decide +kernel) (by decide +kernel)] at h
  have hposs : (RingNet.mk sampleNodes [sampleCircuit] []).Possible
      (.deliver 0 sampleOutside [] sampleCircuit []) := by
    unfold Possible sampleCircuit
    dsimp only
    exact ⟨rfl, hself₀⟩
  exact Reachable.step _ h₂ hposs (hdeliver 0 _ _ _ hdept)

theorem circulates_sample :
    sampleCircuit.trail.length ≤ sampleRing.length ∧ sampleCircuit.term = sampleCircuit.dept ∧
      (sampleCircuit.trail ++ [sampleCircuit.term]).Perm (sampleRing.filter sampleUp) := by
  have hring : sampleRing.Nodup := by decide +kernel
  have hshort : Reachable (StaysShort sampleRing) ⟨sampleNodes, [], [sampleCircuit]⟩ :=
    sampleNet_reachable trivial fun i _ _ _ hdept => ⟨hdept, sampleRing,
      (sampleNodes_view i).toRingView, List.Sublist.refl _, Or.inl hdept⟩
  have hsame : Reachable (SameViews sampleRing sampleUp) ⟨sampleNodes, [], [sampleCircuit]⟩ :=
    sampleNet_reachable
      ⟨sampleNodes_view 0, by decide +kernel, by decide +kernel, by decide +kernel, nofun⟩
      fun i _ _ _ _ => ⟨sampleNodes_view i, trivial⟩
  have h := @circulates (Fin 3) _ sampleRing sampleUp hring
  exact ⟨h.1 _ hshort sampleCircuit (List.mem_singleton_self _),
    (h.2 _ hsame).2 sampleCircuit (List.mem_singleton_self _)⟩

/-! ### A packet that does not stop -/

/-- Two servers that know each other and not the third one, which knows both. -/
def loopNodes (i : Fin 3) : EventSock :=
  match i with
  | 0 => ringSock 97 [98] [97, 98]
  | 1 => ringSock 98 [97] [97, 98]
  | 2 => ringSock 99 [97, 98] [97, 98, 99]

/-- The one of the two that has the packet after some hops. -/
def loopTerm (hops : Nat) : ChmpxId := if hops % 2 = 0 then sampleId 97 else sampleId 98

def loopCircuit (hops : Nat) : Circuit :=
  ⟨.mergeStart, sampleId 99, loopTerm hops, (List.range hops).map loopTerm⟩

def loopNet (hops : Nat) : RingNet (Fin 3) := ⟨loopNodes, [loopCircuit hops], []⟩

theorem loopNet_succ (hops : Nat) :
    ∃ i, (loopNet hops).Possible (.deliver i sampleOutside [] (loopCircuit hops) []) ∧
      loopNet (hops + 1) =
        (loopNet hops).happen (.deliver i sampleOutside [] (loopCircuit hops) []) := by
  have htrail : (List.range (hops + 1)).map loopTerm =
      (List.range hops).map loopTerm ++ [loopTerm hops] := by
    rw [List.range_succ, List.map_append]
    rfl
  rcases Nat.mod_two_eq_zero_or_one hops with heven | hodd
  · have hterm : loopTerm hops = sampleId 97 := if_pos heven
    have hnext : loopTerm (hops + 1) = sampleId 98 := if_neg (by omega)
    have hself : (loopNodes 0).man.getSelfChmpxId = sampleId 97 := by decide +kernel
    refine ⟨0, ⟨rfl, hself.trans hterm.symm⟩, ?_⟩
    unfold loopNet loopCircuit
    rw [htrail, hnext, hterm]
    exact (happen_mergeStart (by decide +kernel)
      (show (loopNodes 0).man.getNextRingChmpxId = sampleId 98 by decide +kernel)
      (by decide +kernel) (by decide +kernel)).symm
  · have hterm : loopTerm hops = sampleId 98 := if_neg (by omega)
    have hnext : loopTerm (hops + 1) = sampleId 97 := if_pos (by omega)
    have hself : (loopNodes 1).man.getSelfChmpxId = sampleId 98 := by decide +kernel
    refine ⟨1, ⟨rfl, hself.trans hterm.symm⟩, ?_⟩
    unfold loopNet loopCircuit
    rw [htrail, hnext, hterm]
    exact (happen_mergeStart (by decide +kernel)
      (show (loopNodes 1).man.getNextRingChmpxId = sampleId 97 by decide +kernel)
      (by decide +kernel) (by decide +kernel)).symm

/-- A packet of the third server goes back and forth between the other two for ever. -/
theorem circulates_forever :
    ∃ nets : ℕ → RingNet (Fin 3), Reachable (fun _ _ => True) (nets 0) ∧
      ∀ k, ∃ i io p, (nets k).Possible (.deliver i io [] p []) ∧ p.trail.length = k ∧
        nets (k + 1) = (nets k).happen (.deliver i io [] p []) := by
  refine ⟨loopNet, ?_, fun k => ?_⟩
  · have hself : (loopNodes 2).man.getSelfChmpxId = sampleId 99 := by decide +kernel
    have h : Reachable (fun _ _ => True) _ :=
      Reachable.step (.send 2 .mergeStart (sampleId 97)) (.init loopNodes) trivial trivial
    unfold happen at h
    dsimp only at h
    rw [hself] at h
    exact h
  · obtain ⟨i, hposs, hnext⟩ := loopNet_succ k
    exact ⟨i, sampleOutside, loopCircuit k, hposs, by simp [loopCircuit], hnext⟩

end RingNet
end Chm
