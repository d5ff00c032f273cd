/-
Laps that suspend automatic merging, and laps that allow it again.

A server that is told to sets its own flag and sends a packet around the ring; every server
on the way sets its flag as the packet says.  Nothing orders two laps, so two of opposite
kinds can leave different flags.  What decides is the lap that is requested last: with no
lap of the other kind on its way at that moment, all servers end with its flag.
-/
import Chm.Circulation

namespace Chm

/-- `CHMPX_COM_MERGE_SUSPEND` or `CHMPX_COM_MERGE_NOSUSPEND`. -/
inductive LapKind
  | suspend
  | nosuspend
  deriving DecidableEq, Repr

def LapKind.com : LapKind → RingCom
  | .suspend => .mergeSuspend
  | .nosuspend => .mergeNosuspend

def LapKind.isSuspend : LapKind → Bool
  | .suspend => true
  | .nosuspend => false

/-- What the control command answers, `CTL_RES_..`. -/
inductive CtlRes
  | success
  | errorCommandOnServer
  | errorCouldNot
  | errorCommunication
  deriving DecidableEq, Repr

/-- A server with `is_auto_merge` and `is_auto_merge_suspend` of its area. -/
structure SuspendNode where
  sock : EventSock
  isAttached : Bool
  isAutoMerge : Bool
  isAutoMergeSuspend : Bool

namespace SuspendNode

/-- Set the flag, if the area is attached; `IsAutoMerge` depends on it. -/
def setAutoMergeSuspend (suspend : Bool) (n : SuspendNode) : Bool × SuspendNode :=
  if !n.isAttached then (false, n)
  else
    (true, { n with
      isAutoMergeSuspend := suspend
      sock := { n.sock with isAutoMerge := !suspend && n.isAutoMerge } })

def suspendAutoMerge (n : SuspendNode) : Bool × SuspendNode := n.setAutoMergeSuspend true

def resetAutoMerge (n : SuspendNode) : Bool × SuspendNode := n.setAutoMergeSuspend false

/-- What a lap does to a server; a suspension takes back the service-in of the start. -/
def apply (kind : LapKind) (n : SuspendNode) : Bool × SuspendNode :=
  match kind with
  | .suspend =>
    let (ok, n) := n.suspendAutoMerge
    if ok then (true, { n with sock := { n.sock with startupServicein := false } }) else (false, n)
  | .nosuspend => n.resetAutoMerge

/-- The two requests: the answer, and the terminal of the packet that is sent or that could
not be sent. -/
def request (kind : LapKind) (io : Outside) (n : SuspendNode) :
    CtlRes × Option ChmpxId × SuspendNode :=
  if !n.sock.isServerMode then (.errorCommandOnServer, none, n)
  else
    let (ok, n) := n.apply kind
    if !ok then (.errorCouldNot, none, n)
    else
      let (chmpxid, s) := n.sock.getNextRingChmpxId io
      if chmpxid = chmInvalidChmpxId then (.success, none, { n with sock := s })
      else
        let n := { n with sock := { s with calls := s.calls + 1 } }
        (if io.sends s.calls then .success else .errorCommunication, some chmpxid, n)

def requestMergeSuspend (io : Outside) (n : SuspendNode) : CtlRes × Option ChmpxId × SuspendNode :=
  n.request .suspend io

def requestMergeNosuspend (io : Outside) (n : SuspendNode) :
    CtlRes × Option ChmpxId × SuspendNode :=
  n.request .nosuspend io

/-- The two receivers: the result, and the terminal and the result of the packet that is sent
on. -/
def receive (kind : LapKind) (io : Outside) (dept : ChmpxId) (result : Bool) (n : SuspendNode) :
    Bool × Option (ChmpxId × Bool) × SuspendNode :=
  if dept = n.sock.man.getSelfChmpxId then (result, none, n)
  else
    let (next, s) := n.sock.getNextRingChmpxId io
    let n := { n with sock := s }
    if next = chmInvalidChmpxId then (false, none, n)
    else if !EventSock.isSafeDeptAndNextChmpxId s.man dept next then (true, none, n)
    else if !result then (true, some (next, false), n)
    else
      let (ok, n) := n.apply kind
      (true, some (next, ok), n)

def pxComReceiveMergeSuspend (io : Outside) (dept : ChmpxId) (result : Bool) (n : SuspendNode) :
    Bool × Option (ChmpxId × Bool) × SuspendNode :=
  n.receive .suspend io dept result

def pxComReceiveMergeNosuspend (io : Outside) (dept : ChmpxId) (result : Bool)
    (n : SuspendNode) : Bool × Option (ChmpxId × Bool) × SuspendNode :=
  n.receive .nosuspend io dept result

end SuspendNode

/-- A packet of a lap, with the servers that have sent it on. -/
structure Lap where
  kind : LapKind
  dept : ChmpxId
  term : ChmpxId
  result : Bool
  trail : List ChmpxId
  deriving DecidableEq

def Lap.circuit (p : Lap) : Circuit := ⟨p.kind.com, p.dept, p.term, p.trail⟩

/-- The servers by their chmpxids, the laps on their way, those that are back, those that do
not come back, and the kind of the last one, if none of the other kind was on its way when it
was requested. -/
structure SuspendNet where
  nodes : ChmpxId → SuspendNode
  flying : List Lap
  returned : List Lap
  stopped : List Lap
  last : Option LapKind

/-- A server changes, is told to start a lap or gets a packet, or a packet is lost. -/
inductive SuspendEvent
  | change (chmpxid : ChmpxId) (s : EventSock)
  | request (chmpxid : ChmpxId) (kind : LapKind) (io : Outside)
  | deliver (io : Outside) (l₁ : List Lap) (p : Lap) (l₂ : List Lap)
  | lose (l₁ : List Lap) (p : Lap) (l₂ : List Lap)

namespace SuspendNet

open EventSock

def Possible (net : SuspendNet) : SuspendEvent → Prop
  | .change _ _ | .request _ _ _ => True
  | .deliver _ l₁ p l₂ | .lose l₁ p l₂ => net.flying = l₁ ++ p :: l₂

def happen (net : SuspendNet) : SuspendEvent → SuspendNet
  | .change chmpxid s =>
    { net with nodes := Function.update net.nodes chmpxid { net.nodes chmpxid with sock := s } }
  | .request chmpxid kind io =>
    let (res, term, n) := (net.nodes chmpxid).request kind io
    let net := { net with nodes := Function.update net.nodes chmpxid n }
    let last := if net.flying.all (·.kind = kind) then some kind else none
    match res, term with
    | .success, some term =>
      { net with flying := net.flying ++ [⟨kind, chmpxid, term, true, []⟩], last := last }
    | .success, none => { net with last := last }
    | .errorCommunication, some term =>
      { net with stopped := net.stopped ++ [⟨kind, chmpxid, term, true, []⟩], last := last }
    | _, _ => net
  | .deliver io l₁ p l₂ =>
    let (_, next, n) := (net.nodes p.term).receive p.kind io p.dept p.result
    let net := { net with nodes := Function.update net.nodes p.term n, flying := l₁ ++ l₂ }
    match next with
    | some (next, result) =>
      { net with
        flying := l₁ ++
          { p with term := next, result := result, trail := p.trail ++ [p.term] } :: l₂ }
    | none =>
      if p.dept = p.term then { net with returned := net.returned ++ [p] }
      else { net with stopped := net.stopped ++ [p] }
  | .lose l₁ p l₂ => { net with flying := l₁ ++ l₂, stopped := net.stopped ++ [p] }

/-- Every server that sends or receives has the list `ring` and the statuses `up`, and is the
one at its place. -/
def EqualViews (ring : List ChmpxId) (up : ChmpxId → Bool) (net : SuspendNet) :
    SuspendEvent → Prop
  | .request chmpxid _ _ => UpView (net.nodes chmpxid).sock.man ring up ∧ up chmpxid = true ∧
      (net.nodes chmpxid).sock.man.getSelfChmpxId = chmpxid
  | .deliver _ _ p _ => UpView (net.nodes p.term).sock.man ring up ∧
      (net.nodes p.term).sock.man.getSelfChmpxId = p.term
  | _ => True

/-- The nets of a run of servers with equal views.  It starts without packets, and the flags
are as they are. -/
inductive Reachable (ring : List ChmpxId) (up : ChmpxId → Bool) (nodes : ChmpxId → SuspendNode) :
    SuspendNet → Prop
  | init : Reachable ring up nodes ⟨nodes, [], [], [], none⟩
  | step {net : SuspendNet} (e : SuspendEvent) :
      Reachable ring up nodes net → net.Possible e → net.EqualViews ring up e →
      Reachable ring up nodes (net.happen e)

/-- All laps are back at their departures with `CHMPX_COM_RES_SUCCESS`. -/
structure Done (net : SuspendNet) : Prop where
  flying : net.flying = []
  stopped : net.stopped = []
  returned : ∀ p ∈ net.returned, p.result = true

end SuspendNet

/-! ## A ring with one server that is up -/

namespace EventSock

open ChmpxMan

variable {m : ChmpxMan} {s : EventSock} {ids : List ChmpxId} {up : ChmpxId → Bool}

theorem UpView.getServerStatus_down (h : UpView m ids up) {chmpxid : ChmpxId}
    (hdown : up chmpxid = false) : (m.getServerStatus chmpxid).isUp = false := by
  obtain ⟨svrs, frees, rest, hf⟩ := h.wellFormed
  have hnodes := hf.lists.nodes_servers hf.head
  rw [getServerStatus]
  split
  · decide
  · split
    · decide
    · rename_i p hp
      rw [hf.head] at hp
      cases svrs with
      | nil => cases hp
      | cons q svrs =>
        obtain ⟨hmem, hid⟩ := hf.lists.find_mem List.mem_cons_self hp
        rw [h.up_eq p (hnodes ▸ hmem), hid, hdown]

theorem nextRingLoop_none {svrs frees : List Ptr} {rest : List (List Ptr)} {p : Ptr}
    (h : Lists s.man svrs frees rest) (hhead : s.man.chmpxServers = svrs.head?)
    (hself : s.man.chmpxSelf = some p) (hp : p ∈ svrs) (io : Outside)
    (hdown : ∀ c ∈ Circle.behind svrs p,
      (s.man.getServerStatus (s.man.chmpx c).chmpxid).isUp = false) (fuel : Nat) :
    ∀ (q : Ptr) (w : List Ptr), WalkAt svrs p q w →
      nextRingLoop io p fuel q s = (chmInvalidChmpxId, s) := by
  induction fuel with
  | zero => exact fun _ _ _ => rfl
  | succ fuel ih =>
    intro q w hw
    rw [nextRingLoop, h.getNextServerPos_eq hhead hself hp hw]
    cases w with
    | nil => rfl
    | cons c w =>
      have hbehind := hw.mem List.mem_cons_self
      have hc : c ∈ svrs := Circle.mem_of_mem_behind hp hbehind
      rw [List.head?_cons]
      simp only [h.getServerBase_eq hc, hdown c hbehind, Bool.false_eq_true, and_false, if_false]
      exact ih c w hw.step

/-- Without a server behind this one that is up there is none to send to. -/
theorem UpView.sock_getNextRingChmpxId_none (h : UpView s.man ids up) (hnd : ids.Nodup)
    (io : Outside) (hx : (Circle.behind ids s.man.getSelfChmpxId).find? up = none) :
    (s.getNextRingChmpxId io).1 = chmInvalidChmpxId := by
  have hm : s.man.getNextRingChmpxId = chmInvalidChmpxId := by
    rw [h.toRingView.getNextRingChmpxId_eq hnd h.up_eq, hx]
    rfl
  obtain ⟨svrs, frees, rest, p, hf, hself, hp, hids, hid, -⟩ := h.toRingView.spec
  rw [hids] at hnd
  rw [hids, hid, Circle.behind_map hnd hp, List.find?_eq_none] at hx
  unfold getNextRingChmpxId
  rw [hm, if_neg (not_not_intro rfl), hself]
  dsimp only
  rw [nextRingLoop_none hf.lists hf.head hself hp io (fun c hc => ?_) _ p _ (Or.inl ⟨rfl, rfl⟩)]
  refine h.getServerStatus_down (Bool.eq_false_iff.mpr ?_)
  exact hx _ (List.mem_map_of_mem hc)

end EventSock

/-! ## What a server does -/

namespace SuspendNode

open EventSock

variable {kind : LapKind} {io : Outside} {n : SuspendNode} {ring : List ChmpxId}
variable {up : ChmpxId → Bool}

theorem apply_man (kind : LapKind) (n : SuspendNode) : (n.apply kind).2.sock.man = n.sock.man := by
  cases kind <;> unfold apply suspendAutoMerge resetAutoMerge setAutoMergeSuspend <;>
    cases n.isAttached <;> rfl

theorem apply_flag (h : (n.apply kind).1 = true) :
    (n.apply kind).2.isAutoMergeSuspend = kind.isSuspend := by
  cases kind <;> unfold apply suspendAutoMerge resetAutoMerge setAutoMergeSuspend at h ⊢ <;>
    cases hattached : n.isAttached <;> simp_all [LapKind.isSuspend]

theorem apply_refused (h : (n.apply kind).1 = false) : (n.apply kind).2 = n := by
  cases kind <;> unfold apply suspendAutoMerge resetAutoMerge setAutoMergeSuspend at h ⊢ <;>
    cases hattached : n.isAttached <;> simp_all

/-- A request is refused, finds no other server that is up, or has a packet for the next one. -/
theorem request_cases (hv : UpView n.sock.man ring up) (hring : ring.Nodup) (kind : LapKind)
    (io : Outside) :
    (∃ res, (res = .errorCommandOnServer ∨ res = .errorCouldNot) ∧
      n.request kind io = (res, none, n)) ∨
    (∃ n', n.request kind io = (.success, none, n') ∧ n'.isAutoMergeSuspend = kind.isSuspend ∧
      (Circle.behind ring n.sock.man.getSelfChmpxId).find? up = none) ∨
    ∃ (res : CtlRes) (next : ChmpxId) (n' : SuspendNode),
      (res = .success ∨ res = .errorCommunication) ∧ n.request kind io = (res, some next, n') ∧
        n'.isAutoMergeSuspend = kind.isSuspend ∧
        (Circle.behind ring n.sock.man.getSelfChmpxId).find? up = some next := by
  unfold request
  have hman := apply_man kind n
  have hflag := @apply_flag kind n
  have hrefused := @apply_refused kind n
  by_cases hmode : n.sock.isServerMode = true
  · rw [hmode]
    generalize n.apply kind = r at hman hflag hrefused ⊢
    obtain ⟨ok, n'⟩ := r
    dsimp only at hman hflag hrefused ⊢
    cases ok with
    | false => exact Or.inl ⟨.errorCouldNot, Or.inr rfl, by rw [hrefused rfl]; rfl⟩
    | true =>
      have hv' : UpView n'.sock.man ring up := hman ▸ hv
      rw [← hman]
      simp only [Bool.not_true, Bool.false_eq_true, if_false]
      cases hx : (Circle.behind ring n'.sock.man.getSelfChmpxId).find? up with
      | none =>
        have hnext := hv'.sock_getNextRingChmpxId_none hring io hx
        generalize n'.sock.getNextRingChmpxId io = r at hnext ⊢
        obtain ⟨x, s⟩ := r
        dsimp only at hnext ⊢
        rw [if_pos hnext]
        exact Or.inr (Or.inl ⟨{ n' with sock := s }, rfl, hflag rfl, rfl⟩)
      | some next =>
        have hnext := hv'.sock_getNextRingChmpxId hring io hx
        have hvalid := hv'.valid (hv'.mem_of_find hx)
        generalize n'.sock.getNextRingChmpxId io = r at hnext ⊢
        obtain ⟨x, s⟩ := r
        dsimp only at hnext ⊢
        rw [hnext, if_neg hvalid]
        refine Or.inr (Or.inr ⟨_, next, { n' with sock := { s with calls := s.calls + 1 } }, ?_,
          rfl, hflag rfl, rfl⟩)
        cases io.sends s.calls with
        | false => exact Or.inr rfl
        | true => exact Or.inl rfl
  · exact Or.inl ⟨.errorCommandOnServer, Or.inl rfl, by simp [hmode]⟩

/-- A packet of another departure is sent on where a packet of the ring is. -/
theorem receive_of_transfer {dept next : ChmpxId} (hne : dept ≠ n.sock.man.getSelfChmpxId)
    (ht : (n.sock.transfer io kind.com dept).1 = some next) (result : Bool) :
    ∃ result' n', n.receive kind io dept result = (true, some (next, result'), n') ∧
      (result' = true → result = true ∧ n'.isAutoMergeSuspend = kind.isSuspend) := by
  have hof : n.sock.nextOfRing io kind.com = n.sock.getNextRingChmpxId io := by
    cases kind <;> rfl
  unfold transfer at ht
  rw [hof] at ht
  unfold receive
  rw [if_neg hne]
  generalize n.sock.getNextRingChmpxId io = r at ht ⊢
  obtain ⟨x, s⟩ := r
  dsimp only at ht ⊢
  split at ht
  · cases ht
  · rename_i hvalid
    split at ht
    · rename_i hsafe
      cases ht
      rw [if_neg hvalid, hsafe]
      cases result with
      | false => exact ⟨false, _, rfl, fun h => by cases h⟩
      | true => exact ⟨_, _, rfl, fun h => ⟨rfl, apply_flag h⟩⟩
    · cases ht

theorem request_sameRing (kind : LapKind) (io : Outside) (n : SuspendNode) :
    SameRing n.sock.man (n.request kind io).2.2.sock.man := by
  have hnext := getNextRingChmpxId_sameRing io (n.apply kind).2.sock
  rw [apply_man] at hnext
  have happly : SameRing n.sock.man (n.apply kind).2.sock.man :=
    (apply_man kind n).symm ▸ SameRing.refl n.sock.man
  unfold request
  generalize n.apply kind = r at hnext happly ⊢
  obtain ⟨ok, n'⟩ := r
  dsimp only at hnext happly ⊢
  split
  · exact SameRing.refl n.sock.man
  · split
    · exact happly
    · split
      · exact hnext
      · exact hnext

theorem receive_sameRing (kind : LapKind) (io : Outside) (dept : ChmpxId) (result : Bool)
    (n : SuspendNode) : SameRing n.sock.man (n.receive kind io dept result).2.2.sock.man := by
  have hnext := getNextRingChmpxId_sameRing io n.sock
  unfold receive
  split
  · exact SameRing.refl n.sock.man
  · generalize n.sock.getNextRingChmpxId io = r at hnext ⊢
    obtain ⟨next, s⟩ := r
    dsimp only at hnext ⊢
    split
    · exact hnext
    · split
      · exact hnext
      · split
        · exact hnext
        · rw [apply_man]
          exact hnext

end SuspendNode

namespace SuspendNet

open EventSock SuspendNode

variable {net : SuspendNet} {ring : List ChmpxId} {up : ChmpxId → Bool} {kind : LapKind}
variable {nodes : ChmpxId → SuspendNode} {p : Lap}

/-! ## Where the packets are -/

/-- The packets on their way are on the tour of the servers that are up. -/
def OnTours (ring : List ChmpxId) (up : ChmpxId → Bool) (net : SuspendNet) : Prop :=
  ∀ p ∈ net.flying, RingNet.OnTour ring up p.circuit

theorem onTour_start (hring : ring.Nodup) {n : SuspendNode} (hv : UpView n.sock.man ring up)
    {self next : ChmpxId} (hself : n.sock.man.getSelfChmpxId = self) (hup : up self = true)
    (hx : (Circle.behind ring n.sock.man.getSelfChmpxId).find? up = some next) (kind : LapKind) :
    RingNet.OnTour ring up (Lap.circuit ⟨kind, self, next, true, []⟩) := by
  have hnext := hv.getNextRingChmpxId_eq hring hx
  have hvalid := hv.valid (hv.mem_of_find hx)
  have h := @RingNet.SameViews.onTour_send Unit ⟨fun _ => n.sock, [], []⟩ ring up hring ()
    kind.com next ⟨hv, by rwa [hself], by rwa [hnext], hnext.symm, ?_⟩
  · rw [← hself]
    exact h
  · intro server hcom
    cases kind <;> cases hcom

/-- A server with an equal view sends a packet of another one on to the next of its tour. -/
theorem onTour_next (hring : ring.Nodup) (hp : RingNet.OnTour ring up p.circuit)
    {n : SuspendNode} (hv : UpView n.sock.man ring up)
    (hself : n.sock.man.getSelfChmpxId = p.term) (hne : p.dept ≠ p.term) (io : Outside) :
    ∃ next, (n.sock.transfer io p.kind.com p.dept).1 = some next ∧
      RingNet.OnTour ring up { p.circuit with term := next, trail := p.trail ++ [p.term] } := by
  have hkeep : KeepsNext io p.kind.com n.sock.man.getNextRingChmpxId n.sock := by
    cases p.kind <;> exact trivial
  exact @RingNet.SameViews.transfer_eq Unit ⟨fun _ => n.sock, [p.circuit], []⟩ ring up p.circuit
    hring () io [] [] ⟨rfl, hself⟩ ⟨hv, hkeep⟩ hp hne

/-- A packet that is back has been at every server that is up. -/
theorem visited_of_back (hring : ring.Nodup) (hp : RingNet.OnTour ring up p.circuit)
    (hback : p.dept = p.term) {c : ChmpxId} (hc : c ∈ ring) (hup : up c = true) :
    c = p.dept ∨ c ∈ p.trail := by
  have hmem : p.dept ∈ ring := hp.dept_mem
  have hdept : up p.dept = true := hp.dept_up
  have htour : p.trail ++ [p.term] <+: Circle.tour ring up p.dept := hp.tour
  rw [← hback] at htour
  have hvisited : c ∈ p.trail ++ [p.dept] := by
    rw [Circle.tour_end hring hmem htour]
    exact (Circle.tour_perm hmem hdept).mem_iff.mpr (List.mem_filter.mpr ⟨hc, hup⟩)
  rcases List.mem_append.mp hvisited with h | h
  · exact Or.inr h
  · exact Or.inl (List.mem_singleton.mp h)

/-! ## What an event does -/

/-- The kind of the last lap, if the packets on their way do not contradict it. -/
def lastOf (net : SuspendNet) (kind : LapKind) : Option LapKind :=
  if net.flying.all (·.kind = kind) then some kind else none

/-- The nets after an event. -/
inductive Moved (ring : List ChmpxId) (up : ChmpxId → Bool) (net : SuspendNet) :
    SuspendNet → Prop
  /-- No flag has changed. -/
  | quiet (nodes : ChmpxId → SuspendNode)
      (flags : ∀ c, (nodes c).isAutoMergeSuspend = (net.nodes c).isAutoMergeSuspend) :
      Moved ring up net { net with nodes := nodes }
  /-- There is no other server that is up, or a lap starts. -/
  | start (c : ChmpxId) (kind : LapKind) (n : SuspendNode) (laps : List Lap)
      (flag : n.isAutoMergeSuspend = kind.isSuspend)
      (sent : laps = [] ∧ c ∈ ring ∧ (Circle.behind ring c).find? up = none ∨
        ∃ next, laps = [⟨kind, c, next, true, []⟩] ∧
          RingNet.OnTour ring up (Lap.circuit ⟨kind, c, next, true, []⟩)) :
      Moved ring up net { net with
        nodes := Function.update net.nodes c n
        flying := net.flying ++ laps
        last := net.lastOf kind }
  /-- A lap does not come back. -/
  | stop (net' : SuspendNet) (stopped : net'.stopped ≠ [])
      (flying : ∀ p ∈ net'.flying, p ∈ net.flying) : Moved ring up net net'
  | back (l₁ : List Lap) (p : Lap) (l₂ : List Lap) (flying : net.flying = l₁ ++ p :: l₂)
      (dept : p.dept = p.term) :
      Moved ring up net { net with flying := l₁ ++ l₂, returned := net.returned ++ [p] }
  | hop (l₁ : List Lap) (p : Lap) (l₂ : List Lap) (n : SuspendNode) (next : ChmpxId)
      (result : Bool) (flying : net.flying = l₁ ++ p :: l₂)
      (tour : RingNet.OnTour ring up { p.circuit with term := next, trail := p.trail ++ [p.term] })
      (flag : result = true → p.result = true ∧ n.isAutoMergeSuspend = p.kind.isSuspend) :
      Moved ring up net { net with
        nodes := Function.update net.nodes p.term n
        flying := l₁ ++
          { p with term := next, result := result, trail := p.trail ++ [p.term] } :: l₂ }

theorem moved_of_request (hring : ring.Nodup) {c : ChmpxId} {io : Outside}
    (hviews : net.EqualViews ring up (.request c kind io)) :
    Moved ring up net (net.happen (.request c kind io)) := by
  obtain ⟨hv, hup, hself⟩ := hviews
  have hmem : c ∈ ring := hself ▸ hv.self_mem
  rw [happen]
  rcases request_cases hv hring kind io with ⟨res, hres, hr⟩ | ⟨n, hr, hflag, hx⟩ |
    ⟨res, next, n, hres, hr, hflag, hx⟩
  · rw [hr]
    have hflags : ∀ c', (Function.update net.nodes c (net.nodes c) c').isAutoMergeSuspend =
        (net.nodes c').isAutoMergeSuspend := fun c' => by rw [Function.update_eq_self]
    rcases hres with rfl | rfl
    · exact Moved.quiet _ hflags
    · exact Moved.quiet _ hflags
  · rw [hr]
    rw [hself] at hx
    have h := @Moved.start ring up net c kind n [] hflag (Or.inl ⟨rfl, hmem, hx⟩)
    rw [List.append_nil] at h
    exact h
  · rw [hr]
    have htour := onTour_start hring hv hself hup hx kind
    rcases hres with rfl | rfl
    · exact Moved.start c kind n _ hflag (Or.inr ⟨next, rfl, htour⟩)
    · exact Moved.stop _ (by simp) fun p hp => hp

/-- A packet in the middle, and what stays without it. -/
theorem mem_middle {l₁ l₂ : List Lap} {q : Lap} :
    q ∈ l₁ ++ p :: l₂ ↔ q = p ∨ q ∈ l₁ ++ l₂ := by
  rw [List.perm_middle.mem_iff, List.mem_cons]

theorem moved_of_deliver (hring : ring.Nodup) {io : Outside} {l₁ l₂ : List Lap}
    (htours : OnTours ring up net) (hposs : net.Possible (.deliver io l₁ p l₂))
    (hviews : net.EqualViews ring up (.deliver io l₁ p l₂)) :
    Moved ring up net (net.happen (.deliver io l₁ p l₂)) := by
  obtain ⟨hv, hself⟩ := hviews
  have hp : RingNet.OnTour ring up p.circuit := by
    apply htours p
    rw [show net.flying = l₁ ++ p :: l₂ from hposs]
    exact mem_middle.mpr (Or.inl rfl)
  rw [happen]
  by_cases hback : p.dept = p.term
  · have hr : (net.nodes p.term).receive p.kind io p.dept p.result =
        (p.result, none, net.nodes p.term) := by
      rw [receive, hself, if_pos hback]
    rw [hr]
    dsimp only
    rw [if_pos hback, Function.update_eq_self]
    exact Moved.back l₁ p l₂ hposs hback
  · obtain ⟨next, ht, htour⟩ := onTour_next hring hp hv hself hback io
    have hne : p.dept ≠ (net.nodes p.term).sock.man.getSelfChmpxId := by
      rw [hself]
      exact hback
    obtain ⟨result, n, hr, hflag⟩ := receive_of_transfer hne ht p.result
    rw [hr]
    exact Moved.hop l₁ p l₂ n next result hposs htour hflag

theorem moved_of_happen (hring : ring.Nodup) {e : SuspendEvent} (htours : OnTours ring up net)
    (hposs : net.Possible e) (hviews : net.EqualViews ring up e) :
    Moved ring up net (net.happen e) := by
  cases e with
  | change c s =>
    refine Moved.quiet _ fun c' => ?_
    by_cases hc : c' = c
    · rw [hc, Function.update_self]
    · rw [Function.update_of_ne hc]
  | request c kind io => exact moved_of_request hring hviews
  | deliver io l₁ p l₂ => exact moved_of_deliver hring htours hposs hviews
  | lose l₁ p l₂ =>
    refine Moved.stop _ (by simp [happen]) fun q hq => ?_
    rw [show net.flying = l₁ ++ p :: l₂ from hposs]
    exact mem_middle.mpr (Or.inr hq)

/-! ## The flags -/

/-- No lap has failed so far. -/
structure Sound (net : SuspendNet) : Prop where
  stopped : net.stopped = []
  flying : ∀ p ∈ net.flying, p.result = true
  returned : ∀ p ∈ net.returned, p.result = true

/-- The packets on their way are of the kind of the last lap, and each server has its flag or is
still ahead of one of them. -/
structure Follows (ring : List ChmpxId) (up : ChmpxId → Bool) (net : SuspendNet)
    (kind : LapKind) : Prop where
  kinds : ∀ p ∈ net.flying, p.kind = kind
  flags : ∀ c ∈ ring, up c = true → (net.nodes c).isAutoMergeSuspend = kind.isSuspend ∨
    ∃ p ∈ net.flying, c ≠ p.dept ∧ c ∉ p.trail

variable {net' : SuspendNet}

theorem Moved.onTours (hm : Moved ring up net net') (h : OnTours ring up net) :
    OnTours ring up net' := by
  cases hm with
  | quiet nodes flags => exact h
  | start c kind n laps flag sent =>
    intro p hp
    rcases List.mem_append.mp hp with hp | hp
    · exact h p hp
    · rcases sent with ⟨rfl, -, -⟩ | ⟨next, rfl, htour⟩
      · cases hp
      · rw [List.mem_singleton.mp hp]
        exact htour
  | stop _ _ flying => exact fun p hp => h p (flying p hp)
  | back l₁ p l₂ flying _ =>
    intro q hq
    exact h q (flying ▸ mem_middle.mpr (Or.inr hq))
  | hop l₁ p l₂ n next result flying tour _ =>
    intro q hq
    rcases mem_middle.mp hq with rfl | hq
    · exact tour
    · exact h q (flying ▸ mem_middle.mpr (Or.inr hq))

/-- A lap that has failed stays so. -/
theorem Moved.sound (hm : Moved ring up net net') (h : Sound net') : Sound net := by
  cases hm with
  | quiet nodes flags => exact ⟨h.stopped, h.flying, h.returned⟩
  | start c kind n laps flag sent =>
    exact ⟨h.stopped, fun p hp => h.flying p (List.mem_append_left laps hp), h.returned⟩
  | stop _ stopped _ => exact absurd h.stopped stopped
  | back l₁ p l₂ flying _ =>
    have hp : p.result = true := h.returned p (List.mem_append_right _ List.mem_cons_self)
    refine ⟨h.stopped, fun q hq => ?_, fun q hq => h.returned q (List.mem_append_left _ hq)⟩
    rw [flying] at hq
    rcases mem_middle.mp hq with rfl | hq
    · exact hp
    · exact h.flying q hq
  | hop l₁ p l₂ n next result flying _ flag =>
    have hp := (flag (h.flying _ (mem_middle.mpr (Or.inl rfl)))).1
    refine ⟨h.stopped, fun q hq => ?_, h.returned⟩
    rw [flying] at hq
    rcases mem_middle.mp hq with rfl | hq
    · exact hp
    · exact h.flying q (mem_middle.mpr (Or.inr hq))

theorem lastOf_eq_some {kind' : LapKind} (h : net.lastOf kind = some kind') :
    kind' = kind ∧ ∀ p ∈ net.flying, p.kind = kind := by
  rw [lastOf] at h
  split at h
  · rename_i hall
    cases h
    simpa using hall
  · cases h

/-- The first packet of a lap is behind its departure and ahead of all others. -/
theorem follows_start {c : ChmpxId} {n : SuspendNode} {laps : List Lap}
    (kinds : ∀ p ∈ net.flying, p.kind = kind) (flag : n.isAutoMergeSuspend = kind.isSuspend)
    (sent : laps = [] ∧ c ∈ ring ∧ (Circle.behind ring c).find? up = none ∨
      ∃ next, laps = [⟨kind, c, next, true, []⟩] ∧
        RingNet.OnTour ring up (Lap.circuit ⟨kind, c, next, true, []⟩)) :
    Follows ring up { net with
      nodes := Function.update net.nodes c n
      flying := net.flying ++ laps
      last := net.lastOf kind } kind := by
  refine ⟨fun p hp => ?_, fun c' hc' hup => ?_⟩
  · rcases List.mem_append.mp hp with hp | hp
    · exact kinds p hp
    · rcases sent with ⟨rfl, -⟩ | ⟨next, rfl, -⟩
      · cases hp
      · rw [List.mem_singleton.mp hp]
  · dsimp only
    by_cases hcc : c' = c
    · rw [hcc, Function.update_self]
      exact Or.inl flag
    · rcases sent with ⟨-, hc, hx⟩ | ⟨next, rfl, -⟩
      · have hdown := List.find?_eq_none.mp hx c' (Circle.mem_behind hc hc' hcc)
        exact absurd hup hdown
      · exact Or.inr ⟨_, List.mem_append_right _ List.mem_cons_self, hcc, List.not_mem_nil⟩

theorem Follows.back (hring : ring.Nodup) (h : Follows ring up net kind) {l₁ l₂ : List Lap}
    (flying : net.flying = l₁ ++ p :: l₂) (hp : RingNet.OnTour ring up p.circuit)
    (dept : p.dept = p.term) :
    Follows ring up { net with flying := l₁ ++ l₂, returned := net.returned ++ [p] } kind := by
  have hsub : ∀ q ∈ l₁ ++ l₂, q ∈ net.flying := fun q hq =>
    flying ▸ mem_middle.mpr (Or.inr hq)
  refine ⟨fun q hq => h.kinds q (hsub q hq), fun c hc hup => ?_⟩
  refine (h.flags c hc hup).imp id fun ⟨q, hq, hdept, htrail⟩ => ⟨q, ?_, hdept, htrail⟩
  rw [flying] at hq
  rcases mem_middle.mp hq with rfl | hq
  · rcases visited_of_back hring hp dept hc hup with hv | hv
    · exact absurd hv hdept
    · exact absurd hv htrail
  · exact hq

theorem Follows.hop (h : Follows ring up net kind) {l₁ l₂ : List Lap} {n : SuspendNode}
    {next : ChmpxId} {result : Bool} (flying : net.flying = l₁ ++ p :: l₂)
    (flag : n.isAutoMergeSuspend = p.kind.isSuspend) :
    Follows ring up { net with
      nodes := Function.update net.nodes p.term n
      flying := l₁ ++
        { p with term := next, result := result, trail := p.trail ++ [p.term] } :: l₂ } kind := by
  have hp : p.kind = kind := h.kinds p (flying ▸ mem_middle.mpr (Or.inl rfl))
  refine ⟨fun q hq => ?_, fun c hc hup => ?_⟩
  · rcases mem_middle.mp hq with rfl | hq
    · exact hp
    · exact h.kinds q (flying ▸ mem_middle.mpr (Or.inr hq))
  · dsimp only
    by_cases hct : c = p.term
    · rw [hct, Function.update_self, flag, hp]
      exact Or.inl rfl
    · rw [Function.update_of_ne hct]
      refine (h.flags c hc hup).imp id fun ⟨q, hq, hdept, htrail⟩ => ?_
      rw [flying] at hq
      rcases mem_middle.mp hq with rfl | hq
      · refine ⟨_, mem_middle.mpr (Or.inl rfl), hdept, fun hmem => ?_⟩
        rcases List.mem_append.mp hmem with hmem | hmem
        · exact htrail hmem
        · exact hct (List.mem_singleton.mp hmem)
      · exact ⟨q, mem_middle.mpr (Or.inr hq), hdept, htrail⟩

theorem Moved.follows (hring : ring.Nodup) (hm : Moved ring up net net')
    (htours : OnTours ring up net) (hsound : Sound net')
    (h : ∀ kind, net.last = some kind → Follows ring up net kind) :
    ∀ kind, net'.last = some kind → Follows ring up net' kind := by
  intro kind hlast
  cases hm with
  | quiet nodes flags =>
    have hf := h kind hlast
    exact ⟨hf.kinds, fun c hc hup => by rw [flags]; exact hf.flags c hc hup⟩
  | start c kind' n laps flag sent =>
    obtain ⟨rfl, kinds⟩ := lastOf_eq_some hlast
    exact follows_start kinds flag sent
  | stop _ stopped _ => exact absurd hsound.stopped stopped
  | back l₁ p l₂ flying dept =>
    have hp := htours p (flying ▸ mem_middle.mpr (Or.inl rfl))
    exact (h kind hlast).back hring flying hp dept
  | hop l₁ p l₂ n next result flying _ flag =>
    have hflag := flag (hsound.flying _ (mem_middle.mpr (Or.inl rfl)))
    exact (h kind hlast).hop flying hflag.2

theorem reachable_follows (hring : ring.Nodup) (h : Reachable ring up nodes net) :
    OnTours ring up net ∧
      (Sound net → ∀ kind, net.last = some kind → Follows ring up net kind) := by
  induction h with
  | init => exact ⟨fun p hp => absurd hp List.not_mem_nil, fun _ kind hk => by cases hk⟩
  | step e _ hposs hviews ih =>
    have hm := moved_of_happen hring ih.1 hposs hviews
    exact ⟨hm.onTours ih.1, fun hsound => hm.follows hring ih.1 hsound (ih.2 (hm.sound hsound))⟩

/-- When all laps are back with success, every server that is up has the flag of the last lap,
unless one of the other kind was on its way when that lap was requested. -/
theorem reachable_sameFlag (hring : ring.Nodup) (h : Reachable ring up nodes net) (hdone : net.Done)
    (hlast : net.last = some kind) :
    ∀ c ∈ ring, up c = true → (net.nodes c).isAutoMergeSuspend = kind.isSuspend := by
  intro c hc hup
  have hnone : ∀ p, p ∉ net.flying := fun p hp => by
    rw [hdone.flying] at hp
    cases hp
  have hsound : Sound net := ⟨hdone.stopped, fun p hp => absurd hp (hnone p), hdone.returned⟩
  rcases ((reachable_follows hring h).2 hsound kind hlast).flags c hc hup with hflag | ⟨p, hp, -⟩
  · exact hflag
  · exact absurd hp (hnone p)

/-! ## Samples -/

/-- The servers that are up have equal views. -/
def Viewed (ring : List ChmpxId) (up : ChmpxId → Bool) (net : SuspendNet) : Prop :=
  ∀ c ∈ ring, up c = true → UpView (net.nodes c).sock.man ring up ∧
    (net.nodes c).sock.man.getSelfChmpxId = c

/-- The servers of an event are up, and no server changes. -/
def Within (ring : List ChmpxId) (up : ChmpxId → Bool) : SuspendEvent → Prop
  | .change _ _ => False
  | .request c _ _ => c ∈ ring ∧ up c = true
  | .deliver _ _ p _ => p.term ∈ ring ∧ up p.term = true
  | .lose _ _ _ => True

theorem Viewed.update (h : Viewed ring up net) {c : ChmpxId} {n : SuspendNode}
    (hn : SameRing (net.nodes c).sock.man n.sock.man) :
    ∀ c' ∈ ring, up c' = true → UpView (Function.update net.nodes c n c').sock.man ring up ∧
      (Function.update net.nodes c n c').sock.man.getSelfChmpxId = c' := by
  intro c' hc' hup
  by_cases hcc : c' = c
  · subst hcc
    obtain ⟨hv, hself⟩ := h c' hc' hup
    rw [Function.update_self]
    exact ⟨hn.upView hv, hn.selfChmpxId.trans hself⟩
  · rw [Function.update_of_ne hcc]
    exact h c' hc' hup

/-- Laps leave the views equal. -/
theorem Viewed.step (h : Viewed ring up net) {e : SuspendEvent} (hin : Within ring up e) :
    net.EqualViews ring up e ∧ Viewed ring up (net.happen e) := by
  cases e with
  | change c s => exact absurd hin id
  | request c kind io =>
    obtain ⟨hv, hself⟩ := h c hin.1 hin.2
    refine ⟨⟨hv, hin.2, hself⟩, ?_⟩
    have hupdate := h.update (request_sameRing kind io (net.nodes c))
    unfold Viewed happen
    dsimp only
    split <;> exact hupdate
  | deliver io l₁ p l₂ =>
    refine ⟨h p.term hin.1 hin.2, ?_⟩
    have hupdate := h.update (receive_sameRing p.kind io p.dept p.result (net.nodes p.term))
    unfold Viewed happen
    dsimp only
    split
    · exact hupdate
    · split <;> exact hupdate
  | lose l₁ p l₂ => exact ⟨trivial, h⟩

/-- A run of events. -/
def run (net : SuspendNet) (events : List SuspendEvent) : SuspendNet := events.foldl happen net

instance (net : SuspendNet) (e : SuspendEvent) : Decidable (net.Possible e) :=
  match e with
  | .change _ _ | .request _ _ _ => isTrue trivial
  | .deliver _ l₁ p l₂ | .lose l₁ p l₂ => inferInstanceAs (Decidable (net.flying = l₁ ++ p :: l₂))

instance (ring : List ChmpxId) (up : ChmpxId → Bool) (e : SuspendEvent) :
    Decidable (Within ring up e) :=
  match e with
  | .change _ _ => isFalse id
  | .request c _ _ => inferInstanceAs (Decidable (c ∈ ring ∧ up c = true))
  | .deliver _ _ p _ => inferInstanceAs (Decidable (p.term ∈ ring ∧ up p.term = true))
  | .lose _ _ _ => isTrue trivial

/-- Every event of a run is possible where it happens. -/
def Runs (ring : List ChmpxId) (up : ChmpxId → Bool) : List SuspendEvent → SuspendNet → Prop
  | [], _ => True
  | e :: events, net => (net.Possible e ∧ Within ring up e) ∧ Runs ring up events (net.happen e)

instance decidableRuns (ring : List ChmpxId) (up : ChmpxId → Bool) :
    ∀ (events : List SuspendEvent) (net : SuspendNet), Decidable (Runs ring up events net)
  | [], _ => isTrue trivial
  | e :: events, net =>
    haveI := decidableRuns ring up events (net.happen e)
    inferInstanceAs (Decidable ((net.Possible e ∧ Within ring up e) ∧ _))

theorem reachable_run {events : List SuspendEvent} (h : Reachable ring up nodes net)
    (hviewed : Viewed ring up net) (hruns : Runs ring up events net) :
    Reachable ring up nodes (net.run events) := by
  induction events generalizing net with
  | nil => exact h
  | cons e events ih =>
    obtain ⟨⟨hposs, hin⟩, hrest⟩ := hruns
    obtain ⟨hviews, hviewed'⟩ := hviewed.step hin
    exact ih (h.step e hposs hviews) hviewed' hrest

open RingNet (sampleId sampleNodes sampleRing sampleUp sampleOutside sampleNodes_view)

/-- Three servers that know each other; the second one is down. -/
def sampleSuspendNodes (c : ChmpxId) : SuspendNode where
  sock := if c = sampleId 99 then sampleNodes 2 else sampleNodes 0
  isAttached := true
  isAutoMerge := true
  isAutoMergeSuspend := false

def sampleNet : SuspendNet := ⟨sampleSuspendNodes, [], [], [], none⟩

theorem sampleNet_sock (c : ChmpxId) :
    (sampleNet.nodes c).sock = if c = sampleId 99 then sampleNodes 2 else sampleNodes 0 := rfl

theorem sampleNet_viewed : Viewed sampleRing sampleUp sampleNet := by
  have hself₀ : (sampleNodes 0).man.getSelfChmpxId = sampleId 97 := by decide +kernel
  have hself₂ : (sampleNodes 2).man.getSelfChmpxId = sampleId 99 := by decide +kernel
  have hids : ∀ c ∈ sampleRing, sampleUp c = true → c = sampleId 97 ∨ c = sampleId 99 := by
    decide +kernel
  have hne : sampleId 97 ≠ sampleId 99 := by decide +kernel
  intro c hc hup
  rcases hids c hc hup with rfl | rfl
  · rw [sampleNet_sock, if_neg hne]
    exact ⟨sampleNodes_view 0, hself₀⟩
  · rw [sampleNet_sock, if_pos rfl]
    exact ⟨sampleNodes_view 2, hself₂⟩

/-- A lap of the first server. -/
def sampleLap (kind : LapKind) : List SuspendEvent :=
  [.request (sampleId 97) kind sampleOutside,
    .deliver sampleOutside [] ⟨kind, sampleId 97, sampleId 99, true, []⟩ [],
    .deliver sampleOutside [] ⟨kind, sampleId 97, sampleId 97, true, [sampleId 99]⟩ []]

theorem reachable_sameFlag_sample : ∃ net, Reachable sampleRing sampleUp sampleSuspendNodes net ∧
    net.Done ∧ net.last = some .suspend ∧
      ∀ c ∈ sampleRing, sampleUp c = true → (net.nodes c).isAutoMergeSuspend = true := by
  have hr : Reachable sampleRing sampleUp sampleSuspendNodes
      (sampleNet.run (sampleLap .suspend)) :=
    reachable_run .init sampleNet_viewed (by decide +kernel)
  have hdone : (sampleNet.run (sampleLap .suspend)).Done :=
    ⟨by decide +kernel, by decide +kernel, by decide +kernel⟩
  have hlast : (sampleNet.run (sampleLap .suspend)).last = some .suspend := by decide +kernel
  exact ⟨_, hr, hdone, hlast, reachable_sameFlag (by decide +kernel) hr hdone hlast⟩

/-- A suspension by the first server and a lap of the other kind by the third one: each server
sets its own flag first and that of the other lap then. -/
def sampleLaps : List SuspendEvent :=
  [.request (sampleId 97) .suspend sampleOutside,
    .request (sampleId 99) .nosuspend sampleOutside,
    .deliver sampleOutside [] ⟨.suspend, sampleId 97, sampleId 99, true, []⟩
      [⟨.nosuspend, sampleId 99, sampleId 97, true, []⟩],
    .deliver sampleOutside [⟨.suspend, sampleId 97, sampleId 97, true, [sampleId 99]⟩]
      ⟨.nosuspend, sampleId 99, sampleId 97, true, []⟩ [],
    .deliver sampleOutside [] ⟨.suspend, sampleId 97, sampleId 97, true, [sampleId 99]⟩
      [⟨.nosuspend, sampleId 99, sampleId 99, true, [sampleId 97]⟩],
    .deliver sampleOutside [] ⟨.nosuspend, sampleId 99, sampleId 99, true, [sampleId 97]⟩ []]

theorem laps_disagree : ¬∀ ring up nodes net, ring.Nodup →
    (∀ c, (nodes c).isAutoMergeSuspend = false) → Reachable ring up nodes net → net.Done →
      ∀ c ∈ ring, ∀ c' ∈ ring, up c = true → up c' = true →
        (net.nodes c).isAutoMergeSuspend = (net.nodes c').isAutoMergeSuspend := by
  intro hall
  have hr : Reachable sampleRing sampleUp sampleSuspendNodes (sampleNet.run sampleLaps) :=
    reachable_run .init sampleNet_viewed (by decide +kernel)
  have hdone : (sampleNet.run sampleLaps).Done :=
    ⟨by decide +kernel, by decide +kernel, by decide +kernel⟩
  have hsame := hall _ _ _ _ (by decide +kernel) (fun _ => rfl) hr hdone (sampleId 97)
    (by decide +kernel) (sampleId 99) (by decide +kernel) (by decide +kernel) (by decide +kernel)
  exact absurd hsame (by decide +kernel)

end SuspendNet
end Chm
