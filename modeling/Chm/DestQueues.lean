/-
The queues of the clients and the descriptors that the chmpx process keeps for them.

A msgid of the shared memory is given to a client, which makes a queue under the path of the
msgid, and goes back to the free list when the client closes it or is found dead.  The chmpx
process opens the path once and keeps the descriptor, also of a queue that has been unlinked,
until a CLOSE_NOTIFY or the check for dead processes has it closed.  A `Send` reaches the queue
of the process that has the msgid in every run in which no queue is made while an old descriptor
is kept, and nothing is sent to a msgid that nobody has open (`run_delivered`).
-/
import Chm.Lib.Steps
import Mathlib.Logic.Function.Basic

namespace Chm

/-- A msgid in its life: `AssignMsg`, `mq_open` and then `mq_close`, `mq_unlink` and `FreeMsg` of
`FreeMsgIds`.  The msgid of a process that ends stays assigned. -/
inductive MsgAt
  | free
  | assigned (pid : Nat)
  | opened (pid queue : Nat)
  | closed (pid : Nat)
  | unlinked (pid : Nat)
  | dead (pid : Nat)
  deriving DecidableEq, Repr

/-- A message that `mq_send` has put on a queue, and where its msgid was at that time. -/
structure DestPost where
  msgid : Nat
  queue : Nat
  msgAt : MsgAt
  deriving DecidableEq, Repr

/-- `path` is what the paths name, `fds` the descriptors of the chmpx process, `cache` its
`dest_idfd_map` and `sends` the `Send`s that have their descriptor. -/
structure DestNet where
  msgids : List Nat
  msgs : Nat → MsgAt
  path : Nat → Option Nat
  queues : Nat
  /-- What the processes have freed and not told of. -/
  freed : List (Nat × Nat)
  /-- The CLOSE_NOTIFYs on their way. -/
  notices : List (List Nat)
  /-- The calls of `CloseDestMQ` that are to come. -/
  toClose : List Nat
  fds : Nat → Option Nat
  cache : Nat → Option Nat
  sends : List (Nat × Nat)
  posts : List DestPost

/-- `assign` to `notify` are a client's steps, `checkFree` frees what a dead process had, and the
others are the chmpx process's. -/
inductive DestEvent
  | assign (pid msgid : Nat)
  | openQueue (msgid : Nat)
  | close (msgid : Nat)
  | unlink (msgid : Nat)
  | freeMsg (msgid : Nat)
  | notify (pid : Nat)
  | die (pid : Nat)
  | checkFree (pid : Nat)
  | deliver (i : Nat)
  | closeDest (i : Nat)
  | openDest (msgid fd : Nat)
  | post (i : Nat)
  | giveUp (i : Nat)

/-- The process that a msgid is assigned to. -/
def MsgAt.pid : MsgAt → Option Nat
  | .free => none
  | .assigned pid | .opened pid _ | .closed pid | .unlinked pid | .dead pid => some pid

namespace DestNet

def setMsg (msgid : Nat) (msgAt : MsgAt) (s : DestNet) : DestNet :=
  { s with msgs := Function.update s.msgs msgid msgAt }

/-- `AssignMsg`: any msgid of the free list. -/
def assign (pid msgid : Nat) (s : DestNet) : Option DestNet :=
  if msgid ∈ s.msgids ∧ s.msgs msgid = .free then some (s.setMsg msgid (.assigned pid)) else none

/-- `mq_open` with `O_CREAT | O_EXCL`, again after `mq_unlink` when the path was there. -/
def openQueue (msgid : Nat) (s : DestNet) : Option DestNet :=
  match s.msgs msgid with
  | .assigned pid =>
    some { s.setMsg msgid (.opened pid s.queues) with
      path := Function.update s.path msgid (some s.queues)
      queues := s.queues + 1 }
  | _ => none

def close (msgid : Nat) (s : DestNet) : Option DestNet :=
  match s.msgs msgid with
  | .opened pid _ => some (s.setMsg msgid (.closed pid))
  | _ => none

def unlink (msgid : Nat) (s : DestNet) : Option DestNet :=
  match s.msgs msgid with
  | .closed pid =>
    some { s.setMsg msgid (.unlinked pid) with path := Function.update s.path msgid none }
  | _ => none

def freeMsg (msgid : Nat) (s : DestNet) : Option DestNet :=
  match s.msgs msgid with
  | .unlinked pid => some { s.setMsg msgid .free with freed := (pid, msgid) :: s.freed }
  | _ => none

/-- `PxCltSendCloseNotify` of all that the process has freed. -/
def notify (pid : Nat) (s : DestNet) : DestNet :=
  { s with
    freed := s.freed.filter (·.1 ≠ pid)
    notices := (s.freed.filter (·.1 = pid)).map (·.2) :: s.notices }

/-- A process ends: its descriptors are closed, and the paths stay. -/
def die (pid : Nat) (s : DestNet) : DestNet :=
  { s with
    msgs := fun msgid => if (s.msgs msgid).pid = some pid then .dead pid else s.msgs msgid
    freed := s.freed.filter (·.1 ≠ pid) }

/-- `FreeMsgs` in `CheckProcessRunning`: the loop over `CloseDestMQ` comes after it. -/
def checkFree (pid : Nat) (s : DestNet) : DestNet :=
  { s with
    msgs := fun msgid => if s.msgs msgid = .dead pid then .free else s.msgs msgid
    toClose := s.toClose ++ s.msgids.filter (s.msgs · = .dead pid) }

/-- `PxCltReceiveCloseNotify`. -/
def deliver (i : Nat) (s : DestNet) : Option DestNet :=
  s.notices[i]?.map fun msgids =>
    { s with notices := s.notices.eraseIdx i, toClose := s.toClose ++ msgids }

/-- `CloseDestMQ`. -/
def closeDest (i : Nat) (s : DestNet) : Option DestNet :=
  s.toClose[i]?.map fun msgid =>
    let s := { s with toClose := s.toClose.eraseIdx i }
    match s.cache msgid with
    | none => s
    | some fd =>
      { s with
        fds := Function.update s.fds fd none
        cache := Function.update s.cache msgid none }

/-- `OpenDestMQ` of a `Send`.  `fd` is the descriptor that `mq_open` gives. -/
def openDest (msgid fd : Nat) (s : DestNet) : Option DestNet :=
  match s.cache msgid with
  | some fd => some { s with sends := (msgid, fd) :: s.sends }
  | none =>
    match s.path msgid with
    | none => some s
    | some queue =>
      if s.fds fd ≠ none then none
      else
        some { s with
          fds := Function.update s.fds fd (some queue)
          cache := Function.update s.cache msgid (some fd)
          sends := (msgid, fd) :: s.sends }

/-- `mq_send` of a `Send` that returns true, or that fails since its descriptor is closed. -/
def post (i : Nat) (s : DestNet) : Option DestNet :=
  s.sends[i]?.map fun send =>
    let s' := { s with sends := s.sends.eraseIdx i }
    match s.fds send.2 with
    | none => s'
    | some queue => { s' with posts := ⟨send.1, queue, s.msgs send.1⟩ :: s.posts }

def step (s : DestNet) : DestEvent → Option DestNet
  | .assign pid msgid => s.assign pid msgid
  | .openQueue msgid => s.openQueue msgid
  | .close msgid => s.close msgid
  | .unlink msgid => s.unlink msgid
  | .freeMsg msgid => s.freeMsg msgid
  | .notify pid => some (s.notify pid)
  | .die pid => some (s.die pid)
  | .checkFree pid => some (s.checkFree pid)
  | .deliver i => s.deliver i
  | .closeDest i => s.closeDest i
  | .openDest msgid fd => s.openDest msgid fd
  | .post i => s.post i
  | .giveUp i => some { s with sends := s.sends.eraseIdx i }

/-- All msgids are free. -/
def start (msgids : List Nat) : DestNet :=
  ⟨msgids, fun _ => .free, fun _ => none, 0, [], [], [], fun _ => none, fun _ => none, [], []⟩

def steps : Steps DestNet DestEvent := ⟨fun s => ∃ msgids, s = start msgids, step⟩

/-- Every message is on the queue that the process of its msgid had open. -/
def Delivered (s : DestNet) : Prop := ∀ p ∈ s.posts, ∃ pid, p.msgAt = .opened pid p.queue

/-! ## Descriptors that are not stale -/

def isOpened : MsgAt → Bool
  | .opened .. => true
  | _ => false

/-- A queue is made when no descriptor is kept for its msgid, and a message is sent through the
descriptor that is kept, to a msgid that a process has open. -/
def inOrder (s : DestNet) : DestEvent → Bool
  | .openQueue msgid => s.cache msgid = none
  | .post i =>
    match s.sends[i]? with
    | none => true
    | some send => s.cache send.1 = some send.2 && isOpened (s.msgs send.1)
  | _ => true

structure Invariant (s : DestNet) : Prop where
  fd : ∀ msgid fd, s.cache msgid = some fd → s.fds fd ≠ none
  inj : ∀ msgid msgid' fd, s.cache msgid = some fd → s.cache msgid' = some fd → msgid = msgid'
  path : ∀ msgid pid queue, s.msgs msgid = .opened pid queue → s.path msgid = some queue
  current : ∀ msgid fd pid queue, s.cache msgid = some fd → s.msgs msgid = .opened pid queue →
    s.fds fd = some queue
  delivered : Delivered s

variable {s s' : DestNet} {msgid pid fd i : Nat}

theorem start_invariant (msgids : List Nat) : Invariant (start msgids) where
  fd _ _ h := nomatch h
  inj _ _ _ h := nomatch h
  path _ _ _ h := nomatch h
  current _ _ _ _ h := nomatch h
  delivered _ h := nomatch h

/-- A step that opens no queue and touches no descriptor. -/
theorem Invariant.congr (h : Invariant s) (hcache : s'.cache = s.cache) (hfds : s'.fds = s.fds)
    (hposts : s'.posts = s.posts) (hopened : ∀ msgid pid queue,
      s'.msgs msgid = .opened pid queue →
        s.msgs msgid = .opened pid queue ∧ s'.path msgid = s.path msgid) : Invariant s' := by
  refine ⟨?_, ?_, fun msgid pid queue ho => ?_, fun msgid fd pid queue hc ho => ?_, ?_⟩
  · rw [hcache, hfds]
    exact h.fd
  · rw [hcache]
    exact h.inj
  · obtain ⟨hold, hpath⟩ := hopened msgid pid queue ho
    rw [hpath]
    exact h.path msgid pid queue hold
  · rw [hcache] at hc
    rw [hfds]
    exact h.current msgid fd pid queue hc (hopened msgid pid queue ho).1
  · rw [Delivered, hposts]
    exact h.delivered

/-- A msgid goes on to where no queue is open. -/
theorem opened_setMsg {msgAt : MsgAt} (hno : isOpened msgAt = false) :
    ∀ m pid queue, (s.setMsg msgid msgAt).msgs m = .opened pid queue →
      m ≠ msgid ∧ s.msgs m = .opened pid queue := by
  intro m pid queue ho
  have hne : m ≠ msgid := by
    rintro rfl
    have hself : Function.update s.msgs m msgAt m = .opened pid queue := ho
    rw [Function.update_self] at hself
    rw [hself] at hno
    cases hno
  refine ⟨hne, ?_⟩
  have hother : Function.update s.msgs msgid msgAt m = .opened pid queue := ho
  rwa [Function.update_of_ne hne] at hother

/-- A new queue under a path that no descriptor is kept for. -/
theorem openQueue_invariant (h : Invariant s) (hnone : s.cache msgid = none)
    (hs : s.openQueue msgid = some s') : Invariant s' := by
  rw [openQueue] at hs
  split at hs
  · rename_i pid hat
    obtain rfl := Option.some.inj hs
    have hopened : ∀ m p queue, Function.update s.msgs msgid (.opened pid s.queues) m =
        .opened p queue → m = msgid ∧ queue = s.queues ∨
          m ≠ msgid ∧ s.msgs m = .opened p queue := by
      intro m p queue ho
      by_cases hm : m = msgid
      · subst hm
        rw [Function.update_self] at ho
        exact .inl ⟨rfl, (MsgAt.opened.inj ho).2.symm⟩
      · rw [Function.update_of_ne hm] at ho
        exact .inr ⟨hm, ho⟩
    refine ⟨h.fd, h.inj, fun m p queue ho => ?_, fun m fd p queue hc ho => ?_, h.delivered⟩
    · show Function.update s.path msgid (some s.queues) m = some queue
      rcases hopened m p queue ho with ⟨rfl, rfl⟩ | ⟨hne, hold⟩
      · exact Function.update_self ..
      · rw [Function.update_of_ne hne]
        exact h.path m p queue hold
    · rcases hopened m p queue ho with ⟨rfl, -⟩ | ⟨-, hold⟩
      · have hc' : s.cache m = some fd := hc
        rw [hnone] at hc'
        cases hc'
      · exact h.current m fd p queue hc hold
  · cases hs

theorem closeDest_invariant (h : Invariant s) (hs : s.closeDest i = some s') : Invariant s' := by
  obtain ⟨msgid, -, rfl⟩ := Option.map_eq_some_iff.mp hs
  dsimp only
  split
  · exact h.congr rfl rfl rfl fun m pid queue ho => ⟨ho, rfl⟩
  · rename_i fd hfd
    have hkept : ∀ {m fd' : Nat}, Function.update s.cache msgid none m = some fd' →
        s.cache m = some fd' ∧ fd' ≠ fd := by
      intro m fd' hc
      have hne : m ≠ msgid := by
        rintro rfl
        rw [Function.update_self] at hc
        cases hc
      rw [Function.update_of_ne hne] at hc
      refine ⟨hc, ?_⟩
      rintro rfl
      exact hne (h.inj m msgid fd' hc hfd)
    refine ⟨fun m fd' hc => ?_, fun m m' fd' hc hc' => ?_, h.path, fun m fd' pid queue hc ho => ?_,
      h.delivered⟩
    · obtain ⟨hc, hne⟩ := hkept hc
      show Function.update s.fds fd none fd' ≠ none
      rw [Function.update_of_ne hne]
      exact h.fd m fd' hc
    · exact h.inj m m' fd' (hkept hc).1 (hkept hc').1
    · obtain ⟨hc, hne⟩ := hkept hc
      show Function.update s.fds fd none fd' = some queue
      rw [Function.update_of_ne hne]
      exact h.current m fd' pid queue hc ho

theorem openDest_invariant (h : Invariant s) (hs : s.openDest msgid fd = some s') :
    Invariant s' := by
  rw [openDest] at hs
  split at hs
  · obtain rfl := Option.some.inj hs
    exact h.congr rfl rfl rfl fun m pid queue ho => ⟨ho, rfl⟩
  · split at hs
    · obtain rfl := Option.some.inj hs
      exact h
    · rename_i hnone _ queue hpath
      split at hs
      · cases hs
      · rename_i hfree
        obtain rfl := Option.some.inj hs
        have hfree : s.fds fd = none := Decidable.not_not.mp hfree
        have hkept : ∀ {m fd' : Nat}, Function.update s.cache msgid (some fd) m = some fd' →
            m = msgid ∧ fd' = fd ∨ s.cache m = some fd' ∧ fd' ≠ fd := by
          intro m fd' hc
          by_cases hm : m = msgid
          · subst hm
            rw [Function.update_self] at hc
            exact .inl ⟨rfl, (Option.some.inj hc).symm⟩
          · rw [Function.update_of_ne hm] at hc
            refine .inr ⟨hc, ?_⟩
            rintro rfl
            exact h.fd m fd' hc hfree
        refine ⟨fun m fd' hc => ?_, fun m m' fd' hc hc' => ?_, h.path,
          fun m fd' pid q hc ho => ?_, h.delivered⟩
        · show Function.update s.fds fd (some queue) fd' ≠ none
          rcases hkept hc with ⟨-, rfl⟩ | ⟨hc, hne⟩
          · rw [Function.update_self]
            exact Option.some_ne_none queue
          · rw [Function.update_of_ne hne]
            exact h.fd m fd' hc
        · rcases hkept hc with ⟨rfl, rfl⟩ | ⟨hc, hne⟩
          · rcases hkept hc' with ⟨rfl, -⟩ | ⟨-, hne'⟩
            · rfl
            · exact absurd rfl hne'
          · rcases hkept hc' with ⟨-, rfl⟩ | ⟨hc', -⟩
            · exact absurd rfl hne
            · exact h.inj m m' fd' hc hc'
        · show Function.update s.fds fd (some queue) fd' = some q
          rcases hkept hc with ⟨rfl, rfl⟩ | ⟨hc, hne⟩
          · rw [Function.update_self, ← hpath]
            exact h.path m pid q ho
          · rw [Function.update_of_ne hne]
            exact h.current m fd' pid q hc ho

/-- A message goes to the queue that its msgid's process has open. -/
theorem post_invariant (h : Invariant s) (hok : s.inOrder (.post i) = true)
    (hs : s.post i = some s') : Invariant s' := by
  obtain ⟨send, hsend, rfl⟩ := Option.map_eq_some_iff.mp hs
  rw [inOrder, hsend] at hok
  obtain ⟨hcache, hopen⟩ := Bool.and_eq_true_iff.mp hok
  dsimp only
  split
  · exact h.congr rfl rfl rfl fun m pid queue ho => ⟨ho, rfl⟩
  · rename_i queue hfd
    refine ⟨h.fd, h.inj, h.path, h.current, fun p hp => ?_⟩
    rcases List.mem_cons.mp hp with rfl | hp
    · cases hat : s.msgs send.1 with
      | opened pid q =>
        have hq := h.current send.1 send.2 pid q (of_decide_eq_true hcache) hat
        rw [hfd] at hq
        obtain rfl := Option.some.inj hq
        exact ⟨pid, rfl⟩
      | free | assigned pid | closed pid | unlinked pid | dead pid =>
        rw [hat] at hopen
        cases hopen
    · exact h.delivered p hp

theorem Invariant.setMsg (h : Invariant s) {msgAt : MsgAt} (hno : isOpened msgAt = false) :
    Invariant (s.setMsg msgid msgAt) :=
  h.congr rfl rfl rfl fun m pid queue ho => ⟨(opened_setMsg hno m pid queue ho).2, rfl⟩

theorem step_invariant {e : DestEvent} (h : Invariant s) (hok : s.inOrder e = true)
    (hs : s.step e = some s') : Invariant s' := by
  cases e with
  | assign pid msgid =>
    change s.assign pid msgid = some s' at hs
    rw [assign] at hs
    split at hs
    · obtain rfl := Option.some.inj hs
      exact h.setMsg rfl
    · cases hs
  | openQueue msgid => exact openQueue_invariant h (of_decide_eq_true hok) hs
  | close msgid =>
    change s.close msgid = some s' at hs
    rw [close] at hs
    split at hs
    · obtain rfl := Option.some.inj hs
      exact h.setMsg rfl
    · cases hs
  | unlink msgid =>
    change s.unlink msgid = some s' at hs
    rw [unlink] at hs
    split at hs
    · obtain rfl := Option.some.inj hs
      refine h.congr rfl rfl rfl fun m pid queue ho => ?_
      obtain ⟨hne, hold⟩ := opened_setMsg rfl m pid queue ho
      exact ⟨hold, Function.update_of_ne hne ..⟩
    · cases hs
  | freeMsg msgid =>
    change s.freeMsg msgid = some s' at hs
    rw [freeMsg] at hs
    split at hs
    · obtain rfl := Option.some.inj hs
      exact (h.setMsg rfl).congr rfl rfl rfl fun m pid queue ho => ⟨ho, rfl⟩
    · cases hs
  | notify pid =>
    obtain rfl := Option.some.inj hs
    exact h.congr rfl rfl rfl fun m pid queue ho => ⟨ho, rfl⟩
  | die pid =>
    obtain rfl := Option.some.inj hs
    refine h.congr rfl rfl rfl fun m p queue ho => ⟨?_, rfl⟩
    have ho' : (if (s.msgs m).pid = some pid then .dead pid else s.msgs m) =
        MsgAt.opened p queue := ho
    split at ho'
    · cases ho'
    · exact ho'
  | checkFree pid =>
    obtain rfl := Option.some.inj hs
    refine h.congr rfl rfl rfl fun m p queue ho => ⟨?_, rfl⟩
    have ho' : (if s.msgs m = .dead pid then .free else s.msgs m) = MsgAt.opened p queue := ho
    split at ho'
    · cases ho'
    · exact ho'
  | deliver i =>
    obtain ⟨msgids, -, rfl⟩ := Option.map_eq_some_iff.mp hs
    exact h.congr rfl rfl rfl fun m pid queue ho => ⟨ho, rfl⟩
  | closeDest i => exact closeDest_invariant h hs
  | openDest msgid fd => exact openDest_invariant h hs
  | post i => exact post_invariant h hok hs
  | giveUp i =>
    obtain rfl := Option.some.inj hs
    exact h.congr rfl rfl rfl fun m pid queue ho => ⟨ho, rfl⟩

/-- Every `Send` that returns true reaches the process of its msgid. -/
theorem run_delivered (h : steps.Reachable inOrder s) : Delivered s := by
  have hinv : Invariant s := by
    refine h.invariant ?_ step_invariant
    rintro _ ⟨msgids, rfl⟩
    exact start_invariant msgids
  exact hinv.delivered

/-- A msgid of one client, and then of another one. -/
def reuseEvents : List DestEvent :=
  [.assign 1 4, .openQueue 4, .openDest 4 3, .post 0, .close 4, .unlink 4, .freeMsg 4,
    .assign 2 4]

theorem run_delivered_sample :
    ∃ s, s.posts = [⟨4, 1, .opened 2 1⟩, ⟨4, 0, .opened 1 0⟩] ∧ Delivered s := by
  obtain ⟨s, hs, hposts⟩ := Steps.reached steps inOrder posts ⟨[4], rfl⟩
    (by decide : (steps.run inOrder (start [4]) (reuseEvents ++ [.notify 1, .deliver 0,
      .closeDest 0, .openQueue 4, .openDest 4 3, .post 0])).map posts =
        some [⟨4, 1, .opened 2 1⟩, ⟨4, 0, .opened 1 0⟩])
  exact ⟨s, hposts, run_delivered hs⟩

/-- The second client has made its queue before the CLOSE_NOTIFY of the first one is there: the
message for it goes to the unlinked queue. -/
theorem run_unlinked : ∃ s, steps.Reachable Steps.anyStep s ∧
    s.posts = [⟨4, 0, .opened 2 1⟩, ⟨4, 0, .opened 1 0⟩] ∧ ¬Delivered s := by
  obtain ⟨s, hs, hposts⟩ := Steps.reached steps Steps.anyStep posts ⟨[4], rfl⟩
    (by decide : (steps.run Steps.anyStep (start [4]) (reuseEvents ++ [.openQueue 4, .notify 1,
      .openDest 4 5, .post 0])).map posts =
        some [⟨4, 0, .opened 2 1⟩, ⟨4, 0, .opened 1 0⟩])
  refine ⟨s, hs, hposts, fun hd => ?_⟩
  obtain ⟨pid, hat⟩ := hd ⟨4, 0, .opened 2 1⟩ (hposts ▸ List.mem_cons_self)
  cases hat

end DestNet
end Chm
