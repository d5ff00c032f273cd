/-
Threads that send on the sockets of one node.

Every call of `RawSend` on a socket that other threads know is made between `LockSendSock` and
`UnlockSendSock`, but the lock is a mark in `sendlockmap` that anyone may take away: a callback
that closes a socket unlocks it for safety, and a closed socket's number comes back with the next
connection.  While no thread unlocks or closes a socket that another one has locked, the bytes of a
connection are those of the calls one after the other, in the order in which they got the lock
(`run_framed`).
-/
import Chm.Lib.Frames
import Chm.Lib.Steps
import Chm.RawSock
import Mathlib.Logic.Function.Basic

namespace Chm

open Wire Frames

/-- `CHMSSSTAT`; no thread is `CHM_INVALID_TID`. -/
structure ChmSsStat where
  tid : Option Nat
  lastTime : Int
  deriving DecidableEq, Repr

/-- One turn of the loop of `RawLockSendSock` with the map locked: what it gives and what the map
holds for the socket after it.  A turn that does not get the lock of the map does nothing. -/
def rawLockSendSock (tid : Nat) (now : Int) (isLock : Bool) : Option ChmSsStat → Bool × ChmSsStat
  | none => (true, ⟨if isLock then some tid else none, now⟩)
  | some pssstat =>
    if isLock then
      match pssstat.tid with
      | none => (true, { pssstat with tid := some tid })
      | some owner => (decide (owner = tid), pssstat)
    else
      match pssstat.tid with
      | none => (true, pssstat)
      | some _ => (true, ⟨none, now⟩)

/-- The next thing that a thread does.  `unlock` ends a call that has locked the socket; `release`
is an `UnlockSendSock` that does not look whether the socket is locked by this thread. -/
inductive SockAct
  | lock (sock : Int)
  | pool (sock : Int)
  | rawSend (sock : Int) (isBlocking : Bool) (packet : List Byte)
  | unlock (sock : Int)
  | release (sock : Int)
  | erase (sock : Int)
  | close (sock : Int)
  deriving DecidableEq, Repr

/-- A call that sends on a socket or closes it.  `send` and `joinRing` are `Send` and
`PxComReceiveJoinRing` with a socket that `GetLockedSendSock` has locked by `TryLockSendSock`;
with a socket that it has connected it does what `LockedSend` does.  `sendUnlocked` is `Send`
after a connect that has failed with the socket's number left in `sock`, which
`GetLockedSendSock` takes for a socket that is connected and locked. -/
inductive SockCall
  | lockedSend (sock : Int) (isBlocking : Bool) (packet : List Byte)
  | send (sock : Int) (packet : List Byte)
  | joinRing (sock : Int) (packet : List Byte)
  | sendUnlocked (sock : Int) (packet : List Byte)
  | overPool (sock : Int) (isMapped : Bool)
  | rawNotifyHup (sock : Int)
  | closeSsl (sock : Int)
  deriving DecidableEq, Repr

/-- The callback of a map of sockets. -/
def closeActs (sock : Int) : List SockAct := [.release sock, .close sock]

/-- A socket that is over the pool count, or idle for too long. -/
def poolActs (sock : Int) (isMapped : Bool) : List SockAct :=
  .erase sock :: if isMapped then closeActs sock else []

def SockCall.acts : SockCall → List SockAct
  | .lockedSend sock isBlocking packet =>
    [.lock sock, .rawSend sock isBlocking packet, .unlock sock]
  | .send sock packet => [.pool sock, .rawSend sock false packet, .unlock sock]
  | .joinRing sock packet => [.pool sock, .rawSend sock false packet, .release sock]
  | .sendUnlocked sock packet => [.rawSend sock false packet, .unlock sock]
  | .overPool sock isMapped => poolActs sock isMapped
  | .rawNotifyHup sock => closeActs sock
  | .closeSsl sock => [.close sock]

/-- The socket that a call has got by `TryLockSendSock`. -/
def SockCall.locked : SockCall → Option Int
  | .send sock _ | .joinRing sock _ | .overPool sock _ => some sock
  | _ => none

/-- What is left to do when `RawSend` has returned false: `LockedSend` and `Send` unlock the socket
before they close it, `PxComSendStatusReq` closes it before its caller unlocks it. -/
def failedActs (sock : Int) (isClosed : Bool) : List SockAct → List SockAct
  | .unlock s :: acts => .unlock s :: ((if isClosed then closeActs sock else []) ++ acts)
  | acts => (if isClosed then closeActs sock else []) ++ acts

/-- The loop of `RawSend` with the bytes that are left. -/
structure SendLoop where
  sock : Int
  isBlocking : Bool
  rest : List Byte
  deriving DecidableEq, Repr

/-- A thread: the loop of `RawSend` that it is in, and what it does after it. -/
structure SendThread where
  loop : Option SendLoop
  acts : List SockAct
  deriving DecidableEq, Repr

/-- `opened` are the sockets of open connections, with what has been put into each of them; `log`
keeps the calls of `RawSend` on it. -/
structure SendNet where
  sendlockmap : Int → Option ChmSsStat
  opened : Int → Bool
  stream : Int → List Byte
  thread : Nat → SendThread
  log : Int → Log Nat Byte

/-- `accept` is a socket that `accept` or `connect` has given, `advance` the next thing a thread
does outside of `RawSend`, `turn` a turn of its loop, and `idle` a turn of the loop of
`GetLockedSendSock` over the other sockets. -/
inductive SendEvent
  | accept (sock : Int)
  | call (tid : Nat) (now : Int) (c : SockCall)
  | advance (tid : Nat) (now : Int)
  | idle (tid : Nat) (now : Int) (other : Int) (isMapped : Bool)
  | turn (tid : Nat) (t : Turn)
  deriving DecidableEq, Repr

namespace SendNet

def setThread (tid : Nat) (th : SendThread) (s : SendNet) : SendNet :=
  { s with thread := Function.update s.thread tid th }

def setStat (sock : Int) (stat : Option ChmSsStat) (s : SendNet) : SendNet :=
  { s with sendlockmap := Function.update s.sendlockmap sock stat }

def setLog (sock : Int) (l : Log Nat Byte) (s : SendNet) : SendNet :=
  { s with log := Function.update s.log sock l }

/-- Bytes go into a connection. -/
def put (sock : Int) (sent : List Byte) (s : SendNet) : SendNet :=
  { s with
    stream := Function.update s.stream sock (s.stream sock ++ sent)
    log := Function.update s.log sock ((s.log sock).write sent) }

/-- `TryLockSendSock`, and what the thread does when it has got the lock. -/
def tryLock (tid : Nat) (now : Int) (sock : Int) (acts : List SockAct) (s : SendNet) :
    Option SendNet :=
  let (result, stat) := rawLockSendSock tid now true (s.sendlockmap sock)
  if result then some ((s.setStat sock (some stat)).setThread tid ⟨none, acts⟩) else none

/-- `UnlockSendSock`. -/
def unlockSock (tid : Nat) (now : Int) (sock : Int) (acts : List SockAct) (s : SendNet) : SendNet :=
  (s.setStat sock (some (rawLockSendSock tid now false (s.sendlockmap sock)).2)).setThread tid
    ⟨none, acts⟩

/-- A call of a thread that is in none. -/
def startCall (tid : Nat) (now : Int) (c : SockCall) (s : SendNet) : Option SendNet :=
  if s.thread tid ≠ ⟨none, []⟩ then none
  else
    match c.locked with
    | some sock => s.tryLock tid now sock c.acts
    | none => some (s.setThread tid ⟨none, c.acts⟩)

/-- The next thing that the thread does outside of `RawSend`. -/
def advance (tid : Nat) (now : Int) (s : SendNet) : Option SendNet :=
  match s.thread tid with
  | ⟨none, .lock sock :: acts⟩ => s.tryLock tid now sock acts
  | ⟨none, .pool _ :: acts⟩ => some (s.setThread tid ⟨none, acts⟩)
  | ⟨none, .rawSend sock isBlocking packet :: acts⟩ =>
    if packet = [] then some (s.setThread tid ⟨none, failedActs sock false acts⟩)
    else some ((s.setLog sock ((s.log sock).start tid packet)).setThread tid
      ⟨some ⟨sock, isBlocking, packet⟩, acts⟩)
  | ⟨none, .unlock sock :: acts⟩ | ⟨none, .release sock :: acts⟩ =>
    some (s.unlockSock tid now sock acts)
  | ⟨none, .erase sock :: acts⟩ => some ((s.setStat sock none).setThread tid ⟨none, acts⟩)
  | ⟨none, .close sock :: acts⟩ =>
    some ({ s with
      opened := Function.update s.opened sock false
      stream := Function.update s.stream sock []
      log := Function.update s.log sock .empty }.setThread tid ⟨none, acts⟩)
  | _ => none

/-- One other socket in the search for sockets that are idle for longer than `sock_pool_timeout`. -/
def idle (sockPoolTimeout : Int) (tid : Nat) (now : Int) (other : Int) (isMapped : Bool)
    (s : SendNet) : Option SendNet :=
  match s.thread tid with
  | ⟨none, .pool sock :: acts⟩ =>
    if sock = other then none
    else
      let stat := (rawLockSendSock tid now true (s.sendlockmap other)).2
      s.tryLock tid now other
        ((if stat.lastTime + sockPoolTimeout < now then poolActs other isMapped
          else [.unlock other]) ++ .pool sock :: acts)
  | _ => none

/-- A turn of the loop of `RawSend`; nothing can be put into a socket that is closed. -/
def turn (tid : Nat) (t : Turn) (s : SendNet) : Option SendNet :=
  match s.thread tid with
  | ⟨some l, acts⟩ =>
    match rawSendBytes l.isBlocking false [t] l.rest with
    | (.running, sent) =>
      if !s.opened l.sock && sent ≠ [] then none
      else some ((s.put l.sock sent).setThread tid
        ⟨some { l with rest := l.rest.drop sent.length }, acts⟩)
    | (.done (), sent) =>
      if !s.opened l.sock then none
      else some (((s.put l.sock sent).setLog l.sock
        (((s.log l.sock).write sent).finish true)).setThread tid ⟨none, acts⟩)
    | (.failed isClosed, _) =>
      some ((s.setLog l.sock ((s.log l.sock).finish false)).setThread tid
        ⟨none, failedActs l.sock isClosed acts⟩)
  | _ => none

def step (sockPoolTimeout : Int) (s : SendNet) : SendEvent → Option SendNet
  | .accept sock =>
    if s.opened sock then none else some { s with opened := Function.update s.opened sock true }
  | .call tid now c => s.startCall tid now c
  | .advance tid now => s.advance tid now
  | .idle tid now other isMapped => s.idle sockPoolTimeout tid now other isMapped
  | .turn tid t => s.turn tid t

def start : SendNet where
  sendlockmap _ := none
  opened _ := false
  stream _ := []
  thread _ := ⟨none, []⟩
  log _ := .empty

def steps (sockPoolTimeout : Int) : Steps SendNet SendEvent := ⟨(· = start), step sockPoolTimeout⟩

/-- The socket is locked by another thread. -/
def lockedByOther (tid : Nat) (sock : Int) (s : SendNet) : Bool :=
  ((s.sendlockmap sock).bind (·.tid)).any fun owner => owner ≠ tid

/-- No thread sends on a socket that it has not locked, and what closes a socket finds it unlocked
or locked by its own thread. -/
def inOrder (s : SendNet) : SendEvent → Bool
  | .call _ _ (.sendUnlocked ..) => false
  | .advance tid _ =>
    match (s.thread tid).acts with
    | .release sock :: _ | .erase sock :: _ | .close sock :: _ => !s.lockedByOther tid sock
    | _ => true
  | _ => true

/-! ## What a thread may do with its locks -/

/-- The thread must have locked the socket before it does the rest. -/
def Needs (sock : Int) : List SockAct → Prop
  | [] => False
  | .lock s :: acts => sock ≠ s ∧ Needs sock acts
  | .rawSend s _ _ :: acts | .unlock s :: acts => sock = s ∨ Needs sock acts
  | .pool _ :: acts | .release _ :: acts | .erase _ :: acts | .close _ :: acts => Needs sock acts

/-- What is left behind `RawSend` is at most to unlock the socket. -/
def Ends (sock : Int) : List SockAct → Prop
  | .unlock s :: acts => s = sock ∧ ¬Needs sock acts
  | acts => ¬Needs sock acts

/-- No socket is needed any more when it is unlocked or closed. -/
def Safe : List SockAct → Prop
  | [] => True
  | .lock _ :: acts => Safe acts
  | .pool s :: acts => (∀ k, Needs k acts → k = s) ∧ Safe acts
  | .rawSend s _ _ :: acts => Ends s acts ∧ Safe acts
  | .unlock s :: acts | .release s :: acts | .erase s :: acts | .close s :: acts =>
    ¬Needs s acts ∧ Safe acts

variable {s s' : SendNet} {tid t : Nat} {sock k now other : Int} {acts : List SockAct}
variable {isMapped isClosed : Bool} {c : SockCall} {l : SendLoop} {stat : Option ChmSsStat}

theorem needs_closeActs : Needs k (closeActs sock ++ acts) ↔ Needs k acts := Iff.rfl

theorem needs_poolActs : Needs k (poolActs sock isMapped ++ acts) ↔ Needs k acts := by
  cases isMapped <;> exact Iff.rfl

theorem safe_closeActs (h : ¬Needs sock acts) (hs : Safe acts) : Safe (closeActs sock ++ acts) :=
  ⟨h, h, hs⟩

theorem safe_poolActs (h : ¬Needs sock acts) (hs : Safe acts) :
    Safe (poolActs sock isMapped ++ acts) := by
  cases isMapped
  · exact ⟨h, hs⟩
  · exact ⟨h, safe_closeActs h hs⟩

theorem needs_failedActs (h : Needs k (failedActs sock isClosed acts)) : Needs k acts := by
  have hclose : ∀ acts', Needs k ((if isClosed then closeActs sock else []) ++ acts') →
      Needs k acts' := by
    intro acts' hn
    cases isClosed <;> exact hn
  unfold failedActs at h
  split at h
  · exact h.imp_right (hclose _)
  · exact hclose _ h

theorem safe_failedActs (hends : Ends sock acts) (hs : Safe acts) :
    Safe (failedActs sock isClosed acts) := by
  have hclose : ∀ acts', ¬Needs sock acts' → Safe acts' →
      Safe ((if isClosed then closeActs sock else []) ++ acts') := by
    intro acts' hn hs'
    cases isClosed
    · exact hs'
    · exact safe_closeActs hn hs'
  unfold failedActs
  split
  · rename_i s' acts'
    obtain ⟨rfl, hn⟩ := hends
    refine ⟨fun hneeds => hn ?_, hclose acts' hn hs.2⟩
    cases isClosed <;> exact hneeds
  · rename_i hother
    refine hclose acts ?_ hs
    unfold Ends at hends
    split at hends
    · exact absurd rfl (hother _ _)
    · exact hends

/-- A call needs at most the socket that it has locked already. -/
theorem safe_call (hc : ∀ sock packet, c ≠ .sendUnlocked sock packet) :
    Safe c.acts ∧ ∀ k, Needs k c.acts → c.locked = some k := by
  cases c with
  | lockedSend sock isBlocking packet =>
    exact ⟨⟨⟨rfl, id⟩, id, trivial⟩, fun k hk => absurd (hk.2.resolve_left hk.1)
      fun h => h.elim hk.1 id⟩
  | send sock packet =>
    have hneeds : ∀ k, Needs k [.rawSend sock false packet, .unlock sock] → k = sock :=
      fun k hk => hk.elim id fun h => h.elim id False.elim
    exact ⟨⟨hneeds, ⟨rfl, id⟩, id, trivial⟩, fun k hk => congrArg some (hneeds k hk).symm⟩
  | joinRing sock packet =>
    have hneeds : ∀ k, Needs k [.rawSend sock false packet, .release sock] → k = sock :=
      fun k hk => hk.elim id False.elim
    exact ⟨⟨hneeds, id, id, trivial⟩, fun k hk => congrArg some (hneeds k hk).symm⟩
  | sendUnlocked sock packet => exact absurd rfl (hc sock packet)
  | overPool sock isMapped =>
    have hnone : ∀ k, ¬Needs k (poolActs sock isMapped) := fun k => by
      cases isMapped <;> exact id
    have hsafe : Safe (poolActs sock isMapped) := by
      cases isMapped
      · exact ⟨id, trivial⟩
      · exact ⟨id, id, id, trivial⟩
    exact ⟨hsafe, fun k hk => absurd hk (hnone k)⟩
  | rawNotifyHup sock => exact ⟨⟨id, id, trivial⟩, fun k hk => False.elim hk⟩
  | closeSsl sock => exact ⟨⟨id, trivial⟩, fun k hk => False.elim hk⟩

/-! ## Who holds a lock -/

/-- The thread has locked the socket. -/
def Holds (s : SendNet) (tid : Nat) (sock : Int) : Prop :=
  (s.sendlockmap sock).bind (·.tid) = some tid

theorem Holds.unique (h : s.Holds tid sock) (h' : s.Holds t sock) : t = tid :=
  Option.some.inj (h'.symm.trans h)

theorem lockedByOther_eq_false (h : s.lockedByOther tid sock = false) (ht : t ≠ tid) :
    ¬s.Holds t sock := by
  intro hold
  have hold' : (s.sendlockmap sock).bind (·.tid) = some t := hold
  rw [lockedByOther, hold'] at h
  exact absurd h (by simp [ht])

/-- A lock is got from nobody else, and then it is this thread's. -/
theorem rawLockSendSock_lock (h : (rawLockSendSock tid now true stat).1 = true) :
    (rawLockSendSock tid now true stat).2.tid = some tid ∧
      ∀ t, stat.bind (·.tid) = some t → t = tid := by
  cases stat with
  | none => exact ⟨rfl, fun t ht => by cases ht⟩
  | some st =>
    obtain ⟨owner, lastTime⟩ := st
    cases owner with
    | none => exact ⟨rfl, fun t ht => by cases ht⟩
    | some owner =>
      have heq : owner = tid := of_decide_eq_true h
      refine ⟨congrArg some heq, fun t ht => ?_⟩
      cases ht
      exact heq

/-- The threads' locks are enough for what they do. -/
structure Locked (s : SendNet) : Prop where
  safe : ∀ tid, Safe (s.thread tid).acts
  ends : ∀ tid l, (s.thread tid).loop = some l → Ends l.sock (s.thread tid).acts
  held : ∀ tid sock, Needs sock (s.thread tid).acts → s.Holds tid sock
  sends : ∀ tid l, (s.thread tid).loop = some l → s.Holds tid l.sock

/-- A step of one thread that takes no other thread's lock away. -/
theorem Locked.step (h : s.Locked) (tid : Nat) (hother : ∀ t, t ≠ tid → s'.thread t = s.thread t)
    (hkept : ∀ t k, t ≠ tid → s.Holds t k → s'.Holds t k) (hsafe : Safe (s'.thread tid).acts)
    (hends : ∀ l, (s'.thread tid).loop = some l → Ends l.sock (s'.thread tid).acts)
    (hheld : ∀ k, Needs k (s'.thread tid).acts → s'.Holds tid k)
    (hsends : ∀ l, (s'.thread tid).loop = some l → s'.Holds tid l.sock) : s'.Locked := by
  constructor
  · intro t
    by_cases ht : t = tid
    · exact ht ▸ hsafe
    · exact hother t ht ▸ h.safe t
  · intro t l hl
    by_cases ht : t = tid
    · subst ht
      exact hends l hl
    · rw [hother t ht] at hl ⊢
      exact h.ends t l hl
  · intro t k hk
    by_cases ht : t = tid
    · subst ht
      exact hheld k hk
    · rw [hother t ht] at hk
      exact hkept t k ht (h.held t k hk)
  · intro t l hl
    by_cases ht : t = tid
    · subst ht
      exact hsends l hl
    · rw [hother t ht] at hl
      exact hkept t l.sock ht (h.sends t l hl)

/-- The log of a connection is its stream: the call that is going on is that of the thread in the
loop of `RawSend`, which has what is left. -/
structure Logged (s : SendNet) : Prop where
  going : ∀ tid l, (s.thread tid).loop = some l → ∃ f, (s.log l.sock).current = some f ∧
    f.writer = tid ∧ f.written ++ l.rest = f.whole
  writer : ∀ sock f, (s.log sock).current = some f → ∃ l, (s.thread f.writer).loop = some l ∧
    l.sock = sock
  framed : ∀ sock, s.stream sock = (s.log sock).contents ∧ (s.log sock).Sound

theorem Logged.congr (h : s.Logged) (hloop : ∀ t, (s'.thread t).loop = (s.thread t).loop)
    (hlog : s'.log = s.log) (hstream : s'.stream = s.stream) : s'.Logged := by
  constructor
  · intro t l hl
    rw [hloop] at hl
    rw [hlog]
    exact h.going t l hl
  · intro k f hf
    rw [hlog] at hf
    rw [hloop]
    exact h.writer k f hf
  · intro k
    rw [hlog, hstream]
    exact h.framed k

/-- The locks are in order, and the logs. -/
structure Guarded (s : SendNet) : Prop where
  locked : s.Locked
  logged : s.Logged

theorem thread_setThread_self (tid : Nat) (th : SendThread) (s : SendNet) :
    (s.setThread tid th).thread tid = th := Function.update_self ..

theorem thread_setThread_of_ne (th : SendThread) (s : SendNet) (h : t ≠ tid) :
    (s.setThread tid th).thread t = s.thread t := Function.update_of_ne h ..

/-- A thread that stays outside of `RawSend`. -/
theorem loop_setThread (hloop : (s.thread tid).loop = none) (acts : List SockAct) (t : Nat) :
    ((s.setThread tid ⟨none, acts⟩).thread t).loop = (s.thread t).loop := by
  by_cases ht : t = tid
  · rw [ht, thread_setThread_self, hloop]
  · rw [thread_setThread_of_ne _ s ht]

theorem sendlockmap_setStat (stat : Option ChmSsStat) (s : SendNet) :
    (s.setStat sock stat).sendlockmap = Function.update s.sendlockmap sock stat := rfl

theorem holds_setStat (stat : Option ChmSsStat) (hk : k ≠ sock) :
    (s.setStat sock stat).Holds t k ↔ s.Holds t k := by
  unfold Holds
  rw [sendlockmap_setStat, Function.update_of_ne hk]

/-- The thread goes on to what it has the locks for. -/
theorem Locked.goOn (h : s.Locked) (hsafe : Safe acts) (hheld : ∀ k, Needs k acts → s.Holds tid k) :
    (s.setThread tid ⟨none, acts⟩).Locked := by
  refine h.step tid (fun t ht => thread_setThread_of_ne _ s ht) (fun t k _ hold => hold)
    ?_ ?_ ?_ ?_
  all_goals rw [thread_setThread_self]
  · exact hsafe
  · exact fun l hl => by cases hl
  · exact hheld
  · exact fun l hl => by cases hl

theorem Guarded.goOn (h : s.Guarded) (hloop : (s.thread tid).loop = none) (hsafe : Safe acts)
    (hheld : ∀ k, Needs k acts → s.Holds tid k) : (s.setThread tid ⟨none, acts⟩).Guarded :=
  ⟨h.locked.goOn hsafe hheld, h.logged.congr (loop_setThread hloop acts) rfl rfl⟩

/-- The thread gets a lock. -/
theorem Guarded.tryLock (h : s.Guarded) (hloop : (s.thread tid).loop = none)
    (hs : s.tryLock tid now sock acts = some s') (hsafe : Safe acts)
    (hheld : ∀ k, Needs k acts → k = sock ∨ s.Holds tid k) : s'.Guarded := by
  rw [SendNet.tryLock] at hs
  generalize hturn : rawLockSendSock tid now true (s.sendlockmap sock) = r at hs
  obtain ⟨result, stat⟩ := r
  dsimp only at hs
  split at hs
  · rename_i hres
    have hgiven : (rawLockSendSock tid now true (s.sendlockmap sock)).1 = true := by
      rw [hturn]
      exact hres
    obtain ⟨hown, hnobody⟩ := rawLockSendSock_lock hgiven
    rw [hturn] at hown
    cases hs
    have hgot : (s.setStat sock (some stat)).Holds tid sock := by
      unfold Holds
      rw [sendlockmap_setStat, Function.update_self]
      exact hown
    have hkeep : ∀ t k, t ≠ tid → s.Holds t k → (s.setStat sock (some stat)).Holds t k := by
      intro t k ht hold
      by_cases hk : k = sock
      · subst hk
        exact absurd (hnobody t hold) ht
      · exact (holds_setStat (some stat) hk).mpr hold
    refine ⟨h.locked.step tid (fun t ht => thread_setThread_of_ne _ _ ht) hkeep ?_ ?_ ?_ ?_,
      h.logged.congr (loop_setThread hloop acts) rfl rfl⟩
    all_goals rw [thread_setThread_self]
    · exact hsafe
    · exact fun l hl => by cases hl
    · intro k hk
      by_cases hks : k = sock
      · subst hks
        exact hgot
      · exact (holds_setStat (some stat) hks).mpr ((hheld k hk).resolve_left hks)
    · exact fun l hl => by cases hl
  · cases hs

/-- The thread unlocks a socket that no other thread has locked, or takes it out of the map. -/
theorem Guarded.unlock (h : s.Guarded) (hloop : (s.thread tid).loop = none)
    (hfree : ∀ t, t ≠ tid → ¬s.Holds t sock) (stat : Option ChmSsStat) (hsafe : Safe acts)
    (hheld : ∀ k, Needs k acts → k ≠ sock ∧ s.Holds tid k) :
    ((s.setStat sock stat).setThread tid ⟨none, acts⟩).Guarded := by
  have hkeep : ∀ t k, t ≠ tid → s.Holds t k → (s.setStat sock stat).Holds t k := by
    intro t k ht hold
    by_cases hk : k = sock
    · subst hk
      exact absurd hold (hfree t ht)
    · exact (holds_setStat stat hk).mpr hold
  refine ⟨h.locked.step tid (fun t ht => thread_setThread_of_ne _ _ ht) hkeep ?_ ?_ ?_ ?_,
    h.logged.congr (loop_setThread hloop acts) rfl rfl⟩
  all_goals rw [thread_setThread_self]
  · exact hsafe
  · exact fun l hl => by cases hl
  · exact fun k hk => (holds_setStat stat (hheld k hk).1).mpr (hheld k hk).2
  · exact fun l hl => by cases hl

/-- A thread that is in the loop of `RawSend` on a socket has locked it. -/
theorem Guarded.nobody (h : s.Guarded) (hloop : (s.thread tid).loop = none)
    (hfree : ∀ t, t ≠ tid → ¬s.Holds t sock) :
    ∀ t l, (s.thread t).loop = some l → l.sock ≠ sock := by
  intro t l hl hsock
  by_cases ht : t = tid
  · rw [ht, hloop] at hl
    cases hl
  · exact hfree t ht (hsock ▸ h.locked.sends t l hl)

/-- The thread closes a socket that no other thread has locked. -/
theorem Guarded.close (h : s.Guarded) (hloop : (s.thread tid).loop = none)
    (hfree : ∀ t, t ≠ tid → ¬s.Holds t sock) (hsafe : Safe acts)
    (hheld : ∀ k, Needs k acts → s.Holds tid k) :
    ({ s with
      opened := Function.update s.opened sock false
      stream := Function.update s.stream sock []
      log := Function.update s.log sock .empty }.setThread tid ⟨none, acts⟩).Guarded := by
  have hnobody := h.nobody hloop hfree
  have hlocked := h.locked.goOn hsafe hheld
  refine ⟨⟨hlocked.safe, hlocked.ends, hlocked.held, hlocked.sends⟩, fun t l hl => ?_,
    fun k f hf => ?_, fun k => ?_⟩
  · rw [loop_setThread (s := { s with
      opened := Function.update s.opened sock false
      stream := Function.update s.stream sock []
      log := Function.update s.log sock .empty }) hloop] at hl
    obtain ⟨f, hf, hrest⟩ := h.logged.going t l hl
    refine ⟨f, ?_, hrest⟩
    show (Function.update s.log sock .empty l.sock).current = some f
    rw [Function.update_of_ne (hnobody t l hl)]
    exact hf
  · by_cases hk : k = sock
    · subst hk
      have hcur : (Function.update s.log k .empty k).current = some f := hf
      rw [Function.update_self] at hcur
      cases hcur
    · have hcur : (Function.update s.log sock .empty k).current = some f := hf
      rw [Function.update_of_ne hk] at hcur
      rw [loop_setThread (s := { s with
        opened := Function.update s.opened sock false
        stream := Function.update s.stream sock []
        log := Function.update s.log sock .empty }) hloop]
      exact h.logged.writer k f hcur
  · show Function.update s.stream sock [] k = (Function.update s.log sock .empty k).contents ∧
      (Function.update s.log sock .empty k).Sound
    by_cases hk : k = sock
    · subst hk
      rw [Function.update_self, Function.update_self]
      exact ⟨rfl, Log.sound_empty⟩
    · rw [Function.update_of_ne hk, Function.update_of_ne hk]
      exact h.logged.framed k

/-! ## The loop of `RawSend` -/

/-- A turn sends a prefix of what is left, all of it when the loop ends well, and nothing when it
ends badly. -/
theorem rawSendBytes_turn {isBlocking : Bool} {tn : Turn} {rest sent : List Byte}
    {result : Outcome Unit} (h : rawSendBytes isBlocking false [tn] rest = (result, sent)) :
    sent ++ rest.drop sent.length = rest ∧ ∀ isClosed, result = .failed isClosed → sent = [] := by
  cases rest with
  | nil =>
    cases h
    exact ⟨rfl, fun _ hr => by cases hr⟩
  | cons b rest =>
    rw [rawSendBytes] at h
    split at h
    · cases h
      exact ⟨rfl, fun _ _ => rfl⟩
    · cases hio : tn.io with
      | moved n =>
        rw [hio] at h
        have hlast : ∃ r, rawSendBytes isBlocking false [] ((b :: rest).drop n) = (r, []) ∧
            ∀ isClosed, r ≠ .failed isClosed := by
          cases (b :: rest).drop n with
          | nil => exact ⟨_, rfl, fun _ hr => by cases hr⟩
          | cons b' rest' => exact ⟨_, rfl, fun _ hr => by cases hr⟩
        obtain ⟨r, hr, hne⟩ := hlast
        dsimp only at h
        rw [hr] at h
        cases h
        refine ⟨?_, fun isClosed he => absurd he (hne isClosed)⟩
        rw [List.append_nil, List.length_take]
        rcases Nat.le_total n (b :: rest).length with hle | hle
        · rw [Nat.min_eq_left hle]
          exact List.take_append_drop n (b :: rest)
        · rw [Nat.min_eq_right hle, List.take_of_length_le hle, List.drop_length, List.append_nil]
      | again =>
        rw [hio] at h
        cases h
        exact ⟨rfl, fun _ hr => by cases hr⟩
      | closing =>
        rw [hio] at h
        cases h
        exact ⟨rfl, fun _ _ => rfl⟩
      | failed =>
        rw [hio] at h
        cases h
        exact ⟨rfl, fun _ _ => rfl⟩

/-- The thread begins to send on a socket that it has locked. -/
theorem Guarded.rawSend (h : s.Guarded) {isBlocking : Bool} {packet : List Byte}
    (hth : s.thread tid = ⟨none, .rawSend sock isBlocking packet :: acts⟩) :
    ((s.setLog sock ((s.log sock).start tid packet)).setThread tid
      ⟨some ⟨sock, isBlocking, packet⟩, acts⟩).Guarded := by
  have hloop : (s.thread tid).loop = none := congrArg SendThread.loop hth
  have hacts : (s.thread tid).acts = .rawSend sock isBlocking packet :: acts :=
    congrArg SendThread.acts hth
  have hsafe := h.locked.safe tid
  rw [hacts] at hsafe
  have hheld : ∀ k, k = sock ∨ Needs k acts → s.Holds tid k := fun k hk =>
    h.locked.held tid k (by rw [hacts]; exact hk)
  have hown : s.Holds tid sock := hheld sock (Or.inl rfl)
  have hnobody := h.nobody hloop fun t ht hold => ht (hown.unique hold)
  -- No other call is going on there: its thread would have locked the socket.
  have hcurrent : (s.log sock).current = none := by
    cases hcur : (s.log sock).current with
    | none => rfl
    | some f =>
      obtain ⟨l, hl, hsock⟩ := h.logged.writer sock f hcur
      exact absurd hsock (hnobody f.writer l hl)
  constructor
  · refine h.locked.step tid (fun t ht => thread_setThread_of_ne _ _ ht)
      (fun t k _ hold => hold) ?_ ?_ ?_ ?_
    all_goals rw [thread_setThread_self]
    · exact hsafe.2
    · intro l hl
      cases hl
      exact hsafe.1
    · exact fun k hk => hheld k (Or.inr hk)
    · intro l hl
      cases hl
      exact hown
  · constructor
    · intro t l hl
      show ∃ f, (Function.update s.log sock ((s.log sock).start tid packet) l.sock).current =
        some f ∧ f.writer = t ∧ f.written ++ l.rest = f.whole
      by_cases ht : t = tid
      · rw [ht, thread_setThread_self] at hl
        cases hl
        rw [Function.update_self]
        exact ⟨_, rfl, ht.symm, rfl⟩
      · rw [thread_setThread_of_ne _ _ ht] at hl
        rw [Function.update_of_ne (hnobody t l hl)]
        exact h.logged.going t l hl
    · intro k f hf
      have hcur : (Function.update s.log sock ((s.log sock).start tid packet) k).current =
        some f := hf
      by_cases hk : k = sock
      · subst hk
        rw [Function.update_self] at hcur
        cases hcur
        exact ⟨_, congrArg SendThread.loop (thread_setThread_self ..), rfl⟩
      · rw [Function.update_of_ne hk] at hcur
        obtain ⟨l, hl, hsock⟩ := h.logged.writer k f hcur
        have hne : f.writer ≠ tid := by
          intro he
          rw [he, hloop] at hl
          cases hl
        rw [thread_setThread_of_ne _ _ hne]
        exact ⟨l, hl, hsock⟩
    · intro k
      show s.stream k =
          (Function.update s.log sock ((s.log sock).start tid packet) k).contents ∧
        (Function.update s.log sock ((s.log sock).start tid packet) k).Sound
      obtain ⟨hstream, hsound⟩ := h.logged.framed k
      by_cases hk : k = sock
      · subst hk
        rw [Function.update_self, Log.contents_start tid packet hcurrent]
        exact ⟨hstream, hsound.start tid packet⟩
      · rw [Function.update_of_ne hk]
        exact ⟨hstream, hsound⟩

/-- A turn of one thread's loop changes the log of its socket and what is in the stream. -/
theorem Logged.turn (h : s.Logged) (hsends : ∀ t l', (s.thread t).loop = some l' → t ≠ tid →
      l'.sock ≠ l.sock) (hl : (s.thread tid).loop = some l) {log : Log Nat Byte}
    {sent : List Byte} (hother : ∀ t, t ≠ tid → s'.thread t = s.thread t)
    (hlog : s'.log = Function.update s.log l.sock log)
    (hstream : s'.stream = Function.update s.stream l.sock (s.stream l.sock ++ sent))
    (hgoing : ∀ l', (s'.thread tid).loop = some l' → l'.sock = l.sock ∧
      ∃ f, log.current = some f ∧ f.writer = tid ∧ f.written ++ l'.rest = f.whole)
    (hwriter : ∀ f, log.current = some f → f.writer = tid ∧ (s'.thread tid).loop.isSome = true)
    (hcontents : log.contents = (s.log l.sock).contents ++ sent) (hsound : log.Sound) :
    s'.Logged := by
  constructor
  · intro t l' hl'
    rw [hlog]
    by_cases ht : t = tid
    · rw [ht] at hl'
      obtain ⟨hsock, f, hf, hw, hrest⟩ := hgoing l' hl'
      rw [hsock, Function.update_self, ht]
      exact ⟨f, hf, hw, hrest⟩
    · rw [hother t ht] at hl'
      rw [Function.update_of_ne (hsends t l' hl' ht)]
      exact h.going t l' hl'
  · intro k f hf
    rw [hlog] at hf
    by_cases hk : k = l.sock
    · subst hk
      rw [Function.update_self] at hf
      obtain ⟨hw, hsome⟩ := hwriter f hf
      obtain ⟨l', hl'⟩ := Option.isSome_iff_exists.mp hsome
      rw [hw]
      exact ⟨l', hl', (hgoing l' hl').1⟩
    · rw [Function.update_of_ne hk] at hf
      obtain ⟨l', hl', hsock⟩ := h.writer k f hf
      have hne : f.writer ≠ tid := by
        intro he
        rw [he, hl] at hl'
        cases hl'
        exact hk hsock.symm
      rw [hother f.writer hne]
      exact ⟨l', hl', hsock⟩
  · intro k
    obtain ⟨hold, hsound'⟩ := h.framed k
    rw [hlog, hstream]
    by_cases hk : k = l.sock
    · subst hk
      rw [Function.update_self, Function.update_self, hcontents, hold]
      exact ⟨rfl, hsound⟩
    · rw [Function.update_of_ne hk, Function.update_of_ne hk]
      exact ⟨hold, hsound'⟩

theorem current_finish (ok : Bool) (lg : Log Nat Byte) : (lg.finish ok).current = none := by
  rw [Log.finish]
  cases hc : lg.current with
  | some f => rfl
  | none => exact hc

/-- The call of `RawSend` ends, and the thread does what is left to do. -/
theorem Guarded.ended (h : s.Guarded) (hl : (s.thread tid).loop = some l) {lg : Log Nat Byte}
    {sent : List Byte} {ok : Bool} (hlog : s'.log = Function.update s.log l.sock (lg.finish ok))
    (hmap : s'.sendlockmap = s.sendlockmap)
    (hother : ∀ t, t ≠ tid → s'.thread t = s.thread t) (hself : s'.thread tid = ⟨none, acts⟩)
    (hstream : s'.stream = Function.update s.stream l.sock (s.stream l.sock ++ sent))
    (hsafe : Safe acts) (hheld : ∀ k, Needs k acts → s.Holds tid k)
    (hcontents : lg.contents = (s.log l.sock).contents ++ sent) (hsound : (lg.finish ok).Sound) :
    s'.Guarded := by
  have hholds : ∀ t k, s.Holds t k → s'.Holds t k := by
    intro t k hold
    unfold Holds
    rw [hmap]
    exact hold
  have hown := h.locked.sends tid l hl
  constructor
  · refine h.locked.step tid hother (fun t k _ hold => hholds t k hold) ?_ ?_ ?_ ?_
    all_goals rw [hself]
    · exact hsafe
    · exact fun l' hl' => by cases hl'
    · exact fun k hk => hholds tid k (hheld k hk)
    · exact fun l' hl' => by cases hl'
  · have hsends : ∀ t l', (s.thread t).loop = some l' → t ≠ tid → l'.sock ≠ l.sock :=
      fun t l' hl' ht hsock => ht (hown.unique (hsock ▸ h.locked.sends t l' hl'))
    refine h.logged.turn hsends hl hother hlog hstream (fun l' hl' => ?_) (fun f hf => ?_)
      ((Log.contents_finish ok lg).trans hcontents) hsound
    · rw [hself] at hl'
      cases hl'
    · rw [current_finish] at hf
      cases hf

/-- A turn of the loop. -/
theorem Guarded.turn (h : s.Guarded) {tn : Turn} (hs : s.turn tid tn = some s') : s'.Guarded := by
  rw [SendNet.turn] at hs
  cases hth : s.thread tid with
  | mk loop acts =>
    rw [hth] at hs
    cases loop with
    | none => cases hs
    | some l =>
      have hl : (s.thread tid).loop = some l := congrArg SendThread.loop hth
      have hacts : (s.thread tid).acts = acts := congrArg SendThread.acts hth
      have hends := h.locked.ends tid l hl
      have hsafe := h.locked.safe tid
      have hheld := h.locked.held tid
      have hown := h.locked.sends tid l hl
      rw [hacts] at hends hsafe hheld
      obtain ⟨f, hf, hw, hrest⟩ := h.logged.going tid l hl
      have hsound := (h.logged.framed l.sock).2
      dsimp only at hs
      cases hturn : rawSendBytes l.isBlocking false [tn] l.rest with
      | mk result sent =>
        rw [hturn] at hs
        obtain ⟨hsent, hfailed⟩ := rawSendBytes_turn hturn
        have hwritten : f.written ++ sent <+: f.whole := by
          refine ⟨l.rest.drop sent.length, ?_⟩
          rw [List.append_assoc, hsent, hrest]
        cases result with
        | running =>
          dsimp only at hs
          split at hs
          · cases hs
          · cases hs
            constructor
            · refine h.locked.step tid (fun t ht => thread_setThread_of_ne _ _ ht)
                (fun t k _ hold => hold) ?_ ?_ ?_ ?_
              all_goals rw [thread_setThread_self]
              · exact hsafe
              · intro l' hl'
                cases hl'
                exact hends
              · exact hheld
              · intro l' hl'
                cases hl'
                exact hown
            · have hsends : ∀ t l', (s.thread t).loop = some l' → t ≠ tid → l'.sock ≠ l.sock :=
                fun t l' hl' ht hsock => ht (hown.unique (hsock ▸ h.locked.sends t l' hl'))
              refine h.logged.turn hsends hl
                (fun t ht => thread_setThread_of_ne _ _ ht) rfl rfl (fun l' hl' => ?_)
                (fun g hg => ?_) (Log.contents_write sent hf) (hsound.write hf hwritten)
              · rw [thread_setThread_self] at hl'
                cases hl'
                refine ⟨rfl, { f with written := f.written ++ sent }, ?_, hw, ?_⟩
                · rw [Log.write, hf]
                  rfl
                · rw [List.append_assoc, hsent, hrest]
              · rw [Log.write, hf] at hg
                cases hg
                rw [thread_setThread_self]
                exact ⟨hw, rfl⟩
        | failed isClosed =>
          cases hs
          refine h.ended hl rfl rfl (fun t ht => thread_setThread_of_ne _ _ ht)
            (thread_setThread_self ..) ?_ (safe_failedActs hends hsafe)
            (fun k hk => hheld k (needs_failedActs hk)) (List.append_nil _).symm
            (hsound.finish fun hno => absurd hno Bool.false_ne_true)
          rw [List.append_nil, Function.update_eq_self]
          rfl
        | done a =>
          dsimp only at hs
          split at hs
          · cases hs
          · cases hs
            have hall : sent = l.rest := rawSendBytes_done hturn
            have hend : (((s.log l.sock).write sent).finish true).Sound := by
              refine (hsound.write hf hwritten).finish fun _ g hg => ?_
              rw [Log.write, hf] at hg
              cases hg
              show f.written ++ sent = f.whole
              rw [hall, hrest]
            exact h.ended hl (Function.update_idem ..) rfl
              (fun t ht => thread_setThread_of_ne _ _ ht) (thread_setThread_self ..) rfl hsafe hheld
              (Log.contents_write sent hf) hend

/-! ## Every step -/

/-- The next thing that a thread does outside of `RawSend`. -/
theorem Guarded.advance (h : s.Guarded) (hs : s.advance tid now = some s')
    (hok : s.inOrder (.advance tid now) = true) : s'.Guarded := by
  have hsafe := h.locked.safe tid
  have hheld := h.locked.held tid
  rw [inOrder] at hok
  rw [SendNet.advance] at hs
  cases hth : s.thread tid with
  | mk loop acts =>
    have hloop : (s.thread tid).loop = loop := congrArg SendThread.loop hth
    rw [hth] at hs hok hsafe hheld
    cases loop with
    | some l => cases hs
    | none =>
      cases acts with
      | nil => cases hs
      | cons act acts =>
        have hfree : ∀ sock, (!s.lockedByOther tid sock) = true → ∀ t, t ≠ tid → ¬s.Holds t sock :=
          fun sock hno t ht => lockedByOther_eq_false ((Bool.not_eq_true' _).mp hno) ht
        cases act with
        | lock sock =>
          refine h.tryLock hloop hs hsafe fun k hk => ?_
          by_cases hks : k = sock
          · exact Or.inl hks
          · exact Or.inr (hheld k ⟨hks, hk⟩)
        | pool sock =>
          cases hs
          exact h.goOn hloop hsafe.2 hheld
        | rawSend sock isBlocking packet =>
          dsimp only at hs
          split at hs
          · cases hs
            exact h.goOn hloop (safe_failedActs hsafe.1 hsafe.2) fun k hk =>
              hheld k (Or.inr (needs_failedActs hk))
          · cases hs
            exact h.rawSend hth
        | unlock sock =>
          cases hs
          have hown : s.Holds tid sock := hheld sock (Or.inl rfl)
          exact h.unlock hloop (fun t ht hold => ht (hown.unique hold)) _ hsafe.2 fun k hk =>
            ⟨fun hks => hsafe.1 (hks ▸ hk), hheld k (Or.inr hk)⟩
        | release sock =>
          cases hs
          exact h.unlock hloop (hfree sock hok) _ hsafe.2 fun k hk =>
            ⟨fun hks => hsafe.1 (hks ▸ hk), hheld k hk⟩
        | erase sock =>
          cases hs
          exact h.unlock hloop (hfree sock hok) _ hsafe.2 fun k hk =>
            ⟨fun hks => hsafe.1 (hks ▸ hk), hheld k hk⟩
        | close sock =>
          cases hs
          exact h.close hloop (hfree sock hok) hsafe.2 hheld

/-- A turn of the search for sockets that are idle. -/
theorem Guarded.idle (h : s.Guarded) {sockPoolTimeout : Int}
    (hs : s.idle sockPoolTimeout tid now other isMapped = some s') : s'.Guarded := by
  have hsafe := h.locked.safe tid
  have hheld := h.locked.held tid
  rw [SendNet.idle] at hs
  cases hth : s.thread tid with
  | mk loop acts =>
    have hloop : (s.thread tid).loop = loop := congrArg SendThread.loop hth
    rw [hth] at hs hsafe hheld
    cases loop with
    | some l => cases hs
    | none =>
      cases acts with
      | nil => cases hs
      | cons act acts =>
        cases act with
        | pool sock =>
          dsimp only at hs
          split at hs
          · cases hs
          · rename_i hne
            have hno : ¬Needs other (.pool sock :: acts) := fun hk => hne (hsafe.1 other hk).symm
            split at hs
            · exact h.tryLock hloop hs (safe_poolActs hno hsafe) fun k hk =>
                Or.inr (hheld k (needs_poolActs.mp hk))
            · exact h.tryLock hloop hs ⟨hno, hsafe⟩ fun k hk => hk.imp_right (hheld k)
        | lock _ | rawSend _ _ _ | unlock _ | release _ | erase _ | close _ => cases hs

theorem Guarded.step (h : s.Guarded) {sockPoolTimeout : Int} {e : SendEvent}
    (hok : s.inOrder e = true) (hs : SendNet.step sockPoolTimeout s e = some s') : s'.Guarded := by
  cases e with
  | accept sock =>
    rw [SendNet.step] at hs
    split at hs
    · cases hs
    · cases hs
      exact ⟨⟨h.locked.safe, h.locked.ends, h.locked.held, h.locked.sends⟩,
        ⟨h.logged.going, h.logged.writer, h.logged.framed⟩⟩
  | call tid now c =>
    rw [SendNet.step, startCall] at hs
    split at hs
    · cases hs
    · rename_i hidle
      have hloop : (s.thread tid).loop = none := by rw [not_not.mp hidle]
      have hc : ∀ sock packet, c ≠ .sendUnlocked sock packet := fun sock packet hc => by
        rw [hc] at hok
        cases hok
      obtain ⟨hsafe, hlocked⟩ := safe_call hc
      cases hlock : c.locked with
      | some sock =>
        rw [hlock] at hs hlocked
        exact h.tryLock hloop hs hsafe fun k hk => Or.inl (Option.some.inj (hlocked k hk)).symm
      | none =>
        rw [hlock] at hs hlocked
        cases hs
        exact h.goOn hloop hsafe fun k hk => by cases hlocked k hk
  | advance tid now => exact h.advance hs hok
  | idle tid now other isMapped => exact h.idle hs
  | turn tid tn => exact h.turn hs

theorem guarded_start : start.Guarded := by
  refine ⟨⟨fun _ => trivial, fun _ _ hl => ?_, fun _ _ hk => False.elim hk, fun _ _ hl => ?_⟩,
    fun _ _ hl => ?_, fun _ _ hf => ?_, fun _ => ⟨rfl, Log.sound_empty⟩⟩
  · cases hl
  · cases hl
  · cases hl
  · cases hf

theorem run_guarded {sockPoolTimeout : Int} (h : (steps sockPoolTimeout).Reachable inOrder s) :
    s.Guarded :=
  h.invariant (fun _ hs => hs ▸ guarded_start) fun hg hok hs => hg.step hok hs

/-- In every run in order the bytes that have been put into a connection are those of the calls of
`RawSend` on it, one after the other: all of the packet when the call has succeeded, a prefix of it
when it has failed, and at the end what the thread in the loop has sent so far. -/
theorem run_framed {sockPoolTimeout : Int} (h : (steps sockPoolTimeout).Reachable inOrder s)
    (sock : Int) :
    s.stream sock = (s.log sock).contents ∧ (s.log sock).Sound ∧
      ∀ f, (s.log sock).current = some f → ∃ l, (s.thread f.writer).loop = some l ∧
        l.sock = sock ∧ f.written ++ l.rest = f.whole := by
  have hg := run_guarded h
  obtain ⟨hstream, hsound⟩ := hg.logged.framed sock
  refine ⟨hstream, hsound, fun f hf => ?_⟩
  obtain ⟨l, hl, hsock⟩ := hg.logged.writer sock f hf
  obtain ⟨f', hf', -, hrest⟩ := hg.logged.going f.writer l hl
  rw [hsock, hf] at hf'
  cases hf'
  exact ⟨l, hl, hsock, hrest⟩

/-- Two threads send on one socket, the second one while the first has sent half of its bytes. -/
def sampleEvents : List SendEvent :=
  [.accept 5, .call 1 0 (.lockedSend 5 false [1, 2]), .advance 1 0,
    .call 2 0 (.lockedSend 5 false [3]), .advance 1 0, .turn 1 ⟨.ready, .moved 1⟩,
    .turn 1 ⟨.ready, .moved 1⟩, .advance 1 0, .advance 2 0, .advance 2 0,
    .turn 2 ⟨.ready, .moved 1⟩]

theorem run_framed_sample : ∃ s, (steps 60).Reachable inOrder s ∧ s.stream 5 = [1, 2, 3] ∧
    (s.log 5).contents = [1, 2, 3] := by
  obtain ⟨s, hs, hstream⟩ := Steps.reached (steps 60) inOrder (fun s => s.stream 5) rfl
    (by decide : ((steps 60).run inOrder start sampleEvents).map (fun s => s.stream 5) =
      some [1, 2, 3])
  exact ⟨s, hs, hstream, (run_framed hs 5).1 ▸ hstream⟩

/-- The socket is closed while a thread sends on it.  Its lock is gone first, and the bytes of
another thread come between. -/
theorem run_mixed : ∃ s, (steps 60).Reachable Steps.anyStep s ∧ s.stream 5 = [1, 3, 2] := by
  obtain ⟨s, hs, hstream⟩ := Steps.reached (steps 60) Steps.anyStep (fun s => s.stream 5) rfl
    (by decide : ((steps 60).run Steps.anyStep start
      [.accept 5, .call 1 0 (.lockedSend 5 false [1, 2]), .advance 1 0, .advance 1 0,
        .turn 1 ⟨.ready, .moved 1⟩, .call 3 0 (.rawNotifyHup 5), .advance 3 0,
        .call 2 0 (.lockedSend 5 false [3]), .advance 2 0, .advance 2 0,
        .turn 2 ⟨.ready, .moved 1⟩, .turn 1 ⟨.ready, .moved 1⟩]).map (fun s => s.stream 5) =
      some [1, 3, 2])
  exact ⟨s, hs, hstream⟩

/-! ## The receiver -/

/-- The bytes that `RawSend` of a packet sends. -/
def packetBytes (pkt : Packet) (heap : Memory) : List Byte :=
  bytesAt (hton ⟨pkt.mem heap, []⟩).2.mem 0 (hton ⟨pkt.mem heap, []⟩).1

theorem packetBytes_eq {pkt : Packet} {out back : Memory → Memory} (hc : Converts pkt out back)
    (heap : Memory) : packetBytes pkt heap = wireBytes pkt out heap := by
  obtain ⟨hlength, hmem⟩ := hc.hton heap []
  rw [packetBytes, hlength, hmem, wireBytes]

/-- A receiver that reads at the front of packets gets them. -/
theorem receiveAll_packets {pkts : List (Packet × Memory)} {receives : List ReceiveCall}
    {received : List (List Byte)} {later : List Byte}
    (hr : receiveAll receives ((pkts.map fun p => packetBytes p.1 p.2).flatten ++ later) =
      some received) (hlen : receives.length = pkts.length) :
    received = pkts.map (·.1.bytes) ↔ ∀ p ∈ pkts, p.1.Plain := by
  induction pkts generalizing receives received with
  | nil =>
    rw [List.length_eq_zero_iff.mp hlen] at hr
    cases hr
    exact iff_of_true rfl fun p hp => absurd hp List.not_mem_nil
  | cons p pkts ih =>
    cases receives with
    | nil => cases hlen
    | cons r receives =>
      obtain ⟨out, back, hc⟩ := p.1.converts
      rw [List.map_cons, List.flatten_cons, packetBytes_eq hc, List.append_assoc] at hr
      obtain ⟨others, hothers, rfl⟩ := receiveAll_cons hc hr
      rw [List.map_cons, List.cons.injEq, hc.bytes_iff, ih hothers (Nat.succ.inj hlen),
        List.forall_mem_cons]

/-- In every run in order, when the first calls on a connection have succeeded, what the other side
receives first are their packets, in the order in which the calls have got the lock, whatever other
threads have sent meanwhile and whatever comes behind; each packet comes as it was exactly when
its ports are 0 or -1. -/
theorem run_received {sockPoolTimeout : Int} {first more : List (Frame Nat Byte × Bool)}
    {pkts : List (Packet × Memory)} {receives : List ReceiveCall} {received : List (List Byte)}
    (h : (steps sockPoolTimeout).Reachable inOrder s) (hcalls : (s.log sock).ended = first ++ more)
    (hok : ∀ e ∈ first, e.2 = true)
    (hpkts : first.map (·.1.whole) = pkts.map fun p => packetBytes p.1 p.2)
    (hr : receiveAll receives (s.stream sock) = some received)
    (hlen : receives.length = pkts.length) :
    received = pkts.map (·.1.bytes) ↔ ∀ p ∈ pkts, p.1.Plain := by
  obtain ⟨hstream, hsound, -⟩ := run_framed h sock
  have hwritten : first.map (·.1.written) = pkts.map fun p => packetBytes p.1 p.2 := by
    rw [← hpkts]
    refine List.map_congr_left fun e he => ?_
    exact (hsound.ended e (by rw [hcalls]; exact List.mem_append_left more he)).2 (hok e he)
  rw [hstream, Log.contents, hcalls, List.map_append, List.flatten_append, hwritten,
    List.append_assoc] at hr
  exact receiveAll_packets hr hlen

def sampleBytes : List Byte := packetBytes samplePkt fun _ => 0

/-- The second thread sends the packet, too; the socket becomes full in between. -/
def packetEvents : List SendEvent :=
  [.accept 5, .call 1 0 (.lockedSend 5 false sampleBytes), .advance 1 0,
    .call 2 0 (.lockedSend 5 false sampleBytes), .advance 1 0, .turn 1 ⟨.ready, .moved 100⟩,
    .turn 1 ⟨.ready, .again⟩, .turn 1 ⟨.ready, .moved 100⟩, .advance 1 0, .advance 2 0,
    .advance 2 0, .turn 2 ⟨.ready, .moved 300⟩, .advance 2 0]

def packetReceives : List ReceiveCall :=
  [⟨false, [⟨.ready, .moved 300⟩, ⟨.ready, .moved 90⟩, ⟨.ready, .moved 300⟩], fun _ => 1, none⟩,
    ⟨false, [⟨.ready, .moved 300⟩, ⟨.ready, .moved 300⟩], fun _ => 1, none⟩]

theorem samplePkt_plain : samplePkt.Plain := by
  intro type h hne
  have htype : PxcomType.ofCode (readU64 (memOf samplePkt.bytes fun _ => 0)
      (contentsAt (memOf samplePkt.bytes fun _ => 0))) = some .serverDown := by decide +kernel
  have hsame : type = .serverDown := Option.some.inj (h.isType.symm.trans htype)
  rw [hsame] at hne
  cases hne

theorem run_received_sample : ∃ s received, (steps 60).Reachable inOrder s ∧
    receiveAll packetReceives (s.stream 5) = some received ∧
      received = [samplePkt.bytes, samplePkt.bytes] := by
  obtain ⟨s, hs, hend⟩ := Steps.reached (steps 60) inOrder
    (fun s => (s.stream 5, (s.log 5).ended)) rfl
    (by decide +kernel : ((steps 60).run inOrder start packetEvents).map
      (fun s => (s.stream 5, (s.log 5).ended)) = some (sampleBytes ++ sampleBytes,
        [(⟨1, sampleBytes, sampleBytes⟩, true), (⟨2, sampleBytes, sampleBytes⟩, true)]))
  obtain ⟨hstream, hended⟩ := Prod.mk.inj hend
  have hr : receiveAll packetReceives (sampleBytes ++ sampleBytes) =
      some ((receiveAll packetReceives (sampleBytes ++ sampleBytes)).getD []) := by decide +kernel
  rw [← hstream] at hr
  let pkts : List (Packet × Memory) := [(samplePkt, fun _ => 0), (samplePkt, fun _ => 0)]
  have hplain : ∀ p ∈ pkts, p.1.Plain := by
    intro p hp
    cases List.mem_cons.mp hp with
    | inl hp =>
      rw [hp]
      exact samplePkt_plain
    | inr hp =>
      rw [List.mem_singleton.mp hp]
      exact samplePkt_plain
  have hcalls : (s.log 5).ended = (s.log 5).ended ++ [] := (List.append_nil _).symm
  have hok : ∀ e ∈ (s.log 5).ended, e.2 = true := by
    rw [hended]
    decide
  have hpkts : (s.log 5).ended.map (·.1.whole) = pkts.map fun p => packetBytes p.1 p.2 := by
    rw [hended]
    rfl
  exact ⟨s, _, hs, hr, (run_received hs hcalls hok hpkts hr rfl).mpr hplain⟩

end SendNet
end Chm
