/-
Worker threads and the calls that give them work.

A worker decides from unlocked reads of its status what to do next, and then does it in a
section of its own, while `DispatchThread` finds workers in the map of the working ones and in
the list of the sleeping ones.  Every accepted call is worked on, and list and map agree with
the statuses, in every run in which no call meets a worker between its decision and the section
that it has decided on, and no worker goes on without having been given work (`run_orderly`).
-/
import Chm.Lib.Steps
import Mathlib.Data.List.Nodup
import Mathlib.Logic.Function.Basic

namespace Chm

/-- The next read of the status or the next section of `WorkerProc`. -/
inductive ThreadAt
  | absent
  | top
  | topSleep
  | locking
  | waiting
  | woken
  | calling
  | working
  | readFirst
  | readSecond
  | readExit
  | toSleep
  | setWork
  | decrement
  | eraseExit
  | sleepAgain
  | failed
  | final
  deriving DecidableEq, Repr

/-- `CHMTHWP_PARAM` of a worker that is neither once nor nosleep, and where its thread is. -/
structure ThreadParam where
  status : Int
  wpParam : Nat
  isKeepEvcnt : Bool
  pc : ThreadAt
  deriving DecidableEq, Repr

/-- A call of `DoWorkThread` that is accepted, and a call of the work function. -/
inductive ThreadLog
  | accepted (param : Nat)
  | started (param : Nat)
  deriving DecidableEq, Repr

/-- The lists and the map are the members of the object; workers are named by the address of their
parameter.  The latest entry of the log is its first. -/
structure ChmThread where
  threads : Nat → ThreadParam
  chmthlist : List Nat
  chmthsleeps : List Nat
  chmthworkmap : Nat → Option Nat
  log : List ThreadLog

/-- `dispatch` is a turn of the loop of `DispatchThread`, `advance` the next step of a worker
with what its work function returns, and `clear` a call of `ClearSelfWorkerStatus` in it. -/
inductive ThreadEvent
  | create (w param : Nat) (isSleepAtStart isKeepEvcnt : Bool)
  | dispatch (param : Nat)
  | advance (w : Nat) (result : Bool)
  | clear (w : Nat)

namespace ChmThread

def chmthcomExit : Int := -1

def chmthcomSleep : Int := 0

def chmthcomWork : Int := 1

def setThread (w : Nat) (t : ThreadParam) (s : ChmThread) : ChmThread :=
  { s with threads := Function.update s.threads w t }

/-- The removal from the working map that every section of `WorkerProc` begins with. -/
def eraseWork (param : Nat) (s : ChmThread) : ChmThread :=
  { s with chmthworkmap := Function.update s.chmthworkmap param none }

/-- One turn of the loop of `CreateThreads`. -/
def create (w param : Nat) (isSleepAtStart isKeepEvcnt : Bool) (s : ChmThread) :
    Option ChmThread :=
  if (s.threads w).pc ≠ .absent ∨ w ∈ s.chmthsleeps then none
  else if isSleepAtStart then
    some { s.setThread w ⟨chmthcomSleep, param, isKeepEvcnt, .top⟩ with
      chmthlist := s.chmthlist ++ [w]
      chmthsleeps := s.chmthsleeps ++ [w] }
  else
    some { s.setThread w ⟨chmthcomWork, param, isKeepEvcnt, .top⟩ with
      chmthlist := s.chmthlist ++ [w]
      chmthworkmap := Function.update s.chmthworkmap param (some w) }

/-- The worker of the map that a call counts up. -/
def hit (param : Nat) (s : ChmThread) : Option Nat :=
  (s.chmthworkmap param).filter fun w => chmthcomWork ≤ (s.threads w).status

/-- The worker of the list that a call wakes. -/
def sleeper (s : ChmThread) : Option Nat :=
  s.chmthsleeps.find? fun w => (s.threads w).status = chmthcomSleep

def dispatch (param : Nat) (s : ChmThread) : ChmThread :=
  match s.hit param with
  | some w =>
    let t := s.threads w
    { s.setThread w { t with status := t.status + 1 } with log := .accepted param :: s.log }
  | none =>
    match s.sleeper with
    | some w =>
      let t := s.threads w
      { s.setThread w { t with status := chmthcomWork, wpParam := param } with
        chmthsleeps := s.chmthsleeps.erase w
        chmthworkmap := Function.update s.chmthworkmap param (some w)
        log := .accepted param :: s.log }
    | none => s

/-- `pthread_cond_wait` may return at any time. -/
def advance (w : Nat) (result : Bool) (s : ChmThread) : Option ChmThread :=
  let t := s.threads w
  let go := fun pc => some (s.setThread w { t with pc := pc })
  match t.pc with
  | .absent => none
  | .top => go (if t.status = chmthcomExit then .final else .topSleep)
  | .topSleep => go (if t.status = chmthcomSleep then .locking else .calling)
  | .locking => go (if t.status = chmthcomSleep then .waiting else .top)
  | .waiting => go .woken
  | .woken => go (if t.status = chmthcomExit then .final else .calling)
  | .calling =>
    some { s.setThread w { t with pc := .working } with log := .started t.wpParam :: s.log }
  | .working => go (if result then .readFirst else .failed)
  | .readFirst =>
    if t.isKeepEvcnt then go (if t.status = chmthcomWork then .toSleep else .readSecond)
    else go (if chmthcomWork ≤ t.status then .readSecond else .readExit)
  | .readSecond =>
    if t.isKeepEvcnt then go (if chmthcomWork ≤ t.status then .decrement else .readExit)
    else go (if t.status = chmthcomWork then .toSleep else .setWork)
  | .readExit =>
    go (if t.status = chmthcomExit then .eraseExit
      else if t.isKeepEvcnt then .top else .sleepAgain)
  | .toSleep =>
    let s := s.eraseWork t.wpParam
    some { s.setThread w { t with status := chmthcomSleep, pc := .top } with
      chmthsleeps := s.chmthsleeps ++ [w] }
  | .setWork => some (s.setThread w { t with status := chmthcomWork, pc := .top })
  | .decrement => some (s.setThread w { t with status := t.status - 1, pc := .top })
  | .eraseExit => some ((s.eraseWork t.wpParam).setThread w { t with pc := .top })
  | .sleepAgain =>
    -- the loop that looks for the worker in the list ends where it begins
    let s := s.eraseWork t.wpParam
    some { s.setThread w { t with pc := .top } with chmthsleeps := s.chmthsleeps ++ [w] }
  | .failed =>
    some ((s.eraseWork t.wpParam).setThread w { t with status := chmthcomExit, pc := .top })
  | .final => some ((s.eraseWork t.wpParam).setThread w { t with pc := .absent })

/-- `ClearSelfWorkerStatus`. -/
def clearSelfWorkerStatus (w : Nat) (s : ChmThread) : Option ChmThread :=
  let t := s.threads w
  if t.pc ≠ .working then none
  else if chmthcomWork ≤ t.status then some (s.setThread w { t with status := chmthcomSleep })
  else some s

def step (s : ChmThread) : ThreadEvent → Option ChmThread
  | .create w param isSleepAtStart isKeepEvcnt => s.create w param isSleepAtStart isKeepEvcnt
  | .dispatch param => some (s.dispatch param)
  | .advance w result => s.advance w result
  | .clear w => s.clearSelfWorkerStatus w

def start : ChmThread := ⟨fun _ => ⟨chmthcomExit, 0, false, .absent⟩, [], [], fun _ => none, []⟩

def steps : Steps ChmThread ThreadEvent := ⟨(· = start), step⟩

/-- A worker that has not been told to exit. -/
def Live (s : ChmThread) (w : Nat) : Prop :=
  w ∈ s.chmthlist ∧ (s.threads w).status ≠ chmthcomExit

structure Orderly (s : ChmThread) : Prop where
  once : ∀ w, s.Live w → s.chmthsleeps.count w ≤ 1
  asleep : ∀ w, s.Live w → (w ∈ s.chmthsleeps ↔ (s.threads w).status = chmthcomSleep)
  mapped : ∀ w, s.Live w → ∀ param, s.chmthworkmap param = some w ↔
    chmthcomWork ≤ (s.threads w).status ∧ param = (s.threads w).wpParam
  started : (∀ w, s.Live w →
      (s.threads w).pc = .waiting ∧ (s.threads w).status = chmthcomSleep) →
    ∀ param later earlier, s.log = later ++ .accepted param :: earlier → .started param ∈ later

/-! ## Calls that are owed their work -/

/-- A call for `param` is accepted and the work function not called for it since. -/
def owed (param : Nat) : List ThreadLog → Bool
  | [] => false
  | .accepted p :: log => p = param || owed param log
  | .started p :: log => p ≠ param && owed param log

/-- A call that meets a sleeping worker here has the work function called for it. -/
def mayWake (t : ThreadParam) : Bool :=
  match t.pc with
  | .top | .topSleep | .locking | .waiting | .woken | .calling => true
  | .readExit => t.isKeepEvcnt
  | _ => false

/-- What the worker's parameter is mapped to is this worker, if anything. -/
def ownEntry (s : ChmThread) (w : Nat) : Bool :=
  s.chmthworkmap (s.threads w).wpParam = none || s.chmthworkmap (s.threads w).wpParam = some w

/-- No call counts up a worker that has decided to sleep or wakes one that is still on its way, a
worker does not find itself asleep after its work, and one that exits owes nothing and has no
other one's entry in the map; a worker that begins with work has its parameter for itself, and
the work function clears no status of a working one. -/
def inOrder (s : ChmThread) : ThreadEvent → Bool
  | .create _ param isSleepAtStart _ => isSleepAtStart || s.chmthworkmap param = none
  | .dispatch param =>
    match s.hit param with
    | some w => (s.threads w).pc ≠ .toSleep
    | none =>
      match s.sleeper with
      | some w => mayWake (s.threads w)
      | none => true
  | .advance w _ =>
    match (s.threads w).pc with
    | .sleepAgain => false
    | .failed => !owed (s.threads w).wpParam s.log && s.ownEntry w
    | .eraseExit | .final => s.ownEntry w
    | _ => true
  | .clear w => (s.threads w).status < chmthcomWork

/-- What a worker's status is where it is. -/
def ThreadOk (t : ThreadParam) : Prop :=
  match t.pc with
  | .absent | .final => t.status = -1
  | .top => -1 ≤ t.status
  | .topSleep | .locking | .waiting | .woken | .calling | .working | .readFirst | .failed =>
    0 ≤ t.status
  | .readSecond => if t.isKeepEvcnt then t.status = 0 ∨ 2 ≤ t.status else 1 ≤ t.status
  | .readExit => 0 ≤ t.status ∧ (t.isKeepEvcnt = false → t.status = 0)
  | .toSleep => t.status = 1
  | .setWork => 1 ≤ t.status
  | .decrement => 2 ≤ t.status
  | .sleepAgain => t.status = 0
  | .eraseExit => False

/-- A working worker that calls the work function again before it sleeps or exits. -/
def WillCall (t : ThreadParam) : Prop :=
  match t.pc with
  | .top | .topSleep | .locking | .waiting | .woken | .calling | .setWork | .decrement
  | .failed => True
  | .working | .readFirst | .readSecond => 2 ≤ t.status
  | .readExit => t.isKeepEvcnt = true
  | _ => False

structure Invariant (s : ChmThread) : Prop where
  ok : ∀ w, ThreadOk (s.threads w)
  listed : ∀ w, (s.threads w).status ≠ -1 → w ∈ s.chmthlist
  nodup : s.chmthsleeps.Nodup
  asleep : ∀ w, (s.threads w).status ≠ -1 → (w ∈ s.chmthsleeps ↔ (s.threads w).status = 0)
  mapped : ∀ param w, s.chmthworkmap param = some w ↔
    1 ≤ (s.threads w).status ∧ (s.threads w).wpParam = param
  owed : ∀ param, owed param s.log = true →
    ∃ w, s.chmthworkmap param = some w ∧ WillCall (s.threads w)

variable {s s' : ChmThread} {w param : Nat}

theorem owed_iff {log : List ThreadLog} : owed param log = true ↔
    ∃ later earlier, log = later ++ .accepted param :: earlier ∧ .started param ∉ later := by
  induction log with
  | nil =>
    refine ⟨fun h => Bool.noConfusion h, ?_⟩
    rintro ⟨later, earlier, h, -⟩
    exact absurd h.symm (List.append_ne_nil_of_right_ne_nil _ (List.cons_ne_nil _ _))
  | cons e log ih =>
    have hcons : (∃ later earlier, e :: log = later ++ .accepted param :: earlier ∧
        .started param ∉ later) ↔ e = .accepted param ∨ e ≠ .started param ∧
          ∃ later earlier, log = later ++ .accepted param :: earlier ∧
            ThreadLog.started param ∉ later := by
      constructor
      · rintro ⟨later, earlier, h, hnot⟩
        cases later with
        | nil => exact .inl (List.cons.inj h).1
        | cons e' later =>
          obtain ⟨rfl, hlog⟩ := List.cons.inj h
          rw [List.mem_cons, not_or] at hnot
          exact .inr ⟨fun he => hnot.1 he.symm, later, earlier, hlog, hnot.2⟩
      · rintro (rfl | ⟨hne, later, earlier, rfl, hnot⟩)
        · exact ⟨[], log, rfl, List.not_mem_nil⟩
        · refine ⟨e :: later, earlier, rfl, fun hmem => ?_⟩
          rcases List.mem_cons.mp hmem with he | hmem
          · exact hne he.symm
          · exact hnot hmem
    rw [hcons, ← ih]
    cases e with
    | accepted p => by_cases hp : p = param <;> simp [owed, hp]
    | started p => by_cases hp : p = param <;> simp [owed, hp]

/-! ## What a step does to one worker -/

theorem start_invariant : Invariant start where
  ok _ := rfl
  listed _ hw := absurd rfl hw
  nodup := List.nodup_nil
  asleep _ hw := absurd rfl hw
  mapped _ _ := iff_of_false (fun h => nomatch h) fun h =>
    absurd h.1 (show ¬(1 : Int) ≤ -1 by decide)
  owed _ h := Bool.noConfusion h

/-- A step that changes one worker: what has to hold of it, of the others' places, and of what is
owed. -/
theorem Invariant.replace (h : Invariant s) {t : ThreadParam} {list sleeps : List Nat}
    {map : Nat → Option Nat} {log : List ThreadLog} (hok : ThreadOk t)
    (hlist : ∀ w' ∈ s.chmthlist, w' ∈ list) (hlisted : t.status ≠ -1 → w ∈ list)
    (hnodup : sleeps.Nodup)
    (hself : t.status ≠ -1 → (w ∈ sleeps ↔ t.status = 0))
    (hother : ∀ w' ≠ w, w' ∈ sleeps ↔ w' ∈ s.chmthsleeps)
    (hmapself : ∀ param, map param = some w ↔ 1 ≤ t.status ∧ t.wpParam = param)
    (hmapother : ∀ w' ≠ w, ∀ param, map param = some w' ↔ s.chmthworkmap param = some w')
    (howed : ∀ param, ChmThread.owed param log = true →
      ∃ w', map param = some w' ∧ WillCall (Function.update s.threads w t w')) :
    Invariant ⟨Function.update s.threads w t, list, sleeps, map, log⟩ := by
  refine ⟨fun w' => ?_, fun w' hlive => ?_, hnodup, fun w' hlive => ?_, fun param w' => ?_, howed⟩
  all_goals
    dsimp only at *
    by_cases hw : w' = w
  · subst hw
    rwa [Function.update_self]
  · rw [Function.update_of_ne hw]
    exact h.ok w'
  · subst hw
    rw [Function.update_self] at hlive
    exact hlisted hlive
  · rw [Function.update_of_ne hw] at hlive
    exact hlist w' (h.listed w' hlive)
  · subst hw
    rw [Function.update_self] at hlive ⊢
    exact hself hlive
  · rw [Function.update_of_ne hw] at hlive ⊢
    rw [hother w' hw]
    exact h.asleep w' hlive
  · subst hw
    rw [Function.update_self]
    exact hmapself param
  · rw [Function.update_of_ne hw, hmapother w' hw]
    exact h.mapped param w'

/-- What was owed is still owed by a worker, if this one has not forgotten it. -/
theorem Invariant.owed_update (h : Invariant s) {t : ThreadParam}
    (howed : ChmThread.owed param s.log = true)
    (hcall : s.chmthworkmap param = some w → WillCall (s.threads w) → WillCall t) :
    ∃ w', s.chmthworkmap param = some w' ∧ WillCall (Function.update s.threads w t w') := by
  obtain ⟨w', hmap, hw'⟩ := h.owed param howed
  refine ⟨w', hmap, ?_⟩
  by_cases hw : w' = w
  · subst hw
    rw [Function.update_self]
    exact hcall hmap hw'
  · rwa [Function.update_of_ne hw]

/-- A worker whose status stays of the same kind keeps its places. -/
theorem Invariant.update (h : Invariant s) {t : ThreadParam} (log : List ThreadLog)
    (hparam : t.wpParam = (s.threads w).wpParam)
    (hwork : 1 ≤ t.status ↔ 1 ≤ (s.threads w).status)
    (hsleep : t.status = 0 ↔ (s.threads w).status = 0)
    (hexit : t.status = -1 ↔ (s.threads w).status = -1) (hok : ThreadOk t)
    (howed : ∀ param, ChmThread.owed param log = true → ∃ w', s.chmthworkmap param = some w' ∧
      WillCall (Function.update s.threads w t w')) :
    Invariant { s.setThread w t with log := log } := by
  refine h.replace hok (fun _ => id) (fun hlive => h.listed w (mt hexit.mpr hlive)) h.nodup
    (fun hlive => ?_) (fun _ _ => Iff.rfl) (fun param => ?_) (fun _ _ _ => Iff.rfl) howed
  · exact (h.asleep w (mt hexit.mpr hlive)).trans hsleep.symm
  · rw [hwork, hparam]
    exact h.mapped param w

/-- A worker goes on without a new status. -/
theorem Invariant.go (h : Invariant s) {pc : ThreadAt}
    (hok : ThreadOk { s.threads w with pc := pc })
    (hwill : 1 ≤ (s.threads w).status → WillCall (s.threads w) →
      WillCall { s.threads w with pc := pc }) :
    Invariant (s.setThread w { s.threads w with pc := pc }) :=
  h.update s.log rfl Iff.rfl Iff.rfl Iff.rfl hok fun param howed =>
    h.owed_update howed fun hmap => hwill ((h.mapped param w).mp hmap).1

/-- Whoever has the parameter of a worker that has its entry to itself is that worker. -/
theorem eq_of_ownEntry (hentry : s.ownEntry w = true) {w' : Nat}
    (hmap : s.chmthworkmap (s.threads w).wpParam = some w') : w' = w := by
  rw [ownEntry, hmap] at hentry
  simpa using hentry

/-- A worker that has its entry to itself and will not call owes nothing. -/
theorem Invariant.not_owed (h : Invariant s) (hentry : s.ownEntry w = true)
    (hcall : ¬WillCall (s.threads w)) :
    ChmThread.owed (s.threads w).wpParam s.log = false := by
  refine Bool.eq_false_iff.mpr fun howed => ?_
  obtain ⟨w', hmap, hw'⟩ := h.owed _ howed
  exact hcall (eq_of_ownEntry hentry hmap ▸ hw')

/-- A worker that owes nothing and has the entry of its parameter to itself leaves the map. -/
theorem Invariant.leave (h : Invariant s) {t : ThreadParam} {sleeps : List Nat}
    (hstatus : t.status < 1) (hentry : s.ownEntry w = true)
    (hno : ChmThread.owed (s.threads w).wpParam s.log = false) (hnodup : sleeps.Nodup)
    (hself : t.status ≠ -1 → (w ∈ sleeps ↔ t.status = 0))
    (hother : ∀ w' ≠ w, w' ∈ sleeps ↔ w' ∈ s.chmthsleeps)
    (hlisted : t.status ≠ -1 → w ∈ s.chmthlist) (hok : ThreadOk t) :
    Invariant { (s.eraseWork (s.threads w).wpParam).setThread w t with chmthsleeps := sleeps } := by
  have hmapother : ∀ w' ≠ w, ∀ param,
      Function.update s.chmthworkmap (s.threads w).wpParam none param = some w' ↔
        s.chmthworkmap param = some w' := by
    intro w' hw param
    by_cases hp : param = (s.threads w).wpParam
    · subst hp
      rw [Function.update_self]
      exact iff_of_false (fun hmap => nomatch hmap) fun hmap =>
        hw (eq_of_ownEntry hentry hmap)
    · rw [Function.update_of_ne hp]
  refine h.replace hok (fun _ => id) hlisted hnodup hself hother (fun param => ?_) hmapother
    fun param howed => ?_
  · refine iff_of_false (fun hmap => ?_) fun hwork => by omega
    have hmap : Function.update s.chmthworkmap (s.threads w).wpParam none param = some w := hmap
    by_cases hp : param = (s.threads w).wpParam
    · rw [hp, Function.update_self] at hmap
      cases hmap
    · rw [Function.update_of_ne hp] at hmap
      exact hp ((h.mapped param w).mp hmap).2.symm
  · obtain ⟨w', hmap, hcall⟩ := h.owed param howed
    have hw : w' ≠ w := by
      rintro rfl
      have howed : ChmThread.owed param s.log = true := howed
      rw [← ((h.mapped param w').mp hmap).2, hno] at howed
      cases howed
    refine ⟨w', (hmapother w' hw param).mpr hmap, ?_⟩
    rwa [Function.update_of_ne hw]

/-! ## The steps -/

/-- A new entry of the map is the only one of a worker that had none. -/
theorem entry_self {map : Nat → Option Nat} (hunmapped : ∀ p, map p ≠ some w) (p : Nat) :
    Function.update map param (some w) p = some w ↔ (1 : Int) ≤ 1 ∧ param = p := by
  by_cases hp : p = param
  · subst hp
    rw [Function.update_self]
    exact iff_of_true rfl ⟨Int.le_refl 1, rfl⟩
  · rw [Function.update_of_ne hp]
    exact iff_of_false (hunmapped p) fun hwork => hp hwork.2.symm

/-- Where there was none, a new entry leaves the others. -/
theorem entry_other {map : Nat → Option Nat} (hfree : map param = none) {w' : Nat} (hw : w' ≠ w)
    (p : Nat) : Function.update map param (some w) p = some w' ↔ map p = some w' := by
  by_cases hp : p = param
  · subst hp
    rw [Function.update_self, hfree]
    exact iff_of_false (fun he => hw (Option.some.inj he).symm) fun he => nomatch he
  · rw [Function.update_of_ne hp]

theorem create_invariant (h : Invariant s) {isSleepAtStart isKeepEvcnt : Bool}
    (hown : (isSleepAtStart || s.chmthworkmap param = none) = true)
    (hs : s.create w param isSleepAtStart isKeepEvcnt = some s') : Invariant s' := by
  rw [create] at hs
  split at hs
  · cases hs
  · rename_i hnew
    rw [not_or, Decidable.not_not] at hnew
    have habsent : (s.threads w).status = -1 := by
      have hok := h.ok w
      rw [ThreadOk, hnew.1] at hok
      exact hok
    have hunmapped : ∀ p, s.chmthworkmap p ≠ some w := by
      intro p hp
      have hwork := ((h.mapped p w).mp hp).1
      omega
    have hlist : ∀ w' ∈ s.chmthlist, w' ∈ s.chmthlist ++ [w] := fun _ => List.mem_append_left _
    have hlisted : w ∈ s.chmthlist ++ [w] := List.mem_append_right _ (List.mem_singleton_self w)
    split at hs
    · obtain rfl := Option.some.inj hs
      refine h.replace (show (-1 : Int) ≤ 0 by decide) hlist (fun _ => hlisted) ?_ (fun _ => ?_)
        (fun w' hw => ?_) (fun p => ?_) (fun _ _ _ => Iff.rfl)
        fun p howed => h.owed_update howed fun hmap => absurd hmap (hunmapped p)
      · exact List.nodup_append'.mpr ⟨h.nodup, List.nodup_singleton w,
          List.disjoint_singleton.mpr hnew.2⟩
      · exact iff_of_true (List.mem_append_right _ (List.mem_singleton_self w)) rfl
      · rw [List.mem_append, List.mem_singleton]
        exact or_iff_left hw
      · exact iff_of_false (hunmapped p) fun hwork => absurd hwork.1 (show ¬(1 : Int) ≤ 0 by decide)
    · rename_i hwork
      obtain rfl := Option.some.inj hs
      have hfree : s.chmthworkmap param = none := by
        rw [Bool.not_eq_true _ |>.mp hwork, Bool.false_or] at hown
        exact of_decide_eq_true hown
      refine h.replace (show (-1 : Int) ≤ 1 by decide) hlist (fun _ => hlisted) h.nodup
        (fun _ => ?_) (fun _ _ => Iff.rfl) (entry_self hunmapped)
        (fun _ hw => entry_other hfree hw) fun p howed => ?_
      · exact iff_of_false hnew.2 (show ¬(1 : Int) = 0 by decide)
      · obtain ⟨w', hmap, hcall⟩ := h.owed_update howed fun hmap => absurd hmap (hunmapped p)
        refine ⟨w', ?_, hcall⟩
        rwa [Function.update_of_ne fun hp => ?_]
        rw [hp, hfree] at hmap
        cases hmap

/-- A call that counts up a working worker. -/
theorem hit_invariant (h : Invariant s) (hhit : s.hit param = some w)
    (hpc : (s.threads w).pc ≠ .toSleep) :
    Invariant { s.setThread w { s.threads w with status := (s.threads w).status + 1 } with
      log := .accepted param :: s.log } := by
  obtain ⟨hmap, hwork⟩ := Option.filter_eq_some_iff.mp hhit
  have hwork : 1 ≤ (s.threads w).status := of_decide_eq_true hwork
  have hok := h.ok w
  have hnext : ThreadOk { s.threads w with status := (s.threads w).status + 1 } ∧
      WillCall { s.threads w with status := (s.threads w).status + 1 } := by
    rw [ThreadOk] at hok
    rw [ThreadOk, WillCall]
    dsimp only
    cases hat : (s.threads w).pc with
    | toSleep => exact absurd hat hpc
    | eraseExit =>
      rw [hat] at hok
      exact hok.elim
    | absent | final | sleepAgain =>
      rw [hat] at hok
      dsimp only at hok
      omega
    | readSecond =>
      rw [hat] at hok
      dsimp only at hok ⊢
      split at hok <;> rename_i hkeep
      · rw [if_pos hkeep]
        omega
      · rw [if_neg hkeep]
        omega
    | readExit =>
      rw [hat] at hok
      dsimp only at hok ⊢
      cases hkeep : (s.threads w).isKeepEvcnt with
      | true => exact ⟨⟨by omega, fun hno => nomatch hno⟩, rfl⟩
      | false =>
        have hzero := hok.2 hkeep
        omega
    | working | readFirst =>
      dsimp only
      omega
    | _ => exact ⟨show _ ≤ (s.threads w).status + 1 by omega, trivial⟩
  refine h.update _ rfl (by dsimp only; omega) (by dsimp only; omega) (by dsimp only; omega)
    hnext.1 fun p howed => ?_
  rw [owed, Bool.or_eq_true] at howed
  rcases howed with hp | howed
  · obtain rfl := of_decide_eq_true hp
    refine ⟨w, hmap, ?_⟩
    rw [Function.update_self]
    exact hnext.2
  · exact h.owed_update howed fun _ _ => hnext.2

/-- A call that wakes a sleeping worker. -/
theorem wake_invariant (h : Invariant s) (hhit : s.hit param = none)
    (hsleeper : s.sleeper = some w) (hwake : mayWake (s.threads w) = true) :
    Invariant { s.setThread w { s.threads w with status := chmthcomWork, wpParam := param } with
      chmthsleeps := s.chmthsleeps.erase w
      chmthworkmap := Function.update s.chmthworkmap param (some w)
      log := .accepted param :: s.log } := by
  have hmem := List.mem_of_find?_eq_some hsleeper
  have hzero : (s.threads w).status = chmthcomSleep := by
    have hfound := List.find?_some hsleeper
    exact of_decide_eq_true hfound
  rw [chmthcomSleep] at hzero
  have hfree : s.chmthworkmap param = none := by
    cases hmap : s.chmthworkmap param with
    | none => rfl
    | some w' =>
      have hwork : chmthcomWork ≤ (s.threads w').status := ((h.mapped param w').mp hmap).1
      rw [hit, hmap, Option.filter_some, if_pos (decide_eq_true hwork)] at hhit
      cases hhit
  have hunmapped : ∀ p, s.chmthworkmap p ≠ some w := by
    intro p hp
    have hwork := ((h.mapped p w).mp hp).1
    omega
  have hnext : ThreadOk { s.threads w with status := chmthcomWork, wpParam := param } ∧
      WillCall { s.threads w with status := chmthcomWork, wpParam := param } := by
    rw [mayWake] at hwake
    rw [ThreadOk, WillCall, chmthcomWork]
    dsimp only
    cases hat : (s.threads w).pc with
    | top | topSleep | locking | waiting | woken | calling =>
      exact ⟨show _ ≤ (1 : Int) by decide, trivial⟩
    | readExit =>
      rw [hat] at hwake
      dsimp only at hwake ⊢
      rw [hwake]
      exact ⟨⟨by decide, fun hno => nomatch hno⟩, rfl⟩
    | _ =>
      rw [hat] at hwake
      cases hwake
  refine h.replace hnext.1 (fun _ => id) (fun _ => h.listed w (by omega)) (h.nodup.erase w)
    (fun _ => ?_) (fun w' hw => ?_) (entry_self hunmapped) (fun _ hw => entry_other hfree hw)
    fun p howed => ?_
  · refine iff_of_false (fun hin => ?_) (show ¬(1 : Int) = 0 by decide)
    exact (h.nodup.mem_erase_iff.mp hin).1 rfl
  · rw [h.nodup.mem_erase_iff]
    exact and_iff_right hw
  · by_cases hp : p = param
    · subst hp
      refine ⟨w, Function.update_self .., ?_⟩
      rw [Function.update_self]
      exact hnext.2
    · have hold : ChmThread.owed p s.log = true := by
        rw [owed, Bool.or_eq_true] at howed
        exact howed.resolve_left fun he => hp (of_decide_eq_true he).symm
      obtain ⟨w', hmap, hcall⟩ := h.owed_update hold fun hmap => absurd hmap (hunmapped p)
      exact ⟨w', by rwa [Function.update_of_ne hp], hcall⟩

theorem owed_started {p : Nat} {log : List ThreadLog} :
    owed param (.started p :: log) = true ↔ p ≠ param ∧ owed param log = true := by
  rw [owed, Bool.and_eq_true, decide_eq_true_eq]

/-- The call of the work function settles what was owed for the parameter. -/
theorem calling_invariant (h : Invariant s) (hat : (s.threads w).pc = .calling) :
    Invariant { s.setThread w { s.threads w with pc := .working } with
      log := .started (s.threads w).wpParam :: s.log } := by
  have hok : 0 ≤ (s.threads w).status := by
    have hok := h.ok w
    rw [ThreadOk, hat] at hok
    exact hok
  refine h.update _ rfl Iff.rfl Iff.rfl Iff.rfl hok fun p howed => ?_
  obtain ⟨hne, howed⟩ := owed_started.mp howed
  exact h.owed_update howed fun hmap => absurd ((h.mapped p w).mp hmap).2 hne

/-- A worker that has read `CHMTHCOM_WORK` goes to sleep. -/
theorem toSleep_invariant (h : Invariant s) (hat : (s.threads w).pc = .toSleep) :
    Invariant { (s.eraseWork (s.threads w).wpParam).setThread w
      { s.threads w with status := chmthcomSleep, pc := .top } with
        chmthsleeps := s.chmthsleeps ++ [w] } := by
  have hwork : (s.threads w).status = 1 := by
    have hok := h.ok w
    rw [ThreadOk, hat] at hok
    exact hok
  have hmap : s.chmthworkmap (s.threads w).wpParam = some w :=
    (h.mapped _ w).mpr ⟨by omega, rfl⟩
  have hentry : s.ownEntry w = true := by
    rw [ownEntry, hmap, decide_eq_true rfl, Bool.or_true]
  have hcall : ¬WillCall (s.threads w) := by
    rw [WillCall, hat]
    exact id
  have hout : w ∉ s.chmthsleeps := fun hin => by
    have hzero := (h.asleep w (by omega)).mp hin
    omega
  refine h.leave (show (0 : Int) < 1 by decide) hentry (h.not_owed hentry hcall) ?_ (fun _ => ?_)
    (fun w' hw => ?_) (fun _ => h.listed w (by omega)) (show (-1 : Int) ≤ 0 by decide)
  · exact List.nodup_append'.mpr ⟨h.nodup, List.nodup_singleton w,
      List.disjoint_singleton.mpr hout⟩
  · exact iff_of_true (List.mem_append_right _ (List.mem_singleton_self w)) rfl
  · rw [List.mem_append, List.mem_singleton]
    exact or_iff_left hw

/-- The first read after the work. -/
theorem readFirst_invariant (h : Invariant s) (hat : (s.threads w).pc = .readFirst)
    (ht : 0 ≤ (s.threads w).status)
    (hs : (if (s.threads w).isKeepEvcnt then
        some (s.setThread w { s.threads w with
          pc := if (s.threads w).status = chmthcomWork then .toSleep else .readSecond })
      else
        some (s.setThread w { s.threads w with
          pc := if chmthcomWork ≤ (s.threads w).status then .readSecond else .readExit })) =
      some s') : Invariant s' := by
  have hcall : WillCall (s.threads w) → 2 ≤ (s.threads w).status := by
    rw [WillCall, hat]
    exact id
  rw [chmthcomWork] at hs
  cases hkeep : (s.threads w).isKeepEvcnt with
  | true =>
    rw [hkeep, if_pos rfl] at hs
    obtain rfl := Option.some.inj hs
    by_cases hread : (s.threads w).status = 1
    · rw [if_pos hread]
      refine h.go hread fun _ hc => ?_
      have htwo := hcall hc
      omega
    · rw [if_neg hread]
      refine h.go ?_ fun _ hc => hcall hc
      rw [ThreadOk]
      dsimp only
      rw [hkeep, if_pos rfl]
      omega
  | false =>
    rw [hkeep, if_neg Bool.false_ne_true] at hs
    obtain rfl := Option.some.inj hs
    by_cases hread : 1 ≤ (s.threads w).status
    · rw [if_pos hread]
      refine h.go ?_ fun _ hc => hcall hc
      rw [ThreadOk]
      dsimp only
      rw [hkeep, if_neg Bool.false_ne_true]
      exact hread
    · rw [if_neg hread]
      refine h.go (show 0 ≤ _ ∧ (_ → _) from ⟨ht, fun _ => ?_⟩) fun hwork => absurd hwork hread
      dsimp only
      omega

/-- The second read after the work. -/
theorem readSecond_invariant (h : Invariant s) (hat : (s.threads w).pc = .readSecond)
    (ht : if (s.threads w).isKeepEvcnt then
        (s.threads w).status = 0 ∨ 2 ≤ (s.threads w).status else 1 ≤ (s.threads w).status)
    (hs : (if (s.threads w).isKeepEvcnt then
        some (s.setThread w { s.threads w with
          pc := if chmthcomWork ≤ (s.threads w).status then .decrement else .readExit })
      else
        some (s.setThread w { s.threads w with
          pc := if (s.threads w).status = chmthcomWork then .toSleep else .setWork })) =
      some s') : Invariant s' := by
  have hcall : WillCall (s.threads w) → 2 ≤ (s.threads w).status := by
    rw [WillCall, hat]
    exact id
  rw [chmthcomWork] at hs
  cases hkeep : (s.threads w).isKeepEvcnt with
  | true =>
    rw [hkeep, if_pos rfl] at hs ht
    obtain rfl := Option.some.inj hs
    by_cases hread : 1 ≤ (s.threads w).status
    · rw [if_pos hread]
      exact h.go (show 2 ≤ _ by dsimp only; omega) fun _ _ => trivial
    · rw [if_neg hread]
      refine h.go (show 0 ≤ _ ∧ (_ → _) from ⟨?_, fun hno => ?_⟩) fun hwork => absurd hwork hread
      · dsimp only
        omega
      · exact absurd (hkeep.symm.trans hno) Bool.noConfusion
  | false =>
    rw [hkeep, if_neg Bool.false_ne_true] at hs ht
    obtain rfl := Option.some.inj hs
    by_cases hread : (s.threads w).status = 1
    · rw [if_pos hread]
      refine h.go hread fun _ hc => ?_
      have htwo := hcall hc
      omega
    · rw [if_neg hread]
      exact h.go ht fun _ _ => trivial

theorem advance_invariant (h : Invariant s) {result : Bool}
    (hok : s.inOrder (.advance w result) = true) (hs : s.advance w result = some s') :
    Invariant s' := by
  have ht := h.ok w
  rw [inOrder] at hok
  rw [advance] at hs
  rw [ThreadOk] at ht
  dsimp only at hs
  cases hat : (s.threads w).pc with
  | absent =>
    rw [hat] at hs
    cases hs
  | top =>
    rw [hat] at hs ht
    obtain rfl := Option.some.inj hs
    by_cases hexit : (s.threads w).status = chmthcomExit
    · rw [if_pos hexit]
      rw [chmthcomExit] at hexit
      exact h.go hexit fun hwork => by omega
    · rw [if_neg hexit]
      rw [chmthcomExit] at hexit
      exact h.go (show (0 : Int) ≤ _ by dsimp only at ht ⊢; omega) fun _ _ => trivial
  | topSleep =>
    rw [hat] at hs ht
    obtain rfl := Option.some.inj hs
    split <;> exact h.go ht fun _ _ => trivial
  | locking =>
    rw [hat] at hs ht
    obtain rfl := Option.some.inj hs
    split
    · exact h.go ht fun _ _ => trivial
    · exact h.go (show (-1 : Int) ≤ _ by dsimp only at ht ⊢; omega) fun _ _ => trivial
  | waiting =>
    rw [hat] at hs ht
    obtain rfl := Option.some.inj hs
    exact h.go ht fun _ _ => trivial
  | woken =>
    rw [hat] at hs ht
    obtain rfl := Option.some.inj hs
    have hlive : ¬(s.threads w).status = chmthcomExit := by
      rw [chmthcomExit]
      dsimp only at ht
      omega
    rw [if_neg hlive]
    exact h.go ht fun _ _ => trivial
  | calling =>
    rw [hat] at hs
    obtain rfl := Option.some.inj hs
    exact calling_invariant h hat
  | working =>
    rw [hat] at hs ht
    obtain rfl := Option.some.inj hs
    cases result with
    | true =>
      refine h.go ht fun _ hcall => ?_
      rw [WillCall, hat] at hcall
      exact hcall
    | false => exact h.go ht fun _ _ => trivial
  | readFirst =>
    rw [hat] at hs ht
    exact readFirst_invariant h hat ht hs
  | readSecond =>
    rw [hat] at hs ht
    exact readSecond_invariant h hat ht hs
  | readExit =>
    rw [hat] at hs ht
    dsimp only at ht
    obtain rfl := Option.some.inj hs
    have hlive : ¬(s.threads w).status = chmthcomExit := by
      rw [chmthcomExit]
      omega
    rw [if_neg hlive]
    by_cases hkeep : (s.threads w).isKeepEvcnt = true
    · rw [if_pos hkeep]
      exact h.go (show (-1 : Int) ≤ (s.threads w).status by omega) fun _ _ => trivial
    · rw [if_neg hkeep]
      refine h.go (ht.2 (Bool.eq_false_iff.mpr hkeep)) fun _ hcall => ?_
      rw [WillCall, hat] at hcall
      exact absurd hcall hkeep
  | toSleep =>
    rw [hat] at hs
    obtain rfl := Option.some.inj hs
    exact toSleep_invariant h hat
  | setWork =>
    rw [hat] at hs ht
    obtain rfl := Option.some.inj hs
    dsimp only at ht
    exact h.update s.log rfl (by dsimp only [chmthcomWork]; omega)
      (by dsimp only [chmthcomWork]; omega) (by dsimp only [chmthcomWork]; omega)
      (show (-1 : Int) ≤ 1 by decide) fun p howed => h.owed_update howed fun _ _ => trivial
  | decrement =>
    rw [hat] at hs ht
    obtain rfl := Option.some.inj hs
    dsimp only at ht
    exact h.update s.log rfl (by dsimp only; omega) (by dsimp only; omega)
      (by dsimp only; omega) (show (-1 : Int) ≤ (s.threads w).status - 1 by omega)
      fun p howed => h.owed_update howed fun _ _ => trivial
  | eraseExit =>
    rw [hat] at ht
    exact ht.elim
  | sleepAgain =>
    rw [hat] at hok
    cases hok
  | failed =>
    rw [hat] at hs hok
    obtain rfl := Option.some.inj hs
    obtain ⟨howed, hentry⟩ := Bool.and_eq_true_iff.mp hok
    exact h.leave (show (-1 : Int) < 1 by decide) hentry (Bool.not_eq_true' _ |>.mp howed) h.nodup
      (fun hlive => absurd rfl hlive) (fun _ _ => Iff.rfl) (fun hlive => absurd rfl hlive)
      (Int.le_refl (-1))
  | final =>
    rw [hat] at hs hok ht
    obtain rfl := Option.some.inj hs
    have hexit : (s.threads w).status = -1 := ht
    have hcall : ¬WillCall (s.threads w) := by
      rw [WillCall, hat]
      exact id
    exact h.leave (show (s.threads w).status < 1 by omega) hok (h.not_owed hok hcall) h.nodup
      (fun hlive => absurd hexit hlive) (fun _ _ => Iff.rfl) (fun hlive => absurd hexit hlive)
      hexit

/-- `ClearSelfWorkerStatus` finds nothing to clear. -/
theorem clear_invariant (h : Invariant s) (hok : s.inOrder (.clear w) = true)
    (hs : s.clearSelfWorkerStatus w = some s') : Invariant s' := by
  have hlt : (s.threads w).status < chmthcomWork := of_decide_eq_true hok
  rw [clearSelfWorkerStatus] at hs
  rw [if_neg (Int.not_le.mpr hlt)] at hs
  split at hs
  · cases hs
  · obtain rfl := Option.some.inj hs
    exact h

theorem dispatch_invariant (h : Invariant s) (hok : s.inOrder (.dispatch param) = true) :
    Invariant (s.dispatch param) := by
  rw [inOrder] at hok
  rw [dispatch]
  cases hhit : s.hit param with
  | some w =>
    rw [hhit] at hok
    exact hit_invariant h hhit (of_decide_eq_true hok)
  | none =>
    rw [hhit] at hok
    cases hsleeper : s.sleeper with
    | some w =>
      rw [hsleeper] at hok
      exact wake_invariant h hhit hsleeper hok
    | none => exact h

theorem step_invariant {e : ThreadEvent} (h : Invariant s) (hok : s.inOrder e = true)
    (hs : s.step e = some s') : Invariant s' := by
  cases e with
  | create w param isSleepAtStart isKeepEvcnt => exact create_invariant h hok hs
  | dispatch param =>
    obtain rfl := Option.some.inj hs
    exact dispatch_invariant h hok
  | advance w result => exact advance_invariant h hok hs
  | clear w => exact clear_invariant h hok hs

theorem Invariant.orderly (h : Invariant s) : Orderly s where
  once w _ := List.nodup_iff_count_le_one.mp h.nodup w
  asleep w hlive := h.asleep w hlive.2
  mapped w _ param := by
    rw [h.mapped param w, eq_comm]
    rfl
  started hall param later earlier hlog := by
    refine Decidable.byContradiction fun hnot => ?_
    obtain ⟨w, hmap, -⟩ := h.owed param (owed_iff.mpr ⟨later, earlier, hlog, hnot⟩)
    have hwork := ((h.mapped param w).mp hmap).1
    have hexit : (s.threads w).status ≠ -1 := by omega
    have hlive : s.Live w := ⟨h.listed w hexit, hexit⟩
    have hsleep := (hall w hlive).2
    rw [chmthcomSleep] at hsleep
    omega

/-- When no step meets another one at the wrong time, every accepted call is worked on, and the
list and the map agree with the statuses. -/
theorem run_orderly (h : steps.Reachable inOrder s) : Orderly s := by
  have hinv : Invariant s := h.invariant (fun _ hs => hs ▸ start_invariant) step_invariant
  exact hinv.orderly

/-- A worker that is given work and sleeps again, up to where it reads its status the second
time. -/
def workEvents : List ThreadEvent :=
  .create 8 0 true false :: .dispatch 5 :: List.replicate 6 (.advance 8 true)

theorem run_orderly_sample : ∃ s, (s.chmthsleeps, s.log) = ([8], [.started 5, .accepted 5]) ∧
    Orderly s := by
  obtain ⟨s, hs, hend⟩ := Steps.reached steps inOrder
    (fun s => (s.chmthsleeps, s.log)) rfl
    (by decide : (steps.run inOrder start
      (workEvents ++ List.replicate 4 (.advance 8 true))).map (fun s => (s.chmthsleeps, s.log)) =
        some ([8], [.started 5, .accepted 5]))
  exact ⟨s, hend, run_orderly hs⟩

/-- The call that comes between the read of the status and the section is accepted, and the
worker sleeps. -/
theorem run_lostWork : ∃ s, steps.Reachable Steps.anyStep s ∧
    s.log = [.accepted 5, .started 5, .accepted 5] ∧ ¬Orderly s := by
  obtain ⟨s, hs, hend⟩ := Steps.reached steps Steps.anyStep
    (fun s => (s.log, s.chmthlist, s.threads 8)) rfl
    (by decide : (steps.run Steps.anyStep start
      (workEvents ++ .dispatch 5 :: List.replicate 4 (.advance 8 true))).map
        (fun s => (s.log, s.chmthlist, s.threads 8)) =
          some ([.accepted 5, .started 5, .accepted 5], [8], ⟨0, 5, false, .waiting⟩))
  simp only [Prod.mk.injEq] at hend
  obtain ⟨hlog, hlist, hthread⟩ := hend
  refine ⟨s, hs, hlog, fun h => ?_⟩
  refine absurd (h.started (fun w hlive => ?_) 5 [] _ hlog) List.not_mem_nil
  have hw : w = 8 := List.mem_singleton.mp (hlist ▸ hlive.1)
  rw [hw, hthread]
  exact ⟨rfl, rfl⟩

end ChmThread
end Chm
