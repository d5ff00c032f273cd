/-
The last update time that a merge asks a client for.

`PxCltSendMergeGetLastTime` posts a request and then waits for a flag that the handler of the
response sets, through a pointer to the caller's variable that the handler writes to.  A
response carries no request, and flag and pointer are set up only after the request has been
posted.  What a call returns is right in every run in which a handler writes and sets the flag
while its own call waits (`run_right`).
-/
import Chm.Lib.Steps
import Chm.Time
import Mathlib.Data.List.Nodup
import Mathlib.Logic.Function.Basic

namespace Chm

namespace LastTime

/-- `DEFAULT_GETLTS_LOOP`. -/
def defaultGetltsLoop : Nat := 1000 * 1000

/-- The next statement of `PxCltSendMergeGetLastTime` for the call of a number.  `result` is what
the call returns, and `processed` whether its response had been handled when the wait ended. -/
inductive CallerAt
  | idle
  | sent (call : Nat)
  | cleared (call : Nat)
  | waiting (call lcnt : Nat)
  | checking (call : Nat)
  | resetting (call : Nat) (result processed : Bool)
  | leaving (call : Nat) (result processed : Bool)
  deriving DecidableEq, Repr

/-- The next statement of `PxCltReceiveMergeResponseLastTime`. -/
inductive HandlerAt
  | test
  | nsec
  | sec
  | notify (written : Bool)
  deriving DecidableEq, Repr

/-- A run of `PxCltReceiveMergeResponseLastTime` for the response to a request. -/
structure Handler where
  request : Nat
  ts : Timespec
  pc : HandlerAt
  deriving DecidableEq, Repr

/-- What a call has returned, with its `lastts` at that time. -/
structure CallResult where
  call : Nat
  result : Bool
  lastts : Timespec
  processed : Bool
  deriving DecidableEq, Repr

end LastTime

open LastTime

/-- The calls, one after the other, and the packets on their way.  `lastts` is the variable that
each call gets, and `presLasttime` the call whose variable is pointed to. -/
structure LastTime where
  notifyMergeGet : Bool
  presLasttime : Option Nat
  lastts : Nat → Timespec
  calls : Nat
  caller : CallerAt
  requests : List Nat
  responses : List (Nat × Timespec)
  handlers : List Handler
  /-- The responses that clients have sent. -/
  answered : List (Nat × Timespec)
  /-- The requests whose response has been handled. -/
  processed : List Nat
  results : List CallResult

/-- `call` is the code up to `Send`, `caller` and `handle` a statement of the caller and of a
handler; `answer` is a client's callback, `arrive` takes a response from the queue. -/
inductive LastTimeEvent
  | call (lastts : Timespec) (isSent : Bool)
  | caller
  | answer (call : Nat) (ts : Timespec)
  | arrive (i : Nat)
  | handle (i : Nat)

namespace LastTime

/-- A call returns. -/
def leave (call : Nat) (result processed : Bool) (s : LastTime) : LastTime :=
  { s with caller := .idle, results := ⟨call, result, s.lastts call, processed⟩ :: s.results }

def call (lastts : Timespec) (isSent : Bool) (s : LastTime) : Option LastTime :=
  if s.caller ≠ .idle then none
  else
    let s' := { s with lastts := Function.update s.lastts s.calls lastts, calls := s.calls + 1 }
    if s.notifyMergeGet && isSent then
      some { s' with caller := .sent s.calls, requests := s.calls :: s.requests }
    else some (s'.leave s.calls false false)

def callerStep (s : LastTime) : Option LastTime :=
  match s.caller with
  | .idle => none
  | .sent call => some { s with caller := .cleared call, notifyMergeGet := false }
  | .cleared call => some { s with caller := .waiting call 0, presLasttime := some call }
  | .waiting call lcnt =>
    if !s.notifyMergeGet && lcnt < defaultGetltsLoop then
      some { s with caller := .waiting call (lcnt + 1) }
    else some { s with caller := .checking call }
  | .checking call =>
    some { s with caller := .resetting call s.notifyMergeGet (call ∈ s.processed) }
  | .resetting call result processed =>
    some { s with caller := .leaving call result processed, notifyMergeGet := true }
  | .leaving call result processed =>
    some ({ s with presLasttime := none }.leave call result processed)

def answer (call : Nat) (ts : Timespec) (s : LastTime) : Option LastTime :=
  if call ∉ s.requests then none
  else
    some { s with
      requests := s.requests.erase call
      responses := (call, ts) :: s.responses
      answered := (call, ts) :: s.answered }

def arrive (i : Nat) (s : LastTime) : Option LastTime :=
  s.responses[i]?.map fun r =>
    { s with responses := s.responses.eraseIdx i, handlers := ⟨r.1, r.2, .test⟩ :: s.handlers }

/-- A statement of a handler.  Each one reads `pres_lasttime` again, and a write through the null
pointer ends the process. -/
def handle (i : Nat) (s : LastTime) : Option LastTime :=
  match s.handlers[i]? with
  | none => none
  | some h =>
    match h.pc with
    | .test =>
      let pc := if s.presLasttime.isSome then .nsec else .notify false
      some { s with handlers := s.handlers.set i { h with pc := pc } }
    | .nsec =>
      s.presLasttime.map fun call =>
        { s with
          lastts := Function.update s.lastts call { s.lastts call with nsec := h.ts.nsec }
          handlers := s.handlers.set i { h with pc := .sec } }
    | .sec =>
      s.presLasttime.map fun call =>
        { s with
          lastts := Function.update s.lastts call { s.lastts call with sec := h.ts.sec }
          handlers := s.handlers.set i { h with pc := .notify true } }
    | .notify _ =>
      some { s with
        notifyMergeGet := true
        handlers := s.handlers.eraseIdx i
        processed := h.request :: s.processed }

def step (s : LastTime) : LastTimeEvent → Option LastTime
  | .call lastts isSent => s.call lastts isSent
  | .caller => s.callerStep
  | .answer call ts => s.answer call ts
  | .arrive i => s.arrive i
  | .handle i => s.handle i

def start : LastTime := ⟨true, none, fun _ => ⟨0, 0⟩, 0, .idle, [], [], [], [], [], []⟩

def steps : Steps LastTime LastTimeEvent := ⟨(· = start), step⟩

/-- A call that returns true has the time of the response to its own request, and one that
returns false has ended its wait before the response was handled. -/
def ResultsRight (s : LastTime) : Prop :=
  ∀ r ∈ s.results, (r.result = true → (r.call, r.lastts) ∈ s.answered) ∧
    (r.result = false → r.processed = false)

/-! ## Handlers in time -/

/-- The flag may be set by the handler of a response: outside of the calls, while one that is not
its own has sent its request, or while its own one waits and has the time. -/
def mayNotify (request : Nat) (written : Bool) : CallerAt → Bool
  | .idle | .resetting .. | .leaving .. => true
  | .sent call => call ≠ request
  | .cleared _ => false
  | .waiting call _ | .checking call => call = request && written

/-- A handler writes while its own call is pointed to, and sets the flag when it may. -/
def inTime (s : LastTime) : LastTimeEvent → Bool
  | .handle i =>
    match s.handlers[i]? with
    | none => true
    | some h =>
      match h.pc with
      | .test => true
      | .nsec | .sec => s.presLasttime = some h.request
      | .notify written => mayNotify h.request written s.caller
  | _ => true

/-- A handler has the time of a response and has written what it has passed. -/
def HandlerOk (s : LastTime) (h : Handler) : Prop :=
  (h.request, h.ts) ∈ s.answered ∧
    match h.pc with
    | .test | .nsec => True
    | .sec => (s.lastts h.request).nsec = h.ts.nsec
    | .notify written => written = true → s.lastts h.request = h.ts

/-- During the wait of a call the flag is set exactly when its response has been handled, and
then the call has the time. -/
def CallerOk (s : LastTime) : CallerAt → Prop
  | .idle => True
  | .sent call => call < s.calls ∧ call ∉ s.processed
  | .cleared call => call < s.calls ∧ call ∉ s.processed ∧ s.notifyMergeGet = false
  | .waiting call _ | .checking call =>
    call < s.calls ∧ (s.notifyMergeGet = true → (call, s.lastts call) ∈ s.answered) ∧
      (call ∈ s.processed → s.notifyMergeGet = true)
  | .resetting call result processed | .leaving call result processed =>
    call < s.calls ∧ (result = true → (call, s.lastts call) ∈ s.answered) ∧
      (result = false → processed = false)

structure Invariant (s : LastTime) : Prop where
  answered : ∀ r ∈ s.answered, r.1 < s.calls
  requests : ∀ call ∈ s.requests, call < s.calls ∧ ∀ ts, (call, ts) ∉ s.answered
  nodup : s.requests.Nodup
  once : ∀ call ts ts', (call, ts) ∈ s.answered → (call, ts') ∈ s.answered → ts = ts'
  responses : ∀ r ∈ s.responses, r ∈ s.answered
  processed : ∀ call ∈ s.processed, call < s.calls
  handlers : ∀ h ∈ s.handlers, HandlerOk s h
  caller : CallerOk s s.caller
  results : ResultsRight s

variable {s s' : LastTime}

/-- More answers and other writes, as long as a time that was right stays right. -/
theorem CallerOk.mono {c : CallerAt} (h : CallerOk s c) (hcalls : s'.calls = s.calls)
    (hnotify : s'.notifyMergeGet = s.notifyMergeGet) (hprocessed : s'.processed = s.processed)
    (htime : ∀ {n : Nat}, (n, s.lastts n) ∈ s.answered → (n, s'.lastts n) ∈ s'.answered) :
    CallerOk s' c := by
  cases c with
  | idle => exact trivial
  | sent call =>
    rw [CallerOk, hcalls, hprocessed]
    exact h
  | cleared call =>
    rw [CallerOk, hcalls, hprocessed, hnotify]
    exact h
  | waiting call lcnt | checking call =>
    rw [CallerOk, hcalls, hprocessed, hnotify]
    exact ⟨h.1, fun hn => htime (h.2.1 hn), h.2.2⟩
  | resetting call result processed | leaving call result processed =>
    rw [CallerOk, hcalls]
    exact ⟨h.1, fun hn => htime (h.2.1 hn), h.2.2⟩

theorem start_invariant : Invariant start where
  answered _ hr := absurd hr List.not_mem_nil
  requests _ hn := absurd hn List.not_mem_nil
  nodup := List.nodup_nil
  once _ _ _ hr := absurd hr List.not_mem_nil
  responses _ hr := absurd hr List.not_mem_nil
  processed _ hn := absurd hn List.not_mem_nil
  handlers _ hh := absurd hh List.not_mem_nil
  caller := trivial
  results _ hr := absurd hr List.not_mem_nil

/-- A new call has a number of its own. -/
theorem call_invariant (h : Invariant s) {lastts : Timespec} {isSent : Bool}
    (hs : s.call lastts isSent = some s') : Invariant s' := by
  rw [call] at hs
  split at hs
  · cases hs
  · have hold : ∀ n < s.calls, Function.update s.lastts s.calls lastts n = s.lastts n :=
      fun n hn => Function.update_of_ne (Nat.ne_of_lt hn) _ _
    have hhandlers : ∀ hd ∈ s.handlers, (hd.request, hd.ts) ∈ s.answered ∧
        match hd.pc with
        | .test | .nsec => True
        | .sec => (Function.update s.lastts s.calls lastts hd.request).nsec = hd.ts.nsec
        | .notify written =>
          written = true → Function.update s.lastts s.calls lastts hd.request = hd.ts := by
      intro hd hmem
      obtain ⟨hans, hpc⟩ := h.handlers hd hmem
      rw [hold _ (h.answered _ hans)]
      exact ⟨hans, hpc⟩
    have hlt : ∀ {n : Nat}, n < s.calls → n < s.calls + 1 := Nat.lt_succ_of_lt
    dsimp only at hs
    split at hs
    · obtain rfl := Option.some.inj hs
      have hnew : s.calls ∉ s.requests := fun hmem =>
        Nat.lt_irrefl _ (h.requests _ hmem).1
      exact {
        answered := fun r hr => hlt (h.answered r hr)
        requests := fun n hn => by
          rcases List.mem_cons.mp hn with rfl | hn
          · exact ⟨Nat.lt_succ_self _, fun ts hts => Nat.lt_irrefl _ (h.answered _ hts)⟩
          · exact ⟨hlt (h.requests n hn).1, (h.requests n hn).2⟩
        nodup := List.nodup_cons.mpr ⟨hnew, h.nodup⟩
        once := h.once
        responses := h.responses
        processed := fun n hn => hlt (h.processed n hn)
        handlers := hhandlers
        caller := ⟨Nat.lt_succ_self _, fun hmem => Nat.lt_irrefl _ (h.processed _ hmem)⟩
        results := h.results }
    · obtain rfl := Option.some.inj hs
      exact {
        answered := fun r hr => hlt (h.answered r hr)
        requests := fun n hn => ⟨hlt (h.requests n hn).1, (h.requests n hn).2⟩
        nodup := h.nodup
        once := h.once
        responses := h.responses
        processed := fun n hn => hlt (h.processed n hn)
        handlers := hhandlers
        caller := trivial
        results := fun r hr => by
          rcases List.mem_cons.mp hr with rfl | hr
          · exact ⟨fun hf => Bool.noConfusion hf, fun _ => rfl⟩
          · exact h.results r hr }

theorem callerStep_invariant (h : Invariant s) (hs : s.callerStep = some s') : Invariant s' := by
  have hcaller := h.caller
  rw [callerStep] at hs
  -- every statement but the last changes the caller's place, the flag and the pointer alone
  have hmove : ∀ {c : CallerAt} {notify : Bool} {pres : Option Nat},
      CallerOk { s with caller := c, notifyMergeGet := notify, presLasttime := pres } c →
        Invariant { s with caller := c, notifyMergeGet := notify, presLasttime := pres } :=
    fun hc => ⟨h.answered, h.requests, h.nodup, h.once, h.responses, h.processed, h.handlers, hc,
      h.results⟩
  cases hc : s.caller with
  | idle =>
    rw [hc] at hs
    cases hs
  | sent call =>
    rw [hc] at hs hcaller
    obtain rfl := Option.some.inj hs
    exact hmove ⟨hcaller.1, hcaller.2, rfl⟩
  | cleared call =>
    rw [hc] at hs hcaller
    obtain rfl := Option.some.inj hs
    refine hmove ⟨hcaller.1, fun hn => ?_, fun hp => absurd hp hcaller.2.1⟩
    rw [hcaller.2.2] at hn
    cases hn
  | waiting call lcnt =>
    rw [hc] at hs hcaller
    dsimp only at hs
    split at hs
    · obtain rfl := Option.some.inj hs
      exact hmove hcaller
    · obtain rfl := Option.some.inj hs
      exact hmove hcaller
  | checking call =>
    rw [hc] at hs hcaller
    obtain rfl := Option.some.inj hs
    refine hmove ⟨hcaller.1, hcaller.2.1, fun hn => decide_eq_false fun hp => ?_⟩
    rw [hcaller.2.2 hp] at hn
    cases hn
  | resetting call result processed =>
    rw [hc] at hs hcaller
    obtain rfl := Option.some.inj hs
    exact hmove hcaller
  | leaving call result processed =>
    rw [hc] at hs hcaller
    obtain rfl := Option.some.inj hs
    refine ⟨h.answered, h.requests, h.nodup, h.once, h.responses, h.processed, h.handlers,
      trivial, fun r hr => ?_⟩
    rcases List.mem_cons.mp hr with rfl | hr
    · exact hcaller.2
    · exact h.results r hr

theorem answer_invariant (h : Invariant s) {n : Nat} {ts : Timespec}
    (hs : s.answer n ts = some s') : Invariant s' := by
  rw [answer] at hs
  split at hs
  · cases hs
  · rename_i hreq
    obtain rfl := Option.some.inj hs
    have hn : n ∈ s.requests := Decidable.not_not.mp hreq
    obtain ⟨hlt, hnot⟩ := h.requests n hn
    have hmore : ∀ r ∈ s.answered, r ∈ (n, ts) :: s.answered :=
      fun r hr => List.mem_cons_of_mem _ hr
    exact {
      answered := fun r hr => by
        rcases List.mem_cons.mp hr with rfl | hr
        · exact hlt
        · exact h.answered r hr
      requests := fun k hk => by
        obtain ⟨hne, hk⟩ := h.nodup.mem_erase_iff.mp hk
        refine ⟨(h.requests k hk).1, fun ts' hmem => ?_⟩
        rcases List.mem_cons.mp hmem with he | hmem
        · exact hne (congrArg Prod.fst he)
        · exact (h.requests k hk).2 ts' hmem
      nodup := h.nodup.erase n
      once := fun k ts₁ ts₂ h₁ h₂ => by
        rcases List.mem_cons.mp h₁ with he₁ | hold₁ <;>
          rcases List.mem_cons.mp h₂ with he₂ | hold₂
        · exact (congrArg Prod.snd he₁).trans (congrArg Prod.snd he₂).symm
        · obtain ⟨rfl, -⟩ := Prod.mk.inj he₁
          exact absurd hold₂ (hnot ts₂)
        · obtain ⟨rfl, -⟩ := Prod.mk.inj he₂
          exact absurd hold₁ (hnot ts₁)
        · exact h.once k ts₁ ts₂ hold₁ hold₂
      responses := fun r hr => by
        rcases List.mem_cons.mp hr with rfl | hr
        · exact List.mem_cons_self
        · exact hmore r (h.responses r hr)
      processed := h.processed
      handlers := fun hd hmem => ⟨hmore _ (h.handlers hd hmem).1, (h.handlers hd hmem).2⟩
      caller := h.caller.mono rfl rfl rfl fun hn => hmore _ hn
      results := fun r hr => ⟨fun hn => hmore _ ((h.results r hr).1 hn), (h.results r hr).2⟩ }

theorem arrive_invariant (h : Invariant s) {i : Nat} (hs : s.arrive i = some s') :
    Invariant s' := by
  obtain ⟨r, hr, rfl⟩ := Option.map_eq_some_iff.mp hs
  refine ⟨h.answered, h.requests, h.nodup, h.once,
    fun r hr => h.responses r (List.mem_of_mem_eraseIdx hr), h.processed, fun hd hmem => ?_,
    h.caller, h.results⟩
  rcases List.mem_cons.mp hmem with rfl | hmem
  · exact ⟨h.responses r (List.mem_of_getElem? hr), trivial⟩
  · exact h.handlers hd hmem

/-- A handler that writes for its own call, and has nothing to take back of what others wrote. -/
theorem Invariant.write (h : Invariant s) {i : Nat} {hd : Handler} {time : Timespec}
    {pc : HandlerAt} (hmem : hd ∈ s.handlers)
    (hsame : s.lastts hd.request = hd.ts → time = hd.ts)
    (hnsec : (s.lastts hd.request).nsec = hd.ts.nsec → time.nsec = hd.ts.nsec)
    (hpc : HandlerOk { s with lastts := Function.update s.lastts hd.request time }
      { hd with pc := pc }) :
    Invariant { s with
      lastts := Function.update s.lastts hd.request time
      handlers := s.handlers.set i { hd with pc := pc } } := by
  have hans := (h.handlers hd hmem).1
  have hkeep : ∀ {n : Nat} {ts : Timespec}, (n, ts) ∈ s.answered →
      (s.lastts n = ts → Function.update s.lastts hd.request time n = ts) ∧
        ((s.lastts n).nsec = ts.nsec →
          (Function.update s.lastts hd.request time n).nsec = ts.nsec) := by
    intro n ts hts
    by_cases hn : n = hd.request
    · subst hn
      obtain rfl := h.once _ _ _ hts hans
      rw [Function.update_self]
      exact ⟨hsame, hnsec⟩
    · rw [Function.update_of_ne hn]
      exact ⟨id, id⟩
  have htime : ∀ {n : Nat}, (n, s.lastts n) ∈ s.answered →
      (n, Function.update s.lastts hd.request time n) ∈ s.answered := by
    intro n hn
    rw [(hkeep hn).1 rfl]
    exact hn
  refine ⟨h.answered, h.requests, h.nodup, h.once, h.responses, h.processed, fun k hk => ?_, ?_,
    h.results⟩
  · rcases List.mem_or_eq_of_mem_set hk with hk | rfl
    · obtain ⟨hkans, hkpc⟩ := h.handlers k hk
      refine ⟨hkans, ?_⟩
      split at hkpc
      · exact trivial
      · exact trivial
      · exact (hkeep hkans).2 hkpc
      · exact fun hw => (hkeep hkans).1 (hkpc hw)
    · exact hpc
  · exact h.caller.mono rfl rfl rfl htime

theorem handle_invariant (h : Invariant s) {i : Nat} (htime : s.inTime (.handle i) = true)
    (hs : s.handle i = some s') : Invariant s' := by
  rw [handle] at hs
  cases hget : s.handlers[i]? with
  | none =>
    rw [hget] at hs
    cases hs
  | some hd =>
    have hmem := List.mem_of_getElem? hget
    obtain ⟨hans, hpc⟩ := h.handlers hd hmem
    rw [inTime, hget] at htime
    rw [hget] at hs
    dsimp only at hs htime
    cases hat : hd.pc with
    | test =>
      rw [hat] at hs
      obtain rfl := Option.some.inj hs
      refine ⟨h.answered, h.requests, h.nodup, h.once, h.responses, h.processed,
        fun k hk => ?_, h.caller, h.results⟩
      rcases List.mem_or_eq_of_mem_set hk with hk | rfl
      · exact h.handlers k hk
      · refine ⟨hans, ?_⟩
        cases s.presLasttime with
        | none => exact fun hw => Bool.noConfusion hw
        | some call => exact trivial
    | nsec =>
      rw [hat] at hs htime
      obtain ⟨call, hpres, rfl⟩ := Option.map_eq_some_iff.mp hs
      obtain rfl := Option.some.inj ((of_decide_eq_true htime).symm.trans hpres)
      refine h.write hmem (fun he => by rw [he]) (fun _ => rfl) ⟨hans, ?_⟩
      show (Function.update s.lastts hd.request _ hd.request).nsec = hd.ts.nsec
      rw [Function.update_self]
    | sec =>
      rw [hat] at hs htime hpc
      obtain ⟨call, hpres, rfl⟩ := Option.map_eq_some_iff.mp hs
      obtain rfl := Option.some.inj ((of_decide_eq_true htime).symm.trans hpres)
      refine h.write hmem (fun he => by rw [he]) id ⟨hans, fun _ => ?_⟩
      show Function.update s.lastts hd.request _ hd.request = hd.ts
      rw [Function.update_self]
      exact Timespec.ext rfl hpc
    | notify written =>
      rw [hat] at hs htime hpc
      obtain rfl := Option.some.inj hs
      refine ⟨h.answered, h.requests, h.nodup, h.once, h.responses, fun n hn => ?_,
        fun k hk => h.handlers k (List.mem_of_mem_eraseIdx hk), ?_, h.results⟩
      · rcases List.mem_cons.mp hn with rfl | hn
        · exact h.answered _ hans
        · exact h.processed n hn
      · have hold := h.caller
        show CallerOk _ s.caller
        cases hc : s.caller with
        | idle => exact trivial
        | sent call =>
          rw [hc] at hold htime
          refine ⟨hold.1, fun hmem => ?_⟩
          rcases List.mem_cons.mp hmem with he | hmem
          · exact of_decide_eq_true htime he
          · exact hold.2 hmem
        | cleared call =>
          rw [hc] at htime
          cases htime
        | waiting call lcnt | checking call =>
          rw [hc] at hold htime
          obtain ⟨hown, hw⟩ := Bool.and_eq_true_iff.mp htime
          obtain rfl := of_decide_eq_true hown
          refine ⟨hold.1, fun _ => ?_, fun _ => rfl⟩
          show (hd.request, s.lastts hd.request) ∈ s.answered
          rw [hpc hw]
          exact hans
        | resetting call result processed | leaving call result processed =>
          rw [hc] at hold
          exact hold

theorem step_invariant {e : LastTimeEvent} (h : Invariant s) (htime : s.inTime e = true)
    (hs : s.step e = some s') : Invariant s' := by
  cases e with
  | call lastts isSent => exact call_invariant h hs
  | caller => exact callerStep_invariant h hs
  | answer call ts => exact answer_invariant h hs
  | arrive i => exact arrive_invariant h hs
  | handle i => exact handle_invariant h htime hs

/-- When every handler is in time, every call returns what it should. -/
theorem run_right (h : steps.Reachable inTime s) : ResultsRight s := by
  have hinv : Invariant s := h.invariant (fun _ hs => hs ▸ start_invariant) step_invariant
  exact hinv.results

/-- A call whose response comes while it waits. -/
def answeredEvents : List LastTimeEvent :=
  [.call ⟨0, 0⟩ true, .caller, .caller, .answer 0 ⟨7, 5⟩, .arrive 0, .handle 0, .handle 0,
    .handle 0, .handle 0, .caller, .caller, .caller, .caller]

/-- The response is handled when the flag is cleared and the pointer is not set. -/
def earlyEvents : List LastTimeEvent :=
  [.call ⟨0, 0⟩ true, .caller, .answer 0 ⟨7, 5⟩, .arrive 0, .handle 0, .handle 0, .caller, .caller,
    .caller, .caller, .caller]

theorem run_right_sample : ∃ s, s.results = [⟨0, true, ⟨7, 5⟩, true⟩] ∧ ResultsRight s := by
  obtain ⟨s, hs, hresults⟩ := Steps.reached steps inTime results rfl
    (by decide : (steps.run inTime start answeredEvents).map results =
      some [⟨0, true, ⟨7, 5⟩, true⟩])
  exact ⟨s, hresults, run_right hs⟩

/-- The call returns true with the time that its variable had before. -/
theorem run_lost : ∃ s, steps.Reachable Steps.anyStep s ∧
    s.results = [⟨0, true, ⟨0, 0⟩, true⟩] ∧ s.answered = [(0, ⟨7, 5⟩)] ∧ ¬ResultsRight s := by
  obtain ⟨s, hs, hend⟩ := Steps.reached steps Steps.anyStep
    (fun s => (s.results, s.answered)) rfl
    (by decide : (steps.run Steps.anyStep start earlyEvents).map
      (fun s => (s.results, s.answered)) =
        some ([⟨0, true, ⟨0, 0⟩, true⟩], [(0, ⟨7, 5⟩)]))
  obtain ⟨hres, hans⟩ := Prod.mk.inj hend
  refine ⟨s, hs, hres, hans, fun hright => ?_⟩
  have htrue := (hright ⟨0, true, ⟨0, 0⟩, true⟩ (hres ▸ List.mem_cons_self)).1 rfl
  rw [hans] at htrue
  exact absurd htrue (by decide)

end LastTime
end Chm
