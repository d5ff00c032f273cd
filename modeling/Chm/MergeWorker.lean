/-
The merge worker of a client, and the packets that wake and stop it.

The thread that receives packets and the worker share a list of parameters and a flag.  The
receiver puts a parameter on the list under a lock and then looks whether the worker runs;
the worker leaves when it sees an empty list or a cleared flag.  A step is what one thread
does up to the next point where the other can come in.
-/
import Chm.Lib.Progress

namespace Chm

/-- `CHM_UPDATA_PARAM`, with the number of its request. -/
structure MergeParam where
  number : Nat
  chmpxid : Nat
  deriving DecidableEq, Repr

/-- A turn of the inner loop: whether `mgetfunc` had data, what came of sending each, whether
the merge has timed out, and the next hash. -/
structure MergeRound where
  got : Bool
  sent : List Bool
  timeouted : Bool
  nexthash : Nat

/-- No turn after this one. -/
def MergeRound.isLast (r : MergeRound) : Bool := !r.got || r.timeouted || r.nexthash = 0

def MergeRound.result (r : MergeRound) : Bool := !r.got || r.sent.all id && !r.timeouted

/-- Where the worker is: `loop` and `gather` are before the flag is read, `take` before the
list is locked, `answer` before the result is put together and `send` before it is sent.  It
is `left` until its status is EXIT, and `exited` until it is joined. -/
inductive MergeThread
  | none
  | loop
  | take
  | gather (param : MergeParam) (result : Bool) (round : Nat)
  | fetch (param : MergeParam) (result : Bool) (round : Nat)
  | answer (param : MergeParam) (result : Bool)
  | send (param : MergeParam) (result : Bool)
  | left
  | exited
  deriving DecidableEq, Repr

/-- Where the receiver is: a REQ_UPDATEDATA is `stacked` before `IsThreadRun`, an
ABORT_UPDATEDATA has `emptied` the list before it clears the flag. -/
inductive MergeReceiver
  | idle
  | stacked
  | emptied
  deriving DecidableEq, Repr

/-- `merge_param_list`, `notify_merge_update` and the two threads. -/
structure MergeWorker where
  params : List MergeParam
  notify : Bool
  thread : MergeThread
  receiver : MergeReceiver
  /-- What was put on the list, what was aborted, and the RESULT_UPDATEDATA sent. -/
  queued : List MergeParam
  aborted : List MergeParam
  answers : List (MergeParam × Bool)
  deriving DecidableEq, Repr

/-- `created` and `sent` say whether `CreateThreads` and `PxCltSendResultUpdateData` succeed. -/
inductive MergeOp
  | request (chmpxid : Nat)
  | checkThread (created : Bool)
  | abort
  | clearFlag
  | work (sent : Bool)

namespace MergeThread

/-- The parameter in the worker's hand. -/
def param : MergeThread → Option MergeParam
  | gather p _ _ | fetch p _ _ | answer p _ | send p _ => some p
  | none | loop | take | left | exited => Option.none

/-- The same with the result up to here, before the flag is read for the answer. -/
def undecided : MergeThread → Option (MergeParam × Bool)
  | gather p result _ | fetch p result _ | answer p result => some (p, result)
  | send .. | none | loop | take | left | exited => Option.none

/-- The worker is on its way to the list. -/
def active : MergeThread → Bool
  | loop | take | gather .. | fetch .. | answer .. | send .. => true
  | none | left | exited => false

end MergeThread

namespace MergeWorker

variable (mgetfunc : MergeParam → Nat → MergeRound)

/-- `PxCltReceiveRequestUpdateData` of a client that has a merge get function, to the unlock. -/
def request (chmpxid : Nat) (s : MergeWorker) : MergeWorker :=
  if s.receiver = .idle then
    let param := ⟨s.queued.length, chmpxid⟩
    { s with
      params := s.params ++ [param]
      notify := true
      receiver := .stacked
      queued := param :: s.queued }
  else s

/-- `IsThreadRun`, which joins a worker that has exited, and `CreateThreads`. -/
def checkThread (created : Bool) (s : MergeWorker) : MergeWorker :=
  if s.receiver = .stacked then
    match s.thread with
    | .none | .exited => { s with thread := if created then .loop else .none, receiver := .idle }
    | _ => { s with receiver := .idle }
  else s

/-- `PxCltReceiveAbortUpdateData`, to the unlock. -/
def abort (s : MergeWorker) : MergeWorker :=
  if s.receiver = .idle then
    { s with params := [], receiver := .emptied, aborted := s.params ++ s.aborted }
  else s

/-- The rest of it: what the worker has in its hand is aborted as well. -/
def clearFlag (s : MergeWorker) : MergeWorker :=
  if s.receiver = .emptied then
    { s with
      notify := false
      receiver := .idle
      aborted := s.thread.param.toList ++ s.aborted }
  else s

/-- A step of `MergeWorkerFunc`, and the end of `ChmThread::WorkerProc`. -/
def work (sent : Bool) (s : MergeWorker) : MergeWorker :=
  match s.thread with
  | .none | .exited => s
  | .loop => { s with thread := if s.notify then .take else .left }
  | .take =>
    match s.params with
    | [] => { s with thread := .left }
    | param :: params => { s with params := params, thread := .gather param true 0 }
  | .gather param result round =>
    { s with thread := if s.notify then .fetch param result round else .answer param result }
  | .fetch param result round =>
    let r := mgetfunc param round
    let result := result && r.result
    { s with
      thread := if r.isLast then .answer param result else .gather param result (round + 1) }
  | .answer param result => { s with thread := .send param (s.notify && result) }
  | .send param result =>
    { s with
      thread := .loop
      answers := if sent then (param, result) :: s.answers else s.answers }
  | .left => { s with thread := .exited }

def exec (s : MergeWorker) : MergeOp → MergeWorker
  | .request chmpxid => s.request chmpxid
  | .checkThread created => s.checkThread created
  | .abort => s.abort
  | .clearFlag => s.clearFlag
  | .work sent => s.work mgetfunc sent

/-- There is no worker yet. -/
def start : MergeWorker := ⟨[], false, .none, .idle, [], [], []⟩

/-- An infinite run. -/
def run (ops : Nat → MergeOp) : Nat → MergeWorker
  | 0 => start
  | t + 1 => exec mgetfunc (run ops t) (ops t)

/-- Both threads go on for ever. -/
structure Fair (ops : Nat → MergeOp) : Prop where
  worker : Progress.Often fun t => ∃ sent, ops t = .work sent
  receiver : Progress.Often fun t => ∃ created, ops t = .checkThread created

/-- A request does not come while the worker holds an aborted parameter that it may still
find good, `IsThreadRun` does not see a worker that has left, and the flag is not cleared
between the reading of it for a success and the answer.  Threads are created and answers
are sent. -/
def StepSafe (s : MergeWorker) : MergeOp → Prop
  | .request _ => s.receiver = .idle → ∀ x ∈ s.thread.undecided, x.2 = true → x.1 ∉ s.aborted
  | .checkThread created => s.receiver = .stacked →
      s.thread ≠ .left ∧ (s.thread = .none ∨ s.thread = .exited → created = true)
  | .abort => True
  | .clearFlag => s.receiver = .emptied → ∀ p ∈ s.thread.param, s.thread ≠ .send p true
  | .work sent => ∀ p ∈ s.thread.param, s.thread = .send p true ∨ s.thread = .send p false →
      sent = true

/-- Each queued parameter is aborted or answered in the end. -/
def AllAnswered (state : Nat → MergeWorker) : Prop :=
  ∀ t, ∀ p ∈ (state t).queued,
    ∃ u, t ≤ u ∧ (p ∈ (state u).aborted ∨ ∃ result, (p, result) ∈ (state u).answers)

/-- No parameter is answered twice, and none that was aborted with success. -/
def AnswersRight (s : MergeWorker) : Prop :=
  (s.answers.map Prod.fst).Nodup ∧ ∀ p ∈ s.aborted, (p, true) ∉ s.answers

end MergeWorker
end Chm
