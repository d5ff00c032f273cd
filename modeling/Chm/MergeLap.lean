/-
The merge of one server, from its start to DONE.

`MergeStart` writes the servers that may have data into `mergeidmap`, and the merge worker sends a
REQ_UPDATEDATA round the ring.  Every server in the list answers in the packet that it has nothing
to do, or gives the work to its client, whose result comes in a packet of its own; the worker
looks into the map until each server has a result.  Neither packet says which merge it is for.
While no merge begins before the worker has left the one before, and no packet of an earlier merge
is counted, every server in the list has exactly one token that is its request, its client's work
or its answer on the way, or its result in the map (`reachable_tokens`), so a merge that is DONE
leaves nothing behind (`reachable_doneQuiet`).
-/
import Chm.EventSock
import Chm.Lib.Steps

namespace Chm

/-- `IS_PXCOM_REQ_UPDATE_RESULT`. -/
def ReqUpdate.isResult : ReqUpdate → Bool
  | .noact | .success | .fail => true
  | .inival | .doing => false

/-- `mergeidmap`, and the list of a REQ_UPDATEDATA. -/
abbrev ReqIdMap := List (ChmpxId × ReqUpdate)

namespace ReqIdMap

/-- What stands for a server. -/
def entry (n : ChmpxId) (l : ReqIdMap) : Option ReqUpdate := (l.find? fun p => p.1 = n).map (·.2)

/-- `mergeidmap[n] = e`. -/
def set (n : ChmpxId) (e : ReqUpdate) : ReqIdMap → ReqIdMap
  | [] => [(n, e)]
  | p :: l => if p.1 = n then (n, e) :: l else p :: set n e l

/-- The write through `pOwnMap`, which points to the last place of the own chmpxid. -/
def setOwn (self : ChmpxId) (e : ReqUpdate) : ReqIdMap → ReqIdMap
  | [] => []
  | p :: l => if p.1 = self ∧ self ∉ l.map (·.1) then (p.1, e) :: l else p :: setOwn self e l

/-- The packet is back: its list goes into the map, but not over a result. -/
def takeBack (m packet : ReqIdMap) : ReqIdMap :=
  packet.foldl (fun m p => if (entry p.1 m).any ReqUpdate.isResult then m else set p.1 p.2 m) m

/-- What the worker waits for. -/
def allFinish (m : ReqIdMap) : Bool := m.all fun p => p.2.isResult

end ReqIdMap

/-- What a server that is in the list of a packet answers, from its own status and whether the
request has got to its client. -/
def reqUpdateAnswer (status : ChmpxSts) (isSent : Bool) : ReqUpdate :=
  if (status.isNoact || status.isDelete) && status.isNosup then
    if isSent then .doing else .fail
  else .noact

/-- A REQ_UPDATEDATA: the merge that it is for, the servers that it has before it on the ring,
and its list. -/
structure ReqPacket where
  number : Nat
  ahead : List ChmpxId
  idmap : ReqIdMap
  deriving DecidableEq

/-- A RESULT_UPDATEDATA: the merge whose work the client has done, its server, and how it went. -/
structure ResultPacket where
  number : Nat
  chmpxid : ChmpxId
  ok : Bool
  deriving DecidableEq

def ResultPacket.result (r : ResultPacket) : ReqUpdate := if r.ok then .success else .fail

/-- Where the merge worker is: outside of `MergeWorkerFunc`, in its loop, or behind the loop before
`MergeDone`. -/
inductive MergeWorkerAt
  | idle
  | waiting
  | finished
  deriving DecidableEq, Repr

/-- The server that merges, what is on the way and what the clients of the other servers work on.
The number counts the merges; `calls` is the work that is given to the thread and not begun;
`lost` says that something of the last merge has got lost, and `done` are the merges whose
status has become DONE. -/
structure MergeLap where
  number : Nat
  isRunMerge : Bool
  calls : Nat
  worker : MergeWorkerAt
  mergeidmap : ReqIdMap
  reqs : List ReqPacket
  works : List (Nat × ChmpxId)
  results : List ResultPacket
  done : List Nat
  lost : Bool

/-- `start` is `MergeStart` with the targets, `call` the beginning of `MergeWorkerFunc` with the
servers that the packet is to pass; `hop` is the packet at its next server, `skip` the next server
going down before that, `back` its return; `finish` is `MergeDone` after the loop. -/
inductive MergeEvent
  | start (ids : List ChmpxId)
  | abort
  | call (ring : List ChmpxId) (isSent : Bool)
  | poll
  | finish
  | hop (r : ReqPacket) (status : ChmpxSts) (isSent : Bool)
  | skip (r : ReqPacket)
  | dropReq (r : ReqPacket)
  | back (r : ReqPacket)
  | answer (w : Nat × ChmpxId) (ok : Bool)
  | dropWork (w : Nat × ChmpxId)
  | deliver (r : ResultPacket)
  | dropResult (r : ResultPacket)

namespace MergeLap

open ReqIdMap

/-- The packet goes on behind the server `self`, which may be in its list. -/
def hop (r : ReqPacket) (status : ChmpxSts) (isSent : Bool) (s : MergeLap) : Option MergeLap :=
  match r.ahead with
  | [] => none
  | self :: ahead =>
    if r ∉ s.reqs then none
    else if self ∈ r.idmap.map (·.1) then
      let e := reqUpdateAnswer status isSent
      some { s with
        reqs := { r with ahead := ahead, idmap := setOwn self e r.idmap } :: s.reqs.erase r
        works := if e = ReqUpdate.doing then (r.number, self) :: s.works else s.works }
    else some { s with reqs := { r with ahead := ahead } :: s.reqs.erase r }

/-- `PxComReceiveResultUpdateData`. -/
def deliver (r : ResultPacket) (s : MergeLap) : Option MergeLap :=
  if r ∉ s.results then none
  else if r.chmpxid ∈ s.mergeidmap.map (·.1) then
    some { s with
      results := s.results.erase r
      mergeidmap := set r.chmpxid r.result s.mergeidmap }
  else some { s with results := s.results.erase r }

/-- Something of a merge gets lost. -/
def lose (number : Nat) (s : MergeLap) : MergeLap :=
  { s with lost := s.lost || number = s.number }

def step (s : MergeLap) : MergeEvent → Option MergeLap
  | .start ids =>
    if s.isRunMerge || ids = [] || !ids.Nodup then none
    else some { s with
      number := s.number + 1
      isRunMerge := true
      calls := s.calls + 1
      mergeidmap := ids.map fun n => (n, .inival)
      lost := false }
  | .abort => some { s with isRunMerge := false }
  | .call ring isSent =>
    if s.worker ≠ .idle || s.calls = 0 || !ring.Nodup then none
    else if isSent then some { s with
      calls := s.calls - 1
      worker := .waiting
      reqs := ⟨s.number, ring, s.mergeidmap⟩ :: s.reqs }
    else some ({ s with calls := s.calls - 1, isRunMerge := false }.lose s.number)
  | .poll =>
    if s.worker ≠ .waiting then none
    else if !s.isRunMerge then some { s with worker := .idle }
    else some { s with worker := if s.mergeidmap.allFinish then .finished else .waiting }
  | .finish =>
    if s.worker ≠ .finished then none
    else if !s.isRunMerge then some { s with worker := .idle }
    else some { s with worker := .idle, isRunMerge := false, done := s.number :: s.done }
  | .hop r status isSent => s.hop r status isSent
  | .skip r =>
    match r.ahead with
    | [] => none
    | _ :: ahead =>
      if r ∉ s.reqs then none
      else some { s with reqs := { r with ahead := ahead } :: s.reqs.erase r }
  | .dropReq r =>
    if r ∉ s.reqs then none else some ({ s with reqs := s.reqs.erase r }.lose r.number)
  | .back r =>
    if r ∉ s.reqs || r.ahead ≠ [] then none
    else
      let s' := { s with
        reqs := s.reqs.erase r
        mergeidmap := s.mergeidmap.takeBack r.idmap }
      -- A server that the packet has not met will not answer.
      some (if r.idmap.all fun p => p.2 ≠ .inival then s' else s'.lose r.number)
  | .answer w ok =>
    if w ∉ s.works then none
    else some { s with works := s.works.erase w, results := ⟨w.1, w.2, ok⟩ :: s.results }
  | .dropWork w =>
    if w ∉ s.works then none else some ({ s with works := s.works.erase w }.lose w.1)
  | .deliver r => s.deliver r
  | .dropResult r =>
    if r ∉ s.results then none else some ({ s with results := s.results.erase r }.lose r.number)

def fresh : MergeLap where
  number := 0
  isRunMerge := false
  calls := 0
  worker := .idle
  mergeidmap := []
  reqs := []
  works := []
  results := []
  done := []
  lost := false

def steps : Steps MergeLap MergeEvent := ⟨(· = fresh), step⟩

/-- A merge begins when the worker has left the one before, and what comes in is of this merge. -/
def inOrder (s : MergeLap) : MergeEvent → Bool
  | .start _ => s.worker = .idle && s.calls = 0
  | .back r => r.number = s.number
  | .deliver r => r.number = s.number
  | _ => true

/-! ## The list -/

end MergeLap

namespace ReqIdMap

variable {n k : ChmpxId} {e : ReqUpdate} {l m packet : ReqIdMap}

theorem entry_cons (p : ChmpxId × ReqUpdate) (l : ReqIdMap) :
    entry n (p :: l) = if p.1 = n then some p.2 else entry n l := by
  unfold entry
  by_cases hp : p.1 = n
  · rw [List.find?_cons_of_pos (by simpa using hp), if_pos hp]
    rfl
  · rw [List.find?_cons_of_neg (by simpa using hp), if_neg hp]

theorem entry_isSome_iff : (entry n l).isSome = true ↔ n ∈ l.map (·.1) := by
  induction l with
  | nil => exact ⟨fun h => (Bool.false_ne_true h).elim, fun h => (List.not_mem_nil h).elim⟩
  | cons p l ih =>
    rw [entry_cons, List.map_cons, List.mem_cons]
    by_cases hp : p.1 = n
    · rw [if_pos hp]
      exact iff_of_true rfl (Or.inl hp.symm)
    · rw [if_neg hp, ih]
      exact ⟨Or.inr, fun h => h.resolve_left fun he => hp he.symm⟩

theorem entry_eq_none (h : n ∉ l.map (·.1)) : entry n l = none :=
  Option.not_isSome_iff_eq_none.mp fun hs => h (entry_isSome_iff.mp hs)

theorem entry_set (k : ChmpxId) (e : ReqUpdate) (l : ReqIdMap) :
    entry n (set k e l) = if n = k then some e else entry n l := by
  induction l with
  | nil =>
    rw [set, entry_cons]
    exact if_congr eq_comm rfl rfl
  | cons p l ih =>
    rw [set]
    split
    · rename_i hp
      rw [entry_cons, entry_cons, hp]
      by_cases hn : n = k
      · rw [if_pos hn.symm, if_pos hn]
      · rw [if_neg (Ne.symm hn), if_neg hn, if_neg (Ne.symm hn)]
    · rename_i hp
      rw [entry_cons, entry_cons, ih]
      by_cases hn : n = k
      · rw [if_neg fun he => hp (he.trans hn), if_pos hn, if_pos hn]
      · rw [if_neg hn, if_neg hn]

theorem keys_set (h : n ∈ l.map (·.1)) : (set n e l).map (·.1) = l.map (·.1) := by
  induction l with
  | nil => exact absurd h List.not_mem_nil
  | cons p l ih =>
    rw [set]
    split
    · rename_i hp
      rw [List.map_cons, List.map_cons, hp]
    · rename_i hp
      rw [List.map_cons, List.map_cons, ih ((List.mem_cons.mp h).resolve_left fun he => hp he.symm)]

theorem keys_setOwn (self : ChmpxId) (e : ReqUpdate) (l : ReqIdMap) :
    (setOwn self e l).map (·.1) = l.map (·.1) := by
  induction l with
  | nil => rfl
  | cons p l ih =>
    rw [setOwn]
    split
    · rfl
    · rw [List.map_cons, List.map_cons, ih]

theorem entry_setOwn (hnd : (l.map (·.1)).Nodup) (hk : k ∈ l.map (·.1)) :
    entry n (setOwn k e l) = if n = k then some e else entry n l := by
  induction l with
  | nil => exact absurd hk List.not_mem_nil
  | cons p l ih =>
    rw [List.map_cons, List.nodup_cons] at hnd
    rw [setOwn]
    by_cases hp : p.1 = k
    · rw [if_pos ⟨hp, hp ▸ hnd.1⟩, entry_cons, entry_cons, hp]
      by_cases hn : n = k
      · rw [if_pos hn.symm, if_pos hn]
      · rw [if_neg (Ne.symm hn), if_neg hn, if_neg (Ne.symm hn)]
    · have hk' : k ∈ l.map (·.1) := (List.mem_cons.mp hk).resolve_left (Ne.symm hp)
      rw [if_neg fun hboth => hp hboth.1, entry_cons, entry_cons, ih hnd.2 hk']
      by_cases hn : n = k
      · rw [if_neg fun he => hp (he.trans hn), if_pos hn, if_pos hn]
      · rw [if_neg hn, if_neg hn]

/-- What stands for a server after the packet is back. -/
theorem entry_takeBack (hnd : (packet.map (·.1)).Nodup) :
    entry n (takeBack m packet) =
      if (entry n m).any ReqUpdate.isResult then entry n m else (entry n packet).or (entry n m) := by
  induction packet generalizing m with
  | nil => exact (ite_self _).symm
  | cons p packet ih =>
    rw [List.map_cons, List.nodup_cons] at hnd
    rw [takeBack, List.foldl_cons]
    refine (ih hnd.2).trans ?_
    rw [entry_cons]
    by_cases hp : p.1 = n
    · have hnone : entry n packet = none := entry_eq_none (hp ▸ hnd.1)
      rw [if_pos hp, hnone, hp, Option.none_or, ite_self]
      split
      · rfl
      · rw [entry_set, if_pos rfl]
        rfl
    · have hsame : entry n (if (entry p.1 m).any ReqUpdate.isResult then m else set p.1 p.2 m) =
          entry n m := by
        split
        · rfl
        · rw [entry_set, if_neg (Ne.symm hp)]
      rw [if_neg hp, hsame]

theorem keys_takeBack (h : ∀ p ∈ packet, p.1 ∈ m.map (·.1)) :
    (takeBack m packet).map (·.1) = m.map (·.1) := by
  induction packet generalizing m with
  | nil => rfl
  | cons p packet ih =>
    have hkeys : (if (entry p.1 m).any ReqUpdate.isResult then m else set p.1 p.2 m).map (·.1) =
        m.map (·.1) := by
      split
      · rfl
      · exact keys_set (h p List.mem_cons_self)
    rw [takeBack, List.foldl_cons]
    refine (ih fun q hq => ?_).trans hkeys
    rw [hkeys]
    exact h q (List.mem_cons_of_mem p hq)

theorem entry_of_mem (hnd : (l.map (·.1)).Nodup) {p : ChmpxId × ReqUpdate} (hp : p ∈ l) :
    entry p.1 l = some p.2 := by
  induction l with
  | nil => exact absurd hp List.not_mem_nil
  | cons q l ih =>
    rw [List.map_cons, List.nodup_cons] at hnd
    rw [entry_cons]
    rcases List.mem_cons.mp hp with rfl | hp
    · exact if_pos rfl
    · have hne : q.1 ≠ p.1 := fun he => hnd.1 (he ▸ List.mem_map_of_mem hp)
      rw [if_neg hne, ih hnd.2 hp]

/-- The worker's loop ends when every server has a result. -/
theorem allFinish_iff (hnd : (l.map (·.1)).Nodup) :
    l.allFinish = true ↔ ∀ n ∈ l.map (·.1), (entry n l).any ReqUpdate.isResult = true := by
  rw [allFinish, List.all_eq_true]
  constructor
  · intro h n hn
    obtain ⟨p, hp, rfl⟩ := List.mem_map.mp hn
    rw [entry_of_mem hnd hp]
    exact h p hp
  · intro h p hp
    have hres := h p.1 (List.mem_map_of_mem hp)
    rw [entry_of_mem hnd hp] at hres
    exact hres

end ReqIdMap

namespace MergeLap

open ReqIdMap

variable {s s' : MergeLap} {n k : ChmpxId} {r : ReqPacket} {res : ResultPacket} {w : Nat × ChmpxId}

/-! ## Tokens -/

/-- The packet is of this merge, and the server is still to be asked or has said in it that it has
no work. -/
def reqToken (number : Nat) (n : ChmpxId) (r : ReqPacket) : Bool :=
  decide (r.number = number) && (n ∈ r.ahead || entry n r.idmap ≠ some .doing)

def workToken (number : Nat) (n : ChmpxId) (w : Nat × ChmpxId) : Bool := w = (number, n)

def resultToken (number : Nat) (n : ChmpxId) (r : ResultPacket) : Bool :=
  decide (r.number = number) && decide (r.chmpxid = n)

/-- The server has a result in the map. -/
def hasResult (s : MergeLap) (n : ChmpxId) : Bool := (entry n s.mergeidmap).any ReqUpdate.isResult

/-- The tokens of a server in the merge. -/
def tokens (s : MergeLap) (n : ChmpxId) : Nat :=
  s.calls + s.works.countP (workToken s.number n) + s.results.countP (resultToken s.number n) +
    s.reqs.countP (reqToken s.number n) + (s.hasResult n).toNat

/-- Something of the merge is still to come for the server. -/
def Waits (s : MergeLap) (n : ChmpxId) : Prop :=
  (s.number, n) ∈ s.works ∨ (∃ r ∈ s.results, r.number = s.number ∧ r.chmpxid = n) ∨
    ∃ r ∈ s.reqs, r.number = s.number ∧ (n ∈ r.ahead ∨ entry n r.idmap ≠ some .doing)

/-- Nothing of a merge is left that could ask a server for work or bring a result. -/
def Quiet (k : Nat) (s : MergeLap) : Prop :=
  (∀ w ∈ s.works, w.1 ≠ k) ∧ (∀ r ∈ s.results, r.number ≠ k) ∧
    ∀ r ∈ s.reqs, r.number = k → ∀ n ∈ r.ahead, n ∉ r.idmap.map (·.1)

/-- A packet that was made of the list of its merge. -/
structure PacketKept (s : MergeLap) (r : ReqPacket) : Prop where
  number : r.number ≤ s.number
  ahead : r.ahead.Nodup
  nodup : (r.idmap.map (·.1)).Nodup
  keys : r.number = s.number → r.idmap.map (·.1) = s.mergeidmap.map (·.1)
  unasked : ∀ n ∈ r.ahead, entry n r.idmap ≠ some .doing

/-- What is on the way belongs to a merge that has begun and to a server in its list. -/
structure Named (s : MergeLap) : Prop where
  nodup : (s.mergeidmap.map (·.1)).Nodup
  req : ∀ r ∈ s.reqs, PacketKept s r
  work : ∀ w ∈ s.works, w.1 ≤ s.number ∧ (w.1 = s.number → w.2 ∈ s.mergeidmap.map (·.1))
  result : ∀ r ∈ s.results, r.number ≤ s.number ∧
    (r.number = s.number → r.chmpxid ∈ s.mergeidmap.map (·.1))

/-- The worker has not begun with the merge. -/
structure Unsent (s : MergeLap) : Prop where
  req : ∀ r ∈ s.reqs, r.number ≠ s.number
  work : ∀ w ∈ s.works, w.1 ≠ s.number
  result : ∀ r ∈ s.results, r.number ≠ s.number
  entry : ∀ n ∈ s.mergeidmap.map (·.1), entry n s.mergeidmap = some .inival
  notDone : s.number ∉ s.done

/-- Where the worker is. -/
structure Timed (s : MergeLap) : Prop where
  calls : s.calls ≤ 1
  idle : s.worker ≠ .idle → s.calls = 0
  unsent : s.calls ≠ 0 → Unsent s
  done : ∀ k ∈ s.done, k ≤ s.number
  finished : s.worker = .finished → ∀ n ∈ s.mergeidmap.map (·.1), s.hasResult n = true

/-- One token at most, and exactly one while nothing has got lost. -/
def Counted (s : MergeLap) : Prop :=
  ∀ n ∈ s.mergeidmap.map (·.1), s.tokens n ≤ 1 ∧ (s.lost = false → s.tokens n = 1)

/-- What every step in order keeps. -/
structure Kept (s : MergeLap) : Prop where
  named : s.Named
  timed : s.Timed
  counted : s.Counted
  quiet : ∀ k ∈ s.done, Quiet k s

theorem countP_take {α : Type} [BEq α] [LawfulBEq α] {l : List α} {a : α} (p : α → Bool) (ha : a ∈ l) :
    l.countP p = (l.erase a).countP p + (p a).toNat := by
  rw [(List.perm_cons_erase ha).countP_eq p, List.countP_cons]
  cases p a <;> rfl

theorem countP_cons_toNat {α : Type} (p : α → Bool) (a : α) (l : List α) :
    (a :: l).countP p = l.countP p + (p a).toNat := by
  rw [List.countP_cons]
  cases p a <;> rfl

theorem toNat_le_countP {α : Type} {l : List α} {a : α} (p : α → Bool) (ha : a ∈ l) :
    (p a).toNat ≤ l.countP p := by
  cases hp : p a with
  | false => exact Nat.zero_le _
  | true => exact List.countP_pos_iff.mpr ⟨a, ha, hp⟩

theorem hasResult_congr (h : s'.mergeidmap = s.mergeidmap) (n : ChmpxId) :
    s'.hasResult n = s.hasResult n := by
  rw [hasResult, hasResult, h]

/-- A step that adds no token, and takes one only when something gets lost. -/
theorem Counted.step (h : s.Counted)
    (hkeys : s'.mergeidmap.map (·.1) = s.mergeidmap.map (·.1))
    (hstep : ∀ n ∈ s.mergeidmap.map (·.1), s.tokens n ≤ 1 → s'.tokens n ≤ s.tokens n ∧
      (s'.lost = false → s.lost = false ∧ s'.tokens n = s.tokens n)) : s'.Counted := by
  intro n hn
  rw [hkeys] at hn
  obtain ⟨hle, heq⟩ := h n hn
  obtain ⟨hle', heq'⟩ := hstep n hn hle
  exact ⟨Nat.le_trans hle' hle, fun hlost => (heq' hlost).2.trans (heq (heq' hlost).1)⟩

theorem lost_lose (h : (s.lose k).lost = false) : s.lost = false ∧ k ≠ s.number := by
  rw [lose, Bool.or_eq_false_iff, decide_eq_false_iff_not] at h
  exact h

/-! ## What becomes of the packets -/

theorem PacketKept.congr (h : PacketKept s r) (hnumber : s'.number = s.number)
    (hkeys : s'.mergeidmap.map (·.1) = s.mergeidmap.map (·.1)) : PacketKept s' r :=
  ⟨hnumber ▸ h.number, h.ahead, h.nodup, fun he => (h.keys (hnumber ▸ he)).trans hkeys.symm,
    h.unasked⟩

/-- A packet behind its next server, whatever that has answered. -/
theorem PacketKept.behind (h : PacketKept s r) {self : ChmpxId} {ahead : List ChmpxId}
    (ha : r.ahead = self :: ahead) :
    PacketKept s { r with ahead := ahead } ∧
      ∀ e, self ∈ r.idmap.map (·.1) →
        PacketKept s { r with ahead := ahead, idmap := setOwn self e r.idmap } := by
  have hahead := h.ahead
  rw [ha, List.nodup_cons] at hahead
  have hunasked : ∀ m ∈ ahead, entry m r.idmap ≠ some .doing := fun m hm =>
    h.unasked m (ha ▸ List.mem_cons_of_mem self hm)
  refine ⟨⟨h.number, hahead.2, h.nodup, h.keys, hunasked⟩, fun e hself =>
    ⟨h.number, hahead.2, ?_, fun he => ?_, fun m hm => ?_⟩⟩
  · rw [keys_setOwn]
    exact h.nodup
  · rw [keys_setOwn]
    exact h.keys he
  · rw [entry_setOwn h.nodup hself, if_neg fun hms : m = self => hahead.1 (hms ▸ hm)]
    exact hunasked m hm

/-- A step that moves what is on the way.  A packet goes on, work comes from a server that was to
be asked, and a result from work. -/
structure Moves (s s' : MergeLap) : Prop where
  number : s'.number = s.number
  calls : s'.calls = s.calls
  worker : s'.worker = s.worker
  done : s'.done = s.done
  keys : s'.mergeidmap.map (·.1) = s.mergeidmap.map (·.1)
  req : ∀ r ∈ s'.reqs, r ∈ s.reqs ∨ PacketKept s r ∧ ∃ r' ∈ s.reqs, r'.number = r.number ∧
    r.ahead ⊆ r'.ahead ∧ r.idmap.map (·.1) = r'.idmap.map (·.1)
  work : ∀ w ∈ s'.works, w ∈ s.works ∨
    ∃ r ∈ s.reqs, r.number = w.1 ∧ w.2 ∈ r.ahead ∧ w.2 ∈ r.idmap.map (·.1)
  result : ∀ r ∈ s'.results, r ∈ s.results ∨ (r.number, r.chmpxid) ∈ s.works
  entry : s.Unsent → s'.mergeidmap = s.mergeidmap
  hasResult : ∀ n, s.hasResult n = true → s'.hasResult n = true

theorem Named.move (h : s.Named) (hm : Moves s s') : s'.Named := by
  refine ⟨hm.keys ▸ h.nodup, fun r hr => ?_, fun w hw => ?_, fun r hr => ?_⟩
  · exact ((hm.req r hr).elim (h.req r) fun hnew => hnew.1).congr hm.number hm.keys
  · rw [hm.number, hm.keys]
    rcases hm.work w hw with hold | ⟨r, hr, hnum, -, hkey⟩
    · exact h.work w hold
    · have hp := h.req r hr
      exact ⟨hnum ▸ hp.number, fun he => hp.keys (hnum.trans he) ▸ hkey⟩
  · rw [hm.number, hm.keys]
    exact (hm.result r hr).elim (h.result r) (h.work (r.number, r.chmpxid))

theorem Unsent.move (h : s.Unsent) (hm : Moves s s') : s'.Unsent := by
  refine ⟨fun r hr => ?_, fun w hw => ?_, fun r hr => ?_, fun n hn => ?_, ?_⟩
  · rw [hm.number]
    rcases hm.req r hr with hold | ⟨-, r', hr', hnum, -⟩
    · exact h.req r hold
    · exact hnum ▸ h.req r' hr'
  · rw [hm.number]
    rcases hm.work w hw with hold | ⟨r, hr, hnum, -⟩
    · exact h.work w hold
    · exact hnum ▸ h.req r hr
  · rw [hm.number]
    exact (hm.result r hr).elim (h.result r) fun hw => h.work _ hw
  · rw [hm.entry h]
    rw [hm.keys] at hn
    exact h.entry n hn
  · rw [hm.number, hm.done]
    exact h.notDone

theorem Timed.move (h : s.Timed) (hm : Moves s s') : s'.Timed := by
  refine ⟨hm.calls ▸ h.calls, fun hw => ?_, fun hc => ?_, fun k hk => ?_, fun hw n hn => ?_⟩
  · exact hm.calls.trans (h.idle (hm.worker ▸ hw))
  · exact (h.unsent (hm.calls ▸ hc)).move hm
  · rw [hm.number]
    exact h.done k (hm.done ▸ hk)
  · rw [hm.keys] at hn
    exact hm.hasResult n (h.finished (hm.worker ▸ hw) n hn)

theorem Quiet.move (h : Quiet k s) (hm : Moves s s') : Quiet k s' := by
  refine ⟨fun w hw he => ?_, fun r hr he => ?_, fun r hr he m hmem => ?_⟩
  · rcases hm.work w hw with hold | ⟨r, hr, hnum, hahead, hkey⟩
    · exact h.1 w hold he
    · exact h.2.2 r hr (hnum.trans he) w.2 hahead hkey
  · rcases hm.result r hr with hold | hw
    · exact h.2.1 r hold he
    · exact h.1 _ hw he
  · rcases hm.req r hr with hold | ⟨-, r', hr', hnum, hsub, hkeys⟩
    · exact h.2.2 r hold he m hmem
    · rw [hkeys]
      exact h.2.2 r' hr' (hnum.trans he) m (hsub hmem)

theorem Kept.move (h : s.Kept) (hm : Moves s s')
    (hstep : ∀ n ∈ s.mergeidmap.map (·.1), s.tokens n ≤ 1 → s'.tokens n ≤ s.tokens n ∧
      (s'.lost = false → s.lost = false ∧ s'.tokens n = s.tokens n)) : s'.Kept :=
  ⟨h.named.move hm, h.timed.move hm, h.counted.step hm.keys hstep,
    fun k hk => (h.quiet k (hm.done ▸ hk)).move hm⟩

/-- Something of a merge gets lost. -/
theorem Kept.drop {s' : MergeLap} (h : s.Kept) (hm : Moves s (s'.lose k))
    (hlost : s'.lost = s.lost) (hle : ∀ n, s'.tokens n ≤ s.tokens n)
    (hother : k ≠ s.number → ∀ n, s'.tokens n = s.tokens n) : (s'.lose k).Kept := by
  refine h.move hm fun n _ _ => ⟨hle n, fun hno => ?_⟩
  obtain ⟨hold, hne⟩ := lost_lose hno
  have hnumber : s'.number = s.number := hm.number
  exact ⟨hlost ▸ hold, hother (hnumber ▸ hne) n⟩

/-! ## The steps -/

theorem reqToken_of_ne {number : Nat} (h : r.number ≠ number) : reqToken number n r = false := by
  rw [reqToken, decide_eq_false h, Bool.false_and]

theorem workToken_of_ne {number : Nat} (h : w.1 ≠ number) : workToken number n w = false :=
  decide_eq_false fun he => h (congrArg Prod.fst he)

theorem resultToken_of_ne {number : Nat} (h : res.number ≠ number) :
    resultToken number n res = false := by
  rw [resultToken, decide_eq_false h, Bool.false_and]

theorem reqToken_eq {number : Nat} (h : r.number = number) :
    reqToken number n r = (n ∈ r.ahead || entry n r.idmap ≠ some .doing) := by
  rw [reqToken, decide_eq_true h, Bool.true_and]

theorem Kept.dropReq (h : s.Kept) (hr : r ∈ s.reqs) :
    ({ s with reqs := s.reqs.erase r }.lose r.number).Kept := by
  have htake := fun n => countP_take (reqToken s.number n) hr
  refine h.drop ⟨rfl, rfl, rfl, rfl, rfl, fun q hq => Or.inl (List.mem_of_mem_erase hq),
    fun _ hw => Or.inl hw, fun _ hr => Or.inl hr, fun _ => rfl, fun _ hres => hres⟩ rfl
    (fun n => ?_) fun hne n => ?_
  · rw [tokens, tokens, htake n]
    show _ + _ + _ + _ + (s.hasResult n).toNat ≤ _
    dsimp only
    omega
  · have hno := @reqToken_of_ne n r s.number hne
    rw [tokens, tokens, htake n, hno]
    rfl

theorem Kept.dropWork (h : s.Kept) (hw : w ∈ s.works) :
    ({ s with works := s.works.erase w }.lose w.1).Kept := by
  have htake := fun n => countP_take (workToken s.number n) hw
  refine h.drop ⟨rfl, rfl, rfl, rfl, rfl, fun _ hr => Or.inl hr,
    fun _ hv => Or.inl (List.mem_of_mem_erase hv), fun _ hr => Or.inl hr, fun _ => rfl,
    fun _ hres => hres⟩ rfl (fun n => ?_) fun hne n => ?_
  · rw [tokens, tokens, htake n]
    show _ + _ + _ + _ + (s.hasResult n).toNat ≤ _
    dsimp only
    omega
  · have hno := @workToken_of_ne n w s.number hne
    rw [tokens, tokens, htake n, hno]
    rfl

theorem Kept.dropResult (h : s.Kept) (hr : res ∈ s.results) :
    ({ s with results := s.results.erase res }.lose res.number).Kept := by
  have htake := fun n => countP_take (resultToken s.number n) hr
  refine h.drop ⟨rfl, rfl, rfl, rfl, rfl, fun _ hr => Or.inl hr, fun _ hw => Or.inl hw,
    fun _ hq => Or.inl (List.mem_of_mem_erase hq), fun _ => rfl, fun _ hres => hres⟩ rfl
    (fun n => ?_) fun hne n => ?_
  · rw [tokens, tokens, htake n]
    show _ + _ + _ + _ + (s.hasResult n).toNat ≤ _
    dsimp only
    omega
  · have hno := @resultToken_of_ne n res s.number hne
    rw [tokens, tokens, htake n, hno]
    rfl

/-- The client is done: its work becomes a result on the way. -/
theorem Kept.answer (h : s.Kept) (hw : w ∈ s.works) (ok : Bool) :
    { s with works := s.works.erase w, results := ⟨w.1, w.2, ok⟩ :: s.results }.Kept := by
  refine h.move ⟨rfl, rfl, rfl, rfl, rfl, fun _ hr => Or.inl hr,
    fun _ hv => Or.inl (List.mem_of_mem_erase hv), fun q hq => ?_, fun _ => rfl,
    fun _ hres => hres⟩ fun n _ _ => ?_
  · rcases List.mem_cons.mp hq with rfl | hq
    · exact Or.inr hw
    · exact Or.inl hq
  · have hsame : resultToken s.number n ⟨w.1, w.2, ok⟩ = workToken s.number n w := by
      rw [resultToken, workToken, Bool.eq_iff_iff, Bool.and_eq_true, decide_eq_true_eq,
        decide_eq_true_eq, decide_eq_true_eq]
      exact (@Prod.ext_iff _ _ w (s.number, n)).symm
    have htokens : { s with
        works := s.works.erase w, results := ⟨w.1, w.2, ok⟩ :: s.results }.tokens n =
          s.tokens n := by
      rw [tokens, tokens, countP_take (workToken s.number n) hw]
      show _ + _ + List.countP (resultToken s.number n) (⟨w.1, w.2, ok⟩ :: s.results) + _ +
        (s.hasResult n).toNat = _
      rw [countP_cons_toNat, hsame]
      dsimp only
      omega
    exact ⟨Nat.le_of_eq htokens, fun hlost => ⟨hlost, htokens⟩⟩

/-- A server that is asked gives its token to its client, or keeps it in the packet. -/
theorem hop_tokens {self : ChmpxId} {ahead : List ChmpxId} {number : Nat} (h : PacketKept s r)
    (ha : r.ahead = self :: ahead) (hself : self ∈ r.idmap.map (·.1)) (e : ReqUpdate)
    (n : ChmpxId) :
    (decide (e = .doing) && workToken number n (r.number, self)).toNat +
      (reqToken number n { r with ahead := ahead, idmap := setOwn self e r.idmap }).toNat =
        (reqToken number n r).toNat := by
  have hahead := h.ahead
  rw [ha, List.nodup_cons] at hahead
  by_cases hnum : r.number = number
  · have hnew : reqToken number n { r with ahead := ahead, idmap := setOwn self e r.idmap } =
        (n ∈ ahead || entry n (setOwn self e r.idmap) ≠ some .doing) := reqToken_eq hnum
    rw [hnew, reqToken_eq hnum, ha, entry_setOwn h.nodup hself, hnum]
    by_cases hn : n = self
    · have hwork : workToken number n (number, self) = true := by rw [workToken, hn, decide_eq_true rfl]
      have hold : decide (n ∈ self :: ahead) = true := decide_eq_true (hn ▸ List.mem_cons_self)
      have hgone : decide (n ∈ ahead) = false := decide_eq_false (hn ▸ hahead.1)
      rw [hwork, hold, if_pos hn, hgone, Bool.and_true, Bool.false_or, Bool.true_or]
      by_cases he : e = .doing
      · rw [he]
        decide
      · have hne : some e ≠ some ReqUpdate.doing := fun heq => he (Option.some.inj heq)
        rw [decide_eq_false he, decide_eq_true hne]
        rfl
    · have hwork : workToken number n (number, self) = false :=
        decide_eq_false fun heq => hn (congrArg Prod.snd heq).symm
      have hsame : decide (n ∈ self :: ahead) = decide (n ∈ ahead) :=
        decide_eq_decide.mpr (List.mem_cons.trans (or_iff_right hn))
      rw [hwork, hsame, if_neg hn, Bool.and_false]
      exact Nat.zero_add _
  · have hnew : reqToken number n { r with ahead := ahead, idmap := setOwn self e r.idmap } =
        false := reqToken_of_ne hnum
    have hwork : workToken number n (r.number, self) = false := workToken_of_ne hnum
    rw [hnew, reqToken_of_ne hnum, hwork, Bool.and_false]
    rfl

/-- A server that is passed by keeps its token in the packet. -/
theorem pass_tokens {self : ChmpxId} {ahead : List ChmpxId} {number : Nat} (h : PacketKept s r)
    (ha : r.ahead = self :: ahead) (n : ChmpxId) :
    reqToken number n { r with ahead := ahead } = reqToken number n r := by
  by_cases hnum : r.number = number
  · have hnew : reqToken number n { r with ahead := ahead } =
        (n ∈ ahead || entry n r.idmap ≠ some .doing) := reqToken_eq hnum
    rw [hnew, reqToken_eq hnum, ha]
    by_cases hn : n = self
    · have hunasked : entry n r.idmap ≠ some .doing :=
        h.unasked n (ha ▸ hn ▸ List.mem_cons_self)
      rw [decide_eq_true hunasked, Bool.or_true, Bool.or_true]
    · have hsame : decide (n ∈ self :: ahead) = decide (n ∈ ahead) :=
        decide_eq_decide.mpr (List.mem_cons.trans (or_iff_right hn))
      rw [hsame]
  · have hnew : reqToken number n { r with ahead := ahead } = false := reqToken_of_ne hnum
    rw [hnew, reqToken_of_ne hnum]

/-- The packet goes on past a server that is not in its list, or that is down. -/
theorem Kept.pass (h : s.Kept) (hr : r ∈ s.reqs) {self : ChmpxId} {ahead : List ChmpxId}
    (ha : r.ahead = self :: ahead) :
    { s with reqs := { r with ahead := ahead } :: s.reqs.erase r }.Kept := by
  have hp := h.named.req r hr
  refine h.move ⟨rfl, rfl, rfl, rfl, rfl, fun q hq => ?_, fun _ hw => Or.inl hw,
    fun _ hq => Or.inl hq, fun _ => rfl, fun _ hres => hres⟩ fun n _ _ => ?_
  · rcases List.mem_cons.mp hq with rfl | hq
    · exact Or.inr ⟨(hp.behind ha).1, r, hr, rfl, ha ▸ List.subset_cons_self .., rfl⟩
    · exact Or.inl (List.mem_of_mem_erase hq)
  · have htokens : { s with reqs := { r with ahead := ahead } :: s.reqs.erase r }.tokens n =
        s.tokens n := by
      rw [tokens, tokens, countP_take (reqToken s.number n) hr]
      show _ + _ + _ + List.countP (reqToken s.number n) ({ r with ahead := ahead } ::
        s.reqs.erase r) + (s.hasResult n).toNat = _
      rw [countP_cons_toNat, pass_tokens hp ha]
    exact ⟨Nat.le_of_eq htokens, fun hlost => ⟨hlost, htokens⟩⟩

/-- The packet goes on behind a server that has answered in it. -/
theorem Kept.asked (h : s.Kept) (hr : r ∈ s.reqs) {self : ChmpxId} {ahead : List ChmpxId}
    (ha : r.ahead = self :: ahead) (hself : self ∈ r.idmap.map (·.1)) (e : ReqUpdate) :
    { s with
      reqs := { r with ahead := ahead, idmap := setOwn self e r.idmap } :: s.reqs.erase r
      works := if e = ReqUpdate.doing then (r.number, self) :: s.works else s.works }.Kept := by
  have hp := h.named.req r hr
  refine h.move ⟨rfl, rfl, rfl, rfl, rfl, fun q hq => ?_, fun w hw => ?_,
    fun _ hq => Or.inl hq, fun _ => rfl, fun _ hres => hres⟩ fun n _ _ => ?_
  · rcases List.mem_cons.mp hq with rfl | hq
    · exact Or.inr ⟨(hp.behind ha).2 e hself, r, hr, rfl, ha ▸ List.subset_cons_self ..,
        keys_setOwn ..⟩
    · exact Or.inl (List.mem_of_mem_erase hq)
  · dsimp only at hw
    split at hw
    · rcases List.mem_cons.mp hw with rfl | hw
      · exact Or.inr ⟨r, hr, rfl, ha ▸ List.mem_cons_self, hself⟩
      · exact Or.inl hw
    · exact Or.inl hw
  · have hworks : (if e = ReqUpdate.doing then (r.number, self) :: s.works else s.works).countP
        (workToken s.number n) = s.works.countP (workToken s.number n) +
          (decide (e = .doing) && workToken s.number n (r.number, self)).toNat := by
      by_cases he : e = .doing
      · rw [if_pos he, countP_cons_toNat, decide_eq_true he, Bool.true_and]
      · rw [if_neg he, decide_eq_false he]
        rfl
    have htokens : { s with
        reqs := { r with ahead := ahead, idmap := setOwn self e r.idmap } :: s.reqs.erase r
        works := if e = ReqUpdate.doing then (r.number, self) :: s.works else s.works }.tokens n =
          s.tokens n := by
      rw [tokens, tokens, countP_take (reqToken s.number n) hr,
        ← hop_tokens hp ha hself e n]
      show _ + List.countP (workToken s.number n)
          (if e = ReqUpdate.doing then (r.number, self) :: s.works else s.works) + _ +
        List.countP (reqToken s.number n)
          ({ r with ahead := ahead, idmap := setOwn self e r.idmap } :: s.reqs.erase r) +
        (s.hasResult n).toNat = _
      rw [hworks, countP_cons_toNat]
      dsimp only
      omega
    exact ⟨Nat.le_of_eq htokens, fun hlost => ⟨hlost, htokens⟩⟩

theorem Kept.hop (h : s.Kept) {status : ChmpxSts} {isSent : Bool}
    (hs : s.hop r status isSent = some s') : s'.Kept := by
  rw [MergeLap.hop] at hs
  cases ha : r.ahead with
  | nil =>
    rw [ha] at hs
    cases hs
  | cons self ahead =>
    rw [ha] at hs
    dsimp only at hs
    split at hs
    · cases hs
    · rename_i hr
      have hr' : r ∈ s.reqs := not_not.mp hr
      split at hs
      · rename_i hself
        cases hs
        exact h.asked hr' ha hself _
      · cases hs
        exact h.pass hr' ha

theorem hasResult_eq (s : MergeLap) (n : ChmpxId) :
    s.hasResult n = (entry n s.mergeidmap).any ReqUpdate.isResult := rfl

theorem ResultPacket.isResult (res : ResultPacket) : res.result.isResult = true := by
  unfold ResultPacket.result
  split <;> rfl

/-- The result of the server's client comes in. -/
theorem Kept.deliver (h : s.Kept) (hnum : res.number = s.number)
    (hs : s.deliver res = some s') : s'.Kept := by
  rw [MergeLap.deliver] at hs
  split at hs
  · cases hs
  · rename_i hnot
    have hr : res ∈ s.results := not_not.mp hnot
    have hkey := (h.named.result res hr).2 hnum
    rw [if_pos hkey] at hs
    cases hs
    have hentry : ∀ n, ({ s with
        results := s.results.erase res
        mergeidmap := set res.chmpxid res.result s.mergeidmap } : MergeLap).hasResult n =
          (decide (n = res.chmpxid) || s.hasResult n) := by
      intro n
      rw [hasResult, hasResult, entry_set]
      by_cases hn : n = res.chmpxid
      · rw [if_pos hn, decide_eq_true hn, Bool.true_or]
        exact ResultPacket.isResult res
      · rw [if_neg hn, decide_eq_false hn, Bool.false_or]
    refine h.move ⟨rfl, rfl, rfl, rfl, keys_set hkey, fun _ hq => Or.inl hq, fun _ hw => Or.inl hw,
      fun _ hq => Or.inl (List.mem_of_mem_erase hq), fun hu => absurd hnum (hu.result res hr),
      fun n hn => by rw [hentry, hn, Bool.or_true]⟩ fun n _ hle => ?_
    have htokens : ({ s with
        results := s.results.erase res
        mergeidmap := set res.chmpxid res.result s.mergeidmap } : MergeLap).tokens n =
          s.tokens n := by
      rw [tokens, countP_take (resultToken s.number n) hr] at hle
      rw [tokens, tokens, hentry, countP_take (resultToken s.number n) hr]
      have htoken : resultToken s.number n res = decide (n = res.chmpxid) := by
        rw [resultToken, decide_eq_true hnum, Bool.true_and]
        exact decide_eq_decide.mpr eq_comm
      rw [htoken] at hle ⊢
      dsimp only
      by_cases hn : n = res.chmpxid
      · -- The result is not there yet: the server has no second token.
        rw [decide_eq_true hn] at hle ⊢
        cases hhas : s.hasResult n with
        | false =>
          show _ + _ + _ + _ + 1 = _ + _ + (_ + 1) + _ + 0
          omega
        | true =>
          rw [hhas] at hle
          have hone : true.toNat = 1 := rfl
          rw [hone] at hle
          omega
      · rw [decide_eq_false hn, Bool.false_or]
        rfl
    exact ⟨Nat.le_of_eq htokens, fun hlost => ⟨hlost, htokens⟩⟩

/-- The packet is back.  What the clients have said before stays, and a server whose answer is in
the packet has not said anything else. -/
theorem Kept.back (h : s.Kept) (hr : r ∈ s.reqs) (ha : r.ahead = []) (hnum : r.number = s.number) :
    (if r.idmap.all (fun p => p.2 ≠ ReqUpdate.inival) then
      { s with reqs := s.reqs.erase r, mergeidmap := s.mergeidmap.takeBack r.idmap }
    else { s with reqs := s.reqs.erase r, mergeidmap := s.mergeidmap.takeBack r.idmap }.lose
      r.number).Kept := by
  have hp := h.named.req r hr
  have hkeys := hp.keys hnum
  have hmap : (takeBack s.mergeidmap r.idmap).map (·.1) = s.mergeidmap.map (·.1) :=
    keys_takeBack fun p hmem => hkeys ▸ List.mem_map_of_mem hmem
  generalize hnew : ({ s with
    reqs := s.reqs.erase r, mergeidmap := s.mergeidmap.takeBack r.idmap } : MergeLap) = t
  have hmove : Moves s t := by
    rw [← hnew]
    refine ⟨rfl, rfl, rfl, rfl, hmap, fun _ hq => Or.inl (List.mem_of_mem_erase hq),
      fun _ hw => Or.inl hw, fun _ hq => Or.inl hq, fun hu => absurd hnum (hu.req r hr),
      fun n hn => ?_⟩
    rw [hasResult_eq] at hn ⊢
    dsimp only
    rw [entry_takeBack hp.nodup, if_pos hn, hn]
  -- What becomes of the tokens of one server.
  have htokens : ∀ n ∈ s.mergeidmap.map (·.1), s.tokens n ≤ 1 →
      t.tokens n ≤ s.tokens n ∧ (entry n r.idmap ≠ some .inival → t.tokens n = s.tokens n) := by
    intro n hn hle
    obtain ⟨x, hx⟩ := Option.isSome_iff_exists.mp (entry_isSome_iff.mpr (hkeys ▸ hn))
    have hreq : reqToken s.number n r = decide (x ≠ .doing) := by
      rw [reqToken_eq hnum, ha, hx]
      simp
    have hres : t.hasResult n = (s.hasResult n || x.isResult) := by
      rw [← hnew, hasResult_eq, hasResult_eq]
      dsimp only
      rw [entry_takeBack hp.nodup, hx]
      by_cases hold : (entry n s.mergeidmap).any ReqUpdate.isResult = true
      · rw [if_pos hold, hold, Bool.true_or]
      · rw [if_neg hold, Bool.eq_false_iff.mpr hold, Bool.false_or]
        rfl
    rw [tokens, countP_take (reqToken s.number n) hr, hreq] at hle
    have ht : t.tokens n = s.calls + s.works.countP (workToken s.number n) +
        s.results.countP (resultToken s.number n) +
        (s.reqs.erase r).countP (reqToken s.number n) + (s.hasResult n || x.isResult).toNat := by
      rw [tokens, hres, ← hnew]
    rw [ht, tokens, countP_take (reqToken s.number n) hr, hreq, hx]
    cases hhas : s.hasResult n with
    | true =>
      rw [hhas, Bool.toNat_true] at hle
      rw [Bool.true_or, Bool.toNat_true]
      exact ⟨by omega, fun _ => by omega⟩
    | false =>
      cases x with
      | inival => exact ⟨by simp [ReqUpdate.isResult], fun hne => absurd rfl hne⟩
      | doing =>
        rw [decide_eq_false (not_not.mpr rfl)]
        exact ⟨Nat.le_refl _, fun _ => rfl⟩
      | noact | success | fail =>
        rw [decide_eq_true (by decide), Bool.toNat_true]
        show _ + 1 ≤ _ + (_ + 1) + 0 ∧ (_ → _ + 1 = _ + (_ + 1) + 0)
        exact ⟨by omega, fun _ => by omega⟩
  split
  · rename_i hall
    refine h.move hmove fun n hn hle => ⟨(htokens n hn hle).1, fun hlost => ⟨?_, ?_⟩⟩
    · rw [← hnew] at hlost
      exact hlost
    · refine (htokens n hn hle).2 fun hini => ?_
      obtain ⟨p, hp', hpn⟩ := List.mem_map.mp (hkeys.symm ▸ hn)
      have hone := entry_of_mem hp.nodup hp'
      rw [hpn, hini] at hone
      exact of_decide_eq_true (List.all_eq_true.mp hall p hp') (Option.some.inj hone).symm
  · refine h.move ?_ fun n hn hle => ⟨(htokens n hn hle).1, fun hlost => ?_⟩
    · exact ⟨hmove.number, hmove.calls, hmove.worker, hmove.done, hmove.keys, hmove.req, hmove.work,
        hmove.result, hmove.entry, hmove.hasResult⟩
    · exact absurd (hnum.trans hmove.number.symm) (lost_lose hlost).2

/-- The worker goes on. -/
theorem Kept.goOn (h : s.Kept) (x : MergeWorkerAt) (isRunMerge : Bool)
    (hidle : x ≠ .idle → s.calls = 0)
    (hfinished : x = .finished → ∀ n ∈ s.mergeidmap.map (·.1), s.hasResult n = true) :
    { s with worker := x, isRunMerge := isRunMerge }.Kept := by
  refine ⟨⟨h.named.nodup, fun r hr => ?_, h.named.work, h.named.result⟩,
    ⟨h.timed.calls, hidle, fun hc => ?_, h.timed.done, hfinished⟩, h.counted, h.quiet⟩
  · exact (h.named.req r hr).congr rfl rfl
  · have hu := h.timed.unsent hc
    exact ⟨hu.req, hu.work, hu.result, hu.entry, hu.notDone⟩

/-- A server with a result has nothing on the way. -/
theorem Kept.quiet_of_result (h : s.Kept)
    (hall : ∀ n ∈ s.mergeidmap.map (·.1), s.hasResult n = true) : Quiet s.number s := by
  have hone : ∀ n ∈ s.mergeidmap.map (·.1),
      s.calls + s.works.countP (workToken s.number n) +
        s.results.countP (resultToken s.number n) + s.reqs.countP (reqToken s.number n) = 0 := by
    intro n hn
    have hle := (h.counted n hn).1
    rw [tokens, hall n hn, Bool.toNat_true] at hle
    omega
  refine ⟨fun w hw he => ?_, fun q hq he => ?_, fun q hq he n hn hkey => ?_⟩
  · have htoken := toNat_le_countP (workToken s.number w.2) hw
    have hthis : workToken s.number w.2 w = true := decide_eq_true (Prod.ext he rfl)
    have hzero := hone w.2 ((h.named.work w hw).2 he)
    rw [hthis, Bool.toNat_true] at htoken
    omega
  · have htoken := toNat_le_countP (resultToken s.number q.chmpxid) hq
    have hthis : resultToken s.number q.chmpxid q = true := by
      rw [resultToken, decide_eq_true he, decide_eq_true rfl]
      rfl
    have hzero := hone q.chmpxid ((h.named.result q hq).2 he)
    rw [hthis, Bool.toNat_true] at htoken
    omega
  · have htoken := toNat_le_countP (reqToken s.number n) hq
    have hthis : reqToken s.number n q = true := by
      rw [reqToken_eq he, decide_eq_true hn, Bool.true_or]
    have hzero := hone n ((h.named.req q hq).keys he ▸ hkey)
    rw [hthis, Bool.toNat_true] at htoken
    omega

/-- `MergeDone`. -/
theorem Kept.finish (h : s.Kept) (hfinished : s.worker = .finished) :
    { s with worker := .idle, isRunMerge := false, done := s.number :: s.done }.Kept := by
  have hquiet := h.quiet_of_result (h.timed.finished hfinished)
  have hcalls : s.calls = 0 := h.timed.idle (by rw [hfinished]; decide)
  refine ⟨⟨h.named.nodup, fun r hr => (h.named.req r hr).congr rfl rfl, h.named.work,
    h.named.result⟩, ⟨h.timed.calls, fun hw => absurd rfl hw, fun hc => absurd hcalls hc,
    fun k hk => ?_, fun hw => by cases hw⟩, h.counted, fun k hk => ?_⟩
  · rcases List.mem_cons.mp hk with rfl | hk
    · exact Nat.le_refl _
    · exact h.timed.done k hk
  · rcases List.mem_cons.mp hk with rfl | hk
    · exact ⟨hquiet.1, hquiet.2.1, hquiet.2.2⟩
    · have hold := h.quiet k hk
      exact ⟨hold.1, hold.2.1, hold.2.2⟩

/-- The worker begins with the merge and sends the packet. -/
theorem Kept.call (h : s.Kept) {ring : List ChmpxId} (hcalls : s.calls ≠ 0) (hring : ring.Nodup) :
    { s with
      calls := s.calls - 1
      worker := .waiting
      reqs := ⟨s.number, ring, s.mergeidmap⟩ :: s.reqs }.Kept := by
  have hu := h.timed.unsent hcalls
  have hone : s.calls = 1 := Nat.le_antisymm h.timed.calls (Nat.pos_of_ne_zero hcalls)
  have hunasked : ∀ n, entry n s.mergeidmap ≠ some .doing := by
    intro n hdoing
    have hn : n ∈ s.mergeidmap.map (·.1) := entry_isSome_iff.mp (by rw [hdoing]; rfl)
    rw [hu.entry n hn] at hdoing
    cases hdoing
  refine ⟨⟨h.named.nodup, fun r hr => ?_, h.named.work, h.named.result⟩,
    ⟨?_, fun _ => ?_, fun hc => ?_, h.timed.done, fun hw => by cases hw⟩, ?_, fun k hk => ?_⟩
  · rcases List.mem_cons.mp hr with rfl | hr
    · exact ⟨Nat.le_refl _, hring, h.named.nodup, fun _ => rfl, fun n _ => hunasked n⟩
    · exact (h.named.req r hr).congr rfl rfl
  · show s.calls - 1 ≤ 1
    omega
  · show s.calls - 1 = 0
    omega
  · have hc' : s.calls - 1 ≠ 0 := hc
    omega
  · refine h.counted.step rfl fun n _ _ => ?_
    have htoken : reqToken s.number n ⟨s.number, ring, s.mergeidmap⟩ = true := by
      rw [reqToken, decide_eq_true (hunasked n), Bool.or_true, Bool.and_true]
      exact decide_eq_true rfl
    have htokens : ({ s with
        calls := s.calls - 1
        worker := .waiting
        reqs := ⟨s.number, ring, s.mergeidmap⟩ :: s.reqs } : MergeLap).tokens n = s.tokens n := by
      rw [tokens, tokens]
      show s.calls - 1 + _ + _ +
        List.countP (reqToken s.number n) (⟨s.number, ring, s.mergeidmap⟩ :: s.reqs) +
          (s.hasResult n).toNat = _
      rw [countP_cons_toNat, htoken, Bool.toNat_true, hone]
      dsimp only
      omega
    exact ⟨Nat.le_of_eq htokens, fun hlost => ⟨hlost, htokens⟩⟩
  · have hold := h.quiet k hk
    refine ⟨hold.1, hold.2.1, fun q hq he => ?_⟩
    rcases List.mem_cons.mp hq with rfl | hq
    · have he' : s.number = k := he
      exact absurd (he'.symm ▸ hk) hu.notDone
    · exact hold.2.2 q hq he

/-- The worker cannot send the packet. -/
theorem Kept.callFails (h : s.Kept) (hworker : s.worker = .idle) :
    ({ s with calls := s.calls - 1, isRunMerge := false }.lose s.number).Kept := by
  refine ⟨⟨h.named.nodup, fun r hr => (h.named.req r hr).congr rfl rfl, h.named.work,
    h.named.result⟩, ⟨?_, fun hw => absurd hworker hw, fun hc => ?_, h.timed.done,
    fun hw => ?_⟩, ?_, h.quiet⟩
  · have hle := h.timed.calls
    show s.calls - 1 ≤ 1
    omega
  · have hle := h.timed.calls
    have hc' : s.calls - 1 ≠ 0 := hc
    omega
  · have hw' : s.worker = .finished := hw
    rw [hworker] at hw'
    cases hw'
  · refine h.counted.step rfl fun n _ _ => ⟨?_, fun hlost => absurd rfl (lost_lose hlost).2⟩
    show s.calls - 1 + s.works.countP (workToken s.number n) +
      s.results.countP (resultToken s.number n) + s.reqs.countP (reqToken s.number n) +
        (s.hasResult n).toNat ≤ s.tokens n
    rw [tokens]
    omega

/-- A merge begins. -/
theorem Kept.start (h : s.Kept) {ids : List ChmpxId} (hids : ids.Nodup) (hcalls : s.calls = 0)
    (hworker : s.worker = .idle) :
    { s with
      number := s.number + 1
      isRunMerge := true
      calls := s.calls + 1
      mergeidmap := ids.map fun n => (n, .inival)
      lost := false }.Kept := by
  have hkeys : (ids.map fun n => (n, ReqUpdate.inival)).map (·.1) = ids := by
    rw [List.map_map]
    exact List.map_id ids
  have hini : ∀ n ∈ ids, entry n (ids.map fun n => (n, ReqUpdate.inival)) = some .inival := by
    intro n hn
    have hmem : (n, ReqUpdate.inival) ∈ ids.map fun n => (n, ReqUpdate.inival) :=
      List.mem_map_of_mem hn
    exact entry_of_mem (by rwa [hkeys]) hmem
  have hreq : ∀ r ∈ s.reqs, r.number < s.number + 1 := fun r hr =>
    Nat.lt_succ_of_le (h.named.req r hr).number
  have hwork : ∀ w ∈ s.works, w.1 < s.number + 1 := fun w hw =>
    Nat.lt_succ_of_le (h.named.work w hw).1
  have hresult : ∀ r ∈ s.results, r.number < s.number + 1 := fun r hr =>
    Nat.lt_succ_of_le (h.named.result r hr).1
  refine ⟨⟨by rwa [hkeys], fun r hr => ?_, fun w hw => ?_, fun r hr => ?_⟩,
    ⟨?_, fun hw => absurd hworker hw, fun _ => ?_, fun k hk => ?_, fun hw => ?_⟩, fun n hn => ?_,
    h.quiet⟩
  · have hp := h.named.req r hr
    exact ⟨Nat.le_of_lt (hreq r hr), hp.ahead, hp.nodup,
      fun he => absurd he (Nat.ne_of_lt (hreq r hr)), hp.unasked⟩
  · exact ⟨Nat.le_of_lt (hwork w hw), fun he => absurd he (Nat.ne_of_lt (hwork w hw))⟩
  · exact ⟨Nat.le_of_lt (hresult r hr), fun he => absurd he (Nat.ne_of_lt (hresult r hr))⟩
  · show s.calls + 1 ≤ 1
    omega
  · refine ⟨fun r hr => Nat.ne_of_lt (hreq r hr), fun w hw => Nat.ne_of_lt (hwork w hw),
      fun r hr => Nat.ne_of_lt (hresult r hr), fun n hn => ?_, fun hk => ?_⟩
    · dsimp only at hn
      rw [hkeys] at hn
      exact hini n hn
    · have hle := h.timed.done (s.number + 1) hk
      omega
  · exact Nat.le_succ_of_le (h.timed.done k hk)
  · have hw' : s.worker = .finished := hw
    rw [hworker] at hw'
    cases hw'
  · dsimp only at hn
    rw [hkeys] at hn
    have hworks : s.works.countP (workToken (s.number + 1) n) = 0 :=
      List.countP_eq_zero.mpr fun w hw => by
        rw [workToken_of_ne (Nat.ne_of_lt (hwork w hw))]
        exact Bool.false_ne_true
    have hresults : s.results.countP (resultToken (s.number + 1) n) = 0 :=
      List.countP_eq_zero.mpr fun r hr => by
        rw [resultToken_of_ne (Nat.ne_of_lt (hresult r hr))]
        exact Bool.false_ne_true
    have hreqs : s.reqs.countP (reqToken (s.number + 1) n) = 0 :=
      List.countP_eq_zero.mpr fun r hr => by
        rw [reqToken_of_ne (Nat.ne_of_lt (hreq r hr))]
        exact Bool.false_ne_true
    have hone : ({ s with
        number := s.number + 1
        isRunMerge := true
        calls := s.calls + 1
        mergeidmap := ids.map fun n => (n, .inival)
        lost := false } : MergeLap).tokens n = 1 := by
      rw [tokens, hasResult_eq]
      dsimp only
      rw [hworks, hresults, hreqs, hini n hn, hcalls]
      rfl
    exact ⟨Nat.le_of_eq hone, fun _ => hone⟩

theorem Kept.step (h : s.Kept) {e : MergeEvent} (hok : inOrder s e = true)
    (hs : s.step e = some s') : s'.Kept := by
  cases e with
  | start ids =>
    rw [inOrder, Bool.and_eq_true, decide_eq_true_eq, decide_eq_true_eq] at hok
    rw [MergeLap.step] at hs
    split at hs
    · cases hs
    · rename_i hno
      rw [Bool.or_eq_true, not_or, Bool.not_eq_true', Bool.not_eq_false] at hno
      cases hs
      exact h.start (of_decide_eq_true hno.2) hok.2 hok.1
  | abort =>
    cases hs
    exact h.goOn s.worker false h.timed.idle h.timed.finished
  | call ring isSent =>
    rw [MergeLap.step] at hs
    split at hs
    · cases hs
    · rename_i hno
      rw [Bool.or_eq_true, Bool.or_eq_true, not_or, not_or, decide_eq_true_eq, decide_eq_true_eq,
        not_not, Bool.not_eq_true', Bool.not_eq_false] at hno
      split at hs
      · cases hs
        exact h.call hno.1.2 (of_decide_eq_true hno.2)
      · cases hs
        exact h.callFails hno.1.1
  | poll =>
    rw [MergeLap.step] at hs
    split at hs
    · cases hs
    · rename_i hwait
      have hwait' : s.worker = .waiting := not_not.mp hwait
      have hcalls : s.calls = 0 := h.timed.idle (by rw [hwait']; decide)
      split at hs
      · cases hs
        exact h.goOn .idle s.isRunMerge (fun hw => absurd rfl hw) fun hw => by cases hw
      · cases hs
        refine h.goOn _ s.isRunMerge (fun _ => hcalls) fun hw => ?_
        split at hw
        · rename_i hall
          exact (allFinish_iff h.named.nodup).mp hall
        · cases hw
  | finish =>
    rw [MergeLap.step] at hs
    split at hs
    · cases hs
    · rename_i hfin
      split at hs
      · cases hs
        exact h.goOn .idle s.isRunMerge (fun hw => absurd rfl hw) fun hw => by cases hw
      · cases hs
        exact h.finish (not_not.mp hfin)
  | hop r status isSent => exact h.hop hs
  | skip r =>
    rw [MergeLap.step] at hs
    cases ha : r.ahead with
    | nil =>
      rw [ha] at hs
      cases hs
    | cons self ahead =>
      rw [ha] at hs
      dsimp only at hs
      split at hs
      · cases hs
      · rename_i hr
        cases hs
        exact h.pass (not_not.mp hr) ha
  | dropReq r =>
    rw [MergeLap.step] at hs
    split at hs
    · cases hs
    · rename_i hr
      cases hs
      exact h.dropReq (not_not.mp hr)
  | back r =>
    rw [MergeLap.step] at hs
    split at hs
    · cases hs
    · rename_i hno
      rw [Bool.or_eq_true, not_or, decide_eq_true_eq, decide_eq_true_eq, not_not, not_not] at hno
      cases hs
      exact h.back hno.1 hno.2 (of_decide_eq_true hok)
  | answer w ok =>
    rw [MergeLap.step] at hs
    split at hs
    · cases hs
    · rename_i hw
      cases hs
      exact h.answer (not_not.mp hw) ok
  | dropWork w =>
    rw [MergeLap.step] at hs
    split at hs
    · cases hs
    · rename_i hw
      cases hs
      exact h.dropWork (not_not.mp hw)
  | deliver r => exact h.deliver (of_decide_eq_true hok) hs
  | dropResult r =>
    rw [MergeLap.step] at hs
    split at hs
    · cases hs
    · rename_i hr
      cases hs
      exact h.dropResult (not_not.mp hr)

theorem kept_fresh : fresh.Kept where
  named := ⟨List.nodup_nil, fun _ hr => absurd hr List.not_mem_nil,
    fun _ hw => absurd hw List.not_mem_nil, fun _ hr => absurd hr List.not_mem_nil⟩
  timed := ⟨Nat.zero_le 1, fun hw => absurd rfl hw, fun hc => absurd rfl hc,
    fun _ hk => absurd hk List.not_mem_nil, fun hw => by cases hw⟩
  counted := fun _ hn => absurd hn List.not_mem_nil
  quiet := fun _ hk => absurd hk List.not_mem_nil

theorem reachable_kept (h : steps.Reachable inOrder s) : s.Kept :=
  h.invariant (fun _ hs => hs ▸ kept_fresh) fun hk hok hs => hk.step hok hs

/-! ## Merges -/

/-- In every run in order a server of the merge has one token at most, and exactly one while
nothing of the merge has got lost: no answer is counted twice, and none is overwritten by the
packet that comes back. -/
theorem reachable_tokens (h : steps.Reachable inOrder s) (hn : n ∈ s.mergeidmap.map (·.1)) :
    s.tokens n ≤ 1 ∧ (s.lost = false → s.tokens n = 1) :=
  (reachable_kept h).counted n hn

theorem waits_iff (s : MergeLap) (n : ChmpxId) :
    s.Waits n ↔ 0 < s.works.countP (workToken s.number n) ∨
      0 < s.results.countP (resultToken s.number n) ∨ 0 < s.reqs.countP (reqToken s.number n) := by
  rw [Waits, List.countP_pos_iff, List.countP_pos_iff, List.countP_pos_iff]
  refine or_congr ⟨fun hw => ⟨_, hw, decide_eq_true rfl⟩, fun hex => ?_⟩ (or_congr ?_ ?_)
  · obtain ⟨w, hw, htoken⟩ := hex
    exact of_decide_eq_true htoken ▸ hw
  · refine exists_congr fun r => and_congr_right fun _ => ?_
    rw [resultToken, Bool.and_eq_true, decide_eq_true_eq, decide_eq_true_eq]
  · refine exists_congr fun r => and_congr_right fun _ => ?_
    rw [reqToken, Bool.and_eq_true, Bool.or_eq_true, decide_eq_true_eq, decide_eq_true_eq,
      decide_eq_true_eq]

/-- In every run in order the worker's loop ends only when nothing is to come for any server of the
merge, and while nothing has got lost it ends then. -/
theorem reachable_finish_iff (h : steps.Reachable inOrder s) (hworker : s.worker = .waiting) :
    (s.mergeidmap.allFinish = true → ∀ n ∈ s.mergeidmap.map (·.1), ¬s.Waits n) ∧
      (s.lost = false → (∀ n ∈ s.mergeidmap.map (·.1), ¬s.Waits n) →
        s.mergeidmap.allFinish = true) := by
  have hk := reachable_kept h
  have hcalls : s.calls = 0 := hk.timed.idle (by rw [hworker]; decide)
  rw [allFinish_iff hk.named.nodup]
  constructor
  · intro hall n hn hw
    have hle := (hk.counted n hn).1
    rw [waits_iff] at hw
    rw [tokens, hasResult_eq, hall n hn, Bool.toNat_true] at hle
    omega
  · intro hlost hno n hn
    have heq := (hk.counted n hn).2 hlost
    have hw := hno n hn
    rw [waits_iff] at hw
    rw [tokens, hcalls, hasResult_eq] at heq
    cases hres : (entry n s.mergeidmap).any ReqUpdate.isResult with
    | true => rfl
    | false =>
      rw [hres, Bool.toNat_false] at heq
      omega

/-- In every run in order a merge whose status has become DONE has left no request that would give
a client work, no work and no result, then and later. -/
theorem reachable_doneQuiet (h : steps.Reachable inOrder s) {number : Nat}
    (hdone : number ∈ s.done) : Quiet number s :=
  (reachable_kept h).quiet number hdone

/-- The server 7 has data, 8 has nothing to do; the client is done before the packet is back. -/
def sampleEvents : List MergeEvent :=
  [.start [7, 8], .call [7, 8, 9] true,
    .hop ⟨1, [7, 8, 9], [(7, .inival), (8, .inival)]⟩ ChmpxSts.srvinUpNormal true,
    .answer (1, 7) true, .deliver ⟨1, 7, true⟩,
    .hop ⟨1, [8, 9], [(7, .doing), (8, .inival)]⟩ ChmpxSts.srvinUpAdding true]

def lastEvents : List MergeEvent :=
  [.hop ⟨1, [9], [(7, .doing), (8, .noact)]⟩ ChmpxSts.srvinUpNormal true, .poll,
    .back ⟨1, [], [(7, .doing), (8, .noact)]⟩, .poll, .finish]

theorem reachable_tokens_sample : ∃ s, steps.Reachable inOrder s ∧
    s.mergeidmap = [(7, .success), (8, .inival)] ∧ s.tokens 8 ≤ 1 := by
  obtain ⟨s, hs, hmap⟩ := Steps.reached steps inOrder (fun s => s.mergeidmap) rfl
    (by decide : (steps.run inOrder fresh sampleEvents).map (fun s => s.mergeidmap) =
      some [(7, .success), (8, .inival)])
  exact ⟨s, hs, hmap, (reachable_tokens hs (by rw [hmap]; decide)).1⟩

theorem reachable_finish_iff_sample : ∃ s, steps.Reachable inOrder s ∧
    s.mergeidmap.allFinish = true ∧ ¬s.Waits 7 := by
  obtain ⟨s, hs, hend⟩ := Steps.reached steps inOrder (fun s => (s.worker, s.mergeidmap)) rfl
    (by decide : (steps.run inOrder fresh (sampleEvents ++ lastEvents.take 3)).map
      (fun s => (s.worker, s.mergeidmap)) = some (.waiting, [(7, .success), (8, .noact)]))
  obtain ⟨hworker, hmap⟩ := Prod.mk.inj hend
  have hall : s.mergeidmap.allFinish = true := by rw [hmap]; rfl
  exact ⟨s, hs, hall, (reachable_finish_iff hs hworker).1 hall 7 (by rw [hmap]; decide)⟩

theorem reachable_doneQuiet_sample : ∃ s, steps.Reachable inOrder s ∧ s.done = [1] ∧
    Quiet 1 s := by
  obtain ⟨s, hs, hdone⟩ := Steps.reached steps inOrder (fun s => s.done) rfl
    (by decide : (steps.run inOrder fresh (sampleEvents ++ lastEvents)).map (fun s => s.done) =
      some [1])
  exact ⟨s, hs, hdone, reachable_doneQuiet hs (hdone ▸ List.mem_singleton.mpr rfl)⟩

/-- The result of the first merge comes in the second one, which is DONE while the client of the
server 7 works on its request. -/
theorem reachable_lateResult : ∃ s, steps.Reachable Steps.anyStep s ∧ s.done = [2] ∧
    (2, 7) ∈ s.works := by
  obtain ⟨s, hs, hend⟩ := Steps.reached steps Steps.anyStep (fun s => (s.done, s.works)) rfl
    (by decide : (steps.run Steps.anyStep fresh
      [.start [7], .call [7] true, .hop ⟨1, [7], [(7, .inival)]⟩ ChmpxSts.srvinUpNormal true,
        .answer (1, 7) true, .abort, .poll, .start [7], .call [7] true,
        .hop ⟨2, [7], [(7, .inival)]⟩ ChmpxSts.srvinUpNormal true, .deliver ⟨1, 7, true⟩,
        .poll, .finish]).map (fun s => (s.done, s.works)) = some ([2], [(2, 7)]))
  obtain ⟨hdone, hworks⟩ := Prod.mk.inj hend
  exact ⟨s, hs, hdone, by rw [hworks]; exact List.mem_singleton.mpr rfl⟩

end MergeLap
end Chm
