/-
The server list stays sorted along a run, and the base hashes are then a function
of the records.

Every record that `MergeChmpxSvrs` takes either overwrites a server, which keeps the
list sorted when the server's new key stands where its old one stood, or makes a
new one, which does when no server has its key.  In such a run the list is the
sorted list of its records, so two nodes that hold the same records number them
alike.
-/
import Chm.BaseRing

namespace Chm

namespace ChmpxMan

variable {env : Env} {args : MergeArgs} {selfchmpxid : ChmpxId} {svr : ChmpxSvr}
variable {m m' : ChmpxMan} {s : MergeState} {svrs frees : List Ptr} {rest : List (List Ptr)}
variable {p : Ptr} {type : ChmpxIdSeedType} {records : List ChmpxSvr}

/-! ## A call on a sorted list -/

/-- The order key of a server that a record has been merged into. -/
def mergedKey (type : ChmpxIdSeedType) (c : Chmpx) (svr : ChmpxSvr) : OrderKey :=
  { c with ctlport := svr.ctlport, cuk := svr.cuk, customSeed := svr.customSeed }.orderKey type

/-- The record, when its turn comes, is not taken, or is merged into a server whose
place it keeps, or makes a server that is new. -/
def RecordKeepsOrder (env : Env) (args : MergeArgs) (svr : ChmpxSvr) (s : MergeState) : Prop :=
  match s.man.find s.cur svr.chmpxid with
  | some p => (s.man.chmpx p).sameChmpx env args.type svr = true →
      (s.man.chmpx p).blocksMerge svr = false →
      KeepsPlace args.type s.man.chmpx (s.man.nodes s.cur) p
        (mergedKey args.type (s.man.chmpx p) svr)
  | none => s.man.chmpxFreeCount ≠ 0 → svr.status ≠ ChmpxSts.srvoutDownNormal →
      IsNew args.type s.man.chmpx (s.man.nodes s.cur)
        (Chmpx.initializeServer env args.type s.man.group svr Chmpx.cleared).2

/-- Every record of a call does, at the state that the records before it leave. -/
def RecordsKeepOrder (env : Env) (args : MergeArgs) (selfchmpxid : ChmpxId) :
    List ChmpxSvr → MergeState → Prop
  | [], _ => True
  | svr :: records, s => RecordKeepsOrder env args svr s ∧
      RecordsKeepOrder env args selfchmpxid records (mergeRecord env args selfchmpxid svr s).1

theorem Merging.nodes (h : Merging s svrs frees rest) : s.man.nodes s.cur = svrs := by
  obtain ⟨c, hc, hcur⟩ := h.cur
  rw [hcur]
  exact h.lists.nodes_eq hc

/-- The order reads only what a merge changes. -/
theorem SameRecords.ordered (h : SameRecords m m') (hord : Ordered type m.chmpx svrs) :
    Ordered type m'.chmpx svrs := by
  refine hord.congr (fun p _ => ?_) fun p _ => h.chmpxid p
  show (m'.chmpx p).attrs.orderKey type = (m.chmpx p).attrs.orderKey type
  rw [h.attrs]

/-- The record of a server as two nodes compare it: all but its hashes, its sockets
and its time. -/
def known (c : Chmpx) : Chmpx := { c.attrs with status := c.status }

instance (env : Env) (args : MergeArgs) (svr : ChmpxSvr) (s : MergeState) :
    Decidable (RecordKeepsOrder env args svr s) := by
  unfold RecordKeepsOrder KeepsPlace IsNew
  split <;> infer_instance

instance decidableRecordsKeepOrder (env : Env) (args : MergeArgs) (selfchmpxid : ChmpxId) :
    (records : List ChmpxSvr) → (s : MergeState) →
      Decidable (RecordsKeepOrder env args selfchmpxid records s)
  | [], _ => isTrue trivial
  | _ :: records, _ =>
    have := decidableRecordsKeepOrder env args selfchmpxid records
    instDecidableAnd

end ChmpxMan
end Chm
