/-
Comparing the server tables of two nodes.

`CompareChmpxSvrs` looks every record of one table up in the other by its chmpxid, in
both directions.  A record that is missing there is passed over when its server is out
of service and down.
-/
import Chm.ImData

namespace Chm

def cukMax : Nat := 2048
def customIdSeedMax : Nat := 2048

/-- What a comparison reads besides the records.  `cmpSsl` is `CMP_CHMPXSSL` on the SSL
members, which the records here leave out. -/
structure Comparing where
  env : Env
  seedType : ChmpxIdSeedType
  cmpSsl : ChmpxSvr → ChmpxSvr → Bool

/-- `strncmp` is zero. -/
def strncmpEq (n : Nat) (s1 s2 : CStr) : Bool := s1.take n = s2.take n

namespace Comparing

/-- `CompareChmpxNameAndCustomSeed`. -/
def compareChmpxNameAndCustomSeed (cmp : Comparing) (isCheckCustomSeed : Bool)
    (src1 src2 : ChmpxSvr) : Bool :=
  if strncmpEq niMaxhost src1.name src2.name then true
  else if !isCheckCustomSeed then false
  else if strncmpEq niMaxhost src1.name src2.customSeed ||
      strncmpEq niMaxhost src2.name src1.customSeed then true
  else
    (cmp.env.getHostnameList src1.name).any fun host1 =>
      (cmp.env.getHostnameList src2.name).any fun host2 => strcmp host1 host2 = 0

/-- Two records with one chmpxid differ in nothing that is compared. -/
def compareSvr (cmp : Comparing) (isCheckCustomSeed isStatus : Bool) (src1 src2 : ChmpxSvr) :
    Bool :=
  cmp.compareChmpxNameAndCustomSeed isCheckCustomSeed src1 src2 &&
    strncmpEq cukMax src1.cuk src2.cuk &&
    strncmpEq customIdSeedMax src1.customSeed src2.customSeed &&
    cmp.cmpSsl src1 src2 &&
    compareHostportPairs src1.endpoints src2.endpoints &&
    compareHostportPairs src1.ctlendpoints src2.ctlendpoints &&
    compareHostportPairs src1.forwardPeers src2.forwardPeers &&
    compareHostportPairs src1.reversePeers src2.reversePeers &&
    src1.port = src2.port &&
    src1.ctlport = src2.ctlport &&
    !(isStatus && src1.baseHash ≠ src2.baseHash) &&
    !(isStatus && src1.pendingHash ≠ src2.pendingHash) &&
    !(isStatus && src1.status ≠ src2.status)

/-- A record that need not be in both tables. -/
def ignored (status : ChmpxSts) : Bool :=
  status.isDown && status.isSrvout && status.isNoact && status.isNothing

/-- One of the two loops: every record of `merge` against `base`. -/
def compareLoop (cmp : Comparing) (isCheckCustomSeed isStatus ignoreDown : Bool)
    (base merge : List ChmpxSvr) : Bool :=
  merge.all fun svr =>
    match base.find? fun own => own.chmpxid = svr.chmpxid with
    | none => ignoreDown && ignored svr.status
    | some own => cmp.compareSvr isCheckCustomSeed isStatus own svr

/-- `CompareChmpxSvrs` of two arrays. -/
def compareChmpxSvrs (cmp : Comparing) (isCheckCustomSeed isStatus ignoreDown : Bool)
    (base merge : List ChmpxSvr) : Bool :=
  if base = [] ∧ merge = [] then true
  else if base = [] ∨ merge = [] then false
  else if !ignoreDown && base.length ≠ merge.length then false
  else
    cmp.compareLoop isCheckCustomSeed isStatus ignoreDown base merge &&
      (!ignoreDown || cmp.compareLoop isCheckCustomSeed isStatus ignoreDown merge base)

end Comparing

/-- `CompareChmpxSvrs` of this node's table with the records of a packet. -/
def ChmpxMan.compareChmpxSvrs (cmp : Comparing) (heap : Nat → ChmpxSvr) (svrs : List ChmpxSvr)
    (m : ChmpxMan) : Bool :=
  match m.getChmpxSvrs heap with
  | none => false
  | some own => cmp.compareChmpxSvrs (cmp.seedType = .custom) true true own svrs

/-! ## What a successful comparison says -/

/-- Every server of `svrs` has in `table` its chmpxid, status and hashes, or it is not
there and is out of service and down. -/
def ListedAlike (table svrs : List ChmpxSvr) : Prop :=
  ∀ svr ∈ svrs, match table.find? fun own => own.chmpxid = svr.chmpxid with
    | none => Comparing.ignored svr.status = true
    | some own => own.chmpxid = svr.chmpxid ∧ own.status = svr.status ∧
        own.baseHash = svr.baseHash ∧ own.pendingHash = svr.pendingHash

/-- Two tables list the same servers with the same statuses and hashes. -/
structure TablesAgree (table svrs : List ChmpxSvr) : Prop where
  listed : ListedAlike table svrs
  back : ListedAlike svrs table

namespace Comparing

variable {cmp : Comparing} {isCheckCustomSeed ignoreDown : Bool} {base merge : List ChmpxSvr}

theorem compareSvr_status {src1 src2 : ChmpxSvr}
    (h : cmp.compareSvr isCheckCustomSeed true src1 src2 = true) :
    src1.status = src2.status ∧ src1.baseHash = src2.baseHash ∧
      src1.pendingHash = src2.pendingHash := by
  simp only [compareSvr, Bool.and_eq_true, Bool.true_and, Bool.not_eq_true',
    decide_eq_false_iff_not, not_not] at h
  exact ⟨h.2, h.1.1.2, h.1.2⟩

theorem listedAlike_of_loop
    (h : cmp.compareLoop isCheckCustomSeed true ignoreDown base merge = true) :
    ListedAlike base merge := by
  intro svr hsvr
  have hone := List.all_eq_true.mp h svr hsvr
  cases hf : base.find? fun own => own.chmpxid = svr.chmpxid with
  | none =>
    rw [hf] at hone
    exact (Bool.and_eq_true_iff.mp hone).2
  | some own =>
    rw [hf] at hone
    have hid := List.find?_some hf
    exact ⟨of_decide_eq_true hid, compareSvr_status hone⟩

theorem tablesAgree (h : cmp.compareChmpxSvrs isCheckCustomSeed true true base merge = true) :
    TablesAgree base merge := by
  unfold compareChmpxSvrs at h
  split at h
  · rename_i hnil
    rw [hnil.1, hnil.2]
    exact ⟨fun svr hsvr => absurd hsvr List.not_mem_nil,
      fun svr hsvr => absurd hsvr List.not_mem_nil⟩
  · split at h
    · cases h
    · split at h
      · cases h
      · obtain ⟨h₁, h₂⟩ := Bool.and_eq_true_iff.mp h
        exact ⟨listedAlike_of_loop h₁, listedAlike_of_loop h₂⟩

end Comparing

theorem ChmpxMan.tablesAgree {cmp : Comparing} {heap : Nat → ChmpxSvr} {svrs : List ChmpxSvr}
    {m : ChmpxMan} (h : m.compareChmpxSvrs cmp heap svrs = true) :
    TablesAgree ((m.getChmpxSvrs heap).getD []) svrs := by
  unfold ChmpxMan.compareChmpxSvrs at h
  split at h
  · cases h
  · rename_i own hown
    rw [hown]
    exact Comparing.tablesAgree h

end Chm
