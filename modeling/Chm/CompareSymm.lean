/-
Comparing two arrays of servers, both ways round.

Without `ignore_down`, `CompareChmpxSvrs` goes through the second array only, and for each record
it asks whether the pairs of the first array's record are among its own, not whether the pairs are
the same.  An array whose records have pairs on top compares as equal with the one it extends, and
not the other way round.  `compareChmpxSvrs_symm_iff` says that this is all that goes wrong.
-/
import Chm.CompareSvrs
import Chm.HostPorts

namespace Chm

/-- The four arrays of pairs in a record. -/
inductive PairArray
  | endpoints
  | ctlendpoints
  | forwardPeers
  | reversePeers
  deriving DecidableEq, Repr

def ChmpxSvr.pairs (svr : ChmpxSvr) : PairArray → List HostPort
  | .endpoints => svr.endpoints
  | .ctlendpoints => svr.ctlendpoints
  | .forwardPeers => svr.forwardPeers
  | .reversePeers => svr.reversePeers

/-- Every slot of the first record's arrays is in the second record's. -/
def PairsIn (src1 src2 : ChmpxSvr) : Prop := ∀ arr, ∀ hp ∈ src1.pairs arr, hp ∈ src2.pairs arr

/-- Two records have the same sets of pairs. -/
def SamePairs (src1 src2 : ChmpxSvr) : Prop :=
  ∀ arr hp, hp.isSet = true → (hp ∈ src1.pairs arr ↔ hp ∈ src2.pairs arr)

/-- Two arrays hold the same chmpxids, and for each of them the same sets of pairs. -/
structure SameServers (base merge : List ChmpxSvr) : Prop where
  ids : ∀ id, id ∈ base.map ChmpxSvr.chmpxid ↔ id ∈ merge.map ChmpxSvr.chmpxid
  pairs : ∀ svr1 ∈ base, ∀ svr2 ∈ merge, svr1.chmpxid = svr2.chmpxid → SamePairs svr1 svr2

theorem SamePairs.symm {src1 src2 : ChmpxSvr} (h : SamePairs src1 src2) : SamePairs src2 src1 :=
  fun arr hp hset => (h arr hp hset).symm

theorem SamePairs.trans {src1 src2 src3 : ChmpxSvr} (h : SamePairs src1 src2)
    (h' : SamePairs src2 src3) : SamePairs src1 src3 :=
  fun arr hp hset => (h arr hp hset).trans (h' arr hp hset)

/-- A record has a pair that the array's first record of its chmpxid lacks. -/
def Uneven (table : List ChmpxSvr) : Prop :=
  ∃ svr ∈ table, ∃ own, (table.find? fun own => own.chmpxid = svr.chmpxid) = some own ∧
    ∃ arr, ∃ hp ∈ svr.pairs arr, hp.isSet = true ∧ hp ∉ own.pairs arr

theorem SameServers.symm {base merge : List ChmpxSvr} (h : SameServers base merge) :
    SameServers merge base :=
  ⟨fun id => (h.ids id).symm, fun svr1 h1 svr2 h2 hid => (h.pairs svr2 h2 svr1 h1 hid.symm).symm⟩

/-- Where two arrays hold the same servers, an array's records of one chmpxid are alike. -/
theorem SameServers.not_uneven {base merge : List ChmpxSvr} (h : SameServers base merge)
    (hm : ∀ svr ∈ base, ∃ own ∈ merge, own.chmpxid = svr.chmpxid) : ¬Uneven base := by
  rintro ⟨svr, hsvr, own, hown, arr, hp, hmem, hset, hno⟩
  obtain ⟨other, hother, hid⟩ := hm svr hsvr
  have hownid : own.chmpxid = svr.chmpxid := of_decide_eq_true (List.find?_some hown :)
  have hpairs := h.pairs svr hsvr other hother hid.symm
  have hpairs' := h.pairs own (List.mem_of_find?_eq_some hown) other hother (hownid.trans hid.symm)
  exact hno ((hpairs.trans hpairs'.symm arr hp hset).mp hmem)

theorem strncmpEq_comm {n : Nat} {s1 s2 : CStr} : strncmpEq n s1 s2 = strncmpEq n s2 s1 :=
  decide_eq_decide.mpr eq_comm

theorem compareHostportPairs_iff {phpp1 phpp2 : List HostPort} :
    compareHostportPairs phpp1 phpp2 = true ↔ ∀ hp ∈ phpp1, hp ∈ phpp2 := by
  have hone : ∀ hp1, (phpp2.any fun hp2 => hp1.name = hp2.name && hp1.port = hp2.port) = true ↔
      hp1 ∈ phpp2 := by
    intro hp1
    rw [List.any_eq_true]
    constructor
    · rintro ⟨hp2, hmem, heq⟩
      obtain ⟨hname, hport⟩ := Bool.and_eq_true_iff.mp heq
      rw [show hp1 = hp2 from by
        cases hp1
        cases hp2
        exact HostPort.mk.injEq .. ▸ ⟨of_decide_eq_true hname, of_decide_eq_true hport⟩]
      exact hmem
    · intro hmem
      exact ⟨hp1, hmem, by simp⟩
  rw [compareHostportPairs, List.all_eq_true]
  exact forall₂_congr fun hp1 _ => hone hp1

namespace Comparing

/-- The compared members of two records besides the arrays of pairs are equal. -/
structure SameBut (cmp : Comparing) (isCheckCustomSeed isStatus : Bool) (src1 src2 : ChmpxSvr) :
    Prop where
  name : cmp.compareChmpxNameAndCustomSeed isCheckCustomSeed src1 src2 = true
  cuk : strncmpEq cukMax src1.cuk src2.cuk = true
  customSeed : strncmpEq customIdSeedMax src1.customSeed src2.customSeed = true
  ssl : cmp.cmpSsl src1 src2 = true
  port : src1.port = src2.port
  ctlport : src1.ctlport = src2.ctlport
  status : isStatus = true → src1.baseHash = src2.baseHash ∧
    src1.pendingHash = src2.pendingHash ∧ src1.status = src2.status

/-- The array has a record with the chmpxid of `svr`; the first one has `svr`'s other members and
no pair that `svr` lacks. -/
def Lists (cmp : Comparing) (isCheckCustomSeed isStatus : Bool) (table : List ChmpxSvr)
    (svr : ChmpxSvr) : Prop :=
  ∃ own, (table.find? fun own => own.chmpxid = svr.chmpxid) = some own ∧
    cmp.SameBut isCheckCustomSeed isStatus own svr ∧ PairsIn own svr

/-- `merge` extends `base`: `base` lists all its records, and `merge` does not list all of
`base`'s.  With `is_status` it is enough that an array's records of one chmpxid differ. -/
def Extends (cmp : Comparing) (isCheckCustomSeed isStatus : Bool) (base merge : List ChmpxSvr) :
    Prop :=
  (∀ svr ∈ merge, cmp.Lists isCheckCustomSeed isStatus base svr) ∧
    ((∃ svr ∈ base, ¬cmp.Lists isCheckCustomSeed isStatus merge svr) ∨
      isStatus = true ∧ (Uneven base ∨ Uneven merge))

/-- The comparison does not depend on the order of its arguments, and when it compares the
statuses and ignores no server, it says that the servers are the same. -/
structure Faithful (cmp : Comparing) (isCheckCustomSeed isStatus ignoreDown : Bool)
    (base merge : List ChmpxSvr) : Prop where
  symm : cmp.compareChmpxSvrs isCheckCustomSeed isStatus ignoreDown base merge =
    cmp.compareChmpxSvrs isCheckCustomSeed isStatus ignoreDown merge base
  same : isStatus = true → ignoreDown = false →
    cmp.compareChmpxSvrs isCheckCustomSeed isStatus ignoreDown base merge = true →
      SameServers base merge

variable {cmp : Comparing} {isCheckCustomSeed isStatus ignoreDown : Bool}
  {base merge table : List ChmpxSvr} {src1 src2 svr : ChmpxSvr} {verifyPeer : ChmpxSvr → Bool}

/-! ## Two records -/

theorem compareChmpxNameAndCustomSeed_comm :
    cmp.compareChmpxNameAndCustomSeed isCheckCustomSeed src1 src2 =
      cmp.compareChmpxNameAndCustomSeed isCheckCustomSeed src2 src1 := by
  have hhosts : ((cmp.env.getHostnameList src1.name).any fun host1 =>
        (cmp.env.getHostnameList src2.name).any fun host2 => strcmp host1 host2 = 0) =
      (cmp.env.getHostnameList src2.name).any fun host2 =>
        (cmp.env.getHostnameList src1.name).any fun host1 => strcmp host2 host1 = 0 := by
    rw [Bool.eq_iff_iff]
    simp only [List.any_eq_true, decide_eq_true_eq, strcmp_eq_zero_iff]
    constructor
    · rintro ⟨host1, h1, host2, h2, heq⟩
      exact ⟨host2, h2, host1, h1, heq.symm⟩
    · rintro ⟨host2, h2, host1, h1, heq⟩
      exact ⟨host1, h1, host2, h2, heq.symm⟩
  rw [compareChmpxNameAndCustomSeed, compareChmpxNameAndCustomSeed, hhosts,
    @strncmpEq_comm _ src1.name src2.name, Bool.or_comm]

theorem SameBut.symm (hssl : ∀ src1 src2, cmp.cmpSsl src1 src2 =
      decide (verifyPeer src1 = verifyPeer src2))
    (h : cmp.SameBut isCheckCustomSeed isStatus src1 src2) :
    cmp.SameBut isCheckCustomSeed isStatus src2 src1 where
  name := compareChmpxNameAndCustomSeed_comm ▸ h.name
  cuk := strncmpEq_comm ▸ h.cuk
  customSeed := strncmpEq_comm ▸ h.customSeed
  ssl := by
    have := h.ssl
    rw [hssl] at this ⊢
    exact decide_eq_true (of_decide_eq_true this).symm
  port := h.port.symm
  ctlport := h.ctlport.symm
  status hs := ⟨(h.status hs).1.symm, (h.status hs).2.1.symm, (h.status hs).2.2.symm⟩

theorem pairsIn_iff : PairsIn src1 src2 ↔
    compareHostportPairs src1.endpoints src2.endpoints = true ∧
    compareHostportPairs src1.ctlendpoints src2.ctlendpoints = true ∧
    compareHostportPairs src1.forwardPeers src2.forwardPeers = true ∧
    compareHostportPairs src1.reversePeers src2.reversePeers = true := by
  simp only [compareHostportPairs_iff]
  constructor
  · intro h
    exact ⟨h .endpoints, h .ctlendpoints, h .forwardPeers, h .reversePeers⟩
  · rintro ⟨h₁, h₂, h₃, h₄⟩ arr
    cases arr with
    | endpoints => exact h₁
    | ctlendpoints => exact h₂
    | forwardPeers => exact h₃
    | reversePeers => exact h₄

theorem compareSvr_iff : cmp.compareSvr isCheckCustomSeed isStatus src1 src2 = true ↔
    cmp.SameBut isCheckCustomSeed isStatus src1 src2 ∧ PairsIn src1 src2 := by
  rw [pairsIn_iff]
  simp only [compareSvr, Bool.and_eq_true, Bool.not_eq_true', Bool.and_eq_false_iff,
    decide_eq_false_iff_not, decide_eq_true_eq, not_not]
  constructor
  · rintro ⟨⟨⟨⟨⟨⟨⟨⟨⟨⟨⟨⟨h₁, h₂⟩, h₃⟩, h₄⟩, h₅⟩, h₆⟩, h₇⟩, h₈⟩, h₉⟩, h₁₀⟩, h₁₁⟩, h₁₂⟩, h₁₃⟩
    refine ⟨⟨h₁, h₂, h₃, h₄, h₉, h₁₀, fun hs => ?_⟩, h₅, h₆, h₇, h₈⟩
    subst hs
    simpa using And.intro h₁₁ (And.intro h₁₂ h₁₃)
  · rintro ⟨h, h₅, h₆, h₇, h₈⟩
    refine ⟨⟨⟨⟨⟨⟨⟨⟨⟨⟨⟨⟨h.name, h.cuk⟩, h.customSeed⟩, h.ssl⟩, h₅⟩, h₆⟩, h₇⟩, h₈⟩, h.port⟩,
      h.ctlport⟩, ?_⟩, ?_⟩, ?_⟩ <;> cases hs : isStatus
    · exact .inl rfl
    · exact .inr (h.status hs).1
    · exact .inl rfl
    · exact .inr (h.status hs).2.1
    · exact .inl rfl
    · exact .inr (h.status hs).2.2

/-! ## Two arrays -/

theorem compareLoop_iff : cmp.compareLoop isCheckCustomSeed isStatus false base merge = true ↔
    ∀ svr ∈ merge, cmp.Lists isCheckCustomSeed isStatus base svr := by
  rw [compareLoop, List.all_eq_true]
  refine forall₂_congr fun svr _ => ?_
  unfold Lists
  cases hf : base.find? fun own => own.chmpxid = svr.chmpxid with
  | none => simp
  | some own =>
    show cmp.compareSvr isCheckCustomSeed isStatus own svr = true ↔ _
    rw [compareSvr_iff]
    constructor
    · intro h
      exact ⟨own, rfl, h⟩
    · rintro ⟨own', hown', h⟩
      cases hown'
      exact h

/-- Without `ignore_down` the arrays have one length and the first lists all of the second. -/
theorem compareChmpxSvrs_iff :
    cmp.compareChmpxSvrs isCheckCustomSeed isStatus false base merge = true ↔
      base.length = merge.length ∧
        ∀ svr ∈ merge, cmp.Lists isCheckCustomSeed isStatus base svr := by
  unfold compareChmpxSvrs
  split
  · rename_i hnil
    rw [hnil.1, hnil.2]
    simp
  · rename_i hnot
    split
    · rename_i hone
      constructor
      · intro h
        cases h
      · rintro ⟨hlen, -⟩
        rcases hone with rfl | rfl
        · exact absurd ⟨rfl, List.length_eq_zero_iff.mp hlen.symm⟩ hnot
        · exact absurd ⟨List.length_eq_zero_iff.mp hlen, rfl⟩ hnot
    · split
      · rename_i hlen
        constructor
        · intro h
          cases h
        · rintro ⟨heq, -⟩
          rw [heq] at hlen
          simp at hlen
      · rename_i hlen
        have heq : base.length = merge.length := by simpa using hlen
        rw [Bool.not_false, Bool.true_or, Bool.and_true, compareLoop_iff]
        exact ⟨fun h => ⟨heq, h⟩, fun h => h.2⟩

/-- With `ignore_down` both directions are gone through. -/
theorem compareChmpxSvrs_comm :
    cmp.compareChmpxSvrs isCheckCustomSeed isStatus true base merge =
      cmp.compareChmpxSvrs isCheckCustomSeed isStatus true merge base := by
  simp only [compareChmpxSvrs, Bool.not_true, Bool.false_and, Bool.false_or]
  exact if_congr and_comm rfl (if_congr or_comm rfl (if_congr Iff.rfl rfl (Bool.and_comm _ _)))

theorem sameServers (hb : ∀ svr ∈ merge, cmp.Lists isCheckCustomSeed isStatus base svr)
    (hm : ∀ svr ∈ base, cmp.Lists isCheckCustomSeed isStatus merge svr)
    (heven : ¬Uneven base) (heven' : ¬Uneven merge) : SameServers base merge where
  ids id := by
    constructor
    · intro hid
      obtain ⟨svr, hsvr, rfl⟩ := List.mem_map.mp hid
      obtain ⟨own, hown, -⟩ := hm svr hsvr
      exact List.mem_map.mpr ⟨own, List.mem_of_find?_eq_some hown,
        of_decide_eq_true (List.find?_some hown :)⟩
    · intro hid
      obtain ⟨svr, hsvr, rfl⟩ := List.mem_map.mp hid
      obtain ⟨own, hown, -⟩ := hb svr hsvr
      exact List.mem_map.mpr ⟨own, List.mem_of_find?_eq_some hown,
        of_decide_eq_true (List.find?_some hown :)⟩
  pairs svr1 h1 svr2 h2 hid arr hp hset := by
    obtain ⟨own1, hown1, -, hin1⟩ := hb svr2 h2
    obtain ⟨own2, hown2, -, hin2⟩ := hm svr1 h1
    constructor
    · intro hmem
      by_contra hno
      exact heven ⟨svr1, h1, own1, hid ▸ hown1, arr, hp, hmem, hset, fun hown =>
        hno (hin1 arr hp hown)⟩
    · intro hmem
      by_contra hno
      exact heven' ⟨svr2, h2, own2, hid ▸ hown2, arr, hp, hmem, hset, fun hown =>
        hno (hin2 arr hp hown)⟩

theorem Lists.mem (h : cmp.Lists isCheckCustomSeed isStatus table svr) :
    ∃ own ∈ table, own.chmpxid = svr.chmpxid :=
  h.elim fun own hown => ⟨own, List.mem_of_find?_eq_some hown.1,
    of_decide_eq_true (List.find?_some hown.1 :)⟩

/-- The comparison is faithful unless it goes one way only and an array of the same length
extends the other. -/
theorem compareChmpxSvrs_symm_iff :
    cmp.Faithful isCheckCustomSeed isStatus ignoreDown base merge ↔
      ignoreDown = true ∨ base.length ≠ merge.length ∨
        ¬cmp.Extends isCheckCustomSeed isStatus base merge ∧
          ¬cmp.Extends isCheckCustomSeed isStatus merge base := by
  cases ignoreDown with
  | true =>
    refine ⟨fun _ => .inl rfl, fun _ => ⟨compareChmpxSvrs_comm, fun _ h => ?_⟩⟩
    cases h
  | false =>
    by_cases hlen : base.length = merge.length
    · have hsymm : (cmp.compareChmpxSvrs isCheckCustomSeed isStatus false base merge =
          cmp.compareChmpxSvrs isCheckCustomSeed isStatus false merge base) ↔
            ((∀ svr ∈ merge, cmp.Lists isCheckCustomSeed isStatus base svr) ↔
              ∀ svr ∈ base, cmp.Lists isCheckCustomSeed isStatus merge svr) := by
        rw [Bool.eq_iff_iff, compareChmpxSvrs_iff, compareChmpxSvrs_iff, hlen]
        simp only [true_and]
      constructor
      · intro h
        have hboth := hsymm.mp h.symm
        have heven : ∀ (hb : ∀ svr ∈ merge, cmp.Lists isCheckCustomSeed isStatus base svr),
            isStatus = true → ¬Uneven base ∧ ¬Uneven merge := by
          intro hb hs
          have hsame := h.same hs rfl (compareChmpxSvrs_iff.mpr ⟨hlen, hb⟩)
          exact ⟨hsame.not_uneven fun svr hsvr => (hboth.mp hb svr hsvr).mem,
            hsame.symm.not_uneven fun svr hsvr => (hb svr hsvr).mem⟩
        refine .inr (.inr ⟨?_, ?_⟩)
        · rintro ⟨hb, ⟨svr, hsvr, hno⟩ | ⟨hs, hbase | hmerge⟩⟩
          · exact hno (hboth.mp hb svr hsvr)
          · exact (heven hb hs).1 hbase
          · exact (heven hb hs).2 hmerge
        · rintro ⟨hm, ⟨svr, hsvr, hno⟩ | ⟨hs, hmerge | hbase⟩⟩
          · exact hno (hboth.mpr hm svr hsvr)
          · exact (heven (hboth.mpr hm) hs).2 hmerge
          · exact (heven (hboth.mpr hm) hs).1 hbase
      · rintro (h | h | ⟨hno, hno'⟩)
        · cases h
        · exact absurd hlen h
        · have hfwd : (∀ svr ∈ merge, cmp.Lists isCheckCustomSeed isStatus base svr) →
              ∀ svr ∈ base, cmp.Lists isCheckCustomSeed isStatus merge svr := by
            intro hb svr hsvr
            by_contra hlist
            exact hno ⟨hb, .inl ⟨svr, hsvr, hlist⟩⟩
          have hback : (∀ svr ∈ base, cmp.Lists isCheckCustomSeed isStatus merge svr) →
              ∀ svr ∈ merge, cmp.Lists isCheckCustomSeed isStatus base svr := by
            intro hm svr hsvr
            by_contra hlist
            exact hno' ⟨hm, .inl ⟨svr, hsvr, hlist⟩⟩
          refine ⟨hsymm.mpr ⟨hfwd, hback⟩, fun hs _ htrue => ?_⟩
          have hb := (compareChmpxSvrs_iff.mp htrue).2
          exact sameServers hb (hfwd hb) (fun h => hno ⟨hb, .inr ⟨hs, .inl h⟩⟩)
            fun h => hno ⟨hb, .inr ⟨hs, .inr h⟩⟩
    · refine ⟨fun _ => .inr (.inl hlen), fun _ => ⟨?_, fun _ _ htrue => ?_⟩⟩
      · rw [Bool.eq_iff_iff, compareChmpxSvrs_iff, compareChmpxSvrs_iff]
        exact ⟨fun h => absurd h.1 hlen, fun h => absurd h.1.symm hlen⟩
      · exact absurd (compareChmpxSvrs_iff.mp htrue).1 hlen

/-! ## Arrays without a repeated chmpxid -/

theorem find_of_nodup (hnodup : (table.map ChmpxSvr.chmpxid).Nodup) (hsvr : svr ∈ table) :
    (table.find? fun own => own.chmpxid = svr.chmpxid) = some svr := by
  induction table with
  | nil => cases hsvr
  | cons own table ih =>
    rw [List.map_cons, List.nodup_cons] at hnodup
    rcases List.mem_cons.mp hsvr with rfl | hsvr
    · exact List.find?_cons_of_pos (decide_eq_true rfl)
    · have hne : own.chmpxid ≠ svr.chmpxid := by
        intro heq
        exact hnodup.1 (heq ▸ List.mem_map_of_mem hsvr)
      rw [List.find?_cons_of_neg (by simpa using hne)]
      exact ih hnodup.2 hsvr

/-- With one record for each chmpxid, an array extends another by having a pair on top in some
record. -/
theorem extends_iff_of_nodup (hssl : ∀ src1 src2, cmp.cmpSsl src1 src2 =
      decide (verifyPeer src1 = verifyPeer src2))
    (hb : (base.map ChmpxSvr.chmpxid).Nodup) (hm : (merge.map ChmpxSvr.chmpxid).Nodup)
    (hlen : base.length = merge.length) :
    cmp.Extends isCheckCustomSeed isStatus base merge ↔
      (∀ svr ∈ merge, cmp.Lists isCheckCustomSeed isStatus base svr) ∧
        ∃ svr ∈ merge, ∃ own ∈ base, own.chmpxid = svr.chmpxid ∧ ¬PairsIn svr own := by
  have heven : ∀ {table : List ChmpxSvr}, (table.map ChmpxSvr.chmpxid).Nodup →
      ¬Uneven table := by
    rintro table hnodup ⟨svr, hsvr, own, hown, arr, hp, hmem, -, hno⟩
    rw [find_of_nodup hnodup hsvr, Option.some_inj] at hown
    exact hno (hown ▸ hmem)
  refine and_congr_right fun hlists => ?_
  constructor
  · rintro (⟨own, hown, hno⟩ | ⟨-, hbase | hmerge⟩)
    · have hsub : merge.map ChmpxSvr.chmpxid ⊆ base.map ChmpxSvr.chmpxid := by
        intro id hid
        obtain ⟨svr, hsvr, rfl⟩ := List.mem_map.mp hid
        obtain ⟨own', hown', hid'⟩ := (hlists svr hsvr).mem
        exact hid' ▸ List.mem_map_of_mem hown'
      have hperm := (hm.subperm hsub).perm_of_length_le (by simp [hlen])
      obtain ⟨svr, hsvr, hid⟩ := List.mem_map.mp
        (hperm.mem_iff.mpr (List.mem_map_of_mem hown))
      refine ⟨svr, hsvr, own, hown, hid.symm, fun hin => hno ?_⟩
      obtain ⟨own', hown', hsame, -⟩ := hlists svr hsvr
      rw [hid, find_of_nodup hb hown, Option.some_inj] at hown'
      subst hown'
      exact ⟨svr, hid ▸ find_of_nodup hm hsvr, hsame.symm hssl, hin⟩
    · exact absurd hbase (heven hb)
    · exact absurd hmerge (heven hm)
  · rintro ⟨svr, hsvr, own, hown, hid, hno⟩
    refine .inl ⟨own, hown, ?_⟩
    rintro ⟨svr', hsvr', -, hin⟩
    rw [hid, find_of_nodup hm hsvr, Option.some_inj] at hsvr'
    exact hno (hsvr' ▸ hin)

end Comparing

/-! ## A divergence -/

/-- A server with the control endpoints of `eps`. -/
def sampleEndpoints (eps : List HostPort) : ChmpxSvr :=
  { ChmpxMan.sampleSvr 99 ChmpxSts.srvinUpNormal with ctlendpoints := eps }

/-- A server with one control endpoint compares as equal with the same server with two, and not
the other way round. -/
theorem compareChmpxSvrs_one_way :
    ¬Comparing.Faithful ⟨ChmpxMan.sampleEnv, .name, fun _ _ => true⟩ false true false
      [sampleEndpoints [⟨[97], 8021⟩, ⟨[], chmInvalidPort⟩, ⟨[], chmInvalidPort⟩,
        ⟨[], chmInvalidPort⟩]]
      [sampleEndpoints [⟨[97], 8021⟩, ⟨[98], 8021⟩, ⟨[], chmInvalidPort⟩,
        ⟨[], chmInvalidPort⟩]] := by
  intro h
  have hsymm := h.symm
  revert hsymm
  decide +kernel

end Chm
