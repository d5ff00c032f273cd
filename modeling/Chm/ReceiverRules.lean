/-
The rules that `GetReceiverChmpxids` keeps, and when.

A list of receivers names no server twice, only servers that are up and not suspended, and
not this node when the type of the message excepts it.  The loops over the servers of a hash
and over all servers except this node; a message that goes to one server by turns, or to the
main server of its hash, may still come to it (`getReceiverChmpxids_ok_iff`).
-/
import Chm.BaseRing
import Chm.Circulation
import Chm.Receivers
import Chm.RingWalk

namespace Chm

namespace ChmpxSts

theorem not_isDown_of_isServicing {status : ChmpxSts} (h : status.isServicing = true) :
    status.isDown = false := by
  have hw : status &&& ~~~maskSuspend ∈ servicingWords := List.contains_iff_mem.mp h
  have hup : servicingWords.all (fun word => !has maskLive valDown word) = true := by decide
  have hlive : (status &&& ~~~maskSuspend) &&& maskLive = status &&& maskLive := by
    rw [BitVec.and_assoc]
    rfl
  rw [isDown, has, ← hlive]
  exact Bool.not_eq_true' _ |>.mp (List.all_eq_true.mp hup _ hw)

theorem not_isSuspend_of_isNosup {status : ChmpxSts} (h : status.isNosup = true) :
    status.isSuspend = false := by
  rw [isNosup, has, beq_iff_eq] at h
  rw [isSuspend, has, ← h]
  decide

end ChmpxSts

namespace ChmpxMan

variable {m m' : ChmpxMan} {svrs frees : List Ptr} {rest : List (List Ptr)} {p : Ptr}
  {hash : ChmHash} {c2ctype : C2cType} {chmpxid : ChmpxId} {chmpxids : List ChmpxId}

/-! ## Turns -/

/-- The servers that serve and are not suspended, in the order of the ring from the one behind
`p` to `p` itself. -/
def servingFrom (m : ChmpxMan) (svrs : List Ptr) (p : Ptr) : List Ptr :=
  (Circle.round svrs p).filter fun q => passesServicing true (m.chmpx q)

/-- The server that is used next: the second one that serves behind the last used one, which
is the first one again when no other serves, or without a last used one the first one that
serves behind the head of the list. -/
def turn (m : ChmpxMan) (svrs : List Ptr) : Option Ptr :=
  match m.find m.chmpxServers m.lastChmpxid with
  | some p => (m.servingFrom svrs p ++ m.servingFrom svrs p)[1]?
  | none => svrs.head?.bind fun p => (m.servingFrom svrs p).head?

theorem toNextUpServicing_eq (h : Formed m svrs frees rest) (hp : p ∈ svrs)
    {withoutSuspend : Bool} :
    m.toNextUpServicing withoutSuspend p =
      (Circle.round svrs p).find? fun q => passesServicing withoutSuspend (m.chmpx q) := by
  rw [toNextUpServicing, h.lists.toNextPassing_eq hp, Circle.round, List.find?_append]
  cases hpass : passesServicing withoutSuspend (m.chmpx p) <;> simp [hpass]

theorem find_invalid {cursor : Cursor} : m.find cursor chmInvalidChmpxId = none := by
  cases cursor <;> rfl

/-- From the last used server it moves on to the second one that serves behind it. -/
theorem getRandomServerChmpxId_found (h : Formed m svrs frees rest) (hn : m.chmpxBhashCount ≠ 0)
    (withoutSuspend : Bool) (hfind : m.find m.chmpxServers m.lastChmpxid = some p) :
    m.getRandomServerChmpxId withoutSuspend =
      match (((Circle.round svrs p).filter fun q => passesServicing withoutSuspend (m.chmpx q)) ++
        (Circle.round svrs p).filter fun q => passesServicing withoutSuspend (m.chmpx q))[1]? with
      | none => (chmInvalidChmpxId, m)
      | some q => ((m.chmpx q).chmpxid, { m with lastChmpxid := (m.chmpx q).chmpxid }) := by
  have hlast : m.lastChmpxid ≠ chmInvalidChmpxId := by
    intro hinvalid
    rw [hinvalid, find_invalid] at hfind
    cases hfind
  have hp := find_servers_mem h hfind
  have hmem : ((Circle.round svrs p).find?
      fun q => passesServicing withoutSuspend (m.chmpx q)).getD p ∈ svrs := by
    cases hq : (Circle.round svrs p).find? fun q => passesServicing withoutSuspend (m.chmpx q) with
    | none => exact hp
    | some q => exact (Circle.mem_round hp).mp (List.mem_of_find?_eq_some hq)
  rw [getRandomServerChmpxId, if_neg hn, if_neg hlast, hfind]
  dsimp only
  have hround := Circle.find?_round_find? h.lists.nodup_svrs hp
    fun q => passesServicing withoutSuspend (m.chmpx q)
  rw [Option.bind_some, toNextUpServicing_eq h hp, toNextUpServicing_eq h hmem]
  generalize (_ : List Ptr)[1]? = o at hround ⊢
  cases o <;> simp only [hround]

theorem getRandomServerChmpxId_eq (h : Formed m svrs frees rest) (hn : m.chmpxBhashCount ≠ 0) :
    (m.getRandomServerChmpxId true).1 =
      ((m.turn svrs).map fun p => (m.chmpx p).chmpxid).getD chmInvalidChmpxId := by
  have hfirst : m.chmpxServers.bind (m.toNextUpServicing true) =
      svrs.head?.bind fun p => (m.servingFrom svrs p).head? := by
    rw [h.head]
    cases svrs with
    | nil => rfl
    | cons s svrs =>
      show m.toNextUpServicing true s = _
      rw [toNextUpServicing_eq h List.mem_cons_self, ← List.head?_filter]
      rfl
  rw [turn]
  cases hfind : m.find m.chmpxServers m.lastChmpxid with
  | none =>
    rw [getRandomServerChmpxId, if_neg hn, hfind, ite_self]
    dsimp only
    rw [hfirst]
    cases svrs.head?.bind fun p => (m.servingFrom svrs p).head? <;> rfl
  | some p =>
    rw [getRandomServerChmpxId_found h hn true hfind]
    dsimp only
    rw [servingFrom]
    generalize (_ : List Ptr)[1]? = o
    cases o <;> rfl

/-! ## Who may receive -/

/-- `chmpxid` is that of a record that is up and not suspended; with consistent tables it is a
server's. -/
def MayReceive (m : ChmpxMan) (chmpxid : ChmpxId) : Prop :=
  ∃ p, (m.chmpx p).chmpxid = chmpxid ∧ (m.chmpx p).status.isDown = false ∧
    (m.chmpx p).status.isSuspend = false ∧ (TablesConsistent m → p ∈ m.nodes m.chmpxServers)

/-- The rules for the receivers of a message. -/
structure ReceiversOk (m : ChmpxMan) (c2ctype : C2cType) (chmpxids : List ChmpxId) : Prop where
  nodup : chmpxids.Nodup
  mayReceive : ∀ x ∈ chmpxids, MayReceive m x
  notSelf : c2ctype.isNotSelf = true → m.getSelfChmpxId ∉ chmpxids

/-- What `getRandomServerChmpxId` finds. -/
theorem turn_spec (h : Formed m svrs frees rest) (ht : m.turn svrs = some p) :
    p ∈ svrs ∧ passesServicing true (m.chmpx p) = true := by
  have hserving : ∀ {q r : Ptr}, q ∈ svrs → r ∈ m.servingFrom svrs q →
      r ∈ svrs ∧ passesServicing true (m.chmpx r) = true := by
    intro q r hq hr
    obtain ⟨hr, hpass⟩ := List.mem_filter.mp hr
    exact ⟨(Circle.mem_round hq).mp hr, hpass⟩
  rw [turn] at ht
  split at ht
  · rename_i q hfind
    have hmem := List.mem_of_getElem? ht
    rcases List.mem_append.mp hmem with hmem | hmem <;>
      exact hserving (find_servers_mem h hfind) hmem
  · obtain ⟨q, hq, hp⟩ := Option.bind_eq_some_iff.mp ht
    exact hserving (List.mem_of_mem_head? hq) (List.mem_of_mem_head? hp)

theorem mayReceive_of_serving (h : Formed m svrs frees rest) (hp : p ∈ svrs)
    (hpass : (m.chmpx p).status.isServicing = true)
    (hno : (m.chmpx p).status.isSuspend = false) : MayReceive m (m.chmpx p).chmpxid :=
  ⟨p, rfl, ChmpxSts.not_isDown_of_isServicing hpass, hno, fun _ => h.nodes.symm ▸ hp⟩

theorem getRandomServerChmpxId_ok (h : Formed m svrs frees rest)
    (hvalid : (m.getRandomServerChmpxId true).1 ≠ chmInvalidChmpxId) :
    m.chmpxBhashCount ≠ 0 ∧ ∃ p, m.turn svrs = some p ∧
      (m.getRandomServerChmpxId true).1 = (m.chmpx p).chmpxid ∧
        MayReceive m (m.chmpx p).chmpxid := by
  have hn : m.chmpxBhashCount ≠ 0 := by
    intro h0
    rw [getRandomServerChmpxId, if_pos h0] at hvalid
    exact hvalid rfl
  refine ⟨hn, ?_⟩
  rw [getRandomServerChmpxId_eq h hn] at hvalid ⊢
  cases ht : m.turn svrs with
  | none =>
    rw [ht] at hvalid
    exact absurd rfl hvalid
  | some p =>
    obtain ⟨hp, hpass⟩ := turn_spec h ht
    rw [passesServicing, Bool.and_eq_true] at hpass
    exact ⟨p, rfl, rfl, mayReceive_of_serving h hp hpass.1
      (ChmpxSts.not_isSuspend_of_isNosup (by simpa using hpass.2))⟩

/-- The rules for a list that leaves this node in. -/
structure Usable (m : ChmpxMan) (chmpxids : List ChmpxId) : Prop where
  nodup : chmpxids.Nodup
  mayReceive : ∀ x ∈ chmpxids, MayReceive m x

theorem usable_collect {r : Ring} {n : Nat} {slots : List ChmHash} {c : Collected}
    (htable : TablesConsistent m → TableConsistent r m n) (hlt : ∀ i ∈ slots, i < n)
    (h : Formed m svrs frees rest) (hc : Usable m c.chmpxids) :
    Usable m (slots.foldl (collectSlot r true true m) c).chmpxids := by
  induction slots generalizing c with
  | nil => exact hc
  | cons slot slots ih =>
    rw [List.foldl_cons]
    refine ih (fun i hi => hlt i (List.mem_cons_of_mem _ hi)) ?_
    rw [collectSlot]
    split
    · exact hc
    · rename_i p hp
      dsimp only
      split
      · exact hc
      · split
        · exact hc
        · split
          · exact hc
          · rename_i hpass
            rw [passesFilter, Bool.true_and, Bool.true_and] at hpass
            simp only [Bool.not_eq_true', Bool.not_eq_false, Bool.and_eq_true] at hpass
            have hmay : MayReceive m (m.chmpx p).chmpxid := by
              refine ⟨p, rfl, hpass.1, hpass.2, fun ht => ?_⟩
              obtain ⟨q, hq, -, hserver, -⟩ :=
                ringServer_eq (htable ht) (hlt slot List.mem_cons_self)
              obtain rfl : q = p := Option.some.inj (hq.symm.trans hp)
              rw [h.nodes]
              exact h.lists.server_mem q hserver.mode
            refine ⟨nodup_foldl_register [_] _ hc.nodup, fun x hx => ?_⟩
            rcases mem_register hx with hx | rfl
            · exact hc.mayReceive x hx
            · exact hmay

theorem usable_getServerChmpxIdByHashs (h : Formed m svrs frees rest) (hash : ChmHash) :
    Usable m (m.getServerChmpxIdByHashs hash).2.1 := by
  have hnil : Usable m [] := ⟨List.nodup_nil, fun x hx => absurd hx List.not_mem_nil⟩
  rw [getServerChmpxIdByHashs]
  dsimp only
  rw [getServerChmpxIdAndBaseHashByHashs]
  split
  · exact hnil
  · rename_i hn
    have hbase : Usable m ((m.window hash m.chmpxBhashCount).foldl
        (collectSlot .base true true m) ⟨[], [], chmInvalidChmpxId⟩).chmpxids :=
      usable_collect TablesConsistent.base (fun i hi => lt_of_mem_positions (Nat.pos_of_ne_zero hn)
        (window_eq m hash _ ▸ hi)) h hnil
    dsimp only
    split
    · split
      · exact hbase
      · rename_i hmax
        exact usable_collect TablesConsistent.pending
          (fun i hi => lt_of_mem_positions (Nat.pos_of_ne_zero hmax)
            (window_eq m hash _ ▸ hi)) h hbase
    · exact hbase

theorem receiversOk_allReceivers (h : Usable m chmpxids) :
    ReceiversOk m c2ctype (m.allReceivers c2ctype chmpxids) := by
  refine ⟨h.nodup.filter _, fun x hx => h.mayReceive x (List.mem_of_mem_filter hx),
    fun hnot hx => ?_⟩
  have hskip := (List.mem_filter.mp hx).2
  rw [skipsSelf, hnot] at hskip
  simp at hskip

/-- The first receiver of a list is not this node when the type excepts it. -/
theorem receiversOk_firstReceiver (h : ∀ x ∈ chmpxids, MayReceive m x)
    (hx : m.firstReceiver c2ctype chmpxids = some chmpxid) :
    ReceiversOk m c2ctype [chmpxid] := by
  refine ⟨List.nodup_singleton _, fun x hx' => ?_, fun hnot hself => ?_⟩
  · rw [List.mem_singleton.mp hx']
    exact h _ (List.mem_of_find?_eq_some hx)
  · have hskip := List.find?_some hx
    rw [skipsSelf, hnot, List.mem_singleton.mp hself] at hskip
    simp at hskip

/-- A server whose status in the list is servicing and not suspended. -/
theorem mayReceive_of_status (h : Formed m svrs frees rest)
    (hpass : (m.getServerStatus chmpxid).isServicing = true)
    (hno : (m.getServerStatus chmpxid).isSuspend = false) : MayReceive m chmpxid := by
  rw [getServerStatus] at hpass hno
  by_cases hnone : m.chmpxServers = none
  · rw [if_pos hnone] at hpass
    cases hpass
  · rw [if_neg hnone] at hpass hno
    cases hfind : m.find m.chmpxServers chmpxid with
    | none =>
      rw [hfind] at hpass
      have hout : ChmpxSts.srvoutDownNormal.isServicing = true := hpass
      exact absurd hout (by decide)
    | some p =>
      rw [hfind] at hpass hno
      have hid : (m.chmpx p).chmpxid = chmpxid := by
        rw [h.head] at hfind
        cases svrs with
        | nil => cases hfind
        | cons s svrs => exact (h.lists.find_mem List.mem_cons_self hfind).2
      exact hid ▸ mayReceive_of_serving h (find_servers_mem h hfind) hpass hno

/-- The main server of a hash serves and is not suspended. -/
def MainServes (m : ChmpxMan) (hash : ChmHash) (chmpxid : ChmpxId) : Prop :=
  m.chmpxBhashCount ≠ 0 ∧
    (∃ p, ringServer .base m (hash % m.chmpxBhashCount) = some p ∧
      (m.chmpx p).chmpxid = chmpxid) ∧
    (m.getServerStatus chmpxid).isServicing = true ∧
      (m.getServerStatus chmpxid).isSuspend = false

theorem getMainReceiver_iff (hvalid : chmpxid ≠ chmInvalidChmpxId) :
    (m.getMainReceiver hash).1 = chmpxid ↔ MainServes m hash chmpxid := by
  rw [getMainReceiver, getServerChmpxIdByHash, MainServes]
  by_cases hn : m.chmpxBhashCount = 0
  · rw [if_pos hn]
    exact ⟨fun h => absurd h.symm hvalid, fun h => absurd hn h.1⟩
  · rw [if_neg hn]
    cases hring : ringServer .base m (hash % m.chmpxBhashCount) with
    | none =>
      refine ⟨fun h => absurd h.symm hvalid, fun h => ?_⟩
      obtain ⟨p, hp, -⟩ := h.2.1
      cases hp
    | some p =>
      have hstatus : ({ m with lastChmpxid := (m.chmpx p).chmpxid } : ChmpxMan).getServerStatus
          (m.chmpx p).chmpxid = m.getServerStatus (m.chmpx p).chmpxid := rfl
      dsimp only
      rw [hstatus]
      constructor
      · intro h
        split at h
        · exact absurd h.symm hvalid
        · rename_i hpass
          have hid : (m.chmpx p).chmpxid = chmpxid := h
          rw [hid] at hpass
          have hserves : (!(m.getServerStatus chmpxid).isServicing ||
              (m.getServerStatus chmpxid).isSuspend) = false :=
            Bool.eq_false_iff.mpr fun hrefused => hpass ⟨hvalid, hrefused⟩
          rw [Bool.or_eq_false_iff, Bool.not_eq_false'] at hserves
          exact ⟨hn, ⟨p, rfl, hid⟩, hserves⟩
      · rintro ⟨-, ⟨q, hq, rfl⟩, hserves, hno⟩
        obtain rfl := Option.some.inj hq
        rw [if_neg]
        rintro ⟨-, hrefused⟩
        rw [hserves, hno] at hrefused
        cases hrefused

/-- A server that `GetServerChmpxIds` lists and the broadcast keeps. -/
def canReceive (m : ChmpxMan) (c2ctype : C2cType) (p : Ptr) : Bool :=
  let svr := m.chmpx p
  !svr.status.isDown && !svr.status.isSuspend &&
    (svr.status.isBaseHash || svr.status.isPendingHash) &&
    !m.skipsSelf c2ctype svr.chmpxid && !refusesMessages (m.getServerStatus svr.chmpxid)

theorem allReceivers_getServerChmpxIds (h : Formed m svrs frees rest) :
    m.allReceivers c2ctype (m.getServerChmpxIds true) =
      (svrs.filter (m.canReceive c2ctype)).map fun p => (m.chmpx p).chmpxid := by
  rw [allReceivers, getServerChmpxIds, h.nodes, List.filter_map, List.filter_filter]
  congr 2
  funext p
  simp only [canReceive, Function.comp_apply, Bool.true_and]
  ac_rfl

theorem mayReceive_getServerChmpxIds (h : Formed m svrs frees rest) :
    ∀ x ∈ m.getServerChmpxIds true, MayReceive m x := by
  intro x hx
  rw [getServerChmpxIds, h.nodes] at hx
  obtain ⟨p, hp, rfl⟩ := List.mem_map.mp hx
  obtain ⟨hp, hpass⟩ := List.mem_filter.mp hp
  simp only [Bool.and_eq_true, Bool.not_eq_true'] at hpass
  exact ⟨p, rfl, hpass.1.1, hpass.1.2, fun _ => h.nodes.symm ▸ hp⟩

/-- A message that excepts this node comes to it all the same: by turns, or as the main server
of the hash. -/
def LoopsBack (m : ChmpxMan) (isRandomDeliver : Bool) (hash : ChmHash) (c2ctype : C2cType) : Prop :=
  c2ctype.isNotSelf = true ∧ m.getSelfChmpxId ≠ chmInvalidChmpxId ∧
    c2ctype.isBroadcast = false ∧ c2ctype.isRbroadcast = false ∧
    if isRandomDeliver then
      m.chmpxBhashCount ≠ 0 ∧ ∃ p, m.turn (m.nodes m.chmpxServers) = some p ∧
        (m.chmpx p).chmpxid = m.getSelfChmpxId
    else c2ctype.isRouting = false ∧ MainServes m hash m.getSelfChmpxId

/-- Two servers that a broadcast goes to have different chmpxids. -/
def DistinctReceivers (m : ChmpxMan) (c2ctype : C2cType) : Prop :=
  (m.nodes m.chmpxServers).Pairwise fun p q =>
    m.canReceive c2ctype p = true → m.canReceive c2ctype q = true →
      (m.chmpx p).chmpxid ≠ (m.chmpx q).chmpxid

theorem receiversOk_singleton {x : ChmpxId} (hmay : MayReceive m x) :
    ReceiversOk m c2ctype [x] ↔ ¬(c2ctype.isNotSelf = true ∧ m.getSelfChmpxId = x) := by
  constructor
  · rintro hok ⟨hnot, hself⟩
    exact hok.notSelf hnot (List.mem_singleton.mpr hself)
  · intro hself
    refine ⟨List.nodup_singleton _, fun y hy => ?_, fun hnot hx => ?_⟩
    · rw [List.mem_singleton.mp hy]
      exact hmay
    · exact hself ⟨hnot, List.mem_singleton.mp hx⟩

/-- A message that goes to the server whose turn it is. -/
theorem random_ok_iff (h : Formed m svrs frees rest) :
    (∀ l, (if (m.getRandomServerChmpxId true).1 = chmInvalidChmpxId then none
        else some [(m.getRandomServerChmpxId true).1]) = some l → ReceiversOk m c2ctype l) ↔
      ¬(c2ctype.isNotSelf = true ∧ m.getSelfChmpxId ≠ chmInvalidChmpxId ∧
        m.chmpxBhashCount ≠ 0 ∧ ∃ p, m.turn svrs = some p ∧
          (m.chmpx p).chmpxid = m.getSelfChmpxId) := by
  constructor
  · rintro hok ⟨hnot, hself, hn, p, ht, hid⟩
    have hx : (m.getRandomServerChmpxId true).1 = m.getSelfChmpxId := by
      rw [getRandomServerChmpxId_eq h hn, ht]
      exact hid
    rw [hx, if_neg hself] at hok
    exact (hok _ rfl).notSelf hnot (List.mem_singleton_self _)
  · intro hturn l hl
    split at hl
    · cases hl
    · rename_i hvalid
      obtain rfl := Option.some.inj hl
      obtain ⟨hn, p, ht, hx, hmay⟩ := getRandomServerChmpxId_ok h hvalid
      rw [hx] at hvalid ⊢
      refine (receiversOk_singleton hmay).mpr fun ⟨hnot, hself⟩ => hturn ?_
      exact ⟨hnot, hself ▸ hvalid, hn, p, ht, hself.symm⟩

/-- Moving `last_chmpxid` changes no rule. -/
theorem MovesLast.receiversOk (h : MovesLast m m') (hok : ReceiversOk m' c2ctype chmpxids) :
    ReceiversOk m c2ctype chmpxids := by
  obtain ⟨x, rfl⟩ := h
  have hconsistent : TablesConsistent m → TablesConsistent { m with lastChmpxid := x } :=
    fun ht => ⟨ht.base, ht.pending⟩
  refine ⟨hok.nodup, fun y hy => ?_, hok.notSelf⟩
  obtain ⟨p, hid, hup, hno, hmem⟩ := hok.mayReceive y hy
  exact ⟨p, hid, hup, hno, fun ht => hmem (hconsistent ht)⟩

theorem MovesLast.formed (h : MovesLast m m') (hf : Formed m svrs frees rest) :
    Formed m' svrs frees rest := by
  obtain ⟨x, rfl⟩ := h
  exact ⟨⟨hf.lists.chains, hf.lists.bound, hf.lists.frees_head, hf.lists.freeCount,
    hf.lists.serverCount, hf.lists.server_mem, hf.lists.isServer⟩, hf.head, hf.area⟩

theorem MovesLast.firstReceiver_eq (h : MovesLast m m') :
    m'.firstReceiver c2ctype chmpxids = m.firstReceiver c2ctype chmpxids := by
  obtain ⟨x, rfl⟩ := h
  rfl

theorem MovesLast.allReceivers_eq (h : MovesLast m m') :
    m'.allReceivers c2ctype chmpxids = m.allReceivers c2ctype chmpxids := by
  obtain ⟨x, rfl⟩ := h
  rfl

theorem modes_of_isRouting (h : c2ctype.isRouting = true) :
    c2ctype.isBroadcast = false ∧ c2ctype.isRbroadcast = false := by
  have hmode : comC2cRouting = c2ctype.mode := of_decide_eq_true h
  rw [C2cType.isBroadcast, C2cType.isRbroadcast, ← hmode]
  decide

theorem modes_of_isBroadcast (h : c2ctype.isBroadcast = true) :
    c2ctype.isRouting = false ∧ c2ctype.isRbroadcast = false := by
  have hmode : comC2cBroadcast = c2ctype.mode := of_decide_eq_true h
  rw [C2cType.isRouting, C2cType.isRbroadcast, ← hmode]
  decide

theorem broadcast_ok_iff (h : Formed m svrs frees rest) :
    (∀ l, (if (m.getServerChmpxIds true).isEmpty then none
        else some (m.allReceivers c2ctype (m.getServerChmpxIds true))) = some l →
      ReceiversOk m c2ctype l) ↔ DistinctReceivers m c2ctype := by
  have hnodup : (m.allReceivers c2ctype (m.getServerChmpxIds true)).Nodup ↔
      DistinctReceivers m c2ctype := by
    rw [allReceivers_getServerChmpxIds h, DistinctReceivers, h.nodes, List.Nodup,
      List.pairwise_map, List.pairwise_filter]
  constructor
  · intro hok
    rw [← hnodup]
    split at hok
    · rename_i hempty
      rw [List.isEmpty_iff.mp hempty]
      exact List.nodup_nil
    · exact (hok _ rfl).nodup
  · intro hdistinct l hl
    split at hl
    · cases hl
    · obtain rfl := Option.some.inj hl
      refine ⟨hnodup.mpr hdistinct, fun x hx =>
        mayReceive_getServerChmpxIds h x (List.mem_of_mem_filter hx), fun hnot hx => ?_⟩
      have hskip := (List.mem_filter.mp hx).2
      rw [skipsSelf, hnot] at hskip
      simp at hskip

/-- A message that goes to the main server of its hash, or to another one when that one cannot
take it. -/
theorem main_ok_iff (h : Formed m svrs frees rest) (hmode : c2ctype.isRouting = false ∧
    c2ctype.isBroadcast = false ∧ c2ctype.isRbroadcast = false) :
    (∀ l, (m.getReceiverChmpxids false hash c2ctype).1 = some l → ReceiversOk m c2ctype l) ↔
      ¬(c2ctype.isNotSelf = true ∧ m.getSelfChmpxId ≠ chmInvalidChmpxId ∧
        MainServes m hash m.getSelfChmpxId) := by
  have hmoves := getMainReceiver_spec m hash
  rw [getReceiverChmpxids]
  simp only [hmode.1, hmode.2.1, hmode.2.2, Bool.false_eq_true, if_false]
  constructor
  · rintro hok ⟨hnot, hself, hmain⟩
    rw [← getMainReceiver_iff hself] at hmain
    rw [hmain, if_pos hself] at hok
    exact (hok _ rfl).notSelf hnot (List.mem_singleton_self _)
  · intro hturn l hl
    split at hl
    · rename_i hvalid
      obtain rfl := Option.some.inj hl
      have hmain := (getMainReceiver_iff hvalid).mp rfl
      refine (receiversOk_singleton (mayReceive_of_status h hmain.2.2.1 hmain.2.2.2)).mpr
        fun hback => hturn ⟨hback.1, hback.2 ▸ hvalid, ?_⟩
      rw [hback.2]
      exact hmain
    · split at hl
      · have husable := usable_getServerChmpxIdByHashs (hmoves.1.formed h) hash
        have hagain := getServerChmpxIdByHashs_spec (m.getMainReceiver hash).2 hash
        split at hl
        · cases hl
        · split at hl
          · cases hl
          · rename_i hne
            obtain rfl := Option.some.inj hl
            cases hfirst : ((m.getMainReceiver hash).2.getServerChmpxIdByHashs
                hash).2.2.firstReceiver c2ctype
                  ((m.getMainReceiver hash).2.getServerChmpxIdByHashs hash).2.1 with
            | none =>
              rw [hfirst] at hne
              exact absurd rfl hne
            | some x =>
              rw [hagain.1.firstReceiver_eq] at hfirst
              exact hmoves.1.receiversOk (receiversOk_firstReceiver husable.mayReceive hfirst)
      · cases hl

/-- The receivers keep the rules exactly when the message does not come back to this node and a
broadcast finds its servers by different chmpxids. -/
theorem getReceiverChmpxids_ok_iff (h : WellFormed m) (isRandomDeliver : Bool) (hash : ChmHash)
    (c2ctype : C2cType) :
    (∀ chmpxids, (m.getReceiverChmpxids isRandomDeliver hash c2ctype).1 = some chmpxids →
        ReceiversOk m c2ctype chmpxids) ↔
      ¬LoopsBack m isRandomDeliver hash c2ctype ∧
        (c2ctype.isBroadcast = true → DistinctReceivers m c2ctype) := by
  obtain ⟨svrs, frees, rest, hf⟩ := h
  have hlisted := usable_getServerChmpxIdByHashs hf hash
  have hmoves := (getServerChmpxIdByHashs_spec m hash).1
  by_cases hrouting : c2ctype.isRouting = true
  · obtain ⟨hb, hr⟩ := modes_of_isRouting hrouting
    cases isRandomDeliver with
    | true =>
      rw [getReceiverChmpxids, if_pos hrouting, if_pos rfl]
      simp only [LoopsBack, hb, hr, hf.nodes, Bool.false_eq_true, false_implies, and_true,
        if_true, true_and]
      exact random_ok_iff hf
    | false =>
      have hnot : ¬LoopsBack m false hash c2ctype := fun hl => by
        rw [LoopsBack, hrouting] at hl
        cases hl.2.2.2.2.1
      refine iff_of_true (fun l hl => ?_) ⟨hnot, fun hbroadcast => ?_⟩
      · rw [getReceiverChmpxids, if_pos hrouting] at hl
        simp only [Bool.false_eq_true, if_false] at hl
        split at hl
        · cases hl
        · obtain ⟨x, hfirst, rfl⟩ := Option.map_eq_some_iff.mp hl
          rw [hmoves.firstReceiver_eq] at hfirst
          exact receiversOk_firstReceiver hlisted.mayReceive hfirst
      · rw [hb] at hbroadcast
        cases hbroadcast
  · by_cases hbroadcast : c2ctype.isBroadcast = true
    · have hnot : ¬LoopsBack m isRandomDeliver hash c2ctype := fun hl => by
        rw [LoopsBack, hbroadcast] at hl
        cases hl.2.2.1
      rw [getReceiverChmpxids, if_neg hrouting, if_pos hbroadcast]
      simp only [hnot, hbroadcast, not_false_eq_true, true_and, true_implies]
      rw [apply_ite Prod.fst]
      exact broadcast_ok_iff hf
    · by_cases hrbroadcast : c2ctype.isRbroadcast = true
      · have hnot : ¬LoopsBack m isRandomDeliver hash c2ctype := fun hl => by
          rw [LoopsBack, hrbroadcast] at hl
          cases hl.2.2.2.1
        refine iff_of_true (fun l hl => ?_) ⟨hnot, fun hb => absurd hb hbroadcast⟩
        rw [getReceiverChmpxids, if_neg hrouting, if_neg hbroadcast, if_pos hrbroadcast] at hl
        dsimp only at hl
        split at hl
        · cases hl
        · obtain rfl := Option.some.inj hl
          rw [hmoves.allReceivers_eq]
          exact receiversOk_allReceivers hlisted
      · have hmode := (⟨Bool.eq_false_iff.mpr hrouting, Bool.eq_false_iff.mpr hbroadcast,
          Bool.eq_false_iff.mpr hrbroadcast⟩ : c2ctype.isRouting = false ∧
            c2ctype.isBroadcast = false ∧ c2ctype.isRbroadcast = false)
        simp only [LoopsBack, hmode.1, hmode.2.1, hmode.2.2, hf.nodes, Bool.false_eq_true,
          false_implies, and_true, true_and]
        cases isRandomDeliver with
        | true =>
          rw [getReceiverChmpxids, if_neg hrouting, if_neg hbroadcast, if_neg hrbroadcast,
            if_pos rfl]
          exact random_ok_iff hf
        | false => exact main_ok_iff hf hmode

theorem getReceiverChmpxids_ok_sample :
    ∃ chmpxids, (sampleRing.getReceiverChmpxids true 0 0x11).1 = some chmpxids ∧
      ReceiversOk sampleRing 0x11 chmpxids := by
  have hwf : WellFormed sampleRing := reachable_wellFormed
    (.step sampleEnv _ (.init (sampleMan_eq true) (sampleCfg_allowed true)) sampleRing_allowed)
    fun _ _ _ h => h
  have hself : ∀ p ∈ sampleRing.nodes sampleRing.chmpxServers,
      passesServicing true (sampleRing.chmpx p) = true →
        (sampleRing.chmpx p).chmpxid ≠ sampleRing.getSelfChmpxId := by decide +kernel
  obtain ⟨chmpxids, hids⟩ := Option.isSome_iff_exists.mp
    (by decide +kernel : (sampleRing.getReceiverChmpxids true 0 0x11).1.isSome)
  refine ⟨chmpxids, hids, (getReceiverChmpxids_ok_iff hwf true 0 0x11).mpr
    ⟨fun hloop => ?_, fun hb => by cases hb⟩ chmpxids hids⟩
  obtain ⟨-, -, -, -, -, p, hturn, hid⟩ := hloop
  obtain ⟨svrs, frees, rest, hf⟩ := hwf
  obtain ⟨hp, hpass⟩ := turn_spec hf (hf.nodes ▸ hturn)
  exact hself p (hf.nodes.symm ▸ hp) hpass hid

/-- The first node of a ring of two, both up, whose hashes are numbered. -/
def pairMan : ChmpxMan :=
  ((RingNet.ringMan 97 [98] [97, 98]).exec sampleEnv (.updateHash .both true true)).2

theorem pairMan_wellFormed : WellFormed pairMan := by
  have hok : ConfigAllowed sampleEnv (RingNet.ringCfg 97 [98]) :=
    ⟨by decide +kernel, by decide +kernel⟩
  exact exec_wellFormed (RingNet.ringMan_wellFormed _ (by decide +kernel) hok) trivial

/-- A message that excepts the node that sends it comes back to that node, as the main server of
the hash and by turns. -/
theorem getReceiverChmpxids_loopsBack :
    WellFormed pairMan ∧ C2cType.isNotSelf 0x11 = true ∧
      (pairMan.getReceiverChmpxids false 0 0x11).1 = some [pairMan.getSelfChmpxId] ∧
        (({ pairMan with lastChmpxid := pairMan.getSelfChmpxId } : ChmpxMan).getReceiverChmpxids
          true 0 0x11).1 = some [pairMan.getSelfChmpxId] :=
  ⟨pairMan_wellFormed, by decide, by decide +kernel, by decide +kernel⟩

end ChmpxMan
end Chm
