/-
The two hash rings: what a renumbering leaves in the nodes and in the arrays.

A ring is the base ring or the pending one.  The loop of `UpdateHash` treats both
in one pass; a node's share of the pass is `hashNode`, and for one ring it reads
as "number the members in list order and point their slots to them".
-/
import Chm.ServerList

namespace Chm

/-- The base ring, `HASHTG_BASE`, or the pending ring, `HASHTG_PENDING`. -/
inductive Ring
  | base
  | pending
  deriving DecidableEq, Repr

namespace Ring

/-- The statuses of the servers of the ring. -/
def member : Ring → ChmpxSts → Bool
  | .base, status => status.isBaseHash
  | .pending, status => status.isPendingHash

def hash : Ring → Chmpx → ChmHash
  | .base, c => c.baseHash
  | .pending, c => c.pendingHash

/-- The array of the ring. -/
def srvs : Ring → ChmpxMan → ChmHash → Option Ptr
  | .base, m => m.chmpxBaseSrvs
  | .pending, m => m.chmpxPendSrvs

/-- A call with `type` renumbers the ring. -/
def inType : Ring → HashTg → Bool
  | .base, type => type.isBase
  | .pending, type => type.isPending

/-- The ring's one of a base and a pending value. -/
def pick : Ring → Nat → Nat → Nat
  | .base, newbase, _ => newbase
  | .pending, _, newpending => newpending

/-- The members of the ring in a list of nodes. -/
def members (r : Ring) (m : ChmpxMan) (svrs : List Ptr) : List Ptr :=
  svrs.filter fun p => r.member (m.chmpx p).status

theorem members_congr (r : Ring) {m m' : ChmpxMan} {svrs : List Ptr}
    (h : ∀ p ∈ svrs, (m'.chmpx p).status = (m.chmpx p).status) :
    r.members m' svrs = r.members m svrs :=
  List.filter_congr fun p hp => by rw [h p hp]

theorem members_cons_of_pos {r : Ring} {m : ChmpxMan} {p : Ptr} (svrs : List Ptr)
    (h : r.member (m.chmpx p).status = true) : r.members m (p :: svrs) = p :: r.members m svrs :=
  List.filter_cons_of_pos h

theorem members_cons_of_neg {r : Ring} {m : ChmpxMan} {p : Ptr} (svrs : List Ptr)
    (h : ¬r.member (m.chmpx p).status = true) : r.members m (p :: svrs) = r.members m svrs :=
  List.filter_cons_of_neg h

theorem length_members_le (r : Ring) (m : ChmpxMan) (svrs : List Ptr) :
    (r.members m svrs).length ≤ svrs.length := List.length_filter_le ..

end Ring

/-- The servers of `svrs` are numbered from `start` on: the members of the ring in
list order, each with its slot, and nobody else. -/
structure NumberedFrom (r : Ring) (m : ChmpxMan) (svrs : List Ptr) (start : Nat) : Prop where
  hashes : (r.members m svrs).map (fun p => r.hash (m.chmpx p)) =
    List.range' start (r.members m svrs).length
  slots : ∀ i < (r.members m svrs).length, r.srvs m (start + i) = (r.members m svrs)[i]?
  others : ∀ p ∈ svrs, r.member (m.chmpx p).status = false →
    r.hash (m.chmpx p) = chmInvalidHashVal

namespace NumberedFrom

variable {r : Ring} {m : ChmpxMan} {p : Ptr} {svrs : List Ptr} {start : Nat}

theorem nil (r : Ring) (m : ChmpxMan) (start : Nat) : NumberedFrom r m [] start :=
  ⟨rfl, fun _ hi => absurd hi (Nat.not_lt_zero _), fun _ hp => absurd hp List.not_mem_nil⟩

/-- A member before the others takes the first number. -/
theorem cons_member (h : NumberedFrom r m svrs (start + 1))
    (hp : r.member (m.chmpx p).status = true) (hh : r.hash (m.chmpx p) = start)
    (hs : r.srvs m start = some p) : NumberedFrom r m (p :: svrs) start := by
  have hmem := Ring.members_cons_of_pos svrs hp
  refine ⟨?_, fun i hi => ?_, fun q hq hno => ?_⟩
  · rw [hmem, List.map_cons, h.hashes, hh, List.length_cons, List.range'_succ]
  · rw [hmem] at hi ⊢
    cases i with
    | zero => exact hs
    | succ i =>
      rw [List.getElem?_cons_succ, ← h.slots i (by simpa using hi)]
      rw [Nat.add_assoc, Nat.add_comm 1]
  · rcases List.mem_cons.mp hq with rfl | hq
    · rw [hp] at hno
      cases hno
    · exact h.others q hq hno

/-- A server that is no member takes no number. -/
theorem cons_other (h : NumberedFrom r m svrs start) (hp : r.member (m.chmpx p).status = false)
    (hh : r.hash (m.chmpx p) = chmInvalidHashVal) : NumberedFrom r m (p :: svrs) start := by
  have hmem := Ring.members_cons_of_neg svrs (Bool.eq_false_iff.mp hp)
  refine ⟨by rw [hmem]; exact h.hashes, fun i hi => ?_, fun q hq hno => ?_⟩
  · rw [hmem] at hi ⊢
    exact h.slots i hi
  · rcases List.mem_cons.mp hq with rfl | hq
    · exact hh
    · exact h.others q hq hno

end NumberedFrom

/-- The tables agree with the server list: in both rings the members hold the
numbers from zero on in list order, the array slot of a number points to the
member that holds it, the other servers hold the invalid hash, and
`chmpx_bhash_count` is the number of members of the base ring. -/
structure HashesAgree (m : ChmpxMan) : Prop where
  numbered : ∀ r : Ring, NumberedFrom r m (m.nodes m.chmpxServers) 0
  count : m.chmpxBhashCount = (Ring.base.members m (m.nodes m.chmpxServers)).length

/-- `m'` has the same names and statuses as `m`. -/
structure SameStatuses (m m' : ChmpxMan) : Prop where
  name : ∀ p, (m'.chmpx p).name = (m.chmpx p).name
  status : ∀ p, (m'.chmpx p).status = (m.chmpx p).status

/-- A step leaves the hashes and the array of a ring alone. -/
structure Keeps (r : Ring) (m m' : ChmpxMan) : Prop where
  hash : ∀ p, r.hash (m'.chmpx p) = r.hash (m.chmpx p)
  srvs : r.srvs m' = r.srvs m

/-- A step gives the node at `p` the hash `hash` in a ring, and points the slot of
a valid hash to it. -/
structure Writes (r : Ring) (m m' : ChmpxMan) (p : Ptr) (hash : ChmHash) : Prop where
  frame : ∀ q ≠ p, r.hash (m'.chmpx q) = r.hash (m.chmpx q)
  own : r.hash (m'.chmpx p) = hash
  srvs : r.srvs m' =
    if hash = chmInvalidHashVal then r.srvs m else Function.update (r.srvs m) hash (some p)

theorem SameStatuses.refl (m : ChmpxMan) : SameStatuses m m := ⟨fun _ => rfl, fun _ => rfl⟩

theorem SameStatuses.trans {m₁ m₂ m₃ : ChmpxMan} (h : SameStatuses m₁ m₂)
    (h' : SameStatuses m₂ m₃) : SameStatuses m₁ m₃ :=
  ⟨fun p => (h'.name p).trans (h.name p), fun p => (h'.status p).trans (h.status p)⟩

theorem Keeps.refl (r : Ring) (m : ChmpxMan) : Keeps r m m := ⟨fun _ => rfl, rfl⟩

theorem Keeps.trans {r : Ring} {m₁ m₂ m₃ : ChmpxMan} (h : Keeps r m₁ m₂) (h' : Keeps r m₂ m₃) :
    Keeps r m₁ m₃ :=
  ⟨fun p => (h'.hash p).trans (h.hash p), h'.srvs.trans h.srvs⟩

theorem Writes.keeps {r : Ring} {m₁ m₂ m₃ : ChmpxMan} {p : Ptr} {hash : ChmHash}
    (h : Writes r m₁ m₂ p hash) (h' : Keeps r m₂ m₃) : Writes r m₁ m₃ p hash :=
  ⟨fun q hq => (h'.hash q).trans (h.frame q hq), (h'.hash p).trans h.own, h'.srvs.trans h.srvs⟩

theorem Keeps.writes {r : Ring} {m₁ m₂ m₃ : ChmpxMan} {p : Ptr} {hash : ChmHash}
    (h : Keeps r m₁ m₂) (h' : Writes r m₂ m₃ p hash) : Writes r m₁ m₃ p hash :=
  ⟨fun q hq => (h'.frame q hq).trans (h.hash q), h'.own, by rw [h'.srvs, h.srvs]⟩

namespace ChmpxMan

variable {env : Env} {m m' : ChmpxMan} {svrs frees : List Ptr} {rest : List (List Ptr)} {p q : Ptr}

/-! ## One write of hashes -/

theorem chmpx_writeBase (m : ChmpxMan) (p : Ptr) (hash : ChmHash) :
    (m.writeBase p hash).chmpx = m.chmpx := by
  rw [writeBase]
  split <;> rfl

theorem chmpx_writePend (m : ChmpxMan) (p : Ptr) (hash : ChmHash) :
    (m.writePend p hash).chmpx = m.chmpx := by
  rw [writePend]
  split <;> rfl

/-- What a merged record leaves of a node's chmpx. -/
theorem chmpx_mergeChmpxSvr (env : Env) (type : ChmpxIdSeedType) (svr : ChmpxSvr) (p : Ptr)
    (m : ChmpxMan) :
    (m.mergeChmpxSvr env type svr p).chmpx =
      match (m.chmpx p).mergeChmpxSvr env type svr with
      | none => m.chmpx
      | some c => Function.update m.chmpx p c := by
  cases h : (m.chmpx p).mergeChmpxSvr env type svr with
  | none => simp only [mergeChmpxSvr, h]
  | some c =>
    simp only [mergeChmpxSvr, h]
    split_ifs <;> simp only [chmpx_writePend, chmpx_writeBase, setChmpx]

theorem srvs_writeBase (m : ChmpxMan) (p : Ptr) (hash : ChmHash) (r : Ring) :
    r.srvs (m.writeBase p hash) =
      if r = .base then
        if hash = chmInvalidHashVal then r.srvs m
        else Function.update (r.srvs m) hash (some p)
      else r.srvs m := by
  rw [writeBase]
  by_cases h : hash = chmInvalidHashVal <;> cases r <;> simp [h] <;> rfl

theorem srvs_writePend (m : ChmpxMan) (p : Ptr) (hash : ChmHash) (r : Ring) :
    r.srvs (m.writePend p hash) =
      if r = .pending then
        if hash = chmInvalidHashVal then r.srvs m
        else Function.update (r.srvs m) hash (some p)
      else r.srvs m := by
  rw [writePend]
  by_cases h : hash = chmInvalidHashVal <;> cases r <;> simp [h] <;> rfl

theorem srvs_setChmpx (r : Ring) (m : ChmpxMan) (p : Ptr) (c : Chmpx) :
    r.srvs (m.setChmpx p c) = r.srvs m := by cases r <;> rfl

/-- `Set` of a named node writes the hashes of its type and no other. -/
theorem set_spec (env : Env) (base pending : ChmHash) (type : HashTg)
    (h : (m.chmpx p).name.isEmpty = false) :
    ∃ m', m.set env base pending type p = (true, m') ∧ SameStatuses m m' ∧
      (∀ q ≠ p, m'.chmpx q = m.chmpx q) ∧
      (∀ r : Ring, r.inType type = true → Writes r m m' p (r.pick base pending)) ∧
      ∀ r : Ring, r.inType type = false → Keeps r m m' := by
  let c : Chmpx := { m.chmpx p with
    baseHash := if type.isBase then base else (m.chmpx p).baseHash
    pendingHash := if type.isPending then pending else (m.chmpx p).pendingHash
    lastStatusTime := env.now p }
  have hset : m.set env base pending type p = (true,
      let m := m.setChmpx p c
      let m := if type.isBase then m.writeBase p base else m
      if type.isPending then m.writePend p pending else m) := by
    simp only [set, Chmpx.set, h, Bool.false_eq_true, if_false]
    rfl
  refine ⟨_, hset, ?_⟩
  dsimp only
  have hchmpx : ∀ q, (if type.isPending then
      (if type.isBase then (m.setChmpx p c).writeBase p base else m.setChmpx p c).writePend p
        pending
      else if type.isBase then (m.setChmpx p c).writeBase p base else m.setChmpx p c).chmpx q =
        if q = p then c else m.chmpx q := fun q => by
    cases type <;> simp only [HashTg.isBase, HashTg.isPending, if_true, Bool.false_eq_true,
      if_false, chmpx_writeBase, chmpx_writePend, chmpx_setChmpx]
  refine ⟨⟨fun q => ?_, fun q => ?_⟩, fun q hq => ?_, fun r hr => ⟨fun q hq => ?_, ?_, ?_⟩,
    fun r hr => ⟨fun q => ?_, ?_⟩⟩
  · rw [hchmpx]
    split
    · rename_i hq
      rw [hq]
    · rfl
  · rw [hchmpx]
    split
    · rename_i hq
      rw [hq]
    · rfl
  · rw [hchmpx, if_neg hq]
  · rw [hchmpx, if_neg hq]
  · rw [hchmpx, if_pos rfl]
    cases r <;> exact if_pos hr
  · cases type <;> cases r <;> first
      | (cases hr; done)
      | (simp only [HashTg.isBase, HashTg.isPending, if_true, Bool.false_eq_true, if_false,
          srvs_writeBase, srvs_writePend, srvs_setChmpx, Ring.pick, reduceCtorEq]
         rfl)
  · rw [hchmpx]
    split
    · rename_i hq
      rw [hq]
      cases r <;> exact if_neg (Bool.eq_false_iff.mp hr)
    · rfl
  · cases type <;> cases r <;> first
      | (cases hr; done)
      | simp only [HashTg.isBase, HashTg.isPending, if_true, Bool.false_eq_true, if_false,
          srvs_writeBase, srvs_writePend, srvs_setChmpx, reduceCtorEq]

/-! ## The renumbering loop -/

/-- The new number of a node with `status` when the ring is at `next`. -/
def newHash (r : Ring) (status : ChmpxSts) (next : Nat) : Nat :=
  if r.member status then next else chmInvalidHashVal

/-- The number after that of a node with `status`. -/
def nextHash (r : Ring) (type : HashTg) (status : ChmpxSts) (next : Nat) : Nat :=
  if r.inType type && r.member status then next + 1 else next

/-- What the loop of `UpdateHash` does with one node. -/
structure HashNode (type : HashTg) (m m' : ChmpxMan) (p : Ptr) (newbase newpending : Nat) :
    Prop where
  statuses : SameStatuses m m'
  writes : ∀ r : Ring, r.inType type = true →
    Writes r m m' p (newHash r (m.chmpx p).status (r.pick newbase newpending))
  keeps : ∀ r : Ring, r.inType type = false → Keeps r m m'

/-- The loop does its share with the first node and goes on with the rest. -/
theorem updateHashLoop_cons (env : Env) (type : HashTg) (ps : List Ptr)
    (newbase newpending : Nat) (h : (m.chmpx p).name.isEmpty = false) :
    ∃ m', HashNode type m m' p newbase newpending ∧
      updateHashLoop env type (p :: ps) newbase newpending m =
        updateHashLoop env type ps (nextHash .base type (m.chmpx p).status newbase)
          (nextHash .pending type (m.chmpx p).status newpending) m' := by
  obtain ⟨m₁, hs₁, hst₁, -, hw₁, hk₁⟩ := set_spec (m := m) (p := p) env
    (newHash .base (m.chmpx p).status newbase) 0 .base h
  simp only [updateHashLoop, h, Bool.false_eq_true, if_false]
  cases type with
  | base =>
    refine ⟨m₁, ⟨hst₁, ?_, ?_⟩, ?_⟩
    · rintro (_ | _) hr
      · exact hw₁ .base rfl
      · cases hr
    · rintro (_ | _) hr
      · cases hr
      · exact hk₁ .pending rfl
    · simp only [HashTg.isBase, HashTg.isPending, Bool.true_and, Bool.false_and, Bool.false_eq_true,
        if_true, if_false]
      rw [show (m.set env (if (m.chmpx p).status.isBaseHash then newbase else chmInvalidHashVal) 0
        .base p) = (true, m₁) from hs₁]
      rfl
  | pending =>
    obtain ⟨m₂, hs₂, hst₂, -, hw₂, hk₂⟩ := set_spec (m := m) (p := p) env 0
      (newHash .pending (m.chmpx p).status newpending) .pending h
    refine ⟨m₂, ⟨hst₂, ?_, ?_⟩, ?_⟩
    · rintro (_ | _) hr
      · cases hr
      · exact hw₂ .pending rfl
    · rintro (_ | _) hr
      · exact hk₂ .base rfl
      · cases hr
    · simp only [HashTg.isBase, HashTg.isPending, Bool.true_and, Bool.false_and, Bool.false_eq_true,
        if_true, if_false]
      rw [show (m.set env 0 (if (m.chmpx p).status.isPendingHash then newpending
        else chmInvalidHashVal) .pending p) = (true, m₂) from hs₂]
      rfl
  | both =>
    have h₁ : (m₁.chmpx p).name.isEmpty = false := (hst₁.name p).symm ▸ h
    obtain ⟨m₂, hs₂, hst₂, -, hw₂, hk₂⟩ := set_spec (m := m₁) (p := p) env 0
      (newHash .pending (m.chmpx p).status newpending) .pending h₁
    refine ⟨m₂, ⟨hst₁.trans hst₂, ?_, ?_⟩, ?_⟩
    · rintro (_ | _) hr
      · exact (hw₁ .base rfl).keeps (hk₂ .base rfl)
      · exact (hk₁ .pending rfl).writes (hw₂ .pending rfl)
    · rintro (_ | _) hr <;> cases hr
    · simp only [HashTg.isBase, HashTg.isPending, Bool.true_and, if_true]
      rw [show (m.set env (if (m.chmpx p).status.isBaseHash then newbase else chmInvalidHashVal) 0
        .base p) = (true, m₁) from hs₁]
      dsimp only
      rw [show (m₁.set env 0 (if (m.chmpx p).status.isPendingHash then newpending
        else chmInvalidHashVal) .pending p) = (true, m₂) from hs₂]
      rfl

/-- What the loop leaves: statuses as they were, and in each ring of the call the
nodes of the loop numbered from its counter on, with nothing else written but
slots of later numbers. -/
structure HashLoop (type : HashTg) (m m' : ChmpxMan) (ps : List Ptr)
    (newbase newpending : Nat) : Prop where
  statuses : SameStatuses m m'
  numbered : ∀ r : Ring, r.inType type = true →
    NumberedFrom r m' ps (r.pick newbase newpending)
  frame : ∀ r : Ring, r.inType type = true → ∀ q ∉ ps, r.hash (m'.chmpx q) = r.hash (m.chmpx q)
  below : ∀ r : Ring, r.inType type = true → ∀ i < r.pick newbase newpending,
    r.srvs m' i = r.srvs m i
  keeps : ∀ r : Ring, r.inType type = false → Keeps r m m'

theorem Ring.pick_nextHash (r : Ring) (type : HashTg) (status : ChmpxSts)
    (newbase newpending : Nat) :
    r.pick (nextHash .base type status newbase) (nextHash .pending type status newpending) =
      nextHash r type status (r.pick newbase newpending) := by
  cases r <;> rfl

/-- One node and then the rest of the loop number the node and the rest. -/
theorem HashNode.loop {type : HashTg} {m₁ : ChmpxMan} {ps : List Ptr}
    {newbase newpending : Nat} (h : HashNode type m m₁ p newbase newpending)
    (hp : p ∉ ps) (hvalid : ∀ r : Ring, r.inType type = true →
      r.pick newbase newpending < chmInvalidHashVal)
    (h' : HashLoop type m₁ m' ps (nextHash .base type (m.chmpx p).status newbase)
      (nextHash .pending type (m.chmpx p).status newpending)) :
    HashLoop type m m' (p :: ps) newbase newpending := by
  refine ⟨h.statuses.trans h'.statuses, fun r hr => ?_, fun r hr q hq => ?_, fun r hr i hi => ?_,
    fun r hr => (h.keeps r hr).trans (h'.keeps r hr)⟩
  · have hnum := h'.numbered r hr
    have hw := h.writes r hr
    have hst : (m'.chmpx p).status = (m.chmpx p).status :=
      (h.statuses.trans h'.statuses).status p
    have hhash : r.hash (m'.chmpx p) =
        newHash r (m.chmpx p).status (r.pick newbase newpending) :=
      (h'.frame r hr p hp).trans hw.own
    rw [Ring.pick_nextHash, nextHash, hr, Bool.true_and] at hnum
    cases hmem : r.member (m.chmpx p).status with
    | true =>
      rw [hmem, if_pos rfl] at hnum
      rw [newHash, hmem, if_pos rfl] at hhash
      refine hnum.cons_member (by rw [hst, hmem]) hhash ?_
      have hlt : r.pick newbase newpending < r.pick
          (nextHash .base type (m.chmpx p).status newbase)
          (nextHash .pending type (m.chmpx p).status newpending) := by
        rw [Ring.pick_nextHash, nextHash, hr, hmem]
        exact Nat.lt_succ_self _
      rw [h'.below r hr _ hlt, hw.srvs, newHash, hmem, if_pos rfl,
        if_neg (Nat.ne_of_lt (hvalid r hr)), Function.update_self]
    | false =>
      rw [hmem] at hnum
      rw [newHash, hmem] at hhash
      exact hnum.cons_other (by rw [hst, hmem]) hhash
  · obtain ⟨hqp, hq⟩ := not_or.mp (List.mem_cons.not.mp hq)
    rw [h'.frame r hr q hq, (h.writes r hr).frame q hqp]
  · have hle : r.pick newbase newpending ≤ r.pick
        (nextHash .base type (m.chmpx p).status newbase)
        (nextHash .pending type (m.chmpx p).status newpending) := by
      rw [Ring.pick_nextHash, nextHash]
      split <;> omega
    rw [h'.below r hr i (Nat.lt_of_lt_of_le hi hle), (h.writes r hr).srvs]
    split
    · rfl
    · rw [Function.update_of_ne]
      rw [newHash]
      split
      · exact Nat.ne_of_lt hi
      · exact Nat.ne_of_lt (Nat.lt_trans hi (hvalid r hr))

/-- The renumbering loop over distinct named nodes succeeds and numbers them. -/
theorem updateHashLoop_spec (env : Env) (type : HashTg) (ps : List Ptr) :
    ∀ (m : ChmpxMan) (newbase newpending : Nat), ps.Nodup →
      (∀ p ∈ ps, (m.chmpx p).name.isEmpty = false) →
      (∀ r : Ring, r.inType type = true →
        r.pick newbase newpending + ps.length ≤ chmInvalidHashVal) →
      ∃ m', updateHashLoop env type ps newbase newpending m = (true, m') ∧
        HashLoop type m m' ps newbase newpending := by
  induction ps with
  | nil =>
    intro m newbase newpending _ _ _
    exact ⟨m, rfl, SameStatuses.refl m, fun r _ => NumberedFrom.nil r m _, fun _ _ _ _ => rfl,
      fun _ _ _ _ => rfl, fun r _ => Keeps.refl r m⟩
  | cons p ps ih =>
    intro m newbase newpending hnd hname hvalid
    obtain ⟨hp, hnd⟩ := List.nodup_cons.mp hnd
    obtain ⟨m₁, hnode, hloop⟩ := updateHashLoop_cons env type ps newbase newpending
      (hname p List.mem_cons_self)
    obtain ⟨m', hrun, h'⟩ := ih m₁ (nextHash .base type (m.chmpx p).status newbase)
      (nextHash .pending type (m.chmpx p).status newpending) hnd
      (fun q hq => by
        rw [hnode.statuses.name]
        exact hname q (List.mem_cons_of_mem _ hq))
      (fun r hr => by
        have := hvalid r hr
        rw [List.length_cons] at this
        rw [Ring.pick_nextHash, nextHash]
        split <;> omega)
    refine ⟨m', hloop.trans hrun, hnode.loop hp (fun r hr => ?_) h'⟩
    have := hvalid r hr
    rw [List.length_cons] at this
    omega

end ChmpxMan
end Chm
