/-
Status changes of different servers at one node.

`PxComReceiveStatusChange` merges the record of a packet, and the merge ends with `UpdateHash`,
which stamps every server of the list with the clock.  The age of the next packet is judged by
that stamp, whichever server it is about: a change from a second before the one in which the node
has handled the packet before is dropped.  So every server has the status of its last change
exactly while no packet is that late (`receives_right_iff`).
-/
import Chm.UpdateRecovery

namespace Chm

namespace ChmpxMan

/-- A packet of STATUS_CHANGE as a node handles it: what is around the node at that moment, whether
a client has joined, and the record. -/
structure Change where
  env : Env
  isClientJoin : Bool
  eqfd : Bool
  svr : ChmpxSvr

variable {type : ChmpxIdSeedType} {chmpxid : ChmpxId} {m : ChmpxMan} {d : Change}
variable {svrs frees : List Ptr} {rest : List (List Ptr)} {chain : Nat → List Ptr} {p : Ptr}
variable {before : Option Change} {ds : List Change}

/-- How `PxComReceiveStatusChange` calls `MergeChmpxSvrs`. -/
def Change.args (type : ChmpxIdSeedType) (d : Change) : MergeArgs where
  type := type
  isClientJoin := d.isClientJoin
  isRemove := false
  isInitProcess := false
  eqfd := d.eqfd

/-- The manager after a packet. -/
def receive (type : ChmpxIdSeedType) (m : ChmpxMan) (d : Change) : ChmpxMan :=
  (mergeChmpxSvrs d.env (d.args type) [d.svr] m).2.2

/-- The packets, one after the other. -/
def receives (type : ChmpxIdSeedType) (m : ChmpxMan) (ds : List Change) : ChmpxMan :=
  ds.foldl (receive type) m

/-- The status of the last change of a server, or `v` when there is none. -/
def lastChange (chmpxid : ChmpxId) (v : Option ChmpxSts) (ds : List Change) : Option ChmpxSts :=
  ds.foldl (fun v d => if d.svr.chmpxid = chmpxid then some d.svr.status else v) v

/-- The checks of the code that look at no time let the record in: it is about the server that is
known by this chmpxid, opens no port that is open, and the node does not put a status of its own in
the place of the record's; or there is room for a new server that is not out and down. -/
def Accepted (type : ChmpxIdSeedType) (m : ChmpxMan) (d : Change) : Prop :=
  match m.find m.chmpxServers d.svr.chmpxid with
  | some p =>
    (m.chmpx p).sameChmpx d.env type d.svr = true ∧ (m.chmpx p).blocksMerge d.svr = false ∧
      (selfRecord (d.args type) m.keptChmpxId (m.chmpx p) d.svr).status = d.svr.status
  | none =>
    m.chmpxFreeCount ≠ 0 ∧ d.svr.status ≠ ChmpxSts.srvoutDownNormal ∧ m.chmpxServers ≠ none ∧
      Chmpx.refuses d.env m.group d.svr.name = false ∧
      (Chmpx.initializeServer d.env type m.group d.svr Chmpx.cleared).1 = true

instance : Decidable (Accepted type m d) :=
  match h : m.find m.chmpxServers d.svr.chmpxid with
  | some p => decidable_of_iff ((m.chmpx p).sameChmpx d.env type d.svr = true ∧
      (m.chmpx p).blocksMerge d.svr = false ∧
      (selfRecord (d.args type) m.keptChmpxId (m.chmpx p) d.svr).status = d.svr.status)
      (by rw [Accepted, h])
  | none => decidable_of_iff (m.chmpxFreeCount ≠ 0 ∧ d.svr.status ≠ ChmpxSts.srvoutDownNormal ∧
      m.chmpxServers ≠ none ∧ Chmpx.refuses d.env m.group d.svr.name = false ∧
      (Chmpx.initializeServer d.env type m.group d.svr Chmpx.cleared).1 = true)
      (by rw [Accepted, h])

/-- What the age of a packet is judged by: the stamp in the list before the first packet, later the
clock that the node has read while it handled the packet before. -/
def stampBefore (before : Option Change) (m : ChmpxMan) (p : Ptr) : TimeT :=
  match before with
  | none => (m.chmpx p).lastStatusTime
  | some b => b.env.now p

/-- The packet comes in time, or says what the node holds. -/
def InTime (before : Option Change) (m : ChmpxMan) (d : Change) : Prop :=
  ∀ p, m.find m.chmpxServers d.svr.chmpxid = some p →
    compareStatusUpdateTime d.env.basis (stampBefore before m p) d.svr.lastStatusTime ≤ 0 ∨
      (m.chmpx p).status = d.svr.status

instance : Decidable (InTime before m d) :=
  match h : m.find m.chmpxServers d.svr.chmpxid with
  | some p => decidable_of_iff
      (compareStatusUpdateTime d.env.basis (stampBefore before m p) d.svr.lastStatusTime ≤ 0 ∨
        (m.chmpx p).status = d.svr.status)
      ⟨fun hin q hq => by cases h.symm.trans hq; exact hin, fun hin => hin p h⟩
  | none => isTrue fun _ hq => by cases h.symm.trans hq

/-- Each packet meets `K` at the manager that the packets before it leave. -/
def EachChange (type : ChmpxIdSeedType) (K : Option Change → ChmpxMan → Change → Prop) :
    Option Change → ChmpxMan → List Change → Prop
  | _, _, [] => True
  | before, m, d :: ds => K before m d ∧ EachChange type K (some d) (receive type m d) ds

/-- After each packet every server has the status of its last change. -/
def ChangesRight (type : ChmpxIdSeedType) (m : ChmpxMan) (ds : List Change) : Prop :=
  ∀ n chmpxid, chmpxid ≠ chmInvalidChmpxId →
    statusOf (receives type m (ds.take n)) chmpxid =
      lastChange chmpxid (statusOf m chmpxid) (ds.take n)

/-! ## One packet -/

/-- The status that a packet leaves of its server. -/
def statusAfter (m : ChmpxMan) (d : Change) : ChmpxSts :=
  match m.find m.chmpxServers d.svr.chmpxid with
  | some p =>
    if (m.chmpx p).takesStatus d.env d.svr then d.svr.status else (m.chmpx p).status
  | none => d.svr.status

/-- The manager and the cursor after the record, before the hashes are numbered. -/
def changed (type : ChmpxIdSeedType) (m : ChmpxMan) (d : Change) : MergeState :=
  (mergeRecord d.env (d.args type) m.keptChmpxId d.svr ⟨m.chmpxServers, false, m⟩).1

theorem receive_eq (type : ChmpxIdSeedType) (m : ChmpxMan) (d : Change) :
    receive type m d =
      ((changed type m d).man.updateHash d.env .both true true).2.recount
        (changed type m d).cur := by
  have hremove : (d.args type).isRemove = false := rfl
  obtain ⟨s, rfl, -, hman⟩ := mergeChmpxSvrs_keeping hremove (List.cons_ne_nil d.svr []) d.env m
  exact hman

/-- A record of a known server is written into its node. -/
theorem changed_known (hf : m.find m.chmpxServers d.svr.chmpxid = some p)
    (haccepted : Accepted type m d) :
    ∃ c, (changed type m d).man.chmpx = Function.update m.chmpx p c ∧
      SameShape m (changed type m d).man ∧ c.status = statusAfter m d ∧
      (changed type m d).cur = some p := by
  rw [Accepted, hf] at haccepted
  obtain ⟨hsame, hblock, hstatus⟩ := haccepted
  have hsvr : selfRecord (d.args type) m.keptChmpxId (m.chmpx p) d.svr = d.svr := by
    obtain ⟨status, hself⟩ := selfRecord_eq (d.args type) m.keptChmpxId (m.chmpx p) d.svr
    rw [hself] at hstatus ⊢
    exact congrArg (fun st => { d.svr with status := st }) hstatus
  have hrun : changed type m d =
      { cur := some p, isError := false, man := m.mergeChmpxSvr d.env type d.svr p } := by
    rw [changed, mergeRecord]
    dsimp only
    rw [hf]
    dsimp only
    rw [hsvr]
    rfl
  obtain ⟨c, hc, hst⟩ := mergeChmpxSvr_status hsame hblock
  have hchm := chmpx_mergeChmpxSvr d.env type d.svr p m
  rw [hc] at hchm
  rw [hrun]
  refine ⟨c, hchm, SameShape.mergeChmpxSvr .., ?_, rfl⟩
  rw [hst, statusAfter, hf]

/-- What a packet leaves of the lists and shows. -/
theorem changed_spec (h : Formed m svrs frees rest) (hmap : MapOk m chain)
    (haccepted : Accepted type m d) :
    (∃ svrs' frees', Formed (changed type m d).man svrs' frees' rest) ∧
      ∀ chmpxid, chmpxid ≠ chmInvalidChmpxId →
        Shows (changed type m d).man chmpxid
          (if d.svr.chmpxid = chmpxid then some (statusAfter m d) else statusOf m chmpxid) := by
  cases hf : m.find m.chmpxServers d.svr.chmpxid with
  | some p =>
    obtain ⟨c, hchm, hs, hst, -⟩ := changed_known hf haccepted
    refine ⟨⟨svrs, frees, hs.formed h⟩, fun chmpxid hid => ?_⟩
    cases svrs with
    | nil =>
      rw [h.head] at hf
      cases hf
    | cons q l =>
      rw [h.head] at hf
      obtain ⟨hp, hpid⟩ := h.lists.find_mem List.mem_cons_self hf
      by_cases hown : d.svr.chmpxid = chmpxid
      · rw [if_pos hown, ← hst]
        rw [hown] at hf
        exact hmap.shows_update h.lists List.mem_cons_self hid hf hs
          (by rw [hchm, Function.update_self])
      · obtain ⟨hmap', hlook⟩ := hmap.merged (h.lists.server hp) hchm hs
        rw [if_neg hown]
        refine ⟨chain, hmap', ?_⟩
        rw [hlook chmpxid fun he => hown (hpid.symm.trans he)]
        exact hmap.statusOf_eq h hid
  | none =>
    have haccepted' := haccepted
    rw [Accepted, hf] at haccepted'
    obtain ⟨hfree, hstatus, hservers, hname, hnew⟩ := haccepted'
    obtain ⟨q, l, rfl⟩ : ∃ q l, svrs = q :: l := by
      cases svrs with
      | nil => exact absurd h.head hservers
      | cons q l => exact ⟨q, l, rfl⟩
    have hnamed : NameAccepted d.env m d.svr := fun _ _ => hname
    obtain ⟨hsite, -, svrs', frees', hmerging⟩ :=
      mergeRecord_merging (d.args type) m.keptChmpxId h.merging hnamed
    refine ⟨⟨svrs', frees', hmerging.lists, hmerging.head, ?_⟩, fun chmpxid hid => ?_⟩
    · exact hsite.chmpxCount ▸ h.area
    · -- The record makes the server, whatever time it carries.
      have hord : RecordInOrder d.env (d.args type) m.keptChmpxId chmpxid (d.svr, (0 : ℕ))
          ((statusOf m chmpxid).map (Stamped.mk 0)) ⟨m.chmpxServers, false, m⟩ := by
        rw [RecordInOrder]
        dsimp only
        rw [hf]
        exact ⟨fun _ => ⟨hfree, hstatus⟩, fun _ _ => hnew⟩
      have hheld : ((statusOf m chmpxid).map (Stamped.mk (0 : ℕ))).map (·.value) =
          statusOf m chmpxid := by
        rw [Option.map_map]
        exact Option.map_id'
      have hshow := mergeRecord_shows h.merging hid hnamed hord
        ⟨chain, hmap, (hmap.statusOf_eq h hid).trans hheld.symm⟩
      have htake : (takeRecord chmpxid ((statusOf m chmpxid).map (Stamped.mk (0 : ℕ)))
          (d.svr, 0)).map (·.value) =
            if d.svr.chmpxid = chmpxid then some (statusAfter m d) else statusOf m chmpxid := by
        unfold takeRecord
        by_cases hown : d.svr.chmpxid = chmpxid
        · have hnone : statusOf m chmpxid = none := by
            rw [← hown, statusOf, hf]
            rfl
          rw [if_pos hown, if_pos hown, hnone, statusAfter, hf]
          rfl
        · rw [if_neg hown, if_neg hown, hheld]
      exact htake ▸ hshow

/-- A manager whose list and map are in order. -/
def Intact (m : ChmpxMan) : Prop :=
  (∃ svrs frees rest, Formed m svrs frees rest) ∧ ∃ chain, MapOk m chain

theorem WellListed.intact (h : WellListed m) : Intact m := by
  obtain ⟨svrs, frees, rest, hl⟩ := h
  exact ⟨⟨svrs, frees, rest, hl.formed⟩, hl.mapped⟩

theorem receive_sameRecords (type : ChmpxIdSeedType) (m : ChmpxMan) (d : Change) :
    SameRecords (changed type m d).man (receive type m d) := by
  rw [receive_eq]
  exact (SameRecords.updateHash _ d.env .both true true).trans (SameRecords.recount _ _)

/-- After a packet its server has the status that `MergeChmpxSvr` leaves, the others have theirs. -/
theorem receive_spec (h : Intact m) (haccepted : Accepted type m d) :
    Intact (receive type m d) ∧
      ∀ chmpxid, chmpxid ≠ chmInvalidChmpxId → statusOf (receive type m d) chmpxid =
        if d.svr.chmpxid = chmpxid then some (statusAfter m d) else statusOf m chmpxid := by
  obtain ⟨⟨svrs, frees, rest, hf⟩, chain, hmap⟩ := h
  obtain ⟨⟨svrs', frees', hf'⟩, hshow⟩ := changed_spec hf hmap haccepted
  have hs := (receive_sameRecords type m d).toSameShape
  have hst : SameStatuses (changed type m d).man (receive type m d) := by
    rw [receive_eq]
    exact renumber_statuses d.env hf' (changed type m d).cur
  have hend := hs.formed hf'
  refine ⟨⟨⟨svrs', frees', rest, hend⟩, ?_⟩, fun chmpxid hid => ?_⟩
  · obtain ⟨chain', hmap', -⟩ := hshow 1 (by decide)
    exact ⟨chain', hmap'.sameShape hs⟩
  · exact ((hshow chmpxid hid).congr hs hst).statusOf_eq hend hid

/-- A packet leaves the clock in every server that can be found. -/
theorem receive_stamps (h : Intact m) (haccepted : Accepted type m d)
    (hp : (receive type m d).find (receive type m d).chmpxServers chmpxid = some p) :
    ((receive type m d).chmpx p).lastStatusTime = d.env.now p := by
  obtain ⟨⟨svrs, frees, rest, hf⟩, chain, hmap⟩ := h
  obtain ⟨⟨svrs', frees', hf'⟩, -⟩ := changed_spec hf hmap haccepted
  have hend := (receive_sameRecords type m d).toSameShape.formed hf'
  have hmem : p ∈ svrs' := by
    cases svrs' with
    | nil =>
      rw [hend.head] at hp
      cases hp
    | cons q l =>
      rw [hend.head] at hp
      exact (hend.lists.find_mem List.mem_cons_self hp).1
  obtain ⟨base, pending, he⟩ := updateHash_restamps d.env hf' hmem
  have htime : ((receive type m d).chmpx p).lastStatusTime =
      (((changed type m d).man.updateHash d.env .both true true).2.chmpx p).lastStatusTime := by
    rw [receive_eq]
    rfl
  rw [htime, he]

/-- The stamps of the servers are what the age of the next packet is judged by. -/
def Stamps (before : Option Change) (m : ChmpxMan) : Prop :=
  ∀ chmpxid p, m.find m.chmpxServers chmpxid = some p →
    stampBefore before m p = (m.chmpx p).lastStatusTime

/-- The packet leaves the status of its change exactly when it comes in time. -/
theorem statusAfter_iff (hstamps : Stamps before m) :
    statusAfter m d = d.svr.status ↔ InTime before m d := by
  rw [statusAfter, InTime]
  cases hf : m.find m.chmpxServers d.svr.chmpxid with
  | none => exact ⟨fun _ p hp => absurd hp (by simp), fun _ => rfl⟩
  | some p =>
    have htakes : (m.chmpx p).takesStatus d.env d.svr = true ↔
        compareStatusUpdateTime d.env.basis (stampBefore before m p) d.svr.lastStatusTime ≤ 0 := by
      rw [hstamps _ p hf, Chmpx.takesStatus, decide_eq_true_eq]
    dsimp only
    constructor
    · intro heq q hq
      obtain rfl : p = q := Option.some.inj hq
      by_cases htake : (m.chmpx p).takesStatus d.env d.svr = true
      · exact Or.inl (htakes.mp htake)
      · rw [if_neg htake] at heq
        exact Or.inr heq
    · intro hin
      rcases hin p rfl with htime | heq
      · exact if_pos (htakes.mpr htime)
      · rw [heq, ite_self]

/-! ## All packets -/

theorem lastChange_cons (v : Option ChmpxSts) (d : Change) (ds : List Change) :
    lastChange chmpxid v (d :: ds) =
      lastChange chmpxid (if d.svr.chmpxid = chmpxid then some d.svr.status else v) ds := rfl

/-- All packets leave what they should when the first does and the others do after it. -/
theorem changesRight_cons_iff :
    ChangesRight type m (d :: ds) ↔
      (∀ chmpxid, chmpxid ≠ chmInvalidChmpxId → statusOf (receive type m d) chmpxid =
        if d.svr.chmpxid = chmpxid then some d.svr.status else statusOf m chmpxid) ∧
      ChangesRight type (receive type m d) ds := by
  constructor
  · intro h
    have hfirst : ∀ chmpxid, chmpxid ≠ chmInvalidChmpxId → statusOf (receive type m d) chmpxid =
        if d.svr.chmpxid = chmpxid then some d.svr.status else statusOf m chmpxid :=
      fun chmpxid hid => h 1 chmpxid hid
    refine ⟨hfirst, fun n chmpxid hid => ?_⟩
    have hall := h (n + 1) chmpxid hid
    rw [List.take_succ_cons, lastChange_cons, ← hfirst chmpxid hid] at hall
    exact hall
  · intro h n chmpxid hid
    cases n with
    | zero => rfl
    | succ n =>
      rw [List.take_succ_cons, lastChange_cons, ← h.1 chmpxid hid]
      exact h.2 n chmpxid hid

/-- What is found is known by a chmpxid that is not the invalid one. -/
theorem Intact.find_valid (h : Intact m) (hp : m.find m.chmpxServers chmpxid = some p) :
    chmpxid ≠ chmInvalidChmpxId := by
  obtain ⟨⟨svrs, frees, rest, hf⟩, -⟩ := h
  rw [hf.head] at hp
  cases svrs with
  | nil => cases hp
  | cons q l =>
    obtain ⟨hmem, hpid⟩ := hf.lists.find_mem List.mem_cons_self hp
    rw [← hpid]
    exact (hf.lists.isServer p hmem).valid

/-- One packet leaves what it should exactly when it comes in time. -/
theorem receive_right_iff (h : Intact m) (hstamps : Stamps before m)
    (haccepted : Accepted type m d) :
    (∀ chmpxid, chmpxid ≠ chmInvalidChmpxId → statusOf (receive type m d) chmpxid =
      if d.svr.chmpxid = chmpxid then some d.svr.status else statusOf m chmpxid) ↔
      InTime before m d := by
  obtain ⟨-, hst⟩ := receive_spec h haccepted
  constructor
  · intro hall p hp
    have hid := h.find_valid hp
    have hown := hall d.svr.chmpxid hid
    rw [hst _ hid, if_pos rfl, if_pos rfl] at hown
    exact (statusAfter_iff hstamps).mp (Option.some.inj hown) p hp
  · intro hin chmpxid hid
    rw [hst chmpxid hid, (statusAfter_iff hstamps).mpr hin]

/-- By induction on the packets: the stamps that a packet leaves are those of the next one. -/
theorem receives_right (h : Intact m) (hstamps : Stamps before m)
    (haccepted : EachChange type (fun _ => Accepted type) before m ds) :
    ChangesRight type m ds ↔ EachChange type InTime before m ds := by
  induction ds generalizing m before with
  | nil => exact ⟨fun _ => trivial, fun _ n chmpxid _ => by rw [List.take_nil]; rfl⟩
  | cons d ds ih =>
    obtain ⟨hnow, hlater⟩ := haccepted
    have hstamps' : Stamps (some d) (receive type m d) := fun chmpxid p hp =>
      (receive_stamps h hnow hp).symm
    rw [changesRight_cons_iff, receive_right_iff h hstamps hnow,
      ih (receive_spec h hnow).1 hstamps' hlater]
    exact Iff.rfl

/-- In every run, and for packets that nothing but their times may keep out, every server has the
status of its last change after each packet exactly when no packet is older than the second in which
the packet before it, of whichever server, was handled, unless it says what the node holds. -/
theorem receives_right_iff (hm : AreaReachable ConfigListed FitsListed m)
    (haccepted : EachChange type (fun _ => Accepted type) none m ds) :
    ChangesRight type m ds ↔ EachChange type InTime none m ds :=
  receives_right (run_wellListed hm).intact (fun _ _ _ => rfl) haccepted

/-- A change that a node with the name `name` makes in the second `sent`, handled in the second
`handled`. -/
def changeIn (name : Nat) (status : ChmpxSts) (sent handled : Nat) : Change where
  env := { sampleEnv with
    now := fun _ => getStatusLastUpdateTime (BitVec.ofNat 64 handled) 0 }
  isClientJoin := false
  eqfd := true
  svr := { sampleSvr name status with
    lastStatusTime := getStatusLastUpdateTime (BitVec.ofNat 64 sent) 0 }

/-- One server comes up and then another one joins. -/
theorem receives_right_iff_sample :
    ChangesRight .name (sampleMan true)
      [changeIn 98 ChmpxSts.srvinUpNormal 1 2, changeIn 99 ChmpxSts.srvoutUpNormal 1 3,
        changeIn 98 ChmpxSts.srvinUpPending 3 4] := by
  have hconfig : ConfigListed sampleEnv (sampleCfg true) :=
    ⟨⟨⟨by decide +kernel, by decide +kernel⟩, by decide +kernel⟩,
      ⟨by decide +kernel, by decide +kernel⟩, by decide +kernel⟩
  have haccepted : EachChange .name (fun _ => Accepted .name) none (sampleMan true)
      [changeIn 98 ChmpxSts.srvinUpNormal 1 2, changeIn 99 ChmpxSts.srvoutUpNormal 1 3,
        changeIn 98 ChmpxSts.srvinUpPending 3 4] :=
    ⟨by decide +kernel, by decide +kernel, by decide +kernel, trivial⟩
  exact (receives_right_iff (.init rfl hconfig) haccepted).mpr
    ⟨by decide +kernel, by decide +kernel, by decide +kernel, trivial⟩

end ChmpxMan
end Chm
