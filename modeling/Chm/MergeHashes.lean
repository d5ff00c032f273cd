/-
After `MergeChmpxSvrs` the tables agree with the server list.

The two phases keep the lists (`MergeLists`), `UpdateHash` numbers whatever list
they leave (`Rings`), and `chmpx_bhash_count` is read through the cursor, which is
then at one of its servers.
-/
import Chm.MergeLists
import Chm.Rings

namespace Chm

namespace ChmpxMan

variable {env : Env} {args : MergeArgs} {m m' : ChmpxMan} {s : MergeState}
variable {svrs frees : List Ptr} {rest : List (List Ptr)} {records : List ChmpxSvr}

/-- The lists of the area are well formed, the head of the server list is set, and
the area is no larger than `Initialize` allows. -/
structure Formed (m : ChmpxMan) (svrs frees : List Ptr) (rest : List (List Ptr)) : Prop where
  lists : Lists m svrs frees rest
  head : m.chmpxServers = svrs.head?
  area : m.chmpxCount ≤ maxChmpxCount

/-- The manager's lists are well formed. -/
def WellFormed (m : ChmpxMan) : Prop := ∃ svrs frees rest, Formed m svrs frees rest

theorem SameShape.formed (h : SameShape m m') (hf : Formed m svrs frees rest) :
    Formed m' svrs frees rest :=
  ⟨h.lists hf.lists, h.chmpxServers.trans hf.head, h.chmpxCount ▸ hf.area⟩

theorem Formed.nodes (h : Formed m svrs frees rest) : m.nodes m.chmpxServers = svrs :=
  h.lists.nodes_servers h.head

/-- `UpdateHash` on a list that is not empty is its loop. -/
theorem Formed.updateHash_eq {p : Ptr} {l : List Ptr} (h : Formed m (p :: l) frees rest)
    (env : Env) (type : HashTg) :
    m.updateHash env type true true = updateHashLoop env type (p :: l) 0 0 m := by
  rw [updateHash]
  simp only [Bool.not_true, Bool.false_and, Bool.false_eq_true, if_false]
  rw [h.head, List.head?_cons, listUpdateHash, h.lists.nodes_eq List.mem_cons_self]

/-- `UpdateHash` on a list that is not empty numbers the rings it is called
for. -/
theorem updateHash_spec (env : Env) (type : HashTg) (h : Formed m svrs frees rest)
    (hne : svrs ≠ []) :
    ∃ m', m.updateHash env type true true = (true, m') ∧ HashLoop type m m' svrs 0 0 := by
  have hlen : svrs.length ≤ chmInvalidHashVal :=
    ((h.lists.length_le List.mem_cons_self).trans h.area).trans (by decide)
  obtain ⟨m', hrun, hloop⟩ := updateHashLoop_spec env type svrs m 0 0 h.lists.nodup_svrs
    (fun _ => h.lists.named) (fun r _ => by cases r <;> simpa [Ring.pick] using hlen)
  refine ⟨m', ?_, hloop⟩
  obtain ⟨p, l, rfl⟩ := List.exists_cons_of_ne_nil hne
  rw [h.updateHash_eq, hrun]

/-- `UpdateHash` on an empty list fails and does nothing. -/
theorem updateHash_nil (env : Env) (type : HashTg) (h : m.chmpxServers = none) :
    m.updateHash env type true true = (false, m) := by
  rw [updateHash]
  simp only [Bool.not_true, Bool.false_and, Bool.false_eq_true, if_false]
  rw [h]
  rfl

theorem baseHashCount_eq (h : Formed m svrs frees rest) {cur : Cursor} (hcur : CursorIn cur svrs) :
    m.baseHashCount cur = (Ring.base.members m svrs).length := by
  have hn : m.nodes cur = svrs := by
    cases cur with
    | none =>
      have hnil : svrs = [] := hcur
      rw [hnil]
      rfl
    | some c => exact h.lists.nodes_eq hcur
  rw [baseHashCount, hn, List.countP_eq_length_filter]
  rfl

/-- Renumbering and recounting from a cursor in the list makes the tables
agree. -/
theorem renumber_agrees (env : Env) (h : Formed m svrs frees rest) {cur : Cursor}
    (hcur : CursorIn cur svrs) :
    HashesAgree ((m.updateHash env .both true true).2.recount cur) := by
  have hs : SameRecords m ((m.updateHash env .both true true).2.recount cur) :=
    (SameRecords.updateHash m env .both true true).trans (SameRecords.recount _ cur)
  have hf := hs.formed h
  have hf' := (SameRecords.updateHash m env .both true true).formed h
  refine ⟨fun r => ?_, ?_⟩
  · rw [hf.nodes]
    cases svrs with
    | nil => exact NumberedFrom.nil r _ 0
    | cons p l =>
      obtain ⟨m', hrun, hloop⟩ := updateHash_spec env .both h (List.cons_ne_nil p l)
      have hnum := hloop.numbered r (by cases r <;> rfl)
      rw [hrun]
      cases r <;> exact ⟨hnum.1, hnum.2, hnum.3⟩
  · rw [hf.nodes]
    exact baseHashCount_eq hf' hcur

/-! ## The whole call -/

/-- Every record that could make a new server finds the server list not empty and
has a host name that `Initialize` accepts. -/
def MergeAllowed (env : Env) (records : List ChmpxSvr) (m : ChmpxMan) : Prop :=
  ∀ svr ∈ records, m.chmpxFreeCount ≠ 0 → svr.status ≠ ChmpxSts.srvoutDownNormal →
    m.chmpxServers ≠ none ∧ Chmpx.refuses env m.group svr.name = false

/-- What the two phases leave: lists that are well formed and a cursor that is in
the server list. -/
structure Merged (m : ChmpxMan) (s : MergeState) (svrs frees : List Ptr) (rest : List (List Ptr)) :
    Prop where
  formed : Formed s.man svrs frees rest
  cur : CursorIn s.cur svrs
  site : SameSite m s.man

/-- The second phase as the call runs it. -/
def removePhase (args : MergeArgs) (selfchmpxid : ChmpxId) (chmpxids : List ChmpxId)
    (s : MergeState) : MergeState :=
  if !s.isError && args.isRemove then removeServers args selfchmpxid chmpxids s else s

/-- The call is its two phases, the renumbering and the recount. -/
theorem mergeChmpxSvrs_eq (env : Env) (args : MergeArgs) (m : ChmpxMan) (hne : records ≠ []) :
    ∃ s, s = removePhase args m.keptChmpxId
        ((mergeRecords env args m.keptChmpxId records ⟨m.chmpxServers, false, m⟩).2.map
          (·.chmpxid))
        (mergeRecords env args m.keptChmpxId records ⟨m.chmpxServers, false, m⟩).1 ∧
      (mergeChmpxSvrs env args records m).1 =
        !(s.isError || !(s.man.updateHash env .both true true).1) ∧
      (mergeChmpxSvrs env args records m).2.2 =
        (s.man.updateHash env .both true true).2.recount s.cur := by
  obtain ⟨svr, svrs, rfl⟩ := List.exists_cons_of_ne_nil hne
  exact ⟨_, rfl, rfl, rfl⟩

/-- The second phase, whether it runs or not, leaves some of the servers. -/
theorem removePhase_spec (args : MergeArgs) (selfchmpxid : ChmpxId) (chmpxids : List ChmpxId)
    (h : Merging s svrs frees rest) :
    ∃ k frees', Removed s (removePhase args selfchmpxid chmpxids s) (svrs.filter k) frees'
      rest := by
  rw [removePhase]
  split
  · obtain ⟨frees', hr⟩ := removeServers_spec args selfchmpxid h chmpxids
    exact ⟨_, frees', hr⟩
  · obtain ⟨c, hc, hcur⟩ := h.cur
    refine ⟨fun _ => true, frees, ?_⟩
    rw [List.filter_true]
    refine ⟨h.lists, h.head, ?_, SameSite.refl _, fun _ _ => rfl⟩
    rw [hcur]
    exact hc

/-- The first phase on an empty list does nothing when the call is allowed. -/
theorem mergeRecords_nil (env : Env) (args : MergeArgs) (h : Formed m [] frees rest)
    (hok : MergeAllowed env records m) :
    (mergeRecords env args m.keptChmpxId records ⟨m.chmpxServers, false, m⟩).1.man = m ∧
      (mergeRecords env args m.keptChmpxId records ⟨m.chmpxServers, false, m⟩).1.cur = none := by
  have hnone : m.chmpxServers = none := h.head
  have hadd : m.chmpxFreeCount = 0 ∨
      ∀ svr ∈ records, svr.status = ChmpxSts.srvoutDownNormal := by
    by_cases hfree : m.chmpxFreeCount = 0
    · exact Or.inl hfree
    · refine Or.inr fun svr hsvr => ?_
      by_contra hst
      exact (hok svr hsvr hfree hst).1 hnone
  exact mergeRecords_idle env args m.keptChmpxId records
    (s := ⟨m.chmpxServers, false, m⟩) hnone hadd

/-- A call starts at the head of a list that is not empty. -/
theorem Formed.merging {p : Ptr} {l : List Ptr} (h : Formed m (p :: l) frees rest) :
    Merging ⟨m.chmpxServers, false, m⟩ (p :: l) frees rest :=
  ⟨h.lists, h.head, p, List.mem_cons_self, h.head⟩

/-- The two phases on an empty list leave it empty when the call is allowed. -/
theorem removePhase_nil (args : MergeArgs) (h : Formed m [] frees rest)
    (hok : MergeAllowed env records m) (chmpxids : List ChmpxId) :
    Merged m (removePhase args m.keptChmpxId chmpxids
      (mergeRecords env args m.keptChmpxId records ⟨m.chmpxServers, false, m⟩).1) [] frees
      rest := by
  obtain ⟨hman, hcur⟩ := mergeRecords_nil env args h hok
  have hl : Lists (mergeRecords env args m.keptChmpxId records
      ⟨m.chmpxServers, false, m⟩).1.man [] frees rest := by rw [hman]; exact h.lists
  have hsite : SameSite m (mergeRecords env args m.keptChmpxId records
      ⟨m.chmpxServers, false, m⟩).1.man := by rw [hman]; exact SameSite.refl m
  rw [removePhase]
  split
  · rw [removeServers, hcur]
    dsimp only
    obtain ⟨hl', hhead, hcur', -, hsite'⟩ := setServersHead_spec hl
      (by rw [hcur]; exact rfl)
    have hs := hsite.trans hsite'
    exact ⟨⟨hl', hhead, hs.chmpxCount ▸ h.area⟩, hcur', hs⟩
  · refine ⟨⟨hl, ?_, hsite.chmpxCount ▸ h.area⟩, by rw [hcur]; exact rfl, hsite⟩
    rw [hman]
    exact h.head

/-- The two phases on a list that is not empty leave some of the servers that the
first phase leaves. -/
theorem removePhase_cons (args : MergeArgs) {p : Ptr} {l svrs' frees' : List Ptr}
    (h : Formed m (p :: l) frees rest) (hok : MergeAllowed env records m)
    (chmpxids : List ChmpxId)
    (hm : Merging (mergeRecords env args m.keptChmpxId records ⟨m.chmpxServers, false, m⟩).1 svrs'
      frees' rest) :
    ∃ k frees'', Merged m (removePhase args m.keptChmpxId chmpxids
        (mergeRecords env args m.keptChmpxId records ⟨m.chmpxServers, false, m⟩).1)
        (svrs'.filter k) frees'' rest ∧
      ∀ q ∈ svrs'.filter k, (removePhase args m.keptChmpxId chmpxids
          (mergeRecords env args m.keptChmpxId records ⟨m.chmpxServers, false, m⟩).1).man.chmpx q =
        (mergeRecords env args m.keptChmpxId records ⟨m.chmpxServers, false, m⟩).1.man.chmpx q := by
  obtain ⟨hsite, -⟩ := mergeRecords_merging args m.keptChmpxId records h.merging
    fun svr hsvr hfree hst => (hok svr hsvr hfree hst).2
  obtain ⟨k, frees'', hr⟩ := removePhase_spec args m.keptChmpxId chmpxids hm
  have hs : SameSite m _ := hsite.trans hr.site
  exact ⟨k, frees'', ⟨⟨hr.lists, hr.head, hs.chmpxCount ▸ h.area⟩, hr.cur, hs⟩, hr.chmpx⟩

/-- The two phases keep the lists. -/
theorem removePhase_merged (args : MergeArgs) (h : Formed m svrs frees rest)
    (hok : MergeAllowed env records m) (chmpxids : List ChmpxId) :
    ∃ svrs' frees', Merged m (removePhase args m.keptChmpxId chmpxids
      (mergeRecords env args m.keptChmpxId records ⟨m.chmpxServers, false, m⟩).1)
      svrs' frees' rest := by
  cases svrs with
  | nil => exact ⟨[], frees, removePhase_nil args h hok chmpxids⟩
  | cons p l =>
    obtain ⟨-, svrs', frees', hm⟩ := mergeRecords_merging args m.keptChmpxId records h.merging
      fun svr hsvr hfree hst => (hok svr hsvr hfree hst).2
    obtain ⟨k, frees'', hr, -⟩ := removePhase_cons args h hok chmpxids hm
    exact ⟨_, frees'', hr⟩

/-- A call on well-formed lists that is allowed leaves well-formed lists and
tables that agree. -/
theorem mergeChmpxSvrs_agrees (args : MergeArgs) (h : WellFormed m) (hrec : records ≠ [])
    (hok : MergeAllowed env records m) :
    WellFormed (mergeChmpxSvrs env args records m).2.2 ∧
      HashesAgree (mergeChmpxSvrs env args records m).2.2 ∧
      SameSite m (mergeChmpxSvrs env args records m).2.2 := by
  obtain ⟨svrs, frees, rest, hf⟩ := h
  obtain ⟨s, hs, -, hman⟩ := mergeChmpxSvrs_eq env args m hrec
  obtain ⟨svrs', frees', hm⟩ := removePhase_merged args hf hok
    ((mergeRecords env args m.keptChmpxId records ⟨m.chmpxServers, false, m⟩).2.map (·.chmpxid))
  rw [← hs] at hm
  rw [hman]
  have hshape : SameRecords s.man ((s.man.updateHash env .both true true).2.recount s.cur) :=
    (SameRecords.updateHash _ env .both true true).trans (SameRecords.recount _ s.cur)
  exact ⟨⟨svrs', frees', rest, hshape.formed hm.formed⟩, renumber_agrees env hm.formed hm.cur,
    hm.site.trans hshape.site⟩

end ChmpxMan
end Chm
