/-
Nodes that exchange the status of one server.

Every node has its own manager.  Statuses are set at nodes, records of the server
are made from what a node holds, and a node merges records in any order and any
number of times.  The time at which a status was set travels with a record as a
ghost, so that what the nodes hold can be compared with a cluster of
last-writer-wins registers: while every record is merged in order, a step of the
nodes is a run of the registers.
-/
import Chm.Runs
import Chm.StatusMerge

namespace Chm

/-- The nodes, what the registers of the server's status hold and have seen, and the
records of the server that have been made, each with the time of its status. -/
structure StatusNet (ι ω : Type*) where
  man : ι → ChmpxMan
  reg : LastWriter.Cluster ι ω ChmpxSts
  posted : Set (ChmpxSvr × ω)

namespace StatusNet

open ChmpxMan

variable {ι ω : Type*} [LinearOrder ω] {chmpxid : ChmpxId} {n n' : StatusNet ι ω}
variable {env : Env} {args : MergeArgs} {records : List (ChmpxSvr × ω)}

/-- The invariant: a node's status of the server is what its register holds, and a
record that has been made has a status that a register has seen. -/
structure Registers (chmpxid : ChmpxId) (n : StatusNet ι ω) : Prop where
  wellFormed : ∀ i, WellFormed (n.man i)
  shows : ∀ i, Shows (n.man i) chmpxid ((n.reg.held i).map (·.value))
  coherent : LastWriter.Coherent n.reg
  posted : ∀ record ∈ n.posted,
    ∃ j, (⟨record.2, record.1.status⟩ : Stamped ω ChmpxSts) ∈ n.reg.seen j

theorem Registers.statusOf_eq (h : Registers chmpxid n) (hid : chmpxid ≠ chmInvalidChmpxId)
    (i : ι) : statusOf (n.man i) chmpxid = (n.reg.held i).map (·.value) := by
  obtain ⟨svrs, frees, rest, hf⟩ := h.wellFormed i
  exact (h.shows i).statusOf_eq hf hid

variable [DecidableEq ι]

/-- A node's manager becomes `m`, and the registers `reg`. -/
def atNode (n : StatusNet ι ω) (i : ι) (m : ChmpxMan) (reg : LastWriter.Cluster ι ω ChmpxSts) :
    StatusNet ι ω :=
  ⟨Function.update n.man i m, reg, n.posted⟩

omit [LinearOrder ω] in
theorem man_atNode (n : StatusNet ι ω) (i j : ι) (m : ChmpxMan)
    (reg : LastWriter.Cluster ι ω ChmpxSts) :
    (n.atNode i m reg).man j = if j = i then m else n.man j := Function.update_apply ..

/-- The records of the server come in at a node's register. -/
def takeRecords (chmpxid : ChmpxId) (i : ι) (reg : LastWriter.Cluster ι ω ChmpxSts)
    (records : List (ChmpxSvr × ω)) : LastWriter.Cluster ι ω ChmpxSts :=
  records.foldl (fun reg record =>
    if record.1.chmpxid = chmpxid then reg.take i ⟨record.2, record.1.status⟩ else reg) reg

/-- One step: a status of the server is set, with a time that is later than the
node's own and that no other status has; something else happens at a node; a record
of the server is made; or a node merges records.  `ok` is asked of every merge. -/
inductive Step (chmpxid : ChmpxId)
    (ok : Env → MergeArgs → List (ChmpxSvr × ω) → Option (Stamped ω ChmpxSts) → ChmpxMan → Prop) :
    StatusNet ι ω → StatusNet ι ω → Prop
  | update {n : StatusNet ι ω} (i : ι) (env : Env) (op : Op) (a : Stamped ω ChmpxSts) :
      (∀ args records, op ≠ .mergeChmpxSvrs args records) →
      statusOf ((n.man i).exec env op).2 chmpxid = some a.value →
      (∀ b, n.reg.held i = some b → b.time < a.time) →
      (∀ j, ∀ b ∈ n.reg.seen j, b.time ≠ a.time) →
      Step chmpxid ok n (n.atNode i ((n.man i).exec env op).2 (n.reg.take i a))
  | quiet {n : StatusNet ι ω} (i : ι) (env : Env) (op : Op) :
      (∀ args records, op ≠ .mergeChmpxSvrs args records) →
      statusOf ((n.man i).exec env op).2 chmpxid = statusOf (n.man i) chmpxid →
      Step chmpxid ok n (n.atNode i ((n.man i).exec env op).2 n.reg)
  | elsewhere {n : StatusNet ι ω} (i : ι) (m : ChmpxMan) :
      Elsewhere (n.man i) m → (∃ chain, MapOk m chain) →
      statusOf m chmpxid = statusOf (n.man i) chmpxid →
      Step chmpxid ok n (n.atNode i m n.reg)
  | post {n : StatusNet ι ω} (i : ι) (p : Ptr) (a : Stamped ω ChmpxSts) :
      (n.man i).find (n.man i).chmpxServers chmpxid = some p → n.reg.held i = some a →
      Step chmpxid ok n
        ⟨n.man, n.reg, insert (((n.man i).chmpx p).getChmpxSvr, a.time) n.posted⟩
  | merge {n : StatusNet ι ω} (i : ι) (env : Env) (args : MergeArgs)
      (records : List (ChmpxSvr × ω)) :
      records ≠ [] → MergeAllowed env (records.map Prod.fst) (n.man i) →
      (∀ record ∈ records, record.1.chmpxid = chmpxid → record ∈ n.posted) →
      (args.isRemove = true →
        chmpxid = (n.man i).keptChmpxId ∨ chmpxid ∈ records.map (·.1.chmpxid)) →
      ok env args records (n.reg.held i) (n.man i) →
      Step chmpxid ok n (n.atNode i (mergeChmpxSvrs env args (records.map Prod.fst) (n.man i)).2.2
        (takeRecords chmpxid i n.reg records))

/-- A run of steps. -/
def Run (chmpxid : ChmpxId)
    (ok : Env → MergeArgs → List (ChmpxSvr × ω) → Option (Stamped ω ChmpxSts) → ChmpxMan → Prop)
    (n n' : StatusNet ι ω) : Prop :=
  Relation.ReflTransGen (Step chmpxid ok) n n'

/-- Every record of a call is merged in order. -/
def InOrder (chmpxid : ChmpxId) (env : Env) (args : MergeArgs) (records : List (ChmpxSvr × ω))
    (held : Option (Stamped ω ChmpxSts)) (m : ChmpxMan) : Prop :=
  RecordsInOrder env args m.keptChmpxId chmpxid records held ⟨m.chmpxServers, false, m⟩

/-! ## The registers -/

theorem held_takeRecords (chmpxid : ChmpxId) (i : ι) (records : List (ChmpxSvr × ω)) :
    ∀ reg : LastWriter.Cluster ι ω ChmpxSts, ∀ j, (takeRecords chmpxid i reg records).held j =
      if j = i then records.foldl (takeRecord chmpxid) (reg.held i) else reg.held j := by
  induction records with
  | nil =>
    intro reg j
    show reg.held j = if j = i then reg.held i else reg.held j
    split
    · rename_i hj
      rw [hj]
    · rfl
  | cons record records ih =>
    intro reg j
    unfold takeRecords at ih ⊢
    rw [List.foldl_cons, List.foldl_cons, ih]
    unfold takeRecord
    by_cases hrec : record.1.chmpxid = chmpxid
    · rw [if_pos hrec, if_pos hrec, LastWriter.Coherent.held_take, LastWriter.Coherent.held_take,
        if_pos rfl]
      split
      · rfl
      · rfl
    · rw [if_neg hrec, if_neg hrec]

/-- A node has seen the status of every record that it has merged. -/
theorem seen_takeRecords (chmpxid : ChmpxId) (i : ι) (records : List (ChmpxSvr × ω)) :
    ∀ reg : LastWriter.Cluster ι ω ChmpxSts, ∀ j b,
      b ∈ (takeRecords chmpxid i reg records).seen j ↔ b ∈ reg.seen j ∨ j = i ∧
        ∃ record ∈ records, record.1.chmpxid = chmpxid ∧ b = ⟨record.2, record.1.status⟩ := by
  induction records with
  | nil =>
    intro reg j b
    constructor
    · exact Or.inl
    · rintro (hb | ⟨-, record, hrec, -⟩)
      · exact hb
      · exact absurd hrec List.not_mem_nil
  | cons record records ih =>
    intro reg j b
    unfold takeRecords at ih ⊢
    simp only [List.foldl_cons, ih, List.mem_cons, exists_eq_or_imp]
    split
    · rename_i hrec
      rw [LastWriter.Coherent.seen_take]
      tauto
    · rename_i hrec
      tauto

/-- Records whose statuses some register has seen are received one by one. -/
theorem run_takeRecords (chmpxid : ChmpxId) (i : ι) (records : List (ChmpxSvr × ω)) :
    ∀ reg : LastWriter.Cluster ι ω ChmpxSts,
      (∀ record ∈ records, record.1.chmpxid = chmpxid →
        ∃ j, (⟨record.2, record.1.status⟩ : Stamped ω ChmpxSts) ∈ reg.seen j) →
      LastWriter.Run reg (takeRecords chmpxid i reg records) := by
  induction records with
  | nil => exact fun reg _ => .refl
  | cons record records ih =>
    intro reg hseen
    have hall := fun r hr => hseen r (List.mem_cons_of_mem _ hr)
    unfold takeRecords at ih ⊢
    rw [List.foldl_cons]
    split
    · rename_i hrec
      obtain ⟨j, hj⟩ := hseen record List.mem_cons_self hrec
      refine (ih _ fun r hr hid => ?_).head (LastWriter.Step.receive i j _ hj)
      obtain ⟨k, hk⟩ := hall r hr hid
      exact ⟨k, (LastWriter.Coherent.seen_take reg i k _ _).mpr (Or.inl hk)⟩
    · exact ih reg hall

/-! ## The nodes are a cluster of registers -/

/-- A node whose status of the server has become `v`. -/
theorem Registers.at_node (h : Registers chmpxid n) (i : ι) {m : ChmpxMan}
    {reg : LastWriter.Cluster ι ω ChmpxSts} (hwf : WellFormed m)
    (hshow : Shows m chmpxid ((reg.held i).map (·.value)))
    (hother : ∀ j, j ≠ i → reg.held j = n.reg.held j) (hrun : LastWriter.Run n.reg reg)
    (hsub : ∀ j, n.reg.seen j ⊆ reg.seen j) :
    Registers chmpxid (n.atNode i m reg) := by
  refine ⟨fun j => ?_, fun j => ?_, h.coherent.run hrun, fun record hrec => ?_⟩
  · rw [man_atNode]
    split
    · exact hwf
    · exact h.wellFormed j
  · rw [man_atNode]
    show Shows _ chmpxid ((reg.held j).map (·.value))
    split
    · rename_i hj
      rw [hj]
      exact hshow
    · rename_i hj
      rw [hother j hj]
      exact h.shows j
  · obtain ⟨j, hj⟩ := h.posted record hrec
    exact ⟨j, hsub j hj⟩

/-- A step whose merge is in order keeps the invariant, and is a run of the
registers. -/
theorem Registers.step (h : Registers chmpxid n) (hid : chmpxid ≠ chmInvalidChmpxId)
    (hs : Step chmpxid (InOrder chmpxid) n n') :
    Registers chmpxid n' ∧ LastWriter.Run n.reg n'.reg := by
  -- What an operation other than a merge does to the list of a node.
  have hexec : ∀ (i : ι) (env : Env) (op : Op),
      (∀ args records, op ≠ .mergeChmpxSvrs args records) →
      WellFormed ((n.man i).exec env op).2 ∧ ∃ chain, MapOk ((n.man i).exec env op).2 chain := by
    intro i env op hop
    have hsame := exec_sameRecords env (n.man i) hop
    obtain ⟨svrs, frees, rest, hf⟩ := h.wellFormed i
    obtain ⟨chain, hm, -⟩ := h.shows i
    exact ⟨⟨svrs, frees, rest, hsame.toSameShape.formed hf⟩, chain, hm.sameShape hsame.toSameShape⟩
  have hshow : ∀ {m : ChmpxMan}, WellFormed m → (∃ chain, MapOk m chain) →
      Shows m chmpxid (statusOf m chmpxid) := by
    rintro m ⟨svrs, frees, rest, hf⟩ ⟨chain, hm⟩
    exact ⟨chain, hm, hm.statusOf_eq hf hid⟩
  cases hs with
  | update i env op a hop hst hlater hnew =>
    obtain ⟨hwf, hmap⟩ := hexec i env op hop
    have hstep : LastWriter.Step n.reg (n.reg.take i a) := LastWriter.Step.write i a hlater hnew
    have hheld : (n.reg.take i a).held i = some a := by
      rw [LastWriter.Coherent.held_take, if_pos rfl]
      cases hb : n.reg.held i with
      | none => rfl
      | some b => exact if_pos (le_of_lt (hlater b hb))
    refine ⟨h.at_node i hwf ?_ (fun j hj => ?_) (.single hstep) fun j b hb => ?_, .single hstep⟩
    · rw [hheld, Option.map_some, ← hst]
      exact hshow hwf hmap
    · rw [LastWriter.Coherent.held_take, if_neg hj]
    · exact (LastWriter.Coherent.seen_take n.reg i j a b).mpr (Or.inl hb)
  | quiet i env op hop hst =>
    obtain ⟨hwf, hmap⟩ := hexec i env op hop
    refine ⟨h.at_node i hwf ?_ (fun _ _ => rfl) .refl fun _ => subset_rfl, .refl⟩
    rw [← h.statusOf_eq hid i, ← hst]
    exact hshow hwf hmap
  | elsewhere i m he hmap hst =>
    refine ⟨h.at_node i he.wellFormed ?_ (fun _ _ => rfl) .refl fun _ => subset_rfl, .refl⟩
    rw [← h.statusOf_eq hid i, ← hst]
    exact hshow he.wellFormed hmap
  | post i p a hf ha =>
    refine ⟨⟨h.wellFormed, h.shows, h.coherent, ?_⟩, .refl⟩
    rintro record (rfl | hrec)
    · refine ⟨i, ?_⟩
      have hst := h.statusOf_eq hid i
      unfold statusOf at hst
      rw [hf, ha] at hst
      have hval : ((n.man i).chmpx p).status = a.value := Option.some.inj hst
      show (⟨a.time, ((n.man i).chmpx p).status⟩ : Stamped ω ChmpxSts) ∈ n.reg.seen i
      rw [hval]
      exact h.coherent.held i a ha
    · exact h.posted record hrec
  | merge i env args records hrec hok hposted hkeep hord =>
    have hne : records.map Prod.fst ≠ [] := fun he => hrec (List.map_eq_nil_iff.mp he)
    obtain ⟨svrs, frees, rest, hf⟩ := h.wellFormed i
    have hwf := (mergeChmpxSvrs_agrees args (h.wellFormed i) hne hok).1
    have hrun := run_takeRecords chmpxid i records n.reg fun r hr hrid =>
      h.posted r (hposted r hr hrid)
    refine ⟨h.at_node i hwf ?_ (fun j hj => ?_) hrun fun j b hb => ?_, hrun⟩
    rotate_right
    · exact (seen_takeRecords chmpxid i records n.reg j b).mpr (Or.inl hb)
    · rw [held_takeRecords, if_pos rfl]
      exact mergeChmpxSvrs_shows args hf hid hrec hok hkeep hord (h.shows i)
    · rw [held_takeRecords, if_neg hj]

/-- A run whose merges are in order keeps the invariant. -/
theorem Registers.run (h : Registers chmpxid n) (hid : chmpxid ≠ chmInvalidChmpxId)
    (hr : Run chmpxid (InOrder chmpxid) n n') : Registers chmpxid n' := by
  induction hr with
  | refl => exact h
  | tail _ hs ih => exact (ih.step hid hs).1

def sampleNet : StatusNet Bool ℕ where
  man := sampleMan
  reg := ⟨fun _ => some ⟨0, ChmpxSts.srvoutDownNormal⟩, fun _ => {⟨0, ChmpxSts.srvoutDownNormal⟩}⟩
  posted := ∅

section Samples

variable {ok : Env → MergeArgs → List (ChmpxSvr × ℕ) → Option (Stamped ℕ ChmpxSts) →
  ChmpxMan → Prop} {n : StatusNet Bool ℕ}

end Samples

end StatusNet
end Chm
