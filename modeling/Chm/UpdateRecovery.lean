/-
The recovery of a status update that fails.

The failed merge has written its records and stamped every server with the clock.  The
recovery is a merge too: it takes a kept status only when its second is not before that of
the stamp, and it stamps every server again.  `statusUpdate_right` says when this leaves the
servers as they were.
-/
import Chm.FindRuns
import Chm.StatusUpdate

namespace Chm

namespace ChmpxMan

variable {env env' : Env} {args args' : MergeArgs} {selfchmpxid : ChmpxId} {svr : ChmpxSvr}
variable {m m₁ : ChmpxMan} {s : MergeState} {svrs frees : List Ptr} {rest : List (List Ptr)}
variable {p q : Ptr} {ids : List ChmpxId} {records : List ChmpxSvr} {c c₁ c₂ : Chmpx}

/-! ## Records that add no server -/

/-- What a record makes of a node's chmpx. -/
def withRecord (env : Env) (args : MergeArgs) (selfchmpxid : ChmpxId) (c : Chmpx)
    (svr : ChmpxSvr) : Chmpx :=
  if svr.chmpxid = c.chmpxid then
    (c.mergeChmpxSvr env args.type (selfRecord args selfchmpxid c svr)).getD c
  else c

/-- What the records of a call make of it. -/
def withRecords (env : Env) (args : MergeArgs) (selfchmpxid : ChmpxId) (records : List ChmpxSvr)
    (c : Chmpx) : Chmpx :=
  records.foldl (withRecord env args selfchmpxid) c

theorem withRecord_of_ne (h : svr.chmpxid ≠ c.chmpxid) :
    withRecord env args selfchmpxid c svr = c := if_neg h

theorem withRecord_chmpxid (env : Env) (args : MergeArgs) (selfchmpxid : ChmpxId) (c : Chmpx)
    (svr : ChmpxSvr) : (withRecord env args selfchmpxid c svr).chmpxid = c.chmpxid := by
  unfold withRecord
  split
  · unfold Chmpx.mergeChmpxSvr
    split
    · rfl
    · split <;> rfl
  · rfl

/-- The servers have different chmpxids. -/
def IdsDiffer (m : ChmpxMan) (svrs : List Ptr) : Prop :=
  ∀ p ∈ svrs, ∀ q ∈ svrs, (m.chmpx p).chmpxid = (m.chmpx q).chmpxid → p = q

theorem IdsDiffer.congr (h : IdsDiffer m svrs) (hs : SameShape m m₁) : IdsDiffer m₁ svrs := by
  intro p hp q hq he
  rw [hs.chmpxid, hs.chmpxid] at he
  exact h p hp q hq he

/-- Without a free node a record changes the chmpx of its server and nothing else. -/
theorem mergeRecord_inPlace (env : Env) (args : MergeArgs) (selfchmpxid : ChmpxId)
    (svr : ChmpxSvr) (h : Knows ids s svrs [] rest) (hdiffer : IdsDiffer s.man svrs) :
    SameShape s.man (mergeRecord env args selfchmpxid svr s).1.man ∧
      Knows ids (mergeRecord env args selfchmpxid svr s).1 svrs [] rest ∧
      ∀ p ∈ svrs, (mergeRecord env args selfchmpxid svr s).1.man.chmpx p =
        withRecord env args selfchmpxid (s.man.chmpx p) svr := by
  by_cases hid : svr.chmpxid ∈ ids
  · obtain ⟨p, hm⟩ := h.mergedAt env args selfchmpxid hid
    have hs := SameShape.mergeChmpxSvr s.man env args.type
      (selfRecord args selfchmpxid (s.man.chmpx p) svr) p
    have hchm := chmpx_mergeChmpxSvr env args.type
      (selfRecord args selfchmpxid (s.man.chmpx p) svr) p s.man
    rw [← hm.man] at hs hchm
    refine ⟨hs, h.merged hm, fun q hq => ?_⟩
    rw [hchm]
    by_cases hqp : q = p
    · rw [hqp, withRecord, if_pos hm.chmpxid.symm]
      split
      · rename_i hc
        rw [hc]
        rfl
      · rename_i hc
        rw [hc, Function.update_self]
        rfl
    · have hne : svr.chmpxid ≠ (s.man.chmpx q).chmpxid := fun he =>
        hqp (hdiffer q hq p hm.mem (he.symm.trans hm.chmpxid.symm))
      rw [withRecord_of_ne hne]
      split
      · rfl
      · rw [Function.update_of_ne hqp]
  · have hnone := (h.find_none_iff _).mpr hid
    have he : (mergeRecord env args selfchmpxid svr s).1 = { s with isError := true } := by
      simp only [mergeRecord, hnone, if_pos (show s.man.chmpxFreeCount = 0 from h.lists.freeCount)]
    rw [he]
    refine ⟨SameShape.refl _, ⟨⟨h.lists, h.head, h.cur⟩, h.mapped, h.known⟩, fun q hq => ?_⟩
    have hne : svr.chmpxid ≠ (s.man.chmpx q).chmpxid := fun he =>
      hid ((h.known _).mpr ⟨q, hq, he.symm⟩)
    exact (withRecord_of_ne hne).symm

/-- Without a free node the first phase gives every server its own records. -/
theorem mergeRecords_inPlace (env : Env) (args : MergeArgs) (selfchmpxid : ChmpxId)
    (records : List ChmpxSvr) (h : Knows ids s svrs [] rest) (hdiffer : IdsDiffer s.man svrs) :
    SameShape s.man (mergeRecords env args selfchmpxid records s).1.man ∧
      ∀ p ∈ svrs, (mergeRecords env args selfchmpxid records s).1.man.chmpx p =
        withRecords env args selfchmpxid records (s.man.chmpx p) := by
  induction records generalizing s with
  | nil => exact ⟨SameShape.refl _, fun _ _ => rfl⟩
  | cons svr records ih =>
    obtain ⟨hs, hk, hchm⟩ := mergeRecord_inPlace env args selfchmpxid svr h hdiffer
    obtain ⟨hs', hchm'⟩ := ih hk (hdiffer.congr hs)
    refine ⟨hs.trans hs', fun p hp => (hchm' p hp).trans ?_⟩
    rw [hchm p hp]
    rfl

/-- Records of other servers are no matter of a chmpx. -/
theorem withRecords_of_notMem (h : c.chmpxid ∉ records.map (·.chmpxid)) :
    withRecords env args selfchmpxid records c = c := by
  induction records with
  | nil => rfl
  | cons svr records ih =>
    rw [List.map_cons, List.mem_cons, not_or] at h
    show withRecords env args selfchmpxid records (withRecord env args selfchmpxid c svr) = c
    rw [withRecord_of_ne fun he => h.1 he.symm, ih h.2]

/-- Of records of different servers one is a chmpx's own. -/
theorem withRecords_of_nodup (hnd : (records.map (·.chmpxid)).Nodup) (hsvr : svr ∈ records)
    (hid : svr.chmpxid = c.chmpxid) :
    withRecords env args selfchmpxid records c = withRecord env args selfchmpxid c svr := by
  obtain ⟨l₁, l₂, rfl⟩ := List.append_of_mem hsvr
  rw [List.map_append, List.map_cons, List.nodup_middle, List.nodup_cons, List.mem_append, not_or,
    hid] at hnd
  rw [withRecords, List.foldl_append, List.foldl_cons]
  have hbefore : l₁.foldl (withRecord env args selfchmpxid) c = c :=
    withRecords_of_notMem hnd.1.1
  rw [hbefore]
  refine withRecords_of_notMem ?_
  rw [withRecord_chmpxid]
  exact hnd.1.2

/-! ## Stamps -/

/-- `Set` writes hashes and the clock into a named node. -/
theorem chmpx_set (env : Env) (base pending : ChmHash) (type : HashTg) (p : Ptr) (m : ChmpxMan) :
    (m.set env base pending type p).2.chmpx =
      match (m.chmpx p).set (env.now p) base pending type with
      | none => m.chmpx
      | some c => Function.update m.chmpx p c := by
  cases h : (m.chmpx p).set (env.now p) base pending type with
  | none => simp only [set, h]
  | some c =>
    simp only [set, h]
    split_ifs <;> simp only [chmpx_writePend, chmpx_writeBase, setChmpx]

/-- The hashes have been written at `now`. -/
def Restamped (now : TimeT) (c c₁ : Chmpx) : Prop :=
  ∃ base pending,
    c₁ = { c with baseHash := base, pendingHash := pending, lastStatusTime := now }

theorem Restamped.trans {now : TimeT} (h : Restamped now c c₁) (h' : Restamped now c₁ c₂) :
    Restamped now c c₂ := by
  obtain ⟨base, pending, rfl⟩ := h
  obtain ⟨base', pending', rfl⟩ := h'
  exact ⟨base', pending', rfl⟩

/-- One `Set` restamps its node, if it has a name, and no other. -/
theorem set_restamped (env : Env) (base pending : ChmHash) (type : HashTg) (p q : Ptr)
    (m : ChmpxMan) :
    (m.set env base pending type p).2.chmpx q = m.chmpx q ∨
      Restamped (env.now q) (m.chmpx q) ((m.set env base pending type p).2.chmpx q) := by
  rw [chmpx_set]
  cases h : (m.chmpx p).set (env.now p) base pending type with
  | none => exact Or.inl rfl
  | some c =>
    by_cases hqp : q = p
    · rw [Chmpx.set] at h
      split at h
      · cases h
      · cases h
        rw [hqp]
        exact Or.inr ⟨_, _, Function.update_self ..⟩
    · exact Or.inl (Function.update_of_ne hqp ..)

theorem set_named (env : Env) (base pending : ChmHash) (type : HashTg)
    (h : (m.chmpx p).name.isEmpty = false) :
    Restamped (env.now p) (m.chmpx p) ((m.set env base pending type p).2.chmpx p) := by
  rw [chmpx_set, Chmpx.set, if_neg (by simp [h])]
  exact ⟨_, _, Function.update_self ..⟩

/-- A chmpx is left alone or restamped. -/
def MaybeRestamped (now : TimeT) (c c₁ : Chmpx) : Prop := c₁ = c ∨ Restamped now c c₁

theorem Restamped.maybe {now : TimeT} (h : Restamped now c c₁) (h' : MaybeRestamped now c₁ c₂) :
    Restamped now c c₂ := by
  rcases h' with rfl | h'
  · exact h
  · exact h.trans h'

theorem MaybeRestamped.trans {now : TimeT} (h : MaybeRestamped now c c₁)
    (h' : MaybeRestamped now c₁ c₂) : MaybeRestamped now c c₂ := by
  rcases h with rfl | h
  · exact h'
  · exact Or.inr (h.maybe h')

theorem MaybeRestamped.name {now : TimeT} (h : MaybeRestamped now c c₁) : c₁.name = c.name := by
  rcases h with rfl | ⟨base, pending, rfl⟩ <;> rfl

theorem MaybeRestamped.restamped {now : TimeT} (h : MaybeRestamped now c c₁)
    (h' : Restamped now c₁ c₂) : Restamped now c c₂ := by
  rcases h with rfl | h
  · exact h'
  · exact h.trans h'

/-- The turn of a named node in the loop of `UpdateHash`. -/
theorem updateHashLoop_both (env : Env) (ps : List Ptr) (newbase newpending : ChmHash)
    (h : (m.chmpx p).name.isEmpty = false) :
    ∃ base pending newbase' newpending',
      updateHashLoop env .both (p :: ps) newbase newpending m =
        updateHashLoop env .both ps newbase' newpending'
          ((m.set env base 0 .base p).2.set env 0 pending .pending p).2 := by
  rw [updateHashLoop, if_neg (by simp [h])]
  exact ⟨_, _, _, _, rfl⟩

/-- The loop restamps its nodes and no other. -/
theorem updateHashLoop_restamps (env : Env) (ps : List Ptr) (newbase newpending : ChmHash)
    (hname : ∀ p ∈ ps, (m.chmpx p).name.isEmpty = false) (q : Ptr) :
    MaybeRestamped (env.now q) (m.chmpx q)
        ((updateHashLoop env .both ps newbase newpending m).2.chmpx q) ∧
      (q ∈ ps → Restamped (env.now q) (m.chmpx q)
        ((updateHashLoop env .both ps newbase newpending m).2.chmpx q)) := by
  induction ps generalizing m newbase newpending with
  | nil => exact ⟨Or.inl rfl, fun hq => absurd hq List.not_mem_nil⟩
  | cons p ps ih =>
    obtain ⟨base, pending, newbase', newpending', hrun⟩ := updateHashLoop_both env ps newbase
      newpending (hname p List.mem_cons_self)
    rw [hrun]
    have hturn : ∀ r, MaybeRestamped (env.now r) (m.chmpx r)
        (((m.set env base 0 .base p).2.set env 0 pending .pending p).2.chmpx r) := fun r =>
      MaybeRestamped.trans (set_restamped env base 0 .base p r m)
        (set_restamped env 0 pending .pending p r _)
    have hname' : ∀ r ∈ ps, ((((m.set env base 0 .base p).2.set env 0 pending
        .pending p).2.chmpx r).name.isEmpty) = false := fun r hr => by
      rw [(hturn r).name]
      exact hname r (List.mem_cons_of_mem p hr)
    obtain ⟨hmaybe, hmem⟩ := ih newbase' newpending' hname'
    refine ⟨(hturn q).trans hmaybe, fun hq => ?_⟩
    rcases List.mem_cons.mp hq with rfl | hq
    · exact ((set_named env base 0 .base (hname q List.mem_cons_self)).maybe
        (set_restamped env 0 pending .pending q q _)).maybe hmaybe
    · exact (hturn q).restamped (hmem hq)

/-- `UpdateHash` at the end of a merge restamps every server. -/
theorem updateHash_restamps (env : Env) (h : Formed m svrs frees rest) (hp : p ∈ svrs) :
    Restamped (env.now p) (m.chmpx p) ((m.updateHash env .both true true).2.chmpx p) := by
  obtain ⟨q, l, rfl⟩ := List.exists_cons_of_ne_nil (List.ne_nil_of_mem hp)
  rw [h.updateHash_eq]
  exact (updateHashLoop_restamps env (q :: l) 0 0 (fun _ => h.lists.named) p).2 hp

/-! ## The failed merge and the recovery -/

/-- A call without a free node: every server takes its own records and is restamped. -/
theorem mergeChmpxSvrs_inPlace (env : Env) (hremove : args.isRemove = false) (hrec : records ≠ [])
    (h : Formed m svrs [] rest) (hmap : ∃ chain, MapOk m chain) (hne : svrs ≠ [])
    (hdiffer : IdsDiffer m svrs) :
    SameShape m (mergeChmpxSvrs env args records m).2.2 ∧
      ∀ p ∈ svrs, Restamped (env.now p) (withRecords env args m.keptChmpxId records (m.chmpx p))
        ((mergeChmpxSvrs env args records m).2.2.chmpx p) := by
  obtain ⟨s, hs, -, hman⟩ := mergeChmpxSvrs_keeping hremove hrec env m
  obtain ⟨hshape, hchm⟩ := mergeRecords_inPlace env args m.keptChmpxId records
    (h.knows hmap hne) hdiffer
  rw [← hs] at hshape hchm
  have hend : SameShape s.man ((s.man.updateHash env .both true true).2.recount s.cur) :=
    ((SameRecords.updateHash _ env .both true true).trans (SameRecords.recount _ s.cur)).toSameShape
  rw [hman]
  refine ⟨hshape.trans hend, fun p hp => ?_⟩
  rw [← hchm p hp]
  exact updateHash_restamps env (hshape.formed h) hp

/-- The status that the kept record `c.getChmpxSvr` leaves of `c₁` is the one of `c`: the
failed merge has left it, or the record is taken and not rewritten. -/
def StatusTakenBack (env : Env) (args : MergeArgs) (selfchmpxid : ChmpxId) (c c₁ : Chmpx) : Prop :=
  c₁.status = c.status ∨
    c₁.sameChmpx env args.type c.getChmpxSvr = true ∧ c₁.blocksMerge c.getChmpxSvr = false ∧
      c₁.takesStatus env c.getChmpxSvr = true ∧
      (selfRecord args selfchmpxid c₁ c.getChmpxSvr).status = c.status

instance : Decidable (StatusTakenBack env args selfchmpxid c c₁) :=
  inferInstanceAs (Decidable (_ ∨ _))

theorem withRecord_status_iff (hid : c₁.chmpxid = c.chmpxid) :
    (withRecord env args selfchmpxid c₁ c.getChmpxSvr).status = c.status ↔
      StatusTakenBack env args selfchmpxid c c₁ := by
  obtain ⟨status, hself⟩ := selfRecord_eq args selfchmpxid c₁ c.getChmpxSvr
  have hown : c.getChmpxSvr.chmpxid = c₁.chmpxid := hid.symm
  rw [StatusTakenBack, withRecord, if_pos hown, hself]
  have hleft : c₁.status = c.status → status = c.status := by
    intro heq
    have hsame : selfRecord args selfchmpxid c₁ c.getChmpxSvr = c.getChmpxSvr :=
      if_neg fun hboth => hboth.2 heq
    rw [hself] at hsame
    exact congrArg ChmpxSvr.status hsame
  by_cases hmerge : c₁.sameChmpx env args.type c.getChmpxSvr = true ∧
      c₁.blocksMerge c.getChmpxSvr = false
  · have hmerged : ∃ c₂,
        c₁.mergeChmpxSvr env args.type { c.getChmpxSvr with status := status } = some c₂ ∧
          c₂.status = if c₁.takesStatus env c.getChmpxSvr then status else c₁.status :=
      mergeChmpxSvr_status hmerge.1 hmerge.2
    obtain ⟨c₂, hc₂, hst⟩ := hmerged
    rw [hc₂, Option.getD_some, hst]
    split
    · rename_i htake
      exact ⟨fun heq => Or.inr ⟨hmerge.1, hmerge.2, htake, heq⟩,
        fun hback => hback.elim hleft fun hrest => hrest.2.2.2⟩
    · rename_i hno
      exact ⟨Or.inl, fun hback => hback.elim id fun hrest => absurd hrest.2.2.1 hno⟩
  · have hnone : c₁.mergeChmpxSvr env args.type { c.getChmpxSvr with status := status } = none := by
      rw [Chmpx.mergeChmpxSvr]
      split
      · rfl
      · rename_i hsame
        have hsame' : c₁.sameChmpx env args.type c.getChmpxSvr = true :=
          Bool.eq_true_of_not_eq_false fun hb => hsame ((Bool.not_eq_true' _).mpr hb)
        have hblock : c₁.blocksMerge c.getChmpxSvr = true :=
          Bool.eq_true_of_not_eq_false fun hb => hmerge ⟨hsame', hb⟩
        exact if_pos hblock
    rw [hnone, Option.getD_none]
    exact ⟨Or.inl, fun hback => hback.elim id fun hrest => absurd ⟨hrest.1, hrest.2.1⟩ hmerge⟩

theorem SameShape.keptChmpxId (h : SameShape m m₁) : m₁.keptChmpxId = m.keptChmpxId := by
  have hmode : m₁.isServerMode = m.isServerMode := by
    unfold ChmpxMan.isServerMode
    rw [h.chmpxSelf]
    cases m.chmpxSelf with
    | none => rfl
    | some p => exact h.isServerMode p
  rw [ChmpxMan.keptChmpxId, ChmpxMan.keptChmpxId, hmode, h.selfChmpxId]

/-- The server list is in order: its servers are known by different chmpxids and counted. -/
structure Listed (m : ChmpxMan) (svrs frees : List Ptr) (rest : List (List Ptr)) : Prop where
  formed : Formed m svrs frees rest
  mapped : ∃ chain, MapOk m chain
  differ : IdsDiffer m svrs
  counted : m.chmpxServerCount = svrs.length

theorem Formed.serverNodes_eq (h : Formed m svrs frees rest) : m.serverNodes = svrs := by
  rw [serverNodes, h.head]
  exact h.lists.chains.walk (h.lists.length_le List.mem_cons_self)

/-- The records that `GetChmpxSvrs` keeps. -/
def ownRecords (m : ChmpxMan) (svrs : List Ptr) : List ChmpxSvr :=
  svrs.map fun p => (m.chmpx p).getChmpxSvr

theorem Listed.getChmpxSvrs (h : Listed m svrs frees rest) (heap : Nat → ChmpxSvr) :
    m.getChmpxSvrs heap = if svrs = [] then none else some (m.ownRecords svrs) := by
  have hwalk : m.fromHead = svrs := h.formed.serverNodes_eq
  have hlen : (m.ownRecords svrs).length = svrs.length := List.length_map ..
  have hzero : svrs.length = 0 ↔ svrs = [] := List.length_eq_zero_iff
  rw [ChmpxMan.getChmpxSvrs, hwalk, h.counted]
  simp only [hzero]
  split
  · rfl
  · show some (List.take svrs.length (m.ownRecords svrs ++ _)) = _
    rw [← hlen, List.take_left]

theorem Listed.ownRecords_nodup (h : Listed m svrs frees rest) :
    ((m.ownRecords svrs).map (·.chmpxid)).Nodup := by
  rw [ownRecords, List.map_map]
  exact h.formed.lists.nodup_svrs.map_on h.differ

/-- What the recovery leaves when no node is free. -/
structure Recovered (env env' : Env) (args args' : MergeArgs) (records : List ChmpxSvr)
    (svrs : List Ptr) (m m₁ : ChmpxMan) : Prop where
  shape : SameShape m m₁
  stamp : ∀ p ∈ svrs, (m₁.chmpx p).lastStatusTime = env'.now p
  status : ∀ p ∈ svrs, (m₁.chmpx p).status = (m.chmpx p).status ↔
    StatusTakenBack env' args' m.keptChmpxId (m.chmpx p)
      { withRecords env args m.keptChmpxId records (m.chmpx p) with
        lastStatusTime := env.now p }
  numbered : ∀ r : Ring, NumberedFrom r m₁ svrs 0

theorem Listed.recovered (env env' : Env) (hremove : args.isRemove = false)
    (hremove' : args'.isRemove = false) (hrec : records ≠ []) (h : Listed m svrs [] rest)
    (hne : svrs ≠ []) :
    Recovered env env' args args' records svrs m (mergeChmpxSvrs env' args'
      (m.ownRecords svrs) (mergeChmpxSvrs env args records m).2.2).2.2 := by
  obtain ⟨hshape, hchm⟩ := mergeChmpxSvrs_inPlace env hremove hrec h.formed h.mapped hne h.differ
  generalize (mergeChmpxSvrs env args records m).2.2 = m₁ at hshape hchm
  have hown : m.ownRecords svrs ≠ [] := fun he => hne (List.map_eq_nil_iff.mp he)
  have hf := hshape.formed h.formed
  obtain ⟨hshape', hchm'⟩ := mergeChmpxSvrs_inPlace env' hremove' hown hf
    (h.mapped.imp fun _ hm => hm.sameShape hshape) hne (h.differ.congr hshape)
  have hallowed : MergeAllowed env' (m.ownRecords svrs) m₁ := fun _ _ hfree =>
    absurd hf.lists.freeCount hfree
  obtain ⟨-, hagree, -⟩ := mergeChmpxSvrs_agrees args' ⟨svrs, [], rest, hf⟩ hown hallowed
  generalize (mergeChmpxSvrs env' args' (m.ownRecords svrs) m₁).2.2 = m₂ at *
  refine ⟨hshape.trans hshape', fun p hp => ?_, fun p hp => ?_, fun r => ?_⟩
  · obtain ⟨base, pending, he⟩ := hchm' p hp
    rw [he]
  · have hst : (m₂.chmpx p).status =
        (withRecord env' args' m.keptChmpxId (m₁.chmpx p) (m.chmpx p).getChmpxSvr).status := by
      obtain ⟨base, pending, he⟩ := hchm' p hp
      rw [he, hshape.keptChmpxId, withRecords_of_nodup h.ownRecords_nodup
        (List.mem_map_of_mem hp) (hshape.chmpxid p).symm]
    obtain ⟨base, pending, he⟩ := hchm p hp
    rw [hst, withRecord_status_iff (hshape.chmpxid p), he]
    exact Iff.rfl
  · have hnum := hagree.numbered r
    rwa [(hshape'.formed hf).nodes] at hnum

/-- The server list is as it was: the same servers with their statuses, times and hashes. -/
structure ServersKept (m m₁ : ChmpxMan) : Prop where
  servers : m₁.serverNodes = m.serverNodes
  chmpxid : ∀ p ∈ m.serverNodes, (m₁.chmpx p).chmpxid = (m.chmpx p).chmpxid
  status : ∀ p ∈ m.serverNodes, (m₁.chmpx p).status = (m.chmpx p).status
  lastStatusTime : ∀ p ∈ m.serverNodes, (m₁.chmpx p).lastStatusTime = (m.chmpx p).lastStatusTime
  baseHash : ∀ p ∈ m.serverNodes, (m₁.chmpx p).baseHash = (m.chmpx p).baseHash
  pendingHash : ∀ p ∈ m.serverNodes, (m₁.chmpx p).pendingHash = (m.chmpx p).pendingHash

theorem ServersKept.refl (m : ChmpxMan) : ServersKept m m :=
  ⟨rfl, fun _ _ => rfl, fun _ _ => rfl, fun _ _ => rfl, fun _ _ => rfl, fun _ _ => rfl⟩

/-- The servers have the hashes of a ring that a renumbering gives them. -/
structure HashesNumbered (r : Ring) (m : ChmpxMan) (svrs : List Ptr) : Prop where
  members : (r.members m svrs).map (fun p => r.hash (m.chmpx p)) =
    List.range' 0 (r.members m svrs).length
  others : ∀ p ∈ svrs, r.member (m.chmpx p).status = false →
    r.hash (m.chmpx p) = chmInvalidHashVal

/-- A renumbering under the same statuses leaves the hashes of numbered servers. -/
theorem hashesNumbered_iff {r : Ring} (hst : ∀ p ∈ svrs, (m₁.chmpx p).status = (m.chmpx p).status)
    (hnum : NumberedFrom r m₁ svrs 0) :
    HashesNumbered r m svrs ↔ ∀ p ∈ svrs, r.hash (m₁.chmpx p) = r.hash (m.chmpx p) := by
  have hmembers : r.members m₁ svrs = r.members m svrs := r.members_congr hst
  have hnumbers := hnum.hashes
  rw [hmembers] at hnumbers
  constructor
  · intro h p hp
    cases hmem : r.member (m.chmpx p).status with
    | true =>
      have heq : (r.members m svrs).map (fun p => r.hash (m₁.chmpx p)) =
          (r.members m svrs).map (fun p => r.hash (m.chmpx p)) := by rw [hnumbers, h.members]
      exact List.map_inj_left.mp heq p (List.mem_filter.mpr ⟨hp, hmem⟩)
    | false => rw [h.others p hp hmem, hnum.others p hp (by rw [hst p hp, hmem])]
  · intro h
    refine ⟨?_, fun p hp hmem => ?_⟩
    · rw [← hnumbers]
      exact List.map_congr_left fun p hp => (h p (List.mem_of_mem_filter hp)).symm
    · rw [← h p hp]
      exact hnum.others p hp (by rw [hst p hp, hmem])

/-- The recovery undoes the failed merge: no server has been added, the clock of the recovery
is the time that every server had, each status is left or taken back, and the hashes were
those of a renumbering. -/
structure TakenBack (env env' : Env) (args args' : MergeArgs) (records : List ChmpxSvr)
    (m : ChmpxMan) : Prop where
  full : m.chmpxFreeCount = 0
  stamp : ∀ p ∈ m.serverNodes, (m.chmpx p).lastStatusTime = env'.now p
  status : ∀ p ∈ m.serverNodes, StatusTakenBack env' args' m.keptChmpxId (m.chmpx p)
    { withRecords env args m.keptChmpxId records (m.chmpx p) with lastStatusTime := env.now p }
  hashes : ∀ r : Ring, HashesNumbered r m m.serverNodes

/-- Without a free node the recovery leaves the servers exactly when it undoes the merge. -/
theorem Recovered.serversKept_iff (h : Recovered env env' args args' records svrs m m₁)
    (hf : Formed m svrs [] rest) :
    ServersKept m m₁ ↔ TakenBack env env' args args' records m := by
  have hsvrs := hf.serverNodes_eq
  have hsvrs' := (h.shape.formed hf).serverNodes_eq
  constructor
  · intro hkept
    refine ⟨hf.lists.freeCount, fun p hp => ?_, fun p hp => ?_, fun r => ?_⟩
    · rw [← hkept.lastStatusTime p hp, h.stamp p (hsvrs ▸ hp)]
    · exact (h.status p (hsvrs ▸ hp)).mp (hkept.status p hp)
    · rw [hsvrs]
      refine (hashesNumbered_iff (fun p hp => hkept.status p (hsvrs ▸ hp)) (h.numbered r)).mpr ?_
      rw [← hsvrs]
      cases r with
      | base => exact hkept.baseHash
      | pending => exact hkept.pendingHash
  · intro hback
    have hst : ∀ p ∈ m.serverNodes, (m₁.chmpx p).status = (m.chmpx p).status := fun p hp =>
      (h.status p (hsvrs ▸ hp)).mpr (hback.status p hp)
    have hhash : ∀ r : Ring, ∀ p ∈ m.serverNodes, r.hash (m₁.chmpx p) = r.hash (m.chmpx p) := by
      intro r
      have hr := hback.hashes r
      rw [hsvrs] at hr hst ⊢
      exact (hashesNumbered_iff hst (h.numbered r)).mp hr
    refine ⟨hsvrs'.trans hsvrs.symm, fun p _ => h.shape.chmpxid p, hst, fun p hp => ?_,
      hhash .base, hhash .pending⟩
    rw [h.stamp p (hsvrs ▸ hp), hback.stamp p hp]

/-- The server list of the manager is in order. -/
def WellListed (m : ChmpxMan) : Prop := ∃ svrs frees rest, Listed m svrs frees rest

theorem Area.listed {a : Placement} (h : Area m a) (hids : IdsPlaced m a)
    (hcounts : CountsPlaced m a) : Listed m a.svrs a.frees a.rest := by
  obtain ⟨chain, hm⟩ := hids.mapped
  refine ⟨h.formed, ⟨chain, hm.toMapped, fun p hp => ?_, fun p hp => ?_⟩, hids.unique, hcounts.1⟩
  · exact hm.saved p (h.lists.isServer p (h.lists.server_mem p hp)).valid
  · rw [h.freeNodes_eq] at hp
    exact h.toPlaces.free_invalid hp

/-- The configuration gives this node and the servers different chmpxids, and the area has a
node for each of them. -/
def ConfigListed (env : Env) (cfg : ChmCfgInfo) : Prop := ConfigIds env cfg ∧ ConfigCounted env cfg

/-- An operation gives no server the chmpxid of another one and counts no server without a
node. -/
def FitsListed (env : Env) (op : AreaOp) (m : ChmpxMan) : Prop :=
  FitsIds env op m ∧ FitsCounted env op m

/-- Every state of a run of such operations has its server list in order. -/
theorem run_wellListed (h : AreaReachable ConfigListed FitsListed m) : WellListed m := by
  obtain ⟨a, ha, hids⟩ := run_idsPlaced (h.imp (fun _ _ h => h.1) fun _ _ _ h => h.1)
  obtain ⟨a', ha', hcounts⟩ := run_countsPlaced (h.imp (fun _ _ h => h.2) fun _ _ _ h => h.2)
  rw [ha'.unique ha] at hcounts
  exact ⟨_, _, _, ha.listed hids hcounts⟩

theorem Listed.serverIds_eq (h : Listed m svrs frees rest) : m.serverIds = m.idsOf svrs := by
  rw [serverIds, h.formed.serverNodes_eq]
  rfl

end ChmpxMan

namespace EventSock

open ChmpxMan

variable {io : Outside} {cmp : Comparing} {records : List ChmpxSvr} {s : EventSock}

/-- A status update that returns false has left the servers as they were. -/
def StatusUpdateRight (io : Outside) (cmp : Comparing) (records : List ChmpxSvr) (s : EventSock) :
    Prop :=
  (s.mergeChmpxSvrsForStatusUpdate io cmp records).1 = false →
    ServersKept s.man (s.mergeChmpxSvrsForStatusUpdate io cmp records).2.man

/-- The status update merges nothing, merges all records, or undoes what it has merged. -/
inductive UpdateFits (io : Outside) (cmp : Comparing) (records : List ChmpxSvr) (s : EventSock) :
    Prop
  | noServer : s.man.serverNodes = [] → UpdateFits io cmp records s
  | refused :
      cmp.compareChmpxSvrs (cmp.seedType = .custom) false true
        (s.man.ownRecords s.man.serverNodes) records = false → UpdateFits io cmp records s
  | room :
      AddsNamed (io.env s.calls) s.man.serverIds s.man records →
      hasRoom (newChmpxId (io.env s.calls) cmp.seedType s.man.group) s.man.serverIds
        s.man.chmpxFreeCount records = true → UpdateFits io cmp records s
  | takenBack :
      TakenBack (io.env s.calls) (io.env (s.calls + 1)) (updateArgs io cmp.seedType s.eqfd s.calls)
        (updateArgs io cmp.seedType s.eqfd (s.calls + 1)) records s.man →
      UpdateFits io cmp records s

/-- What a status update does besides refusing. -/
theorem mergeChmpxSvrsForStatusUpdate_eq {svrs frees : List Ptr} {rest : List (List Ptr)}
    (h : Listed s.man svrs frees rest) (hne : svrs ≠ [])
    (hcmp : cmp.compareChmpxSvrs (cmp.seedType = .custom) false true (s.man.ownRecords svrs)
      records = true) :
    ∃ first, first = ChmpxMan.mergeChmpxSvrs (io.env s.calls)
        (updateArgs io cmp.seedType s.eqfd s.calls) records s.man ∧
      (s.mergeChmpxSvrsForStatusUpdate io cmp records).1 = first.1 ∧
      (first.1 = false → (s.mergeChmpxSvrsForStatusUpdate io cmp records).2.man =
        (ChmpxMan.mergeChmpxSvrs (io.env (s.calls + 1))
          (updateArgs io cmp.seedType s.eqfd (s.calls + 1)) (s.man.ownRecords svrs)
          first.2.2).2.2) := by
  refine ⟨_, rfl, ?_⟩
  have hown : s.getChmpxSvrs io = some (s.man.ownRecords svrs) := by
    rw [EventSock.getChmpxSvrs, h.getChmpxSvrs, if_neg hne]
  rw [mergeChmpxSvrsForStatusUpdate, hown]
  dsimp only
  rw [hcmp, Bool.not_true, if_neg Bool.false_ne_true]
  have hcall : (s.mergeChmpxSvrs io cmp.seedType records).1 = (ChmpxMan.mergeChmpxSvrs
      (io.env s.calls) (updateArgs io cmp.seedType s.eqfd s.calls) records s.man).1 := rfl
  rw [hcall]
  split
  · rename_i hok
    exact ⟨hok.symm, fun hno => absurd hok (by rw [hno]; exact Bool.false_ne_true)⟩
  · rename_i hno
    exact ⟨(Bool.eq_false_iff.mpr hno).symm, fun _ => rfl⟩

/-- A comparison with servers refuses an empty array. -/
theorem records_ne_nil {m : ChmpxMan} {svrs : List Ptr} {isCheckCustomSeed : Bool} (hne : svrs ≠ [])
    (h : cmp.compareChmpxSvrs isCheckCustomSeed false true (m.ownRecords svrs) records = true) :
    records ≠ [] := by
  rintro rfl
  have hown : m.ownRecords svrs ≠ [] := fun he => hne (List.map_eq_nil_iff.mp he)
  rw [Comparing.compareChmpxSvrs, if_neg fun hboth => hown hboth.1, if_pos (Or.inr rfl)] at h
  cases h

/-- Without a server, or with records that do not compare, nothing is merged. -/
theorem mergeChmpxSvrsForStatusUpdate_idle {svrs frees : List Ptr} {rest : List (List Ptr)}
    (h : Listed s.man svrs frees rest)
    (hidle : svrs = [] ∨ cmp.compareChmpxSvrs (cmp.seedType = .custom) false true
      (s.man.ownRecords svrs) records = false) :
    s.mergeChmpxSvrsForStatusUpdate io cmp records = (false, s) := by
  rw [mergeChmpxSvrsForStatusUpdate, EventSock.getChmpxSvrs, h.getChmpxSvrs]
  by_cases hnil : svrs = []
  · rw [if_pos hnil]
  · rw [if_neg hnil]
    dsimp only
    rw [hidle.resolve_left hnil]
    rfl

theorem UpdateFits.right {svrs frees : List Ptr} {rest : List (List Ptr)}
    (h : Listed s.man svrs frees rest) (hfits : UpdateFits io cmp records s) :
    StatusUpdateRight io cmp records s := by
  intro hno
  have hnodes := h.formed.serverNodes_eq
  by_cases hne : svrs = []
  · rw [mergeChmpxSvrsForStatusUpdate_idle h (Or.inl hne)]
    exact ServersKept.refl s.man
  cases hcmp : cmp.compareChmpxSvrs (cmp.seedType = .custom) false true (s.man.ownRecords svrs)
      records with
  | false =>
    rw [mergeChmpxSvrsForStatusUpdate_idle h (Or.inr hcmp)]
    exact ServersKept.refl s.man
  | true =>
    obtain ⟨first, hfirst, hres, hman⟩ := mergeChmpxSvrsForStatusUpdate_eq h hne hcmp
    have hrec := records_ne_nil hne hcmp
    rw [hres] at hno
    rw [hman hno, hfirst]
    cases hfits with
    | noServer hnil => exact absurd (hnodes.symm.trans hnil) hne
    | refused hrefused =>
      rw [hnodes, hcmp] at hrefused
      cases hrefused
    | room hnames hroom =>
      rw [h.serverIds_eq] at hnames hroom
      obtain ⟨hmerge, -⟩ := mergeChmpxSvrs_hasRoom (io.env s.calls)
        (updateArgs io cmp.seedType s.eqfd s.calls) rfl hrec h.formed h.mapped hne hnames
      rw [h.formed.lists.freeCount] at hroom
      rw [hfirst, hmerge] at hno
      exact absurd (hroom.symm.trans hno) (by decide)
    | takenBack hback =>
      have hnil : frees = [] :=
        List.length_eq_zero_iff.mp (h.formed.lists.freeCount.symm.trans hback.full)
      rw [hnil] at h
      exact ((h.recovered (io.env s.calls) (io.env (s.calls + 1)) rfl rfl hrec hne).serversKept_iff
        h.formed).mpr hback

theorem StatusUpdateRight.fits {svrs frees : List Ptr} {rest : List (List Ptr)}
    (h : Listed s.man svrs frees rest)
    (hnames : AddsNamed (io.env s.calls) s.man.serverIds s.man records)
    (hright : StatusUpdateRight io cmp records s) : UpdateFits io cmp records s := by
  have hnodes := h.formed.serverNodes_eq
  by_cases hne : svrs = []
  · exact .noServer (hnodes.trans hne)
  cases hcmp : cmp.compareChmpxSvrs (cmp.seedType = .custom) false true (s.man.ownRecords svrs)
      records with
  | false => exact .refused (by rw [hnodes, hcmp])
  | true =>
    by_cases hroom : hasRoom (newChmpxId (io.env s.calls) cmp.seedType s.man.group) s.man.serverIds
        s.man.chmpxFreeCount records = true
    · exact .room hnames hroom
    obtain ⟨first, hfirst, hres, hman⟩ := mergeChmpxSvrsForStatusUpdate_eq h hne hcmp
    have hrec := records_ne_nil hne hcmp
    rw [h.serverIds_eq] at hnames hroom
    rw [h.formed.lists.freeCount] at hroom
    obtain ⟨hmerge, svrs₁, frees₁, hf₁, hmap₁, hsum₁, -, hfull₁⟩ :=
      mergeChmpxSvrs_hasRoom (io.env s.calls) (updateArgs io cmp.seedType s.eqfd s.calls) rfl hrec
        h.formed h.mapped hne hnames
    rw [← hfirst] at hmerge hf₁ hmap₁ hfull₁
    have hno : first.1 = false := by
      rw [hmerge]
      exact Bool.eq_false_iff.mpr hroom
    have hkept := hright (hres.trans hno)
    rw [hman hno] at hkept
    by_cases hnil : frees = []
    · rw [hnil] at h
      rw [hfirst] at hkept
      exact .takenBack (((h.recovered (io.env s.calls) (io.env (s.calls + 1)) rfl rfl hrec
        hne).serversKept_iff h.formed).mp hkept)
    · -- The merge has added a server, and the recovery leaves it in the list.
      have hpos : 0 < frees.length := List.length_pos_of_ne_nil hnil
      have hnil₁ : frees₁ = [] := hfull₁ hno
      rw [hnil₁] at hf₁ hsum₁
      have hne₁ : svrs₁ ≠ [] := by
        rintro rfl
        simp only [List.length_nil] at hsum₁
        omega
      have hown : s.man.ownRecords svrs ≠ [] := fun he => hne (List.map_eq_nil_iff.mp he)
      have hfree₁ : first.2.2.chmpxFreeCount = 0 := hf₁.lists.freeCount
      obtain ⟨-, svrs₂, frees₂, hf₂, -, hsum₂, hle₂, -⟩ := mergeChmpxSvrs_hasRoom
        (io.env (s.calls + 1)) (updateArgs io cmp.seedType s.eqfd (s.calls + 1)) rfl
        hown hf₁ hmap₁ hne₁ fun _ _ _ hfree => absurd hfree₁ hfree
      have hsame := hkept.servers
      rw [hf₂.serverNodes_eq, hnodes] at hsame
      rw [hsame] at hsum₂
      simp only [List.length_nil] at hsum₁ hsum₂ hle₂
      omega

end EventSock
end Chm
