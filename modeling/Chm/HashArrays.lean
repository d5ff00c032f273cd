/-
The two hash arrays and the hash values of a packet.

`chmpx_base_srvs` and `chmpx_pend_srvs` have one slot for each node of the area.  The
renumbering at the end of `MergeChmpxSvrs` writes the slots from zero on, but before it a
merged record and a new server write the slot of the hash that the peer has sent.  An array
is a map here, empty outside its slots: `Inside` says that it still is, and a write of a
slot always stores a node.
-/
import Chm.Area
import Chm.Runs
import Chm.StatusMerge

namespace Chm

namespace ChmpxMan

variable {env : Env} {args : MergeArgs} {selfchmpxid : ChmpxId} {svr : ChmpxSvr}
variable {m m' m₁ : ChmpxMan} {s : MergeState} {p : Ptr} {hash : ChmHash}

/-- Nothing has been written outside the hash arrays. -/
def Inside (m : ChmpxMan) : Prop :=
  ∀ (r : Ring) (i : ChmHash), m.chmpxCount ≤ i → r.srvs m i = none

/-- The index that a hash value is written to is one of the arrays', or it is not written. -/
def InBounds (m : ChmpxMan) (hash : ChmHash) : Prop :=
  hash = chmInvalidHashVal ∨ hash < m.chmpxCount

/-! ## What keeps the arrays -/

structure SameArrays (m m' : ChmpxMan) : Prop where
  chmpxCount : m'.chmpxCount = m.chmpxCount
  srvs : ∀ r : Ring, r.srvs m' = r.srvs m

theorem SameArrays.refl (m : ChmpxMan) : SameArrays m m := ⟨rfl, fun _ => rfl⟩

theorem SameArrays.trans (h : SameArrays m m₁) (h' : SameArrays m₁ m') : SameArrays m m' :=
  ⟨h'.chmpxCount.trans h.chmpxCount, fun r => (h'.srvs r).trans (h.srvs r)⟩

theorem SameArrays.of_eq (hn : m'.chmpxCount = m.chmpxCount)
    (hb : m'.chmpxBaseSrvs = m.chmpxBaseSrvs) (hp : m'.chmpxPendSrvs = m.chmpxPendSrvs) :
    SameArrays m m' := by
  refine ⟨hn, fun r => ?_⟩
  cases r with
  | base => exact hb
  | pending => exact hp

theorem SameArrays.inside (h : SameArrays m m') : Inside m' ↔ Inside m := by
  unfold Inside
  simp only [h.chmpxCount, h.srvs]

theorem setChmpx_sameArrays (m : ChmpxMan) (p : Ptr) (c : Chmpx) :
    SameArrays m (m.setChmpx p c) :=
  .of_eq rfl rfl rfl

theorem popAny_sameArrays (m : ChmpxMan) (cur : Cursor) : SameArrays m (m.popAny cur).2.2 := by
  cases cur with
  | none => exact SameArrays.refl m
  | some cur =>
    unfold popAny
    dsimp only
    split <;> exact .of_eq rfl rfl rfl

theorem clear_sameArrays (m : ChmpxMan) (eqfd : Bool) (p : Ptr) :
    SameArrays m (m.clear eqfd p) := by
  obtain ⟨same, map, he⟩ := retrieveChmpxIdMap_eq m p
  unfold clear
  rw [he]
  exact .of_eq rfl rfl rfl

theorem insertServer_sameArrays (type : ChmpxIdSeedType) (p : Option Ptr) (cur : Cursor)
    (m : ChmpxMan) : SameArrays m (insertServer type p cur m).2 := by
  obtain ⟨k, same, map, n, head, he⟩ := insertServer_form type p cur m
  rw [he]
  exact .of_eq rfl rfl rfl

theorem retrieve_sameArrays (m : ChmpxMan) (p : Ptr) : SameArrays m (m.retrieve p).2 := by
  obtain ⟨same, map, he⟩ := retrieve_form m p
  rw [he]
  exact .of_eq rfl rfl rfl

theorem giveBack_sameArrays (m : ChmpxMan) (eqfd : Bool) (p : Ptr) :
    SameArrays m (m.giveBack eqfd p) := by
  obtain ⟨k, same, map, n, head, he⟩ := giveBack_form eqfd p m
  rw [he]
  exact .of_eq rfl rfl rfl

theorem removeServer_sameArrays (args : MergeArgs) (p : Ptr) (s : MergeState) :
    SameArrays s.man (removeServer args p s).man := by
  have hmoved := (retrieve_sameArrays s.man p).trans
    (giveBack_sameArrays (s.man.retrieve p).2 args.eqfd p)
  exact hmoved.trans (.of_eq rfl rfl rfl)

theorem removeLoop_sameArrays (args : MergeArgs) (selfchmpxid : ChmpxId)
    (chmpxids : List ChmpxId) (fuel : Nat) :
    ∀ s : MergeState, SameArrays s.man (removeLoop args selfchmpxid chmpxids fuel s).man := by
  induction fuel with
  | zero => exact fun s => SameArrays.refl s.man
  | succ fuel ih =>
    intro s
    unfold removeLoop
    split
    · split <;> exact SameArrays.refl s.man
    · dsimp only
      split
      · split
        · exact SameArrays.refl s.man
        · rename_i q _
          exact ih ⟨some q, s.isError, s.man⟩
      · exact (removeServer_sameArrays args _ s).trans (ih _)

theorem setServersHead_sameArrays (s : MergeState) :
    SameArrays s.man (setServersHead s).man := by
  unfold setServersHead
  split <;> exact .of_eq rfl rfl rfl

theorem removePhase_sameArrays (args : MergeArgs) (selfchmpxid : ChmpxId)
    (chmpxids : List ChmpxId) (s : MergeState) :
    SameArrays s.man (removePhase args selfchmpxid chmpxids s).man := by
  unfold removePhase
  split
  · unfold removeServers
    split
    · exact setServersHead_sameArrays s
    · rename_i p _
      exact (removeLoop_sameArrays args selfchmpxid chmpxids _
        { s with cur := some (s.man.first p) }).trans (setServersHead_sameArrays _)
  · exact SameArrays.refl s.man

/-! ## Writes of a slot -/

/-- A slot that is set stays set. -/
structure SlotsStay (m m' : ChmpxMan) : Prop where
  chmpxCount : m'.chmpxCount = m.chmpxCount
  srvs : ∀ (r : Ring) (i : ChmHash), r.srvs m' i = none → r.srvs m i = none

theorem SlotsStay.refl (m : ChmpxMan) : SlotsStay m m := ⟨rfl, fun _ _ h => h⟩

theorem SlotsStay.trans (h : SlotsStay m m₁) (h' : SlotsStay m₁ m') : SlotsStay m m' :=
  ⟨h'.chmpxCount.trans h.chmpxCount, fun r i hi => h.srvs r i (h'.srvs r i hi)⟩

theorem SameArrays.stay (h : SameArrays m m') : SlotsStay m m' :=
  ⟨h.chmpxCount, fun r i hi => by rwa [h.srvs r] at hi⟩

theorem SlotsStay.inside (h : SlotsStay m m') (hi : Inside m') : Inside m := by
  intro r i hle
  rw [← h.chmpxCount] at hle
  exact h.srvs r i (hi r i hle)

/-- One write of a slot of one array. -/
structure SlotWritten (r : Ring) (hash : ChmHash) (m m' : ChmpxMan) : Prop where
  chmpxCount : m'.chmpxCount = m.chmpxCount
  other : ∀ r', r' ≠ r → r'.srvs m' = r'.srvs m
  srvs : ∃ p, r.srvs m' = if hash = chmInvalidHashVal then r.srvs m
    else Function.update (r.srvs m) hash (some p)

theorem writeBase_written (m : ChmpxMan) (p : Ptr) (hash : ChmHash) :
    SlotWritten .base hash m (m.writeBase p hash) := by
  refine ⟨?_, fun r hr => ?_, p, ?_⟩
  · rw [writeBase]
    split <;> rfl
  · rw [srvs_writeBase, if_neg hr]
  · rw [srvs_writeBase, if_pos rfl]

theorem writePend_written (m : ChmpxMan) (p : Ptr) (hash : ChmHash) :
    SlotWritten .pending hash m (m.writePend p hash) := by
  refine ⟨?_, fun r hr => ?_, p, ?_⟩
  · rw [writePend]
    split <;> rfl
  · rw [srvs_writePend, if_neg hr]
  · rw [srvs_writePend, if_pos rfl]

theorem SlotWritten.stay {r : Ring} (h : SlotWritten r hash m m') : SlotsStay m m' := by
  obtain ⟨p, hsrvs⟩ := h.srvs
  refine ⟨h.chmpxCount, fun r' i hi => ?_⟩
  by_cases hr : r' = r
  · subst hr
    rw [hsrvs] at hi
    split at hi
    · exact hi
    · rw [Function.update_apply] at hi
      split at hi
      · cases hi
      · exact hi
  · rwa [h.other r' hr] at hi

/-- A write goes outside the array just when its index does. -/
theorem SlotWritten.inside_iff {r : Ring} (h : SlotWritten r hash m m') :
    Inside m' ↔ Inside m ∧ InBounds m hash := by
  obtain ⟨p, hsrvs⟩ := h.srvs
  constructor
  · intro hi
    refine ⟨h.stay.inside hi, ?_⟩
    by_cases hinv : hash = chmInvalidHashVal
    · exact Or.inl hinv
    · right
      by_contra hlt
      have hle : m'.chmpxCount ≤ hash := h.chmpxCount ▸ Nat.le_of_not_lt hlt
      have hnone := hi r hash hle
      rw [hsrvs, if_neg hinv, Function.update_self] at hnone
      cases hnone
  · rintro ⟨hi, hb⟩ r' i hle
    rw [h.chmpxCount] at hle
    by_cases hr : r' = r
    · subst hr
      rw [hsrvs]
      split
      · exact hi r' i hle
      · rename_i hinv
        have hne : i ≠ hash := (Nat.lt_of_lt_of_le (hb.resolve_left hinv) hle).ne'
        rw [Function.update_of_ne hne]
        exact hi r' i hle
    · rw [h.other r' hr]
      exact hi r' i hle

/-! ## The renumbering -/

theorem InBounds.congr (h : m'.chmpxCount = m.chmpxCount) : InBounds m' hash ↔ InBounds m hash := by
  rw [InBounds, InBounds, h]

theorem set_base_inside (env : Env) (p : Ptr) (hb : InBounds m hash) :
    SlotsStay m (m.set env hash 0 .base p).2 ∧
      (Inside m → Inside (m.set env hash 0 .base p).2) := by
  unfold ChmpxMan.set
  split
  · exact ⟨SlotsStay.refl m, fun h => h⟩
  · rename_i c _
    have hc := setChmpx_sameArrays m p c
    have hw := writeBase_written (m.setChmpx p c) p hash
    refine ⟨hc.stay.trans hw.stay, fun h => hw.inside_iff.mpr ⟨hc.inside.mpr h, ?_⟩⟩
    exact (InBounds.congr hc.chmpxCount).mpr hb

theorem set_pending_inside (env : Env) (p : Ptr) (hb : InBounds m hash) :
    SlotsStay m (m.set env 0 hash .pending p).2 ∧
      (Inside m → Inside (m.set env 0 hash .pending p).2) := by
  unfold ChmpxMan.set
  split
  · exact ⟨SlotsStay.refl m, fun h => h⟩
  · rename_i c _
    have hc := setChmpx_sameArrays m p c
    have hw := writePend_written (m.setChmpx p c) p hash
    refine ⟨hc.stay.trans hw.stay, fun h => hw.inside_iff.mpr ⟨hc.inside.mpr h, ?_⟩⟩
    exact (InBounds.congr hc.chmpxCount).mpr hb

/-- The loop numbers the servers that are left from the two counters on. -/
theorem updateHashLoop_inside (env : Env) (type : HashTg) (ps : List Ptr) :
    ∀ (base pending : Nat) (m : ChmpxMan), base + ps.length ≤ m.chmpxCount →
      pending + ps.length ≤ m.chmpxCount →
      SlotsStay m (updateHashLoop env type ps base pending m).2 ∧
        (Inside m → Inside (updateHashLoop env type ps base pending m).2) := by
  induction ps with
  | nil => exact fun _ _ m _ _ => ⟨SlotsStay.refl m, fun h => h⟩
  | cons p ps ih =>
    intro base pending m hbase hpending
    rw [List.length_cons] at hbase hpending
    unfold updateHashLoop
    split
    · exact ⟨SlotsStay.refl m, fun h => h⟩
    · have hnew : ∀ (b : Bool) (n : ChmHash), n + (ps.length + 1) ≤ m.chmpxCount →
          InBounds m (if b then n else chmInvalidHashVal) := by
        intro b n hn
        cases b with
        | false => exact Or.inl rfl
        | true => exact Or.inr (Nat.lt_of_lt_of_le (by simp) hn)
      dsimp only
      generalize (type.isBase && (m.chmpx p).status.isBaseHash) = inBase
      generalize (type.isPending && (m.chmpx p).status.isPendingHash) = inPending
      have h₁ : SlotsStay m (if type.isBase then
            (m.set env (if inBase then base else chmInvalidHashVal) 0 .base p).2 else m) ∧
          (Inside m → Inside (if type.isBase then
            (m.set env (if inBase then base else chmInvalidHashVal) 0 .base p).2 else m)) := by
        split
        · exact set_base_inside env p (hnew inBase base hbase)
        · exact ⟨SlotsStay.refl m, fun h => h⟩
      generalize (if type.isBase then
          (m.set env (if inBase then base else chmInvalidHashVal) 0 .base p).2 else m) = m₁ at h₁ ⊢
      have h₂ : SlotsStay m₁ (if type.isPending then
            (m₁.set env 0 (if inPending then pending else chmInvalidHashVal) .pending p).2
              else m₁) ∧
          (Inside m₁ → Inside (if type.isPending then
            (m₁.set env 0 (if inPending then pending else chmInvalidHashVal) .pending p).2
              else m₁)) := by
        split
        · have hb := hnew inPending pending hpending
          exact set_pending_inside env p ((InBounds.congr h₁.1.chmpxCount).mpr hb)
        · exact ⟨SlotsStay.refl m₁, fun h => h⟩
      generalize (if type.isPending then
          (m₁.set env 0 (if inPending then pending else chmInvalidHashVal) .pending p).2
            else m₁) = m₂ at h₂ ⊢
      have hcount : m₂.chmpxCount = m.chmpxCount := h₂.1.chmpxCount.trans h₁.1.chmpxCount
      obtain ⟨hstay, hin⟩ := ih (if inBase then base + 1 else base)
        (if inPending then pending + 1 else pending) m₂
        (by rw [hcount]; split <;> omega) (by rw [hcount]; split <;> omega)
      exact ⟨(h₁.1.trans h₂.1).trans hstay, fun h => hin (h₂.2 (h₁.2 h))⟩

/-- The renumbering stays inside the arrays. -/
theorem updateHash_inside (env : Env) (type : HashTg) (b b' : Bool) (m : ChmpxMan) :
    Inside (m.updateHash env type b b').2 ↔ Inside m := by
  have hlen : (m.nodes m.chmpxServers).length ≤ m.chmpxCount := by
    unfold nodes nodesFrom
    split
    · exact Nat.zero_le _
    · exact Links.length_follow_le _ _ _
  have hloop : SlotsStay m (m.updateHash env type b b').2 ∧
      (Inside m → Inside (m.updateHash env type b b').2) := by
    unfold ChmpxMan.updateHash
    split
    · exact ⟨SlotsStay.refl m, fun h => h⟩
    · split
      · exact ⟨SlotsStay.refl m, fun h => h⟩
      · unfold listUpdateHash
        split
        · exact ⟨SlotsStay.refl m, fun h => h⟩
        · have hzero : 0 + (m.nodes m.chmpxServers).length ≤ m.chmpxCount := by omega
          exact updateHashLoop_inside env type _ 0 0 m hzero hzero
  exact ⟨hloop.1.inside, hloop.2⟩

/-! ## The records -/

/-- The hash values of a record that a write is made with are indexes of the arrays: of a
merged record the ones that change, of a new server both. -/
def RecordInBounds (env : Env) (args : MergeArgs) (svr : ChmpxSvr) (s : MergeState) : Prop :=
  match s.man.find s.cur svr.chmpxid with
  | some p =>
    (s.man.chmpx p).sameChmpx env args.type svr = true → (s.man.chmpx p).blocksMerge svr = false →
      ((s.man.chmpx p).baseHash ≠ svr.baseHash → InBounds s.man svr.baseHash) ∧
      ((s.man.chmpx p).pendingHash ≠ svr.pendingHash → InBounds s.man svr.pendingHash)
  | none =>
    s.man.chmpxFreeCount ≠ 0 → s.man.chmpxFrees ≠ none →
      svr.status ≠ ChmpxSts.srvoutDownNormal →
      (Chmpx.initializeServer env args.type s.man.group svr Chmpx.cleared).1 = true →
      InBounds s.man svr.baseHash ∧ InBounds s.man svr.pendingHash

/-- What two states have to do with each other when the writes between them stay inside the
arrays just if `inBounds`. -/
structure WritesSlots (inBounds : Prop) (m m' : ChmpxMan) : Prop where
  stay : SlotsStay m m'
  inside : Inside m → (Inside m' ↔ inBounds)

theorem WritesSlots.of_same {b : Prop} (h : SameArrays m m') (hb : b) : WritesSlots b m m' :=
  ⟨h.stay, fun hi => ⟨fun _ => hb, fun _ => h.inside.mpr hi⟩⟩

theorem WritesSlots.of_write {r : Ring} (h : SlotWritten r hash m m') :
    WritesSlots (InBounds m hash) m m' :=
  ⟨h.stay, fun hi => h.inside_iff.trans (and_iff_right hi)⟩

theorem WritesSlots.trans {b b' : Prop} (h : WritesSlots b m m₁) (h' : WritesSlots b' m₁ m') :
    WritesSlots (b ∧ b') m m' := by
  refine ⟨h.stay.trans h'.stay, fun hi => ⟨fun hi' => ?_, fun hb => ?_⟩⟩
  · have hi₁ := h'.stay.inside hi'
    exact ⟨(h.inside hi).mp hi₁, (h'.inside hi₁).mp hi'⟩
  · exact (h'.inside ((h.inside hi).mpr hb.1)).mpr hb.2

theorem WritesSlots.congr {b b' : Prop} (h : WritesSlots b m m') (hb : b ↔ b') :
    WritesSlots b' m m' :=
  ⟨h.stay, fun hi => (h.inside hi).trans hb⟩

theorem mergeChmpxSvr_slots (env : Env) (type : ChmpxIdSeedType) (svr : ChmpxSvr) (p : Ptr)
    (m : ChmpxMan) :
    WritesSlots ((m.chmpx p).sameChmpx env type svr = true →
        (m.chmpx p).blocksMerge svr = false →
        ((m.chmpx p).baseHash ≠ svr.baseHash → InBounds m svr.baseHash) ∧
        ((m.chmpx p).pendingHash ≠ svr.pendingHash → InBounds m svr.pendingHash)) m
      (m.mergeChmpxSvr env type svr p) := by
  unfold ChmpxMan.mergeChmpxSvr
  cases hm : (m.chmpx p).mergeChmpxSvr env type svr with
  | none =>
    apply WritesSlots.of_same (SameArrays.refl m)
    intro hsame hblock
    rw [Chmpx.mergeChmpxSvr, hsame, hblock] at hm
    cases hm
  | some c =>
    obtain ⟨hsame, hblock, hbase, hpend⟩ : (m.chmpx p).sameChmpx env type svr = true ∧
        (m.chmpx p).blocksMerge svr = false ∧ c.baseHash = svr.baseHash ∧
        c.pendingHash = svr.pendingHash := by
      unfold Chmpx.mergeChmpxSvr at hm
      split at hm
      · cases hm
      · rename_i hs
        split at hm
        · cases hm
        · rename_i hb
          cases hm
          exact ⟨by simpa using hs, by simpa using hb, rfl, rfl⟩
    have hcount := (setChmpx_sameArrays m p c).chmpxCount
    have hset : WritesSlots True m (m.setChmpx p c) :=
      WritesSlots.of_same (setChmpx_sameArrays m p c) trivial
    have hwrite : ∀ {r : Ring} {b : Prop} [Decidable b] {m₁ m₂ : ChmpxMan} {hash : ChmHash},
        m₁.chmpxCount = m.chmpxCount → SlotWritten r hash m₁ m₂ →
        WritesSlots (b → InBounds m hash) m₁ (if b then m₂ else m₁) := by
      intro r b _ m₁ m₂ hash hn hw
      by_cases hb : b
      · rw [if_pos hb]
        refine (WritesSlots.of_write hw).congr ?_
        rw [InBounds.congr hn]
        exact ⟨fun h _ => h, fun h => h hb⟩
      · rw [if_neg hb]
        exact WritesSlots.of_same (SameArrays.refl m₁) fun hb' => absurd hb' hb
    dsimp only
    rw [hbase, hpend]
    have h₁ := hset.trans (hwrite (b := (m.chmpx p).baseHash ≠ svr.baseHash) hcount
      (writeBase_written (m.setChmpx p c) p svr.baseHash))
    have h₂ := h₁.trans (hwrite (b := (m.chmpx p).pendingHash ≠ svr.pendingHash)
      h₁.stay.chmpxCount (writePend_written _ p svr.pendingHash))
    refine h₂.congr ⟨fun h _ _ => ⟨h.1.2, h.2⟩, fun h => ?_⟩
    exact ⟨⟨trivial, (h hsame hblock).1⟩, (h hsame hblock).2⟩

theorem initializeServer_slots (env : Env) (type : ChmpxIdSeedType) (svr : ChmpxSvr) (p : Ptr)
    (m : ChmpxMan) (hp : m.chmpx p = Chmpx.cleared) :
    WritesSlots ((Chmpx.initializeServer env type m.group svr Chmpx.cleared).1 = true →
        InBounds m svr.baseHash ∧ InBounds m svr.pendingHash) m
      (m.initializeServer env type svr p) := by
  unfold ChmpxMan.initializeServer
  rw [hp]
  cases hi : Chmpx.initializeServer env type m.group svr Chmpx.cleared with
  | mk ok c =>
    have hset : SameArrays m (m.setChmpx p c) := setChmpx_sameArrays m p c
    cases ok with
    | false => exact WritesSlots.of_same hset fun h => absurd h (by simp)
    | true =>
      obtain ⟨hbase, hpend⟩ : c.baseHash = svr.baseHash ∧ c.pendingHash = svr.pendingHash := by
        unfold Chmpx.initializeServer at hi
        split at hi
        · cases hi
        · split at hi
          · cases hi
          · cases hi
            exact ⟨rfl, rfl⟩
      dsimp only
      rw [if_pos rfl, hbase, hpend]
      have hset' : WritesSlots True m (m.setChmpx p c) := WritesSlots.of_same hset trivial
      have h₁ := hset'.trans
        (WritesSlots.of_write (writeBase_written (m.setChmpx p c) p svr.baseHash))
      have h₂ := h₁.trans (WritesSlots.of_write (writePend_written
        ((m.setChmpx p c).writeBase p svr.baseHash) p svr.pendingHash))
      refine h₂.congr ?_
      rw [InBounds.congr hset.chmpxCount, InBounds.congr h₁.stay.chmpxCount]
      exact ⟨fun h _ => ⟨h.1.2, h.2⟩, fun h => ⟨⟨trivial, (h rfl).1⟩, (h rfl).2⟩⟩

theorem newServer_slots (env : Env) (args : MergeArgs) (svr : ChmpxSvr) (m : ChmpxMan) :
    WritesSlots (m.chmpxFrees ≠ none →
        (Chmpx.initializeServer env args.type m.group svr Chmpx.cleared).1 = true →
        InBounds m svr.baseHash ∧ InBounds m svr.pendingHash) m
      (newServer env args svr m).2 := by
  unfold newServer
  cases hf : m.chmpxFrees with
  | none => exact WritesSlots.of_same (.of_eq rfl rfl rfl) fun h => absurd rfl h
  | some cur =>
    obtain ⟨q, frees, m₁, hpop, hsame, hgroup⟩ : ∃ q frees m₁,
        m.popAny (some cur) = (some q, frees, m₁) ∧ SameArrays m m₁ ∧ m₁.group = m.group := by
      have hsame := popAny_sameArrays m (some cur)
      unfold popAny at hsame ⊢
      dsimp only at hsame ⊢
      split
      · rename_i hnext
        rw [hnext] at hsame
        exact ⟨_, _, _, rfl, hsame, rfl⟩
      · rename_i hnext
        rw [hnext] at hsame
        exact ⟨_, _, _, rfl, hsame, rfl⟩
    rw [hpop]
    dsimp only
    have hfrees : SameArrays m₁ (m₁.setFrees (m₁.chmpxFreeCount - 1) (m₁.getFirstPtr frees)) :=
      .of_eq rfl rfl rfl
    have hfreed := hsame.trans hfrees
    generalize hm₂ : m₁.setFrees (m₁.chmpxFreeCount - 1) (m₁.getFirstPtr frees) = m₂ at hfreed
    have hgroup₂ : m₂.group = m.group := by
      rw [← hm₂]
      exact hgroup
    have hclear := hfreed.trans (clear_sameArrays m₂ false q)
    obtain ⟨hchmpx, hcgroup⟩ := clear_form m₂ false q
    have hq : (m₂.clear false q).chmpx q = Chmpx.cleared := by
      rw [hchmpx, Function.update_self]
    have h := initializeServer_slots env args.type svr q (m₂.clear false q) hq
    rw [hcgroup, hgroup₂, InBounds.congr hclear.chmpxCount, InBounds.congr hclear.chmpxCount] at h
    refine ((WritesSlots.of_same hclear trivial).trans h).congr ?_
    exact ⟨fun h _ => h.2, fun h => ⟨trivial, h (Option.some_ne_none cur)⟩⟩

/-- One record. -/
theorem mergeRecord_slots (env : Env) (args : MergeArgs) (selfchmpxid : ChmpxId)
    (svr : ChmpxSvr) (s : MergeState) :
    WritesSlots (RecordInBounds env args svr s) s.man
      (mergeRecord env args selfchmpxid svr s).1.man := by
  unfold RecordInBounds mergeRecord
  cases hf : s.man.find s.cur svr.chmpxid with
  | some p =>
    obtain ⟨status, he⟩ := selfRecord_eq args selfchmpxid (s.man.chmpx p) svr
    have h := mergeChmpxSvr_slots env args.type (selfRecord args selfchmpxid (s.man.chmpx p) svr)
      p s.man
    rw [he] at h
    dsimp only
    rw [he]
    exact h
  | none =>
    dsimp only
    split
    · rename_i hfree
      exact WritesSlots.of_same (SameArrays.refl _) fun h => absurd hfree h
    · rename_i hfree
      split
      · rename_i hst
        exact WritesSlots.of_same (SameArrays.refl _) fun _ _ h => absurd hst h
      · rename_i hst
        have hnew := newServer_slots env args svr s.man
        generalize newServer env args svr s.man = r at hnew
        obtain ⟨p, m⟩ := r
        have hins := hnew.trans (WritesSlots.of_same
          (insertServer_sameArrays args.type p s.cur m) trivial)
        refine hins.congr ?_
        rw [and_true]
        exact ⟨fun h _ hfrees _ => h hfrees, fun h hfrees => h hfree hfrees hst⟩

/-- The first phase stays inside just when every record does, at its turn. -/
theorem mergeRecords_slots (env : Env) (args : MergeArgs) (selfchmpxid : ChmpxId)
    (records : List ChmpxSvr) :
    ∀ s : MergeState,
      WritesSlots (EachRecord (RecordInBounds env args) env args selfchmpxid records s) s.man
        (mergeRecords env args selfchmpxid records s).1.man := by
  induction records with
  | nil => exact fun s => WritesSlots.of_same (SameArrays.refl s.man) trivial
  | cons svr records ih =>
    exact fun s => (mergeRecord_slots env args selfchmpxid svr s).trans (ih _)

/-- `MergeChmpxSvrs` writes inside the two arrays just when the hash values of its records
that are written before the renumbering are indexes of them. -/
theorem mergeChmpxSvrs_inside_iff (env : Env) (args : MergeArgs) (records : List ChmpxSvr)
    (m : ChmpxMan) (h : Inside m) :
    Inside (mergeChmpxSvrs env args records m).2.2 ↔
      EachRecord (RecordInBounds env args) env args m.keptChmpxId records
        ⟨m.chmpxServers, false, m⟩ := by
  by_cases hrec : records = []
  · rw [hrec]
    exact iff_of_true h trivial
  · obtain ⟨s, hs, -, hman⟩ := mergeChmpxSvrs_eq env args m hrec
    have hrecords := mergeRecords_slots env args m.keptChmpxId records ⟨m.chmpxServers, false, m⟩
    have hremoved : SameArrays
        (mergeRecords env args m.keptChmpxId records ⟨m.chmpxServers, false, m⟩).1.man s.man := by
      rw [hs]
      exact removePhase_sameArrays ..
    have hrecount : SameArrays (s.man.updateHash env .both true true).2
        ((s.man.updateHash env .both true true).2.recount s.cur) := .of_eq rfl rfl rfl
    rw [hman, hrecount.inside, updateHash_inside, hremoved.inside]
    exact hrecords.inside h

theorem sampleMan_inside (isServerMode : Bool) : Inside (sampleMan isServerMode) := by
  intro r i _
  cases isServerMode <;> cases r <;> rfl

/-- A server of the list with a valid hash. -/
theorem mergeChmpxSvrs_inside_sample :
    Inside (mergeChmpxSvrs sampleEnv (sampleArgs false)
      [{ sampleSvr 98 ChmpxSts.srvinUpNormal with baseHash := 3 }] (sampleMan true)).2.2 := by
  refine (mergeChmpxSvrs_inside_iff sampleEnv (sampleArgs false) _ (sampleMan true)
    (sampleMan_inside true)).mpr ⟨?_, trivial⟩
  have hbase : InBounds (sampleMan true) 3 := Or.inr (by decide +kernel)
  have hpending : InBounds (sampleMan true) chmInvalidHashVal := Or.inl rfl
  unfold RecordInBounds
  split
  · exact fun _ _ => ⟨fun _ => hbase, fun _ => hpending⟩
  · exact fun _ _ _ _ => ⟨hbase, hpending⟩

/-- A peer whose ring has more servers than this area has nodes: the hash of a known server
is written behind the array. -/
theorem merge_writesOutside :
    ¬∀ (env : Env) (args : MergeArgs) (records : List ChmpxSvr) (m : ChmpxMan),
      Inside m → Inside (mergeChmpxSvrs env args records m).2.2 := by
  intro h
  have hin := h sampleEnv (sampleArgs false)
    [{ sampleSvr 98 ChmpxSts.srvinUpNormal with baseHash := 4 }] (sampleMan true)
    (sampleMan_inside true) .base 4 (by decide +kernel)
  exact absurd hin (by decide +kernel)

end ChmpxMan
end Chm
