/-
AllSafe statuses.

A status is settled when `IS_SAFE_CHMPXSTS` holds of it and a down server carries no
SUSPEND flag.  `SetStatus` refuses a status that is not safe, and the merge functions
only write settled ones.  A merged record brings its status into the list unchecked, and
`SetServerStatus` takes a down status of another server with the flag.
-/
import Chm.EventCalls
import Chm.StatusMerge

namespace Chm

namespace ChmpxMan

variable {env : Env} {m m' : ChmpxMan} {s : MergeState} {p : Ptr} {c : Chmpx}

/-- The status of every server of the area is settled. -/
def AllSafe (m : ChmpxMan) : Prop :=
  ∀ p, (m.chmpx p).isServerMode = true → (m.chmpx p).status.isSettled = true

/-- What a write may bring. -/
def SettledAs (mode : ChmpxMode) (status : ChmpxSts) : Prop :=
  mode = .server → status.isSettled = true

/-! ## Writes and moves -/

theorem AllSafe.congr (h : AllSafe m) (he : m'.chmpx = m.chmpx) : AllSafe m' := by
  intro p hp
  rw [he] at hp ⊢
  exact h p hp

theorem AllSafe.setServers (h : AllSafe m) (count : Nat) (head : Option Ptr) :
    AllSafe (m.setServers count head) :=
  h.congr rfl

theorem AllSafe.update (h : AllSafe m) (he : m'.chmpx = Function.update m.chmpx p c)
    (hc : c.isServerMode = true → c.status.isSettled = true) : AllSafe m' := by
  intro q
  rw [he, Function.update_apply]
  split
  · exact hc
  · exact h q

theorem AllSafe.setChmpx (h : AllSafe m) (hc : c.isServerMode = true → c.status.isSettled = true) :
    AllSafe (m.setChmpx p c) :=
  h.update rfl hc

/-- A record with the mode and the status that it had. -/
theorem AllSafe.same (h : AllSafe m) (hm : c.mode = (m.chmpx p).mode)
    (hs : c.status = (m.chmpx p).status) : AllSafe (m.setChmpx p c) := by
  refine h.setChmpx fun hc => ?_
  rw [hs]
  apply h p
  rwa [Chmpx.isServerMode, hm] at hc

theorem AllSafe.written (h : AllSafe m) (hw : Written (Chmpx.RecordWrite SettledAs) m m') :
    AllSafe m' := by
  induction hw with
  | refl => exact h
  | tail _ hw ih =>
    cases hw with
    | chmpx hc =>
      rcases hc.status with hs | hs
      · exact ih.same hc.mode hs
      · exact ih.setChmpx fun hmode => hs (of_decide_eq_true hmode)
    | srvs base pend => exact ih.congr rfl
    | recount cur => exact ih.congr rfl

theorem AllSafe.statusWritten (h : AllSafe m) (hw : Written (Chmpx.StatusWrite SettledAs) m m') :
    AllSafe m' :=
  h.written (hw.mono fun _ _ => Chmpx.StatusWrite.record)

theorem AllSafe.setStatus (h : AllSafe m) {status : ChmpxSts}
    (hs : (m.chmpx p).isServerMode = true → status.isSafe = true → status.isSettled = true) :
    AllSafe (m.setStatus env status p).2 := by
  simp only [ChmpxMan.setStatus, Chmpx.setStatus]
  split
  · exact h
  · rename_i c hc
    split at hc
    · cases hc
    · split at hc
      · cases hc
      · rename_i hsafe
        cases hc
        exact h.setChmpx fun hmode => hs hmode (by simpa using hsafe)

theorem AllSafe.cleared (h : AllSafe m) (he : m'.chmpx = Function.update m.chmpx p .cleared) :
    AllSafe m' := by
  refine h.update he fun hc => ?_
  cases hc

theorem AllSafe.giveBack (h : AllSafe m) (eqfd : Bool) (p : Ptr) : AllSafe (m.giveBack eqfd p) := by
  obtain ⟨k, same, map, n, head, he⟩ := giveBack_form eqfd p m
  rw [he]
  exact h.cleared rfl

theorem popFront_form (m : ChmpxMan) (cur : Cursor) : (m.popFront cur).2.2.chmpx = m.chmpx := by
  cases cur <;> rfl

theorem saveChmpxIdMap_chmpx (m : ChmpxMan) (p : Ptr) : (m.saveChmpxIdMap p).chmpx = m.chmpx := by
  obtain ⟨same, map, he⟩ := saveChmpxIdMap_eq m p
  rw [he]
  rfl

theorem insertSlave_chmpx (type : ChmpxIdSeedType) (p : Option Ptr) (m : ChmpxMan) :
    (insertSlave type p m).chmpx = m.chmpx := by
  unfold insertSlave
  cases m.chmpxSlaves with
  | none =>
    cases p with
    | none => rfl
    | some p => exact saveChmpxIdMap_chmpx m p
  | some c =>
    cases p with
    | none => rfl
    | some p =>
      simp only [insert]
      split
      · exact saveChmpxIdMap_chmpx (m.setLinks _) p
      · exact saveChmpxIdMap_chmpx (m.setLinks _) p

/-- A node initialised from parameters is down and not suspended. -/
theorem initializeChmpx_settled {type : ChmpxIdSeedType} {group : CStr} {mode : ChmpxMode}
    {par : ChmpxParam} (h : Chmpx.initializeChmpx env type group mode par = some c) :
    c.status.isSettled = true := by
  unfold Chmpx.initializeChmpx at h
  split at h
  · cases h
  · cases h
    dsimp only
    split <;> decide

theorem AllSafe.initializeAt (h : AllSafe m) (type : ChmpxIdSeedType) (group : CStr)
    (mode : ChmpxMode) (par : ChmpxParam) (p : Option Ptr) :
    AllSafe (m.initializeAt env type group mode par p) := by
  unfold ChmpxMan.initializeAt
  split
  · exact h
  · split
    · exact h
    · rename_i hc
      exact h.setChmpx fun _ => initializeChmpx_settled hc

/-! ## Initialisation -/

/-- The status of every server of the area meets `P`. -/
def AllServers (P : ChmpxSts → Prop) (m : ChmpxMan) : Prop :=
  ∀ p, (m.chmpx p).isServerMode = true → P (m.chmpx p).status

/-- The mode and the status of every node of the area meet `P`. -/
def EveryNode (P : ChmpxMode → ChmpxSts → Prop) (m : ChmpxMan) : Prop :=
  ∀ p, P (m.chmpx p).mode (m.chmpx p).status

/-- The status that a node of the mode has at first. -/
def firstStatus (mode : ChmpxMode) : ChmpxSts :=
  if mode = .server then ChmpxSts.srvoutDownNormal else ChmpxSts.slaveDownNormal

section

variable {P : ChmpxMode → ChmpxSts → Prop}

theorem EveryNode.congr (h : EveryNode P m) (he : m'.chmpx = m.chmpx) : EveryNode P m' := by
  intro p
  rw [he]
  exact h p

theorem EveryNode.initializeAt (hP : ∀ mode, P mode (firstStatus mode)) (h : EveryNode P m)
    (type : ChmpxIdSeedType) (group : CStr) (mode : ChmpxMode) (par : ChmpxParam)
    (p : Option Ptr) : EveryNode P (m.initializeAt env type group mode par p) := by
  unfold ChmpxMan.initializeAt
  split
  · exact h
  · split
    · exact h
    · rename_i q _ c hc
      intro r
      rw [chmpx_setChmpx]
      by_cases hq : r = q
      · rw [if_pos hq]
        unfold Chmpx.initializeChmpx at hc
        split at hc
        · cases hc
        · cases hc
          exact hP mode
      · rw [if_neg hq]
        exact h r

theorem EveryNode.initializeServers (hP : ∀ mode, P mode (firstStatus mode)) (cfg : ChmCfgInfo)
    (pars : List ChmpxParam) :
    ∀ (frees : Cursor) (m : ChmpxMan), EveryNode P m →
      EveryNode P (initializeServers env cfg pars frees m).2 := by
  induction pars with
  | nil => exact fun _ _ h => h
  | cons par pars ih =>
    intro frees m h
    refine ih _ _ ?_
    refine EveryNode.congr ?_ (insertServer_frame _ _ _ _).1
    exact (h.congr (popFront_form m frees)).initializeAt hP _ _ _ _ _

theorem EveryNode.initializeSelf (hP : ∀ mode, P mode (firstStatus mode)) (cfg : ChmCfgInfo)
    (frees : Cursor) (h : EveryNode P m) : EveryNode P (initializeSelf env cfg frees m).2 := by
  unfold ChmpxMan.initializeSelf
  have hpop := popFront_form m frees
  generalize m.popFront frees = r at hpop
  obtain ⟨q, frees', m₁⟩ := r
  have hi : EveryNode P (m₁.initializeNode env cfg (if cfg.isServerMode then .server else .slave)
      (selfParam cfg) q) := (h.congr hpop).initializeAt hP _ _ _ _ _
  dsimp only
  generalize m₁.initializeNode env cfg (if cfg.isServerMode then .server else .slave)
    (selfParam cfg) q = m₂ at hi
  have hs : EveryNode P (if cfg.isServerMode then m₂.setServers 1 q else m₂) := by
    split
    · exact hi.congr rfl
    · exact hi
  generalize (if cfg.isServerMode then m₂.setServers 1 q else m₂) = m₃ at hs
  cases q with
  | none => exact hs.congr rfl
  | some p => exact hs.congr (saveChmpxIdMap_chmpx m₃ p)

/-- What holds of the first status of every mode holds of every node after `Initialize`. -/
theorem initialized_everyNode {cfg : ChmCfgInfo} (hP : ∀ mode, P mode (firstStatus mode))
    (h : initialized env cfg = some m) : EveryNode P m := by
  have hfresh : EveryNode P (freshArea cfg) := fun _ => hP .unknown
  unfold initialized at h
  split at h
  · cases h
  · cases h
    have hself : EveryNode P (initializeSelf env cfg
        (if 0 < cfg.maxChmpxCount then some 0 else none) (freshArea cfg)).2 :=
      hfresh.initializeSelf hP cfg _
    exact (EveryNode.initializeServers hP cfg _ _ _ hself).congr rfl

end

variable {P : ChmpxSts → Prop}

/-- What holds of a server that is down and out of service holds of every server that
`Initialize` makes. -/
theorem initialized_servers {cfg : ChmCfgInfo} (hP : P ChmpxSts.srvoutDownNormal)
    (h : initialized env cfg = some m) : AllServers P m := by
  have hfirst : ∀ mode, mode = ChmpxMode.server → P (firstStatus mode) := by
    rintro mode rfl
    exact hP
  intro p hp
  exact initialized_everyNode (P := fun mode status => mode = .server → P status) hfirst h p
    (of_decide_eq_true hp)

/-- `Initialize` leaves settled statuses, whatever the configuration is. -/
theorem initialized_settled {cfg : ChmCfgInfo} (h : initialized env cfg = some m) :
    AllSafe m :=
  initialized_servers (P := fun status => status.isSettled = true) (by decide) h

/-! ## Merging records -/

/-- The status that a record about this node itself is merged with, once rewritten, is
settled. -/
def rewritesSettled (isInitProcess selfsockOpen : Bool) (status : ChmpxSts) : Bool :=
  if status.isDown && (isInitProcess || selfsockOpen) then
    !status.isSrvin || status.isNoact || status.isDelete
  else if status.isUp && !isInitProcess && !selfsockOpen then
    !status.isSrvin || status.isNoact || status.isAdd || status.isDelete
  else status.isSettled

/-- A record whose status comes into the list brings a settled one. -/
def RecordSettled (env : Env) (args : MergeArgs) (selfchmpxid : ChmpxId) (svr : ChmpxSvr)
    (s : MergeState) : Prop :=
  match s.man.find s.cur svr.chmpxid with
  | some p =>
    let c := s.man.chmpx p
    c.sameChmpx env args.type svr = true → c.blocksMerge svr = false →
      c.takesStatus env svr = true →
      if selfchmpxid = svr.chmpxid ∧ c.status ≠ svr.status then
        rewritesSettled args.isInitProcess (selfsockOpen c) svr.status = true
      else svr.status.isSettled = true
  | none =>
    s.man.chmpxFreeCount ≠ 0 → svr.status ≠ ChmpxSts.srvoutDownNormal →
      (Chmpx.initializeServer env args.type s.man.group svr .cleared).1 = true →
      svr.status.isSettled = true

/-- Every record of a call does, at the state that the records before it leave. -/
def RecordsSettled (env : Env) (args : MergeArgs) (selfchmpxid : ChmpxId) :
    List ChmpxSvr → MergeState → Prop
  | [], _ => True
  | svr :: svrs, s =>
    RecordSettled env args selfchmpxid svr s ∧
      RecordsSettled env args selfchmpxid svrs (mergeRecord env args selfchmpxid svr s).1

theorem selfMergeStatus_settled {isClientJoin isInitProcess isOpen : Bool} {status : ChmpxSts}
    (h : rewritesSettled isInitProcess isOpen status = true) :
    (selfMergeStatus isClientJoin isInitProcess isOpen status).isSettled = true := by
  unfold rewritesSettled at h
  unfold selfMergeStatus
  dsimp only
  split
  · rename_i hd
    rw [if_pos hd] at h
    cases isClientJoin
    all_goals
      split
      · split
        · decide
        · split
          · split <;> decide
          · simp_all
      · split <;> decide
  · rename_i hd
    rw [if_neg hd] at h
    split
    · rename_i hu
      rw [if_pos hu] at h
      split
      · split
        · decide
        · split
          · decide
          · split
            · split <;> decide
            · simp_all
      · split <;> decide
    · rename_i hu
      rwa [if_neg hu] at h

/-- The record's status as it is merged. -/
theorem selfRecord_settled {args : MergeArgs} {selfchmpxid : ChmpxId} {svr : ChmpxSvr}
    (h : if selfchmpxid = svr.chmpxid ∧ c.status ≠ svr.status then
        rewritesSettled args.isInitProcess (selfsockOpen c) svr.status = true
      else svr.status.isSettled = true) :
    (selfRecord args selfchmpxid c svr).status.isSettled = true := by
  unfold selfRecord
  split
  · rename_i hs
    rw [if_pos hs] at h
    exact selfMergeStatus_settled h
  · rename_i hs
    rwa [if_neg hs] at h

/-- A record that is merged leaves its own status or the one that was there. -/
theorem AllSafe.mergeChmpxSvr (h : AllSafe m) {type : ChmpxIdSeedType} {svr : ChmpxSvr}
    (hs : (m.chmpx p).sameChmpx env type svr = true → (m.chmpx p).blocksMerge svr = false →
      (m.chmpx p).takesStatus env svr = true → svr.status.isSettled = true) :
    AllSafe (m.mergeChmpxSvr env type svr p) := by
  have hchmpx := chmpx_mergeChmpxSvr env type svr p m
  cases hc : (m.chmpx p).mergeChmpxSvr env type svr with
  | none =>
    rw [hc] at hchmpx
    exact h.congr hchmpx
  | some c =>
    rw [hc] at hchmpx
    refine h.update hchmpx fun hmode => ?_
    unfold Chmpx.mergeChmpxSvr at hc
    split at hc
    · cases hc
    · rename_i hsame
      split at hc
      · cases hc
      · rename_i hblock
        cases hc
        dsimp only
        split
        · rename_i htake
          exact hs (by simpa using hsame) (by simpa using hblock) htake
        · exact h p hmode

theorem AllSafe.initializeServer (h : AllSafe m) {type : ChmpxIdSeedType} {svr : ChmpxSvr}
    (hp : m.chmpx p = .cleared)
    (hs : (Chmpx.initializeServer env type m.group svr .cleared).1 = true →
      svr.status.isSettled = true) :
    AllSafe (m.initializeServer env type svr p) := by
  have hnew : (Chmpx.initializeServer env type m.group svr .cleared).2.isServerMode = true →
      (Chmpx.initializeServer env type m.group svr .cleared).2.status.isSettled = true := by
    intro hmode
    by_cases hok : (Chmpx.initializeServer env type m.group svr .cleared).1 = true
    · rw [(initializeServer_record hok).2]
      exact hs hok
    · cases hc : Chmpx.initializeChmpx env type m.group .server svr.param with
      | none =>
        simp only [Chmpx.initializeServer, hc] at hmode
        cases hmode
      | some c =>
        by_cases hid : svr.chmpxid ≠ c.chmpxid
        · simp only [Chmpx.initializeServer, hc, if_pos hid]
          exact initializeChmpx_settled hc
        · simp only [Chmpx.initializeServer, hc, if_neg hid, not_true] at hok
  simp only [ChmpxMan.initializeServer, hp]
  split
  · exact (h.setChmpx hnew).congr (by rw [chmpx_writePend, chmpx_writeBase])
  · exact h.setChmpx hnew

theorem AllSafe.mergeRecord (args : MergeArgs) (selfchmpxid : ChmpxId) {svr : ChmpxSvr}
    (h : AllSafe s.man) (hs : RecordSettled env args selfchmpxid svr s) :
    AllSafe (mergeRecord env args selfchmpxid svr s).1.man := by
  unfold RecordSettled at hs
  unfold ChmpxMan.mergeRecord
  split
  · rename_i p hf
    rw [hf] at hs
    apply h.mergeChmpxSvr
    intro hsame hblock htake
    obtain ⟨status, he⟩ := selfRecord_eq args selfchmpxid (s.man.chmpx p) svr
    apply selfRecord_settled
    rw [he] at hsame hblock htake
    exact hs hsame hblock htake
  · rename_i hf
    rw [hf] at hs
    split
    · exact h
    · rename_i hfree
      split
      · exact h
      · rename_i hst
        refine AllSafe.congr ?_ (insertServer_frame _ _ _ _).1
        unfold newServer
        have hpop := popAny_form s.man s.man.chmpxFrees
        generalize s.man.popAny s.man.chmpxFrees = r at hpop ⊢
        obtain ⟨q, frees, m₁⟩ := r
        have h₁ : AllSafe (m₁.setFrees (m₁.chmpxFreeCount - 1) (m₁.getFirstPtr frees)) :=
          h.congr hpop.1
        cases q with
        | none => exact h₁
        | some q =>
          obtain ⟨hchmpx, hgroup⟩ := clear_form
            (m₁.setFrees (m₁.chmpxFreeCount - 1) (m₁.getFirstPtr frees)) false q
          refine (h₁.cleared hchmpx).initializeServer ?_ fun hok => ?_
          · rw [hchmpx, Function.update_self]
          · rw [hgroup] at hok
            apply hs hfree hst
            rw [← hpop.2]
            exact hok

theorem AllSafe.mergeRecords (args : MergeArgs) (selfchmpxid : ChmpxId) (svrs : List ChmpxSvr) :
    ∀ s : MergeState, AllSafe s.man → RecordsSettled env args selfchmpxid svrs s →
      AllSafe (mergeRecords env args selfchmpxid svrs s).1.man := by
  induction svrs with
  | nil => exact fun _ h _ => h
  | cons svr svrs ih => exact fun s h hs => ih _ (h.mergeRecord args selfchmpxid hs.1) hs.2

theorem AllSafe.retrieve (h : AllSafe m) (p : Ptr) : AllSafe (m.retrieve p).2 :=
  h.congr (retrieved m p).chmpx

theorem AllSafe.removeLoop (args : MergeArgs) (selfchmpxid : ChmpxId) (chmpxids : List ChmpxId)
    (fuel : Nat) :
    ∀ s : MergeState, AllSafe s.man →
      AllSafe (removeLoop args selfchmpxid chmpxids fuel s).man := by
  induction fuel with
  | zero => exact fun _ h => h
  | succ fuel ih =>
    intro s h
    unfold ChmpxMan.removeLoop
    split
    · split <;> exact h
    · rename_i p _
      dsimp only
      split
      · split
        · exact h
        · exact ih _ h
      · exact ih _ (((h.retrieve p).giveBack args.eqfd p).setServers _ _)

theorem AllSafe.setServersHead (h : AllSafe s.man) : AllSafe (setServersHead s).man := by
  unfold ChmpxMan.setServersHead
  split <;> exact h.congr rfl

theorem AllSafe.removePhase (args : MergeArgs) (selfchmpxid : ChmpxId) (chmpxids : List ChmpxId)
    (h : AllSafe s.man) : AllSafe (removePhase args selfchmpxid chmpxids s).man := by
  unfold ChmpxMan.removePhase
  split
  · unfold removeServers
    split
    · exact h.setServersHead
    · refine (AllSafe.removeLoop args selfchmpxid chmpxids _ _ ?_).setServersHead
      exact h
  · exact h

theorem AllSafe.mergeChmpxSvrs (args : MergeArgs) {svrs : List ChmpxSvr} (h : AllSafe m)
    (hs : RecordsSettled env args m.keptChmpxId svrs ⟨m.chmpxServers, false, m⟩) :
    AllSafe (mergeChmpxSvrs env args svrs m).2.2 := by
  by_cases hne : svrs = []
  · rw [hne]
    exact h
  · obtain ⟨s, he, -, hman⟩ := mergeChmpxSvrs_eq env args m hne
    rw [hman]
    have hr : AllSafe s.man := by
      rw [he]
      exact (AllSafe.mergeRecords args _ svrs _ h hs).removePhase args _ _
    exact (hr.statusWritten (Written.updateHash SettledAs env .both true true s.man)).congr rfl

/-! ## Reloading the configuration -/

section

variable {I : ChmpxMan → Prop}
  (hcongr : ∀ {m m' : ChmpxMan}, I m → m'.chmpx = m.chmpx → m'.chmpxSelf = m.chmpxSelf → I m')
  (hinit : ∀ {m : ChmpxMan} {p : Ptr} {c : Chmpx} {type : ChmpxIdSeedType} {group : CStr}
    {par : ChmpxParam}, Chmpx.initializeChmpx env type group .server par = some c → I m →
      I (m.setChmpx p c))
  (hclear : ∀ {m : ChmpxMan} {p : Ptr}, I m → I (m.setChmpx p Chmpx.cleared))

include hcongr hinit in
theorem updateChmpxSvr_keeps (cfg : ChmCfgInfo) (par : ChmpxParam) (frees : Cursor) (h : I m) :
    I (updateChmpxSvr env cfg par frees m).2 := by
  unfold ChmpxMan.updateChmpxSvr
  split
  · exact h
  · have hpop : I (m.popFront frees).2.2 := by
      cases frees with
      | none => exact h
      | some p => exact hcongr h rfl rfl
    have hi : I ((m.popFront frees).2.2.initializeAt env cfg.chmpxidType cfg.groupname
        .server par (m.popFront frees).1) := by
      unfold initializeAt
      split
      · exact hpop
      · split
        · exact hpop
        · rename_i hc
          exact hinit hc hpop
    dsimp only
    generalize (m.popFront frees).2.2.initializeAt env cfg.chmpxidType cfg.groupname .server par
      (m.popFront frees).1 = m₁ at hi ⊢
    obtain ⟨k, same, map, n, head, he⟩ :=
      insertServer_form cfg.chmpxidType (m.popFront frees).1 m₁.chmpxServers m₁
    rw [he]
    exact hcongr hi rfl rfl

include hcongr hinit in
theorem updateChmpxSvrLoop_keeps (cfg : ChmCfgInfo) (pars : List ChmpxParam) :
    ∀ (frees : Cursor) (m : ChmpxMan), I m → I (updateChmpxSvrLoop env cfg pars frees m).2 := by
  induction pars with
  | nil => exact fun _ _ h => h
  | cons par pars ih =>
    exact fun frees m h => ih _ _ (updateChmpxSvr_keeps hcongr hinit cfg par frees h)

include hcongr hclear in
theorem giveBack_keeps (eqfd : Bool) (p : Ptr) (h : I m) : I (m.giveBack eqfd p) := by
  obtain ⟨k, same, map, n, head, he⟩ := giveBack_form eqfd p m
  rw [he]
  refine hcongr (hclear (p := p) (m := m) h) ?_ rfl
  rfl

include hcongr hclear in
theorem updateRemoveLoop_keeps (cfg : ChmCfgInfo) (eqfd : Bool) (selfchmpxid : ChmpxId)
    (fuel : Nat) :
    ∀ (cur : Cursor) (topoflist : Bool) (m : ChmpxMan), I m →
      I (updateRemoveLoop env cfg eqfd selfchmpxid fuel cur topoflist m) := by
  induction fuel with
  | zero => exact fun _ _ _ h => h
  | succ fuel ih =>
    intro cur topoflist m h
    cases cur with
    | none => exact h
    | some p =>
      unfold ChmpxMan.updateRemoveLoop
      split
      · split
        · exact h
        · exact ih _ _ _ h
      · have hr : I (m.retrieve p).2 := by
          obtain ⟨same, map, he⟩ := retrieveChmpxIdMap_eq (m.setLinks (m.links.unlink p)) p
          rw [retrieve, he]
          exact hcongr h rfl rfl
        have hg := giveBack_keeps hcongr hclear eqfd p hr
        dsimp only
        generalize (m.retrieve p).2.giveBack eqfd p = m₁ at hg ⊢
        refine ih _ _ _ ?_
        split
        · exact hcongr hg rfl rfl
        · exact hcongr hg rfl rfl

include hcongr hinit hclear in
/-- What depends on the records and on where the own one is, and holds of records that are set
up or cleared, is kept. -/
theorem reloadConfiguration_keeps (cfg : ChmCfgInfo) (eqfd : Bool) (h : I m) :
    I (reloadConfiguration env cfg eqfd m).2 := by
  unfold ChmpxMan.reloadConfiguration updateChmpxSvrs
  split
  · exact h
  · split
    · exact h
    · have hr : I { m with replicaCount := cfg.replicaCount } := hcongr h rfl rfl
      have hl : I (ChmpxMan.updateChmpxSvrLoop env cfg cfg.servers m.chmpxFrees
          { m with replicaCount := cfg.replicaCount }).2 :=
        updateChmpxSvrLoop_keeps hcongr hinit cfg cfg.servers m.chmpxFrees _ hr
      dsimp only
      exact updateRemoveLoop_keeps hcongr hclear cfg eqfd _ _ _ _ _ hl

end

theorem AllSafe.reloadConfiguration (h : AllSafe m) (cfg : ChmCfgInfo) (eqfd : Bool) :
    AllSafe (reloadConfiguration env cfg eqfd m).2 := by
  refine reloadConfiguration_keeps (fun h he _ => h.congr he) (fun hc h => ?_) (fun h => ?_)
    cfg eqfd h
  · exact h.setChmpx fun _ => initializeChmpx_settled hc
  · exact h.cleared rfl

/-! ## Slaves and sockets -/

theorem AllSafe.setSlaveBase (h : AllSafe m) (type : ChmpxIdSeedType) (chmpxid : ChmpxId)
    (base : SlaveBase) : AllSafe (setSlaveBase env type chmpxid base m).2 := by
  unfold ChmpxMan.setSlaveBase
  split
  · exact h
  · split
    · exact h.initializeAt _ _ _ _ _
    · split
      · exact h
      · have hp : AllSafe ((m.popAny m.chmpxFrees).2.2.setFrees
            ((m.popAny m.chmpxFrees).2.2.chmpxFreeCount - 1)
            ((m.popAny m.chmpxFrees).2.2.getFirstPtr (m.popAny m.chmpxFrees).2.1)) :=
          h.congr (popAny_form m m.chmpxFrees).1
        exact (hp.initializeAt _ _ _ _ _).congr (insertSlave_chmpx _ _ _)

theorem AllSafe.setSock (h : AllSafe m) (sock ctlsock : Int) (b b' : Bool) (p : Ptr) :
    AllSafe (setSock sock ctlsock b b' p m).2 := by
  unfold ChmpxMan.setSock
  dsimp only
  split
  · exact h
  · split
    · exact h
    · have hs : AllSafe (if b && sock ≠ chmInvalidSock then
          (m.setSocks (m.sockFreeCount - 1) (m.sockFrees - 1)).setChmpx p
            { m.chmpx p with socklist := sock :: (m.chmpx p).socklist } else m) := by
        split
        · exact (show AllSafe (m.setSocks _ _) from h.congr rfl).same rfl rfl
        · exact h
      split
      · exact hs.same rfl rfl
      · exact hs

theorem AllSafe.removeSock (h : AllSafe m) (sock : Int) (p : Ptr) :
    AllSafe (removeSock sock p m).2 := by
  unfold ChmpxMan.removeSock
  dsimp only
  split
  · exact h
  · split
    · exact (show AllSafe (m.setSocks _ _) from h.congr rfl).same rfl rfl
    · exact h

theorem AllSafe.setSlaveSock (h : AllSafe m) (chmpxid : ChmpxId) (sock : Int) :
    AllSafe (setSlaveSock chmpxid sock m).2 := by
  unfold ChmpxMan.setSlaveSock
  split
  · exact h
  · split
    · exact h
    · exact h.setSock _ _ _ _ _

/-- The status of a slave is set without the flag. -/
theorem AllSafe.setSlaveStatus (h : AllSafe m) (chmpxid : ChmpxId) (status : ChmpxSts) :
    AllSafe (setSlaveStatus env chmpxid status m).2 := by
  unfold ChmpxMan.setSlaveStatus
  split
  · exact h
  · apply h.setStatus
    intro _ hsafe
    have hflag : ((if status.isSuspend then status.setNosup else status) : ChmpxSts).isSuspend =
        false := by
      split
      · rw [ChmpxSts.isSuspend, ChmpxSts.has, ChmpxSts.setNosup,
          ChmpxSts.put_and_self _ _ _ (by decide)]
        decide
      · rename_i hno
        simpa using hno
    rw [ChmpxSts.isSettled, hsafe, hflag, Bool.and_false]
    rfl

theorem AllSafe.removeSlave (h : AllSafe m) (chmpxid : ChmpxId) (eqfd : Bool) :
    AllSafe (removeSlave chmpxid eqfd m).2 := by
  unfold ChmpxMan.removeSlave
  split
  · exact h
  · rename_i p _
    refine AllSafe.giveBack ?_ eqfd p
    split
    · exact (h.retrieve p).congr rfl
    · exact (h.retrieve p).congr rfl

/-! ## One operation -/

theorem AllSafe.setSelfStatus (h : AllSafe m) (status : ChmpxSts) (isClientJoin : Bool) :
    AllSafe (setSelfStatus env status isClientJoin m).2 := by
  by_cases hmode : m.isServerMode = true
  · apply h.statusWritten
    apply Written.setSelfStatus
    unfold statusOfSelf
    rw [if_pos hmode]
    exact fun hsafe _ _ => ChmpxSts.changeSuspendFlag_isSettled _ _ hsafe
  · unfold ChmpxMan.setSelfStatus
    split
    · exact h
    · rename_i p hself
      have hp : (m.chmpx p).isServerMode ≠ true := by
        unfold ChmpxMan.isServerMode at hmode
        rwa [hself] at hmode
      have hs : AllSafe (m.setStatus env status p).2 :=
        h.setStatus fun hserver => absurd hserver hp
      simp only [hmode, Bool.false_eq_true, if_false, Bool.false_and]
      generalize m.setStatus env status p = r at hs
      obtain ⟨ok, m₁⟩ := r
      cases ok with
      | false => exact hs
      | true =>
        show AllSafe (if m₁.isServerMode then m₁.recount (some p) else m₁)
        split
        · exact (show AllSafe m₁ from hs).congr rfl
        · exact hs

/-- A down status that `SetServerStatus` gives to another server has no SUSPEND flag. -/
def ServerStatusSettled (chmpxid : ChmpxId) (status : ChmpxSts) (m : ChmpxMan) : Prop :=
  (m.isServerMode && m.getSelfChmpxId = chmpxid) = false →
    (status.isDown && status.isSuspend) = false

theorem AllSafe.setServerStatus (h : AllSafe m) {chmpxid : ChmpxId} {status : ChmpxSts}
    (hs : ServerStatusSettled chmpxid status m) (isClientJoin : Bool) :
    AllSafe (setServerStatus env chmpxid status isClientJoin m).2 := by
  apply h.statusWritten
  apply Written.setServerStatus
  intro st hst hsafe mode _
  unfold statusesOfServer at hst
  split at hst
  · cases List.mem_singleton.mp hst
    exact ChmpxSts.changeSuspendFlag_isSettled _ _ hsafe
  · rename_i hself
    have hflag := hs (by simpa using hself)
    rcases List.mem_pair.mp hst with rfl | rfl
    · rw [ChmpxSts.isSettled, hsafe, hflag]
      rfl
    · decide

/-- The condition under which an operation keeps the statuses settled. -/
def OpSettled (env : Env) (op : AreaOp) (m : ChmpxMan) : Prop :=
  match op with
  | .server (.mergeChmpxSvrs args svrs) =>
    RecordsSettled env args m.keptChmpxId svrs ⟨m.chmpxServers, false, m⟩
  | .server (.setServerStatus chmpxid status _) => ServerStatusSettled chmpxid status m
  | _ => True

theorem AllSafe.execArea (h : AllSafe m) {op : AreaOp} (hok : OpSettled env op m) :
    AllSafe (m.execArea env op).2 := by
  cases op with
  | server op =>
    cases op with
    | mergeChmpxSvrs args svrs => exact h.mergeChmpxSvrs args hok
    | updateHash type b b' => exact h.statusWritten (Written.updateHash _ _ _ _ _ _)
    | setServerStatus chmpxid status b => exact h.setServerStatus hok b
    | setSelfStatus status b => exact h.setSelfStatus status b
    | setServerHash chmpxid base pending type =>
      exact h.statusWritten (Written.setServerHash _ _ _ _ _ _ _)
    | setSelfHash base pending type => exact h.statusWritten (Written.setSelfHash _ _ _ _ _ _)
    | updateLastStatusTime chmpxid =>
      exact h.statusWritten (Written.updateLastStatusTime _ _ _ _)
    | setSelfSocks sock ctlsock => exact h.statusWritten (Written.setSelfSocks _ _ _ _)
  | reloadConfiguration cfg eqfd => exact h.reloadConfiguration cfg eqfd
  | setSlaveBase type chmpxid base => exact h.setSlaveBase type chmpxid base
  | setSlaveAll type chmpxid base sock status =>
    show AllSafe (setSlaveAll env type chmpxid base sock status m).2
    have hb : AllSafe (if m.getSlaveBase chmpxid = some base then (true, m)
        else m.setSlaveBase env type chmpxid base).2 := by
      split
      · exact h
      · exact h.setSlaveBase type chmpxid base
    unfold setSlaveAll
    dsimp only
    generalize (if m.getSlaveBase chmpxid = some base then (true, m)
        else m.setSlaveBase env type chmpxid base) = r at hb
    split
    · exact hb
    · have hs := hb.setSlaveSock chmpxid sock
      split
      · exact hs
      · exact hs.setSlaveStatus chmpxid status
  | removeSlave chmpxid eqfd => exact h.removeSlave chmpxid eqfd
  | setSlaveSock chmpxid sock => exact h.setSlaveSock chmpxid sock
  | removeSlaveSock chmpxid sock =>
    show AllSafe (removeSlaveSock chmpxid sock m).2
    unfold removeSlaveSock
    split
    · exact h
    · exact h.removeSock sock _
  | setSlaveStatus chmpxid status => exact h.setSlaveStatus chmpxid status
  | setServerSocks chmpxid sock ctlsock b b' =>
    show AllSafe (setServerSocks chmpxid sock ctlsock b b' m).2
    unfold setServerSocks
    split
    · exact h
    · exact h.setSock _ _ _ _ _
  | removeServerSock chmpxid sock =>
    show AllSafe (removeServerSock chmpxid sock m).2
    unfold removeServerSock
    split
    · exact h
    · exact h.removeSock sock _

/-! ## Runs -/

theorem mergeOp_settled {op : AreaOp} (h : EventSock.MergeOp op) (env : Env) (m : ChmpxMan) :
    OpSettled env op m := by
  cases op with
  | server op =>
    cases op with
    | mergeChmpxSvrs args svrs => exact absurd h id
    | setServerStatus chmpxid status b =>
      intro _
      rcases h with rfl | rfl <;> decide
    | _ => trivial
  | _ => trivial

/-- In a run whose merged records bring settled statuses, and whose `SetServerStatus`
calls give no down server the SUSPEND flag, every server of the list has a safe status and
none is down and suspended. -/
theorem reachable_settled {e : EventSock} (h : EventSock.Reachable OpSettled e) :
    ∀ p ∈ e.man.nodes e.man.chmpxServers, (e.man.chmpx p).isServerMode = true →
      (e.man.chmpx p).status.isSafe = true ∧
        ¬((e.man.chmpx p).status.isDown = true ∧ (e.man.chmpx p).status.isSuspend = true) := by
  have hs : AllSafe e.man := h.invariant initialized_settled
    (fun env op m hok hm => hm.execArea hok)
    (fun env op m hop hm => hm.execArea (mergeOp_settled hop env m))
    (fun chmpxid m hm => hm.congr rfl)
  intro p _ hp
  have hst := hs p hp
  rw [ChmpxSts.isSettled, Bool.and_eq_true] at hst
  refine ⟨hst.1, fun hd => ?_⟩
  rw [hd.1, hd.2] at hst
  exact absurd hst.2 (by decide)

/-- An event socket over the sample manager. -/
def sampleSock (isServerMode : Bool) : EventSock where
  man := sampleMan isServerMode
  eqfd := true
  comprotoVer := .v2
  isServerMode := isServerMode
  isAutoMerge := true
  isDoMerge := true
  isRunMerge := false
  isMergeDoneProcessing := false
  startupServicein := false
  mergeidmap := []
  sent := []
  calls := 0

/-- A record of a server in service whose action is to be added and whose operation is
nothing: a combination that no safe status has. -/
def unsafeSvr : ChmpxSvr :=
  sampleSvr 99 (ChmpxSts.valUp ||| ChmpxSts.valSrvin ||| ChmpxSts.valAdd)

/-- The sample event socket once a record has been merged. -/
def mergedSock (svr : ChmpxSvr) : EventSock :=
  { sampleSock true with
    man := ((sampleSock true).man.execArea sampleEnv
      (.server (.mergeChmpxSvrs (sampleArgs false) [svr]))).2 }

theorem mergedSock_reachable {ok : Env → AreaOp → ChmpxMan → Prop} {svr : ChmpxSvr}
    (h : ok sampleEnv (.server (.mergeChmpxSvrs (sampleArgs false) [svr])) (sampleMan true)) :
    EventSock.Reachable ok (mergedSock svr) :=
  .manager sampleEnv _ (.init (sampleMan_eq true)) h

theorem sampleRecord_settled :
    OpSettled sampleEnv (.server (.mergeChmpxSvrs (sampleArgs false)
      [sampleSvr 99 ChmpxSts.srvinUpNormal])) (sampleMan true) := by
  have hf : (sampleMan true).find (sampleMan true).chmpxServers
      (sampleSvr 99 ChmpxSts.srvinUpNormal).chmpxid = none := by decide +kernel
  refine ⟨?_, trivial⟩
  unfold RecordSettled
  dsimp only
  rw [hf]
  exact fun _ _ _ => by decide

theorem reachable_settled_sample :
    ((mergedSock (sampleSvr 99 ChmpxSts.srvinUpNormal)).man.chmpx 3).status.isSafe = true ∧
      ¬(((mergedSock (sampleSvr 99 ChmpxSts.srvinUpNormal)).man.chmpx 3).status.isDown = true ∧
        ((mergedSock (sampleSvr 99 ChmpxSts.srvinUpNormal)).man.chmpx 3).status.isSuspend = true) :=
  reachable_settled (mergedSock_reachable sampleRecord_settled) 3 (by decide +kernel)
    (by decide +kernel)

/-- The record of a peer brings an unsafe status into the list. -/
theorem reachable_unsafe :
    ¬∀ e : EventSock, EventSock.Reachable (fun _ _ _ => True) e →
      ∀ p ∈ e.man.nodes e.man.chmpxServers, (e.man.chmpx p).isServerMode = true →
        (e.man.chmpx p).status.isSafe = true ∧
          ¬((e.man.chmpx p).status.isDown = true ∧ (e.man.chmpx p).status.isSuspend = true) := by
  intro h
  have hr := h (mergedSock unsafeSvr) (mergedSock_reachable trivial)
  have hp : ∃ p ∈ (mergedSock unsafeSvr).man.nodes (mergedSock unsafeSvr).man.chmpxServers,
      ((mergedSock unsafeSvr).man.chmpx p).isServerMode = true ∧
      ((mergedSock unsafeSvr).man.chmpx p).status.isSafe = false := by
    decide +kernel
  obtain ⟨p, hmem, hmode, hword⟩ := hp
  have hsafe := (hr p hmem hmode).1
  exact absurd (hword.symm.trans hsafe) (by decide)

end ChmpxMan
end Chm
