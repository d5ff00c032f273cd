/-
The loops over the down servers end, or do not.

Four places handle the servers with a down status as long as `GetChmpxIdByStatus` finds one.  Each
pass is to give the server that was found another status.  Two of the loops give up when a call
fails, so each pass leaves fewer servers; the other two only write a message and search again, and
a call that keeps failing keeps them going.
-/
import Chm.MergeRefused
import Chm.Lib.Retry

namespace Chm

namespace EventSock

/-! ## The turns -/

/-- Which calls of a turn may succeed: `SetServerBaseHash`, `SetServerStatus` and `GetChmpxSvr`. -/
structure Pass where
  base : Bool
  status : Bool
  record : Bool

def trySetServerBaseHash (io : Outside) (pass : Pass) (chmpxid : ChmpxId) (hash : ChmHash)
    (s : EventSock) : Bool × EventSock :=
  if pass.base then s.setServerBaseHash io chmpxid hash else (false, s)

def trySetServerStatus (io : Outside) (pass : Pass) (chmpxid : ChmpxId) (status : ChmpxSts)
    (s : EventSock) : Bool × EventSock :=
  if pass.status then s.setServerStatus io chmpxid status else (false, s)

def tryGetChmpxSvr (pass : Pass) (chmpxid : ChmpxId) (s : EventSock) : Option ChmpxSvr :=
  if pass.record then s.man.getChmpxSvr chmpxid else none

/-- A turn of the loop of `Processing` after MERGE_ABORT. -/
def abortTurn (io : Outside) (next : ChmpxId) (pat : Nat → Pass) (n : Nat) (s : EventSock) :
    EventSock ⊕ EventSock :=
  let down := s.man.getChmpxIdByStatus ChmpxSts.srvinDownDeleted
  if down = chmInvalidChmpxId then .inl s
  else
    let (ok, s) := s.trySetServerStatus io (pat n) down ChmpxSts.srvinDownDelpending
    if !ok then .inr s
    else
      match s.tryGetChmpxSvr (pat n) down with
      | none => .inr s
      | some svr => .inr (s.noticeStatus io next svr).2

/-- A turn of the loop of `Processing` after MERGE_COMPLETE. -/
def completeTurn (io : Outside) (next : ChmpxId) (pat : Nat → Pass) (n : Nat) (s : EventSock) :
    EventSock ⊕ EventSock :=
  let down := downToDelete s.man
  if down = chmInvalidChmpxId then .inl s
  else
    let (ok, s) := s.trySetServerBaseHash io (pat n) down chmInvalidHashVal
    if !ok then .inr s
    else
      let (ok, s) := s.trySetServerStatus io (pat n) down ChmpxSts.srvoutDownNormal
      if !ok then .inr s
      else
        match s.tryGetChmpxSvr (pat n) down with
        | none => .inr s
        | some svr => .inr (s.noticeStatus io next svr).2

/-- A turn of the loops of `PxComReceiveMergeStart` and `PxComReceiveMergeComplete`, which return
when a call fails. -/
def receiveTurn (word target : ChmpxSts) (io : Outside) (next : ChmpxId) (pat : Nat → Pass)
    (n : Nat) (s : EventSock) : (Bool × EventSock) ⊕ EventSock :=
  let down := s.man.getChmpxIdByStatus word
  if down = chmInvalidChmpxId then .inl (true, s)
  else
    let (ok, s) := s.trySetServerStatus io (pat n) down target
    if !ok then .inl (false, s)
    else
      match s.tryGetChmpxSvr (pat n) down with
      | none => .inl (false, s)
      | some svr =>
        let (ok, s) := s.noticeStatus io next svr
        if !ok then .inl (false, s) else .inr s

def startTurn : Outside → ChmpxId → (Nat → Pass) → Nat → EventSock →
    (Bool × EventSock) ⊕ EventSock :=
  receiveTurn ChmpxSts.srvinDownDelpending ChmpxSts.srvinDownDeleted

def serviceOutTurn : Outside → ChmpxId → (Nat → Pass) → Nat → EventSock →
    (Bool × EventSock) ⊕ EventSock :=
  receiveTurn ChmpxSts.srvinDownDeleted ChmpxSts.srvoutDownNormal

end EventSock

namespace ChmpxMan

variable {m m₁ : ChmpxMan} {svrs frees : List Ptr} {rest : List (List Ptr)} {p q : Ptr}
variable {words : List ChmpxSts} {st st' : Ptr → ChmpxSts}

/-! ## What is left to do -/

/-- The servers with one of the statuses, in the order in which the loop finds them. -/
def todo (words : List ChmpxSts) (st : Ptr → ChmpxSts) (svrs : List Ptr) : List Ptr :=
  words.flatMap fun word => svrs.filter fun q => st q = word

theorem mem_todo : q ∈ todo words st svrs ↔ q ∈ svrs ∧ st q ∈ words := by
  simp only [todo, List.mem_flatMap, List.mem_filter, decide_eq_true_eq]
  constructor
  · rintro ⟨word, hword, hq, rfl⟩
    exact ⟨hq, hword⟩
  · rintro ⟨hq, hword⟩
    exact ⟨_, hword, hq, rfl⟩

theorem todo_congr (h : ∀ q ∈ svrs, st' q = st q) : todo words st' svrs = todo words st svrs := by
  have hfilter : ∀ word, (svrs.filter fun q => st' q = word) = svrs.filter fun q => st q = word :=
    fun word => List.filter_congr fun q hq => by rw [h q hq]
  simp only [todo, hfilter]

theorem nodup_todo (hwords : words.Nodup) (hsvrs : svrs.Nodup) : (todo words st svrs).Nodup := by
  rw [todo, List.nodup_flatMap]
  refine ⟨fun word _ => hsvrs.filter _, hwords.imp fun {a b} hab => ?_⟩
  intro q ha hb
  have ha := (List.mem_filter.mp ha).2
  have hb := (List.mem_filter.mp hb).2
  rw [decide_eq_true_eq] at ha hb
  exact hab (ha.symm.trans hb)

/-- The first one gets a status that is not looked for. -/
theorem todo_drop {tail : List Ptr} (hwords : words.Nodup) (hsvrs : svrs.Nodup)
    (hfront : todo words st svrs = q :: tail) (hnew : st' q ∉ words)
    (hframe : ∀ r ≠ q, st' r = st r) : todo words st' svrs = tail := by
  have hfilter : todo words st' svrs = (todo words st svrs).filter fun r => r ≠ q := by
    rw [todo, todo, List.filter_flatMap]
    refine List.flatMap_congr fun word hword => ?_
    rw [List.filter_filter]
    refine List.filter_congr fun r _ => ?_
    by_cases hr : r = q
    · subst hr
      have hne : st' r ≠ word := fun h => hnew (h ▸ hword)
      simp [hne]
    · rw [hframe r hr]
      simp [hr]
  have hnodup : (todo words st svrs).Nodup := nodup_todo hwords hsvrs
  rw [hfront, List.nodup_cons] at hnodup
  rw [hfilter, hfront, List.filter_cons_of_neg (by simp), List.filter_eq_self]
  intro r hr
  have hne : r ≠ q := fun h => hnodup.1 (h ▸ hr)
  simpa using hne

/-- The node is the own one of a server. -/
def isOwn (m : ChmpxMan) (q : Ptr) : Bool := m.isServerMode && m.chmpxSelf = some q

/-- The node is the own one and listens, so it refuses to be down. -/
def ownListens (m : ChmpxMan) (q : Ptr) : Bool := m.isOwn q && selfsockOpen (m.chmpx q)

/-- Some server is up. -/
def anyUp (m : ChmpxMan) (svrs : List Ptr) : Bool :=
  svrs.any fun q => !(m.chmpx q).status.isSlave && (m.chmpx q).status.isUp

/-- The number of turns that are to be let through until no server is left, or nothing when no
number is enough.  When no server is up, the first change of another server takes all out. -/
def left (words : List ChmpxSts) (svrs : List Ptr) (m : ChmpxMan) : Option Nat :=
  let servers := todo words (fun q => (m.chmpx q).status) svrs
  if m.anyUp svrs then
    if servers.any m.ownListens then none else some servers.length
  else
    match servers with
    | [] => some 0
    | q :: tail =>
      if m.ownListens q then none
      else if m.isOwn q && !tail.isEmpty then some 2
      else some 1

/-! ## One server gets its status -/

/-- The lists are intact, and every server is found by its chmpxid. -/
structure Table (m : ChmpxMan) (svrs frees : List Ptr) (rest : List (List Ptr)) : Prop where
  formed : Formed m svrs frees rest
  found : ∀ q ∈ svrs, m.find m.chmpxServers (m.chmpx q).chmpxid = some q

/-- The statuses that a loop looks for are down, and the one that it sets is another down one of a
server that `SetServerStatus` takes as it is. -/
structure Lowers (words : List ChmpxSts) (target : ChmpxSts) : Prop where
  nodup : words.Nodup
  wordsDown : ∀ word ∈ words, word.isUp = false ∧ word ≠ ChmpxSts.srvoutDownNormal
  other : target ∉ words
  safe : target.isSafe = true
  server : target.isSlave = false
  down : target.isDown = true
  notUp : target.isUp = false
  nosup : ∀ b, target.changeSuspendFlag b = target

variable {target : ChmpxSts}

theorem isOwn_congr (hshape : SameShape m m₁) (q : Ptr) : m₁.isOwn q = m.isOwn q := by
  rw [isOwn, isOwn, hshape.man_isServerMode, hshape.chmpxSelf]

theorem ownListens_congr (hshape : SameShape m m₁) (hlisten : SameListen m m₁) (q : Ptr) :
    m₁.ownListens q = m.ownListens q := by
  rw [ownListens, ownListens, isOwn_congr hshape, selfsockOpen, selfsockOpen, hshape.name,
    hlisten.selfsock]

/-- Nothing that the loops look at has changed. -/
structure SameTable (m m₁ : ChmpxMan) : Prop where
  shape : SameShape m m₁
  listen : SameListen m m₁
  status : ∀ q, (m₁.chmpx q).status = (m.chmpx q).status

theorem SameTable.refl (m : ChmpxMan) : SameTable m m :=
  ⟨SameShape.refl m, SameListen.refl m, fun _ => rfl⟩

theorem SameTable.todo (h : SameTable m m₁) : todo words (fun q => (m₁.chmpx q).status) svrs =
    todo words (fun q => (m.chmpx q).status) svrs :=
  todo_congr fun q _ => h.status q

theorem SameTable.left (h : SameTable m m₁) : left words svrs m₁ = left words svrs m := by
  have hup : m₁.anyUp svrs = m.anyUp svrs := by simp only [anyUp, h.status]
  have hown : m₁.ownListens = m.ownListens :=
    funext fun q => ownListens_congr h.shape h.listen q
  have hself : m₁.isOwn = m.isOwn := funext fun q => isOwn_congr h.shape q
  rw [ChmpxMan.left, ChmpxMan.left, h.todo, hup, hown, hself]

namespace Table

theorem congr (h : Table m svrs frees rest) (hshape : SameShape m m₁) :
    Table m₁ svrs frees rest where
  formed := hshape.formed h.formed
  found q hq := by
    rw [hshape.find_eq, hshape.chmpxid]
    exact h.found q hq

theorem ids_inj (h : Table m svrs frees rest) (hp : p ∈ svrs) (hq : q ∈ svrs)
    (hid : (m.chmpx p).chmpxid = (m.chmpx q).chmpxid) : p = q := by
  have hfind := h.found p hp
  rw [hid, h.found q hq] at hfind
  exact (Option.some.inj hfind).symm

/-- The own server is the one with the own chmpxid. -/
theorem isOwn_eq (h : Table m svrs frees rest) (hq : q ∈ svrs) :
    (m.isServerMode && decide (m.getSelfChmpxId = (m.chmpx q).chmpxid)) = m.isOwn q := by
  rw [isOwn]
  cases hmode : m.isServerMode with
  | false => rfl
  | true =>
    rw [Bool.true_and, Bool.true_and, decide_eq_decide]
    rw [ChmpxMan.isServerMode] at hmode
    cases hself : m.chmpxSelf with
    | none =>
      rw [hself] at hmode
      cases hmode
    | some p =>
      rw [hself] at hmode
      have hp := h.formed.lists.server_mem p hmode
      rw [getSelfChmpxId, hself, Option.some.injEq]
      exact ⟨fun hid => h.ids_inj hp hq hid, fun heq => by rw [heq]⟩

/-- The head of the servers, as the loops look for it. -/
theorem nodes_eq (h : Table m svrs frees rest) : m.nodes m.chmpxServers = svrs := by
  rw [h.formed.head]
  cases svrs with
  | nil => rfl
  | cons q svrs =>
    rw [List.head?_cons, h.formed.lists.nodes_eq List.mem_cons_self]

theorem getChmpxIdByStatus_eq (h : Table m svrs frees rest) (word : ChmpxSts) :
    m.getChmpxIdByStatus word =
      match svrs.filter fun q => (m.chmpx q).status = word with
      | [] => chmInvalidChmpxId
      | q :: _ => (m.chmpx q).chmpxid := by
  rw [getChmpxIdByStatus, h.nodes_eq, ← List.head?_filter]
  cases svrs.filter fun q => (m.chmpx q).status = word <;> rfl

theorem setServerStatus_found (h : Table m svrs frees rest) (hq : q ∈ svrs)
    (ht : Lowers words target) (hold : (m.chmpx q).status.isUp = false) (env : Env) (b : Bool) :
    m.ownListens q = true ∧
        m.setServerStatus env (m.chmpx q).chmpxid target b = (false, m) ∨
      m.ownListens q = false ∧ ∃ m₁,
        m.setServerStatus env (m.chmpx q).chmpxid target b = (true, m₁) ∧
        (Changed m m₁ q target ∧ (m.isOwn q = true ∨ m.anyUp svrs = true) ∨
          AllOut m₁ svrs ∧ m.isOwn q = false ∧ m.anyUp svrs = false) := by
  have hname := h.formed.lists.named hq
  obtain ⟨m₁, hrun, hc⟩ := setStatus_changed hname ht.safe env
  rw [ChmpxMan.setServerStatus, h.isOwn_eq hq]
  cases hown : m.isOwn q with
  | true =>
    have hself : m.chmpxSelf = some q := by
      rw [isOwn, Bool.and_eq_true, decide_eq_true_eq] at hown
      exact hown.2
    rw [if_pos rfl, hself, ownListens, hown]
    dsimp only
    rw [ht.down, ht.notUp, ht.nosup, hrun]
    cases hopen : selfsockOpen (m.chmpx q) with
    | true => exact Or.inl ⟨rfl, rfl⟩
    | false => exact Or.inr ⟨rfl, _, rfl, Or.inl ⟨hc.recount _, Or.inl rfl⟩⟩
  | false =>
    refine Or.inr ⟨by rw [ownListens, hown]; rfl, ?_⟩
    rw [if_neg Bool.false_ne_true, h.found q hq]
    dsimp only
    rw [hrun]
    dsimp only
    rw [if_pos ht.down]
    have hf₁ := hc.shape.formed h.formed
    have hone : ∀ r, (!(m₁.chmpx r).status.isSlave && (m₁.chmpx r).status.isUp) =
        (!(m.chmpx r).status.isSlave && (m.chmpx r).status.isUp) := by
      intro r
      by_cases hr : r = q
      · rw [hr, hc.own, ht.notUp, hold, Bool.and_false, Bool.and_false]
      · rw [hc.frame r hr]
    have hup : m₁.anyUp svrs = m.anyUp svrs := by simp only [anyUp, hone]
    cases hany : m.anyUp svrs with
    | true =>
      have hall : m₁.checkAllServiceOutStatus env (some q) = (true, m₁) := by
        rw [checkAllServiceOutStatus, hf₁.lists.nodes_eq hq, if_pos]
        rw [hany, anyUp] at hup
        rw [List.any_filter]
        exact hup
      rw [hall]
      exact ⟨_, rfl, Or.inl ⟨hc.recount _, Or.inr rfl⟩⟩
    | false =>
      rcases checkAllServiceOutStatus_spec env hf₁ hq with ⟨-, hsome | hall⟩ | ⟨m₂, hm₂, hout⟩
      · obtain ⟨r, hr, hserver, hrup⟩ := hsome
        rw [hany, anyUp, List.any_eq_false] at hup
        exact absurd (by rw [hserver, hrup]; rfl) (hup r hr)
      · have hslave := hall q hq
        rw [hc.own, ht.server] at hslave
        cases hslave
      · rw [hm₂]
        exact ⟨_, rfl, Or.inr ⟨hout, rfl, rfl⟩⟩

/-- The first server that is left gets its status, unless it is the own one and listens; the
number of the turns to be let through sinks by one. -/
theorem setServerStatus_front (h : Table m svrs frees rest) (ht : Lowers words target)
    {tail : List Ptr} (hfront : todo words (fun q => (m.chmpx q).status) svrs = q :: tail)
    (env : Env) (b : Bool) :
    left words svrs m = none ∧ m.setServerStatus env (m.chmpx q).chmpxid target b = (false, m) ∨
      ∃ m₁, m.setServerStatus env (m.chmpx q).chmpxid target b = (true, m₁) ∧
        SameShape m m₁ ∧ SameListen m m₁ ∧
        left words svrs m₁ = (left words svrs m).map (fun k => k - 1) ∧
        (todo words (fun q => (m₁.chmpx q).status) svrs).length < (q :: tail).length := by
  obtain ⟨hq, hword⟩ := mem_todo.mp (hfront ▸ List.mem_cons_self)
  have hold := (ht.wordsDown _ hword).1
  have hlisten := setServerStatus_sameListen env (m.chmpx q).chmpxid target b m
  have hshape : SameShape m (m.setServerStatus env (m.chmpx q).chmpxid target b).2 :=
    (SameRecords.written (Written.setServerStatus (P := fun _ _ => True)
      (fun _ _ _ _ => trivial))).toSameShape
  rcases h.setServerStatus_found hq ht hold env b with
    ⟨hlistens, hrun⟩ | ⟨hlistens, m₁, hrun, hcases⟩
  · refine Or.inl ⟨?_, hrun⟩
    rw [left, hfront, List.any_cons, hlistens]
    cases m.anyUp svrs with
    | true => rfl
    | false => exact if_pos hlistens
  rw [hrun] at hlisten hshape
  refine Or.inr ⟨m₁, hrun, hshape, hlisten, ?_⟩
  have hown : m₁.ownListens = m.ownListens := funext fun r => ownListens_congr hshape hlisten r
  have hself : m₁.isOwn = m.isOwn := funext fun r => isOwn_congr hshape r
  rcases hcases with ⟨hc, hor⟩ | ⟨hout, hother, hnone⟩
  · have htodo : todo words (fun r => (m₁.chmpx r).status) svrs = tail :=
      todo_drop ht.nodup h.formed.lists.nodup_svrs hfront
        (by rw [hc.own]; exact ht.other) hc.frame
    have hup : m₁.anyUp svrs = m.anyUp svrs := by
      have hone : ∀ r, (!(m₁.chmpx r).status.isSlave && (m₁.chmpx r).status.isUp) =
          (!(m.chmpx r).status.isSlave && (m.chmpx r).status.isUp) := by
        intro r
        by_cases hr : r = q
        · rw [hr, hc.own, ht.notUp, hold, Bool.and_false, Bool.and_false]
        · rw [hc.frame r hr]
      simp only [anyUp, hone]
    rw [htodo]
    refine ⟨?_, Nat.lt_succ_self _⟩
    rw [left, left, htodo, hfront, hup, hown, hself, List.any_cons, hlistens, Bool.false_or]
    cases hany : m.anyUp svrs with
    | true =>
      rw [if_pos rfl, if_pos rfl]
      split <;> rfl
    | false =>
      have hq' : m.isOwn q = true := hor.resolve_right (by rw [hany]; exact Bool.false_ne_true)
      rw [if_neg Bool.false_ne_true, if_neg Bool.false_ne_true]
      dsimp only
      rw [if_neg (by rw [hlistens]; exact Bool.false_ne_true), hq', Bool.true_and]
      cases tail with
      | nil => rfl
      | cons r tail =>
        -- The next one is not the own server.
        have hne : r ≠ q := by
          have hnodup : (todo words (fun r => (m.chmpx r).status) svrs).Nodup :=
            nodup_todo ht.nodup h.formed.lists.nodup_svrs
          rw [hfront, List.nodup_cons] at hnodup
          exact fun heq => hnodup.1 (heq ▸ List.mem_cons_self)
        have hr : m.isOwn r = false := by
          rw [isOwn, Bool.and_eq_true, decide_eq_true_eq] at hq'
          rw [isOwn, hq'.1, hq'.2, Bool.true_and, decide_eq_false_iff_not, Option.some.injEq]
          exact hne.symm
        dsimp only
        rw [ownListens, hr]
        rfl
  · have htodo : todo words (fun r => (m₁.chmpx r).status) svrs = [] := by
      refine List.eq_nil_iff_forall_not_mem.mpr fun r hr => ?_
      obtain ⟨hrs, hrword⟩ := mem_todo.mp hr
      rw [(hout r hrs).1] at hrword
      exact (ht.wordsDown _ hrword).2 rfl
    rw [htodo]
    refine ⟨?_, Nat.succ_pos _⟩
    have hup : m₁.anyUp svrs = false := by
      rw [anyUp, List.any_eq_false]
      intro r hr
      rw [(hout r hr).1]
      decide
    rw [left, left, htodo, hfront, hup, hnone]
    dsimp only
    rw [if_neg Bool.false_ne_true, hlistens, hother]
    rfl

end Table

theorem left_eq_zero_iff :
    left words svrs m = some 0 ↔ todo words (fun q => (m.chmpx q).status) svrs = [] := by
  rw [left]
  cases todo words (fun q => (m.chmpx q).status) svrs with
  | nil => simp
  | cons q tail =>
    have hno : ∀ b : Bool, (if b = true then none else some (q :: tail).length) ≠ some 0 := by
      intro b
      cases b <;> simp
    have hno' : ∀ b b' : Bool,
        (if b = true then none else if b' = true then some 2 else some 1) ≠ some 0 := by
      intro b b'
      cases b <;> cases b' <;> simp
    refine iff_of_false ?_ (List.cons_ne_nil q tail)
    cases m.anyUp svrs with
    | true => exact hno _
    | false => exact hno' _ _

end ChmpxMan

namespace EventSock

open ChmpxMan

variable {io : Outside} {s : EventSock} {svrs frees : List Ptr} {rest : List (List Ptr)} {q : Ptr}
variable {words : List ChmpxSts} {target : ChmpxSts} {tail : List Ptr}

/-! ## The calls of a turn -/

theorem trySetServerBaseHash_found (h : Table s.man svrs frees rest) (hq : q ∈ svrs)
    (io : Outside) (pass : Pass) (hash : ChmHash) :
    ∃ s₁, s.trySetServerBaseHash io pass (s.man.chmpx q).chmpxid hash = (pass.base, s₁) ∧
      SameTable s.man s₁.man := by
  rw [trySetServerBaseHash]
  cases pass.base with
  | false => exact ⟨s, rfl, SameTable.refl s.man⟩
  | true =>
    have hlisten := setServerHash_sameListen (io.env s.calls) (s.man.chmpx q).chmpxid hash 0 .base
      s.man
    have hshape : SameShape s.man
        (s.man.setServerHash (io.env s.calls) (s.man.chmpx q).chmpxid hash 0 .base).2 :=
      (SameRecords.written (Written.setServerHash (fun _ _ => True) ..)).toSameShape
    obtain ⟨m₁, hset, hst, -⟩ := set_spec (io.env s.calls) hash 0 .base (h.formed.lists.named hq)
    have hrun : s.man.setServerHash (io.env s.calls) (s.man.chmpx q).chmpxid hash 0 .base =
        (true, m₁) := by
      rw [ChmpxMan.setServerHash, h.isOwn_eq hq]
      cases hown : s.man.isOwn q with
      | true =>
        rw [isOwn, Bool.and_eq_true, decide_eq_true_eq] at hown
        rw [if_pos rfl, setSelfHash, hown.2]
        exact hset
      | false =>
        rw [if_neg Bool.false_ne_true, h.found q hq]
        exact hset
    rw [hrun] at hlisten hshape
    have hcall : s.setServerBaseHash io (s.man.chmpx q).chmpxid hash =
        (true, { s with man := m₁, calls := s.calls + 1 }) := call_eq hrun
    rw [if_pos rfl, hcall]
    exact ⟨_, rfl, hshape, hlisten, hst.status⟩

theorem trySetServerStatus_front (h : Table s.man svrs frees rest) (ht : Lowers words target)
    (hfront : todo words (fun q => (s.man.chmpx q).status) svrs = q :: tail) (io : Outside)
    (pass : Pass) :
    ∃ ok s₁, s.trySetServerStatus io pass (s.man.chmpx q).chmpxid target = (ok, s₁) ∧
      Table s₁.man svrs frees rest ∧
      left words svrs s₁.man =
        (if pass.status = true then (left words svrs s.man).map (fun k => k - 1)
          else left words svrs s.man) ∧
      (ok = true →
        (todo words (fun q => (s₁.man.chmpx q).status) svrs).length < (q :: tail).length) := by
  rw [trySetServerStatus]
  cases pass.status with
  | false => exact ⟨false, s, rfl, h, rfl, fun hok => absurd hok Bool.false_ne_true⟩
  | true =>
    rcases h.setServerStatus_front ht hfront (io.env s.calls) (io.isClientJoin s.calls) with
      ⟨hnone, hrun⟩ | ⟨m₁, hrun, hshape, hlisten, hleft, hless⟩
    · have hcall : s.setServerStatus io (s.man.chmpx q).chmpxid target =
          (false, { s with calls := s.calls + 1 }) := call_eq hrun
      rw [if_pos rfl, if_pos rfl, hcall, hnone]
      exact ⟨false, _, rfl, h, hnone, fun hok => absurd hok Bool.false_ne_true⟩
    · have hcall : s.setServerStatus io (s.man.chmpx q).chmpxid target =
          (true, { s with man := m₁, calls := s.calls + 1 }) := call_eq hrun
      rw [if_pos rfl, if_pos rfl, hcall]
      exact ⟨true, _, rfl, h.congr hshape, hleft, fun _ => hless⟩

/-! ## The loops that search again -/

/-- A turn that goes on as the servers that are left say. -/
theorem countdown_of_turn {turn : Nat → EventSock → EventSock ⊕ EventSock} {lets : Nat → Bool}
    (hnil : ∀ n s, Table s.man svrs frees rest →
      todo words (fun q => (s.man.chmpx q).status) svrs = [] → turn n s = .inl s)
    (hcons : ∀ n s q tail, Table s.man svrs frees rest →
      todo words (fun q => (s.man.chmpx q).status) svrs = q :: tail →
      ∃ s₁, turn n s = .inr s₁ ∧ Table s₁.man svrs frees rest ∧
        left words svrs s₁.man =
          if lets n = true then (left words svrs s.man).map (fun k => k - 1)
          else left words svrs s.man) :
    Retry.Countdown turn (fun n => lets n = true) (fun s => left words svrs s.man)
      (fun s => Table s.man svrs frees rest) := by
  have hstep : ∀ {n s s'}, Table s.man svrs frees rest → turn n s = .inr s' →
      Table s'.man svrs frees rest ∧ left words svrs s'.man =
        if lets n = true then (left words svrs s.man).map (fun k => k - 1)
        else left words svrs s.man := by
    intro n s s' hs hturn
    cases htodo : todo words (fun q => (s.man.chmpx q).status) svrs with
    | nil =>
      rw [hnil n s hs htodo] at hturn
      cases hturn
    | cons q tail =>
      obtain ⟨s₁, hturn₁, h₁⟩ := hcons n s q tail hs htodo
      rw [hturn₁] at hturn
      cases hturn
      exact h₁
  refine ⟨?_, fun hs hturn => (hstep hs hturn).1, ?_, ?_⟩
  · intro n s hs
    rw [left_eq_zero_iff]
    cases htodo : todo words (fun q => (s.man.chmpx q).status) svrs with
    | nil => exact iff_of_true ⟨s, hnil n s hs htodo⟩ rfl
    | cons q tail =>
      obtain ⟨s₁, hturn, -⟩ := hcons n s q tail hs htodo
      refine iff_of_false ?_ (List.cons_ne_nil q tail)
      rintro ⟨b, hb⟩
      rw [hturn] at hb
      cases hb
  · intro n s s' hs hlets hturn
    rw [(hstep hs hturn).2, if_pos hlets]
  · intro n s s' hs hlets hturn
    rw [(hstep hs hturn).2, if_neg hlets]

theorem lowers_abort :
    Lowers [ChmpxSts.srvinDownDeleted] ChmpxSts.srvinDownDelpending where
  nodup := by decide
  wordsDown word hword := by
    rw [List.mem_singleton.mp hword]
    decide
  other := by decide
  safe := by decide
  server := by decide
  down := by decide
  notUp := by decide
  nosup := by decide

theorem lowers_complete :
    Lowers [ChmpxSts.srvinDownDeleted, ChmpxSts.srvinDownDelpending]
      ChmpxSts.srvoutDownNormal where
  nodup := by decide
  wordsDown word hword := by
    rw [List.mem_cons, List.mem_singleton] at hword
    rcases hword with rfl | rfl <;> decide
  other := by decide
  safe := by decide
  server := by decide
  down := by decide
  notUp := by decide
  nosup := by decide

/-- The server that `GetChmpxIdByStatus` finds. -/
theorem getChmpxIdByStatus_todo (h : Table s.man svrs frees rest) (word : ChmpxSts) :
    s.man.getChmpxIdByStatus word =
      match todo [word] (fun q => (s.man.chmpx q).status) svrs with
      | [] => chmInvalidChmpxId
      | q :: _ => (s.man.chmpx q).chmpxid := by
  rw [h.getChmpxIdByStatus_eq, todo, List.flatMap_singleton]

theorem valid_of_todo (h : Table s.man svrs frees rest)
    (hfront : todo words (fun q => (s.man.chmpx q).status) svrs = q :: tail) :
    (s.man.chmpx q).chmpxid ≠ chmInvalidChmpxId :=
  (h.formed.lists.isServer q (mem_todo.mp (hfront ▸ List.mem_cons_self)).1).valid

theorem downToDelete_todo (h : Table s.man svrs frees rest) :
    downToDelete s.man =
      match todo [ChmpxSts.srvinDownDeleted, ChmpxSts.srvinDownDelpending]
        (fun q => (s.man.chmpx q).status) svrs with
      | [] => chmInvalidChmpxId
      | q :: _ => (s.man.chmpx q).chmpxid := by
  have htodo : todo [ChmpxSts.srvinDownDeleted, ChmpxSts.srvinDownDelpending]
      (fun q => (s.man.chmpx q).status) svrs =
        todo [ChmpxSts.srvinDownDeleted] (fun q => (s.man.chmpx q).status) svrs ++
          todo [ChmpxSts.srvinDownDelpending] (fun q => (s.man.chmpx q).status) svrs := by
    rw [todo, todo, todo, List.flatMap_cons, List.flatMap_singleton, List.flatMap_singleton]
  rw [downToDelete, getChmpxIdByStatus_todo h, getChmpxIdByStatus_todo h, htodo]
  cases hdeleted : todo [ChmpxSts.srvinDownDeleted] (fun q => (s.man.chmpx q).status) svrs with
  | nil => exact if_neg (not_not_intro rfl)
  | cons q tail => exact if_pos (valid_of_todo h hdeleted)

theorem abortTurn_countdown (io : Outside) (next : ChmpxId) (pat : Nat → Pass) :
    Retry.Countdown (abortTurn io next pat) (fun n => (pat n).status = true)
      (fun s => left [ChmpxSts.srvinDownDeleted] svrs s.man)
      (fun s => Table s.man svrs frees rest) := by
  apply countdown_of_turn
  · intro n s h htodo
    rw [abortTurn, getChmpxIdByStatus_todo h, htodo]
    exact if_pos rfl
  · intro n s q tail h htodo
    obtain ⟨ok, s₁, hrun, h₁, hleft, -⟩ := trySetServerStatus_front h lowers_abort htodo io (pat n)
    rw [abortTurn, getChmpxIdByStatus_todo h, htodo]
    dsimp only
    rw [if_neg (valid_of_todo h htodo), hrun]
    cases ok with
    | false => exact ⟨s₁, rfl, h₁, hleft⟩
    | true =>
      dsimp only
      rw [if_neg (by decide)]
      split
      · exact ⟨s₁, rfl, h₁, hleft⟩
      · refine ⟨_, rfl, ?_⟩
        rw [noticeStatus_man]
        exact ⟨h₁, hleft⟩

theorem completeTurn_countdown (io : Outside) (next : ChmpxId) (pat : Nat → Pass) :
    Retry.Countdown (completeTurn io next pat)
      (fun n => ((pat n).base && (pat n).status) = true)
      (fun s => left [ChmpxSts.srvinDownDeleted, ChmpxSts.srvinDownDelpending] svrs s.man)
      (fun s => Table s.man svrs frees rest) := by
  apply countdown_of_turn
  · intro n s h htodo
    rw [completeTurn, downToDelete_todo h, htodo]
    exact if_pos rfl
  · intro n s q tail h htodo
    have hq := (mem_todo.mp (htodo ▸ List.mem_cons_self)).1
    obtain ⟨s₁, hbase, hsame⟩ := trySetServerBaseHash_found h hq io (pat n) chmInvalidHashVal
    have h₁ := h.congr hsame.shape
    rw [completeTurn, downToDelete_todo h, htodo]
    dsimp only
    rw [if_neg (valid_of_todo h htodo), hbase]
    cases hpass : (pat n).base with
    | false => exact ⟨s₁, rfl, h₁, hsame.left⟩
    | true =>
      have htodo₁ := hsame.todo.trans htodo
      obtain ⟨ok, s₂, hrun, h₂, hleft, -⟩ :=
        trySetServerStatus_front h₁ lowers_complete htodo₁ io (pat n)
      rw [hsame.left, hsame.shape.chmpxid] at *
      dsimp only
      rw [if_neg (by decide), hrun, Bool.true_and]
      cases ok with
      | false => exact ⟨s₂, rfl, h₂, hleft⟩
      | true =>
        dsimp only
        rw [if_neg (by decide)]
        split
        · exact ⟨s₂, rfl, h₂, hleft⟩
        · refine ⟨_, rfl, ?_⟩
          rw [noticeStatus_man]
          exact ⟨h₂, hleft⟩

/-! ## The loops that return -/

/-- A loop that returns when a call fails ends. -/
theorem receiveTurn_terminates {word : ChmpxSts} (ht : Lowers [word] target)
    (h : Table s.man svrs frees rest) (io : Outside) (next : ChmpxId) (pat : Nat → Pass) (n : Nat) :
    Retry.Terminates (receiveTurn word target io next pat) n s := by
  refine @Retry.terminates_of_rank _ _ _ n s (fun s => Table s.man svrs frees rest)
    (fun s => (todo [word] (fun q => (s.man.chmpx q).status) svrs).length) ?_ h
  intro n s s' h hturn
  rw [receiveTurn, getChmpxIdByStatus_todo h] at hturn
  cases htodo : todo [word] (fun q => (s.man.chmpx q).status) svrs with
  | nil =>
    rw [htodo] at hturn
    dsimp only at hturn
    rw [if_pos rfl] at hturn
    cases hturn
  | cons q tail =>
    obtain ⟨ok, s₁, hrun, h₁, -, hless⟩ := trySetServerStatus_front h ht htodo io (pat n)
    rw [htodo] at hturn
    dsimp only at hturn
    rw [if_neg (valid_of_todo h htodo), hrun] at hturn
    cases ok with
    | false => cases hturn
    | true =>
      dsimp only at hturn
      rw [if_neg (by decide)] at hturn
      split at hturn
      · cases hturn
      · rename_i svr _
        have hman := noticeStatus_man io next svr s₁
        split at hturn
        · cases hturn
        · obtain rfl := Sum.inr.inj hturn
          rw [hman]
          exact ⟨h₁, hless rfl⟩

theorem lowers_start :
    Lowers [ChmpxSts.srvinDownDelpending] ChmpxSts.srvinDownDeleted where
  nodup := by decide
  wordsDown word hword := by
    rw [List.mem_singleton.mp hword]
    decide
  other := by decide
  safe := by decide
  server := by decide
  down := by decide
  notUp := by decide
  nosup := by decide

theorem lowers_serviceOut :
    Lowers [ChmpxSts.srvinDownDeleted] ChmpxSts.srvoutDownNormal where
  nodup := by decide
  wordsDown word hword := by
    rw [List.mem_singleton.mp hword]
    decide
  other := by decide
  safe := by decide
  server := by decide
  down := by decide
  notUp := by decide
  nosup := by decide

/-! ## All four -/

/-- The two loops that return when a call fails end.  The two that search again end if and only if
`SetServerStatus` (and before it `SetServerBaseHash`) is let through as often as there are servers
left, and none of them is the own one and listens; without a server that is up, one turn, or two,
take all servers out. -/
theorem downLoops_terminate_iff (h : Table s.man svrs frees rest) (io : Outside) (next : ChmpxId)
    (pat : Nat → Pass) :
    (Retry.Terminates (abortTurn io next pat) 0 s ↔
      ∃ k, left [ChmpxSts.srvinDownDeleted] svrs s.man = some k ∧
        ∃ N, k ≤ Nat.count (fun n => (pat n).status = true) N) ∧
    (Retry.Terminates (completeTurn io next pat) 0 s ↔
      ∃ k, left [ChmpxSts.srvinDownDeleted, ChmpxSts.srvinDownDelpending] svrs s.man = some k ∧
        ∃ N, k ≤ Nat.count (fun n => ((pat n).base && (pat n).status) = true) N) ∧
    Retry.Terminates (startTurn io next pat) 0 s ∧
    Retry.Terminates (serviceOutTurn io next pat) 0 s := by
  refine ⟨?_, ?_, receiveTurn_terminates lowers_start h io next pat 0,
    receiveTurn_terminates lowers_serviceOut h io next pat 0⟩
  · have hcountdown : Retry.Countdown (abortTurn io next pat) (fun n => (pat n).status = true)
        (fun s => left [ChmpxSts.srvinDownDeleted] svrs s.man)
        (fun s => Table s.man svrs frees rest) := abortTurn_countdown io next pat
    have hiff := hcountdown.terminates_iff (n := 0) h
    simp only [Nat.zero_add] at hiff
    exact hiff
  · have hcountdown : Retry.Countdown (completeTurn io next pat)
        (fun n => ((pat n).base && (pat n).status) = true)
        (fun s => left [ChmpxSts.srvinDownDeleted, ChmpxSts.srvinDownDelpending] svrs s.man)
        (fun s => Table s.man svrs frees rest) := completeTurn_countdown io next pat
    have hiff := hcountdown.terminates_iff (n := 0) h
    simp only [Nat.zero_add] at hiff
    exact hiff

/-! ### A server that is down and deleted beside one that is up -/

open RingNet

/-- `SetServerStatus` keeps failing, and neither loop that searches again ends. -/
theorem downLoops_go_on :
    ¬Retry.Terminates (abortTurn sampleOutside (sampleId 99) fun _ => ⟨true, false, true⟩) 0
        refusedSock ∧
      ¬Retry.Terminates (completeTurn sampleOutside (sampleId 99) fun _ => ⟨false, true, true⟩) 0
        refusedSock := by
  have hfound : refusedSock.man.getChmpxIdByStatus ChmpxSts.srvinDownDeleted ≠
      chmInvalidChmpxId := by
    decide +kernel
  have hdown : downToDelete refusedSock.man ≠ chmInvalidChmpxId := by
    rw [downToDelete, if_pos hfound]
    exact hfound
  constructor
  · refine Retry.not_terminates_of_stuck fun n => ?_
    rw [abortTurn]
    exact if_neg hfound
  · refine Retry.not_terminates_of_stuck fun n => ?_
    rw [completeTurn]
    exact if_neg hdown

theorem downLoops_terminate_iff_sample :
    Retry.Terminates (abortTurn sampleOutside (sampleId 99) fun _ => ⟨true, true, true⟩) 0
      refusedSock := by
  obtain ⟨svrs, frees, rest, hf⟩ := refusedMan_wellFormed
  have hnodes : refusedMan.nodes refusedMan.chmpxServers = svrs := by
    rw [hf.head]
    cases svrs with
    | nil => rfl
    | cons q svrs => rw [List.head?_cons, hf.lists.nodes_eq List.mem_cons_self]
  have hfound : ∀ q ∈ refusedMan.nodes refusedMan.chmpxServers,
      refusedMan.find refusedMan.chmpxServers (refusedMan.chmpx q).chmpxid = some q := by
    decide +kernel
  have hleft : left [ChmpxSts.srvinDownDeleted] (refusedMan.nodes refusedMan.chmpxServers)
      refusedMan = some 1 := by
    decide +kernel
  rw [hnodes] at hfound hleft
  have hman : refusedSock.man = refusedMan := by rw [refusedSock, sockOf_man]
  have htable : Table refusedSock.man svrs frees rest := by
    rw [hman]
    exact ⟨hf, hfound⟩
  have hone : 1 ≤ Nat.count (fun _ => true = true) 1 := by decide
  rw [← hman] at hleft
  exact (downLoops_terminate_iff htable sampleOutside (sampleId 99)
    fun _ => ⟨true, true, true⟩).1.mpr ⟨1, hleft, 1, hone⟩

end EventSock

end Chm
