/-
Writes to the records.

Most operations only write hashes, statuses, times and sockets of some nodes, the hash
arrays and the two counters that follow the statuses.  `Written K` is any number of
such writes whose records are related by `K`, and with `StatusWrite P` the one relation
that fits all of these operations: the parameters and the socket list of a record stay,
and a new status meets `P`.
-/
import Mathlib.Logic.Relation
import Chm.ChmpxMan

namespace Chm

/-- Only hashes, the status, the time and the other sockets of a record differ, and a
new status meets `P`. -/
structure Chmpx.StatusWrite (P : ChmpxMode → ChmpxSts → Prop) (c c' : Chmpx) : Prop where
  attrs : c'.attrs = c.attrs
  socklist : c'.socklist = c.socklist
  status : c'.status = c.status ∨ P c'.mode c'.status

/-- The record of the same chmpx with the same sockets; a new status meets `P`. -/
structure Chmpx.RecordWrite (P : ChmpxMode → ChmpxSts → Prop) (c c' : Chmpx) : Prop where
  name : c'.name = c.name
  mode : c'.mode = c.mode
  chmpxid : c'.chmpxid = c.chmpxid
  socklist : c'.socklist = c.socklist
  status : c'.status = c.status ∨ P c'.mode c'.status

theorem Chmpx.StatusWrite.record {P : ChmpxMode → ChmpxSts → Prop} {c c' : Chmpx}
    (h : c.StatusWrite P c') : c.RecordWrite P c' where
  name := show c'.attrs.name = c.attrs.name by rw [h.attrs]
  mode := show c'.attrs.mode = c.attrs.mode by rw [h.attrs]
  chmpxid := show c'.attrs.chmpxid = c.attrs.chmpxid by rw [h.attrs]
  socklist := h.socklist
  status := h.status

namespace ChmpxMan

variable {env : Env} {K K' : Chmpx → Chmpx → Prop} {P : ChmpxMode → ChmpxSts → Prop}
variable {m m₁ m₂ : ChmpxMan} {p : Ptr} {c : Chmpx}

inductive Write (K : Chmpx → Chmpx → Prop) (m : ChmpxMan) : ChmpxMan → Prop
  | chmpx {p : Ptr} {c : Chmpx} : K (m.chmpx p) c → Write K m (m.setChmpx p c)
  | srvs (base pend : ChmHash → Option Ptr) : Write K m (m.setSrvs base pend)
  | recount (cur : Cursor) : Write K m (m.recount cur)

def Written (K : Chmpx → Chmpx → Prop) : ChmpxMan → ChmpxMan → Prop :=
  Relation.ReflTransGen (Write K)

/-- The statuses that `SetServerStatus` can write: this node's own gets the SUSPEND flag
of its client processes, and a down server can take all servers out. -/
def statusesOfServer (chmpxid : ChmpxId) (status : ChmpxSts) (isClientJoin : Bool)
    (m : ChmpxMan) : List ChmpxSts :=
  if m.isServerMode && m.getSelfChmpxId = chmpxid then [status.changeSuspendFlag !isClientJoin]
  else [status, ChmpxSts.srvoutDownNormal]

/-- The status that `SetSelfStatus` writes. -/
def statusOfSelf (status : ChmpxSts) (isClientJoin : Bool) (m : ChmpxMan) : ChmpxSts :=
  if m.isServerMode then status.changeSuspendFlag !isClientJoin else status

namespace Written

theorem refl (K : Chmpx → Chmpx → Prop) (m : ChmpxMan) : Written K m m :=
  Relation.ReflTransGen.refl

theorem trans (h : Written K m m₁) (h' : Written K m₁ m₂) : Written K m m₂ :=
  Relation.ReflTransGen.trans h h'

theorem single (h : Write K m m₁) : Written K m m₁ := Relation.ReflTransGen.single h

theorem mono (hK : ∀ c c', K c c' → K' c c') (h : Written K m m₁) : Written K' m m₁ := by
  refine Relation.ReflTransGen.mono (fun a b hw => ?_) _ _ h
  cases hw with
  | chmpx hc => exact Write.chmpx (hK _ _ hc)
  | srvs base pend => exact Write.srvs base pend
  | recount cur => exact Write.recount cur

theorem writeBase (K : Chmpx → Chmpx → Prop) (m : ChmpxMan) (p : Ptr) (hash : ChmHash) :
    Written K m (m.writeBase p hash) := by
  rw [ChmpxMan.writeBase]
  split
  · exact refl K m
  · exact single (Write.srvs _ _)

theorem writePend (K : Chmpx → Chmpx → Prop) (m : ChmpxMan) (p : Ptr) (hash : ChmHash) :
    Written K m (m.writePend p hash) := by
  rw [ChmpxMan.writePend]
  split
  · exact refl K m
  · exact single (Write.srvs _ _)

/-! ## The operations -/

theorem set (P : ChmpxMode → ChmpxSts → Prop) (env : Env) (base pending : ChmHash) (type : HashTg)
    (p : Ptr) (m : ChmpxMan) :
    Written (Chmpx.StatusWrite P) m (m.set env base pending type p).2 := by
  simp only [ChmpxMan.set, Chmpx.set]
  split
  · exact refl _ m
  · rename_i c hc
    have hs : Written (Chmpx.StatusWrite P) m (m.setChmpx p c) := by
      split at hc
      · cases hc
      · cases hc
        exact single (Write.chmpx ⟨rfl, rfl, Or.inl rfl⟩)
    cases type
    · exact hs.trans (writeBase _ _ _ _)
    · exact hs.trans (writePend _ _ _ _)
    · exact (hs.trans (writeBase _ _ _ _)).trans (writePend _ _ _ _)

theorem setStatus {status : ChmpxSts} (hP : status.isSafe = true → ∀ mode, P mode status)
    (env : Env) (p : Ptr) (m : ChmpxMan) :
    Written (Chmpx.StatusWrite P) m (m.setStatus env status p).2 := by
  simp only [ChmpxMan.setStatus, Chmpx.setStatus]
  split
  · exact refl _ m
  · rename_i c hc
    split at hc
    · cases hc
    · split at hc
      · cases hc
      · rename_i hsafe
        cases hc
        exact single (Write.chmpx ⟨rfl, rfl, Or.inr (hP (by simpa using hsafe) _)⟩)

theorem updateHashLoop (P : ChmpxMode → ChmpxSts → Prop) (env : Env) (type : HashTg)
    (ps : List Ptr) :
    ∀ (m : ChmpxMan) (newbase newpending : ChmHash),
      Written (Chmpx.StatusWrite P) m (updateHashLoop env type ps newbase newpending m).2 := by
  induction ps with
  | nil => exact fun m _ _ => refl _ m
  | cons p ps ih =>
    intro m newbase newpending
    rw [ChmpxMan.updateHashLoop]
    split
    · exact refl _ m
    · refine trans ?_ (ih _ _ _)
      cases type
      · exact set P env _ _ _ p m
      · exact set P env _ _ _ p m
      · exact (set P env _ _ _ p m).trans (set P env _ _ _ p _)

theorem updateHash (P : ChmpxMode → ChmpxSts → Prop) (env : Env) (type : HashTg) (b b' : Bool)
    (m : ChmpxMan) : Written (Chmpx.StatusWrite P) m (m.updateHash env type b b').2 := by
  rw [ChmpxMan.updateHash]
  split
  · exact refl _ m
  · split
    · exact refl _ m
    · cases m.chmpxServers with
      | none => exact refl _ m
      | some p => exact updateHashLoop P env type _ _ _ _

theorem setSelfHash (P : ChmpxMode → ChmpxSts → Prop) (env : Env) (base pending : ChmHash)
    (type : HashTg) (m : ChmpxMan) :
    Written (Chmpx.StatusWrite P) m (m.setSelfHash env base pending type).2 := by
  rw [ChmpxMan.setSelfHash]
  split
  · exact refl _ m
  · exact set P env _ _ _ _ m

theorem setServerHash (P : ChmpxMode → ChmpxSts → Prop) (env : Env) (chmpxid : ChmpxId)
    (base pending : ChmHash) (type : HashTg) (m : ChmpxMan) :
    Written (Chmpx.StatusWrite P) m (m.setServerHash env chmpxid base pending type).2 := by
  rw [ChmpxMan.setServerHash]
  split
  · exact setSelfHash P env _ _ _ m
  · split
    · exact refl _ m
    · exact set P env _ _ _ _ m

theorem serviceOutLoop (hP : ∀ mode, P mode ChmpxSts.srvoutDownNormal) (env : Env)
    (ps : List Ptr) :
    ∀ (result : Bool) (m : ChmpxMan),
      Written (Chmpx.StatusWrite P) m (serviceOutLoop env ps result m).2 := by
  induction ps with
  | nil => exact fun _ m => refl _ m
  | cons p ps ih =>
    intro result m
    simp only [ChmpxMan.serviceOutLoop]
    have hs := setStatus (fun _ => hP) env p m
    generalize ChmpxMan.setStatus env ChmpxSts.srvoutDownNormal p m = r at hs ⊢
    split
    · exact (hs.trans (set P env _ _ _ p _)).trans (ih _ _)
    · exact hs.trans (ih _ _)

theorem checkAllServiceOutStatus (hP : ∀ mode, P mode ChmpxSts.srvoutDownNormal) (env : Env)
    (cur : Cursor) (m : ChmpxMan) :
    Written (Chmpx.StatusWrite P) m (m.checkAllServiceOutStatus env cur).2 := by
  cases cur with
  | none => exact refl _ m
  | some p =>
    simp only [ChmpxMan.checkAllServiceOutStatus]
    split
    · exact refl _ m
    · split
      · exact refl _ m
      · exact serviceOutLoop hP env _ _ m

theorem mergeChmpxSvr {svr : ChmpxSvr} (hP : ∀ mode, P mode svr.status) (env : Env)
    (type : ChmpxIdSeedType) (p : Ptr) (m : ChmpxMan) :
    Written (Chmpx.RecordWrite P) m (m.mergeChmpxSvr env type svr p) := by
  simp only [ChmpxMan.mergeChmpxSvr, Chmpx.mergeChmpxSvr]
  split
  · exact refl _ m
  · rename_i c hc
    have hs : Written (Chmpx.RecordWrite P) m (m.setChmpx p c) := by
      split at hc
      · cases hc
      · split at hc
        · cases hc
        · cases hc
          refine single (Write.chmpx ⟨rfl, rfl, rfl, rfl, ?_⟩)
          dsimp only
          split
          · exact Or.inr (hP _)
          · exact Or.inl rfl
    have hb : Written (Chmpx.RecordWrite P) m (if (m.chmpx p).baseHash ≠ c.baseHash
        then (m.setChmpx p c).writeBase p c.baseHash else m.setChmpx p c) := by
      split
      · exact hs.trans (writeBase _ _ _ _)
      · exact hs
    split
    · exact hb.trans (writePend _ _ _ _)
    · exact hb

theorem setServerStatus {chmpxid : ChmpxId} {status : ChmpxSts} {isClientJoin : Bool}
    (hP : ∀ st ∈ statusesOfServer chmpxid status isClientJoin m, st.isSafe = true →
      ∀ mode, P mode st) :
    Written (Chmpx.StatusWrite P) m (m.setServerStatus env chmpxid status isClientJoin).2 := by
  rw [statusesOfServer] at hP
  rw [ChmpxMan.setServerStatus]
  split
  · rename_i hself
    rw [if_pos hself] at hP
    split
    · exact refl _ m
    · rename_i p _
      have hs := setStatus (hP _ List.mem_cons_self) env p m
      split
      · exact refl _ m
      · split
        · exact refl _ m
        · split <;> rename_i hst <;> rw [hst] at hs
          · exact hs
          · exact hs.trans (single (Write.recount _))
  · rename_i hself
    rw [if_neg hself] at hP
    split
    · exact refl _ m
    · rename_i p _
      have hs := setStatus (hP _ List.mem_cons_self) env p m
      split <;> rename_i m₁ hst <;> rw [hst] at hs
      · exact hs
      · have hc := checkAllServiceOutStatus (fun mode => hP _ (by simp) (by decide) mode) env
          (some p) m₁
        split
        · split <;> rename_i hco <;> rw [hco] at hc
          · exact hs.trans hc
          · exact (hs.trans hc).trans (single (Write.recount _))
        · exact hs.trans (single (Write.recount _))

theorem setSelfStatus {status : ChmpxSts} {isClientJoin : Bool}
    (hP : (statusOfSelf status isClientJoin m).isSafe = true →
      ∀ mode, P mode (statusOfSelf status isClientJoin m)) :
    Written (Chmpx.StatusWrite P) m (m.setSelfStatus env status isClientJoin).2 := by
  simp only [ChmpxMan.setSelfStatus]
  split
  · exact refl _ m
  · rename_i p _
    split
    · exact refl _ m
    · have hs := setStatus hP env p m
      unfold statusOfSelf at hs
      split <;> rename_i m₁ hst <;> rw [hst] at hs
      · exact hs
      · split
        · exact hs.trans (single (Write.recount _))
        · exact hs

theorem updateLastStatusTime (P : ChmpxMode → ChmpxSts → Prop) (env : Env) (chmpxid : ChmpxId)
    (m : ChmpxMan) : Written (Chmpx.StatusWrite P) m (m.updateLastStatusTime env chmpxid).2 := by
  simp only [ChmpxMan.updateLastStatusTime, Chmpx.updateLastStatusTime]
  split
  · exact refl _ m
  · split
    · exact refl _ m
    · rename_i hc
      split at hc
      · cases hc
      · cases hc
        exact single (Write.chmpx ⟨rfl, rfl, Or.inl rfl⟩)

theorem setSelfSocks (P : ChmpxMode → ChmpxSts → Prop) (sock ctlsock : Int) (m : ChmpxMan) :
    Written (Chmpx.StatusWrite P) m (m.setSelfSocks sock ctlsock).2 := by
  rw [ChmpxMan.setSelfSocks]
  split
  · exact refl _ m
  · split
    · exact refl _ m
    · exact single (Write.chmpx ⟨rfl, rfl, Or.inl rfl⟩)

end Written

end ChmpxMan
end Chm
