/-
Runs of the operations that move nodes and sockets.

A run starts at a manager that `Initialize` has set up.  An invariant of the placed nodes
is a property that each kind of move keeps, and every state of a run has it.
-/
import Chm.AreaReload
import Chm.AreaSlaves
import Chm.Runs

namespace Chm

/-- The operations that move nodes or sockets, and those that write records. -/
inductive AreaOp
  | server (op : Op)
  | reloadConfiguration (cfg : ChmCfgInfo) (eqfd : Bool)
  | setSlaveBase (type : ChmpxIdSeedType) (chmpxid : ChmpxId) (base : SlaveBase)
  | setSlaveAll (type : ChmpxIdSeedType) (chmpxid : ChmpxId) (base : SlaveBase) (sock : Int)
      (status : ChmpxSts)
  | removeSlave (chmpxid : ChmpxId) (eqfd : Bool)
  | setSlaveSock (chmpxid : ChmpxId) (sock : Int)
  | removeSlaveSock (chmpxid : ChmpxId) (sock : Int)
  | setSlaveStatus (chmpxid : ChmpxId) (status : ChmpxSts)
  | setServerSocks (chmpxid : ChmpxId) (sock ctlsock : Int) (isSock isCtlsock : Bool)
  | removeServerSock (chmpxid : ChmpxId) (sock : Int)

namespace ChmpxMan

variable {env : Env} {m m' : ChmpxMan} {a a' : Placement} {p : Ptr} {op : AreaOp}
variable {P : ChmpxMan → Placement → Prop} {ok : Env → AreaOp → ChmpxMan → Prop}

def execArea (env : Env) (m : ChmpxMan) : AreaOp → Bool × ChmpxMan
  | .server op => m.exec env op
  | .reloadConfiguration cfg eqfd => reloadConfiguration env cfg eqfd m
  | .setSlaveBase type chmpxid base => setSlaveBase env type chmpxid base m
  | .setSlaveAll type chmpxid base sock status =>
    setSlaveAll env type chmpxid base sock status m
  | .removeSlave chmpxid eqfd => removeSlave chmpxid eqfd m
  | .setSlaveSock chmpxid sock => setSlaveSock chmpxid sock m
  | .removeSlaveSock chmpxid sock => removeSlaveSock chmpxid sock m
  | .setSlaveStatus chmpxid status => setSlaveStatus env chmpxid status m
  | .setServerSocks chmpxid sock ctlsock isSock isCtlsock =>
    setServerSocks chmpxid sock ctlsock isSock isCtlsock m
  | .removeServerSock chmpxid sock => removeServerSock chmpxid sock m

/-- The managers that a run reaches whose configuration meets `start` and whose
operations all meet `ok` when they start. -/
inductive AreaReachable (start : Env → ChmCfgInfo → Prop) (ok : Env → AreaOp → ChmpxMan → Prop) :
    ChmpxMan → Prop
  | init {env : Env} {cfg : ChmCfgInfo} {m : ChmpxMan} :
      initialized env cfg = some m → start env cfg → AreaReachable start ok m
  | step {m : ChmpxMan} (env : Env) (op : AreaOp) :
      AreaReachable start ok m → ok env op m → AreaReachable start ok (m.execArea env op).2

theorem AreaReachable.imp {start start' : Env → ChmCfgInfo → Prop}
    {ok ok' : Env → AreaOp → ChmpxMan → Prop} (h : AreaReachable start ok m)
    (hstart : ∀ env cfg, start env cfg → start' env cfg)
    (hok : ∀ env op m, ok env op m → ok' env op m) : AreaReachable start' ok' m := by
  induction h with
  | init hrun hs => exact .init hrun (hstart _ _ hs)
  | step env op _ hop ih => exact .step env op ih (hok _ _ _ hop)

/-- The slave that an operation writes the base of. -/
def slaveBaseOf (m : ChmpxMan) : AreaOp → Option (ChmpxIdSeedType × ChmpxId × SlaveBase)
  | .setSlaveBase type chmpxid base => some (type, chmpxid, base)
  | .setSlaveAll type chmpxid base _ _ =>
    if m.getSlaveBase chmpxid = some base then none else some (type, chmpxid, base)
  | _ => none

/-- The condition under which an operation leaves every node in one list: a merge fits the
list, a reload adds accepted host names, and this node itself is not removed as a slave. -/
def Fits (env : Env) (op : AreaOp) (m : ChmpxMan) : Prop :=
  match op with
  | .server (.mergeChmpxSvrs args records) => MergeFits env args records m
  | .reloadConfiguration cfg _ => UpdateNames env cfg m
  | .removeSlave chmpxid _ =>
    ∀ p, m.find m.chmpxSlaves chmpxid = some p → m.chmpxSelf ≠ some p
  | _ => True

/-- What each kind of move must keep. -/
structure AreaInvariant (ok : Env → AreaOp → ChmpxMan → Prop)
    (P : ChmpxMan → Placement → Prop) : Prop where
  fits : ∀ {env op m}, ok env op m → Fits env op m
  stable : Stable P
  resocked : ∀ {m m' a p}, Places m a → p ∈ a.svrs ∨ p ∈ a.slaves ∨ p ∈ a.self →
    Resocked m m' p → P m a → P m' a
  merge : ∀ {env args records m a}, ok env (.server (.mergeChmpxSvrs args records)) m →
    Area m a → P m a → ∃ a', Area (mergeChmpxSvrs env args records m).2.2 a' ∧
      P (mergeChmpxSvrs env args records m).2.2 a'
  reload : ∀ {env cfg eqfd m a}, ok env (.reloadConfiguration cfg eqfd) m → Area m a → P m a →
    ∃ a', Area (reloadConfiguration env cfg eqfd m).2 a' ∧
      P (reloadConfiguration env cfg eqfd m).2 a'
  slaveBase : ∀ {env op type chmpxid base m m' a a'}, ok env op m →
    slaveBaseOf m op = some (type, chmpxid, base) → Area m a → P m a →
    SlaveBaseSet env type chmpxid base m a m' a' → Area m' a' → P m' a'
  removed : ∀ {env chmpxid eqfd m m' a a' p}, ok env (.removeSlave chmpxid eqfd) m → Area m a →
    m.find m.chmpxSlaves chmpxid = some p → p ∈ a.slaves →
    DroppedSlave m m' a a' p eqfd → P m a → P m' a'

/-! ## One operation -/

theorem Area.find_server (h : Area m a) {chmpxid : ChmpxId}
    (hf : m.find m.chmpxServers chmpxid = some p) : p ∈ a.svrs := by
  rw [h.servers] at hf
  cases hs : a.svrs with
  | nil =>
    rw [hs] at hf
    cases hf
  | cons q l =>
    have hq : q ∈ a.svrs := by rw [hs]; exact List.mem_cons_self
    rw [hs] at hf
    rw [← hs]
    exact (h.lists.find_mem hq hf).1

theorem execArea_resocked (h : AreaInvariant ok P) (ha : Area m a) (hp : P m a)
    (hps : p ∈ a.svrs ∨ p ∈ a.slaves ∨ p ∈ a.self) (hr : Resocked m m' p) :
    ∃ a', Area m' a' ∧ P m' a' :=
  ⟨a, hr.area ha, h.resocked ha.toPlaces hps hr hp⟩

theorem setSlaveSock_rule (h : AreaInvariant ok P) (ha : Area m a) (hp : P m a)
    (chmpxid : ChmpxId) (sock : Int) :
    ∃ a', Area (setSlaveSock chmpxid sock m).2 a' ∧ P (setSlaveSock chmpxid sock m).2 a' := by
  rw [setSlaveSock]
  split
  · exact ⟨a, ha, hp⟩
  · cases hf : m.find m.chmpxSlaves chmpxid with
    | none => exact ⟨a, ha, hp⟩
    | some p =>
      exact execArea_resocked h ha hp (Or.inr (ha.toPlaces.find_slave hf).1)
        (setSock_resocked sock chmInvalidSock true false p m)

theorem setSlaveStatus_rule (h : AreaInvariant ok P) (ha : Area m a) (hp : P m a)
    (env : Env) (chmpxid : ChmpxId) (status : ChmpxSts) :
    ∃ a', Area (setSlaveStatus env chmpxid status m).2 a' ∧
      P (setSlaveStatus env chmpxid status m).2 a' := by
  rw [setSlaveStatus]
  cases m.find m.chmpxSlaves chmpxid with
  | none => exact ⟨a, ha, hp⟩
  | some p =>
    have hw : Rewritten m (m.setStatus env
        (if status.isSuspend then status.setNosup else status) p).2 :=
      Rewritten.of_status
        (Written.setStatus (P := fun _ _ => True) (fun _ _ => trivial) env p m)
    exact ⟨a, hw.area ha, h.stable.rewritten hw hp⟩

theorem setSlaveBase_rule (h : AreaInvariant ok P) (ha : Area m a) (hp : P m a)
    (hok : ok env op m) {type : ChmpxIdSeedType} {chmpxid : ChmpxId} {base : SlaveBase}
    (hbase : slaveBaseOf m op = some (type, chmpxid, base)) :
    ∃ a', Area (setSlaveBase env type chmpxid base m).2 a' ∧
      P (setSlaveBase env type chmpxid base m).2 a' := by
  obtain ⟨a', hset, ha'⟩ := @setSlaveBase_spec env type chmpxid base m a ha
  exact ⟨a', ha', h.slaveBase hok hbase ha hp hset ha'⟩

/-- `SetSlaveAll` writes the base, the socket and the status in turn. -/
theorem setSlaveAll_rule (h : AreaInvariant ok P) (ha : Area m a) (hp : P m a)
    {type : ChmpxIdSeedType} {chmpxid : ChmpxId} {base : SlaveBase} {sock : Int}
    {status : ChmpxSts} (hok : ok env (.setSlaveAll type chmpxid base sock status) m) :
    ∃ a', Area (setSlaveAll env type chmpxid base sock status m).2 a' ∧
      P (setSlaveAll env type chmpxid base sock status m).2 a' := by
  have hrest : ∀ {m a}, Area m a → P m a →
      ∃ a', Area (if !(m.setSlaveSock chmpxid sock).1 then
            (false, (m.setSlaveSock chmpxid sock).2)
          else (m.setSlaveSock chmpxid sock).2.setSlaveStatus env chmpxid status).2 a' ∧
        P (if !(m.setSlaveSock chmpxid sock).1 then
            (false, (m.setSlaveSock chmpxid sock).2)
          else (m.setSlaveSock chmpxid sock).2.setSlaveStatus env chmpxid status).2 a' := by
    intro m a ha hp
    obtain ⟨a₁, h₁, hp₁⟩ := setSlaveSock_rule h ha hp chmpxid sock
    split
    · exact ⟨a₁, h₁, hp₁⟩
    · exact setSlaveStatus_rule h h₁ hp₁ env chmpxid status
  by_cases hknown : m.getSlaveBase chmpxid = some base
  · have hrun : setSlaveAll env type chmpxid base sock status m =
        if !(m.setSlaveSock chmpxid sock).1 then (false, (m.setSlaveSock chmpxid sock).2)
        else (m.setSlaveSock chmpxid sock).2.setSlaveStatus env chmpxid status := by
      simp only [setSlaveAll, if_pos hknown, Bool.not_true, Bool.false_eq_true, if_false]
    rw [hrun]
    exact hrest ha hp
  · obtain ⟨a₁, h₁, hp₁⟩ := setSlaveBase_rule h ha hp hok (if_neg hknown)
    have hrun : setSlaveAll env type chmpxid base sock status m =
        if !(m.setSlaveBase env type chmpxid base).1 then
          (false, (m.setSlaveBase env type chmpxid base).2)
        else
          if !((m.setSlaveBase env type chmpxid base).2.setSlaveSock chmpxid sock).1 then
            (false, ((m.setSlaveBase env type chmpxid base).2.setSlaveSock chmpxid sock).2)
          else ((m.setSlaveBase env type chmpxid base).2.setSlaveSock chmpxid
            sock).2.setSlaveStatus env chmpxid status := by
      simp only [setSlaveAll, if_neg hknown]
    rw [hrun]
    split
    · exact ⟨a₁, h₁, hp₁⟩
    · exact hrest h₁ hp₁

theorem execArea_rule (h : AreaInvariant ok P) (ha : Area m a) (hp : P m a)
    (hok : ok env op m) :
    ∃ a', Area (m.execArea env op).2 a' ∧ P (m.execArea env op).2 a' := by
  have hfits := h.fits hok
  cases op with
  | server op =>
    by_cases hop : ∃ args records, op = .mergeChmpxSvrs args records
    · obtain ⟨args, records, rfl⟩ := hop
      exact h.merge hok ha hp
    · have hw : Rewritten m (m.exec env op).2 :=
        Rewritten.of_status (exec_written (P := fun _ _ => True) env m
          (fun args records he => hop ⟨args, records, he⟩) fun _ _ _ _ => trivial)
      exact ⟨a, hw.area ha, h.stable.rewritten hw hp⟩
  | reloadConfiguration cfg eqfd => exact h.reload hok ha hp
  | setSlaveBase type chmpxid base => exact setSlaveBase_rule h ha hp hok rfl
  | setSlaveAll type chmpxid base sock status => exact setSlaveAll_rule h ha hp hok
  | removeSlave chmpxid eqfd =>
    rcases removeSlave_spec ha eqfd hfits with he | ⟨p, a', hf, hps, hd, ha'⟩
    · refine ⟨a, ?_⟩
      show Area (m.removeSlave chmpxid eqfd).2 a ∧ P (m.removeSlave chmpxid eqfd).2 a
      rw [he]
      exact ⟨ha, hp⟩
    · exact ⟨a', ha', h.removed hok ha hf hps hd hp⟩
  | setSlaveSock chmpxid sock => exact setSlaveSock_rule h ha hp chmpxid sock
  | removeSlaveSock chmpxid sock =>
    show ∃ a', Area (m.removeSlaveSock chmpxid sock).2 a' ∧ P (m.removeSlaveSock chmpxid sock).2 a'
    rw [removeSlaveSock]
    cases hf : m.find m.chmpxSlaves chmpxid with
    | none => exact ⟨a, ha, hp⟩
    | some p =>
      exact execArea_resocked h ha hp (Or.inr (ha.toPlaces.find_slave hf).1)
        (removeSock_resocked sock p m)
  | setSlaveStatus chmpxid status => exact setSlaveStatus_rule h ha hp env chmpxid status
  | setServerSocks chmpxid sock ctlsock isSock isCtlsock =>
    show ∃ a', Area (m.setServerSocks chmpxid sock ctlsock isSock isCtlsock).2 a' ∧
      P (m.setServerSocks chmpxid sock ctlsock isSock isCtlsock).2 a'
    rw [setServerSocks]
    cases hf : m.find m.chmpxServers chmpxid with
    | none => exact ⟨a, ha, hp⟩
    | some p =>
      exact execArea_resocked h ha hp (Or.inl (ha.find_server hf))
        (setSock_resocked sock ctlsock isSock isCtlsock p m)
  | removeServerSock chmpxid sock =>
    show ∃ a', Area (m.removeServerSock chmpxid sock).2 a' ∧
      P (m.removeServerSock chmpxid sock).2 a'
    rw [removeServerSock]
    cases hf : m.find m.chmpxServers chmpxid with
    | none => exact ⟨a, ha, hp⟩
    | some p =>
      exact execArea_resocked h ha hp (Or.inl (ha.find_server hf))
        (removeSock_resocked sock p m)

/-- An invariant holds in every state of a run. -/
theorem AreaReachable.invariant {start : Env → ChmCfgInfo → Prop} (hr : AreaReachable start ok m)
    (hinit : ∀ {env cfg m}, initialized env cfg = some m → start env cfg → ∃ a, Area m a ∧ P m a)
    (h : AreaInvariant ok P) : ∃ a, Area m a ∧ P m a := by
  induction hr with
  | init hrun hstart => exact hinit hrun hstart
  | step env op _ hok ih =>
    obtain ⟨a, ha, hp⟩ := ih
    exact execArea_rule h ha hp hok

end ChmpxMan
end Chm
