/-
The operations on slaves and sockets as moves of nodes.

`SetSlaveBase` writes a slave where it is or moves a free node to the slave list,
`RemoveSlave` moves a slave to the free list.  A socket goes from the free socket list
to a node and back, one at a time.
-/
import Chm.AreaInit

namespace Chm

namespace ChmpxMan

variable {env : Env} {type : ChmpxIdSeedType} {chmpxid : ChmpxId} {base : SlaveBase}
variable {m m' m₁ : ChmpxMan} {a a' : Placement} {p : Ptr} {c : Chmpx}

/-! ## `SetSlaveBase` -/

/-- What `SetSlaveBase` has done. -/
inductive SlaveBaseSet (env : Env) (type : ChmpxIdSeedType) (chmpxid : ChmpxId) (base : SlaveBase)
    (m : ChmpxMan) (a : Placement) : ChmpxMan → Placement → Prop
  | refused : SlaveBaseSet env type chmpxid base m a m a
  | overwritten {p : Ptr} {c : Chmpx} : chmpxid = base.chmpxid env m.group type →
      m.find m.chmpxSlaves chmpxid = some p →
      Chmpx.initializeChmpx env type m.group .slave base.param = some c →
      SlaveBaseSet env type chmpxid base m a (m.setChmpx p c) a
  | added {m' : ChmpxMan} {a' : Placement} {p : Ptr} {c : Chmpx} :
      chmpxid = base.chmpxid env m.group type → m.find m.chmpxSlaves chmpxid = none →
      (Chmpx.initializeChmpx env type m.group .slave base.param = some c ∨
        Chmpx.refuses env m.group base.hostname = true ∧ c = m.chmpx p) →
      AddedSlave m m' a a' p c → base.hostname ≠ [] → SlaveBaseSet env type chmpxid base m a m' a'

/-- A slave is written where it is. -/
theorem Area.overwriteSlave (h : Area m a) (hp : p ∈ a.slaves ∨ p ∈ a.self)
    (hold : (m.chmpx p).isServerMode = false) (hmode : c.isServerMode = false) :
    Area (m.setChmpx p c) a := by
  have hps : p ∉ a.svrs := by
    intro hps
    rw [h.lists.server hps] at hold
    cases hold
  have hchm : ∀ q, (m.setChmpx p c).chmpx q = if q = p then c else m.chmpx q := fun q =>
    chmpx_setChmpx m p c q
  refine ⟨⟨⟨h.lists.1, h.lists.2, h.lists.3, h.lists.4, h.lists.5, fun q hq => ?_,
    fun q hq => ?_⟩, h.cover, h.slaves, h.self, fun q hq => ?_⟩, h.servers, h.limit⟩
  · rw [hchm] at hq
    split at hq
    · rw [hmode] at hq
      cases hq
    · exact h.lists.server_mem q hq
  · rw [hchm, if_neg fun he : q = p => hps (he ▸ hq)]
    exact h.lists.isServer q hq
  · rw [hchm] at hq
    split at hq
    · rename_i hqp
      rw [hqp]
      exact Or.inr hp
    · exact h.live q hq

/-- A slave that is not known gets a free node. -/
theorem setSlaveBase_new (h : Area m a) (hhost : base.hostname ≠ [])
    (hid : chmpxid = base.chmpxid env m.group type)
    (hf : m.find m.chmpxSlaves chmpxid = none) (hfree : m.chmpxFreeCount ≠ 0) :
    (setSlaveBase env type chmpxid base m).1 = true ∧ ∃ a' p c,
      (Chmpx.initializeChmpx env type m.group .slave base.param = some c ∨
        Chmpx.refuses env m.group base.hostname = true ∧ c = m.chmpx p) ∧
      AddedSlave m (setSlaveBase env type chmpxid base m).2 a a' p c ∧
      Area (setSlaveBase env type chmpxid base m).2 a' := by
  obtain ⟨p, frees', cur, k, hpop, hfirst, hlen, hpf, ht⟩ := popAny_taken h.toPlaces hfree
  obtain ⟨c, hc, hmode, hsock, hman⟩ : ∃ c,
      (Chmpx.initializeChmpx env type m.group .slave base.param = some c ∨
        Chmpx.refuses env m.group base.hostname = true ∧ c = m.chmpx p) ∧
      c.isServerMode = false ∧ (c.socklist = [] ∨ c = m.chmpx p) ∧
      ((m.setLinks k).setFrees (m.chmpxFreeCount - 1) frees'.head?).initializeSlave env type
        base (some p) =
        ((m.setLinks k).setFrees (m.chmpxFreeCount - 1) frees'.head?).setChmpx p c := by
    have hgroup : ((m.setLinks k).setFrees (m.chmpxFreeCount - 1) frees'.head?).group =
        m.group := rfl
    cases hinit : Chmpx.initializeChmpx env type m.group .slave base.param with
    | none =>
      refine ⟨m.chmpx p, Or.inr ⟨initializeChmpx_none hinit, rfl⟩, ?_, Or.inr rfl, ?_⟩
      · by_contra hs
        exact (h.toPlaces.notMem_of_free hpf).1
          (h.lists.server_mem p (by simpa using hs))
      · simp only [initializeSlave, initializeAt, hgroup, hinit]
        exact (setChmpx_chmpx
          ((m.setLinks k).setFrees (m.chmpxFreeCount - 1) frees'.head?) p).symm
    | some c =>
      refine ⟨c, Or.inl rfl, (initializeChmpx_mode hinit).trans (by decide),
        Or.inl (initializeChmpx_socklist hinit), ?_⟩
      simp only [initializeSlave, initializeAt, hgroup, hinit]
  obtain ⟨slaves', hadded, hplaces, hservers⟩ := (ht c (m.chmpxFreeCount - 1)
    frees'.head?).insertSlave h.toPlaces hmode hsock type rfl hlen
  have hfc : (m.setLinks k).chmpxFreeCount = m.chmpxFreeCount := rfl
  have hrun : setSlaveBase env type chmpxid base m = (true, insertSlave type (some p)
      (((m.setLinks k).setFrees (m.chmpxFreeCount - 1) frees'.head?).setChmpx p c)) := by
    rw [setSlaveBase_of_notFound hhost hid hf, if_neg hfree, hpop]
    dsimp only
    rw [hfirst, hfc, hman]
  rw [hrun]
  exact ⟨rfl, _, p, c, hc, hadded, hplaces, hservers.trans h.servers,
    hadded.site.chmpxCount ▸ h.limit⟩

theorem setSlaveBase_spec (h : Area m a) :
    ∃ a', SlaveBaseSet env type chmpxid base m a (setSlaveBase env type chmpxid base m).2 a' ∧
      Area (setSlaveBase env type chmpxid base m).2 a' := by
  by_cases hok : base.hostname ≠ [] ∧ chmpxid = base.chmpxid env m.group type
  · obtain ⟨hhost, hid⟩ := hok
    cases hf : m.find m.chmpxSlaves chmpxid with
    | some p =>
      obtain ⟨hp, -, hold⟩ := h.toPlaces.find_slave hf
      rw [setSlaveBase_of_found hhost hid hf]
      unfold initializeSlave initializeAt
      cases hinit : Chmpx.initializeChmpx env type m.group .slave base.param with
      | none => exact ⟨a, .refused, h⟩
      | some c =>
        exact ⟨a, .overwritten hid hf hinit,
          h.overwriteSlave hp hold ((initializeChmpx_mode hinit).trans (by decide))⟩
    | none =>
      by_cases hfree : m.chmpxFreeCount = 0
      · rw [setSlaveBase_of_notFound hhost hid hf, if_pos hfree]
        exact ⟨a, .refused, h⟩
      · obtain ⟨-, a', p, c, hc, hadded, harea⟩ := setSlaveBase_new h hhost hid hf hfree
        exact ⟨a', .added hid hf hc hadded hhost, harea⟩
  · rw [setSlaveBase, if_pos (by simpa [imp_iff_not_or, or_comm] using hok)]
    exact ⟨a, .refused, h⟩

/-! ## `RemoveSlave` -/

/-- `RemoveSlave` of anything but this node itself. -/
theorem removeSlave_spec (h : Area m a) (eqfd : Bool)
    (hself : ∀ p, m.find m.chmpxSlaves chmpxid = some p → m.chmpxSelf ≠ some p) :
    (removeSlave chmpxid eqfd m).2 = m ∨ ∃ p a',
      m.find m.chmpxSlaves chmpxid = some p ∧ p ∈ a.slaves ∧
      DroppedSlave m (removeSlave chmpxid eqfd m).2 a a' p eqfd ∧
      Area (removeSlave chmpxid eqfd m).2 a' := by
  cases hf : m.find m.chmpxSlaves chmpxid with
  | none =>
    left
    rw [removeSlave, hf]
  | some p =>
    have hp : p ∈ a.slaves := by
      refine (h.toPlaces.find_slave hf).1.resolve_right fun he => hself p hf ?_
      rcases h.self with ⟨hnil, -⟩ | ⟨q, hq, hqs⟩
      · rw [hnil] at he
        cases he
      · rw [hqs, List.mem_singleton] at he
        rw [hq, he]
    obtain ⟨slaves', hd, hplaces, hservers⟩ := h.toPlaces.dropSlave hp hf eqfd rfl
    exact Or.inr ⟨p, _, rfl, hp, hd, hplaces, hservers.trans h.servers,
      hd.site.chmpxCount ▸ h.limit⟩

/-! ## Sockets -/

/-- The node `p` has taken sockets from the free socket list or given some back. -/
structure Resocked (m m' : ChmpxMan) (p : Ptr) : Prop where
  shape : SameShape m m'
  slaves : m'.chmpxSlaves = m.chmpxSlaves
  slaveCount : m'.chmpxSlaveCount = m.chmpxSlaveCount
  chmpx : ∀ q, q ≠ p → m'.chmpx q = m.chmpx q
  sockFreeCount : m'.sockFreeCount + (m'.chmpx p).socklist.length =
    m.sockFreeCount + (m.chmpx p).socklist.length
  sockFrees : m'.sockFrees + (m'.chmpx p).socklist.length =
    m.sockFrees + (m.chmpx p).socklist.length

theorem Resocked.refl (m : ChmpxMan) (p : Ptr) : Resocked m m p :=
  ⟨SameShape.refl m, rfl, rfl, fun _ _ => rfl, rfl, rfl⟩

theorem Resocked.area (h : Resocked m m' p) (ha : Area m a) : Area m' a where
  lists := h.shape.lists ha.lists
  cover := h.shape.chmpxCount ▸ ha.cover
  slaves := h.slaves.trans ha.slaves
  self := h.shape.chmpxSelf ▸ ha.self
  live q hq := ha.live q (h.shape.chmpxid q ▸ hq)
  servers := h.shape.chmpxServers.trans ha.servers
  limit := h.shape.chmpxCount ▸ ha.limit

theorem resocked_setChmpx {n k : Nat} (hname : c.name = (m.chmpx p).name)
    (hmode : c.mode = (m.chmpx p).mode) (hid : c.chmpxid = (m.chmpx p).chmpxid)
    (hn : n + c.socklist.length = m.sockFreeCount + (m.chmpx p).socklist.length)
    (hk : k + c.socklist.length = m.sockFrees + (m.chmpx p).socklist.length) :
    Resocked m ((m.setSocks n k).setChmpx p c) p := by
  have hp : ((m.setSocks n k).setChmpx p c).chmpx p = c := by rw [chmpx_setChmpx, if_pos rfl]
  have hsocks : SameShape m (m.setSocks n k) := by constructor <;> intros <;> rfl
  refine ⟨hsocks.trans (SameShape.setChmpx hname hmode hid), rfl, rfl, fun q hq => ?_, ?_, ?_⟩
  · rw [chmpx_setChmpx, if_neg hq]
    rfl
  · rw [hp]
    exact hn
  · rw [hp]
    exact hk

/-- The record that `Set` leaves, with the socket counted out of the free list. -/
theorem setSock_eq (sock ctlsock : Int) (isSock isCtlsock : Bool) (p : Ptr) (m : ChmpxMan) :
    (setSock sock ctlsock isSock isCtlsock p m).2 = m ∨
      ∃ n k c, (setSock sock ctlsock isSock isCtlsock p m).2 = (m.setSocks n k).setChmpx p c ∧
        c.name = (m.chmpx p).name ∧ c.mode = (m.chmpx p).mode ∧
        c.chmpxid = (m.chmpx p).chmpxid ∧
        n + c.socklist.length = m.sockFreeCount + (m.chmpx p).socklist.length ∧
        k + c.socklist.length = m.sockFrees + (m.chmpx p).socklist.length := by
  unfold setSock
  dsimp only
  split
  · exact Or.inl rfl
  · split
    · exact Or.inl rfl
    · rename_i hfree
      have hidem : ∀ (m : ChmpxMan) c c', (m.setChmpx p c).setChmpx p c' = m.setChmpx p c' := by
        intro m c c'
        unfold setChmpx
        rw [Function.update_idem]
      cases ht : isSock && decide (sock ≠ chmInvalidSock) with
      | true =>
        rw [ht, Bool.true_and] at hfree
        simp only [Bool.or_eq_true, decide_eq_true_eq, not_or] at hfree
        obtain ⟨hn, hk⟩ := hfree
        cases isCtlsock with
        | true =>
          refine Or.inr ⟨_, _, _, hidem _ _ _, ?_⟩
          simp only [chmpx_setChmpx, if_pos, List.length_cons, true_and]
          constructor <;> omega
        | false =>
          refine Or.inr ⟨_, _, _, rfl, rfl, rfl, rfl, ?_, ?_⟩ <;>
            simp only [List.length_cons] <;> omega
      | false =>
        cases isCtlsock with
        | true =>
          exact Or.inr ⟨m.sockFreeCount, m.sockFrees, _, rfl, rfl, rfl, rfl, rfl, rfl⟩
        | false => exact Or.inl rfl

theorem setSock_resocked (sock ctlsock : Int) (isSock isCtlsock : Bool) (p : Ptr)
    (m : ChmpxMan) : Resocked m (setSock sock ctlsock isSock isCtlsock p m).2 p := by
  rcases setSock_eq sock ctlsock isSock isCtlsock p m with
    he | ⟨n, k, c, he, hname, hmode, hid, hn, hk⟩
  · rw [he]
    exact Resocked.refl m p
  · rw [he]
    exact resocked_setChmpx hname hmode hid hn hk

theorem removeSock_resocked (sock : Int) (p : Ptr) (m : ChmpxMan) :
    Resocked m (removeSock sock p m).2 p := by
  unfold removeSock
  dsimp only
  split
  · exact Resocked.refl m p
  · split
    · rename_i hmem
      have hlen := List.length_erase_of_mem hmem
      have hpos := List.length_pos_of_mem hmem
      refine resocked_setChmpx rfl rfl rfl ?_ ?_ <;>
        · show _ + ((m.chmpx p).socklist.erase sock).length = _
          rw [hlen]
          omega
    · exact Resocked.refl m p

end ChmpxMan
end Chm
