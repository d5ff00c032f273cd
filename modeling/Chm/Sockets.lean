/-
Socket nodes along a run.

A socket node is in the free socket list or in the socket list of one chmpx.  Which nodes
of the area hold sockets follows from the moves, so the sum goes over the whole area, and
the free nodes hold none.  `SetSlaveBase` writes a known slave anew with an empty socket
list, and a node that is cleared without an event descriptor keeps its sockets from the
free list; a run that does neither with a socket in the node loses none.
-/
import Chm.Placed

namespace Chm

namespace ChmpxMan

variable {env : Env} {cfg : ChmCfgInfo} {m m' : ChmpxMan} {a a' : Placement} {p : Ptr}
variable {c : Chmpx} {n : Nat}

def heldSocks (m : ChmpxMan) : Nat :=
  ((List.range m.chmpxCount).map fun p => (m.chmpx p).socklist.length).sum

theorem sum_map_update {f g : Ptr → Nat} {l : List Ptr} (hnd : l.Nodup) (hp : p ∈ l)
    (hfg : ∀ q, q ≠ p → g q = f q) : (l.map g).sum + f p = (l.map f).sum + g p := by
  obtain ⟨l₁, l₂, rfl⟩ := List.append_of_mem hp
  rw [List.perm_middle.nodup_iff, List.nodup_cons] at hnd
  have hother : ∀ k : List Ptr, k ⊆ l₁ ++ l₂ → k.map g = k.map f := fun k hk =>
    List.map_congr_left fun q hq => hfg q fun he => hnd.1 (he ▸ hk hq)
  have h₁ := hother l₁ (List.subset_append_left l₁ l₂)
  have h₂ := hother l₂ (List.subset_append_right l₁ l₂)
  simp only [List.map_append, List.map_cons, List.sum_append, List.sum_cons, h₁, h₂]
  omega

/-- One node of the area changes its sockets. -/
theorem heldSocks_update (harea : m'.chmpxCount = m.chmpxCount) (hp : p < m.chmpxCount)
    (hchm : ∀ q, q ≠ p → m'.chmpx q = m.chmpx q) :
    m'.heldSocks + (m.chmpx p).socklist.length =
      m.heldSocks + (m'.chmpx p).socklist.length := by
  unfold heldSocks
  rw [harea]
  exact sum_map_update (f := fun p => (m.chmpx p).socklist.length)
    (g := fun p => (m'.chmpx p).socklist.length) List.nodup_range (List.mem_range.mpr hp)
    fun q hq => by rw [hchm q hq]

/-- The socket nodes, seen from the placed nodes. -/
structure SocksPlaced (n : Nat) (m : ChmpxMan) (a : Placement) : Prop where
  count : m.sockFreeCount = m.sockFrees
  total : m.sockFrees + m.heldSocks = n
  free : ∀ p ∈ a.frees, (m.chmpx p).socklist = []

theorem SocksPlaced.rewritten (h : SocksPlaced n m a) (hw : Rewritten m m') :
    SocksPlaced n m' a := by
  have hheld : m'.heldSocks = m.heldSocks := by
    unfold heldSocks
    rw [hw.shape.chmpxCount]
    exact congrArg List.sum (List.map_congr_left fun p _ => by rw [hw.socklist])
  refine ⟨?_, ?_, fun p hp => ?_⟩
  · rw [hw.rest.sockFreeCount, hw.rest.sockFrees, h.count]
  · rw [hw.rest.sockFrees, hheld, h.total]
  · rw [hw.socklist]
    exact h.free p hp

theorem stable_socksPlaced (n : Nat) : Stable (SocksPlaced n) where
  rewritten hw h := h.rewritten hw
  head _ h := ⟨h.count, h.total, h.free⟩
  replica _ h := ⟨h.count, h.total, h.free⟩

theorem Places.lt (h : Places m a) (hp : p ∈ a.all) : p < m.chmpxCount :=
  List.mem_range.mp (h.cover.mem_iff.mp hp)

theorem SocksPlaced.resocked (h : SocksPlaced n m a) (hpl : Places m a)
    (hp : p ∈ a.svrs ∨ p ∈ a.slaves ∨ p ∈ a.self) (hr : Resocked m m' p) :
    SocksPlaced n m' a := by
  have hlt := hpl.lt (p := p) (Placement.mem_all.mpr (by tauto))
  have hheld := heldSocks_update hr.shape.chmpxCount hlt hr.chmpx
  have hcount := hr.sockFreeCount
  have hfrees := hr.sockFrees
  have htotal := h.total
  have hc := h.count
  refine ⟨by omega, by omega, fun q hq => ?_⟩
  have hqp : q ≠ p := by
    rintro rfl
    obtain ⟨hs, hl, he⟩ := hpl.notMem_of_free hq
    rcases hp with hp | hp | hp
    · exact hs hp
    · exact hl hp
    · exact he hp
  rw [hr.chmpx q hqp]
  exact h.free q hq

/-- A free node holds no socket, and neither does the record that is written in it. -/
theorem SocksPlaced.added (h : SocksPlaced n m a) (hpl : Places m a) (ha : Added m m' a a' p c) :
    SocksPlaced n m' a' := by
  have hpf := ha.mem_free
  have hold := h.free p hpf
  have hnew : c.socklist = [] := by
    rcases ha.socklist with he | he
    · exact he
    · rw [he, hold]
  have hp' : (m'.chmpx p).socklist = [] := by rw [ha.chmpx_eq, if_pos rfl, hnew]
  have hlt := hpl.lt (p := p) (Placement.mem_all.mpr (by tauto))
  have hheld := heldSocks_update ha.site.chmpxCount hlt fun q hq => by
    rw [ha.chmpx_eq, if_neg hq]
  rw [hold, hp'] at hheld
  refine ⟨by rw [ha.sockFreeCount, ha.sockFrees, h.count], ?_, fun q hq => ?_⟩
  · have htotal := h.total
    rw [ha.sockFrees]
    omega
  · rw [ha.chmpx_eq]
    split
    · exact hnew
    · exact h.free q (ha.frees.mem_iff.mpr (List.mem_cons_of_mem _ hq))

/-- A node that is cleared gives its sockets back, or has none. -/
theorem SocksPlaced.dropped {eqfd : Bool} (h : SocksPlaced n m a) (hpl : Places m a)
    (hp : p ∈ a.all) (hd : Dropped m m' a a' p eqfd)
    (hclosed : eqfd = true ∨ (m.chmpx p).socklist = []) : SocksPlaced n m' a' := by
  have hclosed' : closedSocks eqfd (m.chmpx p) = (m.chmpx p).socklist.length := by
    unfold closedSocks
    rcases hclosed with rfl | he
    · rfl
    · rw [he]
      split <;> rfl
  have hp' : (m'.chmpx p).socklist = [] := by
    rw [hd.chmpx_eq, if_pos rfl]
    rfl
  have hheld := heldSocks_update hd.site.chmpxCount (hpl.lt hp) fun q hq => by
    rw [hd.chmpx_eq, if_neg hq]
  rw [hp', List.length_nil] at hheld
  have hcount := hd.sockFreeCount
  have hfrees := hd.sockFrees
  have htotal := h.total
  have hc := h.count
  rw [hclosed'] at hcount hfrees
  refine ⟨by omega, by omega, fun q hq => ?_⟩
  rw [hd.chmpx_eq]
  split
  · rfl
  · rename_i hqp
    rw [hd.frees] at hq
    exact h.free q ((List.mem_cons.mp hq).resolve_left hqp)

/-- An operation fits, and writes or clears no node that would lose its sockets: the slave
that is overwritten has none, and a node that leaves its list has none or is closed. -/
def FitsSocks (env : Env) (op : AreaOp) (m : ChmpxMan) : Prop :=
  Fits env op m ∧
    (∀ type chmpxid base, slaveBaseOf m op = some (type, chmpxid, base) →
      chmpxid = base.chmpxid env m.group type → Chmpx.refuses env m.group base.hostname = false →
      ∀ p, m.find m.chmpxSlaves chmpxid = some p → (m.chmpx p).socklist = []) ∧
    match op with
    | .server (.mergeChmpxSvrs args records) => args.isRemove = true → args.eqfd = true ∨
      ∀ p ∈ m.serverNodes, kept m.keptChmpxId (records.map (·.chmpxid)) (m.chmpx p) = false →
        (m.chmpx p).socklist = []
    | .reloadConfiguration cfg eqfd => eqfd = true ∨
      ∀ p ∈ m.serverNodes, staysListed env cfg m.keptChmpxId (m.chmpx p) = false →
        (m.chmpx p).socklist = []
    | .removeSlave chmpxid eqfd => eqfd = true ∨
      ∀ p, m.find m.chmpxSlaves chmpxid = some p → (m.chmpx p).socklist = []
    | _ => True

/-- The servers that may leave their list lose no socket by it. -/
def Closes (eqfd : Bool) (stays : Chmpx → Bool) (m : ChmpxMan) (a : Placement) : Prop :=
  eqfd = true ∨ ∀ p ∈ a.svrs, stays (m.chmpx p) = false → (m.chmpx p).socklist = []

theorem Closes.added {eqfd : Bool} {stays : Chmpx → Bool} (h : Closes eqfd stays m a)
    (hs : SocksPlaced n m a) (ha : AddedServer m m' a a' p c) :
    Closes eqfd stays m' a' := by
  refine h.imp_right fun hall q hq hst => ?_
  have hnew : c.socklist = [] := by
    rcases ha.socklist with he | he
    · exact he
    · rw [he, hs.free p ha.mem_free]
  rw [ha.chmpx_eq] at hst ⊢
  split
  · exact hnew
  · rename_i hqp
    rw [if_neg hqp] at hst
    exact hall q ((List.mem_cons.mp (ha.svrs.mem_iff.mp hq)).resolve_left hqp) hst

theorem Closes.dropped {eqfd eqfd' : Bool} {stays : Chmpx → Bool} (h : Closes eqfd stays m a)
    (hd : DroppedServer m m' a a' p eqfd') : Closes eqfd stays m' a' := by
  refine h.imp_right fun hall q hq hst => ?_
  rw [hd.chmpx_eq] at hst ⊢
  split
  · rfl
  · rename_i hqp
    rw [if_neg hqp] at hst
    exact hall q (hd.svrs.mem_iff.mpr (List.mem_cons_of_mem _ hq)) hst

theorem mergeChmpxSvrs_socks {args : MergeArgs} {records : List ChmpxSvr}
    (hok : FitsSocks env (.server (.mergeChmpxSvrs args records)) m) (ha : Area m a)
    (hp : SocksPlaced n m a) :
    ∃ a', Area (mergeChmpxSvrs env args records m).2.2 a' ∧
      SocksPlaced n (mergeChmpxSvrs env args records m).2.2 a' := by
  obtain ⟨hfits, -, hcloses⟩ := hok
  generalize hstays : kept m.keptChmpxId (records.map (·.chmpxid)) = stays
  have hid : ∀ c c' : Chmpx, c'.chmpxid = c.chmpxid → stays c' = stays c := by
    intro c c' he
    simp only [← hstays, kept, he]
  have hrule := mergeChmpxSvrs_rule (P := fun m a => SocksPlaced n m a ∧
    (args.isRemove = true → Closes args.eqfd stays m a)) ha hfits ⟨⟨?_, ?_, ?_⟩, ?_, ?_⟩ ⟨hp, ?_⟩
  · obtain ⟨a', ha', hs, -⟩ := hrule
    exact ⟨a', ha', hs⟩
  · intro m m' a hw h
    refine ⟨h.1.rewritten hw, fun hr => (h.2 hr).imp_right fun hall q hq hs => ?_⟩
    rw [hid _ _ (hw.shape.chmpxid q)] at hs
    rw [hw.socklist]
    exact hall q hq hs
  · exact fun head h => ⟨(stable_socksPlaced n).head head h.1, h.2⟩
  · exact fun k h => ⟨(stable_socksPlaced n).replica k h.1, h.2⟩
  · intro svr _ _ m m' a a' p hpl _ hadd h
    exact ⟨h.1.added hpl hadd.toAdded, fun hr => (h.2 hr).added h.1 hadd⟩
  · intro hr m m' a a' p hpl hps hk hd h
    refine ⟨h.1.dropped hpl (Placement.mem_all.mpr (Or.inl hps)) hd.toDropped ?_,
      fun _ => (h.2 hr).dropped hd⟩
    rw [hstays] at hk
    exact (h.2 hr).imp_right fun hall => hall p hps hk
  · intro hr
    rw [← hstays, Closes, ← ha.serverNodes_eq]
    exact hcloses hr

theorem reloadConfiguration_socks {eqfd : Bool}
    (hok : FitsSocks env (.reloadConfiguration cfg eqfd) m) (ha : Area m a)
    (hp : SocksPlaced n m a) :
    ∃ a', Area (reloadConfiguration env cfg eqfd m).2 a' ∧
      SocksPlaced n (reloadConfiguration env cfg eqfd m).2 a' := by
  obtain ⟨hfits, -, hcloses⟩ := hok
  have hrule : (reloadConfiguration env cfg eqfd m).2 = m ∨ ∃ a', Removing (fun m' a =>
      SocksPlaced n m' a ∧ Closes eqfd (staysListed env cfg m.keptChmpxId) m' a) env cfg
      m.keptChmpxId (reloadConfiguration env cfg eqfd m).2 a' a'.svrs [] := by
    refine reloadConfiguration_rule (P := fun _ m' a => SocksPlaced n m' a ∧
      Closes eqfd (staysListed env cfg m.keptChmpxId) m' a) ha hfits ⟨?_, Or.inr ?_, ?_⟩ id ?_ ?_
    · exact fun _ _ h => h
    · exact fun k _ h => ⟨⟨h.1.count, h.1.total, h.1.free⟩, h.2⟩
    · intro done par rest m m' a a' p c _ h _ _ hadd hs
      exact ⟨hs.1.added h.toPlaces hadd.toAdded, hs.2.added hs.1 hadd⟩
    · intro m m' a a' p h hps hst hd hs
      exact ⟨hs.1.dropped h.toPlaces (Placement.mem_all.mpr (Or.inl hps)) hd.toDropped
        (hs.2.imp_right fun hall => hall p hps hst), hs.2.dropped hd⟩
    · refine ⟨(stable_socksPlaced n).replica _ hp, ?_⟩
      rw [Closes, ← ha.serverNodes_eq]
      exact hcloses
  rcases hrule with he | ⟨a', hr⟩
  · rw [he]
    exact ⟨a, ha, hp⟩
  · exact ⟨a', hr.area, hr.holds.1⟩

theorem setSlaveBase_socks {op : AreaOp} {type : ChmpxIdSeedType} {chmpxid : ChmpxId}
    {base : SlaveBase} (hok : FitsSocks env op m)
    (hbase : slaveBaseOf m op = some (type, chmpxid, base)) (ha : Area m a)
    (hp : SocksPlaced n m a) (hset : SlaveBaseSet env type chmpxid base m a m' a') :
    SocksPlaced n m' a' := by
  cases hset with
  | refused => exact hp
  | added _ _ _ hadd => exact hp.added ha.toPlaces hadd.toAdded
  | @overwritten p c hid hf hinit =>
    have hps := (ha.toPlaces.find_slave hf).1
    have hold := hok.2.1 type chmpxid base hbase hid
      (Chmpx.accepted_of_initializeChmpx hinit) p hf
    have hc : (((m.setChmpx p c).chmpx p).socklist) = (m.chmpx p).socklist := by
      rw [chmpx_setChmpx, if_pos rfl, hold, initializeChmpx_socklist hinit]
    have hheld : (m.setChmpx p c).heldSocks + (m.chmpx p).socklist.length =
        m.heldSocks + ((m.setChmpx p c).chmpx p).socklist.length :=
      heldSocks_update rfl (ha.toPlaces.lt (Placement.mem_all.mpr (by tauto))) fun q hq => by
        rw [chmpx_setChmpx, if_neg hq]
    rw [hc] at hheld
    refine ⟨hp.count, ?_, fun q hq => ?_⟩
    · have htotal := hp.total
      show m.sockFrees + (m.setChmpx p c).heldSocks = n
      omega
    · rw [chmpx_setChmpx]
      split
      · exact initializeChmpx_socklist hinit
      · exact hp.free q hq

theorem AreaInvariant.socks (n : Nat) : AreaInvariant FitsSocks (SocksPlaced n) where
  fits hok := hok.1
  stable := stable_socksPlaced n
  resocked hpl hps hr hp := hp.resocked hpl hps hr
  merge hok ha hp := mergeChmpxSvrs_socks hok ha hp
  reload hok ha hp := reloadConfiguration_socks hok ha hp
  slaveBase hok hbase ha hp hset _ := setSlaveBase_socks hok hbase ha hp hset
  removed hok ha hf hps hd hp := hp.dropped ha.toPlaces
    (Placement.mem_all.mpr (Or.inr (Or.inr (Or.inl hps)))) hd.toDropped
    (hok.2.2.imp_right fun hall => hall _ hf)

/-- A slave that connects with the endpoints it has. -/
def sampleSlave (endpoints : List HostPort) : SlaveBase where
  hostname := [115]
  ctlport := 8022
  cuk := []
  customSeed := []
  endpoints := endpoints
  ctlendpoints := []
  forwardPeers := []
  reversePeers := []

def sampleConnect (endpoints : List HostPort) (sock : Int) : AreaOp :=
  .setSlaveAll .name ((sampleSlave endpoints).chmpxid sampleEnv sampleGroup .name)
    (sampleSlave endpoints) sock ChmpxSts.slaveUpNormal

end ChmpxMan
end Chm
