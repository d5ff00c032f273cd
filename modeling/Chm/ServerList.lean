/-
The lists of the area.

`Lists m svrs frees rest` says that the area's links form disjoint chains: the
server list, the free list and whatever else there is (slaves, the node of a
slave itself).  It is the invariant that the operations on the lists keep, and
with it a loop over the area is a loop over a list: `nodes_eq`.
-/
import Chm.Written

namespace Chm

namespace ChmpxMan

variable {m m' : ChmpxMan} {svrs frees : List Ptr} {rest : List (List Ptr)} {p : Ptr}

theorem chmpx_setChmpx (m : ChmpxMan) (p : Ptr) (c : Chmpx) (q : Ptr) :
    (m.setChmpx p c).chmpx q = if q = p then c else m.chmpx q := Function.update_apply ..

theorem setChmpx_chmpx (m : ChmpxMan) (p : Ptr) : m.setChmpx p (m.chmpx p) = m := by
  rw [setChmpx, Function.update_eq_self]

/-- The record of a server: in server mode, with a name and a chmpxid. -/
structure IsServer (c : Chmpx) : Prop where
  mode : c.isServerMode = true
  named : c.name.isEmpty = false
  valid : c.chmpxid ≠ chmInvalidChmpxId

/-- The server chain is `svrs`, the free chain `frees`.  A node is in server mode
exactly when it is in the server chain, and then it is a server's.  The counter of
the servers is not below their number. -/
structure Lists (m : ChmpxMan) (svrs frees : List Ptr) (rest : List (List Ptr)) : Prop where
  chains : m.links.Chains (svrs :: frees :: rest)
  bound : ∀ p ∈ (svrs :: frees :: rest).flatten, p < m.chmpxCount
  frees_head : m.chmpxFrees = frees.head?
  freeCount : m.chmpxFreeCount = frees.length
  serverCount : svrs.length ≤ m.chmpxServerCount
  server_mem : ∀ p, (m.chmpx p).isServerMode = true → p ∈ svrs
  isServer : ∀ p ∈ svrs, IsServer (m.chmpx p)

theorem Lists.server (h : Lists m svrs frees rest) (hp : p ∈ svrs) :
    (m.chmpx p).isServerMode = true := (h.isServer p hp).mode

theorem Lists.named (h : Lists m svrs frees rest) (hp : p ∈ svrs) :
    (m.chmpx p).name.isEmpty = false := (h.isServer p hp).named

/-- `m'` differs from `m` in members that no list depends on: hashes, statuses,
times, ports and seeds of the nodes, the hash arrays and the two counters that
follow the statuses. -/
structure SameShape (m m' : ChmpxMan) : Prop where
  group : m'.group = m.group
  replicaCount : m'.replicaCount = m.replicaCount
  chmpxCount : m'.chmpxCount = m.chmpxCount
  links : m'.links = m.links
  same : m'.same = m.same
  chmpxidMap : m'.chmpxidMap = m.chmpxidMap
  chmpxSelf : m'.chmpxSelf = m.chmpxSelf
  chmpxServerCount : m'.chmpxServerCount = m.chmpxServerCount
  chmpxServers : m'.chmpxServers = m.chmpxServers
  chmpxFreeCount : m'.chmpxFreeCount = m.chmpxFreeCount
  chmpxFrees : m'.chmpxFrees = m.chmpxFrees
  name : ∀ p, (m'.chmpx p).name = (m.chmpx p).name
  mode : ∀ p, (m'.chmpx p).mode = (m.chmpx p).mode
  chmpxid : ∀ p, (m'.chmpx p).chmpxid = (m.chmpx p).chmpxid

namespace SameShape

theorem refl (m : ChmpxMan) : SameShape m m := by
  constructor <;> intros <;> rfl

theorem trans {m₁ m₂ m₃ : ChmpxMan} (h : SameShape m₁ m₂) (h' : SameShape m₂ m₃) :
    SameShape m₁ m₃ where
  group := h'.group.trans h.group
  replicaCount := h'.replicaCount.trans h.replicaCount
  chmpxCount := h'.chmpxCount.trans h.chmpxCount
  links := h'.links.trans h.links
  same := h'.same.trans h.same
  chmpxidMap := h'.chmpxidMap.trans h.chmpxidMap
  chmpxSelf := h'.chmpxSelf.trans h.chmpxSelf
  chmpxServerCount := h'.chmpxServerCount.trans h.chmpxServerCount
  chmpxServers := h'.chmpxServers.trans h.chmpxServers
  chmpxFreeCount := h'.chmpxFreeCount.trans h.chmpxFreeCount
  chmpxFrees := h'.chmpxFrees.trans h.chmpxFrees
  name p := (h'.name p).trans (h.name p)
  mode p := (h'.mode p).trans (h.mode p)
  chmpxid p := (h'.chmpxid p).trans (h.chmpxid p)

theorem isServerMode (h : SameShape m m') (p : Ptr) :
    (m'.chmpx p).isServerMode = (m.chmpx p).isServerMode := by
  rw [Chmpx.isServerMode, Chmpx.isServerMode, h.mode]

theorem selfChmpxId (h : SameShape m m') : m'.getSelfChmpxId = m.getSelfChmpxId := by
  unfold getSelfChmpxId
  rw [h.chmpxSelf]
  cases m.chmpxSelf with
  | none => rfl
  | some p => exact h.chmpxid p

theorem lists (h : SameShape m m') (hl : Lists m svrs frees rest) : Lists m' svrs frees rest where
  chains := h.links ▸ hl.chains
  bound := h.chmpxCount ▸ hl.bound
  frees_head := h.chmpxFrees.trans hl.frees_head
  freeCount := h.chmpxFreeCount.trans hl.freeCount
  serverCount := h.chmpxServerCount ▸ hl.serverCount
  server_mem p hp := hl.server_mem p (h.isServerMode p ▸ hp)
  isServer p hp := ⟨(h.isServerMode p).trans (hl.server hp), h.name p ▸ hl.named hp,
    h.chmpxid p ▸ (hl.isServer p hp).valid⟩

theorem setChmpx {c : Chmpx} (hn : c.name = (m.chmpx p).name) (hm : c.mode = (m.chmpx p).mode)
    (hi : c.chmpxid = (m.chmpx p).chmpxid) : SameShape m (m.setChmpx p c) := by
  refine ⟨rfl, rfl, rfl, rfl, rfl, rfl, rfl, rfl, rfl, rfl, rfl, fun q => ?_, fun q => ?_,
    fun q => ?_⟩ <;> rw [chmpx_setChmpx] <;> split <;> simp_all

theorem written {P : ChmpxMode → ChmpxSts → Prop} (h : Written (Chmpx.RecordWrite P) m m') :
    SameShape m m' := by
  induction h with
  | refl => exact refl m
  | tail _ hw ih =>
    refine ih.trans ?_
    cases hw with
    | chmpx hc => exact setChmpx hc.name hc.mode hc.chmpxid
    | srvs base pend => constructor <;> intros <;> rfl
    | recount cur => constructor <;> intros <;> rfl

theorem mergeChmpxSvr (m : ChmpxMan) (env : Env) (type : ChmpxIdSeedType) (svr : ChmpxSvr)
    (p : Ptr) : SameShape m (m.mergeChmpxSvr env type svr p) :=
  written (Written.mergeChmpxSvr (P := fun _ _ => True) (fun _ => trivial) env type p m)

end SameShape

/-- `m'` differs from `m` in what a merge is not needed for: hashes, statuses,
times and sockets of the nodes, the hash arrays and the two counters that follow
the statuses. -/
structure SameRecords (m m' : ChmpxMan) : Prop extends SameShape m m' where
  attrs : ∀ p, (m'.chmpx p).attrs = (m.chmpx p).attrs

namespace SameRecords

theorem refl (m : ChmpxMan) : SameRecords m m :=
  ⟨SameShape.refl m, fun _ => rfl⟩

theorem trans {m₁ m₂ m₃ : ChmpxMan} (h : SameRecords m₁ m₂) (h' : SameRecords m₂ m₃) :
    SameRecords m₁ m₃ :=
  ⟨h.toSameShape.trans h'.toSameShape, fun p => (h'.attrs p).trans (h.attrs p)⟩

theorem setChmpx {c : Chmpx} (h : c.attrs = (m.chmpx p).attrs) :
    SameRecords m (m.setChmpx p c) := by
  refine ⟨SameShape.setChmpx ?_ ?_ ?_, fun q => ?_⟩
  · show c.attrs.name = (m.chmpx p).attrs.name
    rw [h]
  · show c.attrs.mode = (m.chmpx p).attrs.mode
    rw [h]
  · show c.attrs.chmpxid = (m.chmpx p).attrs.chmpxid
    rw [h]
  · rw [chmpx_setChmpx]
    split
    · rename_i hq
      rw [hq]
      exact h
    · rfl

theorem written {P : ChmpxMode → ChmpxSts → Prop} (h : Written (Chmpx.StatusWrite P) m m') :
    SameRecords m m' := by
  induction h with
  | refl => exact refl m
  | tail _ hw ih =>
    refine ih.trans ?_
    cases hw with
    | chmpx hc => exact setChmpx hc.attrs
    | srvs base pend =>
      refine ⟨?_, fun _ => rfl⟩
      constructor <;> intros <;> rfl
    | recount cur =>
      refine ⟨?_, fun _ => rfl⟩
      constructor <;> intros <;> rfl

theorem recount (m : ChmpxMan) (cur : Cursor) : SameRecords m (m.recount cur) :=
  written (P := fun _ _ => True) (Written.single (Write.recount cur))

theorem setStatus (m : ChmpxMan) (env : Env) (status : ChmpxSts) (p : Ptr) :
    SameRecords m (m.setStatus env status p).2 :=
  written (P := fun _ _ => True) (Written.setStatus (fun _ _ => trivial) env p m)

theorem updateHash (m : ChmpxMan) (env : Env) (type : HashTg) (b b' : Bool) :
    SameRecords m (m.updateHash env type b b').2 :=
  written (Written.updateHash (fun _ _ => True) env type b b' m)

end SameRecords

/-! ## Reading a list -/

namespace Lists

variable (h : Lists m svrs frees rest)

include h

/-- A chain of the area is no longer than the area. -/
theorem length_le {c : List Ptr} (hc : c ∈ svrs :: frees :: rest) : c.length ≤ m.chmpxCount := by
  have hnd : c.Nodup := (List.nodup_flatten.mp h.chains.nodup).1 c hc
  have hsub : c ⊆ List.range m.chmpxCount := fun q hq =>
    List.mem_range.mpr (h.bound q (List.mem_flatten.mpr ⟨c, hc, hq⟩))
  simpa using (List.subperm_of_subset hnd hsub).length_le

theorem nodup_svrs : svrs.Nodup := h.chains.nodup_head

theorem first_eq (hp : p ∈ svrs) : some (m.first p) = svrs.head? :=
  h.chains.first hp (h.length_le List.mem_cons_self)

/-- The loop over a list that starts at one of its servers visits the servers. -/
theorem nodes_eq (hp : p ∈ svrs) : m.nodes (some p) = svrs := by
  rw [nodes, nodesFrom, h.first_eq hp]
  exact h.chains.walk (h.length_le List.mem_cons_self)

theorem nodes_servers (hs : m.chmpxServers = svrs.head?) : m.nodes m.chmpxServers = svrs := by
  rw [hs]
  cases svrs with
  | nil => rfl
  | cons p svrs => exact h.nodes_eq List.mem_cons_self

theorem getFirstPtr_eq (hp : p ∈ svrs) : m.getFirstPtr (some p) = svrs.head? := h.first_eq hp

/-- What `Find` finds from a server is a server with the chmpxid. -/
theorem find_mem {c : Ptr} (hc : c ∈ svrs) {chmpxid : ChmpxId}
    (hf : m.find (some c) chmpxid = some p) : p ∈ svrs ∧ (m.chmpx p).chmpxid = chmpxid := by
  rw [find, Option.bind_some, searchChmpxid] at hf
  split at hf
  · cases hf
  · have hm := List.find?_some hf
    rw [Bool.and_eq_true, decide_eq_true_eq, decide_eq_true_eq, h.server hc] at hm
    exact ⟨h.server_mem p hm.1.symm, hm.2.symm⟩

end Lists

end ChmpxMan
end Chm
