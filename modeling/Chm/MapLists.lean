/-
What the list operations do to the chmpxid map.

A server is in the bucket of its chmpxid and a free node in none, so `Find` finds
the servers and nothing else.  What the operations do to a search for one chmpxid
follows: a new server is found when nothing was, and taking a server out or writing
one in place disturbs no other search.
-/
import Chm.IdMap
import Chm.MergeLists

namespace Chm

namespace ChmpxMan

variable {env : Env} {args : MergeArgs} {selfchmpxid chmpxid : ChmpxId} {svr : ChmpxSvr}
variable {m m' : ChmpxMan} {s : MergeState} {svrs frees : List Ptr} {rest : List (List Ptr)}
variable {chain : Nat → List Ptr} {p q : Ptr}

/-! ## The map through the operations -/

theorem saveChmpxIdMap_invalid (h : (m.chmpx p).chmpxid = chmInvalidChmpxId) :
    m.saveChmpxIdMap p = m := by
  unfold saveChmpxIdMap
  exact if_pos h

theorem popAny_setLinks (m : ChmpxMan) (cur : Cursor) :
    ∃ r cur' k, m.popAny cur = (r, cur', m.setLinks k) := by
  unfold popAny
  split
  · exact ⟨_, _, m.links, rfl⟩
  · split
    · exact ⟨_, _, _, rfl⟩
    · exact ⟨_, _, _, rfl⟩

namespace Mapped

theorem setLinks (h : Mapped m chain) (k : Links Ptr) : Mapped (m.setLinks k) chain :=
  h.congr rfl rfl rfl fun _ _ _ => rfl

/-- Writing a node that is in no bucket. -/
theorem setChmpx (h : Mapped m chain) (hp : ∀ i, p ∉ chain i) (c : Chmpx) :
    Mapped (m.setChmpx p c) chain := by
  refine h.congr rfl rfl rfl fun i q hq => ?_
  have hqp : q ≠ p := fun he => hp i (he ▸ hq)
  rw [chmpx_setChmpx, if_neg hqp]

/-- Clearing a node that is in no bucket. -/
theorem clear (h : Mapped m chain) (hp : ∀ i, p ∉ chain i) (eqfd : Bool) :
    Mapped (m.clear eqfd p) chain := by
  unfold ChmpxMan.clear
  rw [h.retrieve_lone hp]
  refine Mapped.setChmpx ?_ hp _
  exact h.congr rfl rfl rfl fun _ _ _ => rfl

theorem initializeServer (h : Mapped m chain) (hp : ∀ i, p ∉ chain i) (env : Env)
    (type : ChmpxIdSeedType) (svr : ChmpxSvr) :
    Mapped (m.initializeServer env type svr p) chain := by
  obtain ⟨base, pend, he⟩ := initializeServer_eq env type svr p m
  rw [he]
  exact (h.setChmpx hp _).congr rfl rfl rfl fun _ _ _ => rfl

theorem newServer (h : Mapped m chain) (hp : ∀ i, p ∉ chain i)
    (hrun : newServer env args svr m = (some p, m')) : Mapped m' chain := by
  obtain ⟨r, cur', k, hpop⟩ := popAny_setLinks m m.chmpxFrees
  simp only [ChmpxMan.newServer, hpop] at hrun
  cases r with
  | none => cases hrun
  | some r =>
    obtain ⟨rfl, rfl⟩ : r = p ∧ _ = m' := by simpa using hrun
    refine Mapped.initializeServer (Mapped.clear ?_ hp false) hp env args.type svr
    exact h.congr rfl rfl rfl fun _ _ _ => rfl

/-- Inserting a node that is in no bucket into a list. -/
theorem insert (h : Mapped m chain) (hp : ∀ i, p ∉ chain i)
    (hid : (m.chmpx p).chmpxid ≠ chmInvalidChmpxId) (hb : p < m.chmpxCount)
    (type : ChmpxIdSeedType) (c : Ptr) :
    Mapped (m.insert type c p).2 (Function.update chain (slotOf (m.chmpx p).chmpxid)
      (chain (slotOf (m.chmpx p).chmpxid) ++ [p])) := by
  have hins : ∀ k : Links Ptr, Mapped ((m.setLinks k).saveChmpxIdMap p)
      (Function.update chain (slotOf (m.chmpx p).chmpxid)
        (chain (slotOf (m.chmpx p).chmpxid) ++ [p])) := fun k => (h.setLinks k).save hp hid hb
  simp only [ChmpxMan.insert]
  split
  · exact hins _
  · exact hins _

/-- Putting a node that is in no bucket into the server list. -/
theorem insertServer (h : Mapped m chain) (hp : ∀ i, p ∉ chain i)
    (hid : (m.chmpx p).chmpxid ≠ chmInvalidChmpxId) (hb : p < m.chmpxCount)
    (type : ChmpxIdSeedType) (cur : Cursor) :
    Mapped (insertServer type (some p) cur m).2
      (Function.update chain (slotOf (m.chmpx p).chmpxid)
        (chain (slotOf (m.chmpx p).chmpxid) ++ [p])) := by
  cases cur with
  | none => exact (h.save hp hid hb).congr rfl rfl rfl fun _ _ _ => rfl
  | some c => exact (h.insert hp hid hb type c).congr rfl rfl rfl fun _ _ _ => rfl

/-- Giving a node that is in no bucket to the free list. -/
theorem giveBack (h : Mapped m chain) (hp : ∀ i, p ∉ chain i) (eqfd : Bool) :
    Mapped (m.giveBack eqfd p) chain := by
  have hc := h.clear hp eqfd
  have hclear : (m.clear eqfd p).chmpx p = Chmpx.cleared := by
    unfold ChmpxMan.clear
    rw [chmpx_setChmpx, if_pos rfl]
  have hid : ((m.clear eqfd p).chmpx p).chmpxid = chmInvalidChmpxId := by
    rw [hclear]
    rfl
  have hpush : ∀ k : Links Ptr, ((m.clear eqfd p).setLinks k).saveChmpxIdMap p =
      (m.clear eqfd p).setLinks k := fun k => saveChmpxIdMap_invalid hid
  unfold ChmpxMan.giveBack push
  dsimp only
  rw [hpush]
  exact hc.congr rfl rfl rfl fun _ _ _ => rfl

theorem retrieve_frame (m : ChmpxMan) (p : Ptr) :
    (m.retrieve p).2.chmpxCount = m.chmpxCount ∧ (m.retrieve p).2.chmpx = m.chmpx := by
  obtain ⟨same, map, he⟩ := retrieveChmpxIdMap_eq (m.setLinks (m.links.unlink p)) p
  unfold ChmpxMan.retrieve
  rw [he]
  exact ⟨rfl, rfl⟩

/-- Taking a node out of its list and giving it to the free list. -/
theorem retrieve_giveBack (h : Mapped m chain) {i : Nat} (hp : p ∈ chain i) (eqfd : Bool)
    (hm' : m'.same = (m.retrieve p).2.same ∧ m'.chmpxidMap = (m.retrieve p).2.chmpxidMap ∧
      m'.chmpxCount = m.chmpxCount ∧ m'.chmpx = m.chmpx) :
    Mapped (m'.giveBack eqfd p) (Function.update chain i ((chain i).erase p)) := by
  have hr := (h.setLinks (m.links.unlink p)).retrieve hp
  obtain ⟨same, map, he⟩ := retrieveChmpxIdMap_eq (m.setLinks (m.links.unlink p)) p
  have hout : ∀ j, p ∉ Function.update chain i ((chain i).erase p) j := by
    intro j hj
    rw [Function.update_apply] at hj
    split at hj
    · exact (h.nodup i).not_mem_erase hj
    · rename_i hji
      exact hji ((h.slot j p hj).symm.trans (h.slot i p hp))
  refine Mapped.giveBack ?_ hout eqfd
  refine hr.congr hm'.1 hm'.2.1 ?_ fun j q _ => ?_
  · rw [hm'.2.2.1, he]
    rfl
  · rw [hm'.2.2.2, he]
    rfl

theorem retrieve_giveBack_lone (h : Mapped m chain) (hp : ∀ i, p ∉ chain i) (eqfd : Bool)
    (hm' : m'.same = (m.retrieve p).2.same ∧ m'.chmpxidMap = (m.retrieve p).2.chmpxidMap ∧
      m'.chmpxCount = m.chmpxCount ∧ m'.chmpx = m.chmpx) :
    Mapped (m'.giveBack eqfd p) chain := by
  have hk := h.setLinks (m.links.unlink p)
  have hr : (m.retrieve p).2 = m.setLinks (m.links.unlink p) := hk.retrieve_lone hp
  rw [hr] at hm'
  refine Mapped.giveBack ?_ hp eqfd
  exact h.congr hm'.1 hm'.2.1 hm'.2.2.1 fun j q _ => by rw [hm'.2.2.2]

/-- Taking a server out of the list and giving it to the free list. -/
theorem removeServer (h : Mapped s.man chain) {i : Nat} (hp : p ∈ chain i) (args : MergeArgs) :
    Mapped (removeServer args p s).man (Function.update chain i ((chain i).erase p)) := by
  obtain ⟨harea, hchm⟩ := retrieve_frame s.man p
  exact (h.retrieve_giveBack hp args.eqfd ⟨rfl, rfl, harea, hchm⟩).congr rfl rfl rfl
    fun _ _ _ => rfl

end Mapped

/-! ## Finding servers -/

/-- The nodes of the free list. -/
def freeNodes (m : ChmpxMan) : List Ptr := m.links.walk m.chmpxCount m.chmpxFrees

theorem Lists.freeNodes_eq (h : Lists m svrs frees rest) : m.freeNodes = frees := by
  unfold freeNodes
  rw [h.frees_head]
  exact h.chains.swap.walk (h.length_le (List.mem_cons_of_mem _ List.mem_cons_self))

/-- The map reads as `chain`, every server is in its bucket, and no free node is in
one. -/
structure MapOk (m : ChmpxMan) (chain : Nat → List Ptr) : Prop extends Mapped m chain where
  server : ∀ p, (m.chmpx p).isServerMode = true → p ∈ chain (slotOf (m.chmpx p).chmpxid)
  free : ∀ p ∈ m.freeNodes, (m.chmpx p).chmpxid = chmInvalidChmpxId

/-- The record that a search for a chmpxid finds. -/
def lookup (m : ChmpxMan) (chain : Nat → List Ptr) (chmpxid : ChmpxId) : Option Chmpx :=
  ((chain (slotOf chmpxid)).map m.chmpx).find? (isServerOf chmpxid)

/-- What `insertServer` writes. -/
theorem insertServer_form (type : ChmpxIdSeedType) (p : Option Ptr) (cur : Cursor)
    (m : ChmpxMan) : ∃ k same map n head,
      (insertServer type p cur m).2 = ((m.setLinks k).setMap same map).setServers n head := by
  have hsave : ∀ k p, ∃ same map, (m.setLinks k).saveChmpxIdMap p =
      (m.setLinks k).setMap same map := fun k p => saveChmpxIdMap_eq (m.setLinks k) p
  cases p with
  | none => cases cur <;> exact ⟨m.links, m.same, m.chmpxidMap, _, _, rfl⟩
  | some p =>
    cases cur with
    | none =>
      obtain ⟨same, map, he⟩ := hsave m.links p
      exact ⟨m.links, same, map, 1, some p, congrArg (fun m => m.setServers 1 (some p)) he⟩
    | some c =>
      simp only [insertServer, insert]
      split
      · obtain ⟨same, map, he⟩ := hsave (m.links.linkBefore _ p) p
        rw [he]
        exact ⟨_, same, map, _, _, rfl⟩
      · simp only [pushBack]
        obtain ⟨same, map, he⟩ := hsave (m.links.linkLast _ p) p
        rw [he]
        exact ⟨_, same, map, _, _, rfl⟩

theorem insertServer_frame (type : ChmpxIdSeedType) (p : Option Ptr) (cur : Cursor)
    (m : ChmpxMan) : (insertServer type p cur m).2.chmpx = m.chmpx ∧
      (insertServer type p cur m).2.chmpxCount = m.chmpxCount := by
  obtain ⟨k, same, map, n, head, he⟩ := insertServer_form type p cur m
  rw [he]
  exact ⟨rfl, rfl⟩

/-- Writing a server in place disturbs no search for another one. -/
theorem find?_isServerOf_congr {f g : Ptr → Chmpx} {l : List Ptr}
    (h : ∀ q ∈ l, isServerOf chmpxid (g q) = isServerOf chmpxid (f q) ∧
      (isServerOf chmpxid (f q) = true → g q = f q)) :
    (l.map g).find? (isServerOf chmpxid) = (l.map f).find? (isServerOf chmpxid) := by
  induction l with
  | nil => rfl
  | cons q l ih =>
    obtain ⟨hq, he⟩ := h q List.mem_cons_self
    have hl := ih fun r hr => h r (List.mem_cons_of_mem _ hr)
    rw [List.map_cons, List.map_cons, List.find?_cons, List.find?_cons, hq, hl]
    split
    · rename_i hf
      rw [he hf]
    · rfl

namespace MapOk

theorem congr (h : MapOk m chain) (hsame : m'.same = m.same) (hmap : m'.chmpxidMap = m.chmpxidMap)
    (harea : m'.chmpxCount = m.chmpxCount) (hchm : m'.chmpx = m.chmpx)
    (hfree : m'.freeNodes = m.freeNodes) : MapOk m' chain := by
  refine ⟨h.toMapped.congr hsame hmap harea fun _ _ _ => by rw [hchm], fun p hp => ?_,
    fun p hp => ?_⟩
  · rw [hchm] at hp ⊢
    exact h.server p hp
  · rw [hchm]
    exact h.free p (hfree ▸ hp)

theorem sameShape (h : MapOk m chain) (hs : SameShape m m') : MapOk m' chain := by
  refine ⟨h.toMapped.sameShape hs, fun p hp => ?_, fun p hp => ?_⟩
  · rw [hs.isServerMode] at hp
    rw [hs.chmpxid]
    exact h.server p hp
  · rw [hs.chmpxid]
    refine h.free p ?_
    unfold freeNodes at hp ⊢
    rwa [hs.links, hs.chmpxCount, hs.chmpxFrees] at hp

/-- `Find` from a server finds the server that the bucket holds. -/
theorem find_map (h : MapOk m chain) (hl : Lists m svrs frees rest) {c : Ptr} (hc : c ∈ svrs)
    (hid : chmpxid ≠ chmInvalidChmpxId) :
    (m.find (some c) chmpxid).map m.chmpx = m.lookup chain chmpxid := by
  rw [h.toMapped.find_eq (hl.server hc) hid, lookup, List.find?_map]
  rfl

/-- A node that was free is in a bucket now: it is found when nothing was. -/
theorem insert {new : Chmpx} (h : MapOk m chain) (hp : (m.chmpx p).chmpxid = chmInvalidChmpxId)
    (hm : Mapped m' (Function.update chain (slotOf new.chmpxid)
      (chain (slotOf new.chmpxid) ++ [p])))
    (hchm : m'.chmpx = Function.update m.chmpx p new)
    (hfree : ∀ q ∈ m'.freeNodes, q ∈ m.freeNodes ∧ q ≠ p) :
    ∃ chain', MapOk m' chain' ∧ ∀ chmpxid, m'.lookup chain' chmpxid =
      (m.lookup chain chmpxid).or (if isServerOf chmpxid new then some new else none) := by
  have hout : ∀ i, p ∉ chain i := h.toMapped.notMem_of_invalid hp
  have hchmpx : ∀ q, m'.chmpx q = if q = p then new else m.chmpx q := by
    intro q
    rw [hchm, Function.update_apply]
  refine ⟨_, ⟨hm, fun q hq => ?_, fun q hq => ?_⟩, fun chmpxid => ?_⟩
  · rw [Function.update_apply]
    by_cases hqp : q = p
    · rw [hchmpx, if_pos hqp, if_pos rfl, hqp]
      simp
    · have hold : m'.chmpx q = m.chmpx q := by rw [hchmpx, if_neg hqp]
      rw [hold] at hq ⊢
      have hin := h.server q hq
      split
      · rename_i hi
        rw [hi] at hin
        exact List.mem_append_left _ hin
      · exact hin
  · obtain ⟨hq, hqp⟩ := hfree q hq
    rw [hchmpx, if_neg hqp]
    exact h.free q hq
  · have hmap : (chain (slotOf chmpxid)).map m'.chmpx = (chain (slotOf chmpxid)).map m.chmpx := by
      refine List.map_congr_left fun q hq => ?_
      have hqp : q ≠ p := fun he => hout _ (he ▸ hq)
      rw [hchmpx, if_neg hqp]
    have hpnew : m'.chmpx p = new := by rw [hchmpx, if_pos rfl]
    unfold lookup
    rw [Function.update_apply]
    split
    · rename_i hi
      rw [← hi, List.map_append, List.find?_append, hmap, List.map_singleton, hpnew,
        List.find?_singleton]
    · rename_i hi
      have hid : isServerOf chmpxid new = false := by
        have hne : ¬chmpxid = new.chmpxid := fun he => hi (by rw [he])
        simp [isServerOf, hne]
      rw [hmap, hid, if_neg Bool.false_ne_true, Option.or_none]

/-- A record that makes a new server. -/
theorem added {s s' : MergeState} {frees' : List Ptr} {new : Chmpx} (h : MapOk s.man chain)
    (hl : Lists s.man svrs frees rest) (ha : AddedAt env args svr s s' svrs frees frees' rest p)
    (hnew : (Chmpx.initializeServer env args.type s.man.group svr Chmpx.cleared).2 = new)
    (hserver : IsServer new) :
    ∃ chain', MapOk s'.man chain' ∧ ∀ chmpxid, s'.man.lookup chain' chmpxid =
      (s.man.lookup chain chmpxid).or (if new.chmpxid = chmpxid then some new else none) := by
  have hpf : p ∈ frees := ha.free.mem_iff.mpr List.mem_cons_self
  have hid : (s.man.chmpx p).chmpxid = chmInvalidChmpxId := h.free p (hl.freeNodes_eq ▸ hpf)
  have hout : ∀ i, p ∉ chain i := h.toMapped.notMem_of_invalid hid
  have hbound : p < s.man.chmpxCount :=
    hl.bound p (List.mem_flatten.mpr ⟨frees, by simp, hpf⟩)
  obtain ⟨m₁, hrun, hman⟩ := ha.run
  obtain ⟨hchm, harea⟩ := insertServer_frame args.type (some p) s.cur m₁
  rw [← hman, ha.chmpx, hnew] at hchm
  rw [← hman, ha.site.chmpxCount] at harea
  have hchmp : m₁.chmpx p = new := by rw [← hchm, Function.update_self]
  have hmapped := (h.toMapped.newServer hout hrun).insertServer hout
    (by rw [hchmp]; exact hserver.valid) (by rw [← harea]; exact hbound) args.type s.cur
  rw [← hman, hchmp] at hmapped
  have hfree : ∀ q ∈ s'.man.freeNodes, q ∈ s.man.freeNodes ∧ q ≠ p := by
    intro q hq
    rw [ha.lists.freeNodes_eq] at hq
    have hnd : (p :: frees').Nodup := ha.free.nodup_iff.mp hl.chains.tail.nodup_head
    have hqp : q ≠ p := fun he => (List.nodup_cons.mp hnd).1 (he ▸ hq)
    rw [hl.freeNodes_eq]
    exact ⟨ha.free.mem_iff.mpr (List.mem_cons_of_mem _ hq), hqp⟩
  obtain ⟨chain', hok, hlook⟩ := h.insert hid hmapped (hnew ▸ ha.chmpx) hfree
  refine ⟨chain', hok, fun chmpxid => ?_⟩
  rw [hlook, isServerOf, hserver.mode, Bool.true_and]
  by_cases hid : new.chmpxid = chmpxid
  · simp [hid]
  · have hid' : ¬chmpxid = new.chmpxid := fun he => hid he.symm
    simp [hid, hid']

/-- A record that is merged in place: no other search is disturbed, and its own
finds what the merge made. -/
theorem merged {c : Chmpx} (h : MapOk m chain) (hp : (m.chmpx p).isServerMode = true)
    (hchm : m'.chmpx = Function.update m.chmpx p c) (hs : SameShape m m') :
    MapOk m' chain ∧ ∀ chmpxid, (m.chmpx p).chmpxid ≠ chmpxid →
      m'.lookup chain chmpxid = m.lookup chain chmpxid := by
  refine ⟨h.sameShape hs, fun chmpxid hid => find?_isServerOf_congr fun q _ => ⟨?_, fun hq => ?_⟩⟩
  · rw [isServerOf, isServerOf, hs.isServerMode, hs.chmpxid]
  · have hqp : q ≠ p := by
      rintro rfl
      rw [isServerOf, Bool.and_eq_true, decide_eq_true_iff] at hq
      exact hid hq.2.symm
    rw [hchm, Function.update_of_ne hqp]

/-- A server that is removed: no search for another chmpxid is disturbed. -/
theorem removed {l₁ l₂ : List Ptr} (h : MapOk s.man chain)
    (hl : Lists s.man (l₁ ++ p :: l₂) frees rest) (args : MergeArgs) :
    ∃ chain', MapOk (removeServer args p s).man chain' ∧ ∀ chmpxid,
      (s.man.chmpx p).chmpxid ≠ chmpxid →
        (removeServer args p s).man.lookup chain' chmpxid = s.man.lookup chain chmpxid := by
  obtain ⟨hl', -, -, hchm, -⟩ := removeServer_spec args hl
  have hp : p ∈ chain (slotOf (s.man.chmpx p).chmpxid) := h.server p (hl.server (by simp))
  have hmapped := h.toMapped.removeServer hp args
  generalize hi : slotOf (s.man.chmpx p).chmpxid = i at hp hmapped
  have hchmpx : ∀ q, (removeServer args p s).man.chmpx q =
      if q = p then Chmpx.cleared else s.man.chmpx q := by
    intro q
    rw [hchm, Function.update_apply]
  refine ⟨_, ⟨hmapped, fun q hq => ?_, fun q hq => ?_⟩, fun chmpxid hid => ?_⟩
  · rw [hchmpx] at hq ⊢
    split at hq
    · cases hq
    · rename_i hqp
      rw [if_neg hqp, Function.update_apply]
      have hin := h.server q hq
      split
      · rename_i hqi
        rw [hqi] at hin
        exact (List.mem_erase_of_ne hqp).mpr hin
      · exact hin
  · rw [hl'.freeNodes_eq] at hq
    rw [hchmpx]
    split
    · rfl
    · rename_i hqp
      refine h.free q ?_
      rw [hl.freeNodes_eq]
      exact (List.mem_cons.mp hq).resolve_left hqp
  · unfold lookup
    rw [Function.update_apply]
    have hsame : ∀ l : List Ptr, p ∉ l → l.map (removeServer args p s).man.chmpx =
        l.map s.man.chmpx := by
      intro l hpl
      refine List.map_congr_left fun q hq => ?_
      have hqp : q ≠ p := fun he => hpl (he ▸ hq)
      rw [hchmpx, if_neg hqp]
    split
    · rename_i hslot
      obtain ⟨k₁, k₂, hk⟩ := List.append_of_mem hp
      have hnd := h.nodup i
      rw [hk] at hnd
      have hk₁ : p ∉ k₁ := fun hk₁ => (List.nodup_append'.mp hnd).2.2 hk₁ List.mem_cons_self
      have hk₂ : p ∉ k₂ := (List.nodup_cons.mp (List.nodup_append'.mp hnd).2.1).1
      have hno : isServerOf chmpxid (s.man.chmpx p) = false := by
        have hid' : ¬chmpxid = (s.man.chmpx p).chmpxid := fun he => hid he.symm
        simp [isServerOf, hid']
      rw [hslot, hk, List.erase_append_right _ hk₁, List.erase_cons_head, List.map_append,
        List.map_append, List.map_cons, hsame k₁ hk₁, hsame k₂ hk₂, List.find?_append,
        List.find?_append, List.find?_cons, hno]
    · rename_i hslot
      have hout : p ∉ chain (slotOf chmpxid) := fun hin =>
        hslot ((h.slot _ p hin).symm.trans hi)
      rw [hsame _ hout]

end MapOk

/-! ## The second phase -/

/-- A rule for the second phase: what every removal of a server that is not kept
keeps, the phase keeps. -/
theorem removeLoop_rule {P : ChmpxMan → Prop} (args : MergeArgs) (selfchmpxid : ChmpxId)
    (chmpxids : List ChmpxId)
    (hP : ∀ (s : MergeState) (p : Ptr) (l₁ l₂ frees : List Ptr),
      Lists s.man (l₁ ++ p :: l₂) frees rest →
      kept selfchmpxid chmpxids (s.man.chmpx p) = false → P s.man →
      P (removeServer args p s).man) (fuel : Nat) :
    ∀ (s : MergeState) (svrs frees : List Ptr), Lists s.man svrs frees rest →
      CursorIn s.cur svrs → P s.man → P (removeLoop args selfchmpxid chmpxids fuel s).man := by
  induction fuel with
  | zero => exact fun s _ _ _ _ h => h
  | succ fuel ih =>
    intro s svrs frees hl hcur h
    cases hc : s.cur with
    | none =>
      simp only [removeLoop, hc]
      split <;> exact h
    | some p =>
      rw [hc] at hcur
      obtain ⟨l₁, l₂, rfl⟩ := List.append_of_mem hcur
      simp only [removeLoop, hc]
      split
      · have hnext : s.man.toNext p = l₂.head? := hl.chains.next_of_split
        rw [hnext]
        cases l₂ with
        | nil => exact h
        | cons q l₂ => exact ih { s with cur := some q } _ frees hl (by simp [CursorIn]) h
      · rename_i hk
        obtain ⟨hl', hcur', -⟩ := removeServer_spec args hl
        have hk' : kept selfchmpxid chmpxids (s.man.chmpx p) = false := by simpa [kept] using hk
        refine ih _ _ _ hl' ?_ (hP s p l₁ l₂ frees hl hk' h)
        rw [hcur']
        cases l₂ with
        | cons q l₂ => simp [CursorIn]
        | nil =>
          cases l₁ using List.reverseRecOn with
          | nil => rfl
          | append_singleton l₁ z => simp [CursorIn]

end ChmpxMan
end Chm
