/-
What a merge asks for: a range of hashes and a list of servers.

Routing goes from the hash of a key forward to the servers of its copies.  `MergeWorkerFunc`
goes backward, from this node's own hash to the first key it may hold, and asks for so many
hashes from there on; `mergeHashes_covers_iff` says when these are the keys that routing sends
here.  `GetServerChmpxIdByBaseHash` looks both ways.
-/
import Chm.BaseRing
import Chm.Circulation
import Mathlib.Data.Int.ModEq

namespace Chm

namespace ChmpxMan

/-! ## The hashes of the merge parameter -/

variable {m : ChmpxMan} {n hash start count : Nat} {r : Ring}

theorem mem_foldl_register {l acc : List Nat} {a : Nat} :
    a ∈ l.foldl register acc ↔ a ∈ acc ∨ a ∈ l := by
  rw [foldl_register, List.mem_append, List.mem_eraseDups, List.mem_filter]
  by_cases ha : a ∈ acc
  · simp [ha]
  · simp [ha]

/-- A slot of a consistent table registers its own hash when nothing is filtered. -/
theorem basehashs_collect (h : TableConsistent r m n) (slots : List Nat)
    (hlt : ∀ i ∈ slots, i < n) (c : Collected) :
    (slots.foldl (collectSlot r false false m) c).basehashs = slots.foldl register c.basehashs := by
  induction slots generalizing c with
  | nil => rfl
  | cons i slots ih =>
    obtain ⟨p, hp, -, hserver, hhash⟩ := ringServer_eq h (hlt i List.mem_cons_self)
    have hvalid : i ≠ chmInvalidHashVal := (h i (hlt i List.mem_cons_self)).1
    have hslot : (collectSlot r false false m c i).basehashs = register c.basehashs i := by
      rw [collectSlot, hp]
      simp [hserver.valid, hserver.named, hhash, hvalid, passesFilter]
    rw [List.foldl_cons, List.foldl_cons, ih (fun j hj => hlt j (List.mem_cons_of_mem _ hj)), hslot]

/-- The positions of the window are the ones that the call lists. -/
theorem mem_basehashs_iff (h : TableConsistent .base m m.chmpxBhashCount)
    (hn : m.chmpxBhashCount ≠ 0) (k : Nat) :
    hash ∈ (m.getServerChmpxIdAndBaseHashByHashs k [] [] false false false).2.2.1 ↔
      hash ∈ m.window k m.chmpxBhashCount := by
  have hlt : ∀ i ∈ m.window k m.chmpxBhashCount, i < m.chmpxBhashCount := fun i hi =>
    lt_of_mem_positions (Nat.pos_of_ne_zero hn) (window_eq m k _ ▸ hi)
  rw [getServerChmpxIdAndBaseHashByHashs, if_neg hn]
  simp only [Bool.false_and, Bool.false_eq_true, if_false]
  rw [basehashs_collect h _ hlt, mem_foldl_register]
  simp

end ChmpxMan

/-! ## Both ways along the base ring -/

namespace ChmpxMan

variable {m : ChmpxMan} {n : Nat}

theorem mem_serversAt_iff {r : Ring} {withoutDown withoutSuspend : Bool} {slots : List Nat}
    {chmpxid : ChmpxId} :
    chmpxid ∈ serversAt r withoutDown withoutSuspend m slots ↔
      ∃ i ∈ slots, ∃ p, r.srvs m i = some p ∧
        passesFilter withoutDown withoutSuspend (m.chmpx p) = true ∧
          (m.chmpx p).chmpxid = chmpxid := by
  simp only [serversAt, List.mem_map, List.mem_filter, List.mem_filterMap, Option.map_eq_some_iff]
  constructor
  · rintro ⟨c, ⟨⟨i, hi, p, hp, rfl⟩, hpass⟩, hid⟩
    exact ⟨i, hi, p, hp, hpass, hid⟩
  · rintro ⟨i, hi, p, hp, hpass, hid⟩
    exact ⟨_, ⟨⟨i, hi, p, hp, rfl⟩, hpass⟩, hid⟩

/-- Without pending servers only the base table has to be consistent. -/
theorem chmpxids_withoutPending (h : TableConsistent .base m m.chmpxBhashCount)
    (hn : m.chmpxBhashCount ≠ 0) (hash : ChmHash) (withoutDown withoutSuspend : Bool) :
    (m.getServerChmpxIdAndBaseHashByHashs hash [] [] false withoutDown withoutSuspend).2.1 =
      (serversAt .base withoutDown withoutSuspend m
        (m.positions hash m.chmpxBhashCount)).foldl register [] := by
  rw [getServerChmpxIdAndBaseHashByHashs, if_neg hn]
  simp only [Bool.false_and, Bool.false_eq_true, if_false]
  rw [window_eq]
  exact chmpxids_collect h withoutDown withoutSuspend _
    (fun i hi => lt_of_mem_positions (Nat.pos_of_ne_zero hn) hi) _

end ChmpxMan

namespace EventSock

open ChmpxMan

/-- The hash that the replicas of the servers before come from. -/
def anotherBasehash (replicaCount : Int) (basehash max : Nat) : Nat :=
  let replcnt := (replicaCount % 2 ^ 64).toNat
  if replcnt ≤ basehash then basehash - replcnt else (basehash + max + 2 ^ 64 - replcnt) % 2 ^ 64

theorem getServerChmpxIdByBaseHash_eq (s : EventSock) (basehash : ChmHash)
    (h : TableConsistent .base s.man s.man.chmpxBhashCount) (hn : s.man.chmpxBhashCount ≠ 0) :
    (s.getServerChmpxIdByBaseHash basehash).1 =
      let servers := fun hash => (serversAt .base true true s.man
        (s.man.positions hash s.man.chmpxBhashCount)).foldl register []
      servers basehash ++ (servers (anotherBasehash s.man.replicaCount basehash
        s.man.chmpxBhashCount)).filter (· ∉ servers basehash) := by
  obtain ⟨x, hx⟩ : ∃ x, (s.getServerChmpxIdByHashs basehash).2.man =
      { s.man with lastChmpxid := x } := by
    show ∃ x, (s.man.getServerChmpxIdAndBaseHashByHashs basehash [] [] false true true).2.2.2 = _
    rw [getServerChmpxIdAndBaseHashByHashs, if_neg hn]
    simp only [Bool.false_and, Bool.false_eq_true, if_false]
    split
    · exact ⟨s.man.lastChmpxid, rfl⟩
    · exact ⟨_, rfl⟩
  have hfirst : (s.getServerChmpxIdByHashs basehash).1 = _ :=
    chmpxids_withoutPending h hn basehash true true
  have hsecond : ∀ hash, ((s.getServerChmpxIdByHashs basehash).2.getServerChmpxIdByHashs hash).1 =
      (serversAt .base true true s.man
        (s.man.positions hash s.man.chmpxBhashCount)).foldl register [] := by
    intro hash
    show ((s.getServerChmpxIdByHashs basehash).2.man.getServerChmpxIdAndBaseHashByHashs hash [] []
      false true true).2.1 = _
    rw [hx]
    exact chmpxids_withoutPending (m := { s.man with lastChmpxid := x }) h hn hash true true
  show (s.getServerChmpxIdByHashs basehash).1 ++
    ((s.getServerChmpxIdByHashs basehash).2.getServerChmpxIdByHashs
      (anotherBasehash s.man.replicaCount basehash s.man.chmpxBhashCount)).1.filter
        (· ∉ (s.getServerChmpxIdByHashs basehash).1) = _
  rw [hsecond, hfirst]

/-- The two windows together are the positions up to the replica count away.  A window that is
longer than the ring is the whole ring, wherever the other one starts. -/
theorem mem_windows_iff {m : ChmpxMan} {basehash n i : Nat} (hlt : basehash < n) (hn : n < 2 ^ 63)
    (hr : m.replicaCount < 2 ^ 63) :
    (i ∈ m.positions basehash n ∨
        i ∈ m.positions (anotherBasehash m.replicaCount basehash n) n) ↔
      ∃ d : Int, -m.replicaCount ≤ d ∧ d ≤ m.replicaCount ∧
        (((basehash : Int) + d) % n).toNat = i := by
  simp only [positions, List.mem_map, List.mem_range]
  generalize m.replicaCount = r at hr ⊢
  have hforward : ∀ j : Nat, (((basehash : Int) + j) % n).toNat = (basehash + j) % n := by
    intro j
    rw [← Int.natCast_add, ← Int.natCast_emod, Int.toNat_natCast]
  have hbackward : ∀ j : Nat, (j : Int) ≤ r → r < n →
      (((basehash : Int) + (j - r)) % n).toNat = (anotherBasehash r basehash n + j) % n := by
    intro j hj hrn
    have hword : (r % 2 ^ 64).toNat = r.toNat := by omega
    rw [anotherBasehash, hword]
    by_cases hle : r.toNat ≤ basehash
    · have hsum : (basehash : Int) + (j - r) = ((basehash - r.toNat + j : Nat) : Int) := by omega
      rw [if_pos hle, hsum, ← Int.natCast_emod, Int.toNat_natCast]
    · have hwrap : (basehash + n + 2 ^ 64 - r.toNat) % 2 ^ 64 = basehash + n - r.toNat := by omega
      have hsum : (basehash : Int) + (j - r) + n =
          ((basehash + n - r.toNat + j : Nat) : Int) := by omega
      rw [if_neg hle, hwrap, ← Int.add_emod_right, hsum, ← Int.natCast_emod, Int.toNat_natCast]
  by_cases hrn : r < n
  · constructor
    · rintro (⟨j, hj, rfl⟩ | ⟨j, hj, rfl⟩)
      · exact ⟨j, by omega, by omega, hforward j⟩
      · exact ⟨j - r, by omega, by omega, hbackward j (by omega) hrn⟩
    · rintro ⟨d, hlow, hhigh, rfl⟩
      by_cases hd : 0 ≤ d
      · obtain ⟨j, rfl⟩ := Int.eq_ofNat_of_zero_le hd
        exact .inl ⟨j, by omega, (hforward j).symm⟩
      · obtain ⟨j, hj⟩ := Int.eq_ofNat_of_zero_le (show 0 ≤ d + r by omega)
        obtain rfl : d = j - r := by omega
        exact .inr ⟨j, by omega, (hbackward j (by omega) hrn).symm⟩
  · have hwhole : i < n → ∃ j : Nat, j < n ∧ (basehash + j) % n = i := by
      intro hi
      refine ⟨(i + n - basehash) % n, Nat.mod_lt _ (by omega), ?_⟩
      rw [Nat.add_mod_mod, Nat.add_sub_cancel' (by omega), Nat.add_mod_right, Nat.mod_eq_of_lt hi]
    constructor
    · intro h
      have hi : i < n := by
        rcases h with ⟨j, -, rfl⟩ | ⟨j, -, rfl⟩ <;> exact Nat.mod_lt _ (by omega)
      obtain ⟨j, hj, he⟩ := hwhole hi
      exact ⟨j, by omega, by omega, (hforward j).trans he⟩
    · rintro ⟨d, -, -, rfl⟩
      obtain ⟨j, hj, he⟩ := hwhole (by
        have := Int.emod_lt_of_pos ((basehash : Int) + d) (show (0 : Int) < n by omega)
        omega)
      exact .inl ⟨j, by omega, he⟩

/-- In a consistent base ring the call lists, each once, the servers up to the replica count
before and behind a hash that are neither down nor suspended. -/
theorem getServerChmpxIdByBaseHash_spec (s : EventSock) (basehash : ChmHash)
    (h : TableConsistent .base s.man s.man.chmpxBhashCount)
    (hlt : basehash < s.man.chmpxBhashCount) (hn : s.man.chmpxBhashCount < 2 ^ 63)
    (hr : s.man.replicaCount < 2 ^ 63) :
    (s.getServerChmpxIdByBaseHash basehash).1.Nodup ∧
      ∀ chmpxid, chmpxid ∈ (s.getServerChmpxIdByBaseHash basehash).1 ↔
        ∃ d : Int, -s.man.replicaCount ≤ d ∧ d ≤ s.man.replicaCount ∧
          ∃ p, s.man.chmpxBaseSrvs (((basehash : Int) + d) % s.man.chmpxBhashCount).toNat = some p ∧
            (s.man.chmpx p).status.isDown = false ∧ (s.man.chmpx p).status.isSuspend = false ∧
              (s.man.chmpx p).chmpxid = chmpxid := by
  rw [getServerChmpxIdByBaseHash_eq s basehash h (Nat.ne_of_gt (Nat.zero_lt_of_lt hlt))]
  dsimp only
  refine ⟨?_, fun chmpxid => ?_⟩
  · refine List.nodup_append'.mpr ⟨nodup_foldl_register _ _ List.nodup_nil,
      (nodup_foldl_register _ _ List.nodup_nil).filter _, fun x hx hx' => ?_⟩
    exact of_decide_eq_true (List.mem_filter.mp hx').2 hx
  · have hmem : ∀ l l' : List ChmpxId, chmpxid ∈ l ++ l'.filter (· ∉ l) ↔
        chmpxid ∈ l ∨ chmpxid ∈ l' := by
      intro l l'
      rw [List.mem_append, List.mem_filter, decide_eq_true_eq]
      tauto
    have hpass : ∀ c : Chmpx, passesFilter true true c = true ↔
        c.status.isDown = false ∧ c.status.isSuspend = false := by
      intro c
      simp [passesFilter]
    have hnil : ∀ l : List ChmpxId, chmpxid ∈ l.foldl register [] ↔ chmpxid ∈ l := by
      intro l
      rw [mem_foldl_register]
      simp
    rw [hmem, hnil, hnil, mem_serversAt_iff, mem_serversAt_iff]
    constructor
    · rintro (⟨i, hi, p, hp, hok, hid⟩ | ⟨i, hi, p, hp, hok, hid⟩)
      · obtain ⟨d, hlow, hhigh, rfl⟩ := (mem_windows_iff hlt hn hr).mp (.inl hi)
        exact ⟨d, hlow, hhigh, p, hp, ((hpass _).mp hok).1, ((hpass _).mp hok).2, hid⟩
      · obtain ⟨d, hlow, hhigh, rfl⟩ := (mem_windows_iff hlt hn hr).mp (.inr hi)
        exact ⟨d, hlow, hhigh, p, hp, ((hpass _).mp hok).1, ((hpass _).mp hok).2, hid⟩
    · rintro ⟨d, hlow, hhigh, p, hp, hdown, hsuspend, hid⟩
      have hok := (hpass (s.man.chmpx p)).mpr ⟨hdown, hsuspend⟩
      rcases (mem_windows_iff hlt hn hr).mpr ⟨d, hlow, hhigh, rfl⟩ with hi | hi
      · exact .inl ⟨_, hi, p, hp, hok, hid⟩
      · exact .inr ⟨_, hi, p, hp, hok, hid⟩

/-- A node with this server list. -/
def nodeOf (m : ChmpxMan) : EventSock := { RingNet.ringSock 97 [] [97] with man := m }

theorem nodeOf_man (m : ChmpxMan) : (nodeOf m).man = m := rfl

theorem getServerChmpxIdByBaseHash_sample :
    ((nodeOf sampleRing).getServerChmpxIdByBaseHash 0).1.Nodup ∧
      (sampleSvr 98 ChmpxSts.srvinUpNormal).chmpxid ∈
        ((nodeOf sampleRing).getServerChmpxIdByBaseHash 0).1 := by
  have hspec := getServerChmpxIdByBaseHash_spec (nodeOf sampleRing) 0
  rw [nodeOf_man] at hspec
  obtain ⟨hnodup, hmem⟩ := hspec sampleRing_consistent.base (by decide +kernel)
    (by decide +kernel) (by decide +kernel)
  refine ⟨hnodup, (hmem _).mpr ⟨0, by decide +kernel, by decide +kernel, 1, ?_⟩⟩
  decide +kernel

end EventSock
end Chm
