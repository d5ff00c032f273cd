/-
Routing: from the hash of a key to the servers that hold it.

A key goes to the server at its hash modulo the size of the base ring, its copies
to the servers behind that one, and while a merge is under way also to the servers
it will belong to by the pending ring.  `TableConsistent` is what routing asks of a
ring's array.
-/
import Chm.Runs

namespace Chm

namespace ChmpxMan

/-! ## The code -/

/-- The server at a slot of a ring: the array's, else the one a linear search of
the server list finds. -/
def ringServer (r : Ring) (m : ChmpxMan) (hash : ChmHash) : Option Ptr :=
  (r.srvs m hash).or (m.findByHash m.chmpxServers hash (r = .base))

/-- `GetServerChmpxIdByHash`: the chmpxid, which is also what it leaves in
`last_chmpxid` when it finds a server. -/
def getServerChmpxIdByHash (m : ChmpxMan) (hash : ChmHash) : ChmpxId × ChmpxMan :=
  if m.chmpxBhashCount = 0 then (chmInvalidChmpxId, m)
  else
    match ringServer .base m (hash % m.chmpxBhashCount) with
    | none => (chmInvalidChmpxId, m)
    | some p =>
      let chmpxid := (m.chmpx p).chmpxid
      (chmpxid, { m with lastChmpxid := chmpxid })

/-- The two lists of `GetServerChmpxIdAndBaseHashByHashs` and its `last_chmpxid`.
The maps that it keeps against duplicates hold what the lists hold. -/
structure Collected where
  chmpxids : List ChmpxId
  basehashs : List ChmHash
  lastChmpxid : ChmpxId

/-- Append an element that is not there yet. -/
def register (l : List Nat) (a : Nat) : List Nat := if a ∈ l then l else l ++ [a]

/-- The server passes the filters of the call. -/
def passesFilter (withoutDown withoutSuspend : Bool) (c : Chmpx) : Bool :=
  !(withoutDown && c.status.isDown) && !(withoutSuspend && c.status.isSuspend)

/-- The body of the loop over a ring for the slot `hash`. -/
def collectSlot (r : Ring) (withoutDown withoutSuspend : Bool) (m : ChmpxMan) (c : Collected)
    (hash : ChmHash) : Collected :=
  match ringServer r m hash with
  | none => c
  | some p =>
    let svr := m.chmpx p
    if svr.chmpxid = chmInvalidChmpxId then c
    else if svr.name.isEmpty || r.hash svr = chmInvalidHashVal then c
    else if !passesFilter withoutDown withoutSuspend svr then c
    else
      { chmpxids := register c.chmpxids svr.chmpxid
        basehashs := register c.basehashs (r.hash svr)
        lastChmpxid := if r = .base then svr.chmpxid else c.lastChmpxid }

/-- The slots that the loop over a ring of `max` servers visits. -/
def window (m : ChmpxMan) (hash max : Nat) : List ChmHash :=
  (List.range (m.replicaCount + 1).toNat).map fun cnt => (hash % max + cnt) % max

/-- `GetServerChmpxIdAndBaseHashByHashs`, with the two lists as the caller passes
them. -/
def getServerChmpxIdAndBaseHashByHashs (m : ChmpxMan) (hash : ChmHash) (chmpxids : List ChmpxId)
    (basehashs : List ChmHash) (withPending withoutDown withoutSuspend : Bool) :
    Bool × List ChmpxId × List ChmHash × ChmpxMan :=
  if m.chmpxBhashCount = 0 then (false, chmpxids, basehashs, m)
  else
    let c := (m.window hash m.chmpxBhashCount).foldl
      (collectSlot .base withoutDown withoutSuspend m) ⟨[], [], chmInvalidChmpxId⟩
    let c :=
      if withPending && m.isOperating then
        let max := m.pendingHashCount m.chmpxServers
        if max = 0 then c
        else (m.window hash max).foldl (collectSlot .pending withoutDown withoutSuspend m) c
      else c
    (!c.chmpxids.isEmpty, c.chmpxids, c.basehashs,
      if c.lastChmpxid = chmInvalidChmpxId then m else { m with lastChmpxid := c.lastChmpxid })

/-! ## What routing asks of a ring -/

/-- The slots below `n` of a ring's array are servers that hold their hashes. -/
def TableConsistent (r : Ring) (m : ChmpxMan) (n : Nat) : Prop :=
  ∀ i < n, i ≠ chmInvalidHashVal ∧
    ∃ p, r.srvs m i = some p ∧ IsServer (m.chmpx p) ∧ r.hash (m.chmpx p) = i

/-- The base table is consistent up to `chmpx_bhash_count`, the pending one up to
the number of servers of the pending ring. -/
structure TablesConsistent (m : ChmpxMan) : Prop where
  base : TableConsistent .base m m.chmpxBhashCount
  pending : TableConsistent .pending m (m.pendingHashCount m.chmpxServers)

variable {m : ChmpxMan} {svrs frees : List Ptr} {rest : List (List Ptr)} {r : Ring}

theorem ringServer_eq {n i : Nat} (h : TableConsistent r m n) (hi : i < n) :
    ∃ p, ringServer r m i = some p ∧ r.srvs m i = some p ∧ IsServer (m.chmpx p) ∧
      r.hash (m.chmpx p) = i := by
  obtain ⟨-, p, hp, hs, hh⟩ := h i hi
  exact ⟨p, by rw [ringServer, hp, Option.some_or], hp, hs, hh⟩

/-! ## The lists of servers -/

/-- The members of `l` without repetitions of earlier ones, after those of
`acc`. -/
theorem foldl_register (l : List Nat) (acc : List Nat) :
    l.foldl register acc = acc ++ (l.filter (· ∉ acc)).eraseDups := by
  induction l generalizing acc with
  | nil => simp
  | cons a l ih =>
    rw [List.foldl_cons, ih, register]
    by_cases ha : a ∈ acc
    · rw [if_pos ha, List.filter_cons_of_neg (by simpa using ha)]
    · rw [if_neg ha, List.filter_cons_of_pos (by simpa using ha), List.eraseDups_cons,
        List.append_assoc, List.singleton_append, List.filter_filter]
      congr 4
      funext b
      by_cases hb : b = a <;> by_cases hacc : b ∈ acc <;> simp [hb, hacc]

theorem nodup_foldl_register (l acc : List Nat) (h : acc.Nodup) : (l.foldl register acc).Nodup := by
  induction l generalizing acc with
  | nil => exact h
  | cons a l ih =>
    rw [List.foldl_cons]
    refine ih _ ?_
    rw [register]
    split
    · exact h
    · rename_i ha
      exact List.nodup_append'.mpr ⟨h, List.nodup_singleton a, by simpa using ha⟩

/-- The positions of a key with hash `hash` and of its copies in a ring of `n`
servers. -/
def positions (m : ChmpxMan) (hash n : Nat) : List Nat :=
  (List.range (m.replicaCount + 1).toNat).map fun i => (hash + i) % n

theorem window_eq (m : ChmpxMan) (hash n : Nat) : m.window hash n = m.positions hash n :=
  List.map_congr_left fun _ _ => Nat.mod_add_mod _ _ _

theorem lt_of_mem_positions {hash n i : Nat} (hn : 0 < n) (hi : i ∈ m.positions hash n) :
    i < n := by
  obtain ⟨j, -, rfl⟩ := List.mem_map.mp hi
  exact Nat.mod_lt _ hn

/-- The chmpxids of the servers at some slots of a ring that pass the filters. -/
def serversAt (r : Ring) (withoutDown withoutSuspend : Bool) (m : ChmpxMan) (slots : List Nat) :
    List ChmpxId :=
  ((slots.filterMap fun i => (r.srvs m i).map m.chmpx).filter
    (passesFilter withoutDown withoutSuspend)).map (·.chmpxid)

/-- One slot of a consistent table registers its server if that passes the
filters. -/
theorem chmpxids_collectSlot {n i : Nat} (h : TableConsistent r m n) (hi : i < n)
    (withoutDown withoutSuspend : Bool) (c : Collected) :
    (collectSlot r withoutDown withoutSuspend m c i).chmpxids =
      (serversAt r withoutDown withoutSuspend m [i]).foldl register c.chmpxids := by
  obtain ⟨p, hp, hs, hserver, hhash⟩ := ringServer_eq h hi
  have hvalid : i ≠ chmInvalidHashVal := (h i hi).1
  have hat : serversAt r withoutDown withoutSuspend m [i] =
      ([m.chmpx p].filter (passesFilter withoutDown withoutSuspend)).map (·.chmpxid) := by
    rw [serversAt, List.filterMap_cons, hs, List.filterMap_nil]
    rfl
  rw [hat, collectSlot, hp]
  simp only [hserver.valid, hserver.named, hhash, hvalid, if_false, decide_false, Bool.or_self,
    Bool.false_eq_true]
  cases hpass : passesFilter withoutDown withoutSuspend (m.chmpx p) with
  | true =>
    rw [List.filter_cons_of_pos hpass]
    rfl
  | false =>
    rw [List.filter_cons_of_neg (Bool.eq_false_iff.mp hpass)]
    rfl

/-- The loop over a ring registers the servers at its slots. -/
theorem chmpxids_collect {n : Nat} (h : TableConsistent r m n) (withoutDown withoutSuspend : Bool)
    (slots : List Nat) (hlt : ∀ i ∈ slots, i < n) (c : Collected) :
    (slots.foldl (collectSlot r withoutDown withoutSuspend m) c).chmpxids =
      (serversAt r withoutDown withoutSuspend m slots).foldl register c.chmpxids := by
  induction slots generalizing c with
  | nil => rfl
  | cons i slots ih =>
    have hsplit : serversAt r withoutDown withoutSuspend m (i :: slots) =
        serversAt r withoutDown withoutSuspend m [i] ++
          serversAt r withoutDown withoutSuspend m slots := by
      rw [serversAt, serversAt, serversAt, ← List.map_append, ← List.filter_append,
        ← List.filterMap_append, List.singleton_append]
    rw [List.foldl_cons, ih (fun j hj => hlt j (List.mem_cons_of_mem _ hj)),
      chmpxids_collectSlot h (hlt i List.mem_cons_self), hsplit, List.foldl_append]

/-- The servers that a call lists: those at the base positions, then, with pending
ones asked for during a merge, those at the pending positions that are not among
them. -/
def listed (m : ChmpxMan) (hash : Nat) (withPending withoutDown withoutSuspend : Bool) :
    List ChmpxId :=
  let base := serversAt .base withoutDown withoutSuspend m (m.positions hash m.chmpxBhashCount)
  let max := m.pendingHashCount m.chmpxServers
  let pending :=
    if withPending && m.isOperating && max ≠ 0 then
      serversAt .pending withoutDown withoutSuspend m (m.positions hash max)
    else []
  base.eraseDups ++ (pending.filter (· ∉ base)).eraseDups

/-- Registering the servers of the base loop and then those of the pending loop
lists them. -/
theorem listed_eq (hash : Nat) (withPending withoutDown withoutSuspend : Bool) :
    m.listed hash withPending withoutDown withoutSuspend =
      (if withPending && m.isOperating && m.pendingHashCount m.chmpxServers ≠ 0 then
        serversAt .pending withoutDown withoutSuspend m
          (m.positions hash (m.pendingHashCount m.chmpxServers)) else []).foldl register
        ((serversAt .base withoutDown withoutSuspend m
          (m.positions hash m.chmpxBhashCount)).foldl register []) := by
  rw [foldl_register, foldl_register, List.nil_append, listed]
  simp only [List.not_mem_nil, not_false_eq_true, decide_true, List.filter_true,
    List.mem_eraseDups]

/-- With consistent tables the call answers with the listed servers, true exactly
when there is one.  An empty base ring is refused before anything is listed. -/
theorem getServerChmpxIdAndBaseHashByHashs_spec (hash : ChmHash) (chmpxids : List ChmpxId)
    (basehashs : List ChmHash) (withPending withoutDown withoutSuspend : Bool)
    (h : TablesConsistent m) :
    (m.chmpxBhashCount = 0 →
      m.getServerChmpxIdAndBaseHashByHashs hash chmpxids basehashs withPending withoutDown
        withoutSuspend = (false, chmpxids, basehashs, m)) ∧
    (m.chmpxBhashCount ≠ 0 →
      let result := m.getServerChmpxIdAndBaseHashByHashs hash chmpxids basehashs withPending
        withoutDown withoutSuspend
      result.2.1 = m.listed hash withPending withoutDown withoutSuspend ∧ result.2.1.Nodup ∧
        (result.1 = true ↔ result.2.1 ≠ [])) := by
  refine ⟨fun h0 => ?_, fun h0 => ?_⟩
  · rw [getServerChmpxIdAndBaseHashByHashs, if_pos h0]
  · dsimp only
    have hlist : (m.getServerChmpxIdAndBaseHashByHashs hash chmpxids basehashs withPending
        withoutDown withoutSuspend).2.1 = m.listed hash withPending withoutDown withoutSuspend := by
      have hcbase := chmpxids_collect h.base withoutDown withoutSuspend
        (m.positions hash m.chmpxBhashCount)
        (fun i hi => lt_of_mem_positions (Nat.pos_of_ne_zero h0) hi) ⟨[], [], chmInvalidChmpxId⟩
      rw [listed_eq, ← hcbase, getServerChmpxIdAndBaseHashByHashs, if_neg h0]
      simp only [window_eq]
      by_cases hop : (withPending && m.isOperating) = true
      · by_cases hmax : m.pendingHashCount m.chmpxServers = 0
        · simp only [hop, hmax, if_true, ne_eq, not_true_eq_false, decide_false, Bool.and_false,
            Bool.false_eq_true, if_false, List.foldl_nil]
        · simp only [hop, hmax, if_true, if_false, ne_eq, not_false_eq_true, decide_true,
            Bool.and_true]
          exact chmpxids_collect h.pending withoutDown withoutSuspend _
            (fun i hi => lt_of_mem_positions (Nat.pos_of_ne_zero hmax) hi) _
      · simp only [Bool.not_eq_true _ ▸ hop, Bool.false_and, Bool.false_eq_true, if_false,
          List.foldl_nil]
    refine ⟨hlist, ?_, ?_⟩
    · rw [hlist, listed_eq]
      exact nodup_foldl_register _ _ (nodup_foldl_register _ _ List.nodup_nil)
    · rw [getServerChmpxIdAndBaseHashByHashs, if_neg h0]
      simp only [Bool.not_eq_true', List.isEmpty_eq_false_iff]

end ChmpxMan
end Chm
