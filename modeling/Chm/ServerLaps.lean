/-
Laps around the server list.

A caller that asks `GetNextServerPos` for one position after another until there is none has
met every other server once (`serverLap_visits`).  `GetRandomServerChmpxId` hands out the
servers that serve by turns; it moves on twice, from the server it used last to the next one
and from there to the one after, so it meets every server only where their number is odd
(`randomLap_perm_iff`).
-/
import Chm.FindRuns
import Chm.ReceiverRules

namespace Chm

namespace ChmpxMan

variable {m : ChmpxMan} {svrs frees : List Ptr} {rest : List (List Ptr)} {p q : Ptr}

/-! ## All other servers -/

/-- The positions that `GetNextServerPos` returns one after another, each asked for with the one
before, until it returns none; no list while `fuel` is too small to come to that end. -/
def serverLap (m : ChmpxMan) (startpos : Option Ptr) (isSkipSelf : Bool) :
    Nat → Option Ptr → Option (List Ptr)
  | 0, _ => none
  | fuel + 1, nowpos =>
    match m.getNextServerPos startpos nowpos isSkipSelf true with
    | none => some []
    | some pos => (m.serverLap startpos isSkipSelf fuel (some pos)).map (pos :: ·)

/-- The lap of a walk that has still to see `w`. -/
theorem Lists.serverLap_walk (h : Lists m svrs frees rest) (hhead : m.chmpxServers = svrs.head?)
    (hp : p ∈ svrs) (isSkipSelf : Bool) (fuel : Nat) :
    ∀ {q : Ptr} {w : List Ptr}, WalkAt svrs p q w → w.length < fuel →
      m.serverLap (some p) isSkipSelf fuel (some q) =
        some (w.filter (m.keepsServer isSkipSelf)) := by
  induction fuel with
  | zero => exact fun _ hlen => absurd hlen (Nat.not_lt_zero _)
  | succ fuel ih =>
    intro q w hw hlen
    rw [serverLap, h.getNextServerPos_walk hhead hp isSkipSelf hw]
    cases hnext : w.filter (m.keepsServer isSkipSelf) with
    | nil => rfl
    | cons c r =>
      obtain ⟨u, v, rfl, -, -, hv⟩ := List.filter_eq_cons_iff.mp hnext
      have hv' : v.length < fuel := by
        rw [List.length_append, List.length_cons] at hlen
        omega
      dsimp only [List.head?_cons]
      rw [ih hw.suffix hv', hv]
      rfl

/-- Without a start position the walk is one from the head of the list, which comes first. -/
theorem Lists.serverLap_none (h : Lists m svrs frees rest) (hhead : m.chmpxServers = svrs.head?)
    (isSkipSelf : Bool) {fuel : Nat} (hlen : svrs.length < fuel) :
    m.serverLap none isSkipSelf fuel none = some (svrs.filter (m.keepsServer isSkipSelf)) := by
  cases svrs with
  | nil =>
    cases fuel with
    | zero => exact absurd hlen (Nat.not_lt_zero _)
    | succ fuel => simp [serverLap, getNextServerPos, hhead]
  | cons s svrs =>
    have hs : s ∈ s :: svrs := List.mem_cons_self
    have hbehind : Circle.behind (s :: svrs) s = svrs := by
      simpa using Circle.behind_append (u := []) (v := svrs) (a := s) List.not_mem_nil
    have hwalk : WalkAt (s :: svrs) s s svrs := Or.inl ⟨rfl, hbehind.symm⟩
    have hcount : m.chmpxServerCount ≠ 0 := by
      have hle := h.serverCount
      rw [List.length_cons] at hle
      omega
    have hnorm : ∀ q, m.getNextServerPos none (some q) isSkipSelf true =
        m.getNextServerPos (some s) (some q) isSkipSelf true := by
      intro q
      simp [getNextServerPos, hhead]
    have hlap : ∀ fuel q, m.serverLap none isSkipSelf fuel (some q) =
        m.serverLap (some s) isSkipSelf fuel (some q) := by
      intro fuel
      induction fuel with
      | zero => exact fun _ => rfl
      | succ fuel ih =>
        intro q
        rw [serverLap, serverLap, hnorm]
        cases m.getNextServerPos (some s) (some q) isSkipSelf true with
        | none => rfl
        | some pos => exact congrArg (Option.map (pos :: ·)) (ih pos)
    cases fuel with
    | zero => exact absurd hlen (Nat.not_lt_zero _)
    | succ fuel =>
      have hlen' : svrs.length < fuel := Nat.lt_of_succ_lt_succ hlen
      have hrest := h.serverLap_walk hhead hs isSkipSelf fuel hwalk hlen'
      rw [List.filter_cons]
      by_cases hkeep : m.keepsServer isSkipSelf s = true
      · have hfirst : m.getNextServerPos none none isSkipSelf true = some s := by
          have hself := keepsServer_iff.mp hkeep
          simp [getNextServerPos, hhead, hcount, hself]
        rw [serverLap, hfirst, if_pos hkeep]
        dsimp only
        rw [hlap, hrest]
        rfl
      · -- This node is the head: the first position is the one behind it.
        have hself := Decidable.not_not.mp (mt keepsServer_iff.mpr hkeep)
        have hfirst : m.getNextServerPos none none isSkipSelf true =
            m.getNextServerPos (some s) (some s) isSkipSelf true := by
          have hnext : (m.toNextPassing true (fun _ => true) s).getD s = svrs.head?.getD s := by
            rw [h.toNextPassing_eq hs, hbehind]
            cases svrs <;> rfl
          simp only [getNextServerPos, hhead, hcount, hself, hnext, List.head?_cons, or_self,
            if_false, reduceCtorEq, false_and, ne_eq, not_true_eq_false, and_false, and_self,
            if_true, Option.map_some, Option.some.injEq, not_false_eq_true]
          cases svrs with
          | nil => simp
          | cons c svrs =>
            have hnd := (List.nodup_cons.mp h.nodup_svrs).1
            have hsc : s ≠ c := fun he => hnd (he ▸ List.mem_cons_self)
            simp [hsc]
        have hsame : m.serverLap none isSkipSelf (fuel + 1) none =
            m.serverLap (some s) isSkipSelf (fuel + 1) (some s) := by
          rw [serverLap, serverLap, hfirst]
          cases m.getNextServerPos (some s) (some s) isSkipSelf true with
          | none => rfl
          | some pos => exact congrArg (Option.map (pos :: ·)) (hlap fuel pos)
        rw [hsame, if_neg hkeep,
          h.serverLap_walk hhead hs isSkipSelf (fuel + 1) hwalk (Nat.lt_succ_of_lt hlen')]

/-- The lap visits every other server of the list once, and this node only when it is not to be
skipped. -/
theorem serverLap_visits (h : WellFormed m) (isSkipSelf : Bool) {startpos : Option Ptr}
    (hstart : ∀ p, startpos = some p → p ∈ m.nodes m.chmpxServers) {fuel : Nat}
    (hfuel : m.chmpxCount < fuel) :
    ∃ visited, m.serverLap startpos isSkipSelf fuel startpos = some visited ∧ visited.Nodup ∧
      ∀ q, q ∈ visited ↔ q ∈ m.nodes m.chmpxServers ∧ startpos ≠ some q ∧
        ¬(isSkipSelf = true ∧ m.chmpxSelf = some q) := by
  obtain ⟨svrs, frees, rest, hf⟩ := h
  have hlen : svrs.length < fuel :=
    (hf.lists.length_le List.mem_cons_self).trans_lt hfuel
  rw [hf.nodes] at hstart ⊢
  cases startpos with
  | none =>
    refine ⟨_, hf.lists.serverLap_none hf.head isSkipSelf hlen, hf.lists.nodup_svrs.filter _,
      fun q => ?_⟩
    rw [List.mem_filter, keepsServer_iff]
    simp
  | some p =>
    have hp := hstart p rfl
    have hnot := Circle.notMem_behind hf.lists.nodup_svrs hp
    have hbehind : (Circle.behind svrs p).length < fuel := by
      have hperm := (Circle.cons_behind_perm hp).length_eq
      rw [List.length_cons] at hperm
      omega
    refine ⟨_, hf.lists.serverLap_walk hf.head hp isSkipSelf fuel (Or.inl ⟨rfl, rfl⟩) hbehind,
      (Circle.nodup_behind hf.lists.nodup_svrs hp).filter _, fun q => ?_⟩
    rw [List.mem_filter, keepsServer_iff]
    constructor
    · rintro ⟨hq, hskip⟩
      refine ⟨Circle.mem_of_mem_behind hp hq, fun he => ?_, hskip⟩
      obtain rfl := Option.some.inj he
      exact hnot hq
    · rintro ⟨hq, hne, hskip⟩
      exact ⟨Circle.mem_behind hp hq fun he => hne (congrArg some he.symm), hskip⟩

/-- This node is the first of two servers and is skipped. -/
theorem serverLap_visits_sample :
    ∃ visited, pairMan.serverLap pairMan.chmpxServers true (pairMan.chmpxCount + 1)
        pairMan.chmpxServers = some visited ∧ visited.Nodup ∧
      ∀ q, q ∈ visited ↔ q ∈ pairMan.nodes pairMan.chmpxServers ∧
        pairMan.chmpxServers ≠ some q ∧ ¬(true = true ∧ pairMan.chmpxSelf = some q) := by
  refine serverLap_visits pairMan_wellFormed true (fun p hp => ?_) (Nat.lt_succ_self _)
  have hhead : ∀ p ∈ pairMan.chmpxServers, p ∈ pairMan.nodes pairMan.chmpxServers := by
    decide +kernel
  exact hhead p hp

/-! ## By turns -/

/-- The servers that serve, and are not suspended when that is asked for. -/
def servingServers (withoutSuspend : Bool) (m : ChmpxMan) : List Ptr :=
  (m.nodes m.chmpxServers).filter fun p => passesServicing withoutSuspend (m.chmpx p)

/-- The search for its chmpxid finds each server. -/
def ServersFound (m : ChmpxMan) : Prop :=
  ∀ p ∈ m.nodes m.chmpxServers, m.find m.chmpxServers (m.chmpx p).chmpxid = some p

/-- What so many calls of `GetRandomServerChmpxId` return one after another. -/
def randomLap (withoutSuspend : Bool) : Nat → ChmpxMan → List ChmpxId
  | 0, _ => []
  | n + 1, m =>
    let (chmpxid, m) := m.getRandomServerChmpxId withoutSuspend
    chmpxid :: randomLap withoutSuspend n m

/-- Different servers have different chmpxids where each is found by its own. -/
theorem ServersFound.nodup_ids (h : ServersFound m) (hf : Formed m svrs frees rest) :
    (svrs.map fun p => (m.chmpx p).chmpxid).Nodup := by
  refine hf.lists.nodup_svrs.map_on fun p hp q hq he => ?_
  rw [← hf.nodes] at hp hq
  have hfind := h p hp
  rw [he, h q hq] at hfind
  exact (Option.some.inj hfind).symm

/-- From a server of the list on, the calls take every second one of those that serve. -/
theorem randomLap_eq (withoutSuspend : Bool) (n : Nat) :
    ∀ {m : ChmpxMan} {p : Ptr}, Formed m svrs frees rest → ServersFound m →
      m.chmpxBhashCount ≠ 0 → m.find m.chmpxServers m.lastChmpxid = some p →
      ∀ {ids : List ChmpxId}, ids ≠ [] →
        ((Circle.round svrs p).filter fun q => passesServicing withoutSuspend (m.chmpx q)).map
          (fun q => (m.chmpx q).chmpxid) = ids →
        randomLap withoutSuspend n m =
          (List.range n).map fun i => (ids[(2 * i + 1) % ids.length]?).getD chmInvalidChmpxId := by
  induction n with
  | zero => exact fun _ _ _ _ _ _ _ => rfl
  | succ n ih =>
    intro m p h hfound hn hfind ids hne hids
    have hp := find_servers_mem h hfind
    generalize hserving : ((Circle.round svrs p).filter fun q =>
      passesServicing withoutSuspend (m.chmpx q)) = serving at hids
    have hlen : ids.length = serving.length := by rw [← hids, List.length_map]
    have hpos : 0 < serving.length := hlen ▸ List.length_pos_iff.mpr hne
    have hsecond : (serving ++ serving)[1]? = serving[1 % serving.length]? := by
      rcases Nat.lt_or_ge 1 serving.length with hlt | hle
      · rw [List.getElem?_append_left hlt, Nat.mod_eq_of_lt hlt]
      · rw [List.getElem?_append_right hle]
        have hone : serving.length = 1 := by omega
        rw [hone]
    obtain ⟨q, hq⟩ : ∃ q, serving[1 % serving.length]? = some q :=
      ⟨_, List.getElem?_eq_getElem (Nat.mod_lt 1 hpos)⟩
    have hq' : q ∈ svrs := by
      have hmem := List.mem_of_getElem? hq
      rw [← hserving] at hmem
      exact (Circle.mem_round hp).mp (List.mem_of_mem_filter hmem)
    -- The next call starts at `q` and sees the same servers, turned.
    have hturned := Circle.filter_round h.lists.nodup_svrs hp
      (fun q => passesServicing withoutSuspend (m.chmpx q)) (hserving.symm ▸ hq)
    rw [hserving] at hturned
    have hids' : ids[1 % ids.length]? = some (m.chmpx q).chmpxid := by
      rw [hlen, ← hids, List.getElem?_map, hq]
      rfl
    have hcall := getRandomServerChmpxId_found h hn withoutSuspend hfind
    rw [hserving, hsecond, hq] at hcall
    have hmoves : MovesLast m { m with lastChmpxid := (m.chmpx q).chmpxid } := ⟨_, rfl⟩
    have hrest := ih (m := { m with lastChmpxid := (m.chmpx q).chmpxid }) (p := q)
      (hmoves.formed h) hfound hn (hfound q (h.nodes ▸ hq'))
      (show ids.rotate (1 % ids.length + 1) ≠ [] from
        fun hnil => hne (List.rotate_eq_nil_iff.mp hnil))
      (by
        show ((Circle.round svrs q).filter fun q => passesServicing withoutSuspend (m.chmpx q)).map
          (fun q => (m.chmpx q).chmpxid) = _
        rw [hturned, List.map_rotate, hids, hlen])
    rw [randomLap, hcall, List.range_succ_eq_map, List.map_cons, List.map_map]
    dsimp only
    rw [hrest, hids', Option.getD_some]
    congr 1
    refine List.map_congr_left fun i _ => ?_
    have hlt : (2 * i + 1) % ids.length < ids.length := Nat.mod_lt _ (hlen ▸ hpos)
    have hindex : ((2 * i + 1) % ids.length + (1 % ids.length + 1)) % ids.length =
        (2 * (i + 1) + 1) % ids.length := by
      rw [Nat.mod_add_mod, Nat.add_left_comm, Nat.mod_add_mod]
      congr 1
      omega
    rw [Function.comp_apply, List.length_rotate, List.getElem?_rotate hlt, hindex]

/-- So many calls as there are servers that serve return each of them once exactly when there is
a server in the base ring and their number is odd. -/
theorem randomLap_perm_iff (h : WellFormed m) (hfound : ServersFound m) (withoutSuspend : Bool)
    (hlast : ∃ p ∈ m.nodes m.chmpxServers, (m.chmpx p).chmpxid = m.lastChmpxid)
    (hne : m.servingServers withoutSuspend ≠ []) :
    ((m.randomLap withoutSuspend (m.servingServers withoutSuspend).length).Nodup ∧
        (m.randomLap withoutSuspend (m.servingServers withoutSuspend).length).Perm
          ((m.servingServers withoutSuspend).map fun p => (m.chmpx p).chmpxid)) ↔
      m.chmpxBhashCount ≠ 0 ∧ (m.servingServers withoutSuspend).length % 2 = 1 := by
  obtain ⟨svrs, frees, rest, hf⟩ := h
  obtain ⟨p, hp, hlast⟩ := hlast
  have hfind : m.find m.chmpxServers m.lastChmpxid = some p := hlast ▸ hfound p hp
  rw [hf.nodes] at hp
  have hnodup : ((m.servingServers withoutSuspend).map fun p => (m.chmpx p).chmpxid).Nodup := by
    rw [servingServers, hf.nodes]
    exact (hfound.nodup_ids hf).sublist (List.filter_sublist.map _)
  have hround : (((Circle.round svrs p).filter fun q =>
      passesServicing withoutSuspend (m.chmpx q)).map fun q => (m.chmpx q).chmpxid).Perm
        ((m.servingServers withoutSuspend).map fun p => (m.chmpx p).chmpxid) := by
    have hperm : (Circle.round svrs p).Perm svrs :=
      (List.perm_append_singleton p _).trans (Circle.cons_behind_perm hp)
    rw [servingServers, hf.nodes]
    exact (hperm.filter _).map _
  generalize hids : ((Circle.round svrs p).filter fun q =>
    passesServicing withoutSuspend (m.chmpx q)).map (fun q => (m.chmpx q).chmpxid) = ids at hround
  have hlen : ids.length = (m.servingServers withoutSuspend).length := by
    rw [hround.length_eq, List.length_map]
  have hids' : ids ≠ [] := by
    rintro rfl
    exact hne (List.length_eq_zero_iff.mp hlen.symm)
  have hids_nodup := hround.nodup_iff.mpr hnodup
  by_cases hn : m.chmpxBhashCount = 0
  · -- Without a server in the ring every call fails.
    refine iff_of_false (fun hboth => ?_) fun hboth => hboth.1 hn
    have hperm := hboth.2
    obtain ⟨k, hk⟩ := Nat.exists_eq_succ_of_ne_zero
      fun h0 => hne (List.length_eq_zero_iff.mp h0)
    rw [hk, randomLap, getRandomServerChmpxId, if_pos hn] at hperm
    obtain ⟨q, hq, hinvalid⟩ := List.mem_map.mp (hperm.subset List.mem_cons_self)
    have hq' : q ∈ svrs := hf.nodes ▸ List.mem_of_mem_filter hq
    exact (hf.lists.isServer q hq').valid hinvalid
  · rw [← hlen, randomLap_eq withoutSuspend ids.length hf hfound hn hfind hids' hids,
      ← Circle.skips_perm_iff hids_nodup hids' chmInvalidChmpxId]
    exact ⟨fun hboth => ⟨hn, hboth.2.trans hround.symm⟩, fun hboth =>
      ⟨hboth.2.nodup_iff.mpr hids_nodup, hboth.2.trans hround⟩⟩

/-- A ring of servers that are all up, whose hashes are numbered, after a message to the first. -/
def turnMan (others : List Nat) : ChmpxMan :=
  { ((RingNet.ringMan 97 others (97 :: others)).updateHash sampleEnv .both true true).2 with
    lastChmpxid := RingNet.sampleId 97 }

theorem turnMan_wellFormed {others : List Nat}
    (hinit : (initialized sampleEnv (RingNet.ringCfg 97 others)).isSome)
    (hok : ConfigAllowed sampleEnv (RingNet.ringCfg 97 others)) : WellFormed (turnMan others) := by
  have hring : WellFormed
      ((RingNet.ringMan 97 others (97 :: others)).exec sampleEnv (.updateHash .both true true)).2 :=
    exec_wellFormed (RingNet.ringMan_wellFormed _ hinit hok) trivial
  obtain ⟨svrs, frees, rest, hf⟩ := hring
  have hmoves : MovesLast
      ((RingNet.ringMan 97 others (97 :: others)).exec sampleEnv (.updateHash .both true true)).2
      (turnMan others) := ⟨RingNet.sampleId 97, rfl⟩
  exact ⟨svrs, frees, rest, hmoves.formed hf⟩

/-- Three servers take turns. -/
theorem randomLap_perm_sample :
    ((turnMan [98, 99]).randomLap true ((turnMan [98, 99]).servingServers true).length).Nodup ∧
      ((turnMan [98, 99]).randomLap true ((turnMan [98, 99]).servingServers true).length).Perm
        (((turnMan [98, 99]).servingServers true).map
          fun p => ((turnMan [98, 99]).chmpx p).chmpxid) := by
  have hwf : WellFormed (turnMan [98, 99]) :=
    turnMan_wellFormed (by decide +kernel) ⟨by decide +kernel, by decide +kernel⟩
  have hfound : ∀ p ∈ (turnMan [98, 99]).nodes (turnMan [98, 99]).chmpxServers,
      (turnMan [98, 99]).find (turnMan [98, 99]).chmpxServers
        ((turnMan [98, 99]).chmpx p).chmpxid = some p := by decide +kernel
  have hlast : ∃ p ∈ (turnMan [98, 99]).nodes (turnMan [98, 99]).chmpxServers,
      ((turnMan [98, 99]).chmpx p).chmpxid = (turnMan [98, 99]).lastChmpxid := by decide +kernel
  exact (randomLap_perm_iff hwf hfound true hlast (by decide +kernel)).mpr
    ⟨by decide +kernel, by decide +kernel⟩

/-- With two servers the one that was used last is used again and again. -/
theorem randomLap_pair :
    WellFormed (turnMan [98]) ∧
      (∀ p ∈ (turnMan [98]).nodes (turnMan [98]).chmpxServers,
        (turnMan [98]).find (turnMan [98]).chmpxServers
          ((turnMan [98]).chmpx p).chmpxid = some p) ∧
      (∃ p ∈ (turnMan [98]).nodes (turnMan [98]).chmpxServers,
        ((turnMan [98]).chmpx p).chmpxid = (turnMan [98]).lastChmpxid) ∧
      ((turnMan [98]).servingServers true).map (fun p => ((turnMan [98]).chmpx p).chmpxid) =
        [RingNet.sampleId 97, RingNet.sampleId 98] ∧
      (turnMan [98]).randomLap true 2 = [RingNet.sampleId 97, RingNet.sampleId 97] ∧
      ¬((turnMan [98]).randomLap true 2).Nodup :=
  ⟨turnMan_wellFormed (by decide +kernel) ⟨by decide +kernel, by decide +kernel⟩,
    by decide +kernel, by decide +kernel, by decide +kernel, by decide +kernel, by decide +kernel⟩

end ChmpxMan
end Chm
