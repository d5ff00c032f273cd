/-
When a lookup in the cache of host names does what it is for.

Three tests are the wrong way round.  `searchCache` drops an entry that is young and returns one
that is old, and both loops of `getHostAddressInfo` put what a failing call left in its buffer.
`eventOk` says which calls stay clear of them: the only puts that are left are the own host's and
those of addresses without a name, and `Kept` holds along every run of such calls.
-/
import Chm.NetDbCache

namespace Chm

theorem mem_addUniqueString {str x : CStr} {list : List CStr} (h : x ∈ addUniqueString str list) :
    x ∈ list ∨ x = str ∧ x ≠ [] := by
  rw [addUniqueString] at h
  split at h
  · exact .inl h
  · rename_i hno
    obtain h | h := List.mem_append.mp h
    · exact .inl h
    · obtain rfl := List.mem_singleton.mp h
      exact .inr ⟨rfl, fun hnil => hno (.inl hnil)⟩

theorem mem_addUniqueStringList {addlist : List CStr} {x : CStr} {list : List CStr}
    (h : x ∈ addUniqueStringList addlist list) : x ∈ list ∨ x ∈ addlist ∧ x ≠ [] := by
  induction addlist generalizing list with
  | nil => exact .inl h
  | cons str addlist ih =>
    obtain h | ⟨hx, hne⟩ := ih h
    · obtain h | ⟨rfl, hne⟩ := mem_addUniqueString h
      · exact .inl h
      · exact .inr ⟨List.mem_cons_self, hne⟩
    · exact .inr ⟨List.mem_cons_of_mem _ hx, hne⟩

namespace RawAdd

variable {p q : RawAdd} {c : NdbCache} {t : Nat} {x : CStr}

@[simp] theorem cachedTime_merge : (p.merge c t).cachedTime = t := by
  rw [merge]
  split <;> rfl

/-- A merge adds the target and the list, without empty strings. -/
theorem mem_merge (h : x ∈ (p.merge c t).ipaddresses ++ (p.merge c t).hostnames) :
    x ∈ c.ipaddresses ++ c.hostnames ∨ x ∈ p.target :: p.addlist ∧ x ≠ [] := by
  simp only [List.mem_append, List.mem_cons]
  rw [merge] at h
  split at h
  · obtain h | h := List.mem_append.mp h
    · obtain h | ⟨h, hne⟩ := mem_addUniqueStringList h
      · exact .inl (.inl h)
      · exact .inr ⟨.inr h, hne⟩
    · obtain h | ⟨h, hne⟩ := mem_addUniqueString h
      · exact .inl (.inr h)
      · exact .inr ⟨.inl h, hne⟩
  · obtain h | h := List.mem_append.mp h
    · obtain h | ⟨h, hne⟩ := mem_addUniqueString h
      · exact .inl (.inl h)
      · exact .inr ⟨.inl h, hne⟩
    · obtain h | ⟨h, hne⟩ := mem_addUniqueStringList h
      · exact .inl (.inr h)
      · exact .inr ⟨.inr h, hne⟩

theorem mem_news {found : Option NdbCache} (h : x ∈ p.news found) : x ∈ p.addlist ∧ x ≠ [] := by
  obtain h | ⟨h, hne⟩ := mem_addUniqueStringList h
  · cases h
  · exact ⟨(List.mem_filter.mp h).1, hne⟩

/-- The re-entrant calls put the new string, or its form without zone index, with the target. -/
theorem mem_back {new : CStr} (h : q ∈ p.back new) :
    (q.target = new ∨ q.target = noZoneIndex new ∧ p.isHostname = true) ∧
      q.addlist = [p.target] ∧ q.isNoexp = p.isNoexp := by
  rw [back] at h
  obtain rfl | h := List.mem_cons.mp h
  · exact ⟨.inl rfl, rfl, rfl⟩
  · split at h
    · rename_i hhost
      obtain rfl := List.mem_singleton.mp h
      exact ⟨.inr ⟨rfl, (Bool.and_eq_true _ _ ▸ hhost).1⟩, rfl, rfl⟩
    · cases h

end RawAdd

namespace NetDb

variable {inet : Inet} {db : NetDb} {p : RawAdd} {k x : CStr}

/-! ## The invariant -/

/-- The times that the table keeps. -/
def times (db : NetDb) (k : CStr) : Option Nat := (db.cachemap k).map NdbCache.cachedTime

def Linked (inet : Inet) (db : NetDb) (k x : CStr) : Prop := ∃ a ∈ db.told, a.Links inet k x

/-- The times tell the puts, and what stands in an entry was told for its key. -/
structure Kept (inet : Inet) (db : NetDb) : Prop where
  tells : Expiry.Tells db.timeout db.clock db.times db.puts
  linked : ∀ k c, db.cachemap k = some c → ∀ x ∈ c.ipaddresses ++ c.hostnames, Linked inet db k x

theorem cachedTime_newEntry (hp : p.isNoexp = false) :
    (db.newEntry p).cachedTime = db.clock := by
  rw [newEntry]
  split <;> simp [hp]

theorem cachedTime_newEntry_noexp (hp : p.isNoexp = true)
    (hstays : ∀ t, db.times p.target = some t → t = 0) : (db.newEntry p).cachedTime = 0 := by
  rw [newEntry]
  split
  · rename_i c hc
    have hc₀ : c.cachedTime = 0 := hstays _ (by rw [times, hc]; rfl)
    simp [hc₀, hp]
  · simp [hp]

theorem times_rawAddEntry :
    (db.rawAddEntry p).times =
      Function.update db.times p.target (some (db.newEntry p).cachedTime) := by
  funext k
  rw [times, rawAddEntry]
  by_cases hk : k = p.target
  · subst hk
    simp
  · simp [hk, times]

/-- What a put adds to an entry was told for its key. -/
def Fits (inet : Inet) (db : NetDb) (p : RawAdd) : Prop :=
  ∀ x ∈ p.target :: p.addlist, x ≠ [] → Linked inet db p.target x

theorem mem_newEntry (h : x ∈ (db.newEntry p).ipaddresses ++ (db.newEntry p).hostnames) :
    (∃ c, db.cachemap p.target = some c ∧ x ∈ c.ipaddresses ++ c.hostnames) ∨
      x ∈ p.target :: p.addlist ∧ x ≠ [] := by
  rw [newEntry] at h
  split at h
  · rename_i c hc
    exact (RawAdd.mem_merge h).imp_left fun hx => ⟨c, hc, hx⟩
  · exact (RawAdd.mem_merge h).imp_left fun hx => by cases hx

theorem Kept.linked_rawAddEntry (h : Kept inet db) (hfits : Fits inet db p) (k : CStr)
    (c : NdbCache) (hc : (db.rawAddEntry p).cachemap k = some c) :
    ∀ x ∈ c.ipaddresses ++ c.hostnames, Linked inet (db.rawAddEntry p) k x := by
  intro x hx
  have hc' : Function.update db.cachemap p.target (some (db.newEntry p)) k = some c := hc
  by_cases hk : k = p.target
  · subst hk
    rw [Function.update_self, Option.some.injEq] at hc'
    subst hc'
    obtain ⟨c₀, hc₀, hx⟩ | ⟨hx, hne⟩ := mem_newEntry hx
    · exact h.linked _ c₀ hc₀ x hx
    · exact hfits x hx hne
  · rw [Function.update_of_ne hk] at hc'
    exact h.linked k c hc' x hx

theorem Kept.wait (h : Kept inet db) (seconds : Nat) : Kept inet (db.wait seconds) where
  tells := h.tells.wait (Nat.le_add_right _ _)
  linked := h.linked

theorem Kept.learn (h : Kept inet db) (told : List Told) : Kept inet (db.learn told) where
  tells := h.tells
  linked k c hc x hx := by
    obtain ⟨a, ha, hlinks⟩ := h.linked k c hc x hx
    exact ⟨a, List.mem_append_right _ ha, hlinks⟩

theorem Kept.cacheOutEx (h : Kept inet db) : Kept inet db.cacheOutEx where
  tells := by
    refine h.tells.evict fun k => ?_
    cases hc : db.cachemap k with
    | none => exact .inl (by simp [times, NetDb.cacheOutEx, hc])
    | some c =>
      by_cases hold : c.cachedTime ≠ 0 ∧ c.cachedTime + db.timeout < db.clock
      · refine .inr ⟨?_, c.cachedTime, by rw [times, hc]; rfl, hold⟩
        simp [times, NetDb.cacheOutEx, hc, hold.1, hold.2]
      · refine .inl ?_
        simp only [times, NetDb.cacheOutEx, hc, Option.filter_some]
        simp [hold]
  linked k c hc := by
    obtain ⟨hc, -⟩ := Option.filter_eq_some_iff.mp hc
    exact h.linked k c hc

/-! ## Puts -/

/-- A put leaves everything but the map and the record of the puts. -/
theorem foldl_rawAddEntry (ps : List RawAdd) :
    (ps.foldl rawAddEntry db).told = db.told ∧ (ps.foldl rawAddEntry db).clock = db.clock ∧
      (ps.foldl rawAddEntry db).fulllocalname = db.fulllocalname := by
  induction ps generalizing db with
  | nil => exact ⟨rfl, rfl, rfl⟩
  | cons p ps ih => exact ih

theorem rawAddCache_eq :
    db.rawAddCache p =
      (p :: (p.news (db.cachemap p.target)).flatMap p.back).foldl rawAddEntry db := rfl

@[simp] theorem told_rawAddCache : (db.rawAddCache p).told = db.told := by
  rw [rawAddCache_eq]
  exact (foldl_rawAddEntry _).1

@[simp] theorem clock_rawAddCache : (db.rawAddCache p).clock = db.clock := by
  rw [rawAddCache_eq]
  exact (foldl_rawAddEntry _).2.1

@[simp] theorem fulllocalname_rawAddCache :
    (db.rawAddCache p).fulllocalname = db.fulllocalname := by
  rw [rawAddCache_eq]
  exact (foldl_rawAddEntry _).2.2

/-- Without a text that belongs to it a key is put alone. -/
theorem rawAddCache_alone {noexp host : Bool} :
    db.rawAddCache ⟨k, [[]], noexp, host⟩ = db.rawAddEntry ⟨k, [[]], noexp, host⟩ := by
  have hnews : RawAdd.news ⟨k, [[]], noexp, host⟩ (db.cachemap k) = [] := by
    refine List.eq_nil_iff_forall_not_mem.mpr fun x hx => ?_
    obtain ⟨hx, hne⟩ := RawAdd.mem_news hx
    exact hne (List.mem_singleton.mp hx)
  rw [rawAddCache, hnews]
  rfl

theorem self_mem_forms {ipaddr : CStr} : ipaddr ∈ inet.forms ipaddr := by
  rw [Inet.forms]
  split <;> simp

theorem noZoneIndex_mem_forms {ipaddr : CStr} : noZoneIndex ipaddr ∈ inet.forms ipaddr := by
  rw [Inet.forms]
  split <;> simp

theorem mapped_mem_forms {ipaddr stripv4 : CStr} (h : inet.ipv4Mapped ipaddr = some stripv4) :
    noZoneIndex stripv4 ∈ inet.forms ipaddr ∧ stripv4 ∈ inet.forms ipaddr := by
  rw [Inet.forms, h]
  simp

theorem fits_alone {noexp host : Bool} (h : Linked inet db k k) :
    Fits inet db ⟨k, [[]], noexp, host⟩ := by
  intro x hx hne
  obtain rfl | hx := List.mem_cons.mp hx
  · exact h
  · exact absurd (List.mem_singleton.mp hx) hne

/-! ## The own host -/

/-- While the constructor fills the cache no entry runs out. -/
structure Filling (inet : Inet) (db : NetDb) : Prop extends Kept inet db where
  stays : ∀ k t, db.times k = some t → t = 0

theorem Filling.put (h : Filling inet db) (hp : p.isNoexp = true) (hfits : Fits inet db p) :
    Filling inet (db.rawAddEntry p) := by
  have htimes : (db.rawAddEntry p).times = Function.update db.times p.target (some 0) := by
    rw [times_rawAddEntry, cachedTime_newEntry_noexp hp (h.stays _)]
  have hputs : (db.rawAddEntry p).puts = ⟨p.target, true, db.clock⟩ :: db.puts := by
    rw [← hp]
    rfl
  refine ⟨⟨?_, h.linked_rawAddEntry hfits⟩, fun k t ht => ?_⟩
  · rw [htimes, hputs]
    exact h.tells.putStays
  · rw [htimes] at ht
    by_cases hk : k = p.target
    · subst hk
      rw [Function.update_self, Option.some.injEq] at ht
      exact ht.symm
    · rw [Function.update_of_ne hk] at ht
      exact h.stays k t ht

theorem Filling.foldl {ps : List RawAdd} (h : Filling inet db)
    (hps : ∀ p ∈ ps, p.isNoexp = true ∧ Fits inet db p) :
    Filling inet (ps.foldl rawAddEntry db) := by
  induction ps generalizing db with
  | nil => exact h
  | cons p ps ih =>
    obtain ⟨hp, hfits⟩ := hps p List.mem_cons_self
    exact ih (h.put hp hfits) fun q hq => hps q (List.mem_cons_of_mem _ hq)

/-- A name and an address that were told together. -/
theorem Filling.hostname {hostname ipaddr : CStr} {a : Told} (h : Filling inet db)
    (ha : a ∈ db.told) (hname : hostname ∈ a.names) (haddr : ipaddr ∈ a.addrs) :
    Filling inet (db.hostnammeAddCache hostname ipaddr true) := by
  have hform : ∀ x ∈ inet.forms ipaddr, x ∈ a.addrs.flatMap inet.forms := fun x hx =>
    List.mem_flatMap.mpr ⟨ipaddr, haddr, hx⟩
  rw [hostnammeAddCache, rawAddCache_eq]
  refine h.foldl fun q hq => ?_
  obtain rfl | hq := List.mem_cons.mp hq
  · refine ⟨rfl, fun x hx _ => ⟨a, ha, ?_⟩⟩
    obtain rfl | hx := List.mem_cons.mp hx
    · exact .inr (.inr ⟨rfl, .inl hname⟩)
    · obtain rfl := List.mem_singleton.mp hx
      exact .inl ⟨hname, hform _ self_mem_forms⟩
  · obtain ⟨new, hnew, hq⟩ := List.mem_flatMap.mp hq
    obtain rfl := List.mem_singleton.mp (RawAdd.mem_news hnew).1
    obtain ⟨htarget, haddlist, hnoexp⟩ := RawAdd.mem_back hq
    have hmem : q.target ∈ a.addrs.flatMap inet.forms := by
      obtain htarget | ⟨htarget, -⟩ := htarget
      · exact hform _ (htarget ▸ self_mem_forms)
      · exact hform _ (htarget ▸ noZoneIndex_mem_forms)
    refine ⟨hnoexp, fun x hx _ => ⟨a, ha, ?_⟩⟩
    rw [haddlist] at hx
    obtain rfl | hx := List.mem_cons.mp hx
    · exact .inr (.inr ⟨rfl, .inr hmem⟩)
    · obtain rfl := List.mem_singleton.mp hx
      exact .inr (.inl ⟨hmem, hname⟩)

theorem Filling.alone {host : Bool} (h : Filling inet db) (hk : Linked inet db k k) :
    Filling inet (db.rawAddCache ⟨k, [[]], true, host⟩) := by
  rw [rawAddCache_alone]
  exact h.put rfl (fits_alone hk)

theorem Filling.ipaddr {ipaddr : CStr} (h : Filling inet db) (hself : Linked inet db ipaddr ipaddr)
    (hzone : Linked inet db (noZoneIndex ipaddr) (noZoneIndex ipaddr)) :
    Filling inet (db.ipAddressAddCache ipaddr [] true) := by
  rw [ipAddressAddCache]
  split
  · refine (h.alone hzone).alone ?_
    obtain ⟨a, ha, hlinks⟩ := hself
    exact ⟨a, by rwa [told_rawAddCache], hlinks⟩
  · exact h.alone hself

theorem told_ipAddressAddCache {ipaddr hostname : CStr} {noexp : Bool} :
    (db.ipAddressAddCache ipaddr hostname noexp).told = db.told := by
  rw [ipAddressAddCache, told_rawAddCache]
  split
  · exact told_rawAddCache
  · rfl

theorem told_hostnammeAddCache : (db.hostnammeAddCache k x true).told = db.told :=
  told_rawAddCache

theorem fulllocalname_hostnammeAddCache :
    (db.hostnammeAddCache k x true).fulllocalname = db.fulllocalname :=
  fulllocalname_rawAddCache

theorem Filling.learn (h : Filling inet db) (told : List Told) : Filling inet (db.learn told) :=
  ⟨h.toKept.learn told, h.stays⟩

theorem Filling.ifaddr (h : Filling inet db) (n : NameInfo) :
    Filling inet (db.initializeIfaddr inet n) := by
  cases n with
  | failed left => exact h
  | found ipaddr =>
    rw [initializeIfaddr]
    split
    · exact h
    · have hlinked : ∀ x ∈ inet.forms ipaddr,
          Linked inet (db.learn [⟨[], [ipaddr]⟩]) x x := by
        intro x hx
        refine ⟨⟨[], [ipaddr]⟩, List.mem_cons_self, .inr (.inr ⟨rfl, .inr ?_⟩)⟩
        exact List.mem_flatMap.mpr ⟨ipaddr, List.mem_singleton.mpr rfl, hx⟩
      have hput := (h.learn [⟨[], [ipaddr]⟩]).ipaddr (hlinked _ self_mem_forms)
        (hlinked _ noZoneIndex_mem_forms)
      dsimp only
      cases hmapped : inet.ipv4Mapped ipaddr with
      | none => exact hput
      | some stripv4 =>
        obtain ⟨hzone, hself⟩ := mapped_mem_forms hmapped
        refine hput.ipaddr ?_ ?_
        · rw [Linked, told_ipAddressAddCache]
          exact hlinked _ hself
        · rw [Linked, told_ipAddressAddCache]
          exact hlinked _ hzone

/-- The full local name is that of `uname`. -/
theorem Filling.addr {nodename : CStr} (h : Filling inet db)
    (hfull : db.fulllocalname = [] ∨ db.fulllocalname = nodename) (n : NameInfo × NameInfo) :
    Filling inet (db.initializeAddr nodename n) ∧
      (db.initializeAddr nodename n).fulllocalname = db.fulllocalname := by
  obtain ⟨name, numeric⟩ := n
  cases name with
  | failed left => exact ⟨h, rfl⟩
  | found hostname =>
    by_cases hnil : hostname = []
    · rw [initializeAddr, if_pos hnil]
      exact ⟨h, rfl⟩
    by_cases hsame : nodename = hostname ∧ db.fulllocalname = []
    · simp only [initializeAddr, if_neg hnil, if_pos hsame]
      exact ⟨h, trivial⟩
    have h₁ : Filling inet { db with localnames := addUniqueString hostname db.localnames } :=
      ⟨⟨h.tells, h.linked⟩, h.stays⟩
    cases numeric with
    | failed left =>
      simp only [initializeAddr, if_neg hnil, if_neg hsame]
      exact ⟨h₁, trivial⟩
    | found ipaddr =>
      simp only [initializeAddr, if_neg hnil, if_neg hsame]
      have hmem : (⟨[hostname], [ipaddr]⟩ : Told) ∈
          ({ db with localnames := addUniqueString hostname db.localnames }.learn
            [⟨[hostname], [ipaddr]⟩]).told := List.mem_cons_self
      have h₂ := (h₁.learn [⟨[hostname], [ipaddr]⟩]).hostname hmem
        (List.mem_singleton.mpr rfl) (List.mem_singleton.mpr rfl)
      have hfull₂ : (({ db with localnames := addUniqueString hostname db.localnames }.learn
          [⟨[hostname], [ipaddr]⟩]).hostnammeAddCache hostname ipaddr true).fulllocalname =
            db.fulllocalname := fulllocalname_hostnammeAddCache
      rw [hfull₂]
      split
      · rename_i hfound
        have hname : db.fulllocalname = hostname := by
          obtain hempty | hnode := hfull
          · exact absurd hempty hfound.2
          · exact hnode.trans hfound.1
        constructor
        · refine h₂.hostname (a := ⟨[hostname], [ipaddr]⟩) ?_ (List.mem_singleton.mpr hname)
            (List.mem_singleton.mpr rfl)
          rw [told_hostnammeAddCache]
          exact hmem
        · rw [fulllocalname_hostnammeAddCache, hfull₂]
      · exact ⟨h₂, hfull₂⟩

theorem Filling.ifaddrs (h : Filling inet db) (ifaddrs : List NameInfo) :
    Filling inet (db.initializeLocalHostIpAddresses inet ifaddrs) := by
  induction ifaddrs generalizing db with
  | nil => exact h
  | cons n ifaddrs ih => exact ih (h.ifaddr n)

theorem Filling.addrs {nodename : CStr} (h : Filling inet db)
    (hfull : db.fulllocalname = [] ∨ db.fulllocalname = nodename)
    (addrs : List (NameInfo × NameInfo)) :
    Filling inet (addrs.foldl (initializeAddr nodename) db) := by
  induction addrs generalizing db with
  | nil => exact h
  | cons n addrs ih =>
    obtain ⟨hn, hname⟩ := h.addr hfull n
    exact ih hn (by rwa [hname])

theorem Filling.hostnames (h : Filling inet db) (host : LocalHost) :
    Filling inet (db.initializeLocalHostnames host) := by
  rw [initializeLocalHostnames]
  split
  · exact h
  · refine Filling.addrs ?_ ?_ host.addrs
    · split
      · have h₁ : Filling inet { db with
            fulllocalname := host.nodename
            localnames := addUniqueString host.nodename db.localnames } :=
          ⟨⟨h.tells, h.linked⟩, h.stays⟩
        refine (h₁.learn [⟨[host.nodename], []⟩]).alone ?_
        refine ⟨⟨[host.nodename], []⟩, List.mem_cons_self, .inr (.inr ⟨rfl, .inl ?_⟩)⟩
        exact List.mem_singleton.mpr rfl
      · exact ⟨⟨h.tells, h.linked⟩, h.stays⟩
    · split
      · right
        rw [fulllocalname_hostnammeAddCache]
        rfl
      · exact .inl rfl

theorem initializeLocalHostInfo_kept (timeout clock : Nat) (host : LocalHost) :
    Kept inet (initializeLocalHostInfo inet timeout clock host) := by
  have hempty : Filling inet ⟨fun _ => none, timeout, [], [], clock, [], []⟩ :=
    ⟨⟨.nil, fun k c hc => by cases hc⟩, fun k t ht => by cases ht⟩
  exact ((hempty.ifaddrs host.ifaddrs).hostnames host).toKept

/-! ## The calls that stay clear of the three tests -/

/-- A name comes with its numeric text, so that the first loop puts nothing. -/
def nameOk (a : AddrAnswer) : Bool := a.firstName.texts = [] || a.firstHost.texts ≠ []

/-- A put of the key with the time of the clock does not touch an entry that is to stay, and is
not taken for one. -/
def putOk (db : NetDb) (k : CStr) : Bool :=
  db.clock ≠ 0 && (db.cachemap k).all fun c => c.cachedTime ≠ 0

/-- An address without a name is put with an empty buffer. -/
def hostOk (inet : Inet) (l : Look) (a : AddrAnswer) : Bool :=
  match a.host, a.name with
  | .found ipaddr, .failed left =>
    left.getD l.hostname = [] && (inet.forms ipaddr).all (l.db.wait a.wait).putOk
  | _, _ => true

def hostsOk (inet : Inet) : Look → List AddrAnswer → Bool
  | _, [] => true
  | l, a :: addrs => hostOk inet l a && hostsOk inet (hostStep inet l a) addrs

def resolveOk (inet : Inet) (db : NetDb) (data : NdbCache) (answer : HostAnswer) : Bool :=
  answer.addrs.all nameOk && hostsOk inet (db.firstLoop data answer) answer.addrs

/-- The entry that a lookup finds is as old as the timeout to the second, or is to stay and the
clock has come to the timeout. -/
def searchOk (db : NetDb) (target : CStr) : Bool :=
  target ≠ [] && (db.cachemap (db.foundKey target)).all fun c =>
    c.cachedTime + db.timeout = db.clock || c.cachedTime = 0 && db.timeout ≤ db.clock

def eventOk (inet : Inet) (db : NetDb) : Event → Bool
  | .resolve target data mapped own =>
    match inet.ipv4Mapped target with
    | none => resolveOk inet db data own
    | some _ =>
      let first := db.resolveHost inet data mapped
      resolveOk inet db data mapped && resolveOk inet first.1 (first.2.getD data) own
  | .search target seconds => (db.wait seconds).searchOk target
  | .cacheOut _ => true

/-! ## Lookups -/

theorem Kept.nameStep {l : Look} {a : AddrAnswer} (h : Kept inet l.db) (hok : nameOk a = true) :
    Kept inet (nameStep l a).db ∧ (nameStep l a).db.told = l.db.told := by
  obtain ⟨firstName, firstHost, firstWait, host, name, wait⟩ := a
  cases firstName with
  | failed left => exact ⟨h.wait firstWait, rfl⟩
  | found hostname =>
    cases firstHost with
    | found ipaddr => exact ⟨h.wait firstWait, rfl⟩
    | failed left => simp [nameOk, NameInfo.texts] at hok

theorem Kept.names {addrs : List AddrAnswer} {l : Look} (h : Kept inet l.db)
    (hok : addrs.all nameOk = true) :
    Kept inet (addrs.foldl NetDb.nameStep l).db ∧
      (addrs.foldl NetDb.nameStep l).db.told = l.db.told := by
  induction addrs generalizing l with
  | nil => exact ⟨h, rfl⟩
  | cons a addrs ih =>
    rw [List.all_cons, Bool.and_eq_true] at hok
    obtain ⟨hkept, htold⟩ := h.nameStep hok.1
    obtain ⟨hkept', htold'⟩ := ih hkept hok.2
    exact ⟨hkept', htold'.trans htold⟩

/-- Keys that may be put alone, with the time of the clock. -/
structure Putting (inet : Inet) (ks : List CStr) (db : NetDb) : Prop extends Kept inet db where
  clock : db.clock ≠ 0
  times : ∀ k ∈ ks, db.times k ≠ some 0
  self : ∀ k ∈ ks, Linked inet db k k

theorem Putting.put {ks : List CStr} (h : Putting inet ks db) (hk : k ∈ ks) :
    Putting inet ks (db.rawAddCache ⟨k, [[]], false, false⟩) := by
  have htimes : (db.rawAddEntry ⟨k, [[]], false, false⟩).times =
      Function.update db.times k (some db.clock) := by
    rw [times_rawAddEntry, cachedTime_newEntry rfl]
  rw [rawAddCache_alone]
  refine ⟨⟨?_, h.linked_rawAddEntry (fits_alone (h.self k hk))⟩, h.clock, fun k' hk' => ?_, h.self⟩
  · rw [htimes]
    exact h.tells.put h.clock (h.times k hk)
  · rw [htimes]
    by_cases hkk : k' = k
    · subst hkk
      rw [Function.update_self, ne_eq, Option.some.injEq]
      exact h.clock
    · rw [Function.update_of_ne hkk]
      exact h.times k' hk'

theorem Putting.ipaddr {ks : List CStr} {ipaddr : CStr} (h : Putting inet ks db)
    (hzone : noZoneIndex ipaddr ∈ ks) (hself : ipaddr ∈ ks) :
    Putting inet ks (db.ipAddressAddCache ipaddr [] false) := by
  rw [ipAddressAddCache]
  split
  · exact (h.put hzone).put hself
  · exact h.put hself

theorem Kept.putting {ipaddr : CStr} {a : Told} (h : Kept inet db) (ha : a ∈ db.told)
    (haddr : ipaddr ∈ a.addrs) (hok : (inet.forms ipaddr).all db.putOk = true) :
    Putting inet (inet.forms ipaddr) db := by
  have hall : ∀ k ∈ inet.forms ipaddr, db.clock ≠ 0 ∧ db.times k ≠ some 0 := by
    intro k hk
    have hput := List.all_eq_true.mp hok k hk
    rw [putOk, Bool.and_eq_true, decide_eq_true_iff] at hput
    refine ⟨hput.1, fun h₀ => ?_⟩
    obtain ⟨c, hc, hc₀⟩ := Option.map_eq_some_iff.mp h₀
    rw [hc, Option.all_some, decide_eq_true_iff] at hput
    exact hput.2 hc₀
  refine ⟨h, (hall _ self_mem_forms).1, fun k hk => (hall k hk).2, fun k hk => ⟨a, ha, ?_⟩⟩
  exact .inr (.inr ⟨rfl, .inr (List.mem_flatMap.mpr ⟨ipaddr, haddr, hk⟩)⟩)

theorem Kept.hostStep {l : Look} {a : AddrAnswer} (h : Kept inet l.db)
    (ha : a.told ∈ l.db.told) (hok : hostOk inet l a = true) :
    Kept inet (hostStep inet l a).db ∧ (hostStep inet l a).db.told = l.db.told := by
  obtain ⟨firstName, firstHost, firstWait, host, name, wait⟩ := a
  have hwait := h.wait wait
  cases host with
  | failed left => exact ⟨hwait, rfl⟩
  | found ipaddr =>
    cases name with
    | found hostname =>
      cases hmapped : inet.ipv4Mapped ipaddr with
      | none =>
        simp only [NetDb.hostStep, hmapped]
        exact ⟨hwait, rfl⟩
      | some stripv4 =>
        simp only [NetDb.hostStep, hmapped]
        exact ⟨hwait, rfl⟩
    | failed left =>
      rw [hostOk, Bool.and_eq_true, decide_eq_true_iff] at hok
      obtain ⟨hleft, hput⟩ := hok
      have hputting := hwait.putting ha
        (List.mem_append_right _ (List.mem_singleton.mpr rfl)) hput
      have hfirst := hputting.ipaddr noZoneIndex_mem_forms self_mem_forms
      cases hmapped : inet.ipv4Mapped ipaddr with
      | none =>
        simp only [NetDb.hostStep, hmapped]
        rw [hleft]
        exact ⟨hfirst.toKept, told_ipAddressAddCache⟩
      | some stripv4 =>
        obtain ⟨hzone, hself⟩ := mapped_mem_forms hmapped
        simp only [NetDb.hostStep, hmapped]
        rw [hleft]
        refine ⟨(hfirst.ipaddr hzone hself).toKept, ?_⟩
        rw [told_ipAddressAddCache, told_ipAddressAddCache]
        rfl

theorem Kept.hosts {addrs : List AddrAnswer} {l : Look} (h : Kept inet l.db)
    (htold : ∀ a ∈ addrs, a.told ∈ l.db.told) (hok : hostsOk inet l addrs = true) :
    Kept inet (addrs.foldl (NetDb.hostStep inet) l).db := by
  induction addrs generalizing l with
  | nil => exact h
  | cons a addrs ih =>
    rw [hostsOk, Bool.and_eq_true] at hok
    obtain ⟨hkept, htold'⟩ := h.hostStep (htold a List.mem_cons_self) hok.1
    refine ih hkept (fun b hb => ?_) hok.2
    rw [htold']
    exact htold b (List.mem_cons_of_mem _ hb)

theorem Kept.resolveHost {data : NdbCache} {answer : HostAnswer} (h : Kept inet db)
    (hok : resolveOk inet db data answer = true) :
    Kept inet (db.resolveHost inet data answer).1 := by
  rw [resolveOk, Bool.and_eq_true] at hok
  rw [NetDb.resolveHost]
  split
  · exact h
  · obtain ⟨hkept, htold⟩ :=
      Kept.names (l := ⟨db.learn (answer.addrs.map AddrAnswer.told), data, [], answer.ipaddr⟩)
        (h.learn _) hok.1
    refine Kept.hosts hkept (fun a ha => ?_) hok.2
    refine htold.symm ▸ ?_
    exact List.mem_append_left _ (List.mem_map_of_mem ha)

theorem searchCache_fst_of_ok (hok : db.searchOk k = true) : (db.searchCache k).1 = db := by
  rw [searchOk, Bool.and_eq_true, decide_eq_true_iff] at hok
  rw [searchCache, if_neg hok.1]
  cases hc : db.cachemap (db.foundKey k) with
  | none => rfl
  | some c =>
    rw [hc, Option.all_some, Bool.or_eq_true, Bool.and_eq_true] at hok
    simp only [decide_eq_true_iff] at hok
    have hold : ¬ (db.timeout ≠ 0 ∧ db.clock < c.cachedTime + db.timeout) := by omega
    dsimp only
    rw [if_neg hold]

theorem Kept.step {e : Event} (h : Kept inet db) (hok : eventOk inet db e = true) :
    Kept inet (db.step inet e) := by
  cases e with
  | resolve target data mapped own =>
    rw [NetDb.step, getHostAddressInfo]
    rw [eventOk] at hok
    split
    · exact h
    · cases hmapped : inet.ipv4Mapped target with
      | none =>
        rw [hmapped] at hok
        exact h.resolveHost hok
      | some stripv4 =>
        rw [hmapped] at hok
        simp only [Bool.and_eq_true] at hok
        exact (h.resolveHost hok.1).resolveHost hok.2
  | search target seconds =>
    rw [NetDb.step, searchCache_fst_of_ok hok]
    exact h.wait seconds
  | cacheOut seconds => exact (h.wait seconds).cacheOutEx

/-- What was told of the key under which the lookup finds an entry was told of its target. -/
theorem Linked.associated (h : Linked inet db (db.foundKey k) x) : db.Associated inet k x := by
  obtain ⟨a, ha, hlinks⟩ := h
  rw [foundKey] at hlinks
  split at hlinks
  · rename_i hzone
    exact ⟨a, ha, .inr ⟨hzone.2, hlinks⟩⟩
  · exact ⟨a, ha, .inl hlinks⟩

theorem Kept.freshKey_iff (h : Kept inet db) :
    db.FreshKey k ↔ Expiry.Fresh db.timeout db.puts (db.foundKey k) db.clock ∨
      db.cachemap k ≠ none ∧ zoneChar ∈ k ∧
        Expiry.Fresh db.timeout db.puts (noZoneIndex k) db.clock := by
  rw [FreshKey, foundKey]
  by_cases hk : db.cachemap k = none
  · have hnot : ¬ Expiry.Fresh db.timeout db.puts k db.clock :=
      h.tells.not_fresh le_rfl (by rw [NetDb.times, hk]; rfl)
    by_cases hzone : zoneChar ∈ k
    · rw [if_pos ⟨hk, hzone⟩]
      simp [hnot, hk, hzone]
    · simp [hnot, hk, hzone]
  · rw [if_neg fun hboth => hk hboth.1]
    simp [hk]

theorem Kept.searchRight (h : Kept inet db) (hok : db.searchOk k = true) :
    SearchRight inet db k := by
  rw [searchOk, Bool.and_eq_true, decide_eq_true_iff] at hok
  obtain ⟨hne, hok⟩ := hok
  cases hc : db.cachemap (db.foundKey k) with
  | none =>
    have hmiss : db.searchCache k = (db, none) := by rw [searchCache, if_neg hne, hc]
    have hnot : ¬ Expiry.Fresh db.timeout db.puts (db.foundKey k) db.clock :=
      h.tells.not_fresh le_rfl (by rw [NetDb.times, hc]; rfl)
    refine ⟨?_, fun data hdata => ?_⟩
    · rw [hmiss, h.freshKey_iff]
      simp only [Option.isSome_none, Bool.false_eq_true, false_iff, hnot, false_or]
      rintro ⟨hsome, -⟩
      -- an entry of the key's own would have been found
      rw [foundKey, if_neg fun hboth => hsome hboth.1] at hc
      exact hsome hc
    · rw [hmiss] at hdata
      cases hdata
  | some c =>
    rw [hc, Option.all_some, Bool.or_eq_true, Bool.and_eq_true] at hok
    simp only [decide_eq_true_iff] at hok
    have htime : db.times (db.foundKey k) = some c.cachedTime := by rw [NetDb.times, hc]; rfl
    have hold : ¬ (db.timeout ≠ 0 ∧ db.clock < c.cachedTime + db.timeout) := by omega
    have hfresh : Expiry.Fresh db.timeout db.puts (db.foundKey k) db.clock := by
      by_cases h₀ : c.cachedTime = 0
      · exact h.tells.fresh_of_zero (h₀ ▸ htime)
      · refine (h.tells.fresh_iff le_rfl htime h₀).mpr ?_
        omega
    refine ⟨?_, fun data hdata x hx => ?_⟩
    · rw [searchCache, if_neg hne, hc]
      simp only [if_neg hold, Option.isSome_some, true_iff]
      exact h.freshKey_iff.mpr (.inl hfresh)
    · rw [searchCache, if_neg hne, hc] at hdata
      simp only [if_neg hold, Option.some.injEq] at hdata
      subst hdata
      refine Linked.associated (h.linked _ c hc x ?_)
      obtain hx | hx := List.mem_append.mp hx
      · obtain hx | ⟨hx, -⟩ := mem_addUniqueStringList hx
        · cases hx
        · exact List.mem_append_left _ hx
      · obtain hx | ⟨hx, -⟩ := mem_addUniqueStringList hx
        · cases hx
        · exact List.mem_append_right _ hx

theorem searchRight_of_ok {seconds : Nat}
    (h : Steps.Reachable (system inet) (eventOk inet) db)
    (hok : eventOk inet db (.search k seconds) = true) :
    SearchRight inet (db.wait seconds) k := by
  have hkept : Kept inet db := by
    refine h.invariant (fun s hs => ?_) fun {s s' e} hs hok hstep => ?_
    · obtain ⟨timeout, clock, host, -, rfl⟩ := hs
      exact initializeLocalHostInfo_kept timeout clock host
    · obtain rfl := Option.some.inj hstep
      exact hs.step hok
  exact (hkept.wait seconds).searchRight hok

/-- `10.0.0.1` and `10.0.0.2` -/
def sampleIpaddr (n : Nat) : CStr := [49, 48, 46, 48, 46, 48, 46, 48 + n]

/-- An `inet_pton` that knows one mapped address. -/
def sampleInet : Inet where
  lastFour str := if str = mappedPrefix ++ sampleIpaddr 1 then some (sampleIpaddr 1) else none
  dotted str ip h := by
    split at h
    · obtain rfl := Option.some.inj h
      decide
    · cases h

/-- One interface, and a name that is not that of `uname`. -/
def sampleHost : LocalHost where
  ifaddrs := [.found (sampleIpaddr 1)]
  nodename := [104]
  inResolv := false
  addrs := [(.found [104, 50], .found (sampleIpaddr 1))]

/-- A host whose address has no name. -/
def sampleResolve : Event :=
  .resolve [115] .init ⟨[], []⟩
    ⟨[⟨.failed none, .failed none, 0, .found (sampleIpaddr 2), .failed none, 0⟩], []⟩

theorem searchRight_of_ok_sample :
    ∃ db, Steps.Reachable (system sampleInet) (eventOk sampleInet) db ∧
      SearchRight sampleInet (db.wait 60) (sampleIpaddr 2) ∧
      ((db.wait 60).searchCache (sampleIpaddr 2)).2.isSome = true := by
  have hrun : ((system sampleInet).run (eventOk sampleInet)
      (initializeLocalHostInfo sampleInet 60 100 sampleHost) [sampleResolve]).map
        (fun db => (eventOk sampleInet db (.search (sampleIpaddr 2) 60),
          ((db.wait 60).searchCache (sampleIpaddr 2)).2.isSome)) = some (true, true) := by decide
  obtain ⟨db, hdb, h⟩ := Steps.reached (system sampleInet) (eventOk sampleInet) _
    ⟨60, 100, sampleHost, by decide, rfl⟩ hrun
  obtain ⟨hok, hsome⟩ := Prod.mk.inj h
  exact ⟨db, hdb, searchRight_of_ok hdb hok, hsome⟩

/-- One second after it was put the address is not found. -/
theorem searchRight_fails :
    ¬ ∀ db, Steps.Reachable (system sampleInet) Steps.anyStep db →
      ∀ k seconds, SearchRight sampleInet (db.wait seconds) k := by
  intro hall
  have hrun : ((system sampleInet).run Steps.anyStep
      (initializeLocalHostInfo sampleInet 60 100 sampleHost) [sampleResolve]).map
        (fun db => (((db.wait 1).searchCache (sampleIpaddr 2)).2.isSome, db.timeout, db.clock,
          db.puts.head?.map fun p => (p.key, p.time))) =
      some (false, 60, 100, some (sampleIpaddr 2, 100)) := by decide
  obtain ⟨db, hdb, h⟩ := Steps.reached (system sampleInet) Steps.anyStep _
    ⟨60, 100, sampleHost, by decide, rfl⟩ hrun
  simp only [Prod.mk.injEq] at h
  obtain ⟨hmiss, htimeout, hclock, hhead⟩ := h
  obtain ⟨p, hp, hkey⟩ := Option.map_eq_some_iff.mp hhead
  obtain ⟨hkey, htime⟩ := Prod.mk.inj hkey
  have hfresh : (db.wait 1).FreshKey (sampleIpaddr 2) := by
    refine .inl ⟨p, List.mem_of_mem_head? hp, hkey, .inr ?_⟩
    simp [NetDb.wait, htimeout, hclock, htime]
  have hfound := (hall db hdb (sampleIpaddr 2) 1).found.mpr hfresh
  exact absurd (hmiss.symm.trans hfound) Bool.false_ne_true

end NetDb
end Chm
