/-
The cache of host names and addresses.

`ChmNetDb` keeps in a map, under every host name and every address, the names and addresses that
belong to it and the time of the last put, 0 for those of the own host.  `initializeLocalHostInfo`
is the constructor's work, `getHostAddressInfo` asks the resolver, `searchCache` and `cacheOutEx`
read the map and clear it.

The resolver's answers are inputs, with the seconds that pass before they come and with what
`getnameinfo` leaves in its buffer when it fails.  `puts` and `told` are no members of the class:
they record the puts and the answers.
-/
import Chm.Base
import Chm.Lib.Expiry
import Chm.Lib.Steps

namespace Chm

/-- `CHMNDBCACHE`; a `cachedTime` of 0 never runs out. -/
structure NdbCache where
  ipaddresses : List CStr
  hostnames : List CStr
  cachedTime : Nat
  deriving DecidableEq, Repr

def NdbCache.init : NdbCache := ⟨[], [], 0⟩

/-- `AddUniqueStringToList`; a list that it clears first is given as `[]`. -/
def addUniqueString (str : CStr) (list : List CStr) : List CStr :=
  if str = [] ∨ str ∈ list then list else list ++ [str]

/-- `AddUniqueStringListToList` -/
def addUniqueStringList (addlist list : List CStr) : List CStr :=
  addlist.foldl (fun list str => addUniqueString str list) list

/-- `'%'` -/
def zoneChar : Nat := 37

/-- `GetNoZoneIndexIpAddress` -/
def noZoneIndex (ipaddr : CStr) : CStr := ipaddr.takeWhile (· ≠ zoneChar)

/-- `inet_pton` for IPv6 and, of the last four bytes, `inet_ntoa`. -/
structure Inet where
  lastFour : CStr → Option CStr
  /-- `inet_ntoa` writes digits and dots. -/
  dotted : ∀ str ip, lastFour str = some ip → ip ≠ [] ∧ ∀ c ∈ ip, c = 46 ∨ 48 ≤ c ∧ c ≤ 57

/-- `"::ffff:"` -/
def mappedPrefix : CStr := [58, 58, 102, 102, 102, 102, 58]

/-- `GetIPv4MappedIPv6Address` -/
def Inet.ipv4Mapped (inet : Inet) (target : CStr) : Option CStr :=
  if mappedPrefix.isPrefixOf target then inet.lastFour target else none

/-- What `GetHostAddressInfo` asks again for an IPv4 address is no mapped address. -/
theorem Inet.ipv4Mapped_once {inet : Inet} {target ip : CStr}
    (h : inet.ipv4Mapped target = some ip) : ip ≠ [] ∧ inet.ipv4Mapped ip = none := by
  rw [ipv4Mapped] at h
  split at h
  · obtain ⟨hne, hdotted⟩ := inet.dotted target ip h
    refine ⟨hne, ?_⟩
    cases ip with
    | nil => exact absurd rfl hne
    | cons c ip =>
      have hc : c ≠ 58 := by
        have := hdotted c List.mem_cons_self
        omega
      have hfalse : mappedPrefix.isPrefixOf (c :: ip) = false := by
        simp [mappedPrefix, List.isPrefixOf, hc.symm]
      rw [ipv4Mapped, hfalse]
      rfl
  · cases h

/-- The texts under which an address is put. -/
def Inet.forms (inet : Inet) (ipaddr : CStr) : List CStr :=
  match inet.ipv4Mapped ipaddr with
  | none => [noZoneIndex ipaddr, ipaddr]
  | some stripv4 => [noZoneIndex ipaddr, ipaddr, noZoneIndex stripv4, stripv4]

/-- The names and numeric texts that the resolver gave for one address. -/
structure Told where
  names : List CStr
  addrs : List CStr

/-- An answer associates a name with every form of the address, and each text with itself. -/
def Told.Links (inet : Inet) (a : Told) (k x : CStr) : Prop :=
  k ∈ a.names ∧ x ∈ a.addrs.flatMap inet.forms ∨
    k ∈ a.addrs.flatMap inet.forms ∧ x ∈ a.names ∨
    x = k ∧ (k ∈ a.names ∨ k ∈ a.addrs.flatMap inet.forms)

/-- The singleton with the clock that it reads. -/
structure NetDb where
  cachemap : CStr → Option NdbCache
  timeout : Nat
  fulllocalname : CStr
  localnames : List CStr
  clock : Nat
  puts : List (Expiry.Put CStr)
  told : List Told

/-! ## Adding to the cache -/

/-- The arguments of `RawAddCache`. -/
structure RawAdd where
  target : CStr
  addlist : List CStr
  isNoexp : Bool
  isHostname : Bool

/-- The target and the list merged into an entry. -/
def RawAdd.merge (p : RawAdd) (c : NdbCache) (cachedTime : Nat) : NdbCache :=
  if p.isHostname then
    ⟨addUniqueStringList p.addlist c.ipaddresses, addUniqueString p.target c.hostnames, cachedTime⟩
  else
    ⟨addUniqueString p.target c.ipaddresses, addUniqueStringList p.addlist c.hostnames, cachedTime⟩

/-- `newipaddrs` or `newhostnames`: what the entry did not have. -/
def RawAdd.news (p : RawAdd) (found : Option NdbCache) : List CStr :=
  let old := found.getD .init
  let known := if p.isHostname then old.ipaddresses else old.hostnames
  addUniqueStringList (p.addlist.filter (· ∉ known)) []

/-- The re-entrant calls for a new string. -/
def RawAdd.back (p : RawAdd) (new : CStr) : List RawAdd :=
  ⟨new, [p.target], p.isNoexp, !p.isHostname⟩ ::
    if p.isHostname && zoneChar ∈ new then
      [⟨noZoneIndex new, [p.target], p.isNoexp, false⟩]
    else []

namespace NetDb

variable (inet : Inet)

/-- The target's entry after `RawAddCache`: merged, with its time, or new. -/
def newEntry (db : NetDb) (p : RawAdd) : NdbCache :=
  match db.cachemap p.target with
  | some c => p.merge c (if p.isNoexp ∧ c.cachedTime = 0 then 0 else db.clock)
  | none => p.merge .init (if p.isNoexp then 0 else db.clock)

/-- `RawAddCache` when it is re-entered: the target's entry alone. -/
def rawAddEntry (db : NetDb) (p : RawAdd) : NetDb :=
  { db with
    cachemap := Function.update db.cachemap p.target (some (db.newEntry p))
    puts := ⟨p.target, p.isNoexp, db.clock⟩ :: db.puts }

/-- `RawAddCache` -/
def rawAddCache (db : NetDb) (p : RawAdd) : NetDb :=
  ((p.news (db.cachemap p.target)).flatMap p.back).foldl rawAddEntry (db.rawAddEntry p)

/-- `HostnammeAddCache` -/
def hostnammeAddCache (db : NetDb) (hostname ipaddr : CStr) (isNoexp : Bool) : NetDb :=
  db.rawAddCache ⟨hostname, [ipaddr], isNoexp, true⟩

/-- `IpAddressAddCache` -/
def ipAddressAddCache (db : NetDb) (ipaddr hostname : CStr) (isNoexp : Bool) : NetDb :=
  let db := if zoneChar ∈ ipaddr then
      db.rawAddCache ⟨noZoneIndex ipaddr, [hostname], isNoexp, false⟩
    else db
  db.rawAddCache ⟨ipaddr, [hostname], isNoexp, false⟩

/-- `time(NULL)` after some seconds. -/
def wait (db : NetDb) (seconds : Nat) : NetDb := { db with clock := db.clock + seconds }

def learn (db : NetDb) (told : List Told) : NetDb := { db with told := told ++ db.told }

/-! ## The own host -/

/-- What `getnameinfo` says: the text, or what a failing call leaves in the buffer, if it writes
there. -/
inductive NameInfo
  | found (text : CStr)
  | failed (left : Option CStr)
  deriving DecidableEq, Repr

def NameInfo.texts : NameInfo → List CStr
  | .found text => [text]
  | .failed _ => []

/-- What the constructor sees: the numeric texts of the interface addresses, `uname`, whether DNS
knows the name, and name and numeric text of each of its addresses. -/
structure LocalHost where
  ifaddrs : List NameInfo
  nodename : CStr
  inResolv : Bool
  addrs : List (NameInfo × NameInfo)

/-- One interface of `InitializeLocalHostIpAddresses`. -/
def initializeIfaddr (db : NetDb) : NameInfo → NetDb
  | .failed _ => db
  | .found ipaddr =>
    if ipaddr = [] then db
    else
      let db := (db.learn [⟨[], [ipaddr]⟩]).ipAddressAddCache ipaddr [] true
      match inet.ipv4Mapped ipaddr with
      | none => db
      | some stripv4 => db.ipAddressAddCache stripv4 [] true

/-- `InitializeLocalHostIpAddresses` -/
def initializeLocalHostIpAddresses (db : NetDb) (ifaddrs : List NameInfo) : NetDb :=
  ifaddrs.foldl (initializeIfaddr inet) db

/-- One address of the own name in `InitializeLocalHostnames`. -/
def initializeAddr (nodename : CStr) (db : NetDb) : NameInfo × NameInfo → NetDb
  | (.failed _, _) => db
  | (.found hostname, numeric) =>
    if hostname = [] then db
    else
      let db := if nodename = hostname ∧ db.fulllocalname = [] then db
        else { db with localnames := addUniqueString hostname db.localnames }
      if nodename = hostname ∧ db.fulllocalname = [] then db
      else match numeric with
        | .failed _ => db
        | .found ipaddr =>
          let db := (db.learn [⟨[hostname], [ipaddr]⟩]).hostnammeAddCache hostname ipaddr true
          if nodename = hostname ∧ db.fulllocalname ≠ [] then
            db.hostnammeAddCache db.fulllocalname ipaddr true
          else db

/-- `InitializeLocalHostnames` -/
def initializeLocalHostnames (db : NetDb) (host : LocalHost) : NetDb :=
  if host.nodename = [] then db
  else
    let db := if host.inResolv then
        ({ db with
          fulllocalname := host.nodename
          localnames := addUniqueString host.nodename db.localnames }.learn
            [⟨[host.nodename], []⟩]).hostnammeAddCache host.nodename [] true
      else { db with fulllocalname := [] }
    host.addrs.foldl (initializeAddr host.nodename) db

/-- `InitializeLocalHostInfo` in the constructor. -/
def initializeLocalHostInfo (timeout clock : Nat) (host : LocalHost) : NetDb :=
  initializeLocalHostnames
    (initializeLocalHostIpAddresses inet ⟨fun _ => none, timeout, [], [], clock, [], []⟩
      host.ifaddrs) host

/-! ## Asking the resolver -/

/-- What `getnameinfo` says of one address: the name and the numeric text in the first loop, the
numeric text and the name in the second. -/
structure AddrAnswer where
  firstName : NameInfo
  firstHost : NameInfo
  firstWait : Nat
  host : NameInfo
  name : NameInfo
  wait : Nat

/-- The calls that are made. -/
def AddrAnswer.told (a : AddrAnswer) : Told where
  names := a.firstName.texts ++ if a.host.texts = [] then [] else a.name.texts
  addrs := (if a.firstName.texts = [] then [] else a.firstHost.texts) ++ a.host.texts

/-- The addresses of `getaddrinfo`, none when it fails, and what stands in `ipaddr`. -/
structure HostAnswer where
  addrs : List AddrAnswer
  ipaddr : CStr

/-- The two loops: the data so far and the two buffers. -/
structure Look where
  db : NetDb
  data : NdbCache
  hostname : CStr
  ipaddr : CStr

/-- First loop: the name of an address.  The result of the second call is tested the wrong way
round: what is put is the text of a call that failed. -/
def nameStep (l : Look) (a : AddrAnswer) : Look :=
  let l := { l with db := l.db.wait a.firstWait }
  match a.firstName with
  | .failed left => { l with hostname := left.getD [] }
  | .found hostname =>
    let l := { l with
      hostname
      data.hostnames := addUniqueString hostname l.data.hostnames }
    match a.firstHost with
    | .found ipaddr => { l with ipaddr }
    | .failed left =>
      let ipaddr := left.getD l.ipaddr
      { l with ipaddr, db := l.db.hostnammeAddCache hostname ipaddr false }

/-- Second loop: the numeric text of an address.  It is put when the name is not found, with
what stands in `hostname`, which is not cleared. -/
def hostStep (l : Look) (a : AddrAnswer) : Look :=
  let l := { l with db := l.db.wait a.wait }
  match a.host with
  | .failed left => { l with ipaddr := left.getD [] }
  | .found ipaddr =>
    let l := { l with
      ipaddr
      data.ipaddresses := addUniqueString ipaddr l.data.ipaddresses }
    match a.name, inet.ipv4Mapped ipaddr with
    | .found hostname, none => { l with hostname }
    | .found hostname, some stripv4 =>
      { l with hostname, data.ipaddresses := addUniqueString stripv4 l.data.ipaddresses }
    | .failed left, none =>
      let hostname := left.getD l.hostname
      { l with hostname, db := l.db.ipAddressAddCache ipaddr hostname false }
    | .failed left, some stripv4 =>
      let hostname := left.getD l.hostname
      { l with
        hostname
        data.ipaddresses := addUniqueString stripv4 l.data.ipaddresses
        db := (l.db.ipAddressAddCache ipaddr hostname false).ipAddressAddCache stripv4 hostname
          false }

/-- The full local name is added where one of the local names is. -/
def addFullLocalname (db : NetDb) (hostnames : List CStr) : List CStr :=
  if db.fulllocalname = [] ∨ db.fulllocalname ∈ hostnames then hostnames
  else if hostnames.any (· ∈ db.localnames) then addUniqueString db.fulllocalname hostnames
  else hostnames

def firstLoop (db : NetDb) (data : NdbCache) (answer : HostAnswer) : Look :=
  answer.addrs.foldl nameStep
    ⟨db.learn (answer.addrs.map AddrAnswer.told), data, [], answer.ipaddr⟩

/-- `GetHostAddressInfo` from `getaddrinfo` on. -/
def resolveHost (db : NetDb) (data : NdbCache) (answer : HostAnswer) : NetDb × Option NdbCache :=
  if answer.addrs = [] then (db, none)
  else
    let l := answer.addrs.foldl (hostStep inet) (db.firstLoop data answer)
    (l.db, some { l.data with
      hostnames := l.db.addFullLocalname l.data.hostnames
      cachedTime := l.db.clock })

/-- `GetHostAddressInfo`; a mapped address is first looked up as the IPv4 address. -/
def getHostAddressInfo (db : NetDb) (target : CStr) (data : NdbCache)
    (mapped own : HostAnswer) : NetDb × Option NdbCache :=
  if target = [] then (db, none)
  else match inet.ipv4Mapped target with
    | none => resolveHost inet db data own
    | some _ =>
      let first := resolveHost inet db data mapped
      resolveHost inet first.1 (first.2.getD data) own

/-! ## Reading the cache -/

/-- `CacheOutEx` -/
def cacheOutEx (db : NetDb) : NetDb :=
  { db with cachemap := fun k => (db.cachemap k).filter fun c =>
      ¬ (c.cachedTime ≠ 0 ∧ c.cachedTime + db.timeout < db.clock) }

/-- The key under which `SearchCache` looks. -/
def foundKey (db : NetDb) (target : CStr) : CStr :=
  if db.cachemap target = none ∧ zoneChar ∈ target then noZoneIndex target else target

/-- `SearchCache`; the test of the age is the wrong way round. -/
def searchCache (db : NetDb) (target : CStr) : NetDb × Option NdbCache :=
  if target = [] then (db, none)
  else match db.cachemap (db.foundKey target) with
    | none => (db, none)
    | some c =>
      if db.timeout ≠ 0 ∧ db.clock < c.cachedTime + db.timeout then
        ({ db with cachemap := Function.update db.cachemap (db.foundKey target) none }, none)
      else
        (db, some ⟨addUniqueStringList c.ipaddresses [], addUniqueStringList c.hostnames [],
          db.clock⟩)

/-! ## Runs -/

/-- What is called, after some seconds. -/
inductive Event
  | resolve (target : CStr) (data : NdbCache) (mapped own : HostAnswer)
  | search (target : CStr) (seconds : Nat)
  | cacheOut (seconds : Nat)

def step (db : NetDb) : Event → NetDb
  | .resolve target data mapped own => (getHostAddressInfo inet db target data mapped own).1
  | .search target seconds => ((db.wait seconds).searchCache target).1
  | .cacheOut seconds => (db.wait seconds).cacheOutEx

/-- The runs from any constructor call with a timeout. -/
def system : Steps NetDb Event where
  init db := ∃ timeout clock host, 0 < timeout ∧
    db = initializeLocalHostInfo inet timeout clock host
  step db e := some (db.step inet e)

/-- The key is fresh under its own text or, if it has a zone index, under the text without it. -/
def FreshKey (db : NetDb) (k : CStr) : Prop :=
  Expiry.Fresh db.timeout db.puts k db.clock ∨
    zoneChar ∈ k ∧ Expiry.Fresh db.timeout db.puts (noZoneIndex k) db.clock

/-- An answer so far associates the text with the key, or with the key without zone index. -/
def Associated (db : NetDb) (k x : CStr) : Prop :=
  ∃ a ∈ db.told, a.Links inet k x ∨ zoneChar ∈ k ∧ a.Links inet (noZoneIndex k) x

/-- What a lookup is to do: it finds what is fresh, and returns what the answers said. -/
structure SearchRight (db : NetDb) (k : CStr) : Prop where
  found : (db.searchCache k).2.isSome = true ↔ db.FreshKey k
  told : ∀ data, (db.searchCache k).2 = some data →
    ∀ x ∈ data.ipaddresses ++ data.hostnames, db.Associated inet k x

end NetDb
end Chm
