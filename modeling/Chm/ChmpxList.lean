/-
The chmpx manager: the shared area of `CHMPXLIST` nodes, the two hash arrays, the
chmpxid map, and the heads and counters of the server, slave and free lists.

A node of the area is a pointer; its members are kept as one map a member, so
that an operation shows which of them it writes.  A `chmpxlist_lap` object is its
cursor, the pointer it is at or null.  A loop over the area is bounded by
`chmpxCount`, the number of its nodes, which a chain cannot exceed.
-/
import Chm.Chmpx
import Chm.Lib.Chains

namespace Chm

/-- `CHMPXMAN` and the areas it points to. -/
structure ChmpxMan where
  group : CStr
  replicaCount : Int
  chmpxCount : Nat
  /-- The members of `CHMPXLIST`, a map each. -/
  links : Links Ptr
  same : Ptr → Option Ptr
  chmpx : Ptr → Chmpx
  chmpxidMap : Nat → Option Ptr
  chmpxBaseSrvs : ChmHash → Option Ptr
  chmpxPendSrvs : ChmHash → Option Ptr
  chmpxSelf : Option Ptr
  chmpxBhashCount : Nat
  chmpxServerCount : Nat
  chmpxServers : Option Ptr
  chmpxSlaveCount : Int
  chmpxSlaves : Option Ptr
  chmpxFreeCount : Nat
  chmpxFrees : Option Ptr
  /-- The counter of the free socket list, and its length. -/
  sockFreeCount : Nat
  sockFrees : Nat
  isOperating : Bool
  lastChmpxid : ChmpxId

/-- The cursor of a `chmpxlist_lap`. -/
abbrev Cursor := Option Ptr

namespace ChmpxMan

/-! ## Writing a member -/

def setChmpx (m : ChmpxMan) (p : Ptr) (c : Chmpx) : ChmpxMan :=
  { m with chmpx := Function.update m.chmpx p c }

def setLinks (m : ChmpxMan) (links : Links Ptr) : ChmpxMan := { m with links := links }

/-- The chmpxid map and the `same` links, which are written together. -/
def setMap (m : ChmpxMan) (same : Ptr → Option Ptr) (map : Nat → Option Ptr) : ChmpxMan :=
  { m with same := same, chmpxidMap := map }

/-- The hash arrays. -/
def setSrvs (m : ChmpxMan) (base pend : ChmHash → Option Ptr) : ChmpxMan :=
  { m with chmpxBaseSrvs := base, chmpxPendSrvs := pend }

/-- The counter and the head of the server list. -/
def setServers (m : ChmpxMan) (count : Nat) (head : Option Ptr) : ChmpxMan :=
  { m with chmpxServerCount := count, chmpxServers := head }

/-- The counter and the head of the slave list. -/
def setSlaves (m : ChmpxMan) (count : Int) (head : Option Ptr) : ChmpxMan :=
  { m with chmpxSlaveCount := count, chmpxSlaves := head }

/-- The counter and the head of the free list. -/
def setFrees (m : ChmpxMan) (count : Nat) (head : Option Ptr) : ChmpxMan :=
  { m with chmpxFreeCount := count, chmpxFrees := head }

/-- The counter and the length of the free socket list. -/
def setSocks (m : ChmpxMan) (count length : Nat) : ChmpxMan :=
  { m with sockFreeCount := count, sockFrees := length }

def setSelf (m : ChmpxMan) (self : Option Ptr) : ChmpxMan := { m with chmpxSelf := self }

def setSame (m : ChmpxMan) (p : Ptr) (q : Option Ptr) : ChmpxMan :=
  m.setMap (Function.update m.same p q) m.chmpxidMap

def setChmpxidMap (m : ChmpxMan) (i : Nat) (q : Option Ptr) : ChmpxMan :=
  m.setMap m.same (Function.update m.chmpxidMap i q)

/-- Point the base slot of a valid hash to `p`.  The slot of the hash that the
node had before keeps its pointer. -/
def writeBase (m : ChmpxMan) (p : Ptr) (hash : ChmHash) : ChmpxMan :=
  if hash = chmInvalidHashVal then m
  else m.setSrvs (Function.update m.chmpxBaseSrvs hash (some p)) m.chmpxPendSrvs

/-- Point the pending slot of a valid hash to `p`. -/
def writePend (m : ChmpxMan) (p : Ptr) (hash : ChmHash) : ChmpxMan :=
  if hash = chmInvalidHashVal then m
  else m.setSrvs m.chmpxBaseSrvs (Function.update m.chmpxPendSrvs hash (some p))

/-! ## `chmpx_lap` on a node of the area -/

/-- `chmpx_lap::InitializeServer` from a record. -/
def initializeServer (env : Env) (type : ChmpxIdSeedType) (svr : ChmpxSvr) (p : Ptr)
    (m : ChmpxMan) : ChmpxMan :=
  let (ok, c) := Chmpx.initializeServer env type m.group svr (m.chmpx p)
  let m := m.setChmpx p c
  if ok then (m.writeBase p c.baseHash).writePend p c.pendingHash else m

/-- `chmpx_lap::InitializeServer` or `InitializeSlave` with parameters, through a
pointer that may be null. -/
def initializeAt (env : Env) (type : ChmpxIdSeedType) (group : CStr) (mode : ChmpxMode)
    (par : ChmpxParam) (p : Option Ptr) (m : ChmpxMan) : ChmpxMan :=
  match p with
  | none => m
  | some p =>
    match Chmpx.initializeChmpx env type group mode par with
    | none => m
    | some c => m.setChmpx p c

/-- `chmpx_lap::Set(base, pending, type)`. -/
def set (env : Env) (base pending : ChmHash) (type : HashTg) (p : Ptr) (m : ChmpxMan) :
    Bool × ChmpxMan :=
  match (m.chmpx p).set (env.now p) base pending type with
  | none => (false, m)
  | some c =>
    let m := m.setChmpx p c
    let m := if type.isBase then m.writeBase p base else m
    (true, if type.isPending then m.writePend p pending else m)

/-- `chmpx_lap::SetStatus`. -/
def setStatus (env : Env) (status : ChmpxSts) (p : Ptr) (m : ChmpxMan) : Bool × ChmpxMan :=
  match (m.chmpx p).setStatus (env.now p) status with
  | none => (false, m)
  | some c => (true, m.setChmpx p c)

/-- `chmpx_lap::MergeChmpxSvr`; a slot is written when the hash changes. -/
def mergeChmpxSvr (env : Env) (type : ChmpxIdSeedType) (svr : ChmpxSvr) (p : Ptr)
    (m : ChmpxMan) : ChmpxMan :=
  match (m.chmpx p).mergeChmpxSvr env type svr with
  | none => m
  | some c =>
    let old := m.chmpx p
    let m := m.setChmpx p c
    let m := if old.baseHash ≠ c.baseHash then m.writeBase p c.baseHash else m
    if old.pendingHash ≠ c.pendingHash then m.writePend p c.pendingHash else m

/-! ## Moving in a list -/

/-- Where `ToFirst` leaves a cursor. -/
def first (m : ChmpxMan) (p : Ptr) : Ptr := m.links.first m.chmpxCount p

/-- The nodes that the loop `for(cur = ...; cur; cur = cur->next)` visits. -/
def nodesFrom (m : ChmpxMan) (p : Ptr) : List Ptr := m.links.walk m.chmpxCount (some p)

/-- The nodes of the list of a cursor, after `ToFirst`. -/
def nodes (m : ChmpxMan) : Cursor → List Ptr
  | none => []
  | some p => m.nodesFrom (m.first p)

/-- `GetFirstPtr`: the pointer it returns is where it leaves the cursor. -/
def getFirstPtr (m : ChmpxMan) : Cursor → Cursor
  | none => none
  | some p => some (m.first p)

/-- `ToNext(false, false, false, false)`: to the next node, whatever its status,
or nowhere. -/
def toNext (m : ChmpxMan) (p : Ptr) : Option Ptr := m.links.next p

/-! ## The chmpxid map -/

/-- The nodes of a bucket, in the order of their `same` links. -/
def bucket (m : ChmpxMan) (chmpxid : ChmpxId) : List Ptr :=
  Links.follow m.same m.chmpxCount (m.chmpxidMap (chmpxid % chmpxIdMapSize))

/-- Write through the pointer that leads to the node after `before` in a bucket:
the map slot, or the `same` of the last node of `before`. -/
def linkBucket (m : ChmpxMan) (chmpxid : ChmpxId) (before : List Ptr) (q : Option Ptr) :
    ChmpxMan :=
  match before.getLast? with
  | none => m.setChmpxidMap (chmpxid % chmpxIdMapSize) q
  | some r => m.setSame r q

/-- `SaveChmpxIdMap`. -/
def saveChmpxIdMap (m : ChmpxMan) (p : Ptr) : ChmpxMan :=
  let chmpxid := (m.chmpx p).chmpxid
  if chmpxid = chmInvalidChmpxId then m
  else
    let chain := m.bucket chmpxid
    let m := if p ∈ chain then m else m.linkBucket chmpxid chain (some p)
    if m.same p = none then m else m.setSame p none

/-- `RetrieveChmpxIdMap`. -/
def retrieveChmpxIdMap (m : ChmpxMan) (p : Ptr) : ChmpxMan :=
  let chmpxid := (m.chmpx p).chmpxid
  let chain := m.bucket chmpxid
  let m :=
    if chmpxid = chmInvalidChmpxId ∨ p ∉ chain then m
    else m.linkBucket chmpxid (chain.takeWhile (· ≠ p)) (m.same p)
  m.setSame p none

/-- `SearchChmpxid` from a cursor at `cur`: the first node of the bucket that has
the chmpxid and is a server exactly when the node at the cursor is. -/
def searchChmpxid (m : ChmpxMan) (cur : Ptr) (chmpxid : ChmpxId) : Option Ptr :=
  if chmpxid = chmInvalidChmpxId then none
  else (m.bucket chmpxid).find? fun p =>
    (m.chmpx cur).isServerMode = (m.chmpx p).isServerMode && chmpxid = (m.chmpx p).chmpxid

/-- `Find(chmpxid)`: where it moves the cursor. -/
def find (m : ChmpxMan) (cur : Cursor) (chmpxid : ChmpxId) : Option Ptr :=
  cur.bind fun p => m.searchChmpxid p chmpxid

/-! ## Taking nodes out and putting them in -/

/-- `PopFront`: the node, and the cursor of the rest. -/
def popFront (m : ChmpxMan) : Cursor → Option Ptr × Cursor × ChmpxMan
  | none => (none, none, m)
  | some cur =>
    let first := m.first cur
    let next := m.links.next first
    let links := (m.links.setPrev? next none).setNext first none
    (some first, next, m.setLinks links)

/-- `PopAny`: the node after the cursor, or the one at it when it is the last. -/
def popAny (m : ChmpxMan) : Cursor → Option Ptr × Cursor × ChmpxMan
  | none => (none, none, m)
  | some cur =>
    match m.links.next cur with
    | some result =>
      let tmp := m.links.next result
      let links := (m.links.setNext cur tmp).setPrev? tmp (some cur)
      (some result, some cur, m.setLinks ((links.setPrev result none).setNext result none))
    | none =>
      let before := m.links.prev cur
      let links := m.links.setNext? before none
      (some cur, before, m.setLinks ((links.setPrev cur none).setNext cur none))

/-- `Push` at a cursor that has no predecessor, which is how it is called. -/
def push (m : ChmpxMan) (cur : Cursor) (p : Ptr) : Cursor × ChmpxMan :=
  let links := (m.links.setPrev p (cur.bind m.links.prev)).setNext p cur
  (some p, (m.setLinks (links.setPrev? cur (some p))).saveChmpxIdMap p)

/-- `PushBack`. -/
def pushBack (m : ChmpxMan) (cur : Cursor) (p : Ptr) : Cursor × ChmpxMan :=
  let last := cur.bind fun q => (m.nodesFrom q).getLast?
  (some p, (m.setLinks (m.links.linkLast last p)).saveChmpxIdMap p)

/-- `Insert`: before the first node that is greater than `p`.  The loop never
remembers the node it leaves, so when there is none the node goes to
`PushBack`. -/
def insert (type : ChmpxIdSeedType) (m : ChmpxMan) (cur : Ptr) (p : Ptr) :
    Cursor × ChmpxMan :=
  let first := m.first cur
  match (m.nodesFrom first).find? fun q => 0 > (m.chmpx q).compareOrder type (m.chmpx p) with
  | some q => (some first, (m.setLinks (m.links.linkBefore q p)).saveChmpxIdMap p)
  | none => m.pushBack (some first) p

/-- `Retrieve(void)`: the node at the cursor leaves its list and the map; the
cursor goes to the node after it, else to the one before it. -/
def retrieve (m : ChmpxMan) (p : Ptr) : Cursor × ChmpxMan :=
  let cur := (m.links.next p).or (m.links.prev p)
  (cur, (m.setLinks (m.links.unlink p)).retrieveChmpxIdMap p)

/-- `Clear(eqfd)` of a list node; with an event descriptor the sockets of the
node go to the free socket list. -/
def clear (m : ChmpxMan) (eqfd : Bool) (p : Ptr) : ChmpxMan :=
  let m := m.retrieveChmpxIdMap p
  let m := m.setLinks ((m.links.setPrev p none).setNext p none)
  let socks := if eqfd then (m.chmpx p).socklist.length else 0
  (m.setSocks (m.sockFreeCount + socks) (m.sockFrees + socks)).setChmpx p Chmpx.cleared

end ChmpxMan
end Chm
