/-
Identifiers, names and the chmpxid of a node.

A name is a C string, the list of its bytes before the terminating zero.  The
chmpxid of a node is two hashes of a seed that `makeBaseSeed` builds from the
group and, by seed type, from the host name and control port, the cuk, the
control endpoints or the custom seed.

`Env` collects what the source calls and does not contain: the two hash
functions and the two number formats of the k2hash library, the answers of the
host name database, and the clock.
-/
import Chm.Time

namespace Chm

/-- A C string: its bytes before the terminating zero. -/
abbrev CStr := List Nat

instance : LawfulBEq CStr := List.instLawfulBEq

/-- `strcmp`; only the sign of its result is used. -/
def strcmp : CStr → CStr → Int
  | [], [] => 0
  | [], _ :: _ => -1
  | _ :: _, [] => 1
  | a :: as, b :: bs => if a = b then strcmp as bs else if a < b then -1 else 1

abbrev ChmpxId := Nat
abbrev ChmHash := Nat

/-- A `CHMPXLIST` pointer: the index of a node in the shared area. -/
abbrev Ptr := Nat

def chmInvalidChmpxId : ChmpxId := 2 ^ 64 - 1
def chmInvalidHashVal : Nat := 2 ^ 64 - 1
def chmInvalidPort : Int := -1
def chmInvalidSock : Int := -1
def chmpxIdMapSize : Nat := 4096
def maxChmpxCount : Nat := 1024 * 32
def niMaxhost : Nat := 1025

inductive ChmpxMode
  | unknown
  | server
  | slave
  deriving DecidableEq, Repr

inductive ChmpxIdSeedType
  | name
  | cuk
  | ctlEndpoints
  | custom
  deriving DecidableEq, Repr

/-- `CHMPXHP_RAWPAIR`. -/
structure HostPort where
  name : CStr
  port : Int
  deriving DecidableEq, Repr

/-- `compare_hostport_pairs`: every pair of the first array is in the second. -/
def compareHostportPairs (phpp1 phpp2 : List HostPort) : Bool :=
  phpp1.all fun hp1 => phpp2.any fun hp2 => hp1.name = hp2.name && hp1.port = hp2.port

/-- What the modelled code calls outside this repository. -/
structure Env where
  /-- `K2H_HASH_FUNC` and `K2H_2ND_HASH_FUNC`. -/
  hash : CStr → Nat
  hash2nd : CStr → Nat
  /-- `to_hexstring` and `to_string` on a `short`. -/
  toHexstring : Int → CStr
  toDecstring : Int → CStr
  /-- `ChmNetDb` look-ups; the empty list is a failed one. -/
  getHostnameList : CStr → List CStr
  getIpAddressStringList : CStr → List CStr
  getAllHostList : CStr → List CStr
  /-- `IsInHostnameList` of a name against a one-element list. -/
  isInHostnameList : CStr → CStr → Bool
  /-- `get_basis_update_time` of this process. -/
  basis : TimeT
  /-- The clock as the node at a pointer is stamped. -/
  now : Ptr → TimeT

def low32 (h : Nat) : Nat := h % 2 ^ 32

/-- `COMPOSE64`. -/
def compose64 (hi low : Nat) : Nat := low32 hi * 2 ^ 32 + low32 low

/-- `get_hostport_pairs_string`. -/
def getHostportPairsString (env : Env) (pair : List HostPort) : CStr :=
  pair.foldl (fun result hp =>
    if hp.name = [] ∧ hp.port = chmInvalidPort then result
    else (if result = [] then [] else result ++ [44]) ++ hp.name ++
      (if hp.port = chmInvalidPort then [] else 58 :: env.toDecstring hp.port)) []

/-- `MakeBaseSeed`. -/
def makeBaseSeed (env : Env) (group : CStr) (type : ChmpxIdSeedType) (hostname : CStr)
    (ctlport : Int) (cuk ctleps custom : CStr) : Option CStr :=
  if group = [] then none
  else
    let seed := group ++ [58]
    match type with
    | .name =>
      if hostname = [] then none else some (seed ++ hostname ++ [58] ++ env.toHexstring ctlport)
    | .cuk => if cuk = [] then none else some (seed ++ cuk)
    | .ctlEndpoints =>
      if ctleps ≠ [] then some (seed ++ ctleps)
      else if hostname = [] then none
      else some (seed ++ hostname ++ [58] ++ env.toHexstring ctlport)
    | .custom => if custom = [] then none else some (seed ++ custom)

/-- `MakeChmpxId`. -/
def makeChmpxId (env : Env) (group : CStr) (type : ChmpxIdSeedType) (hostname : CStr)
    (ctlport : Int) (cuk ctleps custom : CStr) : ChmpxId :=
  if group = [] ∨ hostname = [] then 0
  else
    match makeBaseSeed env group type hostname ctlport cuk ctleps custom with
    | none => 0
    | some seed =>
      let result := compose64 (env.hash seed) (env.hash2nd seed)
      if result = chmInvalidChmpxId then 2 ^ 64 - 2 else result

/-- A computed chmpxid is never the invalid one. -/
theorem makeChmpxId_ne_invalid (env : Env) (group : CStr) (type : ChmpxIdSeedType)
    (hostname : CStr) (ctlport : Int) (cuk ctleps custom : CStr) :
    makeChmpxId env group type hostname ctlport cuk ctleps custom ≠ chmInvalidChmpxId := by
  rw [makeChmpxId]
  split
  · decide
  · split
    · decide
    · dsimp only
      split
      · decide
      · assumption

end Chm
