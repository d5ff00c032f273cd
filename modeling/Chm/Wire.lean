/-
The packets between chmpx processes, as they lie in memory.

`hton` converts a packet in place before it is sent and `ntoh` after it has been received.
Both go by the layout of the structure after the packet head, and a structure that comes
with a list of records has the number of them and their offset in it.  The host is little
endian, and an integer is converted by the width of the macro that is applied to it, which
need not be the width of the member.
-/
import Chm.Base
import Chm.Lib.Windows

namespace Chm
namespace Wire

open Windows (cell edit)

abbrev Byte := UInt8

/-- The memory from the first byte of a packet on. -/
abbrev Memory := Nat → Byte

/-! ## Integers -/

/-- The bytes of a member as an integer of more bytes; a `short` is extended by its sign. -/
def extend {w : Nat} (v : Fin w → Byte) (j : Nat) : Byte :=
  if h : j < w then v ⟨j, h⟩
  else if h : 0 < w then if 128 ≤ v ⟨w - 1, by omega⟩ then 255 else 0
  else 0

/-- What is done to a member: nothing, or the macro of so many bytes, such as `htobe16` or
`be64toh`. -/
inductive Conv
  | keep
  | swap (width : Nat)
  deriving DecidableEq, Repr

/-- The member is passed to the macro as an integer of `width` bytes, and the low bytes of
the result are stored. -/
def Conv.run (w : Nat) : Conv → (Fin w → Byte) → Fin w → Byte
  | .keep, v => v
  | .swap width, v => fun k => if k < width then extend v (width - 1 - k) else 0

def leNat : List Byte → Nat
  | [] => 0
  | b :: bytes => b.toNat + 256 * leNat bytes

def bytesAt (mem : Memory) (p n : Nat) : List Byte := (List.range n).map fun k => mem (p + k)

def readU64 (mem : Memory) (p : Nat) : Nat := leNat (bytesAt mem p 8)

/-- `be64toh` of the member at `p`. -/
def readBe64 (mem : Memory) (p : Nat) : Nat := leNat (bytesAt mem p 8).reverse

def readI64 (mem : Memory) (p : Nat) : Int :=
  if readU64 mem p < 2 ^ 63 then readU64 mem p else readU64 mem p - 2 ^ 64

/-- `CHM_OFFSET`. -/
def chmOffset (base : Nat) (offset : Int) : Nat := if 0 < offset then base + offset.toNat else base

/-! ## Structures -/

/-- A member of a packed structure, with what `HTON_..` and `NTOH_..` do to it. -/
structure Member where
  width : Nat
  hton : Conv
  ntoh : Conv
  deriving DecidableEq, Repr

def bytes (n : Nat) : Member := ⟨n, .keep, .keep⟩

def int64 : Member := ⟨8, .swap 8, .swap 8⟩

def int16 : Member := ⟨2, .swap 2, .swap 2⟩

/-- `sizeof` of a packed structure. -/
def sizeOf (members : List Member) : Nat := (members.map (·.width)).sum

def timespec : List Member := [int64, int64]

/-- `PCKID`: `chmpxid` and `msgid`. -/
def pckid : List Member := [int64, int64]

/-- `COMHEAD`: `version`, `type` and `c2ctype`, the ids, `peer_dept_msgid`,
`peer_term_msgid`, `mq_serial_num` and `hash`, and the time. -/
def comhead : List Member :=
  [int64, int64, int64] ++ pckid ++ pckid ++ [int64, int64, int64, int64] ++ timespec

/-- `COMPKT`: the head, `length` and `offset`. -/
def compkt : List Member := comhead ++ [int64, int64]

def compktTypeAt : Nat := 8

def compktLengthAt : Nat := sizeOf comhead

def compktOffsetAt : Nat := sizeOf comhead + 8

/-- `CHMPXHP_RAWPAIR[4]`, with the `port` of each pair. -/
def rawPairs (port : Member) : List Member := (List.replicate 4 [bytes niMaxhost, port]).flatten

/-- `CHMPXSSL`: three flags and five paths of `CHM_MAX_PATH_LEN`. -/
def chmpxSsl : List Member :=
  [bytes 1, bytes 1, bytes 1, bytes 1024, bytes 1024, bytes 1024, bytes 1024, bytes 1024]

/-- `CHMPXSVRV1`: `chmpxid`, `name`, `base_hash`, `pending_hash`, `port`, `ctlport`, `ssl`,
`last_status_time` and `status`. -/
def chmpxSvrV1 : List Member :=
  [int64, bytes niMaxhost, int64, int64, int16, int16] ++ chmpxSsl ++ [int64, int64]

/-- `CUK_MAX` and `CUSTOM_ID_SEED_MAX`. -/
def cukMax : Nat := 2048

def customIdSeedMax : Nat := 2048

/-- `CHMPXSVR`: the old record, `cuk`, `custom_seed`, `endpoints`, `ctlendpoints`,
`forward_peers` and `reverse_peers`. -/
def chmpxSvr : List Member :=
  chmpxSvrV1 ++ [bytes cukMax, bytes customIdSeedMax] ++ rawPairs int16 ++ rawPairs int16 ++
    rawPairs int16 ++ rawPairs int16

/-- `PXCOM_HEAD`: `type`, `result` and `length`. -/
def pxcomHead : List Member := [int64, int64, int64]

/-- `PXCOM_REQ_IDMAP`: `chmpxid` and `req_status`. -/
def pxcomReqIdmap : List Member := [int64, int64]

/-- `PXCOMMON_MERGE_PARAM`: `chmpxid`, `startts`, the four hashes, `replica_count` and
`is_expire_check`. -/
def pxcommonMergeParam : List Member :=
  [int64] ++ timespec ++ [int64, int64, int64, int64, int64, bytes 1]

/-- The port of a pair in `PXCOM_N2_CONINIT_REQ`: `HTON_..` takes `htobe16` and `NTOH_..`
takes `be64toh`. -/
def coninitPort : Member := ⟨2, .swap 2, .swap 8⟩

/-- `PXCOM_N2_CONINIT_REQ`: the head, `name`, `chmpxid`, `ctlport`, `cuk`, `custom_seed` and
the four arrays of pairs. -/
def pxcomN2ConinitReq : List Member :=
  pxcomHead ++ [bytes niMaxhost, int64, int16, bytes cukMax, bytes customIdSeedMax] ++
    rawPairs coninitPort ++ rawPairs coninitPort ++ rawPairs coninitPort ++ rawPairs coninitPort

/-! ## Types -/

/-- The types of `COM_PX2PX` that are converted, `CHMPX_COM_..`. -/
inductive PxcomType
  | statusReq | statusRes | coninitReq | coninitRes | joinRing | statusUpdate | statusConfirm
  | statusChange | mergeStart | mergeAbort | mergeComplete | serverDown | reqUpdatedata
  | resUpdatedata | resultUpdatedata | mergeSuspend | mergeNosuspend | mergeSuspendGet
  | mergeSuspendRes | versionReq | versionRes | n2StatusReq | n2StatusRes | n2ConinitReq
  | n2ConinitRes | n2JoinRing | n2StatusUpdate | n2StatusConfirm | n2StatusChange
  deriving DecidableEq, Repr

/-- The values of the types, from 1 on. -/
def PxcomType.all : List PxcomType :=
  [.statusReq, .statusRes, .coninitReq, .coninitRes, .joinRing, .statusUpdate, .statusConfirm,
    .statusChange, .mergeStart, .mergeAbort, .mergeComplete, .serverDown, .reqUpdatedata,
    .resUpdatedata, .resultUpdatedata, .mergeSuspend, .mergeNosuspend, .mergeSuspendGet,
    .mergeSuspendRes, .versionReq, .versionRes, .n2StatusReq, .n2StatusRes, .n2ConinitReq,
    .n2ConinitRes, .n2JoinRing, .n2StatusUpdate, .n2StatusConfirm, .n2StatusChange]

def PxcomType.ofCode (code : Nat) : Option PxcomType :=
  if code = 0 then none else PxcomType.all[code - 1]?

/-- The list that comes with a structure: where the structure has its number of records and
their offset. -/
structure RecordList where
  countAt : Nat
  offsetAt : Nat
  record : List Member

/-- A structure and its list. -/
structure Contents where
  members : List Member
  list : Option RecordList

/-- A structure that ends with `count` and the offset of the records. -/
def listed (members record : List Member) : Contents :=
  ⟨members ++ [int64, int64], some ⟨sizeOf members, sizeOf members + 8, record⟩⟩

/-- The structures `PXCOM_..` of the types. -/
def PxcomType.contents : PxcomType → Contents
  | .statusReq => ⟨pxcomHead, none⟩
  | .statusRes => listed pxcomHead chmpxSvrV1
  | .coninitReq => ⟨pxcomHead ++ [int64, int16], none⟩
  | .coninitRes => ⟨pxcomHead, none⟩
  | .joinRing => ⟨pxcomHead ++ chmpxSvrV1, none⟩
  | .statusUpdate => listed pxcomHead chmpxSvrV1
  | .statusConfirm => listed pxcomHead chmpxSvrV1
  | .statusChange => ⟨pxcomHead ++ chmpxSvrV1, none⟩
  | .mergeStart => ⟨pxcomHead, none⟩
  | .mergeAbort => ⟨pxcomHead, none⟩
  | .mergeComplete => ⟨pxcomHead, none⟩
  | .serverDown => ⟨pxcomHead ++ [int64], none⟩
  | .reqUpdatedata => listed (pxcomHead ++ pxcommonMergeParam) pxcomReqIdmap
  | .resUpdatedata => ⟨pxcomHead ++ timespec ++ [int64, int64], none⟩
  | .resultUpdatedata => ⟨pxcomHead ++ [int64, int64], none⟩
  | .mergeSuspend => ⟨pxcomHead, none⟩
  | .mergeNosuspend => ⟨pxcomHead, none⟩
  | .mergeSuspendGet => ⟨pxcomHead, none⟩
  | .mergeSuspendRes => ⟨pxcomHead ++ [bytes 1], none⟩
  | .versionReq => ⟨pxcomHead, none⟩
  | .versionRes => ⟨pxcomHead ++ [int64, int64, int64, bytes 32, bytes 32], none⟩
  | .n2StatusReq => ⟨pxcomHead, none⟩
  | .n2StatusRes => listed pxcomHead chmpxSvr
  | .n2ConinitReq => ⟨pxcomN2ConinitReq, none⟩
  | .n2ConinitRes => ⟨pxcomHead, none⟩
  | .n2JoinRing => ⟨pxcomHead ++ chmpxSvr, none⟩
  | .n2StatusUpdate => listed pxcomHead chmpxSvr
  | .n2StatusConfirm => listed pxcomHead chmpxSvr
  | .n2StatusChange => ⟨pxcomHead ++ chmpxSvr, none⟩

/-! ## `hton` and `ntoh` -/

/-- The memory, and the addresses and widths of what has been read or converted in it. -/
structure Tape where
  mem : Memory
  log : List (Nat × Nat)

namespace Tape

def touch (p w : Nat) (t : Tape) : Tape := { t with log := t.log ++ [(p, w)] }

def convertMember (conv : Conv) (w p : Nat) (t : Tape) : Tape :=
  match conv with
  | .keep => t
  | .swap width => { t.touch p w with mem := edit p (Conv.run w (.swap width)) t.mem }

end Tape

/-- `HTON_..` or `NTOH_..` of the structure at `p`. -/
def convert (conv : Member → Conv) : List Member → Nat → Tape → Tape
  | [], _, t => t
  | m :: members, p, t =>
    convert conv members (p + m.width) (t.convertMember (conv m) m.width p)

/-- The loop over the records at `base`, from the record `k` on: the number of them is read
again before each one. -/
def convertRecords (conv : Member → Conv) (record : List Member) (countAt base : Nat) :
    Nat → Nat → Tape → Tape
  | 0, _, t => t
  | fuel + 1, k, t =>
    let t := t.touch countAt 8
    if k < readI64 t.mem countAt then
      convertRecords conv record countAt base fuel (k + 1)
        (convert conv record (base + k * sizeOf record) t)
    else t

/-- A `long` is below it. -/
@[irreducible] def longEnd : Nat := 2 ^ 63

/-- The records of the structure at `p`; their number is a `long`. -/
def convertList (conv : Member → Conv) (list : Option RecordList) (p : Nat) (t : Tape) : Tape :=
  match list with
  | none => t
  | some l =>
    let t := t.touch (p + l.offsetAt) 8
    convertRecords conv l.record (p + l.countAt)
      (chmOffset p (readI64 t.mem (p + l.offsetAt))) longEnd 0 t

/-- `COM_PX2PX`. -/
def comPx2px : Nat := 2

/-- `hton`, with the length that it returns. -/
def hton (t : Tape) : Nat × Tape :=
  let t := ((t.touch compktTypeAt 8).touch compktOffsetAt 8).touch compktLengthAt 8
  let type := readU64 t.mem compktTypeAt
  let offset := readI64 t.mem compktOffsetAt
  let length := readU64 t.mem compktLengthAt
  let t := convert Member.hton compkt 0 t
  if type = comPx2px then
    let p := chmOffset 0 offset
    let t := t.touch p 8
    match PxcomType.ofCode (readU64 t.mem p) with
    | none => (length, t)
    | some comtype =>
      let c := comtype.contents
      (length, convert Member.hton c.members p (convertList Member.hton c.list p t))
  else (length, t)

/-- `ntoh`. -/
def ntoh (isExceptCompkt : Bool) (t : Tape) : Tape :=
  let t := if isExceptCompkt then t else convert Member.ntoh compkt 0 t
  let t := t.touch compktTypeAt 8
  if readU64 t.mem compktTypeAt = comPx2px then
    let t := t.touch compktOffsetAt 8
    let p := chmOffset 0 (readI64 t.mem compktOffsetAt)
    let t := t.touch p 8
    match PxcomType.ofCode (readBe64 t.mem p) with
    | none => t
    | some type =>
      let c := type.contents
      convertList Member.ntoh c.list p (convert Member.ntoh c.members p t)
  else t

end Wire
end Chm
