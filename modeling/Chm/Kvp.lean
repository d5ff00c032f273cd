/-
Keys and values as bytes, in C and in C++.

`cvt_kvp_bin` and `ChmKVPair::Put` both write each part behind its length, eight bytes with
the most significant one first; `cvt_bin_kvp` and `ChmKVPair::Load` point into these bytes or
copy them out.  `codecs_interchange` says that the two writers write the same and that each
reader finds the key and the value again.
-/
import Chm.Stream

namespace Chm
namespace Kvp

open Wire
open Chm.Stream (be64 putBin)
open Chm.Stream.StreamBuf (length_be64)

/-! ## Memory -/

/-- The bytes of a `size_t` in memory. -/
def sizeBytes (v : Nat) : List Byte := (List.range 8).map fun k => UInt8.ofNat (v / 256 ^ k)

def htobe64 (v : Nat) : Nat := leNat (sizeBytes v).reverse

def be64toh (v : Nat) : Nat := leNat (sizeBytes v).reverse

/-- The loop that writes the bytes of a length one by one. -/
def setBytes (p : Nat) (bytes : List Byte) (mem : Memory) : Memory := fun i =>
  if p ≤ i ∧ i < p + bytes.length then bytes.getD (i - p) 0 else mem i

def memcpy (p q n : Nat) (mem : Memory) : Memory := fun i =>
  if p ≤ i ∧ i < p + n then mem (q + (i - p)) else mem i

/-! ## The C functions -/

/-- `CHMBIN`; a null pointer is 0. -/
structure ChmBin where
  byptr : Nat
  length : Nat
  deriving DecidableEq, Repr

/-- `CHMKVP`. -/
structure ChmKvp where
  key : ChmBin
  val : ChmBin
  deriving DecidableEq, Repr

/-- `cvt_kvp_bin`: the buffer, its length and the memory after it.  `malloc` is the buffer that
is allocated, none when there is no memory. -/
def cvtKvpBin (malloc : Option Nat) (kvp : ChmKvp) (mem : Memory) : Option Nat × Nat × Memory :=
  let length := (kvp.key.length + kvp.val.length + 8 * 2) % 2 ^ 64
  match malloc with
  | none => (none, length, mem)
  | some result =>
    let mem := setBytes result (sizeBytes (htobe64 kvp.key.length)) mem
    let mem := if 0 < kvp.key.length then
      memcpy (result + 8) kvp.key.byptr kvp.key.length mem else mem
    let setpos := 8 + kvp.key.length
    let mem := setBytes (result + setpos) (sizeBytes (htobe64 kvp.val.length)) mem
    let mem := if 0 < kvp.val.length then
      memcpy (result + (setpos + 8)) kvp.val.byptr kvp.val.length mem else mem
    (some result, length, mem)

/-- `cvt_bin_kvp`. -/
def cvtBinKvp (bydata length : Nat) (mem : Memory) : Option ChmKvp :=
  if bydata = 0 ∨ length < 8 * 2 then none
  else
    let keylen := be64toh (readU64 mem bydata)
    let key := if 0 < keylen then bydata + 8 else 0
    let readpos := (8 + keylen) % 2 ^ 64
    let vallen := be64toh (readU64 mem (bydata + readpos))
    let val := if 0 < vallen then bydata + (readpos + 8) else 0
    some ⟨⟨key, keylen⟩, ⟨val, vallen⟩⟩

/-! ## The classes -/

/-- `ChmBinData`. -/
structure BinData where
  byptr : Nat
  length : Nat
  isAllocate : Bool
  deriving DecidableEq, Repr

namespace BinData

/-- `Clear`. -/
def empty : BinData := ⟨0, 0, false⟩

/-- `Set` of bytes, and the memory after it. -/
def set (malloc : Option Nat) (bydata bylength : Nat) (isDuplicate : Bool) (mem : Memory) :
    Bool × BinData × Memory :=
  if bydata ≠ 0 ∧ 0 < bylength then
    if isDuplicate then
      match malloc with
      | none => (false, empty, mem)
      | some p => (true, ⟨p, bylength, true⟩, memcpy p bydata bylength mem)
    else (true, ⟨bydata, bylength, false⟩, mem)
  else (true, empty, mem)

def load (malloc : Option Nat) (bydata : Nat) (isCvtNtoh isDuplicate : Bool) (mem : Memory) :
    Bool × BinData × Memory :=
  if bydata = 0 then (true, empty, mem)
  else
    let length := if isCvtNtoh then be64toh (readU64 mem bydata) else readU64 mem bydata
    if 0 < length then
      if isDuplicate then
        match malloc with
        | none => (false, empty, mem)
        | some p => (true, ⟨p, length, true⟩, memcpy p (bydata + 8) length mem)
      else (true, ⟨bydata + 8, length, false⟩, mem)
    else (true, empty, mem)

/-- `Put` into a buffer. -/
def put (bydata : Nat) (isCvtHton : Bool) (b : BinData) (mem : Memory) : Bool × Memory :=
  if bydata = 0 then (false, mem)
  else
    let length := if isCvtHton then htobe64 b.length else b.length
    let mem := setBytes bydata (sizeBytes length) mem
    (true, if 0 < b.length then memcpy (bydata + 8) b.byptr b.length mem else mem)

end BinData

/-- `ChmKVPair`. -/
structure KVPair where
  key : BinData
  value : BinData
  deriving DecidableEq, Repr

namespace KVPair

def empty : KVPair := ⟨.empty, .empty⟩

/-- `SetKey` and `SetValue` of bytes. -/
def set (mallocKey mallocVal : Option Nat) (bykey keylen byval vallen : Nat) (isDuplicate : Bool)
    (mem : Memory) : Bool × KVPair × Memory :=
  let (keySet, key, mem) := BinData.set mallocKey bykey keylen isDuplicate mem
  let (valueSet, value, mem) := BinData.set mallocVal byval vallen isDuplicate mem
  (keySet && valueSet, ⟨key, value⟩, mem)

def load (mallocKey mallocVal : Option Nat) (bydata : Nat) (isCvtNtoh isDuplicate : Bool)
    (mem : Memory) : Bool × KVPair × Memory :=
  let (keyLoaded, key, mem) := BinData.load mallocKey bydata isCvtNtoh isDuplicate mem
  if !keyLoaded then (false, empty, mem)
  else
    let byvalue := if bydata ≠ 0 then bydata + (key.length + 8) % 2 ^ 64 else bydata
    let (valueLoaded, value, mem) := BinData.load mallocVal byvalue isCvtNtoh isDuplicate mem
    if !valueLoaded then (false, empty, mem) else (true, ⟨key, value⟩, mem)

/-- `Put` into a buffer. -/
def put (bydata : Nat) (isCvtHton : Bool) (pair : KVPair) (mem : Memory) : Bool × Memory :=
  if bydata = 0 then (false, mem)
  else
    let (keyPut, mem) := pair.key.put bydata isCvtHton mem
    if !keyPut then (false, mem)
    else pair.value.put (bydata + (pair.key.length + 8) % 2 ^ 64) isCvtHton mem

/-- `Put` that allocates the buffer: the buffer, its length and the memory after it. -/
def putAlloc (malloc : Option Nat) (isCvtHton : Bool) (pair : KVPair) (mem : Memory) :
    Option Nat × Nat × Memory :=
  let length := (pair.key.length + pair.value.length + 8 * 2) % 2 ^ 64
  match malloc with
  | none => (none, 0, mem)
  | some p =>
    let (done, mem) := pair.put p isCvtHton mem
    if !done then (none, 0, mem) else (some p, length, mem)

end KVPair

/-! ## What memory holds -/

/-- The bytes at a pointer are these. -/
def HoldsAt (mem : Memory) (p n : Nat) (data : List Byte) : Prop := bytesAt mem p n = data

/-- Two blocks of memory do not overlap. -/
def Apart (p n q m : Nat) : Prop := p + n ≤ q ∨ q + m ≤ p

variable {mem mem' : Memory} {p q n m : Nat} {data bytes key val : List Byte}

theorem HoldsAt.length (h : HoldsAt mem p n data) : n = data.length := by
  rw [← h, length_bytesAt]

theorem HoldsAt.nil (mem : Memory) (p : Nat) : HoldsAt mem p 0 [] := rfl

theorem HoldsAt.congr (h : HoldsAt mem p n data)
    (hsame : ∀ i, p ≤ i → i < p + n → mem' i = mem i) : HoldsAt mem' p n data := by
  rw [HoldsAt, bytesAt_congr hsame]
  exact h

theorem bytesAt_add (mem : Memory) (p n m : Nat) :
    bytesAt mem p (n + m) = bytesAt mem p n ++ bytesAt mem (p + n) m := by
  rw [bytesAt, List.range_add, List.map_append, List.map_map]
  refine congrArg _ (List.map_congr_left fun k _ => ?_)
  rw [Function.comp_apply, Nat.add_assoc]

/-- Bytes one behind the other. -/
theorem HoldsAt.append {more : List Byte} (h : HoldsAt mem p n data)
    (hmore : HoldsAt mem (p + n) m more) : HoldsAt mem p (n + m) (data ++ more) := by
  rw [HoldsAt, bytesAt_add, h, hmore]

theorem HoldsAt.split {more : List Byte}
    (h : HoldsAt mem p (data.length + more.length) (data ++ more)) :
    HoldsAt mem p data.length data ∧ HoldsAt mem (p + data.length) more.length more := by
  rw [HoldsAt, bytesAt_add] at h
  exact List.append_inj h (length_bytesAt ..)

theorem setBytes_holds (p : Nat) (bytes : List Byte) (mem : Memory) :
    HoldsAt (setBytes p bytes mem) p bytes.length bytes := by
  refine List.ext_getElem (length_bytesAt ..) fun i hi hi' => ?_
  simp [bytesAt, setBytes, hi']

theorem setBytes_outside {i : Nat} (h : i < p ∨ p + bytes.length ≤ i) :
    setBytes p bytes mem i = mem i := if_neg (by omega)

theorem memcpy_outside {i : Nat} (h : i < p ∨ p + n ≤ i) : memcpy p q n mem i = mem i :=
  if_neg (by omega)

theorem memcpy_holds (h : HoldsAt mem q n data) (p : Nat) :
    HoldsAt (memcpy p q n mem) p n data := by
  rw [← h]
  refine List.map_congr_left fun k hk => ?_
  rw [List.mem_range] at hk
  rw [memcpy, if_pos (by omega), Nat.add_sub_cancel_left]

/-! ## Lengths -/

theorem length_sizeBytes (v : Nat) : (sizeBytes v).length = 8 := by simp [sizeBytes]

/-- The digits of a number made of bytes are these bytes. -/
theorem digits_leNat (bytes : List Byte) :
    (List.range bytes.length).map (fun k => UInt8.ofNat (leNat bytes / 256 ^ k)) = bytes := by
  induction bytes with
  | nil => rfl
  | cons b bytes ih =>
    have hfirst : UInt8.ofNat (leNat (b :: bytes) / 256 ^ 0) = b := by
      rw [Nat.pow_zero, Nat.div_one, leNat]
      refine UInt8.toNat_inj.mp ?_
      rw [UInt8.toNat_ofNat', Nat.add_mul_mod_self_left]
      exact Nat.mod_eq_of_lt b.toNat_lt
    have hrest : (fun k => UInt8.ofNat (leNat (b :: bytes) / 256 ^ k)) ∘ Nat.succ =
        fun k => UInt8.ofNat (leNat bytes / 256 ^ k) := by
      funext k
      have hb : (b.toNat + 256 * leNat bytes) / 256 = leNat bytes := by
        have := b.toNat_lt
        omega
      show UInt8.ofNat ((b.toNat + 256 * leNat bytes) / 256 ^ (k + 1)) = _
      rw [Nat.pow_succ', ← Nat.div_div_eq_div_mul, hb]
    rw [List.length_cons, List.range_succ_eq_map, List.map_cons, List.map_map, hfirst, hrest, ih]

theorem sizeBytes_leNat (h : bytes.length = 8) : sizeBytes (leNat bytes) = bytes := by
  have hdigits := digits_leNat bytes
  rwa [h] at hdigits

/-- The loop writes the length with its most significant byte first. -/
theorem sizeBytes_htobe64 (v : Nat) : sizeBytes (htobe64 v) = be64 v :=
  sizeBytes_leNat (by rw [List.length_reverse, length_sizeBytes])

/-- The length in front of a part is read back. -/
theorem be64toh_readU64 (h : HoldsAt mem p 8 (be64 n)) (hn : n < 2 ^ 64) :
    be64toh (readU64 mem p) = n := by
  have hbytes : bytesAt mem p 8 = be64 n := h
  rw [be64toh, readU64, hbytes, sizeBytes_leNat (length_be64 n), be64, List.reverse_reverse,
    leNat_digits]
  exact Nat.mod_eq_of_lt hn

theorem length_putBin (data : List Byte) : (putBin data).length = 8 + data.length := by
  rw [putBin, List.length_append, length_be64]

/-! ## Writing -/

/-- What both writers do for a part: its length, then its bytes if there are any. -/
def putPart (p byptr length : Nat) (mem : Memory) : Memory :=
  let mem := setBytes p (sizeBytes (htobe64 length)) mem
  if 0 < length then memcpy (p + 8) byptr length mem else mem

theorem putPart_outside {i byptr : Nat} (h : i < p ∨ p + (8 + n) ≤ i) :
    putPart p byptr n mem i = mem i := by
  have hset : setBytes p (sizeBytes (htobe64 n)) mem i = mem i :=
    setBytes_outside (by rw [length_sizeBytes]; omega)
  rw [putPart]
  split
  · rw [memcpy_outside (by omega), hset]
  · exact hset

theorem putPart_holds {byptr : Nat} (h : HoldsAt mem byptr n data)
    (hapart : Apart p (8 + n) byptr n) :
    HoldsAt (putPart p byptr n mem) p (8 + n) (putBin data) := by
  have hset := setBytes_holds p (sizeBytes (htobe64 n)) mem
  rw [sizeBytes_htobe64, length_be64] at hset
  rw [putPart, putBin, ← h.length]
  by_cases hn : 0 < n
  · rw [if_pos hn]
    have hkept : HoldsAt (setBytes p (sizeBytes (htobe64 n)) mem) byptr n data := by
      refine h.congr fun i hi hi' => setBytes_outside ?_
      rw [length_sizeBytes]
      rw [Apart] at hapart
      omega
    refine HoldsAt.append ?_ (memcpy_holds hkept (p + 8))
    rw [sizeBytes_htobe64]
    exact hset.congr fun i hi hi' => memcpy_outside (by omega)
  · obtain rfl : n = 0 := by omega
    obtain rfl : data = [] := h.symm.trans rfl
    rw [if_neg hn, sizeBytes_htobe64]
    exact hset.append (HoldsAt.nil _ _)

/-- A key and a value one behind the other. -/
theorem putParts_holds {bykey byval : Nat} (hkey : HoldsAt mem bykey n key)
    (hval : HoldsAt mem byval m val) (hkeyApart : Apart p (8 + n + (8 + m)) bykey n)
    (hvalApart : Apart p (8 + n + (8 + m)) byval m) :
    HoldsAt (putPart (p + (8 + n)) byval m (putPart p bykey n mem)) p (8 + n + (8 + m))
      (putBin key ++ putBin val) := by
  rw [Apart] at hkeyApart hvalApart
  refine HoldsAt.append ?_ ?_
  · refine (putPart_holds hkey (by rw [Apart]; omega)).congr fun i hi hi' => ?_
    exact putPart_outside (by omega)
  · refine putPart_holds (hval.congr fun i hi hi' => ?_) (by rw [Apart]; omega)
    exact putPart_outside (by omega)

theorem cvtKvpBin_eq (kvp : ChmKvp) (mem : Memory) :
    cvtKvpBin (some p) kvp mem =
      (some p, (kvp.key.length + kvp.val.length + 8 * 2) % 2 ^ 64,
        putPart (p + (8 + kvp.key.length)) kvp.val.byptr kvp.val.length
          (putPart p kvp.key.byptr kvp.key.length mem)) := by
  rw [cvtKvpBin, putPart, putPart, Nat.add_assoc p]

theorem BinData.put_eq (hp : p ≠ 0) (b : BinData) (mem : Memory) :
    b.put p true mem = (true, putPart p b.byptr b.length mem) := if_neg hp

theorem KVPair.put_eq (hp : p ≠ 0) (pair : KVPair) (hlen : pair.key.length + 8 < 2 ^ 64)
    (mem : Memory) :
    pair.put p true mem = (true, putPart (p + (8 + pair.key.length)) pair.value.byptr
      pair.value.length (putPart p pair.key.byptr pair.key.length mem)) := by
  rw [KVPair.put, if_neg hp, BinData.put_eq hp]
  dsimp only
  rw [Nat.mod_eq_of_lt hlen, Nat.add_comm pair.key.length, if_neg (by decide),
    BinData.put_eq (by omega)]

/-! ## Reading -/

/-- A part in memory is its length with its bytes behind it. -/
theorem putBin_split (h : HoldsAt mem p (8 + data.length) (putBin data)) :
    HoldsAt mem p 8 (be64 data.length) ∧ HoldsAt mem (p + 8) data.length data := by
  have hsplit := @HoldsAt.split mem p (be64 data.length) data
  rw [length_be64] at hsplit
  exact hsplit h

/-- Both readers leave the pointer of an empty part null. -/
theorem HoldsAt.ptr (h : HoldsAt mem p n data) : HoldsAt mem (if 0 < n then p else 0) n data := by
  split
  · exact h
  · rename_i hn
    obtain rfl : n = 0 := by omega
    exact h

theorem readLength (h : HoldsAt mem p (8 + data.length) (putBin data))
    (hlen : data.length < 2 ^ 64) : be64toh (readU64 mem p) = data.length :=
  be64toh_readU64 (putBin_split h).1 hlen

theorem BinData.load_eq (hp : p ≠ 0) (h : HoldsAt mem p (8 + data.length) (putBin data))
    (hlen : data.length < 2 ^ 64) (malloc : Option Nat) :
    ∃ b, BinData.load malloc p true false mem = (true, b, mem) ∧ b.length = data.length ∧
      HoldsAt mem b.byptr b.length data := by
  have hdata := (putBin_split h).2
  rw [BinData.load, if_neg hp]
  dsimp only
  rw [if_pos rfl, readLength h hlen]
  by_cases hn : 0 < data.length
  · rw [if_pos hn, if_neg (by decide)]
    exact ⟨_, rfl, rfl, hdata⟩
  · obtain rfl : data = [] := List.length_eq_zero_iff.mp (by omega)
    rw [if_neg hn]
    exact ⟨_, rfl, rfl, HoldsAt.nil _ _⟩

/-- Loading a copy writes the block that has been allocated and nothing else. -/
theorem BinData.load_dup (hp : p ≠ 0) (h : HoldsAt mem p (8 + data.length) (putBin data))
    (hlen : data.length < 2 ^ 64) (q : Nat) :
    ∃ b mem', BinData.load (some q) p true true mem = (true, b, mem') ∧
      b.length = data.length ∧ (0 < data.length → b.byptr = q) ∧
      HoldsAt mem' b.byptr b.length data ∧
      ∀ i, i < q ∨ q + data.length ≤ i → mem' i = mem i := by
  have hdata := (putBin_split h).2
  rw [BinData.load, if_neg hp]
  dsimp only
  rw [if_pos rfl, readLength h hlen]
  by_cases hn : 0 < data.length
  · rw [if_pos hn, if_pos rfl]
    exact ⟨_, _, rfl, rfl, fun _ => rfl, memcpy_holds hdata q, fun i hi => memcpy_outside hi⟩
  · obtain rfl : data = [] := List.length_eq_zero_iff.mp (by omega)
    rw [if_neg hn]
    exact ⟨_, _, rfl, rfl, fun hn' => absurd hn' hn, HoldsAt.nil _ _, fun i _ => rfl⟩

/-! ## Both codecs -/

/-- The C structure points to this key and this value. -/
structure ChmKvp.Holds (mem : Memory) (kvp : ChmKvp) (key val : List Byte) : Prop where
  key : HoldsAt mem kvp.key.byptr kvp.key.length key
  val : HoldsAt mem kvp.val.byptr kvp.val.length val

/-- The object holds this key and this value. -/
structure KVPair.Holds (mem : Memory) (pair : KVPair) (key val : List Byte) : Prop where
  key : HoldsAt mem pair.key.byptr pair.key.length key
  value : HoldsAt mem pair.value.byptr pair.value.length val

theorem BinData.set_holds (h : HoldsAt mem p n data) (hp : p ≠ 0 ∨ n = 0) (malloc : Option Nat) :
    ∃ b, BinData.set malloc p n false mem = (true, b, mem) ∧
      HoldsAt mem b.byptr b.length data := by
  rw [BinData.set.eq_def]
  by_cases hn : p ≠ 0 ∧ 0 < n
  · rw [if_pos hn, if_neg (by decide)]
    exact ⟨_, rfl, h⟩
  · obtain rfl : n = 0 := by omega
    rw [if_neg hn]
    exact ⟨_, rfl, h⟩

/-- `SetKey` and `SetValue` make an object that holds the key and the value. -/
theorem KVPair.set_holds (hkey : HoldsAt mem p n key) (hval : HoldsAt mem q m val)
    (hp : p ≠ 0 ∨ n = 0) (hq : q ≠ 0 ∨ m = 0) (mallocKey mallocVal : Option Nat) :
    ∃ pair, KVPair.set mallocKey mallocVal p n q m false mem = (true, pair, mem) ∧
      KVPair.Holds mem pair key val := by
  obtain ⟨k, hk, hkholds⟩ := BinData.set_holds hkey hp mallocKey
  obtain ⟨v, hv, hvholds⟩ := BinData.set_holds hval hq mallocVal
  refine ⟨⟨k, v⟩, ?_, hkholds, hvholds⟩
  rw [KVPair.set, hk]
  dsimp only
  rw [hv]
  rfl

/-- The bytes of a key and a value: what both writers write into a buffer that overlaps
neither, and what both readers read. -/
structure Interchange (key val bytes : List Byte) : Prop where
  length : bytes.length = key.length + val.length + 8 * 2
  cvtKvpBin : ∀ mem kvp p, ChmKvp.Holds mem kvp key val →
    Apart p bytes.length kvp.key.byptr key.length →
    Apart p bytes.length kvp.val.byptr val.length →
    ∃ mem', cvtKvpBin (some p) kvp mem = (some p, bytes.length, mem') ∧
      HoldsAt mem' p bytes.length bytes
  put : ∀ mem pair p, p ≠ 0 → KVPair.Holds mem pair key val →
    Apart p bytes.length pair.key.byptr key.length →
    Apart p bytes.length pair.value.byptr val.length →
    ∃ mem', pair.put p true mem = (true, mem') ∧
      pair.putAlloc (some p) true mem = (some p, bytes.length, mem') ∧
      HoldsAt mem' p bytes.length bytes
  cvtBinKvp : ∀ mem p, p ≠ 0 → HoldsAt mem p bytes.length bytes →
    ∃ kvp, cvtBinKvp p bytes.length mem = some kvp ∧ ChmKvp.Holds mem kvp key val
  load : ∀ mem p mallocKey mallocVal, p ≠ 0 → HoldsAt mem p bytes.length bytes →
    ∃ pair, KVPair.load mallocKey mallocVal p true false mem = (true, pair, mem) ∧
      KVPair.Holds mem pair key val
  loadDup : ∀ mem p q r, p ≠ 0 → HoldsAt mem p bytes.length bytes →
    Apart q key.length p bytes.length → Apart r val.length p bytes.length →
    Apart r val.length q key.length →
    ∃ pair mem', KVPair.load (some q) (some r) p true true mem = (true, pair, mem') ∧
      KVPair.Holds mem' pair key val

/-- The key and the value in the bytes of both. -/
theorem putBin_both
    (h : HoldsAt mem p (putBin key ++ putBin val).length (putBin key ++ putBin val)) :
    HoldsAt mem p (8 + key.length) (putBin key) ∧
      HoldsAt mem (p + (8 + key.length)) (8 + val.length) (putBin val) := by
  rw [List.length_append] at h
  have hsplit := HoldsAt.split h
  rwa [length_putBin, length_putBin] at hsplit

theorem cvtBinKvp_holds (hlen : key.length + val.length + 8 * 2 < 2 ^ 64) (hp : p ≠ 0)
    (h : HoldsAt mem p (putBin key ++ putBin val).length (putBin key ++ putBin val)) :
    ∃ kvp, cvtBinKvp p (putBin key ++ putBin val).length mem = some kvp ∧
      ChmKvp.Holds mem kvp key val := by
  obtain ⟨hkey, hval⟩ := putBin_both h
  have hlong : ¬((putBin key ++ putBin val).length < 8 * 2) := by
    rw [List.length_append, length_putBin, length_putBin]
    omega
  refine ⟨⟨⟨if 0 < key.length then p + 8 else 0, key.length⟩,
    ⟨if 0 < val.length then p + (8 + key.length) + 8 else 0, val.length⟩⟩, ?_, ?_, ?_⟩
  · rw [cvtBinKvp, if_neg (not_or.mpr ⟨hp, hlong⟩)]
    dsimp only
    rw [readLength hkey (by omega), Nat.mod_eq_of_lt (by omega), readLength hval (by omega),
      ← Nat.add_assoc p]
  · exact (putBin_split hkey).2.ptr
  · exact (putBin_split hval).2.ptr

theorem load_holds (hlen : key.length + val.length + 8 * 2 < 2 ^ 64) (hp : p ≠ 0)
    (h : HoldsAt mem p (putBin key ++ putBin val).length (putBin key ++ putBin val))
    (mallocKey mallocVal : Option Nat) :
    ∃ pair, KVPair.load mallocKey mallocVal p true false mem = (true, pair, mem) ∧
      KVPair.Holds mem pair key val := by
  obtain ⟨hkey, hval⟩ := putBin_both h
  obtain ⟨k, hk, hklen, hkholds⟩ := BinData.load_eq hp hkey (by omega) mallocKey
  obtain ⟨v, hv, -, hvholds⟩ := BinData.load_eq (p := p + (8 + key.length)) (by omega) hval
    (by omega) mallocVal
  refine ⟨⟨k, v⟩, ?_, hkholds, hvholds⟩
  rw [KVPair.load, hk]
  dsimp only
  rw [if_neg (by decide), if_pos hp, hklen, Nat.mod_eq_of_lt (by omega),
    Nat.add_comm key.length, hv]
  rfl

theorem load_dup_holds (hlen : key.length + val.length + 8 * 2 < 2 ^ 64) (hp : p ≠ 0)
    (h : HoldsAt mem p (putBin key ++ putBin val).length (putBin key ++ putBin val))
    {q r : Nat} (hq : Apart q key.length p (putBin key ++ putBin val).length)
    (hr : Apart r val.length q key.length) :
    ∃ pair mem', KVPair.load (some q) (some r) p true true mem = (true, pair, mem') ∧
      KVPair.Holds mem' pair key val := by
  obtain ⟨hkey, hval⟩ := putBin_both h
  rw [List.length_append, length_putBin, length_putBin, Apart] at hq
  rw [Apart] at hr
  obtain ⟨k, mem₁, hk, hklen, hkptr, hkholds, hkout⟩ :=
    BinData.load_dup hp hkey (by omega) q
  -- the copy of the key has left the bytes of the value alone
  have hval₁ : HoldsAt mem₁ (p + (8 + key.length)) (8 + val.length) (putBin val) :=
    hval.congr fun i hi hi' => hkout i (by omega)
  obtain ⟨v, mem₂, hv, -, -, hvholds, hvout⟩ :=
    BinData.load_dup (p := p + (8 + key.length)) (by omega) hval₁ (by omega) r
  refine ⟨⟨k, v⟩, mem₂, ?_, hkholds.congr fun i hi hi' => ?_, hvholds⟩
  · rw [KVPair.load, hk]
    dsimp only
    rw [if_neg (by decide), if_pos hp, hklen, Nat.mod_eq_of_lt (by omega),
      Nat.add_comm key.length, hv]
    rfl
  · have hptr := hkptr (by omega)
    exact hvout i (by omega)

/-- For every key and value whose bytes are short enough for a `size_t`, both writers write
the same bytes and every reader gets the key and the value back. -/
theorem codecs_interchange (hlen : key.length + val.length + 8 * 2 < 2 ^ 64) :
    ∃ bytes, Interchange key val bytes := by
  have hlength : (putBin key ++ putBin val).length = 8 + key.length + (8 + val.length) := by
    rw [List.length_append, length_putBin, length_putBin]
  have hsize : (key.length + val.length + 8 * 2) % 2 ^ 64 =
      (putBin key ++ putBin val).length := by
    rw [Nat.mod_eq_of_lt hlen, hlength]
    omega
  refine ⟨putBin key ++ putBin val, ?_, ?_, ?_, ?_, ?_, ?_⟩
  · rw [hlength]
    omega
  · intro mem kvp p hkvp hkey hval
    have hk := hkvp.key
    have hv := hkvp.val
    rw [hkvp.key.length] at hk
    rw [hkvp.val.length] at hv
    refine ⟨putPart (p + (8 + key.length)) kvp.val.byptr val.length
      (putPart p kvp.key.byptr key.length mem), ?_, ?_⟩
    · rw [cvtKvpBin_eq, hkvp.key.length, hkvp.val.length, hsize]
    · rw [hlength] at hkey hval ⊢
      exact putParts_holds hk hv hkey hval
  · intro mem pair p hp hpair hkey hval
    have hk := hpair.key
    have hv := hpair.value
    rw [hpair.key.length] at hk
    rw [hpair.value.length] at hv
    have hput := KVPair.put_eq hp pair (by rw [hpair.key.length]; omega) mem
    rw [hpair.key.length, hpair.value.length] at hput
    refine ⟨_, hput, ?_, ?_⟩
    · rw [KVPair.putAlloc, hput, hpair.key.length, hpair.value.length, hsize]
      rfl
    · rw [hlength] at hkey hval ⊢
      exact putParts_holds hk hv hkey hval
  · exact fun mem p hp h => cvtBinKvp_holds hlen hp h
  · exact fun mem p mallocKey mallocVal hp h => load_holds hlen hp h mallocKey mallocVal
  · exact fun mem p q r hp h hq _ hr => load_dup_holds hlen hp h hq hr

/-- `k1` at 10. -/
def sampleMemory : Memory := fun i => if i = 10 then 107 else if i = 11 then 49 else 0

theorem codecs_interchange_sample : (∃ bytes, Interchange [107, 49] [] bytes) ∧
    bytesAt (cvtKvpBin (some 100) ⟨⟨10, 2⟩, ⟨0, 0⟩⟩ sampleMemory).2.2 100 18 =
      [0, 0, 0, 0, 0, 0, 0, 2, 107, 49, 0, 0, 0, 0, 0, 0, 0, 0] :=
  ⟨codecs_interchange (by decide), by decide +kernel⟩

end Kvp
end Chm
