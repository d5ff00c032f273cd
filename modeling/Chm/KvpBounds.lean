/-
What `cvt_bin_kvp` reports of a body.

The function compares nothing with the length but the two length fields of an empty pair.
`Inside` says that what it reads and reports lies in the body.  That holds of the bodies that
begin with what `cvt_kvp_bin` writes, and of no other.
-/
import Chm.Kvp

namespace Chm
namespace Kvp

open Wire
open Chm.Stream (be64 putBin)
open Chm.Stream.StreamBuf (length_be64)

variable {mem mem' : Memory} {p n m bydata length : Nat} {key val rest : List Byte} {kvp : ChmKvp}

/-! ## What is read -/

/-- Where `cvt_bin_kvp` reads the second length field, from the beginning of the body. -/
def valuePos (bydata : Nat) (mem : Memory) : Nat := (8 + be64toh (readU64 mem bydata)) % 2 ^ 64

/-- Two memories give the same number where they hold the same bytes. -/
theorem readU64_congr (h : ∀ i < 8, mem' (p + i) = mem (p + i)) :
    readU64 mem' p = readU64 mem p := by
  rw [readU64, readU64]
  refine congrArg leNat (List.map_congr_left fun k hk => ?_)
  exact h k (List.mem_range.mp hk)

/-- The two fields are all that `cvt_bin_kvp` reads. -/
theorem cvtBinKvp_congr (hfirst : ∀ i < 8, mem' (bydata + i) = mem (bydata + i))
    (hsecond : ∀ i < 8,
      mem' (bydata + valuePos bydata mem + i) = mem (bydata + valuePos bydata mem + i)) :
    cvtBinKvp bydata length mem' = cvtBinKvp bydata length mem := by
  have hkey := readU64_congr hfirst
  have hval := readU64_congr hsecond
  rw [valuePos] at hval
  rw [cvtBinKvp, cvtBinKvp, hkey]
  dsimp only
  rw [hval]

/-! ## What is reported -/

/-- The bytes of a part lie in the body; a part without bytes is nowhere. -/
def ChmBin.In (bin : ChmBin) (bydata length : Nat) : Prop :=
  bin.length = 0 ∨ bydata ≤ bin.byptr ∧ bin.byptr + bin.length ≤ bydata + length

/-- Both length fields and both parts lie in the body. -/
structure Inside (bydata length : Nat) (mem : Memory) (kvp : ChmKvp) : Prop where
  firstField : 8 ≤ length
  secondField : valuePos bydata mem + 8 ≤ length
  key : kvp.key.In bydata length
  val : kvp.val.In bydata length

/-- Success only with everything in the body. -/
def ReportsInside (bydata length : Nat) (mem : Memory) : Prop :=
  ∀ kvp, cvtBinKvp bydata length mem = some kvp → Inside bydata length mem kvp

/-- The body begins with a key and a value as `cvt_kvp_bin` writes them. -/
def BeginsWithPair (bydata length : Nat) (mem : Memory) : Prop :=
  ∃ key val rest, HoldsAt mem bydata length (putBin key ++ (putBin val ++ rest))

theorem bytesAt_field (mem : Memory) (p : Nat) :
    bytesAt mem p 8 = be64 (be64toh (readU64 mem p)) := by
  have hlength : (bytesAt mem p 8).reverse.length = 8 := by
    rw [List.length_reverse, length_bytesAt]
  have hread : be64toh (readU64 mem p) = leNat (bytesAt mem p 8).reverse := by
    rw [be64toh, readU64, sizeBytes_leNat (length_bytesAt mem p 8)]
  have hsize := sizeBytes_leNat hlength
  rw [sizeBytes] at hsize
  rw [hread, be64, hsize, List.reverse_reverse]

/-- A length field with as many bytes behind it is a part. -/
theorem holdsAt_part (mem : Memory) (p : Nat) :
    HoldsAt mem p (8 + be64toh (readU64 mem p))
      (putBin (bytesAt mem (p + 8) (be64toh (readU64 mem p)))) := by
  rw [HoldsAt, bytesAt_add, putBin, length_bytesAt, bytesAt_field]

theorem HoldsAt.part (h : HoldsAt mem p n (putBin key ++ rest)) :
    HoldsAt mem p 8 (be64 key.length) ∧ 8 + key.length + rest.length = n ∧
      HoldsAt mem (p + (8 + key.length)) rest.length rest := by
  have hn := h.length
  rw [List.length_append, length_putBin] at hn
  subst hn
  rw [← length_putBin key] at h
  obtain ⟨hkey, hrest⟩ := HoldsAt.split h
  rw [length_putBin] at hkey hrest
  exact ⟨(putBin_split hkey).1, rfl, hrest⟩

theorem cvtBinKvp_eq (hp : bydata ≠ 0) (hlow : 16 ≤ length) :
    cvtBinKvp bydata length mem =
      some ⟨⟨if 0 < be64toh (readU64 mem bydata) then bydata + 8 else 0,
          be64toh (readU64 mem bydata)⟩,
        ⟨if 0 < be64toh (readU64 mem (bydata + valuePos bydata mem)) then
            bydata + (valuePos bydata mem + 8) else 0,
          be64toh (readU64 mem (bydata + valuePos bydata mem))⟩⟩ := by
  have hlong : ¬ length < 8 * 2 := by omega
  rw [cvtBinKvp, if_neg (not_or.mpr ⟨hp, hlong⟩)]
  rfl

/-- Where everything lies in the body the position of the second field has not wrapped around,
and the body is a key, a value and a rest. -/
theorem beginsWithPair_of_reportsInside (hp : bydata ≠ 0) (hlow : 16 ≤ length)
    (hlt : length < 2 ^ 64) (h : ReportsInside bydata length mem) :
    BeginsWithPair bydata length mem := by
  obtain ⟨-, hsecond, hkey, hval⟩ := h _ (cvtBinKvp_eq hp hlow)
  have hkeylen : 8 + be64toh (readU64 mem bydata) ≤ length := by
    rw [ChmBin.In] at hkey
    dsimp only at hkey
    split at hkey <;> omega
  have hpos : valuePos bydata mem = 8 + be64toh (readU64 mem bydata) :=
    Nat.mod_eq_of_lt (by omega)
  rw [hpos] at hsecond hval
  have hkeyPart := holdsAt_part mem bydata
  have hvalPart := holdsAt_part mem (bydata + (8 + be64toh (readU64 mem bydata)))
  generalize be64toh (readU64 mem bydata) = keylen at hkeylen hsecond hval hkeyPart hvalPart
  have hvallen : 8 + keylen + (8 + be64toh (readU64 mem (bydata + (8 + keylen)))) ≤ length := by
    rw [ChmBin.In] at hval
    dsimp only at hval
    split at hval <;> omega
  generalize be64toh (readU64 mem (bydata + (8 + keylen))) = vallen at hvallen hvalPart
  obtain ⟨n, rfl⟩ := Nat.exists_eq_add_of_le hvallen
  have hrest : HoldsAt mem (bydata + (8 + keylen) + (8 + vallen)) n
      (bytesAt mem (bydata + (8 + keylen) + (8 + vallen)) n) := rfl
  rw [Nat.add_assoc (8 + keylen)]
  exact ⟨_, _, _, hkeyPart.append (hvalPart.append hrest)⟩

/-- The parts of a written pair lie in the body. -/
theorem reportsInside_of_beginsWithPair (hp : bydata ≠ 0) (hlow : 16 ≤ length)
    (hlt : length < 2 ^ 64) (h : BeginsWithPair bydata length mem) :
    ReportsInside bydata length mem := by
  obtain ⟨key, val, rest, hbody⟩ := h
  obtain ⟨hkey, hlength, hmore⟩ := hbody.part
  obtain ⟨hval, hlength', -⟩ := hmore.part
  have hkeylen : be64toh (readU64 mem bydata) = key.length := be64toh_readU64 hkey (by omega)
  have hpos : valuePos bydata mem = 8 + key.length := by
    rw [valuePos, hkeylen]
    exact Nat.mod_eq_of_lt (by omega)
  have hvallen : be64toh (readU64 mem (bydata + (8 + key.length))) = val.length :=
    be64toh_readU64 hval (by omega)
  intro kvp hkvp
  rw [cvtBinKvp_eq hp hlow, hpos, hkeylen, hvallen] at hkvp
  obtain rfl := Option.some.inj hkvp
  refine ⟨by omega, by omega, ?_, ?_⟩
  · rw [ChmBin.In]
    dsimp only
    split <;> omega
  · rw [ChmBin.In]
    dsimp only
    split <;> omega

theorem reportsInside_iff (mem : Memory) (hp : bydata ≠ 0) (hlow : 16 ≤ length)
    (hlt : length < 2 ^ 64) :
    ReportsInside bydata length mem ↔ BeginsWithPair bydata length mem :=
  ⟨beginsWithPair_of_reportsInside hp hlow hlt, reportsInside_of_beginsWithPair hp hlow hlt⟩

/-- Two empty parts, in a memory of zeros. -/
theorem reportsInside_iff_sample : ReportsInside 64 16 fun _ => 0 :=
  (reportsInside_iff (fun _ => 0) (by decide) (by decide) (by decide)).mpr ⟨[], [], [], rfl⟩

/-- A body of sixteen bytes whose first field says 32. -/
theorem reportsInside_fails : ¬ ∀ bydata length mem, bydata ≠ 0 → 16 ≤ length →
    length < 2 ^ 64 → ReportsInside bydata length mem := by
  intro hall
  have hinside := hall 64 16 (fun i => if i = 71 then 32 else 0) (by decide) (by decide)
    (by decide) ⟨⟨72, 32⟩, ⟨0, 0⟩⟩ (by decide)
  have hsecond : valuePos 64 (fun i => if i = 71 then 32 else 0) = 40 := by decide
  have hfield := hinside.secondField
  omega

end Kvp
end Chm
