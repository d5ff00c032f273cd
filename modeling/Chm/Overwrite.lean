/-
Writing into the middle of binary data: `ChmBinData::Overwrite`.

The data are copied into a block that is long enough, and the bytes are written into it at their
offset (`overwrite_block`).  The length of the data is never set, so what has been written
behind the old end is not part of them (`overwrite_right_iff`).
-/
import Chm.Kvp

namespace Chm
namespace Kvp

open Wire

variable {mem mem' : Memory} {p q n m bydata bylength newlen : Nat} {old str new : List Byte}
variable {b : BinData} {offset : Int}

namespace BinData

/-- The new size; the cast of the sum to a `size_t` is the sum, as it is positive there. -/
def newSize (b : BinData) (bylength : Nat) (offset : Int) : Nat :=
  if (b.length : Int) < offset + bylength then (offset + bylength).toNat else b.length

/-- The block that `Overwrite` writes to.  `malloc` is the block that `malloc` or `realloc` gives,
none when there is no memory; a failing `realloc` has already put a null pointer in its place. -/
def reserve (malloc : Option Nat) (newlen : Nat) (b : BinData) (mem : Memory) :
    Bool × BinData × Memory :=
  if newlen ≠ b.length ∨ !b.isAllocate then
    match malloc with
    | none => (false, if b.isAllocate then { b with byptr := 0 } else b, mem)
    | some p => (true, { b with byptr := p, isAllocate := true }, memcpy p b.byptr b.length mem)
  else (true, b, mem)

/-- `Overwrite`: what it returns, the object and the memory after it. -/
def overwrite (malloc : Option Nat) (bydata bylength : Nat) (offset : Int) (b : BinData)
    (mem : Memory) : Bool × BinData × Memory :=
  if bydata = 0 ∨ bylength = 0 then (true, b, mem)
  else if 0 ≥ (bylength : Int) + offset then (true, b, mem)
  else
    let (reserved, b, mem) := reserve malloc (b.newSize bylength offset) b mem
    if !reserved then (false, b, mem)
    else if 0 ≤ offset then
      (true, b, memcpy (b.byptr + offset.toNat) bydata bylength mem)
    else
      (true, b, memcpy b.byptr (bydata + offset.natAbs) ((bylength : Int) + offset).toNat mem)

/-! ## What is written -/

theorem length_reserve (malloc : Option Nat) (newlen : Nat) (b : BinData) (mem : Memory) :
    (reserve malloc newlen b mem).2.1.length = b.length := by
  rw [reserve.eq_def]
  split
  · cases malloc with
    | none => dsimp only; split <;> rfl
    | some p => rfl
  · rfl

/-- The length of the data is never set. -/
theorem length_overwrite (malloc : Option Nat) (bydata bylength : Nat) (offset : Int)
    (b : BinData) (mem : Memory) :
    (overwrite malloc bydata bylength offset b mem).2.1.length = b.length := by
  have hlen := length_reserve malloc (b.newSize bylength offset) b mem
  rw [overwrite]
  by_cases hdata : bydata = 0 ∨ bylength = 0
  · rw [if_pos hdata]
  by_cases hshort : 0 ≥ (bylength : Int) + offset
  · rw [if_neg hdata, if_pos hshort]
  rw [if_neg hdata, if_neg hshort]
  generalize reserve malloc (b.newSize bylength offset) b mem = r at hlen
  obtain ⟨reserved, b', mem'⟩ := r
  dsimp only at hlen ⊢
  split_ifs <;> exact hlen

/-- The block holds the old data, and nothing but it has changed. -/
theorem reserve_spec (hle : b.length ≤ newlen) (p : Nat) (mem : Memory) :
    ∃ b' mem', reserve (some p) newlen b mem = (true, b', mem') ∧
      (b'.byptr = p ∨ newlen = b.length ∧ b'.byptr = b.byptr) ∧
      (∀ i < b.length, mem' (b'.byptr + i) = mem (b.byptr + i)) ∧
      ∀ i, i < p ∨ p + newlen ≤ i → mem' i = mem i := by
  rw [reserve]
  split
  · refine ⟨_, _, rfl, Or.inl rfl, fun i hi => ?_, fun i hi => memcpy_outside (by omega)⟩
    dsimp only
    rw [memcpy, if_pos (by omega), Nat.add_sub_cancel_left]
  · rename_i hstay
    obtain ⟨hsame, -⟩ := not_or.mp hstay
    exact ⟨b, mem, rfl, Or.inr ⟨Decidable.not_not.mp hsame, rfl⟩, fun _ _ => rfl, fun _ _ => rfl⟩

theorem newSize_spec (b : BinData) (bylength : Nat) (offset : Int) :
    (b.newSize bylength offset : Int) = max (b.length : Int) (offset + bylength) := by
  rw [newSize]
  split <;> omega

/-- The bytes that come from the string. -/
def InRange (offset : Int) (bylength i : Nat) : Prop := offset ≤ i ∧ (i : Int) < offset + bylength

instance (i : Nat) : Decidable (InRange offset bylength i) := inferInstanceAs (Decidable (_ ∧ _))

/-- After a write of some bytes the block of the new size is as it should be: the bytes are at
their offset, and the others are the old ones. -/
theorem overwrite_block (hdata : bydata ≠ 0) (hlen : bylength ≠ 0)
    (hend : 0 < (bylength : Int) + offset)
    (hnew : Apart p (b.newSize bylength offset) bydata bylength) (mem : Memory) :
    ∃ b' mem', overwrite (some p) bydata bylength offset b mem = (true, b', mem') ∧
      (∀ i < b.newSize bylength offset, InRange offset bylength i →
        mem' (b'.byptr + i) = mem (bydata + (i - offset).toNat)) ∧
      ∀ i < b.length, ¬InRange offset bylength i →
        mem' (b'.byptr + i) = mem (b.byptr + i) := by
  have hsize := newSize_spec b bylength offset
  have hle : b.length ≤ b.newSize bylength offset := by omega
  obtain ⟨b', mem', hreserve, hplace, hkept, houtside⟩ := reserve_spec hle p mem
  -- the string is where it was
  have hstr : ∀ i < bylength, mem' (bydata + i) = mem (bydata + i) := by
    intro i hi
    rw [Apart] at hnew
    exact houtside _ (by omega)
  rw [overwrite, if_neg (not_or.mpr ⟨hdata, hlen⟩), if_neg (by omega)]
  dsimp only
  rw [hreserve]
  dsimp only
  rw [if_neg (by decide)]
  by_cases hoffset : 0 ≤ offset
  · rw [if_pos hoffset]
    refine ⟨_, _, rfl, fun i hi hin => ?_, fun i hi hout => ?_⟩
    · have hlo := hin.1
      have hhi := hin.2
      have hindex : b'.byptr + i - (b'.byptr + offset.toNat) = (i - offset).toNat := by omega
      rw [memcpy, if_pos (by omega), hindex]
      exact hstr _ (by omega)
    · rw [InRange] at hout
      rw [memcpy_outside (by omega)]
      exact hkept i hi
  · rw [if_neg hoffset]
    refine ⟨_, _, rfl, fun i hi hin => ?_, fun i hi hout => ?_⟩
    · have hlo := hin.1
      have hhi := hin.2
      have hindex : bydata + offset.natAbs + (b'.byptr + i - b'.byptr) =
          bydata + (i - offset).toNat := by omega
      rw [memcpy, if_pos (by omega), hindex]
      exact hstr _ (by omega)
    · rw [InRange] at hout
      rw [memcpy_outside (by omega)]
      exact hkept i hi

end BinData

/-! ## What should be read back -/

/-- The bytes `new` are the bytes `old` with `str` written over them from `offset` on. -/
structure Overwritten (old str : List Byte) (offset : Int) (new : List Byte) : Prop where
  length : (new.length : Int) = max (old.length : Int) (offset + str.length)
  written : ∀ i < new.length, BinData.InRange offset str.length i →
    new[i]? = str[(i - offset).toNat]?
  kept : ∀ i < old.length, ¬BinData.InRange offset str.length i → new[i]? = old[i]?

theorem getElem?_bytesAt {i : Nat} (mem : Memory) (p : Nat) (h : i < n) :
    (bytesAt mem p n)[i]? = some (mem (p + i)) := by
  rw [bytesAt, List.getElem?_map, List.getElem?_range h]
  rfl

/-- The data are right after `Overwrite` exactly when the bytes end within the old ones. -/
theorem overwrite_right_iff (hdata : bydata ≠ 0 ∨ bylength = 0)
    (hnew : Apart p (b.newSize bylength offset) bydata bylength) (mem : Memory) :
    (BinData.overwrite (some p) bydata bylength offset b mem).1 = true ∧
      (Overwritten (bytesAt mem b.byptr b.length) (bytesAt mem bydata bylength) offset
          (bytesAt (BinData.overwrite (some p) bydata bylength offset b mem).2.2
            (BinData.overwrite (some p) bydata bylength offset b mem).2.1.byptr
            (BinData.overwrite (some p) bydata bylength offset b mem).2.1.length) ↔
        offset + bylength ≤ b.length) := by
  have hlength := BinData.length_overwrite (some p) bydata bylength offset b mem
  have hsize := BinData.newSize_spec b bylength offset
  have htotal : Overwritten (bytesAt mem b.byptr b.length) (bytesAt mem bydata bylength) offset
      (bytesAt (BinData.overwrite (some p) bydata bylength offset b mem).2.2
        (BinData.overwrite (some p) bydata bylength offset b mem).2.1.byptr
        (BinData.overwrite (some p) bydata bylength offset b mem).2.1.length) →
      offset + bylength ≤ b.length := by
    intro h
    have hmax := h.length
    rw [length_bytesAt, length_bytesAt, length_bytesAt, hlength] at hmax
    omega
  by_cases hnone : (bydata = 0 ∨ bylength = 0) ∨ 0 ≥ (bylength : Int) + offset
  · -- nothing is written
    have hsame : BinData.overwrite (some p) bydata bylength offset b mem = (true, b, mem) := by
      rw [BinData.overwrite]
      rcases hnone with h | h
      · exact if_pos h
      · rw [if_pos h, ite_self]
    rw [hsame] at htotal ⊢
    dsimp only at htotal ⊢
    refine ⟨rfl, htotal, fun hle => ⟨?_, fun i hi ⟨hlo, hhi⟩ => ?_, fun i _ _ => rfl⟩⟩
    · rw [length_bytesAt, length_bytesAt]
      omega
    · rw [length_bytesAt] at hhi
      omega
  · obtain ⟨hbytes, hend⟩ := not_or.mp hnone
    obtain ⟨hdata, hlen⟩ := not_or.mp hbytes
    obtain ⟨b', mem', hrun, hwritten, hkept⟩ :=
      BinData.overwrite_block hdata hlen (not_le.mp hend) hnew mem
    rw [hrun] at htotal hlength ⊢
    dsimp only at htotal hlength ⊢
    refine ⟨rfl, htotal, fun hle => ?_⟩
    rw [hlength]
    refine ⟨?_, fun i hi hin => ?_, fun i hi hout => ?_⟩
    · rw [length_bytesAt, length_bytesAt, length_bytesAt]
      omega
    · rw [length_bytesAt] at hi hin
      have hindex : (i - offset).toNat < bylength := by
        obtain ⟨hlo, hhi⟩ := hin
        omega
      rw [getElem?_bytesAt _ _ hi, getElem?_bytesAt _ _ hindex, hwritten i (by omega) hin]
    · rw [length_bytesAt] at hi hout
      rw [getElem?_bytesAt _ _ hi, getElem?_bytesAt _ _ hi, hkept i hi hout]

/-- `abcd` at 10 and `XY` at 20. -/
def letters : Memory := fun i =>
  if 10 ≤ i ∧ i < 14 then UInt8.ofNat (97 + (i - 10))
  else if i = 20 then 88 else if i = 21 then 89 else 0

/-- `aXYd`. -/
theorem overwrite_right_sample :
    Overwritten (bytesAt letters 10 4) (bytesAt letters 20 2) 1
      (bytesAt (BinData.overwrite (some 100) 20 2 1 ⟨10, 4, false⟩ letters).2.2
        (BinData.overwrite (some 100) 20 2 1 ⟨10, 4, false⟩ letters).2.1.byptr
        (BinData.overwrite (some 100) 20 2 1 ⟨10, 4, false⟩ letters).2.1.length) :=
  (overwrite_right_iff (b := ⟨10, 4, false⟩) (Or.inl (by decide)) (Or.inr (by decide))
    letters).2.mpr (by decide)

/-- Two bytes behind three kept ones make `abcX` and not `abcXY`. -/
theorem overwrite_truncates :
    bytesAt (BinData.overwrite (some 100) 20 2 3 ⟨10, 4, false⟩ letters).2.2
        (BinData.overwrite (some 100) 20 2 3 ⟨10, 4, false⟩ letters).2.1.byptr
        (BinData.overwrite (some 100) 20 2 3 ⟨10, 4, false⟩ letters).2.1.length =
          [97, 98, 99, 88] ∧
      ¬Overwritten [97, 98, 99, 100] [88, 89] 3 [97, 98, 99, 88] := by
  refine ⟨by decide +kernel, fun h => ?_⟩
  exact absurd h.length (by decide)

end Kvp
end Chm
