/-
The order of status update times.

`CompareStatusUpdateTime` compares forty bits that it reads off a stamp, as signed
numbers, so it orders two stamps by their seconds when it reads the seconds that were
written.  It reads them off a packed stamp that is not below `basis` and off an old
one that is, and off a few others by accident.
-/
import Chm.Time
import Mathlib.Data.Int.Basic
import Mathlib.Tactic.NormNum

namespace Chm

/-- A status update time as a process has written it: in the form of
`GetStatusLastUpdateTime`, or the old `time(NULL)`. -/
structure Stamp where
  packed : Bool
  sec : Nat
  nsec : Nat
  sec_lt : sec < 2 ^ 63
  nsec_lt : nsec < 10 ^ 9

namespace Stamp

def time (w : Stamp) : TimeT :=
  if w.packed then getStatusLastUpdateTime (BitVec.ofNat 64 w.sec) (BitVec.ofNat 64 w.nsec)
  else BitVec.ofNat 64 w.sec

/-- The stamp in its packed form, as a number. -/
def packedNat (w : Stamp) : Nat := w.sec * 2 ^ 24 + w.nsec / 1000

/-- A process with this basis reads the second that was written: the second fits, and
the form is told from the other one, or the wrong reading gives the same second. -/
def Legible (basis : TimeT) (w : Stamp) : Prop :=
  w.sec < 2 ^ 39 ∧
    if w.packed then basis.toInt ≤ w.packedNat ∨ w.packedNat % 2 ^ 40 = w.sec
    else w.sec < basis.toInt ∨ w.sec = 0

end Stamp

/-! ## What the comparison reads -/

/-- The forty bits that are compared. -/
def readSeconds (basis t : TimeT) : Nat :=
  (normalizeStatusLastUpdateTime basis t).toNat / 2 ^ 24

theorem readSeconds_lt (basis t : TimeT) : readSeconds basis t < 2 ^ 40 := by
  have := (normalizeStatusLastUpdateTime basis t).isLt
  unfold readSeconds
  omega

theorem and_hiMask_toNat (t : TimeT) :
    (t &&& statusUpdateTimeHiMask).toNat = t.toNat / 2 ^ 24 * 2 ^ 24 := by
  have hmask : statusUpdateTimeHiMask = BitVec.allOnes 64 <<< 24 := by decide
  have hand : t &&& statusUpdateTimeHiMask = (t >>> 24) <<< 24 := by
    rw [hmask]
    ext i hi
    simp only [BitVec.getElem_and, BitVec.getElem_shiftLeft, BitVec.getElem_ushiftRight,
      BitVec.getElem_allOnes]
    by_cases h24 : i < 24
    · simp [h24]
    · have he : 24 + (i - 24) = i := by omega
      simp [h24, he, BitVec.getLsbD_eq_getElem hi]
  have hlt := t.isLt
  rw [hand, BitVec.toNat_shiftLeft, BitVec.toNat_ushiftRight, Nat.shiftLeft_eq,
    Nat.shiftRight_eq_div_pow]
  omega

/-- The comparison is the sign of the difference of the two readings in forty bits. -/
theorem compareStatusUpdateTime_eq (basis a b : TimeT) :
    compareStatusUpdateTime basis a b =
      if readSeconds basis a = readSeconds basis b then 0
      else if (readSeconds basis a + 2 ^ 40 - readSeconds basis b) % 2 ^ 40 < 2 ^ 39 then 1
      else -1 := by
  have ha := readSeconds_lt basis a
  have hb := readSeconds_lt basis b
  have hna : (normalizeStatusLastUpdateTime basis a &&& statusUpdateTimeHiMask).toNat =
      readSeconds basis a * 2 ^ 24 := and_hiMask_toNat _
  have hnb : (normalizeStatusLastUpdateTime basis b &&& statusUpdateTimeHiMask).toNat =
      readSeconds basis b * 2 ^ 24 := and_hiMask_toNat _
  unfold compareStatusUpdateTime
  generalize normalizeStatusLastUpdateTime basis a &&& statusUpdateTimeHiMask = u at hna
  generalize normalizeStatusLastUpdateTime basis b &&& statusUpdateTimeHiMask = v at hnb
  generalize readSeconds basis a = x at ha hna
  generalize readSeconds basis b = y at hb hnb
  dsimp only
  have hd : (u - v).toNat = (2 ^ 64 - y * 2 ^ 24 + x * 2 ^ 24) % 2 ^ 64 := by
    rw [BitVec.toNat_sub, hna, hnb]
  generalize u - v = d at hd
  have hlt := d.isLt
  have hint : d.toInt = if 2 * d.toNat < 2 ^ 64 then (d.toNat : Int) else d.toNat - 2 ^ 64 :=
    BitVec.toInt_eq_toNat_cond d
  have hneg : d.slt 0 = true ↔ 2 ^ 63 ≤ d.toNat := by
    rw [BitVec.slt_eq_decide, decide_eq_true_iff, hint]
    show (if 2 * d.toNat < 2 ^ 64 then (d.toNat : Int) else d.toNat - 2 ^ 64) < 0 ↔ _
    split <;> omega
  have hpos : (0 : TimeT).slt d = true ↔ 0 < d.toNat ∧ d.toNat < 2 ^ 63 := by
    rw [BitVec.slt_eq_decide, decide_eq_true_iff, hint]
    show 0 < (if 2 * d.toNat < 2 ^ 64 then (d.toNat : Int) else d.toNat - 2 ^ 64) ↔ _
    split <;> omega
  simp only [hneg, hpos]
  split_ifs <;> omega

/-! ## What is read off a stamp -/

theorem and_lowMask_toNat {t : TimeT} (h : t.toNat < 2 ^ 24) :
    t &&& statusUpdateTimeLowMask = t := by
  apply BitVec.eq_of_toNat_eq
  show (t &&& 0xffffff#64).toNat = t.toNat
  rw [BitVec.toNat_and]
  show t.toNat &&& (2 ^ 24 - 1) = t.toNat
  rw [Nat.and_two_pow_sub_one_eq_mod]
  omega

theorem sdiv_thousand_toNat {n : Nat} (h : n < 10 ^ 9) :
    ((BitVec.ofNat 64 n).sdiv 1000).toNat = n / 1000 := by
  have hn : (BitVec.ofNat 64 n).msb = false := by
    rw [BitVec.msb_eq_decide, BitVec.toNat_ofNat]
    exact decide_eq_false (by omega)
  have hk : (1000 : TimeT).msb = false := by decide
  rw [BitVec.sdiv_eq, hn, hk]
  show ((BitVec.ofNat 64 n).udiv 1000#64).toNat = _
  rw [BitVec.udiv_eq, BitVec.toNat_udiv, BitVec.toNat_ofNat,
    Nat.mod_eq_of_lt (by omega : n < 2 ^ 64)]
  rfl

theorem or_toNat_of_and {u v : TimeT} (hu : u.toNat % 2 ^ 24 = 0) (hv : v.toNat < 2 ^ 24) :
    (u ||| v).toNat = u.toNat + v.toNat := by
  have he : u.toNat = 2 ^ 24 * (u.toNat / 2 ^ 24) := by omega
  rw [BitVec.toNat_or, he, Nat.two_pow_add_eq_or_of_lt hv]

theorem Stamp.time_toNat (w : Stamp) :
    w.time.toNat = if w.packed then w.sec % 2 ^ 40 * 2 ^ 24 + w.nsec / 1000 else w.sec := by
  have hsec := w.sec_lt
  have hnsec := w.nsec_lt
  unfold Stamp.time
  split
  · have hdiv := sdiv_thousand_toNat hnsec
    have hhi : ((BitVec.ofNat 64 w.sec <<< 24) &&& statusUpdateTimeHiMask).toNat =
        w.sec % 2 ^ 40 * 2 ^ 24 := by
      rw [and_hiMask_toNat, BitVec.toNat_shiftLeft, BitVec.toNat_ofNat, Nat.shiftLeft_eq]
      omega
    unfold getStatusLastUpdateTime
    rw [and_lowMask_toNat (by omega), or_toNat_of_and (by omega) (by omega), hhi, hdiv]
  · rw [BitVec.toNat_ofNat]
    omega

/-- What a process reads off a stamp, by its form. -/
theorem readSeconds_eq (basis t : TimeT) :
    readSeconds basis t =
      if basis.toInt ≤ t.toInt then t.toNat / 2 ^ 24 else t.toNat % 2 ^ 40 := by
  unfold readSeconds normalizeStatusLastUpdateTime
  rw [BitVec.sle_eq_decide]
  by_cases h : basis.toInt ≤ t.toInt
  · rw [if_pos h, if_pos (decide_eq_true h)]
  · rw [if_neg h, if_neg (by simpa using h), and_hiMask_toNat, BitVec.toNat_shiftLeft,
      Nat.shiftLeft_eq]
    omega

/-- A stamp of a second that fits is not negative. -/
theorem Stamp.time_toInt {w : Stamp} (h : w.sec < 2 ^ 39) :
    w.time.toInt = if w.packed then (w.packedNat : Int) else w.sec := by
  have hnsec := w.nsec_lt
  have hnat := w.time_toNat
  rw [BitVec.toInt_eq_toNat_cond, hnat]
  unfold Stamp.packedNat
  split <;> split <;> omega

/-- A second that fits is read right exactly off a legible stamp. -/
theorem Stamp.readSeconds_iff {basis : TimeT} {w : Stamp} (h : w.sec < 2 ^ 39) :
    readSeconds basis w.time = w.sec ↔ w.Legible basis := by
  have hnsec := w.nsec_lt
  rw [readSeconds_eq, w.time_toInt h, w.time_toNat]
  unfold Stamp.Legible Stamp.packedNat
  split <;> split <;> omega

/-! ## The order -/

/-- The stamp of a second that a process reads right: the old form below the basis,
the packed one from it on. -/
def legibleStamp (basis : TimeT) (sec : Nat) (h : sec < 2 ^ 39) : Stamp where
  packed := decide (basis.toInt ≤ sec)
  sec := sec
  nsec := 0
  sec_lt := by omega
  nsec_lt := by omega

theorem legibleStamp_legible (basis : TimeT) (sec : Nat) (h : sec < 2 ^ 39) :
    (legibleStamp basis sec h).Legible basis := by
  refine ⟨h, ?_⟩
  unfold legibleStamp Stamp.packedNat
  by_cases hb : basis.toInt ≤ sec
  · rw [if_pos (decide_eq_true hb)]
    dsimp only
    omega
  · rw [if_neg (by simpa using hb)]
    dsimp only
    omega

/-- Legible stamps are ordered by the seconds at which they were written. -/
theorem Stamp.Legible.compare {basis : TimeT} {w w' : Stamp} (h : w.Legible basis)
    (h' : w'.Legible basis) :
    compareStatusUpdateTime basis w.time w'.time = ((w.sec : Int) - w'.sec).sign := by
  have hsec := h.1
  have hsec' := h'.1
  rw [compareStatusUpdateTime_eq, (Stamp.readSeconds_iff hsec).mpr h,
    (Stamp.readSeconds_iff hsec').mpr h']
  rcases Nat.lt_trichotomy w.sec w'.sec with hlt | heq | hgt
  · rw [Int.sign_eq_neg_one_of_neg (by omega), if_neg (by omega), if_neg (by omega)]
  · rw [heq, Int.sub_self, if_pos rfl]
    rfl
  · rw [Int.sign_eq_one_of_pos (by omega), if_neg (by omega), if_pos (by omega)]

/-- A stamp that is not legible is misplaced against a legible one. -/
theorem exists_misplaced {basis : TimeT} {w : Stamp} (h : ¬w.Legible basis) :
    ∃ w' : Stamp, w'.Legible basis ∧
      compareStatusUpdateTime basis w.time w'.time ≠ ((w.sec : Int) - w'.sec).sign := by
  have hread := readSeconds_lt basis w.time
  have hother : ∀ sec (hsec : sec < 2 ^ 39),
      readSeconds basis (legibleStamp basis sec hsec).time = sec := fun sec hsec =>
    (Stamp.readSeconds_iff hsec).mpr (legibleStamp_legible basis sec hsec)
  by_cases hsec : w.sec < 2 ^ 39
  · -- Against the same second, which is not the one that is read.
    refine ⟨legibleStamp basis w.sec hsec, legibleStamp_legible basis _ hsec, ?_⟩
    have hne : readSeconds basis w.time ≠ w.sec := fun he => h ((Stamp.readSeconds_iff hsec).mp he)
    rw [compareStatusUpdateTime_eq, hother]
    show _ ≠ ((w.sec : Int) - w.sec).sign
    rw [if_neg hne, Int.sub_self, Int.sign_zero]
    split <;> omega
  · by_cases hx : readSeconds basis w.time < 2 ^ 39
    · -- Against the second that is read, which is earlier.
      refine ⟨legibleStamp basis _ hx, legibleStamp_legible basis _ hx, ?_⟩
      rw [compareStatusUpdateTime_eq, hother, if_pos rfl]
      show (0 : Int) ≠ ((w.sec : Int) - readSeconds basis w.time).sign
      rw [Int.sign_eq_one_of_pos (by omega)]
      omega
    · -- Against the first second: the reading is negative.
      refine ⟨legibleStamp basis 0 (by omega), legibleStamp_legible basis 0 _, ?_⟩
      rw [compareStatusUpdateTime_eq, hother, if_neg (by omega), if_neg (by omega)]
      show (-1 : Int) ≠ ((w.sec : Int) - (0 : Nat)).sign
      rw [Int.sign_eq_one_of_pos (by omega)]
      omega

/-- Against the stamps that a process reads right it orders a stamp by its second, and
as a total preorder, exactly when it reads the stamp right too. -/
theorem compareStatusUpdateTime_orders_iff (basis : TimeT) (w : Stamp) :
    (∀ w' w'' : Stamp, w'.Legible basis → w''.Legible basis →
      compareStatusUpdateTime basis w.time w'.time = ((w.sec : Int) - w'.sec).sign ∧
      compareStatusUpdateTime basis w'.time w.time =
        -compareStatusUpdateTime basis w.time w'.time ∧
      (compareStatusUpdateTime basis w.time w'.time ≤ 0 →
        compareStatusUpdateTime basis w'.time w''.time ≤ 0 →
        compareStatusUpdateTime basis w.time w''.time ≤ 0)) ↔
      w.Legible basis := by
  constructor
  · intro h
    by_contra hw
    obtain ⟨w', hw', hne⟩ := exists_misplaced hw
    exact hne (h w' w' hw' hw').1
  · intro h w' w'' h' h''
    rw [h.compare h', h'.compare h, h'.compare h'', h.compare h'']
    refine ⟨rfl, ?_, fun hle hle' => ?_⟩
    · rw [← Int.sign_neg, Int.neg_sub]
    · rw [Int.sign_nonpos_iff] at hle hle' ⊢
      omega

/-- A process that has started in a new year of 365 days reads a stamp of the last
second before it as the old form. -/
theorem compareStatusUpdateTime_newYear :
    ¬∀ (start : TimeT) (w w' : Stamp),
      compareStatusUpdateTime (getBasisUpdateTime start) w.time w'.time =
        ((w.sec : Int) - w'.sec).sign := by
  intro h
  have hlate := h 1735689600#64 ⟨true, 1734479999, 0, by decide, by decide⟩
    ⟨true, 1734480001, 0, by decide, by decide⟩
  exact absurd hlate (by decide +kernel)

end Chm
