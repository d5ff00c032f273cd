/-
The statistics of what has been sent and received: `CHMSTAT`.

`Add` counts a packet, adds up the lengths and the elapsed times, and keeps the shortest and
the longest of each.  Zero stands for no packet yet, which a length or a time may also be, and
the two comparisons of times are the wrong way round.  The statistics are right only in the
cases of `addAll_true_iff`.
-/
import Chm.Lib.Extremes
import Chm.Time
import Mathlib.Tactic.SplitIfs

namespace Chm

/-! ## `struct timespec` -/

namespace Timespec

variable {s t u : Timespec}

/-- What `clock_gettime` gives: the nanoseconds are a part of a second. -/
def Normal (t : Timespec) : Prop := 0 ≤ t.nsec ∧ t.nsec < 1000 * 1000 * 1000

instance (t : Timespec) : Decidable t.Normal := inferInstanceAs (Decidable (_ ∧ _))

/-- The time in nanoseconds. -/
def nanos (t : Timespec) : Int := t.sec * (1000 * 1000 * 1000) + t.nsec

/-- `INIT_TIMESPEC`. -/
def zero : Timespec := ⟨0, 0⟩

theorem zero_normal : zero.Normal := by decide

theorem eq_of_nanos (hs : s.Normal) (ht : t.Normal) (h : s.nanos = t.nanos) : s = t := by
  obtain ⟨hs₀, hs₁⟩ := hs
  obtain ⟨ht₀, ht₁⟩ := ht
  rw [nanos, nanos] at h
  have hsec : s.sec = t.sec := by omega
  have hnsec : s.nsec = t.nsec := by omega
  exact Timespec.ext hsec hnsec

end Timespec

open Timespec

/-- `COMPARE_TIMESPEC`. -/
def compareTimespec (data1 data2 : Timespec) : Int :=
  if data1.sec > data2.sec then 1
  else if data1.sec < data2.sec then -1
  else if data1.nsec > data2.nsec then 1
  else if data1.nsec < data2.nsec then -1
  else 0

/-- `ADD_TIMESPEC`. -/
def addTimespec (base val : Timespec) : Timespec :=
  let sec := base.sec + val.sec
  let nsec := base.nsec + val.nsec
  if 1 ≤ nsec.tdiv (1000 * 1000 * 1000) then ⟨sec + 1, nsec.tmod (1000 * 1000 * 1000)⟩
  else ⟨sec, nsec⟩

/-- `SUB_TIMESPEC`. -/
def subTimespec (base val : Timespec) : Timespec :=
  if base.nsec < val.nsec then
    ⟨base.sec - 1 - val.sec, base.nsec + 1000 * 1000 * 1000 - val.nsec⟩
  else ⟨base.sec - val.sec, base.nsec - val.nsec⟩

section

variable {s t : Timespec}

theorem compareTimespec_spec (hs : s.Normal) (ht : t.Normal) :
    (compareTimespec s t < 0 ↔ s.nanos < t.nanos) ∧
      (0 < compareTimespec s t ↔ t.nanos < s.nanos) := by
  obtain ⟨hs₀, hs₁⟩ := hs
  obtain ⟨ht₀, ht₁⟩ := ht
  rw [compareTimespec, nanos, nanos]
  split_ifs <;> omega

theorem addTimespec_spec (hs : s.Normal) (ht : t.Normal) :
    (addTimespec s t).Normal ∧ (addTimespec s t).nanos = s.nanos + t.nanos := by
  obtain ⟨hs₀, hs₁⟩ := hs
  obtain ⟨ht₀, ht₁⟩ := ht
  have hsum : 0 ≤ s.nsec + t.nsec := by omega
  have hdiv := Int.tdiv_eq_ediv_of_nonneg (b := 1000 * 1000 * 1000) hsum
  have hmod := Int.tmod_eq_emod_of_nonneg (b := 1000 * 1000 * 1000) hsum
  simp only [addTimespec, hdiv, hmod]
  split_ifs <;> simp only [Timespec.Normal, nanos] <;> omega

/-- The time that a caller of `Add` has measured, whatever the clock did meanwhile. -/
theorem subTimespec_spec (hs : s.Normal) (ht : t.Normal) :
    (subTimespec s t).Normal ∧ (subTimespec s t).nanos = s.nanos - t.nanos := by
  obtain ⟨hs₀, hs₁⟩ := hs
  obtain ⟨ht₀, ht₁⟩ := ht
  rw [subTimespec]
  split_ifs <;> simp only [Timespec.Normal, nanos] <;> omega

end

/-! ## `CHMSTAT` -/

/-- `CHMSTAT`; the two counts have no bound here. -/
structure ChmStat where
  totalSentCount : Nat
  totalReceivedCount : Nat
  totalBodyBytes : Nat
  minBodyBytes : Nat
  maxBodyBytes : Nat
  totalElapsedTime : Timespec
  minElapsedTime : Timespec
  maxElapsedTime : Timespec
  deriving DecidableEq, Repr

/-- The arguments of `Add`. -/
structure StatAdd where
  isSent : Bool
  length : Nat
  elapsedTime : Timespec
  deriving DecidableEq, Repr

namespace ChmStat

variable {s : ChmStat} {adds : List StatAdd} {a : StatAdd}

/-- `Clear`, which is `Initialize`. -/
def clear : ChmStat := ⟨0, 0, 0, 0, 0, zero, zero, zero⟩

/-- `Add`; a `size_t` has 64 bits. -/
def add (s : ChmStat) (a : StatAdd) : ChmStat where
  totalSentCount := if a.isSent then s.totalSentCount + 1 else s.totalSentCount
  totalReceivedCount := if a.isSent then s.totalReceivedCount else s.totalReceivedCount + 1
  totalBodyBytes := (s.totalBodyBytes + a.length) % 2 ^ 64
  minBodyBytes :=
    if 0 = s.minBodyBytes ∨ a.length < s.minBodyBytes then a.length else s.minBodyBytes
  maxBodyBytes := if s.maxBodyBytes < a.length then a.length else s.maxBodyBytes
  totalElapsedTime := addTimespec s.totalElapsedTime a.elapsedTime
  minElapsedTime :=
    if 0 = s.minElapsedTime.sec ∧ 0 = s.minElapsedTime.nsec ∨
        0 > compareTimespec s.minElapsedTime a.elapsedTime then a.elapsedTime
    else s.minElapsedTime
  maxElapsedTime :=
    if 0 < compareTimespec s.maxElapsedTime a.elapsedTime then a.elapsedTime
    else s.maxElapsedTime

def addAll (s : ChmStat) (adds : List StatAdd) : ChmStat := adds.foldl add s

theorem addAll_append (s : ChmStat) (adds : List StatAdd) (a : StatAdd) :
    s.addAll (adds ++ [a]) = (s.addAll adds).add a := by
  simp [addAll]

/-! ## What the statistics should say -/

def lengths (adds : List StatAdd) : List Nat := adds.map (·.length)

/-- The elapsed times in nanoseconds. -/
def times (adds : List StatAdd) : List Int := adds.map (·.elapsedTime.nanos)

theorem lengths_append : lengths (adds ++ [a]) = lengths adds ++ [a.length] := by
  simp [lengths]

theorem times_append : times (adds ++ [a]) = times adds ++ [a.elapsedTime.nanos] := by
  simp [times]

/-- The statistics of what has been added. -/
structure Tells (adds : List StatAdd) (s : ChmStat) : Prop where
  sent : s.totalSentCount = adds.countP (·.isSent)
  received : s.totalReceivedCount = adds.countP fun a => !a.isSent
  bytes : s.totalBodyBytes = (lengths adds).sum
  minBody : IsLeast {l | l ∈ lengths adds} s.minBodyBytes
  maxBody : IsGreatest {l | l ∈ lengths adds} s.maxBodyBytes
  elapsed : s.totalElapsedTime.nanos = (times adds).sum
  minElapsed : IsLeast {t | t ∈ times adds} s.minElapsedTime.nanos
  maxElapsed : IsGreatest {t | t ∈ times adds} s.maxElapsedTime.nanos

/-! ## Totals -/

theorem counts_addAll (adds : List StatAdd) :
    (clear.addAll adds).totalSentCount = adds.countP (·.isSent) ∧
      (clear.addAll adds).totalReceivedCount = adds.countP fun a => !a.isSent := by
  induction adds using List.reverseRecOn with
  | nil => exact ⟨rfl, rfl⟩
  | append_singleton adds a ih =>
    rw [addAll_append, List.countP_append, List.countP_append, ← ih.1, ← ih.2]
    cases h : a.isSent <;> simp [add, h]

theorem totalBodyBytes_addAll (adds : List StatAdd) :
    (clear.addAll adds).totalBodyBytes = (lengths adds).sum % 2 ^ 64 := by
  induction adds using List.reverseRecOn with
  | nil => rfl
  | append_singleton adds a ih =>
    rw [addAll_append, add]
    dsimp only
    rw [ih, lengths_append, List.sum_append, List.sum_singleton, Nat.mod_add_mod]

/-- The times that the statistics hold are sound, and the total is the sum. -/
theorem times_addAll (h : ∀ a ∈ adds, a.elapsedTime.Normal) :
    ((clear.addAll adds).minElapsedTime.Normal ∧ (clear.addAll adds).maxElapsedTime.Normal) ∧
      (clear.addAll adds).totalElapsedTime.Normal ∧
      (clear.addAll adds).totalElapsedTime.nanos = (times adds).sum := by
  induction adds using List.reverseRecOn with
  | nil => exact ⟨⟨zero_normal, zero_normal⟩, zero_normal, rfl⟩
  | append_singleton adds a ih =>
    obtain ⟨⟨hmin, hmax⟩, htotal, hsum⟩ := ih fun b hb => h b (List.mem_append_left _ hb)
    have ha := h a (List.mem_append_right _ (List.mem_singleton_self a))
    obtain ⟨hadd, hnanos⟩ := addTimespec_spec htotal ha
    rw [addAll_append, add, times_append, List.sum_append, List.sum_singleton]
    dsimp only
    refine ⟨⟨?_, ?_⟩, hadd, by rw [hnanos, hsum]⟩
    · split
      · exact ha
      · exact hmin
    · split
      · exact ha
      · exact hmax

/-! ## Extremes -/

theorem maxBodyBytes_addAll (adds : List StatAdd) :
    (clear.addAll adds).maxBodyBytes = (lengths adds).foldl max 0 := by
  induction adds using List.reverseRecOn with
  | nil => rfl
  | append_singleton adds a ih =>
    rw [addAll_append, add, lengths_append, List.foldl_append, ← ih]
    dsimp only [List.foldl_cons, List.foldl_nil]
    split_ifs with h
    · exact (Nat.max_eq_right h.le).symm
    · exact (Nat.max_eq_left (Nat.le_of_not_lt h)).symm

theorem minBodyBytes_addAll (adds : List StatAdd) :
    (clear.addAll adds).minBodyBytes = (lengths adds).foldl (Extremes.leastStep 0) 0 := by
  induction adds using List.reverseRecOn with
  | nil => rfl
  | append_singleton adds a ih =>
    rw [addAll_append, add, lengths_append, List.foldl_append, ← ih]
    rfl

/-- The longest time goes down from zero. -/
theorem maxElapsedTime_addAll (h : ∀ a ∈ adds, a.elapsedTime.Normal) :
    (clear.addAll adds).maxElapsedTime.nanos = (times adds).foldl min 0 := by
  induction adds using List.reverseRecOn with
  | nil => rfl
  | append_singleton adds a ih =>
    have hadds : ∀ b ∈ adds, b.elapsedTime.Normal := fun b hb => h b (List.mem_append_left _ hb)
    have ha := h a (List.mem_append_right _ (List.mem_singleton_self a))
    have hcompare := (compareTimespec_spec (times_addAll hadds).1.2 ha).2
    rw [addAll_append, add, times_append, List.foldl_append, ← ih hadds]
    dsimp only [List.foldl_cons, List.foldl_nil]
    split_ifs with hlt
    · exact (min_eq_right (hcompare.mp hlt).le).symm
    · exact (min_eq_left (not_lt.mp (mt hcompare.mpr hlt))).symm

/-- Equal times leave the shortest at their value. -/
theorem minElapsedTime_addAll {t : Timespec} (hne : adds ≠ [])
    (hsame : ∀ a ∈ adds, a.elapsedTime = t) : (clear.addAll adds).minElapsedTime = t := by
  induction adds using List.reverseRecOn with
  | nil => exact absurd rfl hne
  | append_singleton adds a ih =>
    have ha := hsame a (List.mem_append_right _ (List.mem_singleton_self a))
    rw [addAll_append, add]
    dsimp only
    split_ifs with h
    · exact ha
    · by_cases hadds : adds = []
      · rw [hadds] at h
        exact absurd (Or.inl ⟨rfl, rfl⟩) h
      · exact ih hadds fun b hb => hsame b (List.mem_append_left _ hb)

/-- The statistics say what they should exactly when no packet, or the last one, was empty, the
total of the lengths fits, and all packets took the same time, which is not positive. -/
theorem addAll_true_iff (hne : adds ≠ []) (h : ∀ a ∈ adds, a.elapsedTime.Normal) :
    Tells adds (clear.addAll adds) ↔
      ((∀ a ∈ adds, a.length ≠ 0) ∨ ∀ a ∈ adds.getLast?, a.length = 0) ∧
        (lengths adds).sum < 2 ^ 64 ∧
        ∃ t, t.nanos ≤ 0 ∧ ∀ a ∈ adds, a.elapsedTime = t := by
  have hlengths : lengths adds ≠ [] := by simpa [lengths] using hne
  have htimes : times adds ≠ [] := by simpa [times] using hne
  obtain ⟨⟨hmin, hmax⟩, -, htotal⟩ := times_addAll h
  have hbytes := totalBodyBytes_addAll adds
  have hminBody : IsLeast {l | l ∈ lengths adds} (clear.addAll adds).minBodyBytes ↔
      (∀ a ∈ adds, a.length ≠ 0) ∨ ∀ a ∈ adds.getLast?, a.length = 0 := by
    obtain ⟨adds, a, rfl⟩ := (List.eq_nil_or_concat' adds).resolve_left hne
    have hzero : 0 ∉ lengths (adds ++ [a]) ↔ ∀ b ∈ adds ++ [a], b.length ≠ 0 := by
      simp only [lengths, List.mem_map, not_exists, not_and]
    rw [minBodyBytes_addAll, lengths_append,
      Extremes.isLeast_foldl_leastStep_iff fun _ _ => Nat.zero_le _, ← lengths_append, hzero,
      List.getLast?_concat]
    simp only [Option.mem_def, Option.some.injEq, forall_eq']
  have hmaxTime : IsGreatest {t | t ∈ times adds} (clear.addAll adds).maxElapsedTime.nanos ↔
      ∃ t, t.nanos ≤ 0 ∧ ∀ a ∈ adds, a.elapsedTime = t := by
    rw [maxElapsedTime_addAll h, Extremes.isGreatest_foldl_min_iff htimes]
    constructor
    · rintro ⟨t, ht, hsame⟩
      have hall : ∀ b ∈ adds, b.elapsedTime.nanos = t := fun b hb =>
        hsame _ (List.mem_map_of_mem hb)
      obtain ⟨b, hb⟩ := List.exists_mem_of_ne_nil adds hne
      exact ⟨b.elapsedTime, (hall b hb).trans_le ht, fun c hc =>
        eq_of_nanos (h c hc) (h b hb) ((hall c hc).trans (hall b hb).symm)⟩
    · rintro ⟨t, ht, hsame⟩
      refine ⟨t.nanos, ht, fun n hn => ?_⟩
      obtain ⟨b, hb, rfl⟩ := List.mem_map.mp hn
      exact congrArg nanos (hsame b hb)
  constructor
  · rintro ⟨-, -, hsum, hleast, -, -, -, hgreatest⟩
    refine ⟨hminBody.mp hleast, ?_, hmaxTime.mp hgreatest⟩
    rw [← hsum, hbytes]
    exact Nat.mod_lt _ (by decide)
  · rintro ⟨hlens, hsum, hsame⟩
    refine ⟨(counts_addAll adds).1, (counts_addAll adds).2,
      hbytes.trans (Nat.mod_eq_of_lt hsum), hminBody.mpr hlens, ?_, htotal, ?_,
      hmaxTime.mpr hsame⟩
    · rw [maxBodyBytes_addAll]
      exact Extremes.isGreatest_foldl_max hlengths fun _ _ => Nat.zero_le _
    · obtain ⟨t, -, hsame⟩ := hsame
      rw [minElapsedTime_addAll hne hsame]
      have hall : ∀ n ∈ times adds, n = t.nanos := by
        intro n hn
        obtain ⟨b, hb, rfl⟩ := List.mem_map.mp hn
        exact congrArg nanos (hsame b hb)
      obtain ⟨n, hn⟩ := List.exists_mem_of_ne_nil _ htimes
      exact ⟨hall n hn ▸ hn, fun k hk => (hall k hk).ge⟩

/-- Two packets in the same clock tick. -/
theorem addAll_true_sample :
    Tells [⟨true, 3, ⟨0, 0⟩⟩, ⟨false, 5, ⟨0, 0⟩⟩]
      (clear.addAll [⟨true, 3, ⟨0, 0⟩⟩, ⟨false, 5, ⟨0, 0⟩⟩]) :=
  (addAll_true_iff (by decide) (by decide)).mpr
    ⟨Or.inl (by decide), by decide, zero, by decide, by decide⟩

/-- Two packets that took one second and two: the shortest time is given as the longer one, and
the longest as none. -/
theorem addAll_swaps :
    clear.addAll [⟨true, 3, ⟨1, 0⟩⟩, ⟨true, 5, ⟨2, 0⟩⟩] =
        ⟨2, 0, 8, 3, 5, ⟨3, 0⟩, ⟨2, 0⟩, ⟨0, 0⟩⟩ ∧
      ¬Tells [⟨true, 3, ⟨1, 0⟩⟩, ⟨true, 5, ⟨2, 0⟩⟩]
        (clear.addAll [⟨true, 3, ⟨1, 0⟩⟩, ⟨true, 5, ⟨2, 0⟩⟩]) := by
  refine ⟨by decide, fun h => ?_⟩
  have hmem := h.maxElapsed.1
  exact absurd hmem (by decide)

end ChmStat
end Chm
