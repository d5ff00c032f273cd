/-
Host and port pairs as text.

`get_hostport_pairs_string` writes the set slots of an array, a comma between two of them, and
`parse_hostport_pairs_from_string` reads one pair.  Who has a whole text splits it at the commas
first, as `ConnectControlPort` does.  A port is a `short`: from 32768 on it is negative there and
its text is no number.
-/
import Chm.Runs
import Chm.Lib.Decimal
import Chm.Lib.Trim

namespace Chm

/-! ## The text utilities -/

/-- The loop of `cvt_string_to_number_raw`: whether the text is a number, and the result so far. -/
def cvtStringLoop (isDecimal : Bool) : Nat → CStr → Bool × Nat
  | result, [] => (true, result)
  | result, c :: ptmp =>
    if isDecimal then
      if c < 48 ∨ 57 < c then (false, result * 10 % 2 ^ 64)
      else cvtStringLoop isDecimal ((result * 10 % 2 ^ 64 + (c - 48)) % 2 ^ 64) ptmp
    else if 48 ≤ c ∧ c ≤ 57 then
      cvtStringLoop isDecimal ((result * 16 % 2 ^ 64 + (c - 48)) % 2 ^ 64) ptmp
    else if 97 ≤ c ∧ c ≤ 102 then
      cvtStringLoop isDecimal ((result * 16 % 2 ^ 64 + (c - 97 + 10)) % 2 ^ 64) ptmp
    else if 65 ≤ c ∧ c ≤ 70 then
      cvtStringLoop isDecimal ((result * 16 % 2 ^ 64 + (c - 65 + 10)) % 2 ^ 64) ptmp
    else (false, result * 16 % 2 ^ 64)

/-- `cvt_string_to_number_raw`. -/
def cvtStringToNumberRaw (pbase : CStr) (presult : Nat) (isDecimal : Bool) : Bool × Nat :=
  if pbase = [] then (false, presult) else cvtStringLoop isDecimal 0 pbase

/-- `cvt_string_to_number`: what the result holds, also when the text is no number. -/
def cvtStringToNumber (pbase : CStr) (isDecimal : Bool) : Nat :=
  (cvtStringToNumberRaw pbase 0 isDecimal).2

/-- `getline` until the end: an empty rest behind the last separator is no line. -/
def getlines (sep : Nat) (pbase : CStr) : List CStr :=
  if (pbase.splitOn sep).getLast? = some [] then (pbase.splitOn sep).dropLast
  else pbase.splitOn sep

/-- `str_split`. -/
def strSplit (trim : CStr → CStr) (pbase : CStr) (sep : Nat) (istrim : Bool) :
    Bool × List CStr :=
  if pbase = [] then (false, [])
  else (true, (getlines sep pbase).map fun one => if istrim then trim one else one)

/-- A value in a `short`. -/
def toShort (n : Nat) : Int := Int.bmod n (2 ^ 16)

/-- `parse_hostport_pairs_from_string`: one pair, in the place of `pair`. -/
def parseHostportPairsFromString (hostportPair : CStr) (pair : HostPort) : Bool × HostPort :=
  if hostportPair = [] then (false, pair)
  else if 58 ∈ hostportPair then
    (true, ⟨(hostportPair.takeWhile (· ≠ 58)).take (niMaxhost - 1),
      toShort (cvtStringToNumber ((hostportPair.dropWhile (· ≠ 58)).drop 1) true)⟩)
  else (true, ⟨hostportPair.take (niMaxhost - 1), chmInvalidPort⟩)

/-- `trim` of the k2hash library takes the white space at both ends away. -/
structure TrimsSpaces (trim : CStr → CStr) (blank : Nat → Bool) : Prop where
  both : trim = Trim.both blank
  spaces : ∀ c, blank c = true → c = 32 ∨ 9 ≤ c ∧ c ≤ 13

/-! ## Numbers -/

theorem cvtStringLoop_digits {l : CStr} (hl : ∀ c ∈ l, 48 ≤ c ∧ c ≤ 57) (result : Nat) :
    cvtStringLoop true result l =
      (true, l.foldl (fun r c => (r * 10 % 2 ^ 64 + (c - 48)) % 2 ^ 64) result) := by
  induction l generalizing result with
  | nil => rfl
  | cons c l ih =>
    have hc := hl c List.mem_cons_self
    have hdigit : ¬(c < 48 ∨ 57 < c) := by omega
    rw [cvtStringLoop, if_pos rfl, if_neg hdigit, List.foldl_cons]
    exact ih (fun d hd => hl d (List.mem_cons_of_mem c hd)) _

theorem cvtStringToNumber_text {n : Nat} (hn : n < 2 ^ 64) :
    cvtStringToNumber (Decimal.text n) true = n := by
  rw [cvtStringToNumber, cvtStringToNumberRaw, if_neg Decimal.text_ne_nil,
    cvtStringLoop_digits fun c hc => Decimal.mem_text hc]
  exact Decimal.foldl_text hn

theorem toShort_of_lt {n : Nat} (hn : n < 2 ^ 15) : toShort n = n :=
  Int.bmod_eq_of_le_mul_two (by omega) (by omega)

/-! ## One pair -/

namespace HostPort

/-- The slot of an array holds a pair. -/
def isSet (hp : HostPort) : Bool := !(hp.name = [] && hp.port = chmInvalidPort)

/-- A set slot in the text. -/
def text (env : Env) (hp : HostPort) : CStr :=
  hp.name ++ if hp.port = chmInvalidPort then [] else 58 :: env.toDecstring hp.port

/-- The pair is one that the text keeps: a host name without separators that fits its field, and
no port or one that is not negative. -/
structure Writable (blank : Nat → Bool) (hp : HostPort) : Prop where
  named : hp.name ≠ []
  comma : 44 ∉ hp.name
  colon : 58 ∉ hp.name
  fits : hp.name.length < niMaxhost
  head : ∀ c ∈ hp.name.head?, blank c = false
  last : ∀ c ∈ hp.name.getLast?, blank c = false
  port : hp.port = chmInvalidPort ∨ 0 ≤ hp.port ∧ hp.port < 2 ^ 15

variable {env : Env} {blank : Nat → Bool} {trim : CStr → CStr} {hp : HostPort}

namespace Writable

theorem isSet (h : hp.Writable blank) : hp.isSet = true := by
  rw [HostPort.isSet, decide_eq_false h.named]
  rfl

theorem text_ne_nil (h : hp.Writable blank) : hp.text env ≠ [] := by
  rw [text]
  exact fun hnil => h.named (List.append_eq_nil_iff.mp hnil).1

/-- The port of a pair with one, and its text. -/
theorem port_text (h : hp.Writable blank) (hdec : env.toDecstring = Decimal.intText)
    (hport : hp.port ≠ chmInvalidPort) :
    ∃ n : Nat, n < 2 ^ 15 ∧ hp.port = n ∧ hp.text env = hp.name ++ 58 :: Decimal.text n := by
  obtain ⟨h0, hlt⟩ := h.port.resolve_left hport
  refine ⟨hp.port.natAbs, by omega, by omega, ?_⟩
  rw [text, if_neg hport, hdec, Decimal.intText, if_neg (by omega)]

theorem comma_text (h : hp.Writable blank) (hdec : env.toDecstring = Decimal.intText) :
    44 ∉ hp.text env := by
  by_cases hport : hp.port = chmInvalidPort
  · rw [text, if_pos hport, List.append_nil]
    exact h.comma
  · obtain ⟨n, -, -, htext⟩ := h.port_text hdec hport
    rw [htext, List.mem_append, List.mem_cons]
    rintro (hname | hcolon | hdigit)
    · exact h.comma hname
    · cases hcolon
    · have := Decimal.mem_text hdigit
      omega

theorem trim_text (h : hp.Writable blank) (hdec : env.toDecstring = Decimal.intText)
    (htrim : TrimsSpaces trim blank) : trim (hp.text env) = hp.text env := by
  rw [htrim.both]
  refine Trim.both_eq_self ?_ ?_
  · intro c hc
    rw [text, List.head?_append_of_ne_nil _ h.named] at hc
    exact h.head c hc
  · by_cases hport : hp.port = chmInvalidPort
    · rw [text, if_pos hport, List.append_nil]
      exact h.last
    · obtain ⟨n, -, -, htext⟩ := h.port_text hdec hport
      intro c hc
      rw [htext, List.getLast?_append_of_ne_nil _ (List.cons_ne_nil _ _),
        List.getLast?_cons_of_ne_nil Decimal.text_ne_nil] at hc
      have hdigit := Decimal.mem_text (List.mem_of_getLast? hc)
      by_contra hblank
      have hspace := htrim.spaces c (Bool.eq_true_of_not_eq_false hblank)
      omega

/-- A pair that is read from its text is the pair. -/
theorem parse_text (h : hp.Writable blank) (hdec : env.toDecstring = Decimal.intText)
    (pair : HostPort) : parseHostportPairsFromString (hp.text env) pair = (true, hp) := by
  have hname : hp.name.take (niMaxhost - 1) = hp.name :=
    List.take_of_length_le (by have := h.fits; omega)
  rw [parseHostportPairsFromString, if_neg h.text_ne_nil]
  by_cases hport : hp.port = chmInvalidPort
  · rw [text, if_pos hport, List.append_nil, if_neg h.colon, hname, ← hport]
  · obtain ⟨n, hn, hp', htext⟩ := h.port_text hdec hport
    have hkeep : ∀ c ∈ hp.name, (decide (c ≠ 58)) = true :=
      fun c hc => decide_eq_true fun h58 => h.colon (h58 ▸ hc)
    rw [htext, if_pos (List.mem_append_right _ List.mem_cons_self),
      List.takeWhile_append_of_pos hkeep, List.dropWhile_append_of_pos hkeep]
    have htake : List.takeWhile (fun c => decide (c ≠ 58)) (58 :: Decimal.text n) = [] := rfl
    have hdrop : List.dropWhile (fun c => decide (c ≠ 58)) (58 :: Decimal.text n) =
        58 :: Decimal.text n := rfl
    rw [htake, hdrop, List.append_nil, hname, List.drop_succ_cons, List.drop_zero,
      cvtStringToNumber_text (by omega), toShort_of_lt hn, ← hp']

end Writable

end HostPort

/-! ## A whole array -/

section

variable {env : Env} {blank : Nat → Bool} {trim : CStr → CStr} {pair : List HostPort}

theorem intercalate_append (sep l l' : CStr) (ls : List CStr) :
    List.intercalate sep ((l ++ sep ++ l') :: ls) = List.intercalate sep (l :: l' :: ls) := by
  cases ls with
  | nil =>
    rw [List.intercalate_cons_cons, List.intercalate_singleton, List.intercalate_singleton]
  | cons l'' ls =>
    simp only [List.intercalate_cons_cons, List.append_assoc]

/-- What the loop of `getHostportPairsString` does with one slot. -/
theorem slot_text {hp : HostPort} {result : CStr} :
    (if hp.name = [] ∧ hp.port = chmInvalidPort then result
      else (if result = [] then [] else result ++ [44]) ++ hp.name ++
        (if hp.port = chmInvalidPort then [] else 58 :: env.toDecstring hp.port)) =
      if hp.isSet then (if result = [] then [] else result ++ [44]) ++ hp.text env
      else result := by
  by_cases hunset : hp.name = [] ∧ hp.port = chmInvalidPort
  · have hset : hp.isSet = false := by simp [HostPort.isSet, hunset]
    rw [if_pos hunset, hset]
    rfl
  · have hset : hp.isSet = true := by
      rw [HostPort.isSet, Bool.not_eq_true', Bool.and_eq_false_iff]
      simpa only [decide_eq_false_iff_not, not_and_or] using hunset
    rw [if_neg hunset, hset, if_pos rfl, HostPort.text, List.append_assoc]

theorem foldl_slots (h : ∀ hp ∈ pair, hp.isSet = true → hp.text env ≠ []) {result : CStr}
    (hresult : result ≠ []) :
    pair.foldl (fun result hp =>
      if hp.isSet then (if result = [] then [] else result ++ [44]) ++ hp.text env
      else result) result =
      List.intercalate [44]
        (result :: (pair.filter HostPort.isSet).map (HostPort.text env)) := by
  induction pair generalizing result with
  | nil => exact List.intercalate_singleton.symm
  | cons hp pair ih =>
    have hpair := fun hp' hmem => h hp' (List.mem_cons_of_mem hp hmem)
    by_cases hset : hp.isSet = true
    · have hnext : result ++ [44] ++ hp.text env ≠ [] := by simp
      rw [List.foldl_cons, if_pos hset, if_neg hresult, ih hpair hnext,
        List.filter_cons_of_pos hset, List.map_cons, intercalate_append]
    · rw [List.foldl_cons, if_neg hset, ih hpair hresult, List.filter_cons_of_neg hset]

/-- The text is the texts of the set slots with a comma between them. -/
theorem getHostportPairsString_eq (h : ∀ hp ∈ pair, hp.isSet = true → hp.text env ≠ []) :
    getHostportPairsString env pair =
      List.intercalate [44] ((pair.filter HostPort.isSet).map (HostPort.text env)) := by
  simp only [getHostportPairsString, slot_text]
  induction pair with
  | nil => rfl
  | cons hp pair ih =>
    have hpair := fun hp' hmem => h hp' (List.mem_cons_of_mem hp hmem)
    by_cases hset : hp.isSet = true
    · rw [List.foldl_cons, if_pos hset, if_pos rfl, List.nil_append,
        foldl_slots hpair (h hp List.mem_cons_self hset), List.filter_cons_of_pos hset,
        List.map_cons]
    · rw [List.foldl_cons, if_neg hset, ih hpair, List.filter_cons_of_neg hset]

theorem getlines_intercalate {sep : Nat} {ls : List CStr} (hls : ls ≠ [])
    (h : ∀ l ∈ ls, sep ∉ l ∧ l ≠ []) : getlines sep (List.intercalate [sep] ls) = ls := by
  rw [getlines, List.splitOn_intercalate sep (fun l hl => (h l hl).1) hls, if_neg]
  intro hlast
  exact (h [] (List.mem_of_getLast? hlast)).2 rfl

/-- The pairs that are read from the items of an array's text are those in its set slots, in
their order. -/
theorem parse_hostportPairsString (hdec : env.toDecstring = Decimal.intText)
    (htrim : TrimsSpaces trim blank)
    (h : ∀ hp ∈ pair, hp.isSet = true → hp.Writable blank) (istrim : Bool) (place : HostPort) :
    (strSplit trim (getHostportPairsString env pair) 44 istrim).2.map
        (fun item => parseHostportPairsFromString item place) =
      (pair.filter HostPort.isSet).map fun hp => (true, hp) := by
  have hset : ∀ hp ∈ pair.filter HostPort.isSet, hp.Writable blank :=
    fun hp hp' => h hp (List.mem_filter.mp hp').1 (List.mem_filter.mp hp').2
  rw [getHostportPairsString_eq fun hp hmem hs => (h hp hmem hs).text_ne_nil]
  generalize pair.filter HostPort.isSet = slots at hset
  by_cases hnil : slots = []
  · subst hnil
    rfl
  · have htexts : slots.map (HostPort.text env) ≠ [] := fun h0 => hnil (List.map_eq_nil_iff.mp h0)
    have hitems : ∀ l ∈ slots.map (HostPort.text env), 44 ∉ l ∧ l ≠ [] := by
      intro l hl
      obtain ⟨hp, hmem, rfl⟩ := List.mem_map.mp hl
      exact ⟨(hset hp hmem).comma_text hdec, (hset hp hmem).text_ne_nil⟩
    have hne : List.intercalate [44] (slots.map (HostPort.text env)) ≠ [] := by
      intro h0
      have hlines := getlines_intercalate htexts hitems
      rw [h0] at hlines
      exact htexts hlines.symm
    rw [strSplit, if_neg hne, getlines_intercalate htexts hitems, List.map_map, List.map_map]
    refine List.map_congr_left fun hp hmem => ?_
    have hkeep : (if istrim then trim (hp.text env) else hp.text env) = hp.text env := by
      split
      · exact (hset hp hmem).trim_text hdec htrim
      · rfl
    simp only [Function.comp_apply, hkeep, (hset hp hmem).parse_text hdec]

end

/-! ## Samples -/

/-- The sample cluster's host name database, and decimal texts. -/
def decimalEnv : Env := { ChmpxMan.sampleEnv with toDecstring := Decimal.intText }

/-- `isspace`. -/
def isSpace (c : Nat) : Bool := c = 32 || (9 ≤ c && c ≤ 13)

theorem trimsSpaces_isSpace : TrimsSpaces (Trim.both isSpace) isSpace := by
  refine ⟨rfl, fun c hc => ?_⟩
  simpa [isSpace] using hc

/-- Two control endpoints and two free slots. -/
def samplePairs : List HostPort :=
  [⟨[97], 8021⟩, ⟨[], chmInvalidPort⟩, ⟨[98], 32767⟩, ⟨[], chmInvalidPort⟩]

theorem parse_hostportPairsString_sample :
    (strSplit (Trim.both isSpace) (getHostportPairsString decimalEnv samplePairs) 44 true).2.map
        (fun item => parseHostportPairsFromString item ⟨[], 0⟩) =
      (samplePairs.filter HostPort.isSet).map fun hp => (true, hp) := by
  refine parse_hostportPairsString rfl trimsSpaces_isSpace ?_ true _
  intro hp hmem hset
  have hcases : hp = ⟨[97], 8021⟩ ∨ hp = ⟨[98], 32767⟩ := by
    have hfilter := List.mem_filter.mpr ⟨hmem, hset⟩
    simpa [samplePairs, HostPort.isSet, chmInvalidPort] using hfilter
  rcases hcases with rfl | rfl <;>
    exact ⟨by decide, by decide, by decide, by decide, by decide, by decide, .inr (by decide)⟩

/-- Reading a whole text as one pair gives the set of pairs that it was written from. -/
def ReadBack (env : Env) (pair : List HostPort) : Prop :=
  ∀ hp, hp ∈ pair.filter HostPort.isSet ↔
    (true, hp) = parseHostportPairsFromString (getHostportPairsString env pair) ⟨[], 0⟩

/-- The text of two pairs read as a whole is one pair, with a port of neither.  A port of 40000 is
kept as -25536, and its text gives 0. -/
theorem parse_whole_differs :
    ¬ReadBack decimalEnv [⟨[97], 1⟩, ⟨[98], 2⟩] ∧
      ¬ReadBack decimalEnv [⟨[97], toShort 40000⟩] := by
  have htwo : parseHostportPairsFromString
      (getHostportPairsString decimalEnv [⟨[97], 1⟩, ⟨[98], 2⟩]) ⟨[], 0⟩ = (true, ⟨[97], 10⟩) := by
    decide +kernel
  have hupper : parseHostportPairsFromString
      (getHostportPairsString decimalEnv [⟨[97], toShort 40000⟩]) ⟨[], 0⟩ =
        (true, ⟨[97], 0⟩) := by
    decide +kernel
  constructor
  · intro hback
    have hmem := (hback ⟨[97], 10⟩).mpr htwo.symm
    revert hmem
    decide
  · intro hback
    have hmem := (hback ⟨[97], 0⟩).mpr hupper.symm
    revert hmem
    decide

end Chm
