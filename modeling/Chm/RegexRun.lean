/-
What the loops of `expand_simple_regex` come to.

The outcome of a part, a group and a text is given without fuel, with nothing for a loop that never
ends.  The loop over the list takes all strings through one group before it takes any through the
next one, so its state between two groups is a list of beginnings and one rest (`regexLoop_shape`).
-/
import Chm.SimpleRegex

namespace Chm
namespace Regex

open Conf (atoi isspace)
open Fuel (Settles)

/-! ## Groups and parts -/

/-- A text cut at its bracket groups. -/
inductive Shape
  | text (s : CStr)
  | wrong
  | group (lit content : CStr) (rest : Shape)
  deriving DecidableEq, Repr

theorem length_suffix {s lit rest content suffix : CStr}
    (hopen : Pieces.first 91 s = some (lit, rest))
    (hclose : Pieces.first 93 rest = some (content, suffix)) : suffix.length < s.length := by
  have hs := Pieces.length_of_first hopen
  have hrest := Pieces.length_of_first hclose
  omega

/-- The groups of a text: each bracket is closed before the next one opens. -/
def shape (s : CStr) : Shape :=
  match hopen : Pieces.first 91 s with
  | none => if 93 ∈ s then .wrong else .text s
  | some (lit, rest) =>
    if 93 ∈ lit then .wrong
    else
      match hclose : Pieces.first 93 rest with
      | none => .wrong
      | some (content, suffix) =>
        have := length_suffix hopen hclose
        .group lit content (shape suffix)
  termination_by s.length

/-- The parts of a group that are not empty. -/
def partsOf (trim : CStr → CStr) (content : CStr) : List CStr :=
  ((content.splitOn 44).map trim).filter (· ≠ [])

/-- The letters from one to another, both capital or both small. -/
def letters : CStr → CStr → Option (List CStr)
  | [c], [d] =>
    if c ≤ d ∧ (65 ≤ c ∧ d ≤ 90 ∨ 97 ≤ c ∧ d ≤ 122) then some (charRange c d) else none
  | _, _ => none

/-- Whether both ends of a range are numbers. -/
def isNumberRange (tmp1 tmp2 : CStr) : Bool := isStringNumber tmp1 && isStringNumber tmp2

/-- A range that ends at `INT_MAX`. -/
def endless (trim : CStr → CStr) (part : CStr) : Bool :=
  match rangeEnds trim part with
  | none => false
  | some (tmp1, tmp2) =>
    isNumberRange tmp1 tmp2 && (atoi tmp1 ≤ atoi tmp2 && atoi tmp2 = 2 ^ 31 - 1)

/-- A range that the code refuses: the numbers go down as `atoi` reads them, or it is no range of
letters. -/
def refused (trim : CStr → CStr) (part : CStr) : Bool :=
  match rangeEnds trim part with
  | none => false
  | some (tmp1, tmp2) =>
    if isNumberRange tmp1 tmp2 then atoi tmp2 < atoi tmp1 else letters tmp1 tmp2 = none

/-- The first part at which the loop over a group stops. -/
def stopsAt (trim : CStr → CStr) (parts : List CStr) : Option CStr :=
  parts.find? fun part => refused trim part || endless trim part

/-- The numbers from one to another. -/
def intRange (num1 num2 : Int) : List CStr :=
  (List.range (num2 + 1 - num1).toNat).map fun i : Nat => Decimal.intText (num1 + i)

/-- What a part expands to. -/
def expanded (trim : CStr → CStr) (part : CStr) : List CStr :=
  match rangeEnds trim part with
  | none => [part]
  | some (tmp1, tmp2) =>
    if isNumberRange tmp1 tmp2 then intRange (atoi tmp1) (atoi tmp2)
    else (letters tmp1 tmp2).getD []

/-! ## Outcomes -/

/-- The outcome of the loop over the parts of a group. -/
def partsOutcome (trim : CStr → CStr) (parts : List CStr) : Option (Option (List CStr)) :=
  match stopsAt trim parts with
  | none => some (some (parts.flatMap (expanded trim)))
  | some part => if refused trim part then some none else none

/-- The outcome of a group. -/
def groupOutcome (trim : CStr → CStr) (content : CStr) : Option (Option (List CStr)) :=
  if trim content = [] ∨ 91 ∈ content then some none else partsOutcome trim (partsOf trim content)

/-- The outcome of the loop for the strings with the beginnings `l` and the same rest. -/
def shapeOutcome (trim : CStr → CStr) : Shape → List CStr → List CStr → Option (Bool × List CStr)
  | .text s, l, expandLst => some (true, expandLst ++ l.map (· ++ s))
  | .wrong, l, expandLst => some (l = [], expandLst)
  | .group lit content rest, l, expandLst =>
    if l = [] then some (true, expandLst)
    else
      (groupOutcome trim content).bind fun
        | none => some (false, expandLst)
        | some as => shapeOutcome trim rest (l.flatMap fun p => as.map (p ++ lit ++ ·)) expandLst

variable {trim : CStr → CStr} {blank : Nat → Bool} {part : CStr} {num1 num2 : Int}

/-! ## Ranges -/

theorem atoi_range (s : CStr) : -2 ^ 31 ≤ atoi s ∧ atoi s ≤ 2 ^ 31 - 1 := by
  have hlow := Int.le_bmod (x := Conf.strtol s) (m := 2 ^ 32) (by decide)
  have hhigh := Int.bmod_lt (x := Conf.strtol s) (m := 2 ^ 32) (by decide)
  rw [atoi]
  omega

theorem numberLoop_endless (h : num1 ≤ 2 ^ 31 - 1) (fuel : Nat) (expandLst : List CStr) :
    numberLoop (2 ^ 31 - 1) fuel num1 expandLst = none := by
  induction fuel generalizing num1 expandLst with
  | zero => rfl
  | succ fuel ih =>
    have hhigh := Int.bmod_lt (x := num1 + 1) (m := 2 ^ 32) (by decide)
    rw [numberLoop, if_pos h]
    exact ih (by omega) _

theorem intRange_cons (h : num1 ≤ num2) :
    intRange num1 num2 = Decimal.intText num1 :: intRange (num1 + 1) num2 := by
  have hlength : (num2 + 1 - num1).toNat = (num2 + 1 - (num1 + 1)).toNat + 1 := by omega
  rw [intRange, hlength, List.range_succ_eq_map, List.map_cons, List.map_map, intRange]
  congr 1
  · simp
  · refine List.map_congr_left fun i _ => ?_
    show Decimal.intText (num1 + (i + 1 : Nat)) = _
    congr 1
    omega

theorem intRange_nil (h : num2 < num1) : intRange num1 num2 = [] := by
  have hlength : (num2 + 1 - num1).toNat = 0 := by omega
  rw [intRange, hlength]
  rfl

theorem numberLoop_settles (hlow : -2 ^ 31 ≤ num1) (hhigh : num2 < 2 ^ 31 - 1)
    (expandLst : List CStr) :
    Settles (fun n => numberLoop num2 n num1 expandLst)
      (some (expandLst ++ intRange num1 num2)) := by
  -- Induction on how many numbers are left.
  generalize hk : (num2 + 1 - num1).toNat = k
  induction k generalizing num1 expandLst with
  | zero =>
    have hlt : num2 < num1 := by omega
    refine Settles.turn rfl ?_
    simp only [numberLoop, if_neg (not_le.mpr hlt), intRange_nil hlt, List.append_nil]
    exact Settles.const _
  | succ k ih =>
    have hle : num1 ≤ num2 := by omega
    have hnext : Int.bmod (num1 + 1) (2 ^ 32) = num1 + 1 :=
      Int.bmod_eq_of_le_mul_two (by omega) (by omega)
    have htail := @ih (num1 + 1) (by omega) (expandLst ++ [Decimal.intText num1])
      (by omega)
    rw [List.append_assoc, List.singleton_append, ← intRange_cons hle] at htail
    refine Settles.turn rfl ?_
    simp only [numberLoop, if_pos hle, hnext]
    exact htail

/-- The checks of the code leave the letters of one case, in order. -/
theorem expandChars_eq (tmp1 tmp2 : CStr) : expandChars tmp1 tmp2 = letters tmp1 tmp2 := by
  match tmp1, tmp2 with
  | [c], [d] =>
    simp only [expandChars, letters, isalpha]
    split_ifs <;> first | rfl | grind
  | [], _ => rfl
  | [_], [] => rfl
  | [_], _ :: _ :: _ => rfl
  | _ :: _ :: _, _ => rfl

/-- What the code refuses before it looks at the kind of a range is no range of letters. -/
theorem letters_dash {tmp1 tmp2 : CStr} (h : tmp1 = [] ∨ tmp2 = [] ∨ 45 ∈ tmp2) :
    letters tmp1 tmp2 = none := by
  rw [letters.eq_def]
  split
  · rename_i c d
    obtain h | h | h := h
    · cases h
    · cases h
    · rw [List.mem_singleton] at h
      rw [if_neg (by omega)]
  · rfl

theorem isStringNumber_dash {tmp : CStr} (h : 45 ∈ tmp) : isStringNumber tmp = false := by
  rw [isStringNumber, Bool.and_eq_false_iff]
  refine .inr (List.all_eq_false.mpr ⟨45, h, ?_⟩)
  decide

/-! ## A group -/

/-- The outcome of a part. -/
def partOutcome (trim : CStr → CStr) (part : CStr) : Option (Option (List CStr)) :=
  if refused trim part then some none
  else if endless trim part then none
  else some (some (expanded trim part))

/-- A range that the code refuses before it looks at its kind is none. -/
theorem wrongRange {tmp1 tmp2 : CStr} (h : tmp1 = [] ∨ tmp2 = [] ∨ 45 ∈ tmp2) :
    isNumberRange tmp1 tmp2 = false ∧ letters tmp1 tmp2 = none := by
  refine ⟨?_, letters_dash h⟩
  rw [isNumberRange]
  obtain rfl | rfl | hdash := h
  · rfl
  · exact Bool.and_false _
  · rw [isStringNumber_dash hdash, Bool.and_false]

section Part

variable {tmp1 tmp2 : CStr}

theorem partOutcome_plain (h : rangeEnds trim part = none) :
    partOutcome trim part = some (some [part]) := by
  simp [partOutcome, endless, refused, expanded, h]

theorem partOutcome_numbers (h : rangeEnds trim part = some (tmp1, tmp2))
    (hnumber : isNumberRange tmp1 tmp2 = true) :
    partOutcome trim part =
      if atoi tmp2 < atoi tmp1 then some none
      else if atoi tmp2 = 2 ^ 31 - 1 then none
      else some (some (intRange (atoi tmp1) (atoi tmp2))) := by
  by_cases hdown : atoi tmp2 < atoi tmp1
  · simp [partOutcome, refused, h, hnumber, hdown]
  · simp [partOutcome, endless, refused, expanded, h, hnumber, hdown, not_lt.mp hdown]

theorem partOutcome_letters (h : rangeEnds trim part = some (tmp1, tmp2))
    (hnumber : isNumberRange tmp1 tmp2 = false) :
    partOutcome trim part = some (letters tmp1 tmp2) := by
  cases hletters : letters tmp1 tmp2 <;>
    simp [partOutcome, endless, refused, expanded, h, hnumber, hletters]

theorem expandPart_numbers (h : rangeEnds trim part = some (tmp1, tmp2))
    (hnumber : isNumberRange tmp1 tmp2 = true) (fuel : Nat) :
    expandPart trim fuel part =
      if atoi tmp2 < atoi tmp1 then some none
      else (numberLoop (atoi tmp2) fuel (atoi tmp1) []).map some := by
  have hright : ¬(tmp1 = [] ∨ tmp2 = [] ∨ 45 ∈ tmp2) := by
    intro hwrong
    rw [(wrongRange hwrong).1] at hnumber
    cases hnumber
  rw [← or_assoc, not_or] at hright
  rw [isNumberRange] at hnumber
  rw [expandPart, h]
  simp only [if_neg hright.1, if_neg hright.2, if_pos hnumber]

theorem expandPart_letters (h : rangeEnds trim part = some (tmp1, tmp2))
    (hnumber : isNumberRange tmp1 tmp2 = false) (fuel : Nat) :
    expandPart trim fuel part = some (letters tmp1 tmp2) := by
  have hnumber' := hnumber
  rw [isNumberRange] at hnumber'
  rw [expandPart, h]
  dsimp only
  split
  · rename_i hnil
    rw [letters_dash (or_assoc.mp (.inl hnil))]
  · split
    · rename_i hdash
      rw [letters_dash (.inr (.inr hdash))]
    · rw [hnumber', expandChars_eq]
      rfl

theorem expandPart_settles (trim : CStr → CStr) (part : CStr) :
    Settles (fun n => expandPart trim n part) (partOutcome trim part) := by
  cases h : rangeEnds trim part with
  | none =>
    simp only [expandPart, h, partOutcome_plain h]
    exact Settles.const _
  | some ends =>
    obtain ⟨tmp1, tmp2⟩ := ends
    cases hnumber : isNumberRange tmp1 tmp2 with
    | false =>
      simp only [expandPart_letters h hnumber, partOutcome_letters h hnumber]
      exact Settles.const _
    | true =>
      simp only [expandPart_numbers h hnumber, partOutcome_numbers h hnumber]
      have hlow := (atoi_range tmp1).1
      have hhigh := (atoi_range tmp2).2
      by_cases hdown : atoi tmp2 < atoi tmp1
      · simp only [if_pos hdown]
        exact Settles.const _
      · simp only [if_neg hdown]
        by_cases hmax : atoi tmp2 = 2 ^ 31 - 1
        · rw [if_pos hmax, hmax]
          refine Settles.never fun n => ?_
          rw [numberLoop_endless (by omega), Option.map_none]
        · rw [if_neg hmax]
          have hlt : atoi tmp2 < 2 ^ 31 - 1 := by omega
          exact (numberLoop_settles hlow hlt []).map some

end Part

/-- The first part decides, or what it expands to comes before the rest. -/
theorem partsOutcome_cons (parts : List CStr) :
    partsOutcome trim (part :: parts) =
      (partOutcome trim part).bind fun
        | none => some none
        | some l => (partsOutcome trim parts).map (Option.map (l ++ ·)) := by
  rw [partsOutcome, stopsAt, List.find?_cons, partOutcome]
  cases hrefused : refused trim part with
  | true => simp [hrefused]
  | false =>
    cases hendless : endless trim part with
    | true => simp [hrefused]
    | false =>
      simp only [Bool.or_false, Bool.false_eq_true, if_false, Option.bind_some]
      rw [partsOutcome, stopsAt]
      cases parts.find? fun part => refused trim part || endless trim part with
      | none => rfl
      | some p => cases hp : refused trim p <;> simp [hp]

theorem partsLoop_settles (trim : CStr → CStr) (parts expandLst : List CStr) :
    Settles (fun n => partsLoop trim n parts expandLst)
      ((partsOutcome trim parts).map (Option.map (expandLst ++ ·))) := by
  induction parts generalizing expandLst with
  | nil =>
    have hnil : partsOutcome trim [] = some (some []) := rfl
    simp only [partsLoop, hnil, Option.map_some, List.append_nil]
    exact Settles.const _
  | cons part parts ih =>
    simp only [partsLoop, partsOutcome_cons, Option.map_bind]
    refine (expandPart_settles trim part).bind fun l _ => ?_
    cases l with
    | none => exact Settles.const _
    | some l =>
      have hmap : Option.map (Option.map (expandLst ++ ·))
          ((partsOutcome trim parts).map (Option.map (l ++ ·))) =
            (partsOutcome trim parts).map (Option.map (expandLst ++ l ++ ·)) := by
        cases partsOutcome trim parts with
        | none => rfl
        | some r => cases r <;> simp
      show Settles _ (Option.map (Option.map (expandLst ++ ·))
        ((partsOutcome trim parts).map (Option.map (l ++ ·))))
      rw [hmap]
      exact ih (expandLst ++ l)

/-- The parts are those between the commas, whatever blanks are cut before. -/
theorem partsOf_trim (ht : TrimsSpaces trim blank) (s : CStr) :
    partsOf trim (trim s) = partsOf trim s := by
  have hcomma : ∀ c, blank c = true → c ≠ 44 := fun c hc => by
    have := ht.spaces c hc
    omega
  rw [ht.both]
  refine Trim.of_both (f := partsOf (Trim.both blank)) ?_ ?_ s
  · intro c s hc
    obtain ⟨p, ps, hs⟩ := List.exists_cons_of_ne_nil (List.splitOn_ne_nil 44 s)
    have hne : (c == 44) = false := beq_eq_false_iff_ne.mpr (hcomma c hc)
    rw [partsOf, partsOf, List.splitOn_cons_eq_if_modifyHead, hs, hne]
    simp only [Bool.false_eq_true, if_false, List.modifyHead_cons, List.map_cons,
      Trim.both_cons hc]
  · intro c s hc
    obtain ⟨ps, p, hs, hsc⟩ := Pieces.splitOn_concat (hcomma c hc) s
    rw [partsOf, partsOf, hs, hsc, List.map_append, List.map_append, List.map_singleton,
      List.map_singleton, Trim.both_concat hc]

theorem partsOf_first {s tmp rest : CStr} (h : Pieces.first 44 s = some (tmp, rest))
    (lst : List CStr) :
    (if trim tmp ≠ [] then lst ++ [trim tmp] else lst) ++ partsOf trim rest =
      lst ++ partsOf trim s := by
  rw [partsOf, partsOf, Pieces.splitOn_of_first h, List.map_cons, List.filter_cons]
  by_cases hnil : trim tmp = []
  · simp [hnil]
  · simp [hnil]

theorem commaLoop_settles (ht : TrimsSpaces trim blank) (s : CStr) (lst : List CStr) :
    Settles (fun n => commaLoop trim n (trim s) lst) (some (lst ++ partsOf trim s)) := by
  have htrim : ∀ s, (trim s).length ≤ s.length := fun s => by
    rw [ht.both]
    exact (Trim.both_infix blank s).length_le
  have hempty : trim [] = [] := List.eq_nil_of_length_eq_zero (Nat.le_zero.mp (htrim []))
  -- Each turn takes a comma away.
  induction hk : s.length using Nat.strong_induction_on generalizing s lst with
  | _ k ih =>
    rw [← partsOf_trim ht s]
    refine Settles.turn rfl ?_
    simp only [commaLoop]
    by_cases hnil : trim s = []
    · have hparts : partsOf trim [] = [] := by simp [partsOf, hempty]
      simp only [hnil, if_true, hparts, List.append_nil]
      exact Settles.const _
    · simp only [if_neg hnil]
      cases hfirst : Pieces.first 44 (trim s) with
      | none =>
        have hsplit : (trim s).splitOn 44 = [trim s] :=
          List.splitOn_eq_singleton (Pieces.first_eq_none_iff.mp hfirst)
        have hself : trim (trim s) = trim s := by rw [ht.both, Trim.both_both]
        have hparts : partsOf trim (trim s) = [trim s] := by simp [partsOf, hsplit, hself, hnil]
        rw [hparts]
        refine Settles.turn rfl ?_
        simp only [commaLoop, hempty, if_true]
        exact Settles.const _
      | some cut =>
        obtain ⟨tmp, rest⟩ := cut
        have hlength := Pieces.length_of_first hfirst
        have hle := htrim s
        rw [← partsOf_first hfirst lst]
        exact ih rest.length (by omega) rest _ rfl

theorem expandSimpleRegexString_settles (ht : TrimsSpaces trim blank) (content : CStr) :
    Settles (fun n => expandSimpleRegexString trim n (trim content))
      (partsOutcome trim (partsOf trim content)) := by
  simp only [expandSimpleRegexString]
  have hcomma := commaLoop_settles ht (trim content) []
  rw [List.nil_append, partsOf_trim ht] at hcomma
  have hall := hcomma.bind fun parts _ => partsLoop_settles trim parts []
  have hmap : (partsOutcome trim (partsOf trim content)).map (Option.map ([] ++ ·)) =
      partsOutcome trim (partsOf trim content) := by
    cases partsOutcome trim (partsOf trim content) with
    | none => rfl
    | some r => cases r <;> rfl
  rw [Option.bind_some, hmap] at hall
  exact hall

/-! ## The list -/

/-- Neither bracket is in a text. -/
def Unbracketed (s : CStr) : Prop := 91 ∉ s ∧ 93 ∉ s

variable {p lit content suffix s : CStr} {l expandLst : List CStr} {fuel : Nat}

theorem Unbracketed.append {a b : CStr} (ha : Unbracketed a) (hb : Unbracketed b) :
    Unbracketed (a ++ b) :=
  ⟨fun h => (List.mem_append.mp h).elim ha.1 hb.1, fun h => (List.mem_append.mp h).elim ha.2 hb.2⟩

theorem mem_trim (ht : TrimsSpaces trim blank) {c : Nat} (hc : ¬(c = 32 ∨ 9 ≤ c ∧ c ≤ 13)) :
    c ∈ trim s ↔ c ∈ s := by
  have hne : ∀ d, blank d = true → c ≠ d := fun d hd heq => hc (heq ▸ ht.spaces d hd)
  rw [ht.both]
  refine iff_of_eq (Trim.of_both (f := (c ∈ ·)) ?_ ?_ s)
  · intro d s hd
    simp [hne d hd]
  · intro d s hd
    simp [hne d hd]

theorem turn_group (hp : Unbracketed p) (hlit : Unbracketed lit) (hcontent : 93 ∉ content) :
    turn trim fuel (p ++ (lit ++ 91 :: (content ++ 93 :: suffix))) =
      if trim content = [] then some .wrong
      else if 91 ∈ trim content then some .wrong
      else
        (expandSimpleRegexString trim fuel (trim content)).map fun
          | none => .wrong
          | some l => .again (l.map fun tmp => p ++ lit ++ tmp ++ suffix) := by
  have hprefix := hp.append hlit
  rw [← List.append_assoc, turn, Pieces.first_append hprefix.1]
  cases hrun : expandSimpleRegexString trim fuel (trim content) with
  | none => simp only [if_neg hprefix.2, Pieces.first_append hcontent, hrun, Option.map_none]
  | some found =>
    cases found <;>
      simp only [if_neg hprefix.2, Pieces.first_append hcontent, hrun, Option.map_some]

theorem turn_settles (ht : TrimsSpaces trim blank) (hp : Unbracketed p) (hlit : Unbracketed lit)
    (hcontent : 93 ∉ content) :
    Settles (fun n => turn trim n (p ++ (lit ++ 91 :: (content ++ 93 :: suffix))))
      ((groupOutcome trim content).map fun
        | none => .wrong
        | some l => .again (l.map fun tmp => p ++ lit ++ tmp ++ suffix)) := by
  simp only [turn_group hp hlit hcontent, mem_trim ht (c := 91) (by omega), groupOutcome]
  by_cases hnil : trim content = []
  · simp only [hnil, true_or, if_true]
    exact Settles.const _
  · by_cases hopen : 91 ∈ content
    · simp only [hopen, or_true, if_neg hnil, if_true]
      exact Settles.const _
    · simp only [if_neg hnil, if_neg hopen, if_neg (not_or.mpr ⟨hnil, hopen⟩)]
      exact (expandSimpleRegexString_settles ht content).map _

/-- A level of strings without groups. -/
theorem level_hosts (h : ∀ p ∈ l, ∀ n, turn trim n (p ++ s) = some (.host (p ++ s)))
    (expandLst : List CStr) :
    Settles (fun n => regexLoop trim n (l.map (· ++ s)) expandLst)
      (some (true, expandLst ++ l.map (· ++ s))) := by
  induction l generalizing expandLst with
  | nil =>
    refine Settles.turn rfl ?_
    rw [List.map_nil, List.append_nil]
    exact Settles.const _
  | cons p l ih =>
    refine Settles.turn rfl ?_
    simp only [List.map_cons, regexLoop, h p List.mem_cons_self, Option.bind_some]
    have htail := ih (fun q hq => h q (List.mem_cons_of_mem p hq)) (expandLst ++ [p ++ s])
    rw [List.append_assoc, List.singleton_append] at htail
    exact htail

/-- A level of strings that are wrong. -/
theorem level_wrong (h : ∀ p ∈ l, ∀ n, turn trim n (p ++ s) = some .wrong)
    (expandLst : List CStr) :
    Settles (fun n => regexLoop trim n (l.map (· ++ s)) expandLst)
      (shapeOutcome trim .wrong l expandLst) := by
  refine Settles.turn rfl ?_
  cases l with
  | nil => exact Settles.const _
  | cons p l =>
    simp only [List.map_cons, regexLoop, h p List.mem_cons_self]
    exact Settles.const _

/-- A level of strings with a group: what comes out waits behind what waits already. -/
theorem level_again {f : CStr → List CStr} {o : Option (Bool × List CStr)}
    (h : ∀ p ∈ l, Settles (fun n => turn trim n (p ++ s)) (some (.again ((f p).map (· ++ suffix)))))
    (lst : List CStr)
    (hrest : Settles
      (fun n => regexLoop trim n (lst ++ (l.flatMap f).map (· ++ suffix)) expandLst) o) :
    Settles (fun n => regexLoop trim n (l.map (· ++ s) ++ lst) expandLst) o := by
  induction l generalizing lst with
  | nil => simpa using hrest
  | cons p l ih =>
    refine Settles.turn rfl ?_
    simp only [List.map_cons, List.cons_append, regexLoop]
    refine (h p List.mem_cons_self).bind (q := fun _ => o) fun t hturn => ?_
    obtain rfl := Option.some.inj hturn
    simp only [List.append_assoc]
    refine ih (fun q hq => h q (List.mem_cons_of_mem p hq)) _ ?_
    rw [List.flatMap_cons, List.map_append, ← List.append_assoc] at hrest
    exact hrest

/-- A group that is expanded holds nothing at which the loop stops. -/
theorem groupOutcome_some {as : List CStr} (h : groupOutcome trim content = some (some as)) :
    trim content ≠ [] ∧ 91 ∉ content ∧
      (∀ part ∈ partsOf trim content, refused trim part = false ∧ endless trim part = false) ∧
      as = (partsOf trim content).flatMap (expanded trim) := by
  rw [groupOutcome] at h
  split at h
  · cases h
  · rename_i hright
    obtain ⟨hnil, hopen⟩ := not_or.mp hright
    rw [partsOutcome] at h
    split at h
    · rename_i hstops
      refine ⟨hnil, hopen, fun part hpart => ?_, ?_⟩
      · have hgo := List.find?_eq_none.mp hstops part hpart
        rwa [Bool.not_eq_true, Bool.or_eq_false_iff] at hgo
      · exact (Option.some.inj (Option.some.inj h)).symm
    · split at h
      · cases h
      · cases h

theorem mem_partsOf (ht : TrimsSpaces trim blank) (hpart : part ∈ partsOf trim content) {c : Nat}
    (hc : c ∈ part) : c ∈ content := by
  obtain ⟨hmap, _⟩ := List.mem_filter.mp hpart
  obtain ⟨piece, hpiece, rfl⟩ := List.mem_map.mp hmap
  rw [ht.both] at hc
  have hmem := (Trim.both_infix blank piece).subset hc
  have hjoin : [44].intercalate (content.splitOn 44) = content := List.intercalate_splitOn 44
  rw [← hjoin]
  exact Pieces.mem_intercalate_of_mem hpiece hmem

theorem unbracketed_intText (n : Int) : Unbracketed (Decimal.intText n) := by
  have hdigits : ∀ c ∈ Decimal.intText n, c ≤ 57 := by
    intro c hc
    rw [Decimal.intText] at hc
    split at hc
    · obtain rfl | hc := List.mem_cons.mp hc
      · decide
      · exact (Decimal.mem_text hc).2
    · exact (Decimal.mem_text hc).2
  exact ⟨fun h => absurd (hdigits 91 h) (by decide), fun h => absurd (hdigits 93 h) (by decide)⟩

theorem unbracketed_letters {tmp1 tmp2 a : CStr} (h : a ∈ (letters tmp1 tmp2).getD []) :
    Unbracketed a := by
  rw [letters.eq_def] at h
  split at h
  · rename_i c d
    split at h
    · rename_i hrange
      obtain ⟨e, he, rfl⟩ := List.mem_map.mp h
      rw [List.mem_range'_1] at he
      constructor
      · intro hopen
        rw [List.mem_singleton] at hopen
        omega
      · intro hclose
        rw [List.mem_singleton] at hclose
        omega
    · cases h
  · cases h

theorem unbracketed_expanded (h : Unbracketed part) : ∀ a ∈ expanded trim part, Unbracketed a := by
  intro a ha
  rw [expanded] at ha
  split at ha
  · rw [List.mem_singleton] at ha
    rwa [ha]
  · split at ha
    · obtain ⟨i, _, rfl⟩ := List.mem_map.mp ha
      exact unbracketed_intText _
    · exact unbracketed_letters ha

theorem regexLoop_shape (ht : TrimsSpaces trim blank) (s : CStr) (l expandLst : List CStr)
    (hl : ∀ p ∈ l, Unbracketed p) :
    Settles (fun n => regexLoop trim n (l.map (· ++ s)) expandLst)
      (shapeOutcome trim (shape s) l expandLst) := by
  fun_induction shape s generalizing l with
  | case1 s hopen hclose =>
    refine level_wrong (fun p hp n => ?_) expandLst
    have hmem : 93 ∈ p ++ s := List.mem_append_right p hclose
    rw [turn, Pieces.first_append_left (hl p hp).1, hopen]
    exact if_pos hmem
  | case2 s hopen hclose =>
    refine level_hosts (fun p hp n => ?_) expandLst
    have hmem : 93 ∉ p ++ s := fun h => (List.mem_append.mp h).elim (hl p hp).2 hclose
    rw [turn, Pieces.first_append_left (hl p hp).1, hopen]
    exact if_neg hmem
  | case3 s lit rest hopen hclose =>
    refine level_wrong (fun p hp n => ?_) expandLst
    have hmem : 93 ∈ p ++ lit := List.mem_append_right p hclose
    rw [turn, Pieces.first_append_left (hl p hp).1, hopen]
    exact if_pos hmem
  | case4 s lit rest hopen hlit hclose =>
    refine level_wrong (fun p hp n => ?_) expandLst
    have hmem : 93 ∉ p ++ lit := fun h => (List.mem_append.mp h).elim (hl p hp).2 hlit
    rw [turn, Pieces.first_append_left (hl p hp).1, hopen]
    simp only [Option.map_some, if_neg hmem, hclose]
  | case5 s lit rest hopen hlit content suffix hclose _ ih =>
    obtain ⟨rfl, hlit'⟩ := Pieces.first_eq_some hopen
    obtain ⟨rfl, hcontent⟩ := Pieces.first_eq_some hclose
    have hturn := fun p hp =>
      @turn_settles trim blank p lit content suffix ht (hl p hp) ⟨hlit', hlit⟩ hcontent
    rw [shapeOutcome]
    cases l with
    | nil => exact Settles.turn rfl (Settles.const _)
    | cons p l =>
      rw [if_neg (List.cons_ne_nil p l)]
      cases hgroup : groupOutcome trim content with
      | none =>
        rw [hgroup] at hturn
        refine Settles.turn rfl ((hturn p List.mem_cons_self).bind (q := fun _ => none) ?_)
        intro t hnone
        cases hnone
      | some r =>
        rw [hgroup] at hturn
        cases r with
        | none =>
          refine Settles.turn rfl ((hturn p List.mem_cons_self).bind (q := fun _ => _) ?_)
          intro t hwrong
          obtain rfl := Option.some.inj hwrong
          exact Settles.const _
        | some as =>
          obtain ⟨_, hopen', _, has⟩ := groupOutcome_some hgroup
          have hagain : ∀ q ∈ p :: l,
              Settles (fun n => turn trim n (q ++ (lit ++ 91 :: (content ++ 93 :: suffix))))
                (some (.again ((as.map (q ++ lit ++ ·)).map (· ++ suffix)))) := by
            intro q hq
            rw [List.map_map]
            exact hturn q hq
          have hnext := ih ((p :: l).flatMap fun p => as.map (p ++ lit ++ ·)) ?_
          · have hlevel := level_again hagain [] hnext
            rw [List.append_nil] at hlevel
            exact hlevel
          · intro q hq
            obtain ⟨q', hq', hmem⟩ := List.mem_flatMap.mp hq
            obtain ⟨a, ha, rfl⟩ := List.mem_map.mp hmem
            rw [has] at ha
            obtain ⟨part, hpart, ha'⟩ := List.mem_flatMap.mp ha
            have hunbracketed : Unbracketed part :=
              ⟨fun h => hopen' (mem_partsOf ht hpart h), fun h => hcontent (mem_partsOf ht hpart h)⟩
            have hq'' := (hl q' hq').append ⟨hlit', hlit⟩
            exact hq''.append (unbracketed_expanded hunbracketed a ha')

end Regex
end Chm
