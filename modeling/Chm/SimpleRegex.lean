/-
Host names with brackets.

`expand_simple_regex` takes the strings of a list from the front: the first bracket group of a
string is expanded and what comes out goes to the end of the list, until no string has a group
left.  `expand_simple_regexes` does so for each item of a text.  The loops that may run for ever
have fuel, and no result when it is used up.
-/
import Chm.HostForms
import Chm.Lib.Settles

namespace Chm
namespace Regex

open Conf (atoi cstr)

/-! ## The source -/

/-- `is_string_number`. -/
def isStringNumber (str : CStr) : Bool := str ≠ [] && str.all isdigit

/-- The part of `expand_simple_regex_string` that separates at commas: the parts that are not
empty. -/
def commaLoop (trim : CStr → CStr) : Nat → CStr → List CStr → Option (List CStr)
  | 0, _, _ => none
  | fuel + 1, strtarget, sepCommaLst =>
    if strtarget = [] then some sepCommaLst
    else
      match Pieces.first 44 strtarget with
      | none => commaLoop trim fuel (trim []) (sepCommaLst ++ [strtarget])
      | some (tmp, rest) =>
        commaLoop trim fuel (trim rest)
          (if trim tmp ≠ [] then sepCommaLst ++ [trim tmp] else sepCommaLst)

/-- `for(; num1 <= num2; num1++)`, with an `int` that wraps. -/
def numberLoop (num2 : Int) : Nat → Int → List CStr → Option (List CStr)
  | 0, _, _ => none
  | fuel + 1, num1, expandLst =>
    if num1 ≤ num2 then
      numberLoop num2 fuel (Int.bmod (num1 + 1) (2 ^ 32)) (expandLst ++ [Decimal.intText num1])
    else some expandLst

/-- The characters from one to another. -/
def charRange (cTmp1 cTmp2 : Nat) : List CStr :=
  (List.range' cTmp1 (cTmp2 + 1 - cTmp1)).map ([·])

/-- A range of characters, or nothing when it is wrong. -/
def expandChars (tmp1 tmp2 : CStr) : Option (List CStr) :=
  match tmp1, tmp2 with
  | [cTmp1], [cTmp2] =>
    if !isalpha cTmp1 || !isalpha cTmp2 then none
    else if cTmp2 < cTmp1 || !(97 ≤ cTmp1 && 97 ≤ cTmp2 || cTmp1 ≤ 90 && cTmp2 ≤ 90) then none
    else some (charRange cTmp1 cTmp2)
  | _, _ => none

/-- The two ends of a range. -/
def rangeEnds (trim : CStr → CStr) (part : CStr) : Option (CStr × CStr) :=
  (Pieces.first 45 part).map fun cut => (trim cut.1, trim cut.2)

/-- One part between commas; the inner option is nothing when the part is wrong. -/
def expandPart (trim : CStr → CStr) (fuel : Nat) (part : CStr) : Option (Option (List CStr)) :=
  match rangeEnds trim part with
  | none => some (some [part])
  | some (tmp1, tmp2) =>
    if tmp1 = [] ∨ tmp2 = [] then some none
    else if 45 ∈ tmp2 then some none
    else if isStringNumber tmp1 && isStringNumber tmp2 then
      if atoi tmp2 < atoi tmp1 then some none
      else (numberLoop (atoi tmp2) fuel (atoi tmp1) []).map some
    else some (expandChars tmp1 tmp2)

/-- The loop over the parts. -/
def partsLoop (trim : CStr → CStr) (fuel : Nat) :
    List CStr → List CStr → Option (Option (List CStr))
  | [], expandLst => some (some expandLst)
  | part :: parts, expandLst =>
    (expandPart trim fuel part).bind fun
      | none => some none
      | some l => partsLoop trim fuel parts (expandLst ++ l)

/-- `expand_simple_regex_string`. -/
def expandSimpleRegexString (trim : CStr → CStr) (fuel : Nat) (strPartRegex : CStr) :
    Option (Option (List CStr)) :=
  (commaLoop trim fuel (trim strPartRegex) []).bind fun parts => partsLoop trim fuel parts []

/-- What is done with a string of the list. -/
inductive Turn
  | wrong
  | host (name : CStr)
  | again (names : List CStr)
  deriving DecidableEq, Repr

/-- The body of the loop of `expand_simple_regex`. -/
def turn (trim : CStr → CStr) (fuel : Nat) (one : CStr) : Option Turn :=
  match Pieces.first 91 one with
  | none => if 93 ∈ one then some .wrong else some (.host one)
  | some (prefixStr, rest) =>
    if 93 ∈ prefixStr then some .wrong
    else
      match Pieces.first 93 rest with
      | none => some .wrong
      | some (part, suffixStr) =>
        if trim part = [] then some .wrong
        else if 91 ∈ trim part then some .wrong
        else
          (expandSimpleRegexString trim fuel (trim part)).map fun
            | none => .wrong
            | some l => .again (l.map fun tmp => prefixStr ++ tmp ++ suffixStr)

/-- The loop of `expand_simple_regex` over its list. -/
def regexLoop (trim : CStr → CStr) : Nat → List CStr → List CStr → Option (Bool × List CStr)
  | 0, _, _ => none
  | _ + 1, [], expandLst => some (true, expandLst)
  | fuel + 1, one :: lst, expandLst =>
    (turn trim fuel one).bind fun
      | .wrong => some (false, expandLst)
      | .host name => regexLoop trim fuel lst (expandLst ++ [name])
      | .again names => regexLoop trim fuel (lst ++ names) expandLst

/-- `expand_simple_regex`. -/
def expandSimpleRegex (trim : CStr → CStr) (fuel : Nat) (simpleRegex : CStr)
    (expandLst : List CStr) : Option (Bool × List CStr) :=
  regexLoop trim fuel [trim simpleRegex] expandLst

/-- What comes first in a text of several items. -/
inductive Separator
  | nothing
  | comma (one rest : CStr)
  | bracket (front back : CStr)

/-- Whether the comma or the bracket is first. -/
def separator (tmpRegexes : CStr) : Separator :=
  match Pieces.first 44 tmpRegexes, Pieces.first 91 tmpRegexes with
  | none, none => .nothing
  | some (one, rest), none => .comma one rest
  | some (one, rest), some (front, back) =>
    if one.length < front.length then .comma one rest else .bracket front back
  | none, some (front, back) => .bracket front back

variable {tmpRegexes one rest front back group : CStr}

/-- The text is cut before or at the first comma or bracket. -/
def Separator.Cuts (tmpRegexes : CStr) : Separator → Prop
  | .nothing => 44 ∉ tmpRegexes ∧ 91 ∉ tmpRegexes
  | .comma one rest => tmpRegexes = one ++ 44 :: rest ∧ 44 ∉ one ∧ 91 ∉ one
  | .bracket front back => tmpRegexes = front ++ 91 :: back ∧ 44 ∉ front ∧ 91 ∉ front

theorem separator_cuts (tmpRegexes : CStr) : (separator tmpRegexes).Cuts tmpRegexes := by
  rw [separator]
  split
  · rename_i hcomma hbracket
    exact ⟨Pieces.first_eq_none_iff.mp hcomma, Pieces.first_eq_none_iff.mp hbracket⟩
  · rename_i one rest hcomma hbracket
    obtain ⟨htmp, hone⟩ := Pieces.first_eq_some hcomma
    have hno := Pieces.first_eq_none_iff.mp hbracket
    refine ⟨htmp, hone, fun hmem => hno ?_⟩
    rw [htmp]
    exact List.mem_append_left _ hmem
  · rename_i one rest front back hcomma hbracket
    obtain ⟨hcut, hone⟩ := Pieces.first_eq_some hcomma
    obtain ⟨hcut', hfront⟩ := Pieces.first_eq_some hbracket
    have hprefix : one <+: tmpRegexes := ⟨44 :: rest, hcut.symm⟩
    have hprefix' : front <+: tmpRegexes := ⟨91 :: back, hcut'.symm⟩
    split
    · rename_i hlt
      have hle := List.prefix_of_prefix_length_le hprefix hprefix' (Nat.le_of_lt hlt)
      exact ⟨hcut, hone, fun hmem => hfront (hle.subset hmem)⟩
    · rename_i hge
      have hle := List.prefix_of_prefix_length_le hprefix' hprefix (Nat.le_of_not_lt hge)
      exact ⟨hcut', fun hmem => hone (hle.subset hmem), hfront⟩
  · rename_i front back hcomma hbracket
    obtain ⟨htmp, hfront⟩ := Pieces.first_eq_some hbracket
    have hno := Pieces.first_eq_none_iff.mp hcomma
    refine ⟨htmp, fun hmem => hno ?_, hfront⟩
    rw [htmp]
    exact List.mem_append_left _ hmem

theorem length_rest (h : separator tmpRegexes = .comma one rest) :
    rest.length < tmpRegexes.length := by
  have hcuts := separator_cuts tmpRegexes
  rw [h] at hcuts
  rw [hcuts.1, List.length_append, List.length_cons]
  omega

theorem length_back (h : separator tmpRegexes = .bracket front back)
    (hend : Pieces.first 93 back = some (group, rest)) : rest.length < tmpRegexes.length := by
  have hcuts := separator_cuts tmpRegexes
  rw [h] at hcuts
  have hlength := Pieces.length_of_first hend
  rw [hcuts.1, List.length_append, List.length_cons]
  omega

/-- The first loop of `expand_simple_regexes`: the items, with what is before the item already
taken. -/
def regexLst (beforePart tmpRegexes : CStr) : List CStr :=
  if tmpRegexes = [] then if beforePart = [] then [] else [beforePart]
  else
    match hsep : separator tmpRegexes with
    | .nothing => [beforePart ++ tmpRegexes]
    | .comma one rest =>
      have := length_rest hsep
      (beforePart ++ one) :: regexLst [] rest
    | .bracket front back =>
      match hend : Pieces.first 93 back with
      | some (group, rest) =>
        have := length_back hsep hend
        regexLst (beforePart ++ (front ++ [91]) ++ (group ++ [93])) rest
      | none => [beforePart ++ (front ++ [91]) ++ back]
  termination_by tmpRegexes.length

/-- The second loop of `expand_simple_regexes`, one item after the other. -/
def itemsLoop (expand : CStr → List CStr → Option (Bool × List CStr)) :
    List CStr → List CStr → Option (Bool × List CStr)
  | [], expandLst => some (true, expandLst)
  | one :: regexLst, expandLst =>
    (expand one expandLst).bind fun
      | (false, expandLst) => some (false, expandLst)
      | (true, expandLst) => itemsLoop expand regexLst expandLst

/-- `expand_simple_regexes`. -/
def expandSimpleRegexes (trim : CStr → CStr) (fuel : Nat) (simpleRegexes : CStr)
    (expandLst : List CStr) : Option (Bool × List CStr) :=
  itemsLoop (expandSimpleRegex trim fuel) (regexLst [] simpleRegexes) expandLst

/-! ## Items -/

/-- Whether a comma is inside brackets behind the character. -/
def insideNext (inside : Bool) (c : Nat) : Bool :=
  if c = 91 then true else if c = 93 then false else inside

/-- The pieces between the commas that are not inside brackets. -/
def splitOutside : Bool → CStr → List CStr
  | _, [] => [[]]
  | inside, c :: s =>
    if c = 44 ∧ inside = false then [] :: splitOutside false s
    else (splitOutside (insideNext inside c) s).modifyHead (c :: ·)

/-- Nothing behind the last comma is no item. -/
def dropRest (l : List CStr) : List CStr := if l.getLast? = some [] then l.dropLast else l

/-- The items of a text. -/
def items (s : CStr) : List CStr := dropRest (splitOutside false s)

example : items (cstr "a[1,2],,b,") = [cstr "a[1,2]", [], cstr "b"] := by decide

variable {a s : CStr}

theorem splitOutside_ne_nil (inside : Bool) (s : CStr) : splitOutside inside s ≠ [] := by
  induction s generalizing inside with
  | nil => exact List.cons_ne_nil _ _
  | cons c s ih =>
    rw [splitOutside]
    split
    · exact List.cons_ne_nil _ _
    · exact fun h => ih _ (List.modifyHead_eq_nil_iff.mp h)

theorem modifyHead_append (a b : CStr) (l : List CStr) :
    (l.modifyHead (b ++ ·)).modifyHead (a ++ ·) = l.modifyHead (a ++ b ++ ·) := by
  rw [List.modifyHead_modifyHead]
  congr 1
  funext p
  exact (List.append_assoc a b p).symm

theorem splitOutside_append (hcomma : 44 ∉ a) (hbracket : 91 ∉ a) (s : CStr) :
    splitOutside false (a ++ s) = (splitOutside false s).modifyHead (a ++ ·) := by
  induction a with
  | nil => exact (List.modifyHead_id ▸ rfl)
  | cons c a ih =>
    obtain ⟨hc, hcomma'⟩ := not_or.mp (List.mem_cons.not.mp hcomma)
    obtain ⟨hc', hbracket'⟩ := not_or.mp (List.mem_cons.not.mp hbracket)
    have hnext : insideNext false c = false := by simp [insideNext, Ne.symm hc']
    rw [List.cons_append, splitOutside, if_neg fun h => hc h.1.symm, hnext,
      ih hcomma' hbracket']
    exact modifyHead_append [c] a _

theorem splitInside_append (hend : 93 ∉ a) (s : CStr) :
    splitOutside true (a ++ s) = (splitOutside true s).modifyHead (a ++ ·) := by
  induction a with
  | nil => exact (List.modifyHead_id ▸ rfl)
  | cons c a ih =>
    obtain ⟨hc, hend'⟩ := not_or.mp (List.mem_cons.not.mp hend)
    have hnext : insideNext true c = true := by simp [insideNext, Ne.symm hc]
    rw [List.cons_append, splitOutside, if_neg fun h => Bool.noConfusion h.2, hnext, ih hend']
    exact modifyHead_append [c] a _

theorem splitOutside_bracket (s : CStr) :
    splitOutside false (91 :: s) = (splitOutside true s).modifyHead ([91] ++ ·) := rfl

theorem splitInside_bracket (s : CStr) :
    splitOutside true (93 :: s) = (splitOutside false s).modifyHead ([93] ++ ·) := rfl

theorem dropRest_cons (p : CStr) {l : List CStr} (hl : l ≠ []) :
    dropRest (p :: l) = p :: dropRest l := by
  rw [dropRest, dropRest, List.getLast?_cons_of_ne_nil hl, List.dropLast_cons_of_ne_nil hl]
  split <;> rfl

theorem dropRest_singleton {p : CStr} (hp : p ≠ []) : dropRest [p] = [p] :=
  if_neg fun h => hp (Option.some.inj h)

/-- The loop finds the items. -/
theorem regexLst_eq (before s : CStr) :
    regexLst before s = dropRest ((splitOutside false s).modifyHead (before ++ ·)) := by
  fun_induction regexLst before s with
  | case1 => rfl
  | case2 before hbefore =>
    have hne : before ++ [] ≠ [] := by rwa [List.append_nil]
    exact (congrArg (fun p => [p]) (List.append_nil before)).symm.trans
      (dropRest_singleton hne).symm
  | case3 before s hs hsep =>
    have hcuts := separator_cuts s
    rw [hsep] at hcuts
    have hsplit := splitOutside_append hcuts.1 hcuts.2 []
    rw [List.append_nil] at hsplit
    rw [hsplit]
    show [before ++ s] = dropRest [before ++ (s ++ [])]
    rw [List.append_nil, dropRest_singleton (List.append_ne_nil_of_right_ne_nil before hs)]
  | case4 before s hs one rest hsep _ ih =>
    have hcuts := separator_cuts s
    rw [hsep] at hcuts
    obtain ⟨rfl, hcomma, hbracket⟩ := hcuts
    rw [splitOutside_append hcomma hbracket, ih, modifyHead_append]
    show _ = dropRest ((before ++ one ++ []) :: splitOutside false rest)
    rw [List.append_nil, dropRest_cons _ (splitOutside_ne_nil false rest)]
    exact congrArg (fun l => (before ++ one) :: dropRest l) (List.modifyHead_id ▸ rfl)
  | case5 before s hs front back hsep group rest hend _ ih =>
    have hcuts := separator_cuts s
    rw [hsep] at hcuts
    obtain ⟨rfl, hcomma, hbracket⟩ := hcuts
    obtain ⟨rfl, hgroup⟩ := Pieces.first_eq_some hend
    rw [ih, splitOutside_append hcomma hbracket, splitOutside_bracket,
      splitInside_append hgroup, splitInside_bracket, modifyHead_append, modifyHead_append,
      modifyHead_append, modifyHead_append]
    simp only [List.append_assoc]
  | case6 before s hs front back hsep hend =>
    have hcuts := separator_cuts s
    rw [hsep] at hcuts
    obtain ⟨rfl, hcomma, hbracket⟩ := hcuts
    have hsplit := splitInside_append (Pieces.first_eq_none_iff.mp hend) []
    rw [List.append_nil] at hsplit
    rw [splitOutside_append hcomma hbracket, splitOutside_bracket, hsplit, modifyHead_append,
      modifyHead_append, modifyHead_append]
    have hne : before ++ front ++ [91] ++ back ≠ [] := by simp
    show _ = dropRest [before ++ front ++ [91] ++ back ++ []]
    rw [List.append_nil, dropRest_singleton hne, List.append_assoc before front [91]]

theorem expandSimpleRegexes_eq (trim : CStr → CStr) (fuel : Nat) (s : CStr)
    (expandLst : List CStr) :
    expandSimpleRegexes trim fuel s expandLst =
      itemsLoop (expandSimpleRegex trim fuel) (items s) expandLst := by
  rw [expandSimpleRegexes, regexLst_eq, items]
  exact congrArg (fun l => itemsLoop _ (dropRest l) expandLst) (List.modifyHead_id ▸ rfl)

end Regex
end Chm
