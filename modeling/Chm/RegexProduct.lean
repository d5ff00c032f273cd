/-
What a host name with brackets stands for, and when `expand_simple_regex` finds it.

The product of a text has the alternatives of its groups with the literal text between them, the
first group first; a text with a wrong group has none.  The loop never ends when a range of numbers
ends at `INT_MAX`, it does not look behind a group without alternatives, and numbers above
`INT_MAX` wrap.  `expandSimpleRegex_product` says for which texts none of this shows.
-/
import Chm.RegexRun

namespace Chm
namespace Regex

open Conf (atoi cstr isspace)

/-! ## The product -/

/-- The numbers from one to another, as far as an `int` goes. -/
def numbers (a b : CStr) : Option (List CStr) :=
  if decimalValue a ≤ decimalValue b ∧ decimalValue b < 2 ^ 31 then
    some ((List.range' (decimalValue a) (decimalValue b + 1 - decimalValue a)).map Decimal.text)
  else none

/-- What a part stands for: itself, or a range of numbers or of letters. -/
def alternativesOf (trim : CStr → CStr) (part : CStr) : Option (List CStr) :=
  match rangeEnds trim part with
  | none => some [part]
  | some (a, b) => if isNumberRange a b then numbers a b else letters a b

/-- The alternatives of a group, or nothing when it is wrong. -/
def alternatives (trim : CStr → CStr) (content : CStr) : Option (List CStr) :=
  if trim content = [] ∨ 91 ∈ content ∨
      ∃ part ∈ partsOf trim content, alternativesOf trim part = none then none
  else some ((partsOf trim content).flatMap fun part => (alternativesOf trim part).getD [])

/-- One alternative of each group, in the order of the groups. -/
def product (trim : CStr → CStr) : Shape → Option (List CStr)
  | .text s => some [s]
  | .wrong => none
  | .group lit content rest =>
    (alternatives trim content).bind fun l =>
      (product trim rest).map fun names => l.flatMap fun a => names.map (lit ++ a ++ ·)

/-- What `expand_simple_regex` is to return. -/
def expansion (trim : CStr → CStr) (s : CStr) (expandLst : List CStr) : Bool × List CStr :=
  match product trim (shape (trim s)) with
  | none => (false, expandLst)
  | some names => (true, expandLst ++ names)

/-! ## The condition -/

/-- No range that ends at `INT_MAX` stands before the first group without alternatives. -/
def endsInTime (trim : CStr → CStr) : Shape → Bool
  | .text _ => true
  | .wrong => true
  | .group _ content rest =>
    (partsOf trim content).all (!endless trim ·) &&
      (partsOf trim content = [] || endsInTime trim rest)

/-- A group that is refused before a range in it ends at `INT_MAX`. -/
def refusedGroup (trim : CStr → CStr) (content : CStr) : Bool :=
  trim content = [] || 91 ∈ content || (stopsAt trim (partsOf trim content)).any (refused trim)

/-- Something is refused before the first group without alternatives, and before a range that ends
at `INT_MAX`. -/
def refusedInTime (trim : CStr → CStr) : Shape → Bool
  | .text _ => false
  | .wrong => true
  | .group _ content rest =>
    refusedGroup trim content ||
      ((partsOf trim content).all (!endless trim ·) && partsOf trim content ≠ [] &&
        refusedInTime trim rest)

/-- Texts that are expanded as they should be. -/
def SoundRegex (trim : CStr → CStr) (s : CStr) : Prop :=
  (product trim (shape (trim s))).isSome = true ∧ endsInTime trim (shape (trim s)) = true ∨
    refusedInTime trim (shape (trim s)) = true

instance (trim : CStr → CStr) (s : CStr) : Decidable (SoundRegex trim s) :=
  inferInstanceAs (Decidable (_ ∨ _))

variable {trim : CStr → CStr} {blank : Nat → Bool} {part content : CStr} {sh : Shape}
  {l as names expandLst : List CStr}

/-! ## Parts and groups -/

theorem atoi_number {a : CStr} (h : isStringNumber a = true) (hlt : decimalValue a < 2 ^ 31) :
    atoi a = decimalValue a := by
  rw [isStringNumber, Bool.and_eq_true, decide_eq_true_iff, List.all_eq_true] at h
  exact NetDb.atoi_decimal h.1 h.2 hlt

theorem text_eq_intText (n : Nat) : Decimal.intText n = Decimal.text n := by
  rw [Decimal.intText, if_neg (by omega), Int.natAbs_natCast]

theorem intRange_eq (n m : Nat) :
    intRange n m = (List.range' n (m + 1 - n)).map Decimal.text := by
  have hlength : ((m : Int) + 1 - n).toNat = m + 1 - n := by omega
  rw [intRange, hlength, List.range'_eq_map_range, List.map_map]
  refine List.map_congr_left fun i _ => ?_
  rw [Function.comp_apply, ← text_eq_intText]
  rfl

/-- A part that stands for something is not refused. -/
theorem alternativesOf_some (h : alternativesOf trim part = some as) :
    refused trim part = false ∧ expanded trim part = as := by
  rw [alternativesOf] at h
  rw [refused, expanded]
  cases hends : rangeEnds trim part with
  | none =>
    rw [hends] at h
    exact ⟨rfl, Option.some.inj h⟩
  | some ends =>
    obtain ⟨a, b⟩ := ends
    rw [hends] at h
    dsimp only at h ⊢
    cases hnumber : isNumberRange a b with
    | false =>
      rw [hnumber] at h
      rw [if_neg Bool.false_ne_true] at h
      simp [h]
    | true =>
      rw [hnumber, if_pos rfl, numbers] at h
      split at h
      · rename_i hrange
        obtain ⟨ha, hb⟩ := Bool.and_eq_true_iff.mp hnumber
        have hatoi_a := atoi_number ha (by omega)
        have hatoi_b := atoi_number hb hrange.2
        rw [if_pos rfl, if_pos rfl, hatoi_a, hatoi_b, intRange_eq]
        exact ⟨by simp [hrange.1], Option.some.inj h⟩
      · cases h

theorem letters_ne_nil (a b : CStr) : letters a b ≠ some [] := by
  rw [letters.eq_def]
  split
  · rename_i c d
    split
    · rename_i hrange
      have hlength : d + 1 - c = (d - c) + 1 := by omega
      rw [charRange, hlength, List.range'_succ]
      exact fun h => List.cons_ne_nil _ _ (Option.some.inj h)
    · exact fun h => by cases h
  · exact fun h => by cases h

theorem expanded_ne_nil (h : refused trim part = false) : expanded trim part ≠ [] := by
  rw [refused] at h
  rw [expanded]
  cases hends : rangeEnds trim part with
  | none => exact List.cons_ne_nil _ _
  | some ends =>
    obtain ⟨a, b⟩ := ends
    rw [hends] at h
    dsimp only at h ⊢
    cases hnumber : isNumberRange a b with
    | false =>
      rw [hnumber, if_neg Bool.false_ne_true] at h
      rw [if_neg Bool.false_ne_true]
      cases hletters : letters a b with
      | none => exact absurd hletters (of_decide_eq_false h)
      | some l => exact fun hnil => letters_ne_nil a b (hletters.trans (congrArg some hnil))
    | true =>
      rw [hnumber, if_pos rfl] at h
      have hle : atoi a ≤ atoi b := not_lt.mp (of_decide_eq_false h)
      rw [if_pos rfl, intRange_cons hle]
      exact List.cons_ne_nil _ _

theorem flatMap_expanded_eq_nil (parts : List CStr)
    (h : ∀ part ∈ parts, refused trim part = false) :
    parts.flatMap (expanded trim) = [] ↔ parts = [] := by
  cases parts with
  | nil => exact ⟨fun _ => rfl, fun _ => rfl⟩
  | cons part parts =>
    have hne := expanded_ne_nil (h part List.mem_cons_self)
    refine ⟨fun hnil => ?_, fun hnil => by cases hnil⟩
    rw [List.flatMap_cons, List.append_eq_nil_iff] at hnil
    exact absurd hnil.1 hne

theorem alternatives_some (h : alternatives trim content = some as) :
    trim content ≠ [] ∧ 91 ∉ content ∧
      (∀ part ∈ partsOf trim content, refused trim part = false) ∧
      as = (partsOf trim content).flatMap (expanded trim) := by
  rw [alternatives] at h
  split at h
  · cases h
  · rename_i hright
    obtain ⟨hnil, hright⟩ := not_or.mp hright
    obtain ⟨hopen, hparts⟩ := not_or.mp hright
    have hpart : ∀ part ∈ partsOf trim content,
        refused trim part = false ∧ expanded trim part = (alternativesOf trim part).getD [] := by
      intro part hpart
      cases halt : alternativesOf trim part with
      | none => exact absurd ⟨part, hpart, halt⟩ hparts
      | some l => exact alternativesOf_some halt
    refine ⟨hnil, hopen, fun part hmem => (hpart part hmem).1, ?_⟩
    rw [← Option.some.inj h]
    exact List.flatMap_congr fun part hmem => (hpart part hmem).2.symm

theorem refusedGroup_iff : refusedGroup trim content = true ↔
    groupOutcome trim content = some none := by
  rw [refusedGroup, groupOutcome, Bool.or_eq_true, Bool.or_eq_true, decide_eq_true_iff,
    decide_eq_true_iff]
  by_cases hwrong : trim content = [] ∨ 91 ∈ content
  · simp [hwrong]
  · rw [if_neg hwrong, partsOutcome]
    cases stopsAt trim (partsOf trim content) with
    | none => simp [hwrong]
    | some part => cases hrefused : refused trim part <;> simp [hwrong, hrefused]

/-- A group whose loop never ends has a range that ends at `INT_MAX`. -/
theorem endless_of_groupOutcome (h : groupOutcome trim content = none) :
    (partsOf trim content).all (!endless trim ·) = false := by
  rw [groupOutcome] at h
  split at h
  · cases h
  · rw [partsOutcome] at h
    split at h
    · cases h
    · rename_i part hstops
      have hmem := List.mem_of_find?_eq_some hstops
      have hstop := List.find?_some hstops
      cases hrefused : refused trim part with
      | true =>
        rw [hrefused] at h
        cases h
      | false =>
        rw [hrefused, Bool.false_or] at hstop
        exact List.all_eq_false.mpr ⟨part, hmem, by simp [hstop]⟩

/-- A group with alternatives is expanded to them, unless a range in it ends at `INT_MAX`. -/
theorem groupOutcome_of_alternatives (h : alternatives trim content = some as) :
    groupOutcome trim content =
      if (partsOf trim content).all (!endless trim ·) then some (some as) else none := by
  obtain ⟨hnil, hopen, hrefused, rfl⟩ := alternatives_some h
  rw [groupOutcome, if_neg (not_or.mpr ⟨hnil, hopen⟩), partsOutcome]
  cases hstops : stopsAt trim (partsOf trim content) with
  | none =>
    rw [if_pos]
    refine List.all_eq_true.mpr fun part hpart => ?_
    have hgo := List.find?_eq_none.mp hstops part hpart
    rw [Bool.not_eq_true, Bool.or_eq_false_iff] at hgo
    rw [hgo.2]
    rfl
  | some part =>
    have hmem := List.mem_of_find?_eq_some hstops
    have hstop := List.find?_some hstops
    rw [hrefused part hmem, Bool.false_or] at hstop
    have hall : (partsOf trim content).all (!endless trim ·) = false :=
      List.all_eq_false.mpr ⟨part, hmem, by simp [hstop]⟩
    simp [hrefused part hmem, hall]

/-! ## Texts -/

theorem shapeOutcome_nil (trim : CStr → CStr) (sh : Shape) (expandLst : List CStr) :
    shapeOutcome trim sh [] expandLst = some (true, expandLst) := by
  cases sh with
  | text s => rw [shapeOutcome, List.map_nil, List.append_nil]
  | wrong => rfl
  | group lit content rest => rw [shapeOutcome, if_pos rfl]

/-- What is refused has no product. -/
theorem product_of_refusedInTime (h : refusedInTime trim sh = true) : product trim sh = none := by
  induction sh with
  | text s => cases h
  | wrong => rfl
  | group lit content rest ih =>
    rw [refusedInTime, Bool.or_eq_true, Bool.and_eq_true] at h
    rw [product]
    obtain hrefused | ⟨_, hrest⟩ := h
    · cases halt : alternatives trim content with
      | none => rfl
      | some as =>
        have hgroup := groupOutcome_of_alternatives halt
        rw [refusedGroup_iff.mp hrefused] at hgroup
        split at hgroup
        · cases hgroup
        · cases hgroup
    · rw [ih hrest]
      cases alternatives trim content <;> rfl

theorem flatMap_ne_nil {f : CStr → List CStr} (hl : l ≠ []) (hf : ∀ p, f p ≠ []) :
    l.flatMap f ≠ [] := by
  cases l with
  | nil => exact absurd rfl hl
  | cons p l =>
    rw [List.flatMap_cons]
    exact List.append_ne_nil_of_left_ne_nil (hf p) _

/-- The loop refuses a text when something is refused in time. -/
theorem shapeOutcome_refused (hl : l ≠ []) :
    shapeOutcome trim sh l expandLst = some (false, expandLst) ↔ refusedInTime trim sh = true := by
  induction sh generalizing l with
  | text s => simp [shapeOutcome, refusedInTime]
  | wrong => simp [shapeOutcome, refusedInTime, hl]
  | group lit content rest ih =>
    rw [shapeOutcome, if_neg hl, refusedInTime, Bool.or_eq_true, refusedGroup_iff]
    cases hgroup : groupOutcome trim content with
    | none => simp [endless_of_groupOutcome hgroup]
    | some r =>
      cases r with
      | none => simp
      | some as =>
        obtain ⟨_, _, hparts, rfl⟩ := groupOutcome_some hgroup
        have hends : (partsOf trim content).all (!endless trim ·) = true :=
          List.all_eq_true.mpr fun part hpart => by simp [(hparts part hpart).2]
        have hnil := flatMap_expanded_eq_nil _ fun part hpart => (hparts part hpart).1
        rw [Option.bind_some, hends]
        dsimp only
        by_cases hempty : partsOf trim content = []
        · have hnext : (l.flatMap fun p =>
              ((partsOf trim content).flatMap (expanded trim)).map (p ++ lit ++ ·)) = [] := by
            simp [hempty]
          rw [hnext, shapeOutcome_nil]
          simp [hempty]
        · have hnext : (l.flatMap fun p =>
              ((partsOf trim content).flatMap (expanded trim)).map (p ++ lit ++ ·)) ≠ [] :=
            flatMap_ne_nil hl fun p => List.map_eq_nil_iff.not.mpr (hnil.not.mpr hempty)
          rw [ih hnext]
          simp [hempty]

/-- The loop finds the product when no range without an end comes in its way. -/
theorem shapeOutcome_product (expandLst : List CStr) (hl : l ≠ [])
    (h : product trim sh = some names) :
    shapeOutcome trim sh l expandLst =
        some (true, expandLst ++ l.flatMap fun p => names.map (p ++ ·)) ↔
      endsInTime trim sh = true := by
  induction sh generalizing l names with
  | text s =>
    obtain rfl := Option.some.inj h
    have hmap : (l.flatMap fun p => [s].map (p ++ ·)) = l.map (· ++ s) :=
      List.map_eq_flatMap.symm
    rw [hmap]
    simp [shapeOutcome, endsInTime]
  | wrong => cases h
  | group lit content rest ih =>
    obtain ⟨as, halt, hmap⟩ := Option.bind_eq_some_iff.mp h
    obtain ⟨names', hrest, rfl⟩ := Option.map_eq_some_iff.mp hmap
    obtain ⟨_, _, hrefused, has⟩ := alternatives_some halt
    have hnil := flatMap_expanded_eq_nil _ hrefused
    rw [← has] at hnil
    rw [shapeOutcome, if_neg hl, groupOutcome_of_alternatives halt, endsInTime]
    cases hends : (partsOf trim content).all (!endless trim ·) with
    | false => simp
    | true =>
      rw [if_pos rfl, Option.bind_some, Bool.true_and]
      dsimp only
      by_cases hempty : partsOf trim content = []
      · have hnext : (l.flatMap fun p => ([] : List CStr).map (p ++ lit ++ ·)) = [] := by simp
        rw [hnil.mpr hempty, hnext, shapeOutcome_nil]
        simp [hempty]
      · have hnext : (l.flatMap fun p => as.map (p ++ lit ++ ·)) ≠ [] :=
          flatMap_ne_nil hl fun p => List.map_eq_nil_iff.not.mpr (hnil.not.mpr hempty)
        -- The product of the group and the rest, one beginning after the other.
        have hnames : (l.flatMap fun p => (as.flatMap fun a => names'.map (lit ++ a ++ ·)).map
            (p ++ ·)) =
              (l.flatMap fun p => as.map (p ++ lit ++ ·)).flatMap fun p => names'.map (p ++ ·) := by
          rw [List.flatMap_assoc]
          refine List.flatMap_congr fun p _ => ?_
          rw [List.map_flatMap, List.flatMap_map]
          refine List.flatMap_congr fun a _ => ?_
          simp only [List.map_map, Function.comp_def, List.append_assoc]
        rw [hnames, ih hnext hrest]
        simp [hempty]

theorem expandSimpleRegex_settles (ht : TrimsSpaces trim blank) (s : CStr)
    (expandLst : List CStr) :
    Fuel.Settles (fun fuel => expandSimpleRegex trim fuel s expandLst)
      (shapeOutcome trim (shape (trim s)) [[]] expandLst) :=
  regexLoop_shape ht (trim s) [[]] expandLst fun p hp => by
    rw [List.mem_singleton.mp hp]
    exact ⟨List.not_mem_nil, List.not_mem_nil⟩

/-- `expand_simple_regex` returns what the text stands for just when the text is sound.
`expand_simple_regexes` calls it for one item after the other. -/
theorem expandSimpleRegex_product (ht : TrimsSpaces trim blank) :
    (∀ s expandLst, (∃ fuel, expandSimpleRegex trim fuel s expandLst =
        some (expansion trim s expandLst)) ↔ SoundRegex trim s) ∧
    ∀ fuel s expandLst, expandSimpleRegexes trim fuel s expandLst =
      itemsLoop (expandSimpleRegex trim fuel) (items s) expandLst := by
  refine ⟨fun s expandLst => ?_, expandSimpleRegexes_eq trim⟩
  have hne : ([[]] : List CStr) ≠ [] := List.cons_ne_nil _ _
  rw [(expandSimpleRegex_settles ht s expandLst).ends_iff, expansion, SoundRegex]
  cases hproduct : product trim (shape (trim s)) with
  | none =>
    dsimp only
    rw [shapeOutcome_refused hne]
    simp
  | some names =>
    have hfound := shapeOutcome_product expandLst hne hproduct
    have hnames : ([[]].flatMap fun p => names.map (p ++ ·)) = names := by simp
    have hrefused : refusedInTime trim (shape (trim s)) ≠ true := by
      intro h
      rw [product_of_refusedInTime h] at hproduct
      cases hproduct
    rw [hnames] at hfound
    dsimp only
    rw [hfound]
    simp [hrefused]

theorem trimsSpaces_isspace : TrimsSpaces (Trim.both isspace) isspace where
  both := rfl
  spaces c hc := by
    simpa [isspace] using hc

theorem expandSimpleRegex_product_sample :
    ∃ fuel, expandSimpleRegex (Trim.both isspace) fuel (cstr "s[1-2].x[a, b]") [] =
      some (true, [cstr "s1.xa", cstr "s1.xb", cstr "s2.xa", cstr "s2.xb"]) := by
  have hfound := ((expandSimpleRegex_product trimsSpaces_isspace).1
    (cstr "s[1-2].x[a, b]") []).mpr (by decide +kernel)
  have hexpansion : expansion (Trim.both isspace) (cstr "s[1-2].x[a, b]") [] =
      (true, [cstr "s1.xa", cstr "s1.xb", cstr "s2.xa", cstr "s2.xb"]) := by decide +kernel
  rwa [hexpansion] at hfound

/-- One host whose number is `INT_MAX` is never found; what stands behind a group of commas is not
looked at. -/
theorem expandSimpleRegex_product_fails :
    expansion (Trim.both isspace) (cstr "s[2147483647-2147483647]") [] =
      (true, [cstr "s2147483647"]) ∧
    (∀ fuel, expandSimpleRegex (Trim.both isspace) fuel (cstr "s[2147483647-2147483647]") [] =
      none) ∧
    expansion (Trim.both isspace) (cstr "s[,]]") [] = (false, []) ∧
    ∃ fuel, expandSimpleRegex (Trim.both isspace) fuel (cstr "s[,]]") [] = some (true, []) := by
  refine ⟨by decide +kernel, fun fuel => ?_, by decide +kernel, 5, by decide +kernel⟩
  have hloop := expandSimpleRegex_settles trimsSpaces_isspace (cstr "s[2147483647-2147483647]") []
  have hnone : shapeOutcome (Trim.both isspace)
      (shape (Trim.both isspace (cstr "s[2147483647-2147483647]"))) [[]] [] = none := by
    decide +kernel
  rw [hnone] at hloop
  exact hloop.never_ends fuel

end Regex
end Chm
