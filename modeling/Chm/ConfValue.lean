/-
Quotes, escapes and comments in a value of an INI file.

`extract_conf_value` goes over the characters with four flags.  Two of them are not kept up to date
outside quotes: a quote, a backslash or an escaped character leaves `is_before_space`, so a '#'
behind it may begin a comment, and a '#' leaves `is_escape_char`, so a backslash before it still
escapes what follows.
-/
import Chm.IniFile

namespace Chm
namespace Conf

/-! ## The automaton -/

/-- `isspace`. -/
def isspace (c : Nat) : Bool := c = 32 || 9 ≤ c && c ≤ 13

/-- The result so far and the flags: inside single and double quotes, after a backslash, and after
a blank. -/
structure Scan where
  result : CStr
  isSingleQuart : Bool
  isDoubleQuart : Bool
  isEscapeChar : Bool
  isBeforeSpace : Bool
  deriving DecidableEq, Repr

namespace Scan

def start : Scan := ⟨[], false, false, false, false⟩

def push (st : Scan) (c : Nat) : Scan := { st with result := st.result ++ [c] }

def outside (st : Scan) : Bool := !st.isSingleQuart && !st.isDoubleQuart

/-- One character inside single quotes: only the quote is not taken as it is. -/
def singleChar (st : Scan) (c : Nat) : Scan :=
  if c = 39 then { st with isSingleQuart := false } else st.push c

/-- One character inside double quotes. -/
def doubleChar (st : Scan) (c : Nat) : Scan :=
  if c = 34 then
    if st.isEscapeChar then { st.push c with isEscapeChar := false }
    else { st with isDoubleQuart := false }
  else if c = 92 then
    if st.isEscapeChar then { st.push c with isEscapeChar := false }
    else { st with isEscapeChar := true }
  else if st.isEscapeChar then { (st.push 92).push c with isEscapeChar := false }
  else st.push c

/-- One character outside quotes, or nothing when a comment begins. -/
def outsideChar (st : Scan) (c : Nat) : Option Scan :=
  if c = 34 then
    if st.isEscapeChar then some { st.push c with isEscapeChar := false }
    else some { st with isDoubleQuart := true }
  else if c = 39 then
    if st.isEscapeChar then some { st.push c with isEscapeChar := false }
    else some { st with isSingleQuart := true }
  else if c = 35 then
    -- `is_escape_char` is left
    if !st.isBeforeSpace then some (st.push c) else none
  else if c = 92 then
    if st.isEscapeChar then some { st.push c with isEscapeChar := false }
    else some { st with isEscapeChar := true }
  else if isspace c then some { st.push c with isBeforeSpace := true, isEscapeChar := false }
  else some { st.push c with isBeforeSpace := false, isEscapeChar := false }

/-- One character, or nothing when a comment begins. -/
def next (st : Scan) (c : Nat) : Option Scan :=
  if st.isSingleQuart then some (st.singleChar c)
  else if st.isDoubleQuart then some (st.doubleChar c)
  else st.outsideChar c

/-- The loop of `extract_conf_value`: it stops where a comment begins. -/
def loop (st : Scan) : CStr → Scan
  | [] => st
  | c :: value =>
    match st.next c with
    | none => st
    | some st => loop st value

/-- The state behind the characters, when no comment begins before. -/
def reach (st : Scan) : CStr → Option Scan
  | [] => some st
  | c :: value =>
    match st.next c with
    | none => none
    | some st => reach st value

/-- The flags with which the loop may end. -/
def accepts (st : Scan) : Bool := !(st.isSingleQuart || st.isDoubleQuart || st.isEscapeChar)

end Scan

/-- `extract_conf_value`, with what it leaves in `value`. -/
def extractConfValue (trim : CStr → CStr) (value : CStr) : Bool × CStr :=
  let value := trim value
  let st := Scan.start.loop value
  if !st.accepts then (false, value) else (true, trim st.result)

/-! ## Quoted parts -/

/-- A part of a value in double or in single quotes. -/
inductive Part
  | double (s : CStr)
  | single (s : CStr)

namespace Part

def content : Part → CStr
  | double s => s
  | single s => s

/-- A character inside double quotes: a double quote and a backslash are escaped. -/
def escaped (c : Nat) : CStr := if c = 34 ∨ c = 92 then [92, c] else [c]

def text : Part → CStr
  | double s => 34 :: (s.flatMap escaped ++ [34])
  | single s => 39 :: (s ++ [39])

end Part

/-- No blanks at the ends. -/
def Ended (s : CStr) : Prop :=
  (∀ c ∈ s.head?, isspace c = false) ∧ ∀ c ∈ s.getLast?, isspace c = false

/-- A part whose content has no blanks at its ends, and no single quote when it is in single
quotes. -/
def Part.Proper (part : Part) : Prop :=
  Ended part.content ∧ ∀ s, part = .single s → 39 ∉ s

namespace Scan

theorem loop_of_reach {st st' : Scan} {pre : CStr} (h : st.reach pre = some st') (post : CStr) :
    st.loop (pre ++ post) = st'.loop post := by
  induction pre generalizing st with
  | nil => rw [← Option.some.inj h, List.nil_append]
  | cons c pre ih =>
    rw [reach] at h
    rw [List.cons_append, loop]
    cases hnext : st.next c with
    | none =>
      rw [hnext] at h
      cases h
    | some st₁ =>
      rw [hnext] at h
      exact ih h

theorem reach_append {st : Scan} (pre post : CStr) :
    st.reach (pre ++ post) = (st.reach pre).bind fun st' => st'.reach post := by
  induction pre generalizing st with
  | nil => rfl
  | cons c pre ih =>
    rw [List.cons_append, reach, reach]
    cases st.next c with
    | none => rfl
    | some st₁ => exact ih

/-- The content of double quotes. -/
theorem reach_escaped (s : CStr) : ∀ st : Scan, st.isSingleQuart = false →
    st.isDoubleQuart = true → st.isEscapeChar = false →
    st.reach (s.flatMap Part.escaped) = some { st with result := st.result ++ s } := by
  induction s with
  | nil =>
    intro st _ _ _
    rw [List.flatMap_nil, reach, List.append_nil]
  | cons c s ih =>
    intro st hsingle hdouble hescape
    have hone : st.reach (Part.escaped c) = some (st.push c) := by
      obtain ⟨result, single, double, escape, space⟩ := st
      obtain rfl : single = false := hsingle
      obtain rfl : double = true := hdouble
      obtain rfl : escape = false := hescape
      rw [Part.escaped]
      split
      · rename_i hc
        rcases hc with rfl | rfl <;> rfl
      · rename_i hc
        obtain ⟨hquote, hback⟩ := not_or.mp hc
        simp [reach, next, doubleChar, push, hquote, hback]
    rw [List.flatMap_cons, reach_append, hone, Option.bind_some,
      ih (st.push c) hsingle hdouble hescape, push]
    simp

/-- The content of single quotes. -/
theorem reach_single (s : CStr) (h : 39 ∉ s) : ∀ st : Scan, st.isSingleQuart = true →
    st.reach s = some { st with result := st.result ++ s } := by
  induction s with
  | nil =>
    intro st _
    rw [reach, List.append_nil]
  | cons c s ih =>
    intro st hsingle
    obtain ⟨hc, hs⟩ := not_or.mp (fun hor => h (List.mem_cons.mpr hor))
    have hnext : st.next c = some (st.push c) := by
      rw [next, hsingle, if_pos rfl, singleChar, if_neg (Ne.symm hc)]
    rw [reach, hnext]
    dsimp only
    rw [ih hs (st.push c) hsingle, push]
    simp

/-- A quoted part adds its content. -/
theorem reach_part {part : Part} (hpart : part.Proper) (result : CStr) :
    ({ start with result := result } : Scan).reach part.text =
      some { start with result := result ++ part.content } := by
  cases part with
  | double s =>
    have hopen : ({ start with result := result } : Scan).reach (Part.double s).text =
        ({ start with result := result, isDoubleQuart := true } : Scan).reach
          (s.flatMap Part.escaped ++ [34]) := rfl
    rw [hopen, reach_append, reach_escaped s _ rfl rfl rfl]
    rfl
  | single s =>
    have hopen : ({ start with result := result } : Scan).reach (Part.single s).text =
        ({ start with result := result, isSingleQuart := true } : Scan).reach (s ++ [39]) := rfl
    rw [hopen, reach_append, reach_single s (hpart.2 s rfl) _ rfl]
    rfl

theorem reach_parts (parts : List Part) (hparts : ∀ part ∈ parts, part.Proper) :
    ∀ result, ({ start with result := result } : Scan).reach (parts.flatMap Part.text) =
      some { start with result := result ++ parts.flatMap Part.content } := by
  induction parts with
  | nil =>
    intro result
    rw [List.flatMap_nil, List.flatMap_nil, List.append_nil]
    rfl
  | cons part parts ih =>
    intro result
    rw [List.flatMap_cons, reach_append, reach_part (hparts part List.mem_cons_self),
      Option.bind_some, ih (fun other hother => hparts other (List.mem_cons_of_mem part hother)),
      List.flatMap_cons, List.append_assoc]

end Scan

variable {trim : CStr → CStr} {blank : Nat → Bool} {s s' : CStr}

theorem not_blank (ht : TrimsSpaces trim blank) {c : Nat} (h : isspace c = false) :
    blank c = false := by
  refine Bool.eq_false_iff.mpr fun hblank => ?_
  rw [isspace, Bool.or_eq_false_iff, Bool.and_eq_false_iff, decide_eq_false_iff_not,
    decide_eq_false_iff_not, decide_eq_false_iff_not] at h
  have hspace := ht.spaces c hblank
  omega

theorem Ended.trim_eq (h : Ended s) (ht : TrimsSpaces trim blank) : trim s = s := by
  rw [ht.both]
  exact Trim.both_eq_self (fun c hc => not_blank ht (h.1 c hc)) fun c hc => not_blank ht (h.2 c hc)

theorem Ended.append (h : Ended s) (h' : Ended s') : Ended (s ++ s') := by
  constructor
  · intro c hc
    rw [List.head?_append] at hc
    cases s with
    | nil => exact h'.1 c hc
    | cons d s => exact h.1 c hc
  · intro c hc
    rw [List.getLast?_append] at hc
    cases hlast : s'.getLast? with
    | none =>
      rw [hlast] at hc
      exact h.2 c hc
    | some d =>
      rw [hlast] at hc
      exact h'.2 c (hlast.trans hc)

theorem ended_flatMap {α : Type} {f : α → CStr} {parts : List α}
    (h : ∀ part ∈ parts, Ended (f part)) : Ended (parts.flatMap f) := by
  induction parts with
  | nil => simp [Ended]
  | cons part parts ih =>
    rw [List.flatMap_cons]
    exact (h part List.mem_cons_self).append
      (ih fun other hother => h other (List.mem_cons_of_mem part hother))

theorem ended_quoted {q : Nat} (hq : isspace q = false) (s : CStr) :
    Ended (q :: (s ++ [q])) := by
  refine ⟨fun c hc => ?_, fun c hc => ?_⟩
  · rw [← Option.some.inj hc]
    exact hq
  · rw [← List.cons_append, List.getLast?_concat] at hc
    rw [← Option.some.inj hc]
    exact hq

theorem ended_text : ∀ part : Part, Ended part.text
  | .double s => ended_quoted (by decide) (s.flatMap Part.escaped)
  | .single s => ended_quoted (by decide) s

/-- Quoted parts decode to their contents. -/
theorem extractConfValue_parts (ht : TrimsSpaces trim blank) {parts : List Part}
    (hparts : ∀ part ∈ parts, part.Proper) :
    extractConfValue trim (parts.flatMap Part.text) = (true, parts.flatMap Part.content) := by
  have htext : Ended (parts.flatMap Part.text) := ended_flatMap fun part _ => ended_text part
  have hcontent : Ended (parts.flatMap Part.content) :=
    ended_flatMap fun part hpart => (hparts part hpart).1
  have hloop := Scan.loop_of_reach (Scan.reach_parts parts hparts []) []
  rw [List.append_nil] at hloop
  have hscan : Scan.start.loop (parts.flatMap Part.text) =
      { Scan.start with result := parts.flatMap Part.content } := hloop
  rw [extractConfValue, htext.trim_eq ht, hscan]
  exact congrArg (Prod.mk true) (hcontent.trim_eq ht)

/-! ## The rules outside quotes -/

namespace Scan

/-- What a character does: the result and the quotes behind it, or nothing when a comment
begins. -/
def effect (st : Scan) (c : Nat) : Option (CStr × Bool × Bool) :=
  (st.next c).map fun st => (st.result, st.isSingleQuart, st.isDoubleQuart)

/-- The rules for a character behind `before`: outside quotes a '#' begins a comment exactly when
the character right before it is a blank, and without a backslash right before it a character does
what it does without `is_escape_char`. -/
structure Rules (before : CStr) (st : Scan) (c : Nat) : Prop where
  comment : st.outside = true → c = 35 →
    (st.next c = none ↔ ∃ d ∈ before.getLast?, isspace d = true)
  escape : before.getLast? ≠ some 92 →
    st.effect c = ({ st with isEscapeChar := false } : Scan).effect c

/-- The rule for the end: without a backslash right before it `is_escape_char` does not count. -/
def EndRule (before : CStr) (st : Scan) : Prop :=
  before.getLast? ≠ some 92 → st.accepts = ({ st with isEscapeChar := false } : Scan).accepts

/-- All characters of a text are treated by the rules, and so is its end. -/
structure Follows (before : CStr) (st : Scan) (value : CStr) : Prop where
  char : ∀ pre c post st', value = pre ++ c :: post → st.reach pre = some st' →
    Rules (before ++ pre) st' c
  ends : ∀ st', st.reach value = some st' → EndRule (before ++ value) st'

theorem follows_nil {before : CStr} {st : Scan} : Follows before st [] ↔ EndRule before st := by
  constructor
  · intro h
    have hend := h.ends st rfl
    rwa [List.append_nil] at hend
  · intro h
    refine ⟨fun pre c post st' heq => ?_, fun st' hst' => ?_⟩
    · cases pre <;> cases heq
    · obtain rfl := Option.some.inj hst'
      rw [List.append_nil]
      exact h

theorem follows_cons {before value : CStr} {st : Scan} {c : Nat} :
    Follows before st (c :: value) ↔
      Rules before st c ∧ ∀ st', st.next c = some st' → Follows (before ++ [c]) st' value := by
  constructor
  · intro h
    have hhead := h.char [] c value st rfl rfl
    rw [List.append_nil] at hhead
    refine ⟨hhead, fun st' hnext => ⟨fun pre d post st'' heq hreach => ?_, fun st'' hreach => ?_⟩⟩
    · have hchar := h.char (c :: pre) d post st'' (by rw [heq]; rfl)
        (by rw [reach, hnext]; exact hreach)
      rwa [List.append_cons] at hchar
    · have hend := h.ends st'' (by rw [reach, hnext]; exact hreach)
      rwa [List.append_cons] at hend
  · rintro ⟨hhead, htail⟩
    refine ⟨fun pre d post st'' heq hreach => ?_, fun st'' hreach => ?_⟩
    · cases pre with
      | nil =>
        obtain ⟨rfl, -⟩ := List.cons.inj heq
        obtain rfl := Option.some.inj hreach
        rw [List.append_nil]
        exact hhead
      | cons e pre =>
        obtain ⟨rfl, rfl⟩ := List.cons.inj heq
        rw [reach] at hreach
        cases hnext : st.next c with
        | none =>
          rw [hnext] at hreach
          cases hreach
        | some st' =>
          rw [hnext] at hreach
          rw [List.append_cons]
          exact (htail st' hnext).char pre d post st'' rfl hreach
    · rw [reach] at hreach
      cases hnext : st.next c with
      | none =>
        rw [hnext] at hreach
        cases hreach
      | some st' =>
        rw [hnext] at hreach
        rw [List.append_cons]
        exact (htail st' hnext).ends st'' hreach

end Scan

/-! ## The texts that are treated by the rules -/

inductive Quote
  | outside
  | single
  | double
  deriving DecidableEq, Repr

/-- Where a text stands by the rules: the quotes, a backslash that escapes, a blank, whether the
last character outside quotes that is no quote, '#' or backslash is a blank, and whether an escaped
'#' and only '#' are right before. -/
structure Marks where
  quote : Quote
  escaped : Bool
  blank : Bool
  plainBlank : Bool
  hash : Bool

/-- No '#' outside quotes has a blank before it, but for quotes and backslashes in between, and no
escaped '#' has a quote, a backslash or the end behind it; from where a comment begins the text
does not matter. -/
def Marks.keeps (m : Marks) : CStr → Bool
  | [] => !m.hash
  | c :: text =>
    match m.quote with
    | .single =>
      keeps { m with quote := if c = 39 then .outside else .single, blank := isspace c } text
    | .double =>
      if m.escaped then keeps { m with escaped := false, blank := isspace c } text
      else if c = 34 then keeps { m with quote := .outside, blank := false } text
      else keeps { m with escaped := decide (c = 92), blank := isspace c } text
    | .outside =>
      if c = 35 then
        m.plainBlank = m.blank && (m.blank ||
          keeps { m with escaped := false, hash := m.escaped || m.hash } text)
      else if c = 34 ∨ c = 39 ∨ c = 92 then
        !m.hash && if m.escaped then keeps { m with escaped := false, blank := false } text
        else if c = 92 then keeps { m with escaped := true, blank := false } text
        else keeps { m with quote := if c = 34 then .double else .single, blank := false } text
      else
        keeps ⟨.outside, false, isspace c, isspace c, false⟩ text

namespace Scan

/-- The state of the automaton on a text that was treated by the rules so far. -/
structure Marked (before : CStr) (st : Scan) (m : Marks) : Prop where
  single : st.isSingleQuart = decide (m.quote = .single)
  double : st.isDoubleQuart = decide (m.quote = .double)
  escape : st.isEscapeChar = (m.escaped || m.hash)
  space : st.isBeforeSpace = m.plainBlank
  blank : m.blank = true ↔ ∃ d ∈ before.getLast?, isspace d = true
  escaped : m.escaped = true → before.getLast? = some 92
  hash : m.hash = true → before.getLast? = some 35 ∧ m.quote = .outside
  plain : m.quote = .single → m.escaped = false

variable {before : CStr} {st : Scan} {m : Marks} {c : Nat} {result : CStr}

/-- The state behind one more character. -/
theorem marked_snoc (hsingle : st.isSingleQuart = decide (m.quote = .single))
    (hdouble : st.isDoubleQuart = decide (m.quote = .double))
    (hescape : st.isEscapeChar = (m.escaped || m.hash)) (hspace : st.isBeforeSpace = m.plainBlank)
    (hblank : m.blank = isspace c) (hescaped : m.escaped = true → c = 92)
    (hhash : m.hash = true → c = 35 ∧ m.quote = .outside)
    (hplain : m.quote = .single → m.escaped = false) : Marked (before ++ [c]) st m where
  single := hsingle
  double := hdouble
  escape := hescape
  space := hspace
  blank := by
    rw [List.getLast?_concat, hblank]
    exact ⟨fun h => ⟨c, rfl, h⟩, fun ⟨d, hd, h⟩ => Option.some.inj hd ▸ h⟩
  escaped h := by rw [List.getLast?_concat, hescaped h]
  hash h := by
    rw [List.getLast?_concat, (hhash h).1]
    exact ⟨rfl, (hhash h).2⟩
  plain := hplain

/-- The state of a text that ends inside or outside quotes. -/
theorem Marked.eq (h : Marked before st m) :
    st = ⟨st.result, decide (m.quote = .single), decide (m.quote = .double),
      m.escaped || m.hash, m.plainBlank⟩ := by
  rw [← h.single, ← h.double, ← h.escape, ← h.space]

theorem Marked.endRule_iff (h : Marked before st m) : EndRule before st ↔ m.hash = false := by
  rw [EndRule, h.eq, accepts, accepts]
  cases hhash : m.hash with
  | false =>
    refine iff_of_true (fun hlast => ?_) rfl
    have hescaped : m.escaped = false := Bool.eq_false_iff.mpr fun he => hlast (h.escaped he)
    simp only [hescaped, Bool.or_false]
  | true =>
    obtain ⟨hlast, hquote⟩ := h.hash hhash
    refine iff_of_false (fun hrule => ?_) Bool.noConfusion
    have hno := hrule (by rw [hlast]; decide)
    rw [hquote] at hno
    simp at hno

/-- Inside quotes the rules hold. -/
theorem Marked.rules_quoted (h : Marked before st m) (hquote : m.quote ≠ .outside) (c : Nat) :
    Rules before st c := by
  have hhash : m.hash = false := Bool.eq_false_iff.mpr fun hh => hquote (h.hash hh).2
  refine ⟨fun hout => ?_, fun hlast => ?_⟩
  · rw [outside, h.single, h.double] at hout
    cases hq : m.quote with
    | outside => exact absurd hq hquote
    | single =>
      rw [hq] at hout
      cases hout
    | double =>
      rw [hq] at hout
      cases hout
  · have hescaped : m.escaped = false := Bool.eq_false_iff.mpr fun he => hlast (h.escaped he)
    have hescape := h.escape
    rw [hescaped, hhash] at hescape
    rw [← show st.isEscapeChar = false from hescape]

theorem Marked.next_single (h : Marked before st m) (hquote : m.quote = .single) (c : Nat) :
    ∃ st', st.next c = some st' ∧ Marked (before ++ [c]) st'
      { m with quote := if c = 39 then .outside else .single, blank := isspace c } := by
  have hescaped := h.plain hquote
  have hhash : m.hash = false := Bool.eq_false_iff.mpr fun hh => by
    have hout := (h.hash hh).2
    rw [hquote] at hout
    cases hout
  have hnext : st.next c = some (st.singleChar c) := by
    rw [next, h.single, hquote, if_pos (by decide)]
  refine ⟨_, hnext, ?_⟩
  rw [h.eq, hquote, hescaped, hhash, singleChar]
  by_cases hc : c = 39
  · rw [if_pos hc, if_pos hc]
    exact marked_snoc rfl rfl rfl rfl rfl (fun hno => by cases hno) (fun hno => by cases hno)
      fun _ => rfl
  · rw [if_neg hc, if_neg hc]
    exact marked_snoc rfl rfl rfl rfl rfl (fun hno => by cases hno) (fun hno => by cases hno)
      fun _ => rfl

theorem Marked.next_double (h : Marked before st m) (hquote : m.quote = .double) (c : Nat) :
    ∃ st', st.next c = some st' ∧ Marked (before ++ [c]) st'
      (if m.escaped = true then { m with escaped := false, blank := isspace c }
        else if c = 34 then { m with quote := .outside, blank := false }
        else { m with escaped := decide (c = 92), blank := isspace c }) := by
  have hhash : m.hash = false := Bool.eq_false_iff.mpr fun hh => by
    have hout := (h.hash hh).2
    rw [hquote] at hout
    cases hout
  have hnext : st.next c = some (st.doubleChar c) := by
    rw [next, h.single, h.double, hquote, if_neg (by decide), if_pos (by decide)]
  refine ⟨_, hnext, ?_⟩
  rw [h.eq, hquote, hhash, doubleChar]
  cases hescaped : m.escaped with
  | true =>
    rw [if_pos rfl]
    by_cases hc : c = 34
    · rw [if_pos hc]
      exact marked_snoc rfl rfl rfl rfl rfl (fun hno => by cases hno) (fun hno => by cases hno)
        fun hno => by cases hno
    · rw [if_neg hc]
      by_cases hback : c = 92
      · rw [if_pos hback]
        exact marked_snoc rfl rfl rfl rfl rfl (fun hno => by cases hno) (fun hno => by cases hno)
          fun hno => by cases hno
      · rw [if_neg hback]
        exact marked_snoc rfl rfl rfl rfl rfl (fun hno => by cases hno) (fun hno => by cases hno)
          fun hno => by cases hno
  | false =>
    rw [if_neg Bool.false_ne_true]
    by_cases hc : c = 34
    · subst hc
      exact marked_snoc rfl rfl rfl rfl rfl (fun hno => by cases hno) (fun hno => by cases hno)
        fun hno => by cases hno
    · rw [if_neg hc, if_neg hc]
      by_cases hback : c = 92
      · subst hback
        exact marked_snoc rfl rfl rfl rfl rfl (fun _ => rfl) (fun hno => by cases hno)
          fun hno => by cases hno
      · rw [if_neg hback, decide_eq_false hback]
        exact marked_snoc rfl rfl rfl rfl rfl (fun hno => by cases hno) (fun hno => by cases hno)
          fun hno => by cases hno

/-- A '#' outside quotes. -/
theorem Marked.hashChar (h : Marked before st m) (hquote : m.quote = .outside) :
    (Rules before st 35 ↔ m.plainBlank = m.blank) ∧
      (m.plainBlank = true → st.next 35 = none) ∧
      (m.plainBlank = false → m.blank = false → ∃ st', st.next 35 = some st' ∧
        Marked (before ++ [35]) st' { m with escaped := false, hash := m.escaped || m.hash }) := by
  have hnext : ∀ e, ({ st with isEscapeChar := e } : Scan).next 35 =
      if !m.plainBlank then some { st.push 35 with isEscapeChar := e } else none := by
    intro e
    rw [h.eq, hquote]
    rfl
  have hown := hnext st.isEscapeChar
  have hcomment : st.next 35 = none ↔ m.plainBlank = true := by
    rw [show st.next 35 = _ from hown]
    cases m.plainBlank <;> simp
  refine ⟨?_, hcomment.mpr, fun hplain hblank => ?_⟩
  · constructor
    · intro hrules
      have hiff := hrules.comment (by rw [outside, h.single, h.double, hquote]; rfl) rfl
      rw [hcomment, ← h.blank] at hiff
      exact Bool.eq_iff_iff.mpr hiff
    · intro heq
      refine ⟨fun _ _ => by rw [hcomment, ← h.blank, heq], fun _ => ?_⟩
      rw [effect, effect, hnext false, show st.next 35 = _ from hown]
      cases m.plainBlank <;> rfl
  · refine ⟨_, (show st.next 35 = _ from hown).trans (by rw [hplain]; rfl), ?_⟩
    rw [h.eq, hquote]
    refine marked_snoc rfl rfl ?_ rfl hblank (fun hno => by cases hno) (fun _ => ⟨rfl, rfl⟩)
      fun hno => by cases hno
    exact (Bool.false_or _).symm

/-- A quote or a backslash outside quotes. -/
theorem Marked.special (h : Marked before st m) (hquote : m.quote = .outside)
    (hc : c = 34 ∨ c = 39 ∨ c = 92) :
    (Rules before st c ↔ m.hash = false) ∧ (m.hash = false → ∃ st', st.next c = some st' ∧
      Marked (before ++ [c]) st'
        (if m.escaped = true then { m with escaped := false, blank := false }
          else if c = 92 then { m with escaped := true, blank := false }
          else { m with quote := if c = 34 then .double else .single, blank := false })) := by
  have hst := h.eq
  rw [hquote] at hst
  constructor
  · constructor
    · intro hrules
      by_contra hhash
      have hhash := Bool.eq_true_of_not_eq_false hhash
      have hno := hrules.escape (by rw [(h.hash hhash).1]; decide)
      rw [hst, hhash, Bool.or_true] at hno
      rcases hc with rfl | rfl | rfl <;> simp [effect, next, outsideChar, push] at hno
    · intro hhash
      refine ⟨fun _ hc' => ?_, fun hlast => ?_⟩
      · subst hc'
        omega
      · have hescaped : m.escaped = false :=
          Bool.eq_false_iff.mpr fun he => hlast (h.escaped he)
        have hescape := h.escape
        rw [hescaped, hhash] at hescape
        rw [← show st.isEscapeChar = false from hescape]
  · intro hhash
    obtain ⟨quote, escaped, blank, plainBlank, hash⟩ := m
    obtain rfl : quote = .outside := hquote
    obtain rfl : hash = false := hhash
    rw [hst]
    cases escaped with
    | true =>
      rcases hc with rfl | rfl | rfl <;>
        exact ⟨_, rfl, marked_snoc rfl rfl rfl rfl rfl (by simp) (by simp) (by simp)⟩
    | false =>
      rcases hc with rfl | rfl | rfl <;>
        exact ⟨_, rfl, marked_snoc rfl rfl rfl rfl rfl (by simp) (by simp) (by simp)⟩

/-- Any other character outside quotes. -/
theorem Marked.plainChar (h : Marked before st m) (hquote : m.quote = .outside) (hhash : c ≠ 35)
    (hc : ¬(c = 34 ∨ c = 39 ∨ c = 92)) :
    Rules before st c ∧ ∃ st', st.next c = some st' ∧
      Marked (before ++ [c]) st' ⟨.outside, false, isspace c, isspace c, false⟩ := by
  obtain ⟨hdouble, hrest⟩ := not_or.mp hc
  obtain ⟨hsingle, hback⟩ := not_or.mp hrest
  have hnext : ∀ e, ({ st with isEscapeChar := e } : Scan).next c =
      some ⟨st.result ++ [c], false, false, false, isspace c⟩ := by
    intro e
    rw [h.eq, hquote]
    simp only [next, outsideChar, push, if_neg hdouble, if_neg hsingle, if_neg hhash, if_neg hback]
    cases isspace c <;> rfl
  have hown := hnext st.isEscapeChar
  refine ⟨⟨fun _ hc' => absurd hc' hhash, fun _ => ?_⟩, _, hown, ?_⟩
  · rw [effect, effect, hnext false, show st.next c = _ from hown]
  · exact marked_snoc rfl rfl rfl rfl rfl (by simp) (by simp) (by simp)

/-- A text follows the rules from a state on just when the marks say so. -/
theorem follows_iff_keeps (value : CStr) : ∀ before st m, Marked before st m →
    (Follows before st value ↔ m.keeps value = true) := by
  induction value with
  | nil =>
    intro before st m h
    rw [follows_nil, h.endRule_iff, Marks.keeps, Bool.not_eq_true']
  | cons c value ih =>
    intro before st m h
    -- A character that the rules allow and that leads on.
    have hstep : ∀ {st' m'}, Rules before st c → st.next c = some st' →
        Marked (before ++ [c]) st' m' →
        (Follows before st (c :: value) ↔ m'.keeps value = true) := by
      intro st' m' hrules hnext h'
      rw [follows_cons, ← ih _ st' m' h']
      constructor
      · exact fun hfollows => hfollows.2 st' hnext
      · intro hfollows
        refine ⟨hrules, fun st'' hst'' => ?_⟩
        obtain rfl := Option.some.inj (hnext.symm.trans hst'')
        exact hfollows
    rw [Marks.keeps]
    cases hquote : m.quote with
    | single =>
      have hne : m.quote ≠ .outside := by rw [hquote]; decide
      obtain ⟨st', hnext, h'⟩ := h.next_single hquote c
      exact hstep (h.rules_quoted hne c) hnext h'
    | double =>
      have hne : m.quote ≠ .outside := by rw [hquote]; decide
      obtain ⟨st', hnext, h'⟩ := h.next_double hquote c
      rw [hstep (h.rules_quoted hne c) hnext h', hquote]
      dsimp only
      split
      · exact Iff.rfl
      · split <;> exact Iff.rfl
    | outside =>
      dsimp only
      by_cases hhash : c = 35
      · subst hhash
        obtain ⟨hrules, hends, hgoes⟩ := h.hashChar hquote
        rw [if_pos rfl, Bool.and_eq_true, decide_eq_true_eq]
        by_cases heq : m.plainBlank = m.blank
        · cases hblank : m.blank with
          | true =>
            refine iff_of_true ?_ ⟨heq.trans hblank, rfl⟩
            have hnone := hends (heq.trans hblank)
            refine follows_cons.mpr ⟨hrules.mpr heq, fun st' hst' => ?_⟩
            rw [hnone] at hst'
            cases hst'
          | false =>
            obtain ⟨st', hnext, h'⟩ := hgoes (heq.trans hblank) hblank
            rw [hstep (hrules.mpr heq) hnext h', Bool.false_or, hquote, hblank]
            exact ⟨fun hkeeps => ⟨heq.trans hblank, hkeeps⟩, fun hboth => hboth.2⟩
        · exact iff_of_false (fun hfollows => heq (hrules.mp (follows_cons.mp hfollows).1))
            fun hboth => heq hboth.1
      · rw [if_neg hhash]
        by_cases hc : c = 34 ∨ c = 39 ∨ c = 92
        · obtain ⟨hrules, hgoes⟩ := h.special hquote hc
          rw [if_pos hc, Bool.and_eq_true, Bool.not_eq_true']
          cases hmark : m.hash with
          | true =>
            refine iff_of_false (fun hfollows => ?_) fun hboth => Bool.noConfusion hboth.1
            have hno := hrules.mp (follows_cons.mp hfollows).1
            rw [hmark] at hno
            cases hno
          | false =>
            obtain ⟨st', hnext, h'⟩ := hgoes hmark
            rw [hstep (hrules.mpr hmark) hnext h', hmark, hquote]
            refine (and_iff_right rfl).symm.trans (and_congr_right fun _ => ?_)
            split
            · exact Iff.rfl
            · split <;> exact Iff.rfl
        · obtain ⟨hrules, st', hnext, h'⟩ := h.plainChar hquote hhash hc
          rw [if_neg hc]
          exact hstep hrules hnext h'

end Scan

/-- Where a value begins: the blanks that are trimmed stand before it. -/
def Marks.start (blank : Nat → Bool) (value : CStr) : Marks :=
  ⟨.outside, false, !(value.takeWhile blank).isEmpty, false, false⟩

theorem marked_start (ht : TrimsSpaces trim blank) (value : CStr) :
    Scan.Marked (value.takeWhile blank) Scan.start (Marks.start blank value) where
  single := rfl
  double := rfl
  escape := rfl
  space := rfl
  blank := by
    rw [Marks.start, Bool.not_eq_true', List.isEmpty_eq_false_iff]
    constructor
    · intro hne
      refine ⟨_, List.getLast?_eq_getLast_of_ne_nil hne, ?_⟩
      by_contra hspace
      have hblank := not_blank ht (Bool.eq_false_iff.mpr hspace)
      have hall : (value.takeWhile blank).all blank = true := List.all_takeWhile
      rw [List.all_eq_true.mp hall _ (List.getLast_mem hne)] at hblank
      cases hblank
    · rintro ⟨d, hd, -⟩ hnil
      rw [hnil] at hd
      cases hd
  escaped h := by cases h
  hash h := by cases h
  plain _ := rfl

/-- Quoted parts decode to their contents, and a value with an unterminated quote or escape is
rejected.  The characters of a value, in its quotes and outside, are treated by the rules for
comments and escapes if and only if its marks say so. -/
theorem extractConfValue_rules (ht : TrimsSpaces trim blank) :
    (∀ parts : List Part, (∀ part ∈ parts, part.Proper) →
      extractConfValue trim (parts.flatMap Part.text) = (true, parts.flatMap Part.content)) ∧
    ∀ value : CStr,
      (∀ st, Scan.start.reach (trim value) = some st →
        (st.isSingleQuart = true ∨ st.isDoubleQuart = true ∨ st.isEscapeChar = true) →
        (extractConfValue trim value).1 = false) ∧
      (Scan.Follows (value.takeWhile blank) Scan.start (trim value) ↔
        (Marks.start blank value).keeps (trim value) = true) := by
  refine ⟨fun parts hparts => extractConfValue_parts ht hparts, fun value => ⟨?_, ?_⟩⟩
  · intro st hreach hflags
    have hloop := Scan.loop_of_reach hreach []
    rw [List.append_nil] at hloop
    have hrejects : st.accepts = false := by
      rw [Scan.accepts]
      rcases hflags with h | h | h <;> simp [h]
    rw [extractConfValue, hloop, Scan.loop, hrejects]
    rfl
  · exact Scan.follows_iff_keeps (trim value) _ _ _ (marked_start ht value)

/-! ### A '#' behind a quote, and a quote behind an escaped '#' -/

/-- In `a "b"#c` the '#' begins a comment although a quote stands right before it, and in `\#"` the
backslash escapes the quote. -/
theorem extractConfValue_breaks :
    (Scan.start.reach [97, 32, 34, 98, 34] = some ⟨[97, 32, 98], false, false, false, true⟩ ∧
      (⟨[97, 32, 98], false, false, false, true⟩ : Scan).next 35 = none ∧ isspace 34 = false ∧
      extractConfValue (Trim.both sampleBlank) [97, 32, 34, 98, 34, 35, 99] =
        (true, [97, 32, 98])) ∧
    Scan.start.reach [92, 35] = some ⟨[35], false, false, true, false⟩ ∧
      (⟨[35], false, false, true, false⟩ : Scan).effect 34 = some ([35, 34], false, false) ∧
      (⟨[35], false, false, false, false⟩ : Scan).effect 34 = some ([35], false, true) ∧
      extractConfValue (Trim.both sampleBlank) [92, 35, 34] = (true, [35, 34]) := by
  decide +kernel

theorem extractConfValue_rules_sample :
    extractConfValue (Trim.both sampleBlank)
        ([Part.double [97, 34, 92], Part.single [33]].flatMap Part.text) =
      (true, [97, 34, 92, 33]) ∧
    ¬Scan.Follows [] Scan.start [92, 35, 34] ∧
    Scan.Follows [] Scan.start [97, 32, 35, 99] := by
  have hrules := extractConfValue_rules sampleTrim
  refine ⟨hrules.1 _ ?_, ?_, ?_⟩
  · intro part hpart
    rw [List.mem_cons, List.mem_singleton] at hpart
    rcases hpart with rfl | rfl
    · exact ⟨⟨by decide, by decide⟩, fun s hs => by cases hs⟩
    · refine ⟨⟨by decide, by decide⟩, fun s hs => ?_⟩
      cases hs
      decide
  · have hiff := (hrules.2 [92, 35, 34]).2
    exact fun h => absurd (hiff.mp h) (by decide +kernel)
  · have hiff := (hrules.2 [97, 32, 35, 99]).2
    exact hiff.mpr (by decide +kernel)

end Conf
end Chm
