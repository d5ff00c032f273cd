/-
Host and port in one text.

`parseHostPortString` reads a control endpoint: it cuts the zone index, tests for an IPv6 address,
turns ` port ` into a blank and looks for a separator with digits behind it.  The last step is a
regular expression, `^(.+)([:#p(\.)( )])([0-9]+)$`, that can match in one way only (`matchPort`).
-/
import Chm.HostPorts
import Chm.Ipv6Text
import Chm.YamlConf

namespace Chm
namespace NetDb

open Conf (atoi castShort cstr)

/-! ## The source -/

/-- `is_string_number_ex` -/
def isStringNumberEx (str : CStr) (max : Nat) (allowEmpty isDecimal : Bool) : Bool :=
  if str = [] then allowEmpty
  else
    let r := cvtStringToNumberRaw str 0 isDecimal
    r.1 && r.2 ≤ max

/-- The characters at which a zone index ends. -/
def isZoneEnd (c : Nat) : Bool := c = 32 || c = 35 || c = 58 || c = 46 || c = 112

/-- `CheckZoneIndexString`: the text without the zone index. -/
def checkZoneIndexString (str : CStr) : Option CStr :=
  match Pieces.last (· = zoneChar) str with
  | none => none
  | some (befrestr, _, laststr) => some (befrestr ++ laststr.dropWhile (!isZoneEnd ·))

/-- The loop of `CheckStringIPv6Format`: colons, periods and the part that is read. -/
def ipv6Loop (colonCnt periodCnt : Nat) (onepart : CStr) : CStr → Option (Nat × Nat × CStr)
  | [] => some (colonCnt, periodCnt, onepart)
  | c :: str =>
    if periodCnt = 0 then
      if isxdigit c then ipv6Loop colonCnt periodCnt (onepart ++ [c]) str
      else if c = 58 then
        if isStringNumberEx onepart 0xffff true false then
          ipv6Loop (colonCnt + 1) periodCnt [] str
        else none
      else if c = 46 then
        if isStringNumberEx onepart 0xff false true then ipv6Loop colonCnt 1 [] str
        else none
      else none
    else if isdigit c then ipv6Loop colonCnt periodCnt (onepart ++ [c]) str
    else if c = 46 then
      if isStringNumberEx onepart 0xff false true then
        ipv6Loop colonCnt (periodCnt + 1) [] str
      else none
    else none

/-- `CheckStringIPv6Format` -/
def checkStringIPv6Format (str : CStr) : Bool :=
  match ipv6Loop 0 0 [] str with
  | none => false
  | some (colonCnt, periodCnt, onepart) =>
    (onepart = [] || if periodCnt = 0 then isStringNumberEx onepart 0xffff true false
      else isStringNumberEx onepart 0xff false true) &&
    (periodCnt = 0 && 0 < colonCnt && colonCnt < 8 ||
      periodCnt = 3 && 0 < colonCnt && colonCnt < 7)

/-- The loop of `CheckStringIPv4Format`. -/
def ipv4Loop (periodCnt : Nat) (onepart : CStr) : CStr → Option (Nat × CStr)
  | [] => some (periodCnt, onepart)
  | c :: str =>
    if isdigit c then ipv4Loop periodCnt (onepart ++ [c]) str
    else if c = 46 then
      if isStringNumberEx onepart 0xff false true then ipv4Loop (periodCnt + 1) [] str else none
    else none

/-- `CheckStringIPv4Format` -/
def checkStringIPv4Format (str : CStr) : Bool :=
  match ipv4Loop 0 [] str with
  | none => false
  | some (periodCnt, onepart) =>
    onepart ≠ [] && isStringNumberEx onepart 0xff false true && periodCnt = 3

/-- The loop of `CheckStringHostnameFormat`: whether a letter was found. -/
def hostnameLoop (foundAlpha : Bool) : CStr → Option Bool
  | [] => some foundAlpha
  | c :: str =>
    if !(isalpha c || isdigit c) && c ≠ 45 && c ≠ 46 && c ≠ 95 then none
    else hostnameLoop (foundAlpha || isalpha c) str

/-- `CheckStringHostnameFormat` -/
def checkStringHostnameFormat (str : CStr) : Bool := hostnameLoop false str = some true

/-- The second group of the expression: `[:#p(\.)( )]`. -/
def isPortSep (c : Nat) : Bool :=
  c = 58 || c = 35 || c = 112 || c = 40 || c = 92 || c = 46 || c = 41 || c = 32

/-- `regexec` with the expression for a port: the three groups. -/
def matchPort (str : CStr) : Option (CStr × Nat × CStr) :=
  match Pieces.last (!isdigit ·) str with
  | none => none
  | some (host, sep, port) =>
    if host ≠ [] ∧ isPortSep sep = true ∧ port ≠ [] then some (host, sep, port) else none

/-- `" port "` -/
def portKey : CStr := [32, 112, 111, 114, 116, 32]

/-- The first ` port ` becomes a blank. -/
def cutPortKey (trim : CStr → CStr) (strBase : CStr) : CStr :=
  match Pieces.cut portKey strBase with
  | none => strBase
  | some (host, port) => trim (host ++ 32 :: port)

/-- `[` and `]` around a host are cut. -/
def cutBrackets (trim : CStr → CStr) (hostpart : CStr) : CStr :=
  if 2 ≤ hostpart.length ∧ hostpart.head? = some 91 ∧ hostpart.getLast? = some 93 then
    trim ((hostpart.drop 1).take (hostpart.length - 2))
  else hostpart

/-- An IPv4 address or a host name without port. -/
def parseHost (strBase : CStr) (defaultPort : Int) : Option (CStr × Int) :=
  if checkStringIPv4Format strBase then some (strBase, defaultPort)
  else if checkStringHostnameFormat strBase then some (strBase, defaultPort)
  else none

/-- The groups of the expression; `withport` has as many characters as the second group's end
says. -/
def parseMatched (inet : Inet) (trim : CStr → CStr) (strBase : CStr) (defaultPort : Int)
    (host : CStr) (sep : Nat) (port : CStr) : Option (CStr × Int) :=
  let hostpart := trim host
  let withport := trim ((sep :: port).take (host.length + 1))
  let portpart := trim port
  if 58 ∈ hostpart then
    let hostpart := cutBrackets trim hostpart
    match inet.ipv4Mapped hostpart with
    | some stripv4 => some (stripv4, castShort (atoi portpart))
    | none =>
      if checkStringIPv6Format hostpart then some (hostpart, castShort (atoi portpart)) else none
  else if withport.head? ≠ some 58 then parseHost strBase defaultPort
  else if checkStringIPv4Format hostpart then some (hostpart, castShort (atoi portpart))
  else if checkStringHostnameFormat hostpart then some (hostpart, castShort (atoi portpart))
  else none

/-- `ParseHostPortString` when the zone index is cut. -/
def parseBase (inet : Inet) (trim : CStr → CStr) (strBase : CStr) (defaultPort : Int) :
    Option (CStr × Int) :=
  if checkStringIPv6Format strBase then
    some ((inet.ipv4Mapped strBase).getD strBase, defaultPort)
  else
    let strBase := cutPortKey trim strBase
    match matchPort strBase with
    | some (host, sep, port) => parseMatched inet trim strBase defaultPort host sep port
    | none => parseHost strBase defaultPort

/-- The text that is parsed: without zone index and without blanks around it. -/
def baseOf (trim : CStr → CStr) (target : CStr) : CStr :=
  trim ((checkZoneIndexString target).getD target)

/-- `ParseHostPortString` -/
def parseHostPortString (inet : Inet) (trim : CStr → CStr) (target : CStr) (defaultPort : Int) :
    Option (CStr × Int) :=
  if target = [] then none else parseBase inet trim (baseOf trim target) defaultPort

/-! ## What the tests let through -/

variable {inet : Inet} {trim : CStr → CStr} {blank : Nat → Bool} {s host port : CStr} {sep c : Nat}

/-- The expression matches in one way: the digits at the end, a separator and the rest. -/
theorem matchPort_eq_some_iff :
    matchPort s = some (host, sep, port) ↔
      s = host ++ sep :: port ∧ host ≠ [] ∧ isPortSep sep = true ∧ port ≠ [] ∧
        ∀ c ∈ port, isdigit c = true := by
  have hsep : isPortSep sep = true → isdigit sep = false := by
    intro h
    simp only [isPortSep, Bool.or_eq_true, decide_eq_true_eq] at h
    obtain ((((((rfl | rfl) | rfl) | rfl) | rfl) | rfl) | rfl) | rfl := h
    all_goals rfl
  rw [matchPort]
  constructor
  · intro h
    split at h
    · cases h
    · rename_i host' sep' port' hlast
      split at h
      · rename_i hok
        obtain ⟨rfl, hrest⟩ := Prod.mk.inj (Option.some.inj h)
        obtain ⟨rfl, rfl⟩ := Prod.mk.inj hrest
        obtain ⟨hs, -, hdigits⟩ := Pieces.last_eq_some hlast
        refine ⟨hs, hok.1, hok.2.1, hok.2.2, fun c hc => ?_⟩
        simpa using hdigits c hc
      · cases h
  · rintro ⟨rfl, hhost, hportSep, hport, hdigits⟩
    rw [Pieces.last_append (by simp [hsep hportSep]) fun c hc => by simp [hdigits c hc]]
    exact if_pos ⟨hhost, hportSep, hport⟩

theorem ipv6Loop_chars {colonCnt periodCnt : Nat} {onepart : CStr} {r : Nat × Nat × CStr}
    (h : ipv6Loop colonCnt periodCnt onepart s = some r) :
    (∀ c ∈ s, isAddrChar c = true) ∧ (colonCnt < r.1 → 58 ∈ s) := by
  induction s generalizing colonCnt periodCnt onepart with
  | nil =>
    obtain rfl := Option.some.inj h
    exact ⟨fun c hc => (List.not_mem_nil hc).elim, fun hlt => absurd hlt (Nat.lt_irrefl _)⟩
  | cons c s ih =>
    simp only [List.mem_cons, forall_eq_or_imp]
    rw [ipv6Loop] at h
    split at h
    · split at h
      · rename_i hc
        obtain ⟨hchars, hcolon⟩ := ih h
        exact ⟨⟨isAddrChar_of_isxdigit hc, hchars⟩, fun hlt => .inr (hcolon hlt)⟩
      · split at h
        · rename_i hc
          split at h
          · exact ⟨⟨by rw [hc]; rfl, (ih h).1⟩, fun _ => .inl hc.symm⟩
          · cases h
        · split at h
          · rename_i hc
            split at h
            · obtain ⟨hchars, hcolon⟩ := ih h
              exact ⟨⟨by rw [hc]; rfl, hchars⟩, fun hlt => .inr (hcolon hlt)⟩
            · cases h
          · cases h
    · split at h
      · rename_i hc
        obtain ⟨hchars, hcolon⟩ := ih h
        exact ⟨⟨isAddrChar_of_isdigit hc, hchars⟩, fun hlt => .inr (hcolon hlt)⟩
      · split at h
        · rename_i hc
          split at h
          · obtain ⟨hchars, hcolon⟩ := ih h
            exact ⟨⟨by rw [hc]; rfl, hchars⟩, fun hlt => .inr (hcolon hlt)⟩
          · cases h
        · cases h

/-- What passes as IPv6 consists of hex digits, colons and dots, with a colon. -/
theorem checkStringIPv6Format_chars (h : checkStringIPv6Format s = true) :
    58 ∈ s ∧ ∀ c ∈ s, isAddrChar c = true := by
  rw [checkStringIPv6Format] at h
  split at h
  · cases h
  · rename_i colonCnt periodCnt onepart hloop
    obtain ⟨hchars, hcolon⟩ := ipv6Loop_chars hloop
    refine ⟨hcolon ?_, hchars⟩
    simp only [Bool.and_eq_true, Bool.or_eq_true, decide_eq_true_eq] at h
    omega

theorem checkStringIPv6Format_eq_false (hc : c ∈ s) (hno : isAddrChar c = false) :
    checkStringIPv6Format s = false := by
  by_contra h
  have hall := (checkStringIPv6Format_chars (Bool.eq_true_of_not_eq_false h)).2 c hc
  exact Bool.false_ne_true (hno.symm.trans hall)

theorem ipv4Loop_chars {periodCnt : Nat} {onepart : CStr} {r : Nat × CStr}
    (h : ipv4Loop periodCnt onepart s = some r) : ∀ c ∈ s, isdigit c = true ∨ c = 46 := by
  induction s generalizing periodCnt onepart with
  | nil => exact fun c hc => (List.not_mem_nil hc).elim
  | cons c s ih =>
    rw [List.forall_mem_cons]
    rw [ipv4Loop] at h
    split at h
    · rename_i hc
      exact ⟨.inl hc, ih h⟩
    · split at h
      · rename_i hc
        split at h
        · exact ⟨.inr hc, ih h⟩
        · cases h
      · cases h

theorem checkStringIPv4Format_chars (h : checkStringIPv4Format s = true) :
    ∀ c ∈ s, isdigit c = true ∨ c = 46 := by
  rw [checkStringIPv4Format] at h
  split at h
  · cases h
  · rename_i hloop
    exact ipv4Loop_chars hloop

/-- A character of a host name. -/
def isHostChar (c : Nat) : Bool := isalpha c || isdigit c || c = 45 || c = 46 || c = 95

theorem hostnameLoop_eq {found : Bool} :
    hostnameLoop found s = some true ↔
      (∀ c ∈ s, isHostChar c = true) ∧ (found = true ∨ ∃ c ∈ s, isalpha c = true) := by
  induction s generalizing found with
  | nil => simp [hostnameLoop]
  | cons c s ih =>
    have hchar : (!(isalpha c || isdigit c) && decide (c ≠ 45) && decide (c ≠ 46) &&
        decide (c ≠ 95)) = !isHostChar c := by
      simp [isHostChar, Bool.not_or, Bool.and_assoc]
    rw [hostnameLoop, hchar]
    cases hc : isHostChar c with
    | false => simp [hc]
    | true => simp [ih, hc, or_assoc]

/-- A host name has the characters of one, and a letter. -/
theorem checkStringHostnameFormat_iff :
    checkStringHostnameFormat s = true ↔
      (∀ c ∈ s, isHostChar c = true) ∧ ∃ c ∈ s, isalpha c = true := by
  rw [checkStringHostnameFormat, decide_eq_true_iff, hostnameLoop_eq]
  simp

end NetDb
end Chm
