/-
How each notation of a control endpoint is read.

`HostForm.read_iff` takes the notations one by one, `parseBase_eq_none_iff` the texts that are
refused, and `readRight_iff` puts them together.
-/
import Chm.HostForms

namespace Chm
namespace NetDb

open Conf (atoi castShort isspace Ended)

variable {trim : CStr → CStr} {blank : Nat → Bool} {s a b : CStr} {c : Nat} {defaultPort : Int}

/-! ## A host without an IPv6 address -/

theorem ipv4Loop_digits (hdigits : ∀ c ∈ a, isdigit c = true) (n : Nat) (onepart : CStr) :
    ipv4Loop n onepart (a ++ s) = ipv4Loop n (onepart ++ a) s := by
  induction a generalizing onepart with
  | nil => rw [List.nil_append, List.append_nil]
  | cons c a ih =>
    obtain ⟨hc, ha⟩ := List.forall_mem_cons.mp hdigits
    rw [List.cons_append, ipv4Loop, if_pos hc, ih ha, List.append_assoc]
    rfl

theorem ipv4Loop_part (hne : a ≠ []) (hdigits : ∀ c ∈ a, isdigit c = true)
    (hvalue : decimalValue a ≤ 255) (n : Nat) :
    ipv4Loop n [] (a ++ 46 :: s) = ipv4Loop (n + 1) [] s := by
  rw [ipv4Loop_digits hdigits, ipv4Loop, if_neg (by decide), if_pos rfl, List.nil_append,
    if_pos (isStringNumberEx_decimal hne hdigits hvalue (by decide))]

theorem checkStringIPv4Format_of_isIpv4 (h : IsIpv4 s) : checkStringIPv4Format s = true := by
  obtain ⟨hlength, hparts⟩ := h
  have hs : List.intercalate [46] (s.splitOn 46) = s := List.intercalate_splitOn 46
  generalize s.splitOn 46 = parts at hlength hparts hs
  obtain ⟨w, x, y, z, rfl⟩ : ∃ w x y z, parts = [w, x, y, z] := by
    match parts, hlength with
    | [w, x, y, z], _ => exact ⟨w, x, y, z, rfl⟩
  obtain ⟨hw, hx, hy, hz⟩ : _ ∧ _ ∧ _ ∧ _ := by simpa using hparts
  have htext : s = w ++ 46 :: (x ++ 46 :: (y ++ 46 :: (z ++ []))) := by
    rw [← hs]
    simp
  have hloop : ipv4Loop 0 [] s = some (3, z) := by
    rw [htext, ipv4Loop_part hw.1 hw.2.1 hw.2.2, ipv4Loop_part hx.1 hx.2.1 hx.2.2,
      ipv4Loop_part hy.1 hy.2.1 hy.2.2, ipv4Loop_digits hz.2.1]
    rfl
  rw [checkStringIPv4Format, hloop]
  simp [hz.1, isStringNumberEx_decimal hz.1 hz.2.1 hz.2.2]

namespace PlainHost

variable {h : PlainHost}

theorem passes (h : PlainHost) :
    checkStringIPv4Format h.text = true ∨ checkStringHostnameFormat h.text = true :=
  h.valid.imp checkStringIPv4Format_of_isIpv4 checkStringHostnameFormat_iff.mpr

theorem parseHost_eq (h : PlainHost) :
    parseHost h.text defaultPort = some (h.text, defaultPort) := by
  rw [parseHost]
  obtain hpass | hpass := h.passes
  · rw [if_pos hpass]
  · rw [if_pos hpass, ite_self]

theorem not_ipv6 (h : PlainHost) : checkStringIPv6Format h.text = false := by
  by_contra hcheck
  have hcolon := (checkStringIPv6Format_chars (Bool.eq_true_of_not_eq_false hcheck)).1
  exact h.notMem rfl hcolon

theorem baseOf_eq (ht : TrimsSpaces trim blank) (h : PlainHost) :
    baseOf trim h.text = h.text := by
  rw [baseOf, checkZoneIndexString_none (h.notMem rfl), h.trim_eq ht]

/-- Whatever the expression finds in a host, the host is read without port. -/
theorem parse_eq (ht : TrimsSpaces trim blank) (h : PlainHost) :
    parseHostPortString inetOfLibc trim h.text defaultPort = some (h.text, defaultPort) := by
  have hcut : cutPortKey trim h.text = h.text :=
    cutPortKey_eq_self (c := 32) (by decide) (h.notMem rfl)
  have hcolon : 58 ∉ h.text := h.notMem rfl
  rw [parseHostPortString, if_neg h.ne_nil, h.baseOf_eq ht, parseBase, h.not_ipv6, hcut]
  dsimp only
  rw [if_neg Bool.false_ne_true]
  cases hmatch : matchPort h.text with
  | none => exact h.parseHost_eq
  | some r =>
    obtain ⟨host, sep, port⟩ := r
    have htext := (matchPort_eq_some_iff.mp hmatch).1
    have hhost : 58 ∉ trim host := fun hmem =>
      hcolon (htext ▸ List.mem_append_left _ (mem_of_mem_trim ht hmem))
    have hport : (trim ((sep :: port).take (host.length + 1))).head? ≠ some 58 := fun hhead => by
      have hmem := List.mem_of_mem_take (mem_of_mem_trim ht (List.mem_of_mem_head? hhead))
      exact hcolon (htext ▸ List.mem_append_right _ hmem)
    simp only [parseMatched, if_neg hhost, if_pos hport]
    exact h.parseHost_eq

end PlainHost

namespace PortText

variable {p : PortText}

theorem trim_eq (ht : TrimsSpaces trim blank) (p : PortText) : trim p.text = p.text :=
  trim_eq_self ht fun c hc => by
    have hdigit := isdigit_iff.mp (p.digits c hc)
    simp only [isspace, Bool.or_eq_false_iff, Bool.and_eq_false_iff, decide_eq_false_iff_not]
    omega

theorem notMem (p : PortText) (hc : isdigit c = false) : c ∉ p.text := fun hmem =>
  Bool.false_ne_true (hc.symm.trans (p.digits c hmem))

end PortText

theorem notMem_hostPort (h : PlainHost) (p : PortText) (hhost : isHostChar c = false)
    (hdigit : isdigit c = false) (hc : c ≠ 58) : c ∉ h.text ++ 58 :: p.text := by
  intro hmem
  obtain hmem | hmem := List.mem_append.mp hmem
  · exact h.notMem hhost hmem
  · obtain rfl | hmem := List.mem_cons.mp hmem
    · exact hc rfl
    · exact p.notMem hdigit hmem

theorem baseOf_hostPort (ht : TrimsSpaces trim blank) (h : PlainHost) (p : PortText) :
    baseOf trim (h.text ++ 58 :: p.text) = h.text ++ 58 :: p.text := by
  have hspace : ∀ c ∈ h.text ++ 58 :: p.text, isspace c = false := by
    intro c hmem
    obtain hmem | hmem := List.mem_append.mp hmem
    · exact not_isspace_of_isHostChar (h.isHostChar c hmem)
    · obtain rfl | hmem := List.mem_cons.mp hmem
      · rfl
      · exact not_isspace_of_isAddrChar (isAddrChar_of_isdigit (p.digits c hmem))
  rw [baseOf, checkZoneIndexString_none (notMem_hostPort h p rfl rfl (by decide)),
    trim_eq_self ht hspace]

/-- A host with a port is read unless the whole looks like an IPv6 address. -/
theorem parse_hostPort (ht : TrimsSpaces trim blank) (h : PlainHost) (p : PortText) :
    parseHostPortString inetOfLibc trim (h.text ++ 58 :: p.text) defaultPort =
      if checkStringIPv6Format (h.text ++ 58 :: p.text) then
        some ((inetOfLibc.ipv4Mapped (h.text ++ 58 :: p.text)).getD (h.text ++ 58 :: p.text),
          defaultPort)
      else some (h.text, castShort (atoi p.text)) := by
  have hne : h.text ++ 58 :: p.text ≠ [] := by simp
  have hcut : cutPortKey trim (h.text ++ 58 :: p.text) = h.text ++ 58 :: p.text :=
    cutPortKey_eq_self (c := 32) (by decide) (notMem_hostPort h p rfl rfl (by decide))
  have hmatch : matchPort (h.text ++ 58 :: p.text) = some (h.text, 58, p.text) :=
    matchPort_eq_some_iff.mpr ⟨rfl, h.ne_nil, rfl, p.ne_nil, p.digits⟩
  have hhead : (trim ((58 :: p.text).take (h.text.length + 1))).head? = some 58 :=
    head?_trim ht rfl
  rw [parseHostPortString, if_neg hne, baseOf_hostPort ht, parseBase, hcut]
  dsimp only
  rw [hmatch]
  simp only [parseMatched, h.trim_eq ht, p.trim_eq ht, if_neg (h.notMem rfl : 58 ∉ h.text), hhead,
    ne_eq, not_true_eq_false, if_false]
  obtain hpass | hpass := h.passes
  · rw [if_pos hpass]
  · rw [if_pos hpass, ite_self]

/-! ## IPv6 addresses -/

/-- Without port the address is read when it looks like one; else the default port does not
matter. -/
theorem parse_ipv6 (ht : TrimsSpaces trim blank) (h : Ipv6Host) (z : Option ZoneId) :
    (∀ defaultPort, parseHostPortString inetOfLibc trim (h.text ++ zoneText z) defaultPort =
      some (h.host, defaultPort)) ↔ h.Prefixed ∧ checkStringIPv6Format h.text = true := by
  have hne : h.text ++ zoneText z ≠ [] := by simp [h.ne_nil]
  have hbase : baseOf trim (h.text ++ zoneText z) = h.text := by
    have hzone := checkZoneIndexString_zone (z := z) (h.notMem rfl)
      (List.not_mem_nil : zoneChar ∉ []) (fun c hc => by cases hc)
    rw [List.append_nil, List.append_nil] at hzone
    rw [baseOf, hzone, trim_eq_self ht h.not_isspace]
  have hcut : cutPortKey trim h.text = h.text :=
    cutPortKey_eq_self (c := 32) (by decide) (h.notMem rfl)
  cases hcheck : checkStringIPv6Format h.text with
  | true =>
    simp only [parseHostPortString, if_neg hne, hbase, parseBase, hcheck, if_true,
      Option.some.injEq, Prod.mk.injEq, and_true, h.reduced_iff, forall_const]
  | false =>
    simp only [Bool.false_eq_true, and_false, iff_false]
    intro hall
    have hhost : ∀ port, parseHost h.text port = none := by
      intro port
      have hv4 : checkStringIPv4Format h.text ≠ true := fun hpass => by
        have hchar := checkStringIPv4Format_chars hpass 58 h.colon
        exact absurd hchar (by decide)
      have hname : checkStringHostnameFormat h.text ≠ true := fun hpass => by
        have hchar := (checkStringHostnameFormat_iff.mp hpass).1 58 h.colon
        exact absurd hchar (by decide)
      rw [parseHost, if_neg hv4, if_neg hname]
    have hsame : ∀ port port', parseBase inetOfLibc trim h.text port =
        parseBase inetOfLibc trim h.text port' := by
      intro port port'
      simp only [parseBase, hcheck, hcut, parseMatched, hhost, if_false, Bool.false_eq_true]
    have hzero := hall 0
    have hone := hall 1
    rw [parseHostPortString, if_neg hne, hbase] at hzero hone
    rw [hsame 0 1, hone] at hzero
    simp at hzero

/-- An address behind which the expression finds a port. -/
theorem parseMatched_address (ht : TrimsSpaces trim blank) (h : Ipv6Host) (p : PortText)
    {host : CStr} {sep : Nat} (hcolon : 58 ∈ trim host)
    (hcut : cutBrackets trim (trim host) = h.text) :
    parseMatched inetOfLibc trim s defaultPort host sep p.text = some (h.host, (p.value : Int)) ↔
      h.ReadWithPort p := by
  have hne := h.inetNtoa_ne
  simp only [parseMatched, if_pos hcolon, hcut, p.trim_eq ht, h.ipv4Mapped_eq]
  rw [Ipv6Host.ReadWithPort, Ipv6Host.Prefixed, Ipv6Host.host]
  cases mappedPrefix.isPrefixOf h.text <;> cases h.isMapped <;>
    cases checkStringIPv6Format h.text <;>
    simp [hne, hne.symm, PortText.castShort_eq_iff]

theorem cutBrackets_eq_self (h : Ipv6Host) : cutBrackets trim h.text = h.text := by
  refine if_neg fun hbrackets => ?_
  exact h.notMem rfl (List.mem_of_mem_head? hbrackets.2.1)

/-- The separator that is left of ` port `. -/
def PortSep.char : PortSep → Nat
  | .letter => 112
  | .hash => 35
  | .space => 32
  | .word => 32

namespace PortSep

variable {sep : PortSep}

theorem isAddrChar_char : isAddrChar sep.char = false := by
  cases sep <;> rfl

theorem isPortSep_char : isPortSep sep.char = true := by
  cases sep <;> rfl

theorem char_mem : sep.char ∈ sep.text := by
  cases sep <;> decide

theorem zoneChar_notMem : zoneChar ∉ sep.text := by
  cases sep <;> decide

theorem head_isZoneEnd (rest : CStr) : ∀ c ∈ (sep.text ++ rest).head?, isZoneEnd c = true := by
  intro c hc
  cases sep <;> · obtain rfl := Option.some.inj hc; rfl

end PortSep

/-- An address before and digits behind are no blanks. -/
theorem trim_address (ht : TrimsSpaces trim blank) (h : Ipv6Host) (p : PortText) (mid : CStr) :
    trim (h.text ++ (mid ++ p.text)) = h.text ++ (mid ++ p.text) := by
  have hdigit : ∀ c ∈ p.text, isspace c = false := fun c hc =>
    not_isspace_of_isAddrChar (isAddrChar_of_isdigit (p.digits c hc))
  refine Ended.trim_eq ⟨fun c hc => ?_, fun c hc => ?_⟩ ht
  · rw [List.head?_append_of_ne_nil _ h.ne_nil] at hc
    exact h.not_isspace c (List.mem_of_mem_head? hc)
  · rw [List.getLast?_append_of_ne_nil _ (by simp [p.ne_nil]),
      List.getLast?_append_of_ne_nil _ p.ne_nil] at hc
    exact hdigit c (List.mem_of_mem_getLast? hc)

theorem cutPortKey_address (ht : TrimsSpaces trim blank) (h : Ipv6Host) (sep : PortSep)
    (p : PortText) :
    cutPortKey trim (h.text ++ (sep.text ++ p.text)) = h.text ++ sep.char :: p.text := by
  have hnot : ∀ {c d : Nat}, isAddrChar c = false → c ≠ d →
      c ∉ h.text ++ ([d] ++ p.text) := by
    intro c d hc hcd hmem
    obtain hmem | hmem := List.mem_append.mp hmem
    · exact h.notMem hc hmem
    · obtain rfl | hmem := List.mem_cons.mp hmem
      · exact hcd rfl
      · have haddr := isAddrChar_of_isdigit (p.digits c hmem)
        exact Bool.false_ne_true (hc.symm.trans haddr)
  cases sep with
  | letter => exact cutPortKey_eq_self (c := 32) (by decide) (hnot rfl (by decide))
  | hash => exact cutPortKey_eq_self (c := 32) (by decide) (hnot rfl (by decide))
  | space => exact cutPortKey_eq_self (c := 112) (by decide) (hnot rfl (by decide))
  | word =>
    have hcut : Pieces.cut portKey (h.text ++ (portKey ++ p.text)) = some (h.text, p.text) :=
      Pieces.cut_append (h.notMem rfl)
    rw [cutPortKey, PortSep.text, hcut]
    exact trim_address ht h p [32]

theorem parse_ipv6Port (ht : TrimsSpaces trim blank) (h : Ipv6Host) (z : Option ZoneId)
    (sep : PortSep) (p : PortText) :
    parseHostPortString inetOfLibc trim (HostForm.ipv6Port h z sep p).text defaultPort =
      some (h.host, (p.value : Int)) ↔ h.ReadWithPort p := by
  have hzoneRest : zoneChar ∉ sep.text ++ p.text := fun hmem => by
    obtain hmem | hmem := List.mem_append.mp hmem
    · exact PortSep.zoneChar_notMem hmem
    · exact p.notMem rfl hmem
  have hbase : baseOf trim (HostForm.ipv6Port h z sep p).text =
      h.text ++ (sep.text ++ p.text) := by
    rw [baseOf, HostForm.text,
      checkZoneIndexString_zone (h.notMem rfl) hzoneRest (PortSep.head_isZoneEnd _),
      trim_address ht]
  have hne : (HostForm.ipv6Port h z sep p).text ≠ [] := by simp [HostForm.text, h.ne_nil]
  have hcheck : checkStringIPv6Format (h.text ++ (sep.text ++ p.text)) = false :=
    checkStringIPv6Format_eq_false
      (List.mem_append_right _ (List.mem_append_left _ PortSep.char_mem)) PortSep.isAddrChar_char
  have hmatch : matchPort (h.text ++ sep.char :: p.text) = some (h.text, sep.char, p.text) :=
    matchPort_eq_some_iff.mpr ⟨rfl, h.ne_nil, PortSep.isPortSep_char, p.ne_nil, p.digits⟩
  have htrim : trim h.text = h.text := trim_eq_self ht h.not_isspace
  rw [parseHostPortString, if_neg hne, hbase, parseBase, hcheck, cutPortKey_address ht]
  dsimp only
  rw [if_neg Bool.false_ne_true, hmatch]
  exact parseMatched_address ht h p (by rw [htrim]; exact h.colon)
    (by rw [htrim, cutBrackets_eq_self])

/-! ## Addresses in brackets -/

theorem not_isspace_bracketed (h : Ipv6Host) (p : PortText) {mid : CStr}
    (hmid : ∀ c ∈ mid, isspace c = false) :
    ∀ c ∈ 91 :: (h.text ++ (mid ++ p.text)), isspace c = false := by
  intro c hc
  obtain rfl | hc := List.mem_cons.mp hc
  · rfl
  · obtain hc | hc := List.mem_append.mp hc
    · exact h.not_isspace c hc
    · obtain hc | hc := List.mem_append.mp hc
      · exact hmid c hc
      · exact not_isspace_of_isAddrChar (isAddrChar_of_isdigit (p.digits c hc))

/-- An opening bracket leads past the first test and the search for ` port `. -/
theorem parseBase_bracket {rest host : CStr} {sep : Nat} {port : CStr} (hrest : 32 ∉ rest)
    (hmatch : matchPort (91 :: rest) = some (host, sep, port)) :
    parseBase inetOfLibc trim (91 :: rest) defaultPort =
      parseMatched inetOfLibc trim (91 :: rest) defaultPort host sep port := by
  have hcheck : checkStringIPv6Format (91 :: rest) = false :=
    checkStringIPv6Format_eq_false List.mem_cons_self rfl
  have hcut : cutPortKey trim (91 :: rest) = 91 :: rest := by
    refine cutPortKey_eq_self (c := 32) (by decide) fun hmem => ?_
    obtain h | h := List.mem_cons.mp hmem
    · exact absurd h (by decide)
    · exact hrest h
  rw [parseBase, hcheck, hcut]
  dsimp only
  rw [if_neg Bool.false_ne_true, hmatch]

theorem space_notMem {l : CStr} (h : ∀ c ∈ l, isspace c = false) : 32 ∉ l := fun hmem =>
  absurd (h 32 hmem) (by decide)

theorem parse_bracketed (ht : TrimsSpaces trim blank) (h : Ipv6Host) (p : PortText) :
    parseHostPortString inetOfLibc trim (HostForm.bracketed h none p).text defaultPort =
      some (h.host, (p.value : Int)) ↔ h.ReadWithPort p := by
  have htext : (HostForm.bracketed h none p).text =
      91 :: (h.text ++ ([93, 58] ++ p.text)) := by
    simp [HostForm.text, zoneText]
  have hspace : ∀ c ∈ 91 :: (h.text ++ ([93, 58] ++ p.text)), isspace c = false :=
    not_isspace_bracketed h p (by decide)
  have hzone : zoneChar ∉ 91 :: (h.text ++ ([93, 58] ++ p.text)) := by
    intro hmem
    obtain hmem | hmem := List.mem_cons.mp hmem
    · exact absurd hmem (by decide)
    · obtain hmem | hmem := List.mem_append.mp hmem
      · exact h.notMem rfl hmem
      · obtain hmem | hmem := List.mem_append.mp hmem
        · exact absurd hmem (by decide)
        · exact p.notMem rfl hmem
  have hmatch : matchPort (91 :: (h.text ++ ([93, 58] ++ p.text))) =
      some (91 :: (h.text ++ [93]), 58, p.text) :=
    matchPort_eq_some_iff.mpr ⟨by simp, by simp, rfl, p.ne_nil, p.digits⟩
  have htrim : trim (91 :: (h.text ++ [93])) = 91 :: (h.text ++ [93]) := by
    refine trim_eq_self ht fun c hc => hspace c ?_
    simp only [List.mem_cons, List.mem_append] at hc ⊢
    tauto
  have hcut : cutBrackets trim (91 :: (h.text ++ [93])) = h.text := by
    have hbrackets : 2 ≤ (91 :: (h.text ++ [93])).length ∧
        (91 :: (h.text ++ [93])).head? = some 91 ∧
          (91 :: (h.text ++ [93])).getLast? = some 93 := by
      refine ⟨by simp, rfl, ?_⟩
      rw [← List.cons_append, List.getLast?_concat]
    rw [cutBrackets, if_pos hbrackets]
    have hinner : ((91 :: (h.text ++ [93])).drop 1).take
        ((91 :: (h.text ++ [93])).length - 2) = h.text := by simp
    rw [hinner, trim_eq_self ht h.not_isspace]
  rw [htext, parseHostPortString, if_neg (List.cons_ne_nil _ _), baseOf,
    checkZoneIndexString_none hzone, trim_eq_self ht hspace,
    parseBase_bracket (space_notMem fun c hc => hspace c (List.mem_cons_of_mem _ hc)) hmatch]
  refine parseMatched_address ht h p ?_ (by rw [htrim, hcut])
  rw [htrim]
  exact List.mem_cons_of_mem _ (List.mem_append_left _ h.colon)

/-- The closing bracket goes with the zone index. -/
theorem parse_bracketed_zone (ht : TrimsSpaces trim blank) (h : Ipv6Host) (z : ZoneId)
    (p : PortText) :
    parseHostPortString inetOfLibc trim (HostForm.bracketed h (some z) p).text defaultPort =
      none := by
  have hplain : ∀ c ∈ z.text ++ [93], isZoneEnd c = false ∧ c ≠ zoneChar := by
    intro c hc
    obtain hc | hc := List.mem_append.mp hc
    · exact z.plain c hc
    · obtain rfl := List.mem_singleton.mp hc
      decide
  have htext : (HostForm.bracketed h (some z) p).text =
      91 :: h.text ++ zoneText (some ⟨z.text ++ [93], hplain⟩) ++ 58 :: p.text := by
    simp [HostForm.text, zoneText]
  have hspace : ∀ c ∈ 91 :: (h.text ++ ([58] ++ p.text)), isspace c = false :=
    not_isspace_bracketed h p (by decide)
  have hzone : zoneChar ∉ 91 :: h.text := by
    intro hmem
    obtain hmem | hmem := List.mem_cons.mp hmem
    · exact absurd hmem (by decide)
    · exact h.notMem rfl hmem
  have hzone' : zoneChar ∉ 58 :: p.text := by
    intro hmem
    obtain hmem | hmem := List.mem_cons.mp hmem
    · exact absurd hmem (by decide)
    · exact p.notMem rfl hmem
  have hmatch : matchPort (91 :: (h.text ++ ([58] ++ p.text))) =
      some (91 :: h.text, 58, p.text) :=
    matchPort_eq_some_iff.mpr ⟨rfl, by simp, rfl, p.ne_nil, p.digits⟩
  have htrim : trim (91 :: h.text) = 91 :: h.text := by
    refine trim_eq_self ht fun c hc => hspace c ?_
    simp only [List.mem_cons, List.mem_append] at hc ⊢
    tauto
  have hcut : cutBrackets trim (91 :: h.text) = 91 :: h.text := by
    refine if_neg fun hbrackets => ?_
    have hlast := List.mem_of_mem_getLast? hbrackets.2.2
    obtain hlast | hlast := List.mem_cons.mp hlast
    · exact absurd hlast (by decide)
    · exact h.notMem rfl hlast
  have hmapped : inetOfLibc.ipv4Mapped (91 :: h.text) = none := rfl
  have hcheck : checkStringIPv6Format (91 :: h.text) = false :=
    checkStringIPv6Format_eq_false List.mem_cons_self rfl
  have hbase : baseOf trim (HostForm.bracketed h (some z) p).text =
      91 :: (h.text ++ ([58] ++ p.text)) := by
    rw [baseOf, htext, checkZoneIndexString_zone hzone hzone' fun c hc => by
      obtain rfl := Option.some.inj hc
      rfl]
    exact trim_eq_self ht hspace
  have hcolon : 58 ∈ 91 :: h.text := List.mem_cons_of_mem _ h.colon
  have hne : (HostForm.bracketed h (some z) p).text ≠ [] := List.cons_ne_nil _ _
  rw [parseHostPortString, if_neg hne, hbase,
    parseBase_bracket (space_notMem fun c hc => hspace c (List.mem_cons_of_mem _ hc)) hmatch]
  simp only [parseMatched, htrim, if_pos hcolon, hcut, hmapped, hcheck, Bool.false_eq_true,
    if_false]

/-! ## Every text -/

/-- Each notation is read right, whatever the default port, just when `Read` says so. -/
theorem HostForm.read_iff (ht : TrimsSpaces trim blank) (f : HostForm) :
    (∀ defaultPort, parseHostPortString inetOfLibc trim f.text defaultPort =
      some (f.endpoint defaultPort)) ↔ f.Read := by
  cases f with
  | host h => exact ⟨fun _ => trivial, fun _ port => h.parse_eq ht⟩
  | hostPort h p =>
    constructor
    · intro hall
      have hzero := hall 0
      rw [HostForm.text, parse_hostPort ht, HostForm.endpoint] at hzero
      split at hzero
      · -- the default port is read, but port 0 is not written
        have hport := (Prod.mk.inj (Option.some.inj hzero)).2
        have hlow := p.low
        exact absurd hport (by simp only [PortText.value]; omega)
      · rename_i hcheck
        have hport := (Prod.mk.inj (Option.some.inj hzero)).2
        exact ⟨Bool.eq_false_iff.mpr hcheck, PortText.castShort_eq_iff.mp hport⟩
    · rintro ⟨hcheck, hshort⟩ port
      rw [HostForm.text] at hcheck
      rw [HostForm.text, parse_hostPort ht, hcheck, PortText.castShort_eq_iff.mpr hshort]
      rfl
  | ipv6 h z => exact parse_ipv6 ht h z
  | bracketed h z p =>
    cases z with
    | none =>
      exact ⟨fun hall => (parse_bracketed ht h p).mp (hall 0),
        fun hread port => (parse_bracketed ht h p).mpr hread⟩
    | some z =>
      refine ⟨fun hall => ?_, fun hread => hread.elim⟩
      have hzero := hall 0
      rw [parse_bracketed_zone ht] at hzero
      cases hzero
  | ipv6Port h z sep p =>
    exact ⟨fun hall => (parse_ipv6Port ht h z sep p).mp (hall 0),
      fun hread port => (parse_ipv6Port ht h z sep p).mpr hread⟩

theorem parseHost_eq_none_iff : parseHost s defaultPort = none ↔
    ¬ (checkStringIPv4Format s = true ∨ checkStringHostnameFormat s = true) := by
  rw [parseHost]
  cases checkStringIPv4Format s <;> cases checkStringHostnameFormat s <;> simp

/-- A text with a colon passes for no host. -/
theorem not_host_of_colon (h : 58 ∈ s) :
    ¬ (checkStringIPv4Format s = true ∨ checkStringHostnameFormat s = true) := by
  rintro (hpass | hpass)
  · exact absurd (checkStringIPv4Format_chars hpass 58 h) (by decide)
  · exact absurd ((checkStringHostnameFormat_iff.mp hpass).1 58 h) (by decide)

/-- With no colon in the host part, `withport` begins with a colon just when the separator is
one. -/
theorem head?_withport (ht : TrimsSpaces trim blank) {sep n : Nat}
    (hport : ∀ c ∈ b, isdigit c = true) :
    (trim ((sep :: b).take (n + 1))).head? = some 58 ↔ sep = 58 := by
  constructor
  · intro hhead
    have hmem := List.mem_of_mem_take (mem_of_mem_trim ht (List.mem_of_mem_head? hhead))
    obtain hmem | hmem := List.mem_cons.mp hmem
    · exact hmem.symm
    · exact absurd (hport 58 hmem) (by decide)
  · rintro rfl
    exact head?_trim ht rfl

/-- What is refused is not in the list of what is read. -/
theorem parseBase_eq_none_iff (ht : TrimsSpaces trim blank) :
    parseBase inetOfLibc trim (baseOf trim s) defaultPort = none ↔ ¬ Loose trim s := by
  rw [parseBase]
  cases hcheck : checkStringIPv6Format (baseOf trim s) with
  | true => exact ⟨fun h => (by cases h), fun h => absurd (.address hcheck) h⟩
  | false =>
    rw [if_neg Bool.false_ne_true]
    dsimp only
    cases hmatch : matchPort (cutPortKey trim (baseOf trim s)) with
    | none =>
      simp only [parseHost_eq_none_iff]
      refine not_congr ⟨.host, fun hloose => ?_⟩
      cases hloose with
      | address h => rw [hcheck] at h; cases h
      | host h => exact h
      | addressPort host sep port h => rw [hmatch] at h; cases h
      | hostPort host port h => rw [hmatch] at h; cases h
    | some r =>
      obtain ⟨host, sep, port⟩ := r
      obtain ⟨htext, -, -, -, hdigits⟩ := matchPort_eq_some_iff.mp hmatch
      by_cases hcolon : 58 ∈ trim host
      · have hnot := not_host_of_colon
          (htext ▸ List.mem_append_left (sep :: port) (mem_of_mem_trim ht hcolon))
        have hiff : Loose trim s ↔
            inetOfLibc.ipv4Mapped (cutBrackets trim (trim host)) ≠ none ∨
              checkStringIPv6Format (cutBrackets trim (trim host)) = true := by
          refine ⟨fun hloose => ?_, .addressPort host sep port hmatch hcolon⟩
          cases hloose with
          | address h => rw [hcheck] at h; cases h
          | host h => exact absurd h hnot
          | addressPort host' sep' port' h hcolon' hpass =>
            obtain ⟨rfl, -⟩ := Prod.mk.inj (Option.some.inj (hmatch.symm.trans h))
            exact hpass
          | hostPort host' port' h hcolon' =>
            obtain ⟨rfl, -⟩ := Prod.mk.inj (Option.some.inj (hmatch.symm.trans h))
            exact absurd hcolon hcolon'
        rw [hiff]
        simp only [parseMatched, if_pos hcolon]
        cases inetOfLibc.ipv4Mapped (cutBrackets trim (trim host)) with
        | some stripv4 => simp
        | none => cases checkStringIPv6Format (cutBrackets trim (trim host)) <;> simp
      · by_cases hsep : sep = 58
        · subst hsep
          have hnot := not_host_of_colon
            (htext ▸ List.mem_append_right host (List.mem_cons_self (l := port)))
          have hiff : Loose trim s ↔ checkStringIPv4Format (trim host) = true ∨
              checkStringHostnameFormat (trim host) = true := by
            refine ⟨fun hloose => ?_, .hostPort host port hmatch hcolon⟩
            cases hloose with
            | address h => rw [hcheck] at h; cases h
            | host h => exact absurd h hnot
            | addressPort host' sep' port' h hcolon' =>
              obtain ⟨rfl, -⟩ := Prod.mk.inj (Option.some.inj (hmatch.symm.trans h))
              exact absurd hcolon' hcolon
            | hostPort host' port' h hcolon' hpass =>
              obtain ⟨rfl, -⟩ := Prod.mk.inj (Option.some.inj (hmatch.symm.trans h))
              exact hpass
          have hhead := (head?_withport ht (n := host.length) hdigits).mpr rfl
          rw [hiff]
          simp only [parseMatched, if_neg hcolon, hhead, ne_eq, not_true_eq_false, if_false]
          cases checkStringIPv4Format (trim host) <;>
            cases checkStringHostnameFormat (trim host) <;> simp
        · have hhead : (trim ((sep :: port).take (host.length + 1))).head? ≠ some 58 :=
            fun h => hsep ((head?_withport ht hdigits).mp h)
          simp only [parseMatched, if_neg hcolon, if_pos hhead, parseHost_eq_none_iff]
          refine not_congr ⟨.host, fun hloose => ?_⟩
          cases hloose with
          | address h => rw [hcheck] at h; cases h
          | host h => exact h
          | addressPort host' sep' port' h hcolon' =>
            obtain ⟨rfl, -⟩ := Prod.mk.inj (Option.some.inj (hmatch.symm.trans h))
            exact absurd hcolon' hcolon
          | hostPort host' port' h hcolon' =>
            have hrest := (Prod.mk.inj (Option.some.inj (hmatch.symm.trans h))).2
            exact absurd (Prod.mk.inj hrest).1 hsep

theorem not_loose_nil (ht : TrimsSpaces trim blank) : ¬ Loose trim [] := by
  have hbase : baseOf trim [] = [] := by
    rw [baseOf, checkZoneIndexString_none List.not_mem_nil, ht.both]
    rfl
  have hnone : parseBase inetOfLibc trim (baseOf trim []) 0 = none := by
    rw [hbase]
    rfl
  exact (parseBase_eq_none_iff ht).mp hnone

/-- A text is read right just when each notation that it is written in is read, and it is none of
the texts that are read otherwise. -/
theorem readRight_iff (ht : TrimsSpaces trim blank) (target : CStr) :
    ReadRight trim target ↔
      (∀ f : HostForm, f.text = target → f.Read) ∧
        ((∀ f : HostForm, f.text ≠ target) → ¬ Loose trim target) := by
  have hnone : ∀ port, parseHostPortString inetOfLibc trim target port = none ↔
      ¬ Loose trim target := by
    intro port
    rw [parseHostPortString]
    split
    · rename_i hnil
      subst hnil
      exact ⟨fun _ => not_loose_nil ht, fun _ => rfl⟩
    · exact parseBase_eq_none_iff ht
  constructor
  · intro h
    refine ⟨fun f hf => (f.read_iff ht).mp fun port => ?_, fun hno => (hnone 0).mp ((h 0).2 hno)⟩
    rw [hf]
    exact (h port).1 f hf
  · rintro ⟨hread, hloose⟩ port
    refine ⟨fun f hf => ?_, fun hno => (hnone port).mpr (hloose hno)⟩
    rw [← hf]
    exact (f.read_iff ht).mpr (hread f hf) port

/-- A `trim` that takes every kind of white space away. -/
theorem trimsSpaces_sample : TrimsSpaces (Trim.both isspace) isspace where
  both := rfl
  spaces c h := by
    simp only [isspace, Bool.or_eq_true, Bool.and_eq_true, decide_eq_true_iff] at h
    omega

/-- Everything but a plain host has a colon. -/
theorem HostForm.colon (f : HostForm) : (∃ h, f = .host h) ∨ 58 ∈ f.text := by
  cases f with
  | host h => exact .inl ⟨h, rfl⟩
  | hostPort h p => exact .inr (List.mem_append_right _ List.mem_cons_self)
  | ipv6 h z => exact .inr (List.mem_append_left _ h.colon)
  | bracketed h z p =>
    exact .inr (List.mem_cons_of_mem _ (List.mem_append_left _ (List.mem_append_left _ h.colon)))
  | ipv6Port h z sep p => exact .inr (List.mem_append_left _ (List.mem_append_left _ h.colon))

/-- `abc`, which is also a group of hex digits. -/
def sampleHostname : PlainHost where
  text := [97, 98, 99]
  valid := .inr ⟨by decide, 97, by decide, rfl⟩

/-- `80` -/
def samplePort : PortText where
  text := [56, 48]
  digits := by decide
  low := by decide
  high := by decide

theorem readRight_iff_sample : ReadRight (Trim.both isspace) [97, 98, 99] := by
  refine (readRight_iff trimsSpaces_sample [97, 98, 99]).mpr ⟨fun f hf => ?_, fun hno => ?_⟩
  · obtain ⟨h, rfl⟩ | hcolon := f.colon
    · trivial
    · rw [hf] at hcolon
      exact absurd hcolon (by decide)
  · exact absurd rfl (hno (.host sampleHostname))

/-- `abc:80` is taken for an IPv6 address. -/
theorem readRight_fails : ¬ ∀ target, ReadRight (Trim.both isspace) target := by
  intro hall
  have hread := (hall [97, 98, 99, 58, 56, 48] 8020).1 (.hostPort sampleHostname samplePort) rfl
  exact absurd hread (by decide)

end NetDb
end Chm
