/-
The notations of a control endpoint.

`HostForm` lists them with the host and the port that each of them writes; a zone index is a text
without the characters at which the source lets it end.  `HostForm.Read` says of each notation
when `parseHostPortString` reads it right, and `Loose` which texts it reads that are no endpoint:
with a port that is too large, an address that only looks like one, blanks, a zone index behind a
host name and so on.
-/
import Chm.HostPortString

namespace Chm
namespace NetDb

open Conf (atoi castShort cstr isspace Ended)

/-! ## Notations -/

/-- Four numbers up to 255 between dots. -/
def IsIpv4 (s : CStr) : Prop :=
  (s.splitOn 46).length = 4 ∧ ∀ part ∈ s.splitOn 46,
    part ≠ [] ∧ (∀ c ∈ part, isdigit c = true) ∧ decimalValue part ≤ 255

/-- Letters, digits and `-._`, with a letter. -/
def IsHostname (s : CStr) : Prop :=
  (∀ c ∈ s, isHostChar c = true) ∧ ∃ c ∈ s, isalpha c = true

/-- An IPv4 address or a host name. -/
structure PlainHost where
  text : CStr
  valid : IsIpv4 text ∨ IsHostname text

structure Ipv6Host where
  text : CStr
  groups : List Nat
  valid : inetPton6 text = some groups

structure ZoneId where
  text : CStr
  plain : ∀ c ∈ text, isZoneEnd c = false ∧ c ≠ zoneChar

/-- A port number from 1 to 65535 in decimal. -/
structure PortText where
  text : CStr
  digits : ∀ c ∈ text, isdigit c = true
  low : 1 ≤ decimalValue text
  high : decimalValue text ≤ 65535

/-- Between an IPv6 address and its port: `p`, `#`, a blank or ` port `. -/
inductive PortSep
  | letter
  | hash
  | space
  | word

def PortSep.text : PortSep → CStr
  | .letter => [112]
  | .hash => [35]
  | .space => [32]
  | .word => portKey

def zoneText : Option ZoneId → CStr
  | none => []
  | some z => zoneChar :: z.text

/-- The address is IPv4-mapped. -/
def Ipv6Host.isMapped (h : Ipv6Host) : Bool := h.groups.take 6 = [0, 0, 0, 0, 0, 0xffff]

/-- The host: a mapped address as IPv4. -/
def Ipv6Host.host (h : Ipv6Host) : CStr := if h.isMapped then inetNtoa h.groups else h.text

def PortText.value (p : PortText) : Nat := decimalValue p.text

inductive HostForm
  | host (h : PlainHost)
  | hostPort (h : PlainHost) (p : PortText)
  | ipv6 (h : Ipv6Host) (z : Option ZoneId)
  | bracketed (h : Ipv6Host) (z : Option ZoneId) (p : PortText)
  | ipv6Port (h : Ipv6Host) (z : Option ZoneId) (sep : PortSep) (p : PortText)

namespace HostForm

def text : HostForm → CStr
  | .host h => h.text
  | .hostPort h p => h.text ++ 58 :: p.text
  | .ipv6 h z => h.text ++ zoneText z
  | .bracketed h z p => 91 :: (h.text ++ zoneText z ++ 93 :: 58 :: p.text)
  | .ipv6Port h z sep p => h.text ++ zoneText z ++ (sep.text ++ p.text)

/-- The host and the port that are written. -/
def endpoint (defaultPort : Int) : HostForm → CStr × Int
  | .host h => (h.text, defaultPort)
  | .hostPort h p => (h.text, p.value)
  | .ipv6 h _ => (h.host, defaultPort)
  | .bracketed h _ p => (h.host, p.value)
  | .ipv6Port h _ _ p => (h.host, p.value)

end HostForm

/-- The text is an endpoint's and read as this, or no endpoint's and refused, whatever the default
port. -/
def ReadRight (trim : CStr → CStr) (target : CStr) : Prop :=
  ∀ defaultPort,
    (∀ f : HostForm, f.text = target →
      parseHostPortString inetOfLibc trim target defaultPort = some (f.endpoint defaultPort)) ∧
    ((∀ f : HostForm, f.text ≠ target) →
      parseHostPortString inetOfLibc trim target defaultPort = none)

/-! ## What is read -/

/-- The prefix `::ffff:` stands before a mapped address and before no other. -/
def Ipv6Host.Prefixed (h : Ipv6Host) : Prop := mappedPrefix.isPrefixOf h.text = h.isMapped

/-- The address with a port is read: a mapped one is not tested any more. -/
def Ipv6Host.ReadWithPort (h : Ipv6Host) (p : PortText) : Prop :=
  h.Prefixed ∧ (h.isMapped = true ∨ checkStringIPv6Format h.text = true) ∧ p.value < 2 ^ 15

/-- A port fits a `short`, a host name with port does not look like an IPv6 address, an IPv6
address looks like one, and one in brackets has no zone index. -/
def HostForm.Read : HostForm → Prop
  | .host _ => True
  | .hostPort h p =>
    checkStringIPv6Format (HostForm.hostPort h p).text = false ∧ p.value < 2 ^ 15
  | .ipv6 h _ => h.Prefixed ∧ checkStringIPv6Format h.text = true
  | .bracketed h none p => h.ReadWithPort p
  | .bracketed _ (some _) _ => False
  | .ipv6Port h _ _ p => h.ReadWithPort p

/-- Texts that are read: what looks like an IPv6 address or is a host, and either with a separator
and digits.  The zone index, blanks around the text and the host, brackets and the first ` port `
do not matter. -/
inductive Loose (trim : CStr → CStr) (target : CStr) : Prop
  | address (h : checkStringIPv6Format (baseOf trim target) = true)
  | host (h : checkStringIPv4Format (cutPortKey trim (baseOf trim target)) = true ∨
      checkStringHostnameFormat (cutPortKey trim (baseOf trim target)) = true)
  | addressPort (host : CStr) (sep : Nat) (port : CStr)
      (hmatch : matchPort (cutPortKey trim (baseOf trim target)) = some (host, sep, port))
      (hcolon : 58 ∈ trim host)
      (h : inetOfLibc.ipv4Mapped (cutBrackets trim (trim host)) ≠ none ∨
        checkStringIPv6Format (cutBrackets trim (trim host)) = true)
  | hostPort (host port : CStr)
      (hmatch : matchPort (cutPortKey trim (baseOf trim target)) = some (host, 58, port))
      (hcolon : 58 ∉ trim host)
      (h : checkStringIPv4Format (trim host) = true ∨
        checkStringHostnameFormat (trim host) = true)

variable {trim : CStr → CStr} {blank : Nat → Bool} {s a b : CStr} {c : Nat} {defaultPort : Int}

/-! ## Numbers -/

theorem decimalValue_ne_nil (h : 1 ≤ decimalValue s) : s ≠ [] := by
  rintro rfl
  exact absurd h (by decide)

theorem isdigit_iff : isdigit c = true ↔ 48 ≤ c ∧ c ≤ 57 := by
  rw [isdigit, Bool.and_eq_true, decide_eq_true_iff, decide_eq_true_iff]

theorem isStringNumberEx_decimal {max : Nat} (hne : s ≠ [])
    (hdigits : ∀ c ∈ s, isdigit c = true) (hmax : decimalValue s ≤ max) (hlt : max < 2 ^ 64) :
    isStringNumberEx s max false true = true := by
  have hfold := @Decimal.foldl_mod 10 (2 ^ 64) (s.map (· - 48)) 0
  rw [List.foldl_map, List.foldl_map, Nat.zero_mod] at hfold
  have hvalue : decimalValue s % 2 ^ 64 = decimalValue s := Nat.mod_eq_of_lt (by omega)
  rw [isStringNumberEx, if_neg hne, cvtStringToNumberRaw, if_neg hne,
    cvtStringLoop_digits fun c hc => isdigit_iff.mp (hdigits c hc), hfold]
  simp only [Bool.true_and, decide_eq_true_iff]
  exact hvalue.symm ▸ hmax

theorem foldl_decimal (hdigits : ∀ c ∈ s, isdigit c = true) (n : Nat) :
    s.foldl (fun (r : Int) (c : Nat) => r * 10 + (c - 48)) n =
      (s.foldl (fun r c => r * 10 + (c - 48)) n : Nat) := by
  induction s generalizing n with
  | nil => rfl
  | cons c s ih =>
    obtain ⟨hc, hs⟩ := List.forall_mem_cons.mp hdigits
    have hlow := (isdigit_iff.mp hc).1
    have hstep : (n : Int) * 10 + ((c : Int) - 48) = ((n * 10 + (c - 48) : Nat) : Int) := by omega
    rw [List.foldl_cons, List.foldl_cons, hstep]
    exact ih hs _

theorem atoi_decimal (hne : s ≠ []) (hdigits : ∀ c ∈ s, isdigit c = true)
    (hlt : decimalValue s < 2 ^ 31) : atoi s = decimalValue s := by
  have hfold := foldl_decimal hdigits 0
  have htake : (s.takeWhile fun c => 48 ≤ c && c ≤ 57) = s := by
    have happend : (s ++ []).takeWhile (fun c => 48 ≤ c && c ≤ 57) = s ++ [] :=
      List.takeWhile_append_of_pos hdigits
    rwa [List.append_nil] at happend
  have hdrop : s.dropWhile isspace = s := by
    cases s with
    | nil => rfl
    | cons c s =>
      have hc := isdigit_iff.mp (hdigits c List.mem_cons_self)
      refine List.dropWhile_cons_of_neg ?_
      simp only [isspace, Bool.or_eq_true, Bool.and_eq_true, decide_eq_true_iff]
      omega
  have hstrtol : Conf.strtol s = decimalValue s := by
    rw [Conf.strtol, hdrop]
    have hnumber : min (s.foldl (fun (r : Int) (c : Nat) => r * 10 + (c - 48)) 0) (2 ^ 63 - 1) =
        (decimalValue s : Int) := by
      rw [show (0 : Int) = ((0 : Nat) : Int) from rfl, hfold]
      show min (decimalValue s : Int) (2 ^ 63 - 1) = _
      omega
    split
    · rename_i s'
      exact absurd (isdigit_iff.mp (hdigits 45 List.mem_cons_self)) (by omega)
    · rename_i s'
      exact absurd (isdigit_iff.mp (hdigits 43 List.mem_cons_self)) (by omega)
    · dsimp only
      rw [htake]
      exact hnumber
  rw [atoi, hstrtol]
  exact Int.bmod_eq_of_le_mul_two (by omega) (by omega)

namespace PortText

variable {p : PortText}

theorem ne_nil : p.text ≠ [] := decimalValue_ne_nil p.low

theorem castShort_eq_iff : castShort (atoi p.text) = p.value ↔ p.value < 2 ^ 15 := by
  have hhigh := p.high
  have hatoi : atoi p.text = p.value := atoi_decimal p.ne_nil p.digits (by omega)
  rw [hatoi, castShort]
  constructor
  · intro h
    have hlt := Int.bmod_lt (x := (p.value : Int)) (m := 2 ^ 16) (by omega)
    omega
  · intro h
    exact Int.bmod_eq_of_le_mul_two (by omega) (by omega)

end PortText

/-! ## Characters -/

theorem not_isspace_of_isAddrChar (h : isAddrChar c = true) : isspace c = false := by
  simp only [isAddrChar, isxdigit, isdigit, Bool.or_eq_true, Bool.and_eq_true,
    decide_eq_true_iff] at h
  simp only [isspace, Bool.or_eq_false_iff, Bool.and_eq_false_iff, decide_eq_false_iff_not]
  omega

theorem not_isspace_of_isHostChar (h : isHostChar c = true) : isspace c = false := by
  simp only [isHostChar, isalpha, isdigit, Bool.or_eq_true, Bool.and_eq_true,
    decide_eq_true_iff] at h
  simp only [isspace, Bool.or_eq_false_iff, Bool.and_eq_false_iff, decide_eq_false_iff_not]
  omega

/-- A text without blanks is not trimmed. -/
theorem ended_of_forall (h : ∀ c ∈ s, isspace c = false) : Ended s :=
  ⟨fun c hc => h c (List.mem_of_mem_head? hc), fun c hc => h c (List.mem_of_mem_getLast? hc)⟩

theorem trim_eq_self (ht : TrimsSpaces trim blank) (h : ∀ c ∈ s, isspace c = false) :
    trim s = s := (ended_of_forall h).trim_eq ht

theorem mem_of_mem_trim (ht : TrimsSpaces trim blank) (h : c ∈ trim s) : c ∈ s := by
  rw [ht.both] at h
  exact (Trim.both_infix blank s).subset h

/-- A text that begins with no blank begins with the same character when it is trimmed. -/
theorem head?_trim (ht : TrimsSpaces trim blank) (hc : isspace c = false) :
    (trim (c :: s)).head? = some c := by
  have hblank := Conf.not_blank ht hc
  rw [ht.both, Trim.both, List.dropWhile_cons_of_neg (by rw [hblank]; exact Bool.false_ne_true),
    List.head?_reverse, List.reverse_cons, List.dropWhile_append]
  split
  · rw [List.dropWhile_cons_of_neg (by rw [hblank]; exact Bool.false_ne_true)]
    rfl
  · rw [List.getLast?_concat]

theorem IsIpv4.chars (h : IsIpv4 s) : ∀ c ∈ s, isdigit c = true ∨ c = 46 := by
  intro c hc
  obtain rfl | ⟨part, hpart, hc⟩ := Pieces.mem_splitOn (x := 46) hc
  · exact .inr rfl
  · exact .inl ((h.2 part hpart).2.1 c hc)

namespace PlainHost

variable {h : PlainHost}

theorem isHostChar (h : PlainHost) : ∀ c ∈ h.text, isHostChar c = true := by
  intro c hc
  obtain hv4 | hname := h.valid
  · obtain hdigit | rfl := hv4.chars c hc
    · simp [NetDb.isHostChar, hdigit]
    · rfl
  · exact hname.1 c hc

theorem notMem (h : PlainHost) (hc : NetDb.isHostChar c = false) : c ∉ h.text := fun hmem =>
  Bool.false_ne_true (hc.symm.trans (h.isHostChar c hmem))

theorem ne_nil (h : PlainHost) : h.text ≠ [] := by
  obtain hv4 | ⟨-, c, hc, -⟩ := h.valid
  · intro hnil
    have hlength := hv4.1
    rw [hnil] at hlength
    exact absurd hlength (by decide)
  · exact List.ne_nil_of_mem hc

theorem trim_eq (ht : TrimsSpaces trim blank) (h : PlainHost) : trim h.text = h.text :=
  trim_eq_self ht fun c hc => not_isspace_of_isHostChar (h.isHostChar c hc)

end PlainHost

namespace Ipv6Host

theorem isAddrChar (h : Ipv6Host) : ∀ c ∈ h.text, isAddrChar c = true :=
  (inetPton6_chars h.valid).2

theorem colon (h : Ipv6Host) : 58 ∈ h.text := (inetPton6_chars h.valid).1

theorem notMem (h : Ipv6Host) (hc : Chm.isAddrChar c = false) : c ∉ h.text := fun hmem =>
  Bool.false_ne_true (hc.symm.trans (h.isAddrChar c hmem))

theorem ne_nil (h : Ipv6Host) : h.text ≠ [] := List.ne_nil_of_mem h.colon

theorem not_isspace (h : Ipv6Host) : ∀ c ∈ h.text, isspace c = false := fun c hc =>
  not_isspace_of_isAddrChar (h.isAddrChar c hc)

theorem ipv4Mapped_eq (h : Ipv6Host) :
    inetOfLibc.ipv4Mapped h.text =
      if mappedPrefix.isPrefixOf h.text then some (inetNtoa h.groups) else none := by
  rw [Inet.ipv4Mapped]
  split
  · show (inetPton6 h.text).map inetNtoa = _
    rw [h.valid]
    rfl
  · rfl

/-- A text with a colon is no IPv4 address. -/
theorem inetNtoa_ne (h : Ipv6Host) : inetNtoa h.groups ≠ h.text := by
  intro heq
  have hcolon := h.colon
  rw [← heq] at hcolon
  have hchar := mem_inetNtoa hcolon
  omega

/-- The reduction gives the host just when the prefix tells mapped addresses. -/
theorem reduced_iff (h : Ipv6Host) :
    (inetOfLibc.ipv4Mapped h.text).getD h.text = h.host ↔ h.Prefixed := by
  have hne := h.inetNtoa_ne
  rw [h.ipv4Mapped_eq, host, Prefixed]
  cases mappedPrefix.isPrefixOf h.text <;> cases h.isMapped <;> simp [hne, hne.symm]

end Ipv6Host

/-! ## The text that is parsed -/

/-- The zone index goes, up to where the rest begins. -/
theorem checkZoneIndexString_zone {z : Option ZoneId} {rest : CStr}
    (ha : zoneChar ∉ a) (hrest : zoneChar ∉ rest) (hend : ∀ c ∈ rest.head?, isZoneEnd c = true) :
    (checkZoneIndexString (a ++ zoneText z ++ rest)).getD (a ++ zoneText z ++ rest) =
      a ++ rest := by
  cases z with
  | none =>
    have hnone : Pieces.last (· = zoneChar) (a ++ zoneText none ++ rest) = none := by
      refine Pieces.last_eq_none_iff.mpr fun c hc => decide_eq_false fun h => ?_
      subst h
      obtain hc | hc := List.mem_append.mp hc
      · rw [zoneText, List.append_nil] at hc
        exact ha hc
      · exact hrest hc
    rw [checkZoneIndexString, hnone, zoneText, List.append_nil]
    rfl
  | some z =>
    have htext : a ++ zoneText (some z) ++ rest = a ++ zoneChar :: (z.text ++ rest) := by
      simp [zoneText]
    have hlast : Pieces.last (· = zoneChar) (a ++ zoneChar :: (z.text ++ rest)) =
        some (a, zoneChar, z.text ++ rest) := by
      refine Pieces.last_append (decide_eq_true rfl) fun c hc => decide_eq_false fun h => ?_
      obtain hc | hc := List.mem_append.mp hc
      · exact (z.plain c hc).2 h
      · exact hrest (h ▸ hc)
    have hdrop : (z.text ++ rest).dropWhile (!isZoneEnd ·) = rest := by
      rw [List.dropWhile_append_of_pos fun c hc => by rw [(z.plain c hc).1]; rfl]
      cases rest with
      | nil => rfl
      | cons c rest =>
        exact List.dropWhile_cons_of_neg (by rw [hend c rfl]; exact Bool.false_ne_true)
    rw [htext, checkZoneIndexString, hlast]
    exact congrArg (a ++ ·) hdrop

theorem checkZoneIndexString_none (h : zoneChar ∉ s) : (checkZoneIndexString s).getD s = s := by
  have hnone : Pieces.last (· = zoneChar) s = none :=
    Pieces.last_eq_none_iff.mpr fun c hc => decide_eq_false fun heq => h (heq ▸ hc)
  rw [checkZoneIndexString, hnone]
  rfl

/-- No ` port ` where one of its characters does not stand. -/
theorem cutPortKey_eq_self (hc : c ∈ portKey) (h : c ∉ s) : cutPortKey trim s = s := by
  rw [cutPortKey]
  split
  · rfl
  · rename_i host port hcut
    rw [Pieces.cut_eq_some hcut] at h
    exact absurd (List.mem_append_right _ (List.mem_append_left _ hc)) h

end NetDb
end Chm
