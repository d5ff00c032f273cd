/-
IPv6 addresses as text.

`inetPton6` reads what `inet_pton` reads: eight groups of up to four hex digits, of which one run
of zeros may be written `::` and the last two as an IPv4 address.  With it the parameter of the
cache, `inet_pton` followed by `inet_ntoa` of the last four bytes, is a function.
-/
import Chm.NetDbCache
import Chm.Lib.Decimal
import Chm.Lib.Pieces

namespace Chm

/-- `isdigit`, `isxdigit` and `isalpha` of the C locale. -/
def isdigit (c : Nat) : Bool := 48 ≤ c && c ≤ 57
def isxdigit (c : Nat) : Bool := isdigit c || 97 ≤ c && c ≤ 102 || 65 ≤ c && c ≤ 70
def isalpha (c : Nat) : Bool := 97 ≤ c && c ≤ 122 || 65 ≤ c && c ≤ 90

/-- The number that decimal digits write. -/
def decimalValue (s : CStr) : Nat := s.foldl (fun r c => r * 10 + (c - 48)) 0

def xdigitValue (c : Nat) : Nat :=
  if isdigit c then c - 48 else if 97 ≤ c then c - 87 else c - 55

def hexValue (s : CStr) : Nat := s.foldl (fun r c => r * 16 + xdigitValue c) 0

/-- A byte in decimal, without leading zeros. -/
def octet (part : CStr) : Option Nat :=
  if part ≠ [] ∧ part.all isdigit ∧ (part.length = 1 ∨ part.head? ≠ some 48) ∧
      decimalValue part ≤ 255 then some (decimalValue part)
  else none

/-- `inet_pton` of an IPv4 address. -/
def inetPton4 (s : CStr) : Option (List Nat) :=
  if (s.splitOn 46).length = 4 then (s.splitOn 46).mapM octet else none

def hexGroup (part : CStr) : Option Nat :=
  if part ≠ [] ∧ part.length ≤ 4 ∧ part.all isxdigit then some (hexValue part) else none

/-- Groups between colons, the last two also as an IPv4 address. -/
def hexGroups (parts : List CStr) : Option (List Nat) :=
  match inetPton4 (parts.getLast?.getD []) with
  | some bytes => (parts.dropLast.mapM hexGroup).map fun groups =>
      groups ++ [bytes.getD 0 0 * 256 + bytes.getD 1 0, bytes.getD 2 0 * 256 + bytes.getD 3 0]
  | none => parts.mapM hexGroup

/-- The pieces between colons, none for the empty text. -/
def colonParts (s : CStr) : List CStr := if s = [] then [] else s.splitOn 58

/-- `inet_pton` of an IPv6 address: its eight groups. -/
def inetPton6 (s : CStr) : Option (List Nat) :=
  match Pieces.cut [58, 58] s with
  | none => (hexGroups (colonParts s)).filter (·.length = 8)
  | some (a, b) => do
    let high ← (colonParts a).mapM hexGroup
    let low ← hexGroups (colonParts b)
    if high.length + low.length ≤ 7 then
      some (high ++ List.replicate (8 - (high.length + low.length)) 0 ++ low)
    else none

/-- `inet_ntoa` of the last two groups. -/
def inetNtoa (groups : List Nat) : CStr :=
  let a := groups.getD 6 0
  let b := groups.getD 7 0
  Decimal.text (a / 256) ++ 46 :: (Decimal.text (a % 256) ++
    46 :: (Decimal.text (b / 256) ++ 46 :: Decimal.text (b % 256)))

/-- A character of an address. -/
def isAddrChar (c : Nat) : Bool := isxdigit c || c = 58 || c = 46

theorem isAddrChar_of_isdigit {c : Nat} (h : isdigit c = true) : isAddrChar c = true := by
  simp [isAddrChar, isxdigit, h]

theorem isAddrChar_of_isxdigit {c : Nat} (h : isxdigit c = true) : isAddrChar c = true := by
  simp [isAddrChar, h]

theorem mem_inetNtoa {groups : List Nat} {c : Nat} (h : c ∈ inetNtoa groups) :
    c = 46 ∨ 48 ≤ c ∧ c ≤ 57 := by
  simp only [inetNtoa, List.mem_append, List.mem_cons] at h
  obtain h | rfl | h | rfl | h | rfl | h := h
  all_goals first | exact .inl rfl | exact .inr (Decimal.mem_text h)

/-- The library's `inet_pton` and `inet_ntoa`. -/
def inetOfLibc : Inet where
  lastFour str := (inetPton6 str).map inetNtoa
  dotted str ip h := by
    obtain ⟨groups, -, rfl⟩ := Option.map_eq_some_iff.mp h
    exact ⟨by simp [inetNtoa], fun c hc => mem_inetNtoa hc⟩

/-! ## The characters of an address -/

theorem hexGroup_isxdigit {part : CStr} {n : Nat} (h : hexGroup part = some n) :
    ∀ c ∈ part, isxdigit c = true := by
  rw [hexGroup] at h
  split at h
  · rename_i hpart
    exact List.all_eq_true.mp hpart.2.2
  · cases h

theorem octet_isdigit {part : CStr} {n : Nat} (h : octet part = some n) :
    ∀ c ∈ part, isdigit c = true := by
  rw [octet] at h
  split at h
  · rename_i hpart
    exact List.all_eq_true.mp hpart.2.1
  · cases h

/-- What a reader of every piece says of a piece. -/
theorem mapM_mem {α β : Type} {f : α → Option β} {l : List α} {r : List β}
    (h : l.mapM f = some r) : ∀ x ∈ l, ∃ y, f x = some y := by
  induction l generalizing r with
  | nil => exact fun x hx => (List.not_mem_nil hx).elim
  | cons x l ih =>
    rw [List.mapM_cons] at h
    obtain ⟨y, hy, h⟩ := Option.bind_eq_some_iff.mp h
    obtain ⟨r', hr', -⟩ := Option.bind_eq_some_iff.mp h
    intro z hz
    obtain rfl | hz := List.mem_cons.mp hz
    · exact ⟨y, hy⟩
    · exact ih hr' z hz

theorem mapM_length {α β : Type} {f : α → Option β} {l : List α} {r : List β}
    (h : l.mapM f = some r) : r.length = l.length := by
  induction l generalizing r with
  | nil =>
    obtain rfl := Option.some.inj h
    rfl
  | cons x l ih =>
    rw [List.mapM_cons] at h
    obtain ⟨y, -, h⟩ := Option.bind_eq_some_iff.mp h
    obtain ⟨r', hr', h⟩ := Option.bind_eq_some_iff.mp h
    obtain rfl := Option.some.inj h
    rw [List.length_cons, List.length_cons, ih hr']

theorem inetPton4_isAddrChar {s : CStr} {bytes : List Nat} (h : inetPton4 s = some bytes) :
    ∀ c ∈ s, isAddrChar c = true := by
  rw [inetPton4] at h
  split at h
  · intro c hc
    obtain rfl | ⟨part, hpart, hc⟩ := Pieces.mem_splitOn (x := 46) hc
    · rfl
    · obtain ⟨n, hn⟩ := mapM_mem h part hpart
      exact isAddrChar_of_isdigit (octet_isdigit hn c hc)
  · cases h

theorem hexGroups_isAddrChar {parts : List CStr} {groups : List Nat}
    (h : hexGroups parts = some groups) : ∀ part ∈ parts, ∀ c ∈ part, isAddrChar c = true := by
  rw [hexGroups] at h
  split at h
  · rename_i bytes hbytes
    obtain ⟨high, hhigh, -⟩ := Option.map_eq_some_iff.mp h
    intro part hpart
    have hne : parts ≠ [] := List.ne_nil_of_mem hpart
    rw [← List.dropLast_concat_getLast hne] at hpart
    obtain hpart | hpart := List.mem_append.mp hpart
    · obtain ⟨n, hn⟩ := mapM_mem hhigh part hpart
      exact fun c hc => isAddrChar_of_isxdigit (hexGroup_isxdigit hn c hc)
    · obtain rfl := List.mem_singleton.mp hpart
      rw [List.getLast?_eq_some_getLast hne] at hbytes
      exact inetPton4_isAddrChar hbytes
  · intro part hpart c hc
    obtain ⟨n, hn⟩ := mapM_mem h part hpart
    exact isAddrChar_of_isxdigit (hexGroup_isxdigit hn c hc)

theorem colonParts_isAddrChar {s : CStr}
    (h : ∀ part ∈ colonParts s, ∀ c ∈ part, isAddrChar c = true) :
    ∀ c ∈ s, isAddrChar c = true := by
  intro c hc
  have hne : s ≠ [] := List.ne_nil_of_mem hc
  rw [colonParts, if_neg hne] at h
  obtain rfl | ⟨part, hpart, hc⟩ := Pieces.mem_splitOn (x := 58) hc
  · rfl
  · exact h part hpart c hc

/-- What is read as an address consists of hex digits, colons and dots, with a colon. -/
theorem inetPton6_chars {s : CStr} {groups : List Nat} (h : inetPton6 s = some groups) :
    58 ∈ s ∧ ∀ c ∈ s, isAddrChar c = true := by
  rw [inetPton6] at h
  split at h
  · obtain ⟨hgroups, hlength⟩ := Option.filter_eq_some_iff.mp h
    refine ⟨?_, colonParts_isAddrChar (hexGroups_isAddrChar hgroups)⟩
    by_contra hcolon
    -- a single piece gives two groups at most
    have hparts : (colonParts s).length ≤ 1 := by
      rw [colonParts]
      split
      · exact Nat.zero_le _
      · rw [List.splitOn_eq_singleton hcolon]
        rfl
    have hle : groups.length ≤ 2 := by
      rw [hexGroups] at hgroups
      split at hgroups
      · obtain ⟨high, hhigh, rfl⟩ := Option.map_eq_some_iff.mp hgroups
        have hhigh' := mapM_length hhigh
        rw [List.length_dropLast] at hhigh'
        simp only [List.length_append, List.length_cons, List.length_nil]
        omega
      · have hgroups' := mapM_length hgroups
        omega
    simp only [decide_eq_true_eq] at hlength
    omega
  · rename_i a b hcut
    obtain ⟨high, hhigh, h⟩ := Option.bind_eq_some_iff.mp h
    obtain ⟨low, hlow, -⟩ := Option.bind_eq_some_iff.mp h
    have ha : ∀ c ∈ a, isAddrChar c = true := by
      refine colonParts_isAddrChar fun part hpart c hc => ?_
      obtain ⟨n, hn⟩ := mapM_mem hhigh part hpart
      exact isAddrChar_of_isxdigit (hexGroup_isxdigit hn c hc)
    have hb := colonParts_isAddrChar (hexGroups_isAddrChar hlow)
    rw [Pieces.cut_eq_some hcut]
    refine ⟨by simp, fun c hc => ?_⟩
    obtain hc | hc := List.mem_append.mp hc
    · exact ha c hc
    · obtain rfl | hc := List.mem_cons.mp hc
      · rfl
      · obtain rfl | hc := List.mem_cons.mp hc
        · rfl
        · exact hb c hc

end Chm
