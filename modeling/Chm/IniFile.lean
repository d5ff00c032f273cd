/-
Reading the lines of an INI file.

`ReadFileContents` collects the lines that are not blank, without the blanks at their ends, and is
to read the file that an INCLUDE line names in the place of that line.  It looks for the word
INCLUDE and compares what stands before the word with the word, so no line is ever taken for an
INCLUDE line.
-/
import Chm.HostPorts
import Chm.Lib.Includes

namespace Chm
namespace Conf

/-! ## The reader -/

/-- `INCLUDE`. -/
def inicfgIncludeStr : CStr := [73, 78, 67, 76, 85, 68, 69]

/-- `string::find`: where the text first has the part. -/
def strFind (part : CStr) : CStr → Option Nat
  | [] => if part = [] then some 0 else none
  | c :: line => if part.isPrefixOf (c :: line) then some 0 else (strFind part line).map (· + 1)

/-- The result of a call, the lines collected and the files met. -/
abbrev IniResult := Bool × List CStr × List CStr

/-- The loop of `ReadFileContents` over the lines of a file; `read` is the call for another
file. -/
def readLines (trim : CStr → CStr) (read : CStr → List CStr → List CStr → Option IniResult) :
    List CStr → List CStr → List CStr → Option IniResult
  | [], linelst, allfiles => some (true, linelst, allfiles)
  | raw :: lines, linelst, allfiles =>
    let line := trim raw
    if line = [] then readLines trim read lines linelst allfiles
    else
      match strFind inicfgIncludeStr line with
      | none => readLines trim read lines (linelst ++ [line]) allfiles
      | some pos =>
        let value := trim (line.drop (pos + 1))
        let key := trim (line.take pos)
        if key = inicfgIncludeStr then
          if value ∈ allfiles then readLines trim read lines linelst allfiles
          else
            match read value linelst (allfiles ++ [value]) with
            | none => none
            | some (false, linelst, allfiles) => some (false, linelst, allfiles)
            | some (true, linelst, allfiles) => readLines trim read lines linelst allfiles
        else readLines trim read lines (linelst ++ [line]) allfiles

/-- `ReadFileContents`, with a bound on the depth of its calls. -/
def readFileContents (trim : CStr → CStr) (files : CStr → Option (List CStr)) :
    Nat → CStr → List CStr → List CStr → Option IniResult
  | 0, _, _, _ => none
  | fuel + 1, filename, linelst, allfiles =>
    if filename = [] then some (false, linelst, allfiles)
    else
      match files filename with
      | none => some (false, linelst, allfiles)
      | some lines => readLines trim (readFileContents trim files fuel) lines linelst allfiles

/-! ## What it is to read -/

/-- The lines that are not blank, trimmed. -/
def contents (trim : CStr → CStr) (lines : List CStr) : List CStr :=
  (lines.map trim).filter (· ≠ [])

/-- The file that a line `INCLUDE = f` names. -/
def includedFile (trim : CStr → CStr) (line : CStr) : Option CStr :=
  if 61 ∈ line ∧ trim (line.takeWhile (· ≠ 61)) = inicfgIncludeStr then
    some (trim ((line.dropWhile (· ≠ 61)).drop 1))
  else none

/-- The expansion of lines: each INCLUDE line gives way to the lines of its file when the file is
met for the first time, and to nothing later. -/
def Expansion (trim : CStr → CStr) (files : CStr → Option (List CStr)) :
    List CStr → List CStr → List CStr → List CStr → Prop :=
  Includes.Expands (fun f => (files f).map (contents trim)) (includedFile trim)

/-! ## No line is an INCLUDE line -/

theorem strFind_first {part line : CStr} {pos : Nat} (h : strFind part line = some pos) :
    pos ≤ line.length ∧ ∀ i < pos, ¬part <+: line.drop i := by
  induction line generalizing pos with
  | nil =>
    rw [strFind] at h
    split at h
    · obtain rfl := Option.some.inj h
      exact ⟨Nat.le_refl 0, fun i hi => absurd hi (Nat.not_lt_zero i)⟩
    · cases h
  | cons c line ih =>
    rw [strFind] at h
    split at h
    · obtain rfl := Option.some.inj h
      exact ⟨Nat.zero_le _, fun i hi => absurd hi (Nat.not_lt_zero i)⟩
    · rename_i hnot
      obtain ⟨pos', hpos', rfl⟩ := Option.map_eq_some_iff.mp h
      obtain ⟨hle, hbefore⟩ := ih hpos'
      refine ⟨Nat.succ_le_succ hle, fun i hi => ?_⟩
      cases i with
      | zero => exact fun hprefix => hnot (List.isPrefixOf_iff_prefix.mpr hprefix)
      | succ i => exact hbefore i (Nat.lt_of_succ_lt_succ hi)

variable {trim : CStr → CStr} {blank : Nat → Bool} {files : CStr → Option (List CStr)}

/-- The text before the first INCLUDE is not the word. -/
theorem key_ne_include (ht : TrimsSpaces trim blank) {line : CStr} {pos : Nat}
    (h : strFind inicfgIncludeStr line = some pos) :
    trim (line.take pos) ≠ inicfgIncludeStr := by
  intro hkey
  rw [ht.both] at hkey
  obtain ⟨before, after, happend⟩ := Trim.both_infix blank (line.take pos)
  rw [hkey] at happend
  obtain ⟨hle, hfirst⟩ := strFind_first h
  have hlength := congrArg List.length happend
  simp only [List.length_append, List.length_take, Nat.min_eq_left hle] at hlength
  have hword : inicfgIncludeStr.length = 7 := rfl
  refine hfirst before.length (by omega) ?_
  have hline : line = before ++ (inicfgIncludeStr ++ (after ++ line.drop pos)) := by
    rw [← List.append_assoc, ← List.append_assoc, happend, List.take_append_drop]
  have hdrop : line.drop before.length = inicfgIncludeStr ++ (after ++ line.drop pos) := by
    conv_lhs => rw [hline]
    exact List.drop_left
  rw [hdrop]
  exact List.prefix_append _ _

theorem readLines_eq (ht : TrimsSpaces trim blank)
    (read : CStr → List CStr → List CStr → Option IniResult) (lines : List CStr) :
    ∀ linelst allfiles, readLines trim read lines linelst allfiles =
      some (true, linelst ++ contents trim lines, allfiles) := by
  induction lines with
  | nil => exact fun linelst allfiles => by rw [readLines, contents]; simp
  | cons raw lines ih =>
    intro linelst allfiles
    rw [readLines]
    dsimp only
    by_cases hempty : trim raw = []
    · rw [if_pos hempty, ih, contents, contents, List.map_cons, hempty,
        List.filter_cons_of_neg (by simp)]
    · have hcontents : contents trim (raw :: lines) = trim raw :: contents trim lines := by
        rw [contents, contents, List.map_cons, List.filter_cons_of_pos (by simpa using hempty)]
      have hpush : readLines trim read lines (linelst ++ [trim raw]) allfiles =
          some (true, linelst ++ contents trim (raw :: lines), allfiles) := by
        rw [ih, hcontents, List.append_assoc, List.singleton_append]
      rw [if_neg hempty]
      cases hfind : strFind inicfgIncludeStr (trim raw) with
      | none => exact hpush
      | some pos =>
        dsimp only
        rw [if_neg (key_ne_include ht hfind)]
        exact hpush

/-- The lines of the first file alone come out, whatever they are. -/
theorem readFileContents_eq (ht : TrimsSpaces trim blank) {filename : CStr}
    {lines : List CStr} (hname : filename ≠ []) (hfile : files filename = some lines) (fuel : Nat)
    (linelst allfiles : List CStr) :
    readFileContents trim files (fuel + 1) filename linelst allfiles =
      some (true, linelst ++ contents trim lines, allfiles) := by
  rw [readFileContents, if_neg hname, hfile]
  exact readLines_eq ht _ lines linelst allfiles

/-- `ReadFileContents` always ends, and it yields the expansion of the first file if and only if
that file has no INCLUDE line. -/
theorem readFileContents_iff (ht : TrimsSpaces trim blank) (files : CStr → Option (List CStr))
    {cfgfile : CStr} {lines : List CStr} (hname : cfgfile ≠ [])
    (hfile : files cfgfile = some lines) :
    (∃ fuel, (readFileContents trim files fuel cfgfile [] [cfgfile]).isSome = true) ∧
      ((∃ fuel out allfiles,
          readFileContents trim files fuel cfgfile [] [cfgfile] = some (true, out, allfiles) ∧
          ∃ met, Expansion trim files [cfgfile] (contents trim lines) out met) ↔
        ∀ line ∈ contents trim lines, includedFile trim line = none) := by
  have hrun := readFileContents_eq ht hname hfile
  refine ⟨⟨1, by rw [hrun]; rfl⟩, ?_⟩
  constructor
  · rintro ⟨fuel, out, allfiles, hout, met, hexpansion⟩
    cases fuel with
    | zero => cases hout
    | succ fuel =>
      rw [hrun, Option.some.injEq, Prod.mk.injEq, Prod.mk.injEq, List.nil_append] at hout
      obtain ⟨-, rfl, -⟩ := hout
      exact hexpansion.incl_eq_none
  · intro hplain
    exact ⟨1, _, _, hrun 0 [] [cfgfile], [cfgfile], Includes.Expands.of_plain hplain⟩

/-- There is an expansion, also of files that include each other, when every file that is named
is one of finitely many. -/
theorem expansion_exists {all cfglines : List CStr} {cfgfile : CStr}
    (hfiles : ∀ f lines, files f = some lines → ∀ line ∈ contents trim lines, ∀ g,
      includedFile trim line = some g → g ∈ all ∧ (files g).isSome = true)
    (hfile : files cfgfile = some cfglines) :
    ∃ out met, Expansion trim files [cfgfile] (contents trim cfglines) out met := by
  have hclosed : ∀ f ls, (files f).map (contents trim) = some ls →
      Includes.Expands.Closed (fun f => (files f).map (contents trim)) (includedFile trim)
        all ls := by
    intro f ls hls line hline g hincl
    obtain ⟨lines, hlines, rfl⟩ := Option.map_eq_some_iff.mp hls
    rw [Option.isSome_map]
    exact hfiles f lines hlines line hline g hincl
  have hstart : (files cfgfile).map (contents trim) = some (contents trim cfglines) := by
    rw [hfile, Option.map_some]
  obtain ⟨out, met, h, -⟩ := Includes.Expands.exists_of_closed hclosed
    (Includes.unmet all [cfgfile]) _ (hclosed cfgfile _ hstart) [cfgfile] (Nat.le_refl _)
  exact ⟨out, met, h⟩

/-! ### Two files that include each other -/

def sampleBlank (c : Nat) : Bool := c = 32 || 9 ≤ c && c ≤ 13

theorem sampleTrim : TrimsSpaces (Trim.both sampleBlank) sampleBlank where
  both := rfl
  spaces c hc := by
    simp only [sampleBlank, Bool.or_eq_true, Bool.and_eq_true, decide_eq_true_eq] at hc
    exact hc

/-- `INCLUDE = ` and the name of a file. -/
def includeLine (f : Nat) : CStr := inicfgIncludeStr ++ [32, 61, 32, f]

/-- File `a` with a line `x` that includes `b`, and file `b` with a line `y` that includes `a`. -/
def sampleFiles (f : CStr) : Option (List CStr) :=
  if f = [97] then some [[120], includeLine 98]
  else if f = [98] then some [[121], includeLine 97]
  else none

/-- The INCLUDE line itself comes out in the place of the line of the other file. -/
theorem readFileContents_ignores :
    readFileContents (Trim.both sampleBlank) sampleFiles 1 [97] [] [[97]] =
        some (true, [[120], includeLine 98], [[97]]) ∧
      includedFile (Trim.both sampleBlank) (includeLine 98) = some [98] ∧
      Expansion (Trim.both sampleBlank) sampleFiles [[97]] [[120], includeLine 98]
        [[120], [121]] [[97], [98]] := by
  refine ⟨by decide +kernel, by decide +kernel, ?_⟩
  have hb : includedFile (Trim.both sampleBlank) (includeLine 98) = some [98] := by
    decide +kernel
  have ha : includedFile (Trim.both sampleBlank) (includeLine 97) = some [97] := by
    decide +kernel
  have hfile : (sampleFiles [98]).map (contents (Trim.both sampleBlank)) =
      some [[121], includeLine 97] := by
    decide +kernel
  have hnew : [98] ∉ ([[97]] : List CStr) := by decide
  have hinner : Expansion (Trim.both sampleBlank) sampleFiles ([[97]] ++ [[98]])
      [[121], includeLine 97] [[121]] ([[97]] ++ [[98]]) :=
    .line (by decide +kernel) (.again ha (by decide) (.nil _))
  exact .line (by decide +kernel) (.first hb hnew hfile hinner (.nil _))

theorem readFileContents_iff_sample :
    ¬∃ fuel out allfiles,
      readFileContents (Trim.both sampleBlank) sampleFiles fuel [97] [] [[97]] =
          some (true, out, allfiles) ∧
        ∃ met, Expansion (Trim.both sampleBlank) sampleFiles [[97]]
          (contents (Trim.both sampleBlank) [[120], includeLine 98]) out met := by
  have hfile : sampleFiles [97] = some [[120], includeLine 98] := by decide +kernel
  rw [(readFileContents_iff sampleTrim sampleFiles (by decide) hfile).2]
  exact fun h => absurd (h (includeLine 98) (by decide +kernel)) (by decide +kernel)

end Conf
end Chm
