/-
Sections that may change places.

A document is read as a run over the entries of its top level.  A section of nodes looks at GLOBAL,
and SLVNODE looks at SVRNODE as well, when there are nodes in it; all other entries swap.
-/
import Chm.NodeOrder

namespace Chm
namespace Conf

open Along

/-! ## The run over a document -/

/-- The section that a key of the top level names. -/
def sectionOf : YamlNode → Option ConfSection
  | .scalar key => ConfSection.ofText key
  | _ => none

section Document

variable {env : LoadEnv}

end Document

/-! ## What a section leaves alone -/

/-- A change of fields that the GLOBAL section neither reads nor writes. -/
structure OutsideGlobal (env : LoadEnv) (f : Loading → Loading) : Prop where
  seen : ∀ l, (f l).seen = l.seen
  put : ∀ own l₀ l, Loading.put own l₀ (f l) = f (Loading.put own l₀ l)
  defaults : ∀ l, globalDefaults env (f l) = f (globalDefaults env l)
  accepted : ∀ l, globalAccepted (f l) = globalAccepted l

section Outside

variable {env : LoadEnv} {f : Loading → Loading}

theorem OutsideGlobal.entry (h : OutsideGlobal env f) (key value : CStr) (l : Loading) :
    globalEntry env key value (f l) = (globalEntry env key value l).map f := by
  rw [globalEntry, globalEntry]
  cases GlobalKey.ofText key with
  | none => rfl
  | some k =>
    dsimp only
    rw [k.read_look, k.read_look l, h.seen]
    cases k.readLook_writes env value l.seen l with
    | fails hfails => rw [hfails, hfails, Option.map_none]
    | keeps hkeeps => rw [hkeeps, hkeeps, Option.map_some]
    | puts l₁ hputs => rw [hputs, hputs, Option.map_some, h.put]

theorem OutsideGlobal.loop (h : OutsideGlobal env f) (key : CStr) (l : Loading)
    (events : List YamlEvent) :
    globalLoop env key (f l) events =
      (globalLoop env key l events).map fun r => (f r.1, r.2) := by
  fun_induction globalLoop env key l events with
  | case1 key l events hok =>
    rw [globalLoop, h.accepted, if_pos hok]
    rfl
  | case2 key l events hok =>
    rw [globalLoop, h.accepted, if_neg hok]
    rfl
  | case3 l value events ih =>
    rw [globalLoop, if_pos rfl]
    exact ih
  | case4 key l value events hkey hentry =>
    rw [globalLoop, if_neg hkey, h.entry, hentry]
    rfl
  | case5 key l value events hkey l' hentry ih =>
    rw [globalLoop, if_neg hkey, h.entry, hentry]
    exact ih
  | case6 key l events h₁ h₂ =>
    rw [globalLoop.eq_def]
    split
    · exact absurd rfl (h₁ _)
    · exact absurd rfl (h₂ _ _)
    · rfl

/-- What the end of a server has found. -/
def Loading.found (l : Loading) (n : NodeCfgInfo) : Loading where
  cfg := l.cfg
  ccv := { l.ccv with
    foundSsl := l.ccv.foundSsl || n.isSsl
    foundSslVerifyPeer := l.ccv.foundSslVerifyPeer || n.verifyPeer }

end Outside

/-! ## Sections that swap -/

section Swaps

variable {env : LoadEnv} {sec sec' : ConfSection} {a b : YamlEntry}

theorem ConfSection.name_of_ofText (sec : ConfSection) :
    ∃ name, ∀ text, ofText text = some sec → eqNoCase (cstr name) text = true := by
  cases sec with
  | global =>
    refine ⟨"GLOBAL", fun text h => ?_⟩
    rw [ofText] at h
    split at h
    · assumption
    · split at h
      · cases h
      · split at h <;> cases h
  | svrnode =>
    refine ⟨"SVRNODE", fun text h => ?_⟩
    rw [ofText] at h
    split at h
    · cases h
    · split at h
      · assumption
      · split at h <;> cases h
  | slvnode =>
    refine ⟨"SLVNODE", fun text h => ?_⟩
    rw [ofText] at h
    split at h
    · cases h
    · split at h
      · cases h
      · split at h
        · assumption
        · cases h

theorem sameKey_of_sectionOf {key key' : YamlNode} (h : sectionOf key = some sec)
    (h' : sectionOf key' = some sec) : sameKey key key' := by
  obtain ⟨name, hname⟩ := sec.name_of_ofText
  cases key with
  | scalar text =>
    cases key' with
    | scalar text' =>
      have htext := hname text h
      have htext' := hname text' h'
      rw [eqNoCase, beq_iff_eq] at htext htext'
      rw [sameKey, eqNoCase, beq_iff_eq]
      exact htext.symm.trans htext'
    | _ => cases h'
  | _ => cases h

end Swaps

end Conf
end Chm
