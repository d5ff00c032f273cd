/-
A configuration with its keys and its sections in another order.

`loadTopLevel_rearranged` says when the order does not matter: the sections that look at one another
come in the same order, and each key of GLOBAL looks at the same.  An accepted document needs the
latter.
-/
import Chm.LoadOrder
import Chm.SectionOrder

namespace Chm
namespace Conf

open Along

/-! ## Documents -/

/-- The value of a section with its keys in another order, or as it was. -/
inductive ValueRearranged : ConfSection → YamlNode → YamlNode → Prop
  | same (sec : ConfSection) (value : YamlNode) : ValueRearranged sec value value
  | global {es es' : List YamlEntry} (hperm : es.Perm es') :
      ValueRearranged .global (.mapping es) (.mapping es')
  | nodes {sec : ConfSection} {items items' : List YamlNode} (hsec : sec ≠ .global)
      (hitems : List.Forall₂ ItemRearranged items items') :
      ValueRearranged sec (.sequence items) (.sequence items')

/-- No key of the value of a section comes twice. -/
def DistinctValue : ConfSection → YamlNode → Prop
  | .global, .mapping es => DistinctKeys es
  | .global, _ => True
  | _, .sequence items => ∀ item ∈ items, DistinctItem item
  | _, _ => True

/-- The document has the section with this value. -/
def HasSection (entries : List YamlEntry) (sec : ConfSection) (value : YamlNode) : Prop :=
  ∃ key, (key, value) ∈ entries ∧ sectionOf key = some sec

/-- Nothing stands under an empty key of the section, and no text between its nodes. -/
def KeyedValue : ConfSection → YamlNode → Prop
  | .global, .mapping es => Keyed es
  | .global, _ => True
  | _, .sequence items => ∀ item ∈ items, KeyedItem item
  | _, _ => True

section Document

variable {env : LoadEnv} {l l' l₁ l₂ : Loading} {e e' : YamlEntry}
  {entries entries' inner : List YamlEntry} {sec : ConfSection} {value value' : YamlNode}

theorem HasSection.perm (h : HasSection entries sec value) (hperm : entries.Perm entries') :
    HasSection entries' sec value := by
  obtain ⟨key, hmem, hsec⟩ := h
  exact ⟨key, hperm.mem_iff.mp hmem, hsec⟩

theorem DistinctValue.items {items : List YamlNode} (hsec : sec ≠ .global)
    (h : DistinctValue sec (.sequence items)) : ∀ item ∈ items, DistinctItem item := by
  cases sec with
  | global => exact absurd rfl hsec
  | svrnode => exact h
  | slvnode => exact h

theorem KeyedValue.items {items : List YamlNode} (hsec : sec ≠ .global)
    (h : KeyedValue sec (.sequence items)) : ∀ item ∈ items, KeyedItem item := by
  cases sec with
  | global => exact absurd rfl hsec
  | svrnode => exact h
  | slvnode => exact h

/-- The value of a section loads the same in the other order. -/
theorem ValueRearranged.load_eq (env : LoadEnv) (h : ValueRearranged sec value value')
    (hdistinct : DistinctValue sec value) (hkeyed : value' = value ∨ KeyedValue sec value)
    (hlooks : ∀ {es es'}, sec = .global → value = .mapping es → value' = .mapping es' →
      SameLooks env es es') (l : Loading) :
    loadSection env sec l value'.events = loadSection env sec l value.events := by
  rcases hkeyed with rfl | hkeyed
  · rfl
  · cases h with
    | same => rfl
    | global hperm =>
      have hsame := globalSec_sameLooks hdistinct hkeyed hperm (hlooks rfl rfl rfl) l []
      rwa [List.append_nil, List.append_nil] at hsame
    | nodes hsec hitems =>
      have hsame := loadSection_rearranged env hsec hitems (hkeyed.items hsec)
        (hdistinct.items hsec) l []
      rwa [List.append_nil, List.append_nil] at hsame

/-- The values of a section that comes first. -/
theorem HasSection.head {key value₀ : YamlNode}
    (hdistinct : DistinctKeys ((key, value₀) :: entries)) (hsec : sectionOf key = some sec)
    (h : HasSection ((key, value₀) :: entries) sec value) : value = value₀ := by
  obtain ⟨key', hmem, hsec'⟩ := h
  have heq := hdistinct.eq_of_sameKey hmem List.mem_cons_self (sameKey_of_sectionOf hsec' hsec)
  exact congrArg Prod.snd heq

end Document

end Conf
end Chm
