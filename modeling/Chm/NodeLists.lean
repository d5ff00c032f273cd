/-
The order of the nodes of a configuration, and which of them are the same.

Both loaders end a list of nodes with `unique` and `sort`.  `unique` takes an entry away that is
the same as the one right before it, in the order in which they were loaded.
-/
import Chm.CfgInfo
import Chm.Lib.Grouped
import Mathlib.Data.List.Sort
import Mathlib.Data.Prod.Lex
import Mathlib.Order.Lex

namespace Chm
namespace Conf

namespace NodeCfgInfo

/-- `chm_node_cfg_info_sort`. -/
def sortLt (l r : NodeCfgInfo) : Bool :=
  if l.name = r.name then
    if l.port = r.port then
      if l.ctlport = r.ctlport then l.cuk < r.cuk else l.ctlport < r.ctlport
    else l.port < r.port
  else l.name < r.name

/-- `chm_node_cfg_info_same_name_other`. -/
def sameNameOther (l r : NodeCfgInfo) : Bool :=
  l.name = r.name && l.ctlport = r.ctlport && l.cuk = r.cuk

end NodeCfgInfo

/-- `list::unique` with `chm_node_cfg_info_same_name_other`. -/
def unique (nodes : List NodeCfgInfo) : List NodeCfgInfo :=
  nodes.destutter fun a b => ¬a.sameNameOther b

/-- `list::sort` with `chm_node_cfg_info_sort`. -/
def sort (nodes : List NodeCfgInfo) : List NodeCfgInfo :=
  nodes.mergeSort fun a b => !b.sortLt a

/-! ## The two at the end of a load -/

namespace NodeCfgInfo

/-- Name, control port and CUK. -/
def ident (n : NodeCfgInfo) : CStr × Int × CStr := (n.name, n.ctlport, n.cuk)

/-- What the nodes are sorted by. -/
def sortKey (n : NodeCfgInfo) : CStr ×ₗ Int ×ₗ Int ×ₗ CStr :=
  toLex (n.name, toLex (n.port, toLex (n.ctlport, n.cuk)))

variable {a b : NodeCfgInfo}

theorem sameNameOther_iff : a.sameNameOther b = true ↔ a.ident = b.ident := by
  simp [sameNameOther, ident, and_assoc]

theorem sortLt_iff : a.sortLt b = true ↔ a.sortKey < b.sortKey := by
  rw [sortKey, sortKey, Prod.Lex.toLex_lt_toLex, Prod.Lex.toLex_lt_toLex,
    Prod.Lex.toLex_lt_toLex, sortLt]
  split
  · rename_i hname
    split
    · rename_i hport
      split
      · rename_i hctlport
        simp [hname, hport, hctlport]
      · rename_i hctlport
        simp [hname, hport, hctlport]
    · rename_i hport
      simp [hname, hport]
  · rename_i hname
    simp [hname]

end NodeCfgInfo

/-- No two nodes of the list have the same name, control port and CUK. -/
def Distinct (nodes : List NodeCfgInfo) : Prop :=
  nodes.Pairwise fun a b => a.sameNameOther b = false

/-- No node of the list comes before one behind it. -/
def Sorted (nodes : List NodeCfgInfo) : Prop := nodes.Pairwise fun a b => b.sortLt a = false

variable {nodes : List NodeCfgInfo}

theorem distinct_iff : Distinct nodes ↔ (nodes.map NodeCfgInfo.ident).Nodup := by
  rw [Distinct, List.Nodup, List.pairwise_map]
  refine List.Pairwise.iff fun {a b} => ?_
  rw [← Bool.not_eq_true, NodeCfgInfo.sameNameOther_iff]

theorem sorted_sort (nodes : List NodeCfgInfo) : Sorted (sort nodes) := by
  have hle : ∀ a b : NodeCfgInfo, (!b.sortLt a) = true ↔ a.sortKey ≤ b.sortKey := by
    intro a b
    rw [Bool.not_eq_true', ← Bool.not_eq_true, NodeCfgInfo.sortLt_iff, not_lt]
  have hsorted : (sort nodes).Pairwise fun a b => (!b.sortLt a) = true := by
    refine List.pairwise_mergeSort (fun a b c hab hbc => ?_) (fun a b => ?_) nodes
    · exact (hle a c).mpr (((hle a b).mp hab).trans ((hle b c).mp hbc))
    · rw [Bool.or_eq_true, hle, hle]
      exact le_total _ _
  exact hsorted.imp fun h => Bool.not_eq_true' _ ▸ h

/-- `unique` and `sort` leave no duplicates when the nodes that are the same stand side by side. -/
theorem distinct_sort_unique :
    Distinct (sort (unique nodes)) ↔ (nodes.map NodeCfgInfo.ident).Grouped := by
  have hperm := (List.mergeSort_perm (unique nodes) fun a b => !b.sortLt a).map NodeCfgInfo.ident
  have hunique : (unique nodes).map NodeCfgInfo.ident =
      (nodes.map NodeCfgInfo.ident).destutter (· ≠ ·) :=
    List.map_destutter fun a _ b _ => not_congr NodeCfgInfo.sameNameOther_iff
  rw [distinct_iff, sort, hperm.nodup_iff, hunique, List.nodup_destutter_ne_iff]

end Conf
end Chm
