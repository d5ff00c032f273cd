/-
The keys of a node in another order.

No key of a node looks at another one: each writes fields of its own, and the checks come at the end
of the node.  So the sections of nodes do the same for each order of the keys, unless something
stands under an empty key or between the nodes.
-/
import Chm.GlobalOrder

namespace Chm
namespace Conf

open Along

/-! ## Keys -/

/-- The fields of some keys from one node, and all other ones from another. -/
def NodeCfgInfo.blend (own : NodeKey → Bool) (n₀ n : NodeCfgInfo) : NodeCfgInfo where
  name := if own .name then n₀.name else n.name
  port := if own .port then n₀.port else n.port
  ctlport := if own .ctlport then n₀.ctlport else n.ctlport
  isSsl := if own .ssl then n₀.isSsl else n.isSsl
  verifyPeer := if own .sslVerifyPeer then n₀.verifyPeer else n.verifyPeer
  isCaFile := if own .capath then n₀.isCaFile else n.isCaFile
  capath := if own .capath then n₀.capath else n.capath
  serverCert := if own .serverCert then n₀.serverCert else n.serverCert
  serverPrikey := if own .serverPrikey then n₀.serverPrikey else n.serverPrikey
  slaveCert := if own .slaveCert then n₀.slaveCert else n.slaveCert
  slavePrikey := if own .slavePrikey then n₀.slavePrikey else n.slavePrikey
  cuk := if own .cuk then n₀.cuk else n.cuk
  endpoints := if own .endpoints then n₀.endpoints else n.endpoints
  ctlendpoints := if own .ctlendpoints then n₀.ctlendpoints else n.ctlendpoints
  forwardPeers := if own .forwardPeers then n₀.forwardPeers else n.forwardPeers
  reversePeers := if own .reversePeers then n₀.reversePeers else n.reversePeers
  customSeed := if own .customIdSeed then n₀.customSeed else n.customSeed

theorem NodeCfgInfo.blend_comm {own own' : NodeKey → Bool}
    (h : ∀ key, own key = true → own' key = false) (n₀ n₀' n : NodeCfgInfo) :
    blend own n₀ (blend own' n₀' n) = blend own' n₀' (blend own n₀ n) := by
  simp only [blend, ite_swap h]

/-- The fields of the key, if there is one. -/
def NodeCfgInfo.put (own : Option NodeKey) : NodeCfgInfo → NodeCfgInfo → NodeCfgInfo :=
  blend fun key => own = some key

/-- An entry of a node. -/
def nodeStep (env : LoadEnv) (table : List (String × NodeKey)) (n : NodeCfgInfo) (e : YamlEntry) :
    Option NodeCfgInfo :=
  match textsOf e with
  | none => none
  | some (key, value) => nodeEntry env table key value n

section Keys

variable {env : LoadEnv} {table : List (String × NodeKey)} {e e' : YamlEntry}
  {es es' : List YamlEntry}

theorem NodeKey.read_writes (key : NodeKey) (value : CStr) (n₀ : NodeCfgInfo) :
    WritesOnly NodeCfgInfo.put (some key) (key.read env value) := by
  have hmap : ∀ {β : Type} {o : Option β} {f : β → NodeCfgInfo → NodeCfgInfo},
      (∀ b n, f b n = NodeCfgInfo.put (some key) (f b n₀) n) →
        WritesOnly NodeCfgInfo.put (some key) fun n => o.map fun b => f b n := by
    intro β o f h
    cases o with
    | none => exact .fails fun n => rfl
    | some b => exact .puts (f b n₀) fun n => congrArg some (h b n)
  cases key
  case name => exact .puts { n₀ with name := value } fun n => rfl
  case port => exact .puts { n₀ with port := castShort (atoi value) } fun n => rfl
  case ctlport => exact .puts { n₀ with ctlport := castShort (atoi value) } fun n => rfl
  case cuk => exact .puts { n₀ with cuk := value } fun n => rfl
  case customIdSeed => exact .puts { n₀ with customSeed := value } fun n => rfl
  case capath =>
    by_cases hnull : isNullStr value = true
    · exact .puts { n₀ with isCaFile := false, capath := [] } fun n => if_pos hnull
    · cases hfile : capathFile env value with
      | none => exact .fails fun n => by rw [read, if_neg hnull, hfile]
      | some isCaFile =>
        by_cases hlen : chmMaxPathLen ≤ value.length
        · exact .fails fun n => by
            rw [read, if_neg hnull, hfile]
            exact if_pos hlen
        · exact .puts { n₀ with isCaFile := isCaFile, capath := value } fun n => by
            rw [read, if_neg hnull, hfile]
            exact if_neg hlen
  all_goals exact hmap fun b n => rfl

theorem nodeStep_writes (e : YamlEntry) (n₀ : NodeCfgInfo) :
    WritesOnly NodeCfgInfo.put (keyOf (NodeKey.ofText table) e)
      fun n => nodeStep env table n e := by
  simp only [nodeStep, nodeEntry, keyOf]
  cases textsOf e with
  | none => exact .fails fun n => rfl
  | some texts =>
    rw [Option.bind_some]
    dsimp only
    cases NodeKey.ofText table texts.1 with
    | none => exact .keeps fun n => rfl
    | some key => exact key.read_writes texts.2 n₀

theorem nodeStep_swaps (htable : (table.map (·.2)).Nodup) (hne : ¬sameKey e.1 e'.1) :
    Swaps (nodeStep env table) e e' := by
  intro n
  refine (nodeStep_writes e n).swaps (nodeStep_writes e' n) (fun v v' n => ?_) n
  refine NodeCfgInfo.blend_comm (fun key hkey => ?_) v v' n
  have hown := of_decide_eq_true hkey
  exact decide_eq_false fun hown' =>
    hne (sameKey_of_keyOf table (fun _ => rfl) htable hown hown')

/-- The node is read to the same in each order. -/
theorem run_nodeStep (htable : (table.map (·.2)).Nodup) (hdistinct : DistinctKeys es)
    (hperm : es.Perm es') (n : NodeCfgInfo) :
    run (nodeStep env table) n es = run (nodeStep env table) n es' :=
  run_perm hperm (hdistinct.imp fun hne => nodeStep_swaps htable hne) n

end Keys

/-! ## Nodes -/

/-- A node with its keys in another order, or an item as it was. -/
inductive ItemRearranged : YamlNode → YamlNode → Prop
  | same (item : YamlNode) : ItemRearranged item item
  | keys {es es' : List YamlEntry} (hperm : es.Perm es') :
      ItemRearranged (.mapping es) (.mapping es')

/-- Nothing stands under the empty key of a node, and no text between the nodes. -/
def KeyedItem : YamlNode → Prop
  | .scalar value => value = []
  | .sequence _ => True
  | .mapping es => Keyed es

/-- No key of a node comes twice. -/
def DistinctItem : YamlNode → Prop
  | .mapping es => DistinctKeys es
  | _ => True

section Nodes

variable {env : LoadEnv} {table : List (String × NodeKey)} {defaults : ConfCcv → NodeCfgInfo}
  {stop : NodeCfgInfo → Loading → Option Loading} {es : List YamlEntry}
  {items items' : List YamlNode}

theorem nodesLoop_entries (hempty : NodeKey.ofText table [] = none) (hkeyed : Keyed es)
    (n : NodeCfgInfo) (l : Loading) (rest : List YamlEvent) :
    nodesLoop env table defaults stop true [] n l (entryEvents es ++ .mappingEnd :: rest) =
      (run (nodeStep env table) n es).bind fun n => (stop n l).bind fun l =>
        nodesLoop env table defaults stop false [] n l rest := by
  induction es generalizing n with
  | nil =>
    rw [entryEvents, List.nil_append, nodesLoop, if_pos rfl, run, Option.bind_some]
    cases stop n l <;> rfl
  | cons e es ih =>
    obtain ⟨key, value⟩ := e
    have hkeyed' : Keyed es := fun v hmem => hkeyed v (List.mem_cons_of_mem _ hmem)
    rw [entryEvents, List.append_assoc, List.append_assoc, run]
    cases key with
    | scalar key =>
      cases value with
      | scalar value =>
        rw [YamlNode.events, YamlNode.events]
        show nodesLoop env table defaults stop true [] n l
          (.scalar key :: .scalar value :: (entryEvents es ++ .mappingEnd :: rest)) = _
        have hstep : nodeStep env table n (.scalar key, .scalar value) =
            nodeEntry env table key value n := rfl
        rw [hstep]
        by_cases hkey : key = []
        · subst hkey
          obtain rfl := hkeyed value List.mem_cons_self
          have hentry : nodeEntry env table [] [] n = some n := by
            rw [nodeEntry, hempty]
          rw [hentry]
          exact ih hkeyed' n
        · rw [nodesLoop, if_pos rfl, nodesLoop, if_neg hkey]
          cases nodeEntry env table key value n with
          | none => rfl
          | some n' => exact ih hkeyed' n'
      | _ =>
        rw [YamlNode.events, YamlNode.events]
        show nodesLoop env table defaults stop true [] n l (.scalar key :: _) = _
        rw [nodesLoop, if_pos rfl]
        rfl
    | _ =>
      rw [YamlNode.events]
      rfl

/-- The nodes are read to the same with their keys in another order. -/
theorem nodesLoop_rearranged (hempty : NodeKey.ofText table [] = none)
    (htable : (table.map (·.2)).Nodup) (hitems : List.Forall₂ ItemRearranged items items')
    (hkeyed : ∀ item ∈ items, KeyedItem item) (hdistinct : ∀ item ∈ items, DistinctItem item)
    (n : NodeCfgInfo) (l : Loading) (rest : List YamlEvent) :
    nodesLoop env table defaults stop false [] n l (itemEvents items' ++ rest) =
      nodesLoop env table defaults stop false [] n l (itemEvents items ++ rest) := by
  induction hitems generalizing n l with
  | nil => rfl
  | @cons item item' items items' hitem _ ih =>
    have hrest := ih (fun i hi => hkeyed i (List.mem_cons_of_mem _ hi))
      (fun i hi => hdistinct i (List.mem_cons_of_mem _ hi))
    have hkeyedItem := hkeyed item List.mem_cons_self
    rw [itemEvents, itemEvents, List.append_assoc, List.append_assoc]
    have hmapping : ∀ {es es' : List YamlEntry}, es.Perm es' → Keyed es → DistinctKeys es →
        nodesLoop env table defaults stop false [] n l
            ((YamlNode.mapping es').events ++ (itemEvents items' ++ rest)) =
          nodesLoop env table defaults stop false [] n l
            ((YamlNode.mapping es).events ++ (itemEvents items ++ rest)) := by
      intro es es' hperm hkeyed hdistinct
      have hnode : ∀ {es : List YamlEntry} (rest : List YamlEvent), Keyed es →
          nodesLoop env table defaults stop false [] n l ((YamlNode.mapping es).events ++ rest) =
            (run (nodeStep env table) (defaults l.ccv) es).bind fun n => (stop n l).bind fun l =>
              nodesLoop env table defaults stop false [] n l rest := by
        intro es rest hkeyed
        rw [YamlNode.events, List.cons_append, List.append_assoc, List.singleton_append]
        exact nodesLoop_entries hempty hkeyed (defaults l.ccv) l rest
      rw [hnode _ hkeyed, hnode _ (hkeyed.perm hperm), run_nodeStep htable hdistinct hperm]
      simp only [hrest]
    cases hitem with
    | keys hperm => exact hmapping hperm hkeyedItem (hdistinct _ List.mem_cons_self)
    | same _ =>
      cases item with
      | scalar value =>
        obtain rfl : value = [] := hkeyedItem
        exact hrest n l
      | sequence _ =>
        rw [YamlNode.events]
        rfl
      | mapping es => exact hmapping (.refl es) hkeyedItem (hdistinct _ List.mem_cons_self)

/-- A section of nodes does the same with the keys of its nodes in another order. -/
theorem loadSection_rearranged (env : LoadEnv) {sec : ConfSection} (hsec : sec ≠ .global)
    (hitems : List.Forall₂ ItemRearranged items items') (hkeyed : ∀ item ∈ items, KeyedItem item)
    (hdistinct : ∀ item ∈ items, DistinctItem item) (l : Loading) (rest : List YamlEvent) :
    loadSection env sec l ((YamlNode.sequence items').events ++ rest) =
      loadSection env sec l ((YamlNode.sequence items).events ++ rest) := by
  rw [YamlNode.events, YamlNode.events, List.cons_append, List.cons_append, List.append_assoc,
    List.append_assoc]
  cases sec with
  | global => exact absurd rfl hsec
  | svrnode =>
    rw [loadSection, svrnodeSec, svrnodeSec]
    dsimp only
    rw [nodesLoop_rearranged (by decide) (by decide) hitems hkeyed hdistinct]
  | slvnode =>
    rw [loadSection, slvnodeSec, slvnodeSec]
    dsimp only
    rw [nodesLoop_rearranged (by decide) (by decide) hitems hkeyed hdistinct]

end Nodes

end Conf
end Chm
