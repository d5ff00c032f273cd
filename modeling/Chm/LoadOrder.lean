/-
Duplicates in the loaded lists of nodes.

A node is known by its name, its control port and its CUK.  `loadOrder` and the two functions of
the INI file collect just these, in the order in which the loader meets the nodes.  Both loaders
call `unique` before `sort`, so a node that comes twice is left twice unless it comes twice in a
row.
-/
import Chm.IniLoad

namespace Chm
namespace Conf

/-! ## The nodes in the order of the events -/

/-- Name, control port and CUK of a node. -/
abbrev NodeIdent := CStr × Int × CStr

/-- The control port that nodes have without one of their own, and the nodes so far. -/
structure LoadOrder where
  ctlport : Int
  servers : List NodeIdent
  slaves : List NodeIdent
  deriving DecidableEq, Repr

/-- The control port of a GLOBAL section. -/
def orderGlobal (key : CStr) (ctlport : Int) : List YamlEvent → Option (Int × List YamlEvent)
  | .mappingEnd :: events => some (ctlport, events)
  | .scalar value :: events =>
    if key = [] then orderGlobal value ctlport events
    else if GlobalKey.ofText key = some .ctlport then orderGlobal [] (castShort (atoi value)) events
    else orderGlobal [] ctlport events
  | _ => none

/-- A key with its value in a node. -/
def orderEntry (table : List (String × NodeKey)) (key value : CStr) (id : NodeIdent) : NodeIdent :=
  match NodeKey.ofText table key with
  | some .name => (value, id.2)
  | some .ctlport => (id.1, castShort (atoi value), id.2.2)
  | some .cuk => (id.1, id.2.1, value)
  | _ => id

/-- The nodes of a section. -/
def orderNodes (table : List (String × NodeKey)) (expand : NodeIdent → List NodeIdent)
    (ctlport : Int) (key : CStr) (id : NodeIdent) (ids : List NodeIdent) :
    List YamlEvent → Option (List NodeIdent × List YamlEvent)
  | .mappingStart :: events => orderNodes table expand ctlport key ([], ctlport, []) ids events
  | .mappingEnd :: events => orderNodes table expand ctlport key id (ids ++ expand id) events
  | .sequenceEnd :: events => some (ids, events)
  | .scalar value :: events =>
    if key = [] then orderNodes table expand ctlport value id ids events
    else orderNodes table expand ctlport [] (orderEntry table key value id) ids events
  | _ => none

/-- The names that a server name stands for. -/
def expandServer (env : LoadEnv) (nodehosts : CStr → List CStr) (id : NodeIdent) :
    List NodeIdent :=
  ((env.expandSimpleRegexHostname id.1).getD []).map fun host =>
    ((nodehostList env (nodehosts host) host).headD [], id.2)

/-- A section. -/
def orderSection (env : LoadEnv) (sec : ConfSection) (o : LoadOrder) :
    List YamlEvent → Option (LoadOrder × List YamlEvent)
  | .mappingStart :: events =>
    if sec = .global then
      (orderGlobal [] chmInvalidPort events).map fun r => ({ o with ctlport := r.1 }, r.2)
    else none
  | .sequenceStart :: events =>
    match sec with
    | .global => none
    | .svrnode =>
      (orderNodes NodeKey.svrTable (expandServer env fun _ => []) o.ctlport [] ([], 0, []) []
        events).map fun r => ({ o with servers := r.1 }, r.2)
    | .slvnode =>
      (orderNodes NodeKey.slvTable (fun id => [id]) o.ctlport [] ([], 0, []) [] events).map
        fun r => ({ o with slaves := r.1 }, r.2)
  | _ => none

theorem orderGlobal_length {key : CStr} {ctlport : Int} {events : List YamlEvent}
    {r : Int × List YamlEvent} (h : orderGlobal key ctlport events = some r) :
    r.2.length < events.length := by
  fun_induction orderGlobal key ctlport events with
  | case1 key ctlport events =>
    obtain rfl := Option.some.inj h
    exact Nat.lt_succ_self _
  | case2 ctlport value events ih => exact Nat.lt_succ_of_lt (ih h)
  | case3 key ctlport value events _ _ ih => exact Nat.lt_succ_of_lt (ih h)
  | case4 key ctlport value events _ _ ih => exact Nat.lt_succ_of_lt (ih h)
  | case5 => cases h

theorem orderNodes_length {table : List (String × NodeKey)} {expand : NodeIdent → List NodeIdent}
    {ctlport : Int} {key : CStr} {id : NodeIdent} {ids : List NodeIdent} {events : List YamlEvent}
    {r : List NodeIdent × List YamlEvent}
    (h : orderNodes table expand ctlport key id ids events = some r) :
    r.2.length < events.length := by
  fun_induction orderNodes table expand ctlport key id ids events with
  | case1 key id ids events ih => exact Nat.lt_succ_of_lt (ih h)
  | case2 key id ids events ih => exact Nat.lt_succ_of_lt (ih h)
  | case3 key id ids events =>
    obtain rfl := Option.some.inj h
    exact Nat.lt_succ_self _
  | case4 id ids value events ih => exact Nat.lt_succ_of_lt (ih h)
  | case5 key id ids value events _ ih => exact Nat.lt_succ_of_lt (ih h)
  | case6 => cases h

theorem orderSection_length {env : LoadEnv} {sec : ConfSection} {o : LoadOrder}
    {events : List YamlEvent} {r : LoadOrder × List YamlEvent}
    (h : orderSection env sec o events = some r) : r.2.length < events.length := by
  rw [orderSection.eq_def] at h
  split at h
  · split at h
    · obtain ⟨r', hr', rfl⟩ := Option.map_eq_some_iff.mp h
      exact Nat.lt_succ_of_lt (orderGlobal_length hr')
    · cases h
  · split at h
    · cases h
    · obtain ⟨r', hr', rfl⟩ := Option.map_eq_some_iff.mp h
      exact Nat.lt_succ_of_lt (orderNodes_length hr')
    · obtain ⟨r', hr', rfl⟩ := Option.map_eq_some_iff.mp h
      exact Nat.lt_succ_of_lt (orderNodes_length hr')
  · cases h

/-- The nodes of the events, section by section. -/
def orderLoader (env : LoadEnv) : SectionLoader LoadOrder := ⟨orderSection env, orderSection_length⟩

/-- The nodes in the order in which they are loaded. -/
def loadOrder (env : LoadEnv) (events : List YamlEvent) : Option LoadOrder :=
  topLevelLoop (orderLoader env) .start ⟨chmInvalidPort, [], []⟩ events

/-! ## The nodes in the order of an INI file -/

/-- The control port of the GLOBAL section. -/
def iniCtlport (raw : CfgRaw) : Int :=
  match raw.global.find "CTLPORT" with
  | none => chmInvalidPort
  | some value => castShort (atoi value)

/-- A node of an INI file. -/
def iniIdent (raw : CfgRaw) (m : StrMap) : NodeIdent :=
  ((m.find "NAME").getD [],
    match m.find "CTLPORT" with
    | none => iniCtlport raw
    | some value => castShort (atoi value),
    (m.find "CUK").getD [])

/-- The servers in the order in which they are loaded. -/
def iniServers (env : LoadEnv) (raw : CfgRaw) : List NodeIdent :=
  raw.serverNodes.flatMap fun m => expandServer env (fun host => [host]) (iniIdent raw m)

/-- The slaves in the order in which they are loaded. -/
def iniSlaves (raw : CfgRaw) : List NodeIdent := raw.slaveNodes.map (iniIdent raw)

/-! ## What a value of the GLOBAL section leaves -/

/-- The lists of nodes are as they were, and the control port is the one given. -/
structure Leaves (ctlport : Int) (l l' : Loading) : Prop where
  servers : l'.cfg.servers = l.cfg.servers
  slaves : l'.cfg.slaves = l.cfg.slaves
  ctlport : l'.ccv.ctlport = ctlport

variable {env : LoadEnv} {l l' : Loading} {value : CStr}

theorem GlobalKey.read_leaves {key : GlobalKey} (h : key.read env value l = some l') :
    Leaves (if key = .ctlport then castShort (atoi value) else l.ccv.ctlport) l l' := by
  cases key <;> simp only [GlobalKey.read] at h <;> (repeat' split at h) <;>
    first
    | cases h; exact ⟨rfl, rfl, rfl⟩
    | obtain ⟨_, _, rfl⟩ := Option.map_eq_some_iff.mp h; exact ⟨rfl, rfl, rfl⟩
    | cases h

theorem iniRead_leaves {key : GlobalKey} (h : iniRead env key value l = some l') :
    Leaves (if key = .ctlport then castShort (atoi value) else l.ccv.ctlport) l l' := by
  rw [iniRead.eq_def] at h
  split at h
  iterate 4
    split at h
    · cases h
      exact ⟨rfl, rfl, rfl⟩
    · exact GlobalKey.read_leaves h
  · split at h
    · cases h
    · split at h
      · cases h
      · cases h
        exact ⟨rfl, rfl, rfl⟩
  · split at h
    · cases h
    · split at h
      · cases h
      · split at h
        · cases h
        · cases h
          exact ⟨rfl, rfl, rfl⟩
  · exact GlobalKey.read_leaves h

theorem globalEntry_leaves {key : CStr} (h : globalEntry env key value l = some l') :
    Leaves (if GlobalKey.ofText key = some .ctlport then castShort (atoi value)
      else l.ccv.ctlport) l l' := by
  rw [globalEntry] at h
  split at h
  · rename_i k hk
    rw [hk]
    have hleaves := GlobalKey.read_leaves h
    simpa only [Option.some.injEq] using hleaves
  · rename_i hk
    obtain rfl := Option.some.inj h
    rw [hk]
    exact ⟨rfl, rfl, rfl⟩

theorem globalLoop_order {key : CStr} {events rest : List YamlEvent}
    (h : globalLoop env key l events = some (l', rest)) :
    orderGlobal key l.ccv.ctlport events = some (l'.ccv.ctlport, rest) ∧
      Leaves l'.ccv.ctlport l l' := by
  fun_induction globalLoop env key l events with
  | case1 key l events hok =>
    cases h
    exact ⟨rfl, rfl, rfl, rfl⟩
  | case2 => cases h
  | case3 l value events ih =>
    rw [orderGlobal, if_pos rfl]
    exact ih h
  | case4 => cases h
  | case5 key l value events hkey l₁ hentry ih =>
    have hleaves := globalEntry_leaves hentry
    obtain ⟨horder, hkeep⟩ := ih h
    refine ⟨?_, hkeep.servers.trans hleaves.servers, hkeep.slaves.trans hleaves.slaves, rfl⟩
    rw [hleaves.ctlport] at horder
    rw [orderGlobal, if_neg hkey, ← horder]
    split <;> rfl
  | case6 => cases h

/-! ## What a node is known by -/

theorem nodeEntry_ident {table : List (String × NodeKey)} {key : CStr} {n n' : NodeCfgInfo}
    (h : nodeEntry env table key value n = some n') :
    n'.ident = orderEntry table key value n.ident := by
  rw [nodeEntry] at h
  rw [orderEntry.eq_def]
  cases hkey : NodeKey.ofText table key with
  | none =>
    rw [hkey] at h
    obtain rfl := Option.some.inj h
    rfl
  | some k =>
    rw [hkey] at h
    cases k <;> simp only [NodeKey.read] at h <;> (repeat' split at h) <;>
      first
      | cases h; rfl
      | obtain ⟨_, _, rfl⟩ := Option.map_eq_some_iff.mp h; rfl
      | cases h

section Nodes

variable {table : List (String × NodeKey)} {defaults : ConfCcv → NodeCfgInfo}
  {stop : NodeCfgInfo → Loading → Option Loading} {inMapping : Bool} {key : CStr}
  {n : NodeCfgInfo} {events rest : List YamlEvent}

/-- What the end of a node leaves is left by the section. -/
theorem nodesLoop_keeps {β : Type} {g : Loading → β}
    (hstop : ∀ {n l l'}, stop n l = some l' → g l' = g l)
    (h : nodesLoop env table defaults stop inMapping key n l events = some (l', rest)) :
    g l' = g l := by
  fun_induction nodesLoop env table defaults stop inMapping key n l events with
  | case1 => cases h
  | case2 key n l inMapping events _ ih => exact ih h
  | case3 => cases h
  | case4 key n l events l₁ hl₁ ih => exact (ih h).trans (hstop hl₁)
  | case5 => cases h
  | case6 => cases h
  | case7 key n l inMapping events =>
    cases h
    rfl
  | case8 n l inMapping value events ih => exact ih h
  | case9 => cases h
  | case10 key n l inMapping value events _ n' _ ih => exact ih h
  | case11 => cases h

/-- The nodes of a section are put behind a list in the order of the events. -/
theorem nodesLoop_order {f : Loading → List NodeIdent} {expand : NodeIdent → List NodeIdent}
    (hdefaults : ∀ ccv, (defaults ccv).ident = ([], ccv.ctlport, []))
    (hstop : ∀ {n l l'}, stop n l = some l' → f l' = f l ++ expand n.ident)
    (hkeep : ∀ {n l l'}, stop n l = some l' → l'.ccv.ctlport = l.ccv.ctlport)
    (h : nodesLoop env table defaults stop inMapping key n l events = some (l', rest)) :
    orderNodes table expand l.ccv.ctlport key n.ident (f l) events = some (f l', rest) := by
  fun_induction nodesLoop env table defaults stop inMapping key n l events with
  | case1 => cases h
  | case2 key n l inMapping events _ ih =>
    have horder := ih h
    rw [hdefaults] at horder
    exact horder
  | case3 => cases h
  | case4 key n l events l₁ hl₁ ih =>
    have horder := ih h
    rw [hstop hl₁, hkeep hl₁] at horder
    exact horder
  | case5 => cases h
  | case6 => cases h
  | case7 key n l inMapping events =>
    cases h
    rfl
  | case8 n l inMapping value events ih =>
    rw [orderNodes, if_pos rfl]
    exact ih h
  | case9 => cases h
  | case10 key n l inMapping value events hkey n' hentry ih =>
    have horder := ih h
    rw [nodeEntry_ident hentry] at horder
    rw [orderNodes, if_neg hkey]
    exact horder
  | case11 => cases h

end Nodes

/-- The names of a server that are put behind the list. -/
theorem foldl_addServer (n : NodeCfgInfo) (hosts : List CStr) (l : Loading) :
    ((hosts.foldl (addServer env n) l).cfg.servers.map NodeCfgInfo.ident =
      l.cfg.servers.map NodeCfgInfo.ident ++
        hosts.map fun host => ((nodehostList env [] host).headD [], n.ident.2)) ∧
    (hosts.foldl (addServer env n) l).cfg.slaves = l.cfg.slaves ∧
    (hosts.foldl (addServer env n) l).ccv.ctlport = l.ccv.ctlport := by
  induction hosts generalizing l with
  | nil => exact ⟨(List.append_nil _).symm, rfl, rfl⟩
  | cons host hosts ih =>
    obtain ⟨hservers, hslaves, hctlport⟩ := ih (addServer env n l host)
    refine ⟨?_, hslaves, hctlport⟩
    rw [List.foldl_cons, hservers, addServer]
    simp [NodeCfgInfo.ident]

theorem svrnodeStop_order {n : NodeCfgInfo} (h : svrnodeStop env n l = some l') :
    (l'.cfg.servers.map NodeCfgInfo.ident =
      l.cfg.servers.map NodeCfgInfo.ident ++ expandServer env (fun _ => []) n.ident) ∧
    l'.cfg.slaves = l.cfg.slaves ∧ l'.ccv.ctlport = l.ccv.ctlport := by
  obtain ⟨hosts, hexpand, rfl⟩ := svrnodeStop_some h
  have hid : expandServer env (fun _ => []) n.ident =
      hosts.map fun host => ((nodehostList env [] host).headD [], n.ident.2) := by
    rw [expandServer, NodeCfgInfo.ident, hexpand, Option.getD_some]
  rw [hid]
  exact foldl_addServer _ hosts _

theorem slvnodeStop_order {n : NodeCfgInfo} (h : slvnodeStop env n l = some l') :
    l'.cfg.slaves.map NodeCfgInfo.ident = l.cfg.slaves.map NodeCfgInfo.ident ++ [n.ident] ∧
    l'.cfg.servers = l.cfg.servers ∧ l'.ccv.ctlport = l.ccv.ctlport := by
  rw [slvnodeStop_some h]
  exact ⟨by simp [NodeCfgInfo.ident], rfl, rfl⟩

/-! ## Both loaders -/

/-- The lists hold what `unique` and `sort` leave of the nodes in order. -/
structure Follows (l : Loading) (o : LoadOrder) : Prop where
  ctlport : l.ccv.ctlport = o.ctlport
  servers : ∃ nodes, l.cfg.servers = sort (unique nodes) ∧
    nodes.map NodeCfgInfo.ident = o.servers
  slaves : ∃ nodes, l.cfg.slaves = sort (unique nodes) ∧ nodes.map NodeCfgInfo.ident = o.slaves

/-- A relation that the sections keep is kept by the load. -/
theorem topLevelLoop_sim {σ τ : Type} {loader : SectionLoader σ} {loader' : SectionLoader τ}
    {R : σ → τ → Prop}
    (hsec : ∀ {sec s s' t events rest}, R s t → loader.load sec s events = some (s', rest) →
      ∃ t', loader'.load sec t events = some (t', rest) ∧ R s' t')
    {st : TopLevel} {s s' : σ} {t : τ} {events : List YamlEvent} (hR : R s t)
    (h : topLevelLoop loader st s events = some s') :
    ∃ t', topLevelLoop loader' st t events = some t' ∧ R s' t' := by
  fun_induction topLevelLoop loader st s events generalizing t with
  | case1 => cases h
  | case2 => cases h
  | case3 st s events st' hnext =>
    obtain rfl := Option.some.inj h
    exact ⟨t, by rw [topLevelLoop, hnext]; rfl, hR⟩
  | case4 st s ev events st' hnext hne ih =>
    rw [topLevelLoop_next hnext hne]
    exact ih hR h
  | case5 => cases h
  | case6 st s ev events st' sec hnext s₁ rest hload ih =>
    obtain ⟨t₁, hload', hR₁⟩ := hsec hR hload
    rw [topLevelLoop_section hnext, hload', Option.bind_some]
    exact ih hR₁ h

theorem loadSection_order {sec : ConfSection} {o : LoadOrder} {events rest : List YamlEvent}
    (hR : Follows l o) (h : loadSection env sec l events = some (l', rest)) :
    ∃ o', orderSection env sec o events = some (o', rest) ∧ Follows l' o' := by
  cases sec with
  | global =>
    rw [loadSection, globalSec.eq_def] at h
    split at h
    · obtain ⟨horder, hleaves⟩ := globalLoop_order h
      refine ⟨{ o with ctlport := l'.ccv.ctlport }, ?_, rfl, ?_, ?_⟩
      · rw [orderSection, if_pos rfl]
        exact Option.map_eq_some_iff.mpr ⟨_, horder, rfl⟩
      · rw [hleaves.servers]
        exact hR.servers
      · rw [hleaves.slaves]
        exact hR.slaves
    · cases h
  | svrnode =>
    obtain ⟨items, l₁, rfl, hloop, rfl⟩ := svrnodeSec_some h
    have horder := nodesLoop_order (f := fun l => l.cfg.servers.map NodeCfgInfo.ident)
      (fun _ => rfl) (fun hstop => (svrnodeStop_order hstop).1)
      (fun hstop => (svrnodeStop_order hstop).2.2) hloop
    have hslaves := nodesLoop_keeps (g := fun l => l.cfg.slaves)
      (fun hstop => (svrnodeStop_order hstop).2.1) hloop
    have hctlport := nodesLoop_keeps (g := fun l => l.ccv.ctlport)
      (fun hstop => (svrnodeStop_order hstop).2.2) hloop
    refine ⟨{ o with servers := l₁.cfg.servers.map NodeCfgInfo.ident }, ?_, ?_, ?_, ?_⟩
    · rw [orderSection, ← hR.ctlport]
      exact Option.map_eq_some_iff.mpr ⟨_, horder, rfl⟩
    · exact hctlport.trans hR.ctlport
    · exact ⟨l₁.cfg.servers, rfl, rfl⟩
    · obtain ⟨nodes, hnodes, hids⟩ := hR.slaves
      exact ⟨nodes, hslaves.trans hnodes, hids⟩
  | slvnode =>
    obtain ⟨items, l₁, rfl, hloop, rfl⟩ := slvnodeSec_some h
    have horder : orderNodes NodeKey.slvTable (fun id => [id]) l.ccv.ctlport []
        NodeCfgInfo.fresh.ident [] items =
          some (l₁.cfg.slaves.map NodeCfgInfo.ident, rest) :=
      nodesLoop_order (f := fun l => l.cfg.slaves.map NodeCfgInfo.ident) (fun _ => rfl)
        (fun hstop => (slvnodeStop_order hstop).1)
        (fun hstop => (slvnodeStop_order hstop).2.2) hloop
    have hservers := nodesLoop_keeps (g := fun l => l.cfg.servers)
      (fun hstop => (slvnodeStop_order hstop).2.1) hloop
    have hctlport := nodesLoop_keeps (g := fun l => l.ccv.ctlport)
      (fun hstop => (slvnodeStop_order hstop).2.2) hloop
    refine ⟨{ o with slaves := l₁.cfg.slaves.map NodeCfgInfo.ident }, ?_, ?_, ?_, ?_⟩
    · rw [orderSection, ← hR.ctlport]
      exact Option.map_eq_some_iff.mpr ⟨_, horder, rfl⟩
    · exact hctlport.trans hR.ctlport
    · obtain ⟨nodes, hnodes, hids⟩ := hR.servers
      exact ⟨nodes, hservers.trans hnodes, hids⟩
    · exact ⟨l₁.cfg.slaves, rfl, rfl⟩

/-- The check at the end does not touch the lists. -/
theorem loadedFinish_lists {cfg : CfgInfo} (h : loadedFinish l = some cfg) :
    cfg.servers = l.cfg.servers ∧ cfg.slaves = l.cfg.slaves := by
  rw [loadedFinish] at h
  dsimp only at h
  split at h
  · cases h
  · split at h
    · cases h
      exact ⟨rfl, rfl⟩
    · split at h
      · cases h
        exact ⟨rfl, rfl⟩
      · cases h
        exact ⟨rfl, rfl⟩

/-- Both lists are sorted and have no duplicates. -/
structure Listed (cfg : CfgInfo) : Prop where
  servers : Distinct cfg.servers
  slaves : Distinct cfg.slaves
  serversSorted : Sorted cfg.servers
  slavesSorted : Sorted cfg.slaves

theorem Follows.distinct_iff {o : LoadOrder} {cfg : CfgInfo} (h : Follows l o)
    (hcfg : loadedFinish l = some cfg) :
    (Distinct cfg.servers ↔ o.servers.Grouped) ∧ (Distinct cfg.slaves ↔ o.slaves.Grouped) := by
  obtain ⟨hservers, hslaves⟩ := loadedFinish_lists hcfg
  obtain ⟨nodes, hnodes, hids⟩ := h.servers
  obtain ⟨nodes', hnodes', hids'⟩ := h.slaves
  constructor
  · rw [hservers, hnodes, distinct_sort_unique, hids]
  · rw [hslaves, hnodes', distinct_sort_unique, hids']

theorem Follows.finish_listed {o : LoadOrder} {cfg : CfgInfo} (h : Follows l o)
    (hcfg : loadedFinish l = some cfg) : Listed cfg ↔ o.servers.Grouped ∧ o.slaves.Grouped := by
  obtain ⟨hservers, hslaves⟩ := h.distinct_iff hcfg
  constructor
  · intro hlisted
    exact ⟨hservers.mp hlisted.servers, hslaves.mp hlisted.slaves⟩
  · rintro ⟨hgrouped, hgrouped'⟩
    obtain ⟨heq, heq'⟩ := loadedFinish_lists hcfg
    obtain ⟨nodes, hnodes, -⟩ := h.servers
    obtain ⟨nodes', hnodes', -⟩ := h.slaves
    refine ⟨hservers.mpr hgrouped, hslaves.mpr hgrouped', ?_, ?_⟩
    · rw [heq, hnodes]
      exact sorted_sort _
    · rw [heq', hnodes']
      exact sorted_sort _

theorem loadTopLevel_order {cfg cfg' : CfgInfo} {events : List YamlEvent}
    (hservers : cfg.servers = []) (hslaves : cfg.slaves = [])
    (h : loadTopLevel env cfg events = some cfg') :
    ∃ l o, loadOrder env events = some o ∧ Follows l o ∧ loadedFinish l = some cfg' := by
  obtain ⟨l, hl, hfinish⟩ := Option.bind_eq_some_iff.mp h
  have hnil : sort (unique []) = [] := by
    rw [unique, List.destutter_nil, sort, List.mergeSort_nil]
  have hstart : Follows ⟨cfg, .fresh⟩ ⟨chmInvalidPort, [], []⟩ :=
    ⟨rfl, ⟨[], hservers.trans hnil.symm, rfl⟩, ⟨[], hslaves.trans hnil.symm, rfl⟩⟩
  have hsim : ∃ o, topLevelLoop (orderLoader env) .start ⟨chmInvalidPort, [], []⟩ events = some o ∧
      Follows l o :=
    topLevelLoop_sim (R := Follows) loadSection_order hstart hl
  obtain ⟨o, ho, hfollows⟩ := hsim
  exact ⟨l, o, ho, hfollows, hfinish⟩

/-! ## The INI file -/

/-- One key of the GLOBAL section after the other. -/
theorem foldlM_iniRead {global : StrMap} (table : List (String × GlobalKey))
    (h : table.foldlM (fun l ent =>
      match global.find ent.1 with
      | none => some l
      | some value => iniRead env ent.2 value l) l = some l') :
    Leaves (table.foldl (fun ctlport ent =>
      if ent.2 = .ctlport then
        match global.find ent.1 with
        | none => ctlport
        | some value => castShort (atoi value)
      else ctlport) l.ccv.ctlport) l l' := by
  induction table generalizing l with
  | nil =>
    obtain rfl := Option.some.inj h
    exact ⟨rfl, rfl, rfl⟩
  | cons ent table ih =>
    obtain ⟨l₁, hl₁, htail⟩ := Option.bind_eq_some_iff.mp (List.foldlM_cons.symm.trans h)
    have hrest := ih htail
    have hone : Leaves (if ent.2 = .ctlport then
          match global.find ent.1 with
          | none => l.ccv.ctlport
          | some value => castShort (atoi value)
        else l.ccv.ctlport) l l₁ := by
      cases hfind : global.find ent.1 with
      | none =>
        rw [hfind] at hl₁
        obtain rfl := Option.some.inj hl₁
        exact ⟨rfl, rfl, (ite_self _).symm⟩
      | some value =>
        rw [hfind] at hl₁
        exact iniRead_leaves hl₁
    refine ⟨hrest.servers.trans hone.servers, hrest.slaves.trans hone.slaves, ?_⟩
    rw [hrest.ctlport, hone.ctlport, List.foldl_cons]

theorem iniGlobal_leaves {raw : CfgRaw} (h : iniGlobal env raw.global l = some l') :
    Leaves (iniCtlport raw) l l' := by
  rw [iniGlobal] at h
  split at h
  · obtain ⟨hservers, hslaves, hctlport⟩ := foldlM_iniRead GlobalKey.table h
    exact ⟨hservers, hslaves, hctlport⟩
  · cases h

theorem iniPort_eq {m : StrMap} {key : String} {port port' : Int}
    (h : iniPort m key port = some port') :
    port' = match m.find key with
      | none => port
      | some value => castShort (atoi value) := by
  cases hfind : m.find key with
  | none =>
    simp only [iniPort, hfind] at h
    split at h
    · cases h
    · exact (Option.some.inj h).symm
  | some value =>
    simp only [iniPort, hfind] at h
    exact (Option.some.inj h).symm

theorem iniSeed_eq {m : StrMap} {key : String} {needed : Bool} {seed : CStr}
    (h : iniSeed m key needed = some seed) : seed = (m.find key).getD [] := by
  rw [iniSeed] at h
  split at h
  · rename_i hfind
    split at h
    · cases h
    · rw [hfind]
      exact (Option.some.inj h).symm
  · rename_i value hfind
    rw [hfind]
    exact (Option.some.inj h).symm

theorem iniServer_ident {raw : CfgRaw} {m : StrMap} {n : NodeCfgInfo}
    (hctlport : l.ccv.ctlport = iniCtlport raw) (h : iniServer env l m = some n) :
    n.ident = iniIdent raw m := by
  obtain ⟨name, hname, h⟩ := Option.bind_eq_some_iff.mp h
  obtain ⟨port, -, h⟩ := Option.bind_eq_some_iff.mp h
  obtain ⟨ctlport, hport, h⟩ := Option.bind_eq_some_iff.mp h
  obtain ⟨cuk, hcuk, h⟩ := Option.bind_eq_some_iff.mp h
  iterate 12 obtain ⟨_, -, h⟩ := Option.bind_eq_some_iff.mp h
  dsimp only at h
  split at h
  · obtain rfl := Option.some.inj h
    rw [NodeCfgInfo.ident, iniIdent, iniPort_eq hport, iniSeed_eq hcuk, hname, hctlport]
    rfl
  · cases h

theorem iniSlave_ident {raw : CfgRaw} {m : StrMap} {n : NodeCfgInfo}
    (hctlport : l.ccv.ctlport = iniCtlport raw) (h : iniSlave env l m = some n) :
    n.ident = iniIdent raw m := by
  obtain ⟨name, hname, h⟩ := Option.bind_eq_some_iff.mp h
  obtain ⟨ctlport, hport, h⟩ := Option.bind_eq_some_iff.mp h
  obtain ⟨cuk, hcuk, h⟩ := Option.bind_eq_some_iff.mp h
  iterate 7 obtain ⟨_, -, h⟩ := Option.bind_eq_some_iff.mp h
  split at h
  · cases h
  · obtain rfl := Option.some.inj h
    rw [NodeCfgInfo.ident, iniIdent, iniPort_eq hport, iniSeed_eq hcuk, hname, hctlport]
    rfl

theorem foldl_iniAddServer (n : NodeCfgInfo) (hosts : List CStr) (l : Loading) :
    ((hosts.foldl (iniAddServer env n) l).cfg.servers.map NodeCfgInfo.ident =
      l.cfg.servers.map NodeCfgInfo.ident ++
        hosts.map fun host => ((nodehostList env [host] host).headD [], n.ident.2)) ∧
    (hosts.foldl (iniAddServer env n) l).cfg.slaves = l.cfg.slaves ∧
    (hosts.foldl (iniAddServer env n) l).ccv.ctlport = l.ccv.ctlport := by
  induction hosts generalizing l with
  | nil => exact ⟨(List.append_nil _).symm, rfl, rfl⟩
  | cons host hosts ih =>
    obtain ⟨hservers, hslaves, hctlport⟩ := ih (iniAddServer env n l host)
    refine ⟨?_, hslaves, hctlport⟩
    rw [List.foldl_cons, hservers, iniAddServer]
    simp [NodeCfgInfo.ident]

theorem iniServerNode_order {raw : CfgRaw} {m : StrMap} (hctlport : l.ccv.ctlport = iniCtlport raw)
    (h : iniServerNode env l m = some l') :
    (l'.cfg.servers.map NodeCfgInfo.ident = l.cfg.servers.map NodeCfgInfo.ident ++
      expandServer env (fun host => [host]) (iniIdent raw m)) ∧
    l'.cfg.slaves = l.cfg.slaves ∧ l'.ccv.ctlport = l.ccv.ctlport := by
  rw [iniServerNode] at h
  cases hserver : iniServer env l m with
  | none =>
    rw [hserver] at h
    cases h
  | some n =>
    rw [hserver] at h
    dsimp only at h
    cases hexpand : env.expandSimpleRegexHostname n.name with
    | none =>
      rw [hexpand] at h
      cases h
    | some hosts =>
      rw [hexpand] at h
      obtain rfl := Option.some.inj h
      have hid : expandServer env (fun host => [host]) (iniIdent raw m) =
          hosts.map fun host => ((nodehostList env [host] host).headD [], n.ident.2) := by
        rw [← iniServer_ident hctlport hserver, expandServer, NodeCfgInfo.ident, hexpand,
          Option.getD_some]
      rw [hid]
      exact foldl_iniAddServer n hosts _

theorem foldlM_iniServerNode {raw : CfgRaw} (nodes : List StrMap)
    (hctlport : l.ccv.ctlport = iniCtlport raw)
    (h : nodes.foldlM (iniServerNode env) l = some l') :
    (l'.cfg.servers.map NodeCfgInfo.ident = l.cfg.servers.map NodeCfgInfo.ident ++
      nodes.flatMap fun m => expandServer env (fun host => [host]) (iniIdent raw m)) ∧
    l'.cfg.slaves = l.cfg.slaves ∧ l'.ccv.ctlport = l.ccv.ctlport := by
  induction nodes generalizing l with
  | nil =>
    obtain rfl := Option.some.inj h
    exact ⟨(List.append_nil _).symm, rfl, rfl⟩
  | cons m nodes ih =>
    obtain ⟨l₁, hl₁, htail⟩ := Option.bind_eq_some_iff.mp (List.foldlM_cons.symm.trans h)
    obtain ⟨hservers, hslaves, hport⟩ := iniServerNode_order hctlport hl₁
    obtain ⟨hservers', hslaves', hport'⟩ := ih (hport.trans hctlport) htail
    refine ⟨?_, hslaves'.trans hslaves, hport'.trans hport⟩
    rw [hservers', hservers, List.flatMap_cons, List.append_assoc]

theorem foldlM_iniSlaveNode {raw : CfgRaw} (nodes : List StrMap)
    (hctlport : l.ccv.ctlport = iniCtlport raw)
    (h : nodes.foldlM (iniSlaveNode env) l = some l') :
    l'.cfg.slaves.map NodeCfgInfo.ident =
      l.cfg.slaves.map NodeCfgInfo.ident ++ nodes.map (iniIdent raw) ∧
    l'.cfg.servers = l.cfg.servers := by
  induction nodes generalizing l with
  | nil =>
    obtain rfl := Option.some.inj h
    exact ⟨(List.append_nil _).symm, rfl⟩
  | cons m nodes ih =>
    obtain ⟨l₁, hl₁, htail⟩ := Option.bind_eq_some_iff.mp (List.foldlM_cons.symm.trans h)
    obtain ⟨n, hn, rfl⟩ := Option.map_eq_some_iff.mp hl₁
    obtain ⟨hslaves, hservers⟩ := ih (by exact hctlport) htail
    refine ⟨?_, hservers⟩
    rw [hslaves]
    simp [iniSlave_ident hctlport hn]

theorem iniLoad_order {cfg cfg' : CfgInfo} {raw : CfgRaw} (hservers : cfg.servers = [])
    (hslaves : cfg.slaves = []) (h : iniLoad env cfg raw = some cfg') :
    Listed cfg' ↔ (iniServers env raw).Grouped ∧ (iniSlaves raw).Grouped := by
  rw [iniLoad] at h
  cases hglobal : iniGlobal env raw.global ⟨cfg, .fresh⟩ with
  | none =>
    rw [hglobal] at h
    cases h
  | some l₁ =>
    rw [hglobal] at h
    dsimp only at h
    have hleaves := iniGlobal_leaves hglobal
    split at h
    · cases h
    · cases hnodes : raw.serverNodes.foldlM (iniServerNode env) l₁ with
      | none =>
        rw [hnodes] at h
        cases h
      | some l₂ =>
        rw [hnodes] at h
        dsimp only at h
        obtain ⟨hservers₂, hslaves₂, hctlport₂⟩ := foldlM_iniServerNode raw.serverNodes
          hleaves.ctlport hnodes
        split at h
        · split at h
          · cases h
          · split at h
            · cases h
            · rename_i l₃ hnodes'
              obtain ⟨hslaves₃, hservers₃⟩ := foldlM_iniSlaveNode raw.slaveNodes
                (by exact hctlport₂.trans hleaves.ctlport) hnodes'
              have hfollows : Follows
                  { l₃ with cfg.slaves := sort (unique l₃.cfg.slaves) }
                  ⟨l₃.ccv.ctlport, iniServers env raw, iniSlaves raw⟩ := by
                refine ⟨rfl, ⟨l₂.cfg.servers, hservers₃, ?_⟩, ⟨l₃.cfg.slaves, rfl, ?_⟩⟩
                · rw [hservers₂, hleaves.servers, hservers]
                  rfl
                · rw [hslaves₃]
                  dsimp only
                  rw [hslaves₂, hleaves.slaves, hslaves]
                  rfl
              exact hfollows.finish_listed h
        · cases h

/-- A load leaves two sorted lists without duplicates when the nodes that are the same are loaded
one right behind the other, and otherwise it leaves duplicates. -/
theorem listed_iff (env : LoadEnv) (cfg : CfgInfo) (hservers : cfg.servers = [])
    (hslaves : cfg.slaves = []) :
    (∀ events cfg', loadTopLevel env cfg events = some cfg' →
      ∃ o, loadOrder env events = some o ∧
        (Listed cfg' ↔ o.servers.Grouped ∧ o.slaves.Grouped)) ∧
    ∀ raw cfg', iniLoad env cfg raw = some cfg' →
      (Listed cfg' ↔ (iniServers env raw).Grouped ∧ (iniSlaves raw).Grouped) := by
  constructor
  · intro events cfg' h
    obtain ⟨l, o, ho, hfollows, hfinish⟩ := loadTopLevel_order hservers hslaves h
    exact ⟨o, ho, hfollows.finish_listed hfinish⟩
  · exact fun raw cfg' h => iniLoad_order hservers hslaves h

/-! ## A server that comes twice -/

/-- A host where no name is known and no file is there. -/
def sampleLoadEnv : LoadEnv where
  defaultCtlport := chmInvalidPort
  defaultCuk := []
  trim := Trim.both isspace
  rfcdateTime _ := 0
  isDirExist _ := false
  isFileSafeExist _ := false
  isFileSafeExistEx _ := false
  isCAPathAllowFile := false
  isCertAllowName := false
  parseHostPortString target port := some (target, port)
  expandSimpleRegexHostname name := some [name]
  getAllHostList host nodehosts :=
    some (if host ∈ nodehosts then nodehosts else nodehosts ++ [host])
  localHostList := []
  defaultMaskBitcount := 8
  defaultCollisionMaskBitcount := 4
  defaultMaxElementCnt := 32

/-- `CHMCFGINFO` as it is constructed. -/
def CfgInfo.fresh (env : LoadEnv) : CfgInfo where
  groupname := []
  revision := -1
  isServerMode := false
  isRandomMode := false
  selfCtlport := chmInvalidPort
  selfCuk := []
  chmpxidType := .name
  maxChmpxCount := 0
  replicaCount := 0
  maxServerMqCnt := 0
  maxClientMqCnt := 0
  mqcntPerAttach := 0
  maxQPerServermq := 0
  maxQPerClientmq := 0
  maxMqPerClient := 0
  maxHistlogCount := 0
  retrycnt := -1
  mqRetrycnt := -1
  mqAck := true
  timeoutWaitSocket := -1
  timeoutWaitConnect := -1
  timeoutWaitMq := -1
  isAutoMerge := false
  isDoMerge := false
  timeoutMerge := 0
  sockThreadCnt := 0
  mqThreadCnt := 0
  maxSockPool := 1
  sockPoolTimeout := 0
  k2hFullmap := true
  k2hMaskBitcnt := env.defaultMaskBitcount
  k2hCmaskBitcnt := env.defaultCollisionMaskBitcount
  k2hMaxElement := env.defaultMaxElementCnt
  date := 0
  sslMinVer := 0
  nssdbDir := []
  servers := []
  slaves := []

def YamlNode.text (s : String) : YamlNode := .scalar (cstr s)

/-- A document with servers of these names. -/
def serverDocument (names : List String) : List YamlEvent :=
  documentEvents
    [(.text "GLOBAL", .mapping [(.text "GROUP", .text "G"), (.text "FILEVERSION", .text "1"),
      (.text "PORT", .text "8020"), (.text "CTLPORT", .text "8021")]),
    (.text "SVRNODE", .sequence (names.map fun name =>
      .mapping [(.text "NAME", .text name)])),
    (.text "SLVNODE", .sequence [.mapping [(.text "NAME", .text "client")]])]

theorem listed_iff_sample :
    ∃ cfg, loadTopLevel sampleLoadEnv (.fresh sampleLoadEnv) (serverDocument ["a", "a", "b"]) =
      some cfg ∧ Listed cfg := by
  have hload : (loadTopLevel sampleLoadEnv (.fresh sampleLoadEnv)
      (serverDocument ["a", "a", "b"])).isSome = true := by decide +kernel
  have horder : loadOrder sampleLoadEnv (serverDocument ["a", "a", "b"]) =
      some ⟨8021, [([97], 8021, []), ([97], 8021, []), ([98], 8021, [])],
        [(cstr "client", 8021, [])]⟩ := by decide +kernel
  obtain ⟨cfg, hcfg⟩ := Option.isSome_iff_exists.mp hload
  obtain ⟨o, ho, hiff⟩ := (listed_iff sampleLoadEnv (.fresh sampleLoadEnv) rfl rfl).1 _ cfg hcfg
  obtain rfl := Option.some.inj (horder.symm.trans ho)
  exact ⟨cfg, hcfg, hiff.mpr (by decide)⟩

/-- A server that is listed before and behind another one is there twice. -/
theorem listed_fails :
    ∃ cfg, loadTopLevel sampleLoadEnv (.fresh sampleLoadEnv) (serverDocument ["a", "b", "a"]) =
      some cfg ∧ ¬Distinct cfg.servers := by
  have hload : (loadTopLevel sampleLoadEnv (.fresh sampleLoadEnv)
      (serverDocument ["a", "b", "a"])).isSome = true := by decide +kernel
  have horder : loadOrder sampleLoadEnv (serverDocument ["a", "b", "a"]) =
      some ⟨8021, [([97], 8021, []), ([98], 8021, []), ([97], 8021, [])],
        [(cstr "client", 8021, [])]⟩ := by decide +kernel
  obtain ⟨cfg, hcfg⟩ := Option.isSome_iff_exists.mp hload
  obtain ⟨l, o, ho, hfollows, hfinish⟩ := loadTopLevel_order rfl rfl hcfg
  obtain rfl := Option.some.inj (horder.symm.trans ho)
  refine ⟨cfg, hcfg, fun hdistinct => ?_⟩
  exact absurd ((hfollows.distinct_iff hfinish).1.mp hdistinct) (by decide)

end Conf
end Chm
