/-
Loading a YAML or JSON configuration.

`ChmYamlLoadConfigurationTopLevel` takes the events of the document; at one of the three known keys
it calls the loader of that section, which takes the events of the value, and any other key goes to
the stack together with its value.
-/
import Chm.YamlConf
import Chm.Lib.Readers

namespace Chm
namespace Conf

/-! ## The top level -/

/-- The sections of a configuration. -/
inductive ConfSection
  | global | svrnode | slvnode
  deriving DecidableEq, Repr

/-- The section that a key of the top level names. -/
def ConfSection.ofText (key : CStr) : Option ConfSection :=
  if eqNoCase (cstr "GLOBAL") key then some global
  else if eqNoCase (cstr "SVRNODE") key then some svrnode
  else if eqNoCase (cstr "SLVNODE") key then some slvnode
  else none

/-- The loader of a section. -/
def loadSection (env : LoadEnv) :
    ConfSection → Loading → List YamlEvent → Option (Loading × List YamlEvent)
  | .global => globalSec env
  | .svrnode => svrnodeSec env
  | .slvnode => slvnodeSec env

/-- The flags and the stack of the top level. -/
structure TopLevel where
  otherStack : YamlDataStack
  inStream : Bool
  inDocument : Bool
  inToplevel : Bool
  deriving DecidableEq, Repr

namespace TopLevel

def start : TopLevel := ⟨[], false, false, false⟩

/-- The event goes to the stack. -/
def puts (st : TopLevel) (ev : YamlEvent) : Option (TopLevel × Option ConfSection) :=
  (st.otherStack.add ev.type).map fun stack => ({ st with otherStack := stack }, none)

/-- An event at the top level, and the section that begins with it. -/
def next (st : TopLevel) (ev : YamlEvent) : Option (TopLevel × Option ConfSection) :=
  match ev with
  | .noEvent | .aliasEvent => some (st, none)
  | .streamStart =>
    if st.otherStack ≠ [] ∨ st.inStream then st.puts ev
    else some ({ st with inStream := true }, none)
  | .streamEnd =>
    if st.otherStack ≠ [] ∨ st.inStream = false then st.puts ev
    else some ({ st with inStream := false }, none)
  | .documentStart =>
    if st.otherStack ≠ [] ∨ st.inStream = false ∨ st.inDocument then st.puts ev
    else some ({ st with inDocument := true }, none)
  | .documentEnd =>
    if st.otherStack ≠ [] ∨ st.inDocument = false then st.puts ev
    else some ({ st with inDocument := false }, none)
  | .mappingStart =>
    if st.otherStack ≠ [] ∨ st.inStream = false ∨ st.inDocument = false ∨ st.inToplevel then
      st.puts ev
    else some ({ st with inToplevel := true }, none)
  | .mappingEnd =>
    if st.otherStack ≠ [] ∨ st.inToplevel = false then st.puts ev
    else some ({ st with inToplevel := false }, none)
  | .sequenceStart | .sequenceEnd => st.puts ev
  | .scalar value =>
    if st.otherStack ≠ [] ∨ st.inStream = false ∨ st.inDocument = false ∨ st.inToplevel = false then
      st.puts ev
    else
      match ConfSection.ofText value with
      | some sec => some (st, some sec)
      | none => st.puts ev

end TopLevel

/-- The mode and the merge flags are checked again when all is loaded. -/
def loadedFinish (l : Loading) : Option CfgInfo :=
  let cfg := l.cfg
  if l.ccv.serverMode && cfg.isServerMode ≠ l.ccv.serverModeByComp then none
  else
    let cfg := { cfg with isServerMode := l.ccv.serverModeByComp }
    if cfg.isRandomMode then some { cfg with isAutoMerge := true, isDoMerge := false }
    else if !cfg.isDoMerge && cfg.isAutoMerge then some { cfg with isAutoMerge := false }
    else some cfg

/-! ### What the sections leave -/

theorem globalLoop_length {env : LoadEnv} {key : CStr} {l : Loading} {events : List YamlEvent}
    {r : Loading × List YamlEvent} (h : globalLoop env key l events = some r) :
    r.2.length < events.length := by
  fun_induction globalLoop env key l events with
  | case1 key l events hok =>
    obtain rfl := Option.some.inj h
    exact Nat.lt_succ_self _
  | case2 => cases h
  | case3 l value events ih => exact Nat.lt_succ_of_lt (ih h)
  | case4 => cases h
  | case5 key l value events hkey l' _ ih => exact Nat.lt_succ_of_lt (ih h)
  | case6 => cases h

theorem nodesLoop_length {env : LoadEnv} {table : List (String × NodeKey)}
    {defaults : ConfCcv → NodeCfgInfo} {stop : NodeCfgInfo → Loading → Option Loading}
    {inMapping : Bool} {key : CStr} {n : NodeCfgInfo} {l : Loading} {events : List YamlEvent}
    {r : Loading × List YamlEvent}
    (h : nodesLoop env table defaults stop inMapping key n l events = some r) :
    r.2.length < events.length := by
  fun_induction nodesLoop env table defaults stop inMapping key n l events with
  | case1 => cases h
  | case2 key n l inMapping events _ ih => exact Nat.lt_succ_of_lt (ih h)
  | case3 => cases h
  | case4 key n l events l' _ ih => exact Nat.lt_succ_of_lt (ih h)
  | case5 => cases h
  | case6 => cases h
  | case7 key n l inMapping events =>
    obtain rfl := Option.some.inj h
    exact Nat.lt_succ_self _
  | case8 n l inMapping value events ih => exact Nat.lt_succ_of_lt (ih h)
  | case9 => cases h
  | case10 key n l inMapping value events _ n' _ ih => exact Nat.lt_succ_of_lt (ih h)
  | case11 => cases h

theorem loadSection_length {env : LoadEnv} {sec : ConfSection} {l : Loading}
    {events : List YamlEvent} {r : Loading × List YamlEvent}
    (h : loadSection env sec l events = some r) : r.2.length < events.length := by
  cases sec with
  | global =>
    rw [loadSection, globalSec.eq_def] at h
    split at h
    · exact Nat.lt_succ_of_lt (globalLoop_length h)
    · cases h
  | svrnode =>
    rw [loadSection, svrnodeSec.eq_def] at h
    split at h
    · dsimp only at h
      split at h
      · cases h
      · rename_i hloop
        split at h
        · obtain rfl := Option.some.inj h
          have hlen := nodesLoop_length hloop
          exact Nat.lt_succ_of_lt hlen
        · cases h
    · cases h
  | slvnode =>
    rw [loadSection, slvnodeSec.eq_def] at h
    split at h
    · dsimp only at h
      split at h
      · cases h
      · rename_i hloop
        obtain rfl := Option.some.inj h
        have hlen := nodesLoop_length hloop
        exact Nat.lt_succ_of_lt hlen
    · cases h

/-- Loaders of the sections: each one takes an event at least. -/
structure SectionLoader (σ : Type) where
  load : ConfSection → σ → List YamlEvent → Option (σ × List YamlEvent)
  shorter : ∀ {sec s events r}, load sec s events = some r → r.2.length < events.length

/-- The loop of `ChmYamlLoadConfigurationTopLevel`: the events end behind the end of the stream. -/
def topLevelLoop {σ : Type} (loader : SectionLoader σ) (st : TopLevel) (s : σ) :
    List YamlEvent → Option σ
  | [] => none
  | ev :: events =>
    match st.next ev with
    | none => none
    | some (st, none) =>
      if ev = .streamEnd then some s else topLevelLoop loader st s events
    | some (st, some sec) =>
      match _h : loader.load sec s events with
      | none => none
      | some (s, rest) => topLevelLoop loader st s rest
termination_by events => events.length
decreasing_by
  · exact Nat.lt_succ_self _
  · exact Nat.lt_succ_of_lt (loader.shorter _h)

/-- The loaders of the three sections. -/
def confLoader (env : LoadEnv) : SectionLoader Loading := ⟨loadSection env, loadSection_length⟩

/-- `ChmYamlLoadConfigurationTopLevel` over the events of the parser; a record that is loaded only
in part is thrown away. -/
def loadTopLevel (env : LoadEnv) (cfg : CfgInfo) (events : List YamlEvent) : Option CfgInfo :=
  (topLevelLoop (confLoader env) .start ⟨cfg, .fresh⟩ events).bind loadedFinish

/-- The events of a stream with one document whose top level is a mapping. -/
def documentEvents (entries : List (YamlNode × YamlNode)) : List YamlEvent :=
  [.streamStart, .documentStart] ++ (YamlNode.mapping entries).events ++
    [.documentEnd, .streamEnd]

/-- The key of an entry names a section. -/
def isKnown (entry : YamlNode × YamlNode) : Bool :=
  match entry.1 with
  | .scalar key => (ConfSection.ofText key).isSome
  | _ => false

/-! ## The events of a section -/

section Sections

open Readers

variable (env : LoadEnv)

/-- The reader of the GLOBAL section. -/
def globalRead (s : CStr × Loading) : List YamlEvent → Option (Loading × List YamlEvent) :=
  globalLoop env s.1 s.2

theorem globalRead_node (node : YamlNode) (s : CStr × Loading) :
    Passes (globalRead env) (fun _ => True) s node.events := by
  obtain ⟨key, l⟩ := s
  cases node with
  | scalar value =>
    rw [YamlNode.events]
    by_cases hkey : key = []
    · subst hkey
      exact Or.inr ⟨(value, l), trivial, fun _ => rfl⟩
    · cases hentry : globalEntry env key value l with
      | none => exact Or.inl fun rest => by simp [globalRead, globalLoop, hkey, hentry]
      | some l' =>
        exact Or.inr ⟨([], l'), trivial, fun rest => by
          simp [globalRead, globalLoop, hkey, hentry]⟩
  | sequence items =>
    rw [YamlNode.events]
    exact Or.inl fun _ => rfl
  | mapping entries =>
    rw [YamlNode.events]
    exact Or.inl fun _ => rfl

theorem globalRead_entries (entries : List (YamlNode × YamlNode)) (s : CStr × Loading) :
    Passes (globalRead env) (fun _ => True) s (entryEvents entries) := by
  induction entries generalizing s with
  | nil =>
    rw [entryEvents]
    exact Passes.nil trivial
  | cons entry entries ih =>
    obtain ⟨key, value⟩ := entry
    rw [entryEvents]
    exact ((globalRead_node env key s).append fun s' _ => globalRead_node env value s').append
      fun s' _ => ih s'

/-- The state of the reader of a section of nodes. -/
structure NodesState where
  inMapping : Bool
  key : CStr
  node : NodeCfgInfo
  load : Loading

variable (table : List (String × NodeKey)) (defaults : ConfCcv → NodeCfgInfo)
  (stop : NodeCfgInfo → Loading → Option Loading)

/-- The reader of a section of nodes. -/
def nodesRead (s : NodesState) : List YamlEvent → Option (Loading × List YamlEvent) :=
  nodesLoop env table defaults stop s.inMapping s.key s.node s.load

theorem nodesRead_scalar (value : CStr) (b : Bool) (s : NodesState) (hs : s.inMapping = b) :
    Passes (nodesRead env table defaults stop) (fun s => s.inMapping = b) s [.scalar value] := by
  obtain ⟨inMapping, key, n, l⟩ := s
  obtain rfl : inMapping = b := hs
  by_cases hkey : key = []
  · subst hkey
    exact Or.inr ⟨⟨inMapping, value, n, l⟩, rfl, fun _ => rfl⟩
  · cases hentry : nodeEntry env table key value n with
    | none => exact Or.inl fun rest => by simp [nodesRead, nodesLoop, hkey, hentry]
    | some n' =>
      exact Or.inr ⟨⟨inMapping, [], n', l⟩, rfl, fun rest => by
        simp [nodesRead, nodesLoop, hkey, hentry]⟩

/-- Inside of a node there are scalars only. -/
theorem nodesRead_inside (node : YamlNode) (s : NodesState) (hs : s.inMapping = true) :
    Passes (nodesRead env table defaults stop) (fun s => s.inMapping = true) s node.events := by
  cases node with
  | scalar value =>
    rw [YamlNode.events]
    exact nodesRead_scalar env table defaults stop value true s hs
  | sequence items =>
    rw [YamlNode.events]
    exact Or.inl fun _ => rfl
  | mapping entries =>
    rw [YamlNode.events]
    exact Or.inl fun _ => by rw [nodesRead, hs]; rfl

theorem nodesRead_entries (entries : List (YamlNode × YamlNode)) (s : NodesState)
    (hs : s.inMapping = true) :
    Passes (nodesRead env table defaults stop) (fun s => s.inMapping = true) s
      (entryEvents entries) := by
  induction entries generalizing s with
  | nil =>
    rw [entryEvents]
    exact Passes.nil hs
  | cons entry entries ih =>
    obtain ⟨key, value⟩ := entry
    rw [entryEvents]
    exact ((nodesRead_inside env table defaults stop key s hs).append fun s' hs' =>
      nodesRead_inside env table defaults stop value s' hs').append ih

/-- An item of the section is a node, or a scalar as well. -/
theorem nodesRead_item (node : YamlNode) (s : NodesState) (hs : s.inMapping = false) :
    Passes (nodesRead env table defaults stop) (fun s => s.inMapping = false) s node.events := by
  cases node with
  | scalar value =>
    rw [YamlNode.events]
    exact nodesRead_scalar env table defaults stop value false s hs
  | sequence items =>
    rw [YamlNode.events]
    exact Or.inl fun _ => rfl
  | mapping entries =>
    rw [YamlNode.events]
    have hstart : Passes (nodesRead env table defaults stop) (fun s => s.inMapping = true) s
        [.mappingStart] :=
      Or.inr ⟨⟨true, s.key, defaults s.load.ccv, s.load⟩, rfl, fun _ => by
        rw [nodesRead, hs]
        rfl⟩
    refine hstart.append fun s' hs' =>
      (nodesRead_entries env table defaults stop entries s' hs').append fun s'' hs'' => ?_
    obtain ⟨inMapping, key, n, l⟩ := s''
    obtain rfl : inMapping = true := hs''
    cases hstop : stop n l with
    | none => exact Or.inl fun rest => by simp [nodesRead, nodesLoop, hstop]
    | some l' =>
      exact Or.inr ⟨⟨false, key, n, l'⟩, rfl, fun rest => by simp [nodesRead, nodesLoop, hstop]⟩

theorem nodesRead_items (items : List YamlNode) (s : NodesState) (hs : s.inMapping = false) :
    Passes (nodesRead env table defaults stop) (fun s => s.inMapping = false) s
      (itemEvents items) := by
  induction items generalizing s with
  | nil =>
    rw [itemEvents]
    exact Passes.nil hs
  | cons item items ih =>
    rw [itemEvents]
    exact (nodesRead_item env table defaults stop item s hs).append ih

theorem nodesRead_sequence (items : List YamlNode) (s : NodesState) (hs : s.inMapping = false) :
    Ends (nodesRead env table defaults stop) s (itemEvents items ++ [.sequenceEnd]) :=
  (nodesRead_items env table defaults stop items s hs).ends fun s' hs' =>
    Or.inr ⟨s'.load, fun rest => by
      rw [nodesRead, hs']
      rfl⟩

/-- The loader of a section takes the events of the value and does not look behind them. -/
theorem loadSection_value (sec : ConfSection) (l : Loading) (value : YamlNode) :
    Ends (loadSection env sec) l value.events := by
  cases sec with
  | global =>
    cases value with
    | scalar v =>
      rw [YamlNode.events]
      exact Or.inl fun _ => rfl
    | sequence items =>
      rw [YamlNode.events]
      exact Or.inl fun _ => rfl
    | mapping entries =>
      rw [YamlNode.events]
      have hend : Ends (globalRead env) ([], globalDefaults env l)
          (entryEvents entries ++ [.mappingEnd]) :=
        (globalRead_entries env entries _).ends fun s' _ => by
          cases hok : globalAccepted s'.2 with
          | false => exact Or.inl fun rest => by simp [globalRead, globalLoop, hok]
          | true => exact Or.inr ⟨s'.2, fun rest => by simp [globalRead, globalLoop, hok]⟩
      exact hend
  | svrnode =>
    cases value with
    | scalar v =>
      rw [YamlNode.events]
      exact Or.inl fun _ => rfl
    | sequence items =>
      rw [YamlNode.events]
      have hend := nodesRead_sequence env NodeKey.svrTable svrnodeDefaults (svrnodeStop env) items
        ⟨false, [], .fresh, { l with
          cfg.servers := []
          ccv.serverModeByComp := false
          ccv.foundSsl := false
          ccv.foundSslVerifyPeer := false }⟩ rfl
      rcases hend with hfail | ⟨l', hgo⟩
      · refine Or.inl fun rest => ?_
        have hloop := hfail rest
        rw [nodesRead] at hloop
        rw [loadSection, List.cons_append, svrnodeSec]
        dsimp only
        rw [hloop]
      · have hsec : ∀ rest, loadSection env .svrnode l
            (.sequenceStart :: (itemEvents items ++ [.sequenceEnd]) ++ rest) =
            if l'.cfg.servers.all (serverCertAccepted env l'.ccv) then
              some ({ l' with cfg.servers := sort (unique l'.cfg.servers) }, rest)
            else none := by
          intro rest
          have hloop := hgo rest
          rw [nodesRead] at hloop
          rw [loadSection, List.cons_append, svrnodeSec]
          dsimp only
          rw [hloop]
        by_cases hok : l'.cfg.servers.all (serverCertAccepted env l'.ccv) = true
        · exact Or.inr ⟨_, fun rest => (hsec rest).trans (if_pos hok)⟩
        · exact Or.inl fun rest => (hsec rest).trans (if_neg hok)
    | mapping entries =>
      rw [YamlNode.events]
      exact Or.inl fun _ => rfl
  | slvnode =>
    cases value with
    | scalar v =>
      rw [YamlNode.events]
      exact Or.inl fun _ => rfl
    | sequence items =>
      rw [YamlNode.events]
      have hend := nodesRead_sequence env NodeKey.slvTable slvnodeDefaults (slvnodeStop env) items
        ⟨false, [], .fresh, { l with cfg.slaves := [] }⟩ rfl
      rcases hend with hfail | ⟨l', hgo⟩
      · refine Or.inl fun rest => ?_
        have hloop := hfail rest
        rw [nodesRead] at hloop
        rw [loadSection, List.cons_append, slvnodeSec]
        dsimp only
        rw [hloop]
      · refine Or.inr ⟨{ l' with cfg.slaves := sort (unique l'.cfg.slaves) }, fun rest => ?_⟩
        have hloop := hgo rest
        rw [nodesRead] at hloop
        rw [loadSection, List.cons_append, slvnodeSec]
        dsimp only
        rw [hloop]
    | mapping entries =>
      rw [YamlNode.events]
      exact Or.inl fun _ => rfl

end Sections

/-! ## Unknown keys -/

section Unknown

open YamlDataStack Along

variable {env : LoadEnv} {st st' : TopLevel} {l : Loading} {ev : YamlEvent}
  {events : List YamlEvent}

theorem topLevelLoop_next {σ : Type} {loader : SectionLoader σ} {s : σ}
    (h : st.next ev = some (st', none)) (hne : ev ≠ .streamEnd) :
    topLevelLoop loader st s (ev :: events) = topLevelLoop loader st' s events := by
  rw [topLevelLoop, h]
  exact if_neg hne

theorem topLevelLoop_section {σ : Type} {loader : SectionLoader σ} {s : σ} {sec : ConfSection}
    (h : st.next ev = some (st', some sec)) :
    topLevelLoop loader st s (ev :: events) =
      (loader.load sec s events).bind fun r => topLevelLoop loader st' r.1 r.2 := by
  rw [topLevelLoop, h]
  dsimp only
  cases loader.load sec s events with
  | none => rfl
  | some r => rfl

/-- Inside of the mapping at the top level. -/
def TopLevel.inside (stack : YamlDataStack) : TopLevel := ⟨stack, true, true, true⟩

/-- The event is one of a node. -/
def YamlEvent.OfNode : YamlEvent → Prop
  | scalar _ | sequenceStart | sequenceEnd | mappingStart | mappingEnd => True
  | _ => False

mutual

theorem ofNode_events : ∀ (node : YamlNode), ∀ ev ∈ node.events, ev.OfNode
  | .scalar value, ev, hev => by
    rw [YamlNode.events, List.mem_singleton] at hev
    subst hev
    trivial
  | .sequence items, ev, hev => by
    rw [YamlNode.events, List.mem_cons, List.mem_append, List.mem_singleton] at hev
    rcases hev with rfl | hev | rfl
    · trivial
    · exact ofNode_items items ev hev
    · trivial
  | .mapping entries, ev, hev => by
    rw [YamlNode.events, List.mem_cons, List.mem_append, List.mem_singleton] at hev
    rcases hev with rfl | hev | rfl
    · trivial
    · exact ofNode_entries entries ev hev
    · trivial

theorem ofNode_items : ∀ (items : List YamlNode), ∀ ev ∈ itemEvents items, ev.OfNode
  | [], ev, hev => by
    rw [itemEvents] at hev
    cases hev
  | item :: items, ev, hev => by
    rw [itemEvents, List.mem_append] at hev
    rcases hev with hev | hev
    · exact ofNode_events item ev hev
    · exact ofNode_items items ev hev

theorem ofNode_entries :
    ∀ (entries : List (YamlNode × YamlNode)), ∀ ev ∈ entryEvents entries, ev.OfNode
  | [], ev, hev => by
    rw [entryEvents] at hev
    cases hev
  | (key, value) :: entries, ev, hev => by
    rw [entryEvents, List.mem_append, List.mem_append] at hev
    rcases hev with (hev | hev) | hev
    · exact ofNode_events key ev hev
    · exact ofNode_events value ev hev
    · exact ofNode_entries entries ev hev

end

/-- While the stack is not empty every event of a node goes there. -/
theorem next_stacked {stack : YamlDataStack} (hne : stack ≠ []) (hev : ev.OfNode) :
    (TopLevel.inside stack).next ev = (TopLevel.inside stack).puts ev := by
  cases ev with
  | scalar value => exact if_pos (Or.inl hne)
  | mappingStart => exact if_pos (Or.inl hne)
  | mappingEnd => exact if_pos (Or.inl hne)
  | sequenceStart => rfl
  | sequenceEnd => rfl
  | _ => exact absurd hev id

theorem topLevelLoop_puts {stack stack' : YamlDataStack}
    (hnext : (TopLevel.inside stack).next ev = (TopLevel.inside stack).puts ev)
    (hstep : skip stack ev = some stack') (hev : ev.OfNode) :
    topLevelLoop (confLoader env) (.inside stack) l (ev :: events) =
      topLevelLoop (confLoader env) (.inside stack') l events := by
  refine topLevelLoop_next ?_ ?_
  · rw [skip] at hstep
    rw [hnext, TopLevel.puts, TopLevel.inside, hstep]
    rfl
  · rintro rfl
    exact hev

theorem topLevelLoop_skips {stack stack' : YamlDataStack} {evs : List YamlEvent}
    (hrun : Runs skip (Above []) stack evs stack') (hne : stack ≠ [])
    (hev : ∀ ev ∈ evs, ev.OfNode) (rest : List YamlEvent) :
    topLevelLoop (confLoader env) (.inside stack) l (evs ++ rest) =
      topLevelLoop (confLoader env) (.inside stack') l rest := by
  induction hrun with
  | nil stack => rfl
  | @cons stack stack₁ stack' ev evs hstep habove hruns ih =>
    have hne₁ : stack₁ ≠ [] := by
      obtain ⟨top, htop, rfl⟩ := habove
      rw [List.append_nil]
      exact htop
    have hone := hev ev List.mem_cons_self
    rw [List.cons_append, topLevelLoop_puts (next_stacked hne hone) hstep hone]
    exact ih hne₁ fun ev' h => hev ev' (List.mem_cons_of_mem ev h)

/-- A text as a key of the top level. -/
theorem next_text (text : CStr) :
    (TopLevel.inside []).next (.scalar text) =
      match ConfSection.ofText text with
      | some sec => some (.inside [], some sec)
      | none => (TopLevel.inside []).puts (.scalar text) := by
  have hopen : ¬((TopLevel.inside []).otherStack ≠ [] ∨ (TopLevel.inside []).inStream = false ∨
      (TopLevel.inside []).inDocument = false ∨ (TopLevel.inside []).inToplevel = false) := by
    decide
  rw [TopLevel.next, if_neg hopen]

/-- An unknown key begins with an event that goes to the stack. -/
theorem next_unknown {key value : YamlNode} (h : isKnown (key, value) = false) {evs}
    (hevents : key.events = ev :: evs) :
    (TopLevel.inside []).next ev = (TopLevel.inside []).puts ev := by
  cases key with
  | scalar text =>
    rw [YamlNode.events, List.cons.injEq] at hevents
    obtain ⟨rfl, -⟩ := hevents
    have htext : ConfSection.ofText text = none := by
      rw [isKnown] at h
      exact Option.isSome_eq_false_iff.mp h |> Option.isNone_iff_eq_none.mp
    rw [next_text, htext]
  | sequence items =>
    rw [YamlNode.events, List.cons.injEq] at hevents
    obtain ⟨rfl, -⟩ := hevents
    rfl
  | mapping entries =>
    rw [YamlNode.events, List.cons.injEq] at hevents
    obtain ⟨rfl, -⟩ := hevents
    rfl

theorem events_eq_cons (node : YamlNode) : ∃ ev evs, node.events = ev :: evs := by
  cases node with
  | scalar value => exact ⟨_, _, by rw [YamlNode.events]⟩
  | sequence items => exact ⟨_, _, by rw [YamlNode.events]⟩
  | mapping entries => exact ⟨_, _, by rw [YamlNode.events]⟩

/-- An unknown key and its value leave the loader as it was. -/
theorem topLevelLoop_unknown {key value : YamlNode} (h : isKnown (key, value) = false)
    (rest : List YamlEvent) :
    topLevelLoop (confLoader env) (.inside []) l (key.events ++ value.events ++ rest) =
      topLevelLoop (confLoader env) (.inside []) l rest := by
  obtain ⟨init, last, stack, heq, hrun, hlast⟩ := entry_runs key value
  obtain ⟨ev, evs, hkey⟩ := events_eq_cons key
  obtain ⟨evValue, evsValue, hvalue⟩ := events_eq_cons value
  have hof : ∀ ev ∈ init ++ [last], ev.OfNode := by
    intro ev hev
    rw [← heq, List.mem_append] at hev
    exact hev.elim (ofNode_events key ev) (ofNode_events value ev)
  rw [heq]
  cases hrun with
  | nil =>
    -- There are two events at least.
    have hlen := congrArg List.length heq
    rw [hkey, hvalue] at hlen
    simp at hlen
  | @cons stack₀ stack₁ stack₂ first tail hstep habove hruns =>
    have hfirst : first = ev := by
      rw [hkey, List.cons_append, List.cons_append, List.cons.injEq] at heq
      exact heq.1.symm
    have hne₁ : stack₁ ≠ [] := by
      obtain ⟨top, htop, rfl⟩ := habove
      rw [List.append_nil]
      exact htop
    have hne : stack ≠ [] := by
      rcases eq_or_ne tail [] with rfl | htail
      · cases hruns
        exact hne₁
      · obtain ⟨top, htop, rfl⟩ := hruns.last htail
        rw [List.append_nil]
        exact htop
    have hnext := next_unknown h (hfirst ▸ hkey)
    have hoflast := hof last (List.mem_append_right _ List.mem_cons_self)
    rw [List.append_assoc, List.cons_append,
      topLevelLoop_puts hnext hstep (hof first List.mem_cons_self),
      topLevelLoop_skips hruns hne₁ (fun ev' hev' => hof ev'
        (List.mem_append_left _ (List.mem_cons_of_mem first hev'))) ([last] ++ rest),
      List.cons_append, topLevelLoop_puts (next_stacked hne hoflast) hlast hoflast,
      List.nil_append]

/-- A known key and its value are the same step whatever is behind them. -/
theorem topLevelLoop_known {key value : YamlNode} (h : isKnown (key, value) = true) (l : Loading) :
    (∀ rest, topLevelLoop (confLoader env) (.inside []) l
      (key.events ++ value.events ++ rest) = none) ∨
    ∃ l', ∀ rest, topLevelLoop (confLoader env) (.inside []) l
      (key.events ++ value.events ++ rest) =
        topLevelLoop (confLoader env) (.inside []) l' rest := by
  cases key with
  | scalar text =>
    rw [isKnown] at h
    obtain ⟨sec, hsec⟩ := Option.isSome_iff_exists.mp h
    have hnext : (TopLevel.inside []).next (.scalar text) = some (.inside [], some sec) := by
      rw [next_text, hsec]
    rw [YamlNode.events, List.singleton_append]
    rcases loadSection_value env sec l value with hfail | ⟨l', hgo⟩
    · exact Or.inl fun rest => by
        have hload : (confLoader env).load sec l (value.events ++ rest) = none := hfail rest
        rw [List.cons_append, topLevelLoop_section hnext, hload, Option.bind_none]
    · exact Or.inr ⟨l', fun rest => by
        have hload : (confLoader env).load sec l (value.events ++ rest) = some (l', rest) :=
          hgo rest
        rw [List.cons_append, topLevelLoop_section hnext, hload, Option.bind_some]⟩
  | sequence items => exact absurd h Bool.false_ne_true
  | mapping entries => exact absurd h Bool.false_ne_true

theorem topLevelLoop_entries (entries : List (YamlNode × YamlNode)) (l : Loading)
    (rest : List YamlEvent) :
    topLevelLoop (confLoader env) (.inside []) l (entryEvents entries ++ rest) =
      topLevelLoop (confLoader env) (.inside []) l
        (entryEvents (entries.filter isKnown) ++ rest) := by
  induction entries generalizing l with
  | nil => rfl
  | cons entry entries ih =>
    obtain ⟨key, value⟩ := entry
    rw [entryEvents, List.append_assoc]
    cases hknown : isKnown (key, value) with
    | false =>
      rw [List.filter_cons_of_neg (by rw [hknown]; exact Bool.false_ne_true),
        topLevelLoop_unknown hknown]
      exact ih l
    | true =>
      rw [List.filter_cons_of_pos hknown, entryEvents,
        List.append_assoc (key.events ++ value.events) (entryEvents (entries.filter isKnown))]
      rcases topLevelLoop_known hknown l with hfail | ⟨l', hgo⟩
      · rw [hfail, hfail]
      · rw [hgo, hgo]
        exact ih l'

theorem loadTopLevel_document (cfg : CfgInfo) (entries : List (YamlNode × YamlNode)) :
    loadTopLevel env cfg (documentEvents entries) =
      (topLevelLoop (confLoader env) (.inside []) ⟨cfg, .fresh⟩
        (entryEvents entries ++ [.mappingEnd, .documentEnd, .streamEnd])).bind loadedFinish := by
  have hopen : ∀ events, topLevelLoop (confLoader env) .start ⟨cfg, .fresh⟩
      (.streamStart :: .documentStart :: .mappingStart :: events) =
        topLevelLoop (confLoader env) (.inside []) ⟨cfg, .fresh⟩ events := by
    intro events
    rw [topLevelLoop_next rfl (by decide), topLevelLoop_next rfl (by decide),
      topLevelLoop_next rfl (by decide)]
    rfl
  rw [loadTopLevel, documentEvents, YamlNode.events, ← hopen]
  simp

/-- Unknown keys of the top level do not matter: the loader does as without them, and the stack is
empty again when the value of such a key has ended and not before. -/
theorem loadTopLevel_unknown (env : LoadEnv) (cfg : CfgInfo)
    (entries : List (YamlNode × YamlNode)) :
    loadTopLevel env cfg (documentEvents entries) =
      loadTopLevel env cfg (documentEvents (entries.filter isKnown)) ∧
    ∀ (key value : YamlNode) (n : Nat), ∃ stack,
      run skip [] ((key.events ++ value.events).take n) = some stack ∧
      (stack = [] ↔ n = 0 ∨ (key.events ++ value.events).length ≤ n) := by
  refine ⟨?_, run_take_entry⟩
  rw [loadTopLevel_document, loadTopLevel_document, topLevelLoop_entries]

end Unknown

end Conf
end Chm
