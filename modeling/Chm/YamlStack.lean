/-
The stack that passes over the value of an unknown key.

The loader of a YAML configuration gets the events of the parser one by one.  `CHMYamlDataStack`
holds pairs of event types: an opened type waits for its end, a closed one in the first place waits
for the value of the key that it is.  It does not tell a key from an item of a sequence, so behind
each item an entry is there or not in turn, and the end of the sequence takes it away.
-/
import Chm.CfgInfo
import Chm.Lib.Along

namespace Chm
namespace Conf

/-! ## The stack -/

/-- `yaml_event_type_t`. -/
inductive YamlType
  | noEvent | streamStart | streamEnd | documentStart | documentEnd | aliasEvent | scalar
  | sequenceStart | sequenceEnd | mappingStart | mappingEnd
  deriving DecidableEq, Repr

namespace YamlType

/-- `CHMYAML_STACK_IS_CLOSED_TYPE`. -/
def isClosed : YamlType → Bool
  | streamEnd | documentEnd | mappingEnd | sequenceEnd | scalar | aliasEvent => true
  | _ => false

/-- `CHMYAML_STACK_GET_SYMMETRY_TYPE`. -/
def symmetry : YamlType → YamlType
  | noEvent => noEvent
  | streamStart => streamEnd
  | streamEnd => streamStart
  | documentStart => documentEnd
  | documentEnd => documentStart
  | mappingStart => mappingEnd
  | mappingEnd => mappingStart
  | sequenceStart => sequenceEnd
  | sequenceEnd => sequenceStart
  | scalar => scalar
  | aliasEvent => aliasEvent

end YamlType

/-- `CHM_YAML_DATAPAIR`. -/
structure YamlDataPair where
  first : YamlType
  second : YamlType := .noEvent
  deriving DecidableEq, Repr

/-- The entries of a `CHMYamlDataStack`, the top first. -/
abbrev YamlDataStack := List YamlDataPair

namespace YamlDataStack

open YamlType

/-- `add` of the start of a mapping or a sequence. -/
def addStart (type : YamlType) : YamlDataStack → Option YamlDataStack
  | [] => some [{ first := type }]
  | e :: stack =>
    if e.second ≠ noEvent then
      if e.second.isClosed then addStart type stack
      else some ({ first := type } :: e :: stack)
    else if e.first = noEvent then some ({ e with first := type } :: stack)
    else if e.first.isClosed then some ({ e with second := type } :: stack)
    else some ({ first := type } :: e :: stack)

/-- `add` of the end of a mapping or a sequence. -/
def addEnd (type : YamlType) : YamlDataStack → Option YamlDataStack
  | [] => none
  | e :: stack =>
    if e.second ≠ noEvent then
      if type = e.second.symmetry then some stack
      else if e.second.isClosed then addEnd type stack
      else none
    else if type = e.first.symmetry then some ({ e with first := type } :: stack)
    else if e.first.isClosed then addEnd type stack
    else none

/-- `add` of a scalar. -/
def addScalar (type : YamlType) : YamlDataStack → Option YamlDataStack
  | [] => some [{ first := type }]
  | e :: stack =>
    if e.second ≠ noEvent then
      if e.second.isClosed then addScalar type stack
      else some ({ first := type } :: e :: stack)
    else if e.first ≠ noEvent then
      if e.first.isClosed then some stack
      else some ({ first := type } :: e :: stack)
    else some ({ e with first := type } :: stack)

/-- `CHMYamlDataStack::add`, or nothing when it fails. -/
def add (stack : YamlDataStack) (type : YamlType) : Option YamlDataStack :=
  match type with
  | noEvent => some stack
  | documentStart | streamStart => some ({ first := type } :: stack)
  | documentEnd | streamEnd =>
    match stack with
    | [] => none
    | e :: stack => if type = e.first.symmetry then none else some stack
  | mappingStart | sequenceStart => addStart type stack
  | mappingEnd | sequenceEnd => addEnd type stack
  | scalar | aliasEvent => addScalar type stack

end YamlDataStack

/-! ## Documents -/

/-- An event of the parser. -/
inductive YamlEvent
  | noEvent | streamStart | streamEnd | documentStart | documentEnd | aliasEvent
  | scalar (value : CStr)
  | sequenceStart | sequenceEnd | mappingStart | mappingEnd
  deriving DecidableEq, Repr

def YamlEvent.type : YamlEvent → YamlType
  | noEvent => .noEvent
  | streamStart => .streamStart
  | streamEnd => .streamEnd
  | documentStart => .documentStart
  | documentEnd => .documentEnd
  | aliasEvent => .aliasEvent
  | scalar _ => .scalar
  | sequenceStart => .sequenceStart
  | sequenceEnd => .sequenceEnd
  | mappingStart => .mappingStart
  | mappingEnd => .mappingEnd

/-- A node of a document without aliases. -/
inductive YamlNode
  | scalar (value : CStr)
  | sequence (items : List YamlNode)
  | mapping (entries : List (YamlNode × YamlNode))

mutual

/-- The events of a node. -/
def YamlNode.events : YamlNode → List YamlEvent
  | .scalar value => [.scalar value]
  | .sequence items => .sequenceStart :: (itemEvents items ++ [.sequenceEnd])
  | .mapping entries => .mappingStart :: (entryEvents entries ++ [.mappingEnd])

def itemEvents : List YamlNode → List YamlEvent
  | [] => []
  | item :: items => item.events ++ itemEvents items

def entryEvents : List (YamlNode × YamlNode) → List YamlEvent
  | [] => []
  | (key, value) :: entries => key.events ++ value.events ++ entryEvents entries

end

/-! ## One event -/

namespace YamlDataStack

open YamlType Along

/-- The stack behind an event. -/
def skip (stack : YamlDataStack) (ev : YamlEvent) : Option YamlDataStack := stack.add ev.type

/-- A key that waits for its value, or an item of a sequence. -/
def Pending (e : YamlDataPair) : Prop :=
  e.second = noEvent ∧ (e.first = scalar ∨ e.first = sequenceEnd ∨ e.first = mappingEnd)

/-- A collection that waits for its end. -/
def Opened (e : YamlDataPair) : Prop :=
  (e.second = mappingStart ∨ e.second = sequenceStart) ∨
    e.second = noEvent ∧ (e.first = mappingStart ∨ e.first = sequenceStart)

/-- No entry waits for a value. -/
def Idle (stack : YamlDataStack) : Prop := ∀ e ∈ stack.head?, Opened e

/-- Entries have been put on a stack. -/
def Above (base stack : YamlDataStack) : Prop := ∃ top, top ≠ [] ∧ stack = top ++ base

/-- A stack behind a node of an opened collection: with an entry that is left, or without. -/
def Settled (base stack : YamlDataStack) : Prop :=
  stack = base ∨ ∃ c, Pending c ∧ stack = c :: base

/-- A type opens a collection and the other one closes it. -/
def Brackets (start stop : YamlType) : Prop :=
  start = mappingStart ∧ stop = mappingEnd ∨ start = sequenceStart ∧ stop = sequenceEnd

variable {stack base : YamlDataStack} {c o : YamlDataPair} {start stop : YamlType}

theorem above_cons (e : YamlDataPair) (base : YamlDataStack) : Above base (e :: base) :=
  ⟨[e], List.cons_ne_nil _ _, rfl⟩

theorem Above.of_cons (h : Above (o :: base) stack) : Above base stack := by
  obtain ⟨top, _, rfl⟩ := h
  exact ⟨top ++ [o], by simp, by simp⟩

theorem addStart_idle (h : Idle stack) :
    addStart start stack = some ({ first := start } :: stack) := by
  cases stack with
  | nil => rfl
  | cons e stack =>
    obtain ⟨first, second⟩ := e
    rcases h _ rfl with (hs | hs) | ⟨hs, hf | hf⟩ <;> cases hs
    · rfl
    · rfl
    · cases hf
      rfl
    · cases hf
      rfl

theorem addStart_pending (h : Pending c) :
    addStart start (c :: base) = some ({ c with second := start } :: base) := by
  obtain ⟨first, second⟩ := c
  obtain ⟨hs, hf⟩ := h
  cases hs
  rcases hf with hf | hf | hf <;> cases hf <;> rfl

theorem addScalar_idle (h : Idle stack) :
    addScalar scalar stack = some ({ first := scalar } :: stack) := by
  cases stack with
  | nil => rfl
  | cons e stack =>
    obtain ⟨first, second⟩ := e
    rcases h _ rfl with (hs | hs) | ⟨hs, hf | hf⟩ <;> cases hs
    · rfl
    · rfl
    · cases hf
      rfl
    · cases hf
      rfl

theorem addScalar_pending (h : Pending c) : addScalar scalar (c :: base) = some base := by
  obtain ⟨first, second⟩ := c
  obtain ⟨hs, hf⟩ := h
  cases hs
  rcases hf with hf | hf | hf <;> cases hf <;> rfl

/-- The entry that an item leaves does not matter at the end of its collection. -/
theorem addEnd_settled (hb : Brackets start stop) (h : Settled base stack) :
    addEnd stop stack = addEnd stop base := by
  rcases h with rfl | ⟨c, ⟨hs, hf⟩, rfl⟩
  · rfl
  · obtain ⟨first, second⟩ := c
    cases hs
    rcases hb with ⟨-, rfl⟩ | ⟨-, rfl⟩ <;> rcases hf with hf | hf | hf <;> cases hf <;> rfl

theorem addEnd_first (hb : Brackets start stop) :
    addEnd stop ({ first := start } :: base) = some ({ first := stop } :: base) := by
  rcases hb with ⟨rfl, rfl⟩ | ⟨rfl, rfl⟩ <;> rfl

theorem addEnd_second (hb : Brackets start stop) (first : YamlType) :
    addEnd stop (⟨first, start⟩ :: base) = some base := by
  rcases hb with ⟨rfl, rfl⟩ | ⟨rfl, rfl⟩ <;> rfl

/-! ## The events of a node -/

/-- What the events of a node do: they put an entry on an idle stack, and take away one that waits;
the stack is not down at its base before the last event. -/
structure NodeRuns (evs : List YamlEvent) : Prop where
  idle : ∀ base, Idle base → ∃ c, Pending c ∧ Runs skip (Above base) base evs (c :: base)
  pending : ∀ c base, Pending c → ∃ init ev stack, evs = init ++ [ev] ∧
    Runs skip (Above base) (c :: base) init stack ∧ skip stack ev = some base

/-- What the events of the nodes in a collection do. -/
def BodyRuns (evs : List YamlEvent) : Prop :=
  ∀ o base stack, Opened o → Settled (o :: base) stack →
    ∃ stack', Settled (o :: base) stack' ∧ Runs skip (Above base) stack evs stack'

theorem bodyRuns_nil : BodyRuns [] := fun _ _ stack _ hs => ⟨stack, hs, Runs.nil stack⟩

theorem BodyRuns.append {evs evs' : List YamlEvent} (h : BodyRuns evs) (h' : BodyRuns evs') :
    BodyRuns (evs ++ evs') := by
  intro o base stack ho hs
  obtain ⟨stack₁, hs₁, hrun₁⟩ := h o base stack ho hs
  obtain ⟨stack', hs', hrun'⟩ := h' o base stack₁ ho hs₁
  exact ⟨stack', hs', hrun₁.append hrun'⟩

theorem NodeRuns.body {evs : List YamlEvent} (h : NodeRuns evs) : BodyRuns evs := by
  intro o base stack ho hs
  have hidle : Idle (o :: base) := fun e he => by
    obtain rfl := Option.some.inj he
    exact ho
  rcases hs with rfl | ⟨c, hc, rfl⟩
  · obtain ⟨c, hc, hrun⟩ := h.idle _ hidle
    exact ⟨_, Or.inr ⟨c, hc, rfl⟩, hrun.mono fun _ => Above.of_cons⟩
  · obtain ⟨init, ev, stack, rfl, hrun, hlast⟩ := h.pending c (o :: base) hc
    exact ⟨_, Or.inl rfl,
      (hrun.mono fun _ => Above.of_cons).append (Runs.single hlast (above_cons o base))⟩

theorem nodeRuns_scalar (value : CStr) : NodeRuns [.scalar value] where
  idle base h := ⟨{ first := scalar }, ⟨rfl, Or.inl rfl⟩,
    Runs.single (addScalar_idle h) (above_cons _ base)⟩
  pending c base h := ⟨[], .scalar value, c :: base, rfl, Runs.nil _, addScalar_pending h⟩

/-- The events between the start and the end of a collection. -/
theorem nodeRuns_collection {evs : List YamlEvent} {evStart evStop : YamlEvent}
    (hb : Brackets evStart.type evStop.type) (h : BodyRuns evs) :
    NodeRuns (evStart :: (evs ++ [evStop])) := by
  have hstart : ∀ stack : YamlDataStack,
      skip stack evStart = addStart evStart.type stack := by
    intro stack
    rw [skip]
    rcases hb with ⟨hs, -⟩ | ⟨hs, -⟩ <;> rw [hs] <;> rfl
  have hstop : ∀ stack : YamlDataStack, skip stack evStop = addEnd evStop.type stack := by
    intro stack
    rw [skip]
    rcases hb with ⟨-, hs⟩ | ⟨-, hs⟩ <;> rw [hs] <;> rfl
  constructor
  · intro base hidle
    have ho : Opened { first := evStart.type } := by
      rcases hb with ⟨hs, -⟩ | ⟨hs, -⟩ <;> rw [hs]
      · exact Or.inr ⟨rfl, Or.inl rfl⟩
      · exact Or.inr ⟨rfl, Or.inr rfl⟩
    obtain ⟨stack, hs, hrun⟩ := h _ base _ ho (Or.inl rfl)
    refine ⟨{ first := evStop.type }, ⟨rfl, ?_⟩, ?_⟩
    · rcases hb with ⟨-, hs⟩ | ⟨-, hs⟩
      · exact Or.inr (Or.inr hs)
      · exact Or.inr (Or.inl hs)
    · have hlast : skip stack evStop = some ({ first := evStop.type } :: base) := by
        rw [hstop, addEnd_settled hb hs, addEnd_first hb]
      exact .cons ((hstart base).trans (addStart_idle hidle)) (above_cons _ base)
        (hrun.append (Runs.single hlast (above_cons _ base)))
  · intro c base hc
    have ho : Opened { c with second := evStart.type } := by
      rcases hb with ⟨hs, -⟩ | ⟨hs, -⟩ <;> rw [hs]
      · exact Or.inl (Or.inl rfl)
      · exact Or.inl (Or.inr rfl)
    obtain ⟨stack, hs, hrun⟩ := h _ base _ ho (Or.inl rfl)
    refine ⟨evStart :: evs, evStop, stack, rfl, ?_, ?_⟩
    · exact .cons ((hstart _).trans (addStart_pending hc)) (above_cons _ base) hrun
    · rw [hstop, addEnd_settled hb hs, addEnd_second hb]

mutual

theorem nodeRuns : ∀ node : YamlNode, NodeRuns node.events
  | .scalar value => by
    rw [YamlNode.events]
    exact nodeRuns_scalar value
  | .sequence items => by
    rw [YamlNode.events]
    exact nodeRuns_collection (Or.inr ⟨rfl, rfl⟩) (bodyRuns_items items)
  | .mapping entries => by
    rw [YamlNode.events]
    exact nodeRuns_collection (Or.inl ⟨rfl, rfl⟩) (bodyRuns_entries entries)

theorem bodyRuns_items : ∀ items : List YamlNode, BodyRuns (itemEvents items)
  | [] => by
    rw [itemEvents]
    exact bodyRuns_nil
  | item :: items => by
    rw [itemEvents]
    exact (nodeRuns item).body.append (bodyRuns_items items)

theorem bodyRuns_entries : ∀ entries : List (YamlNode × YamlNode), BodyRuns (entryEvents entries)
  | [] => by
    rw [entryEvents]
    exact bodyRuns_nil
  | (key, value) :: entries => by
    rw [entryEvents]
    exact ((nodeRuns key).body.append (nodeRuns value).body).append (bodyRuns_entries entries)

end

/-- The events of a key and its value go from the empty stack to the empty stack, and it is not
empty before the last of them. -/
theorem entry_runs (key value : YamlNode) : ∃ init ev stack,
    key.events ++ value.events = init ++ [ev] ∧ Runs skip (Above []) [] init stack ∧
      skip stack ev = some [] := by
  obtain ⟨c, hc, hkey⟩ := (nodeRuns key).idle [] fun e he => by cases he
  obtain ⟨init, ev, stack, hvalue, hrun, hlast⟩ := (nodeRuns value).pending c [] hc
  exact ⟨key.events ++ init, ev, stack, by rw [hvalue, List.append_assoc], hkey.append hrun, hlast⟩

/-- Behind some of the events of a key and its value the stack is empty when there are none or all
of them. -/
theorem run_take_entry (key value : YamlNode) (n : Nat) :
    ∃ stack, run skip [] ((key.events ++ value.events).take n) = some stack ∧
      (stack = [] ↔ n = 0 ∨ (key.events ++ value.events).length ≤ n) := by
  obtain ⟨init, ev, stack, heq, hrun, hlast⟩ := entry_runs key value
  rw [heq, List.length_append, List.length_singleton]
  by_cases hn : n ≤ init.length
  · rw [List.take_append_of_le_length hn]
    rw [← List.take_append_drop n init] at hrun
    obtain ⟨stack₁, hpre, -⟩ := hrun.split
    refine ⟨stack₁, hpre.run_eq, ?_⟩
    by_cases hzero : n = 0
    · subst hzero
      cases hpre
      exact iff_of_true rfl (Or.inl rfl)
    · have hne : init.take n ≠ [] := by
        intro hnil
        have hlen := congrArg List.length hnil
        rw [List.length_take, List.length_nil] at hlen
        omega
      obtain ⟨top, htop, rfl⟩ := hpre.last hne
      refine iff_of_false ?_ (by omega)
      rw [List.append_nil]
      exact htop
  · have hall : (init ++ [ev]).take n = init ++ [ev] :=
      List.take_of_length_le (by rw [List.length_append, List.length_singleton]; omega)
    refine ⟨[], ?_, iff_of_true rfl (Or.inr (by omega))⟩
    have hmono : Runs skip (fun _ => True) [] (init ++ [ev]) [] :=
      (hrun.mono fun _ _ => trivial).append (Runs.single hlast trivial)
    rw [hall]
    exact hmono.run_eq

end YamlDataStack

end Conf
end Chm
