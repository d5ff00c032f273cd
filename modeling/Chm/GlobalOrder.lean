/-
The keys of the GLOBAL section in another order.

The section is a run over its entries, each read with what it looks at.  Entries with different keys
swap there, so the section does the same in each order in which the keys look at the same; and in an
accepted section what the keys look at can be told from what is stored.
-/
import Chm.GlobalKeys

namespace Chm
namespace Conf

open Along

/-! ## Entries -/

/-- An entry of the GLOBAL section. -/
def globalStep (env : LoadEnv) (l : Loading) (e : YamlEntry) : Option Loading :=
  match textsOf e with
  | none => none
  | some (key, value) => globalEntry env key value l

/-- An entry, read with what it looks at. -/
def readEntry (env : LoadEnv) (l : Loading) (x : YamlEntry × Look) : Option Loading :=
  match textsOf x.1 with
  | none => none
  | some (key, value) =>
    match GlobalKey.ofText key with
    | none => some l
    | some key => key.readLook env value x.2 l

section Entries

variable {env : LoadEnv} {l l' : Loading} {e e' : YamlEntry} {es es' : List YamlEntry} {s s' : Seen}

theorem globalStep_look (l : Loading) (e : YamlEntry) :
    globalStep env l e = readEntry env l (e, entryLook env l.seen e) := by
  simp only [globalStep, globalEntry, readEntry, entryLook]
  cases textsOf e with
  | none => rfl
  | some texts =>
    dsimp only
    cases GlobalKey.ofText texts.1 with
    | none => rfl
    | some key => exact key.read_look l

theorem readEntry_writes (env : LoadEnv) (s : Seen) (e : YamlEntry) (l₀ : Loading) :
    WritesOnly Loading.put (keyOf GlobalKey.ofText e)
      fun l => readEntry env l (e, entryLook env s e) := by
  simp only [readEntry, entryLook, keyOf]
  cases textsOf e with
  | none => exact .fails fun l => rfl
  | some texts =>
    rw [Option.bind_some]
    dsimp only
    cases GlobalKey.ofText texts.1 with
    | none => exact .keeps fun l => rfl
    | some key => exact key.readLook_writes env texts.2 s l₀

theorem GlobalKey.sameKey_of_keyOf {key : GlobalKey} (h : keyOf ofText e = some key)
    (h' : keyOf ofText e' = some key) : sameKey e.1 e'.1 :=
  Conf.sameKey_of_keyOf table (fun _ => rfl) (by decide) h h'

theorem readEntry_swaps (env : LoadEnv) (hne : ¬sameKey e.1 e'.1) (s s' : Seen) :
    Swaps (readEntry env) (e, entryLook env s e) (e', entryLook env s' e') := by
  intro l
  refine (readEntry_writes env s e l).swaps (readEntry_writes env s' e' l) (fun v v' l => ?_) l
  refine Loading.blend_comm (fun key hkey => ?_) v v' l
  have hown := of_decide_eq_true hkey
  exact decide_eq_false fun hown' => hne (GlobalKey.sameKey_of_keyOf hown hown')

theorem mem_looks {x : YamlEntry × Look} (h : x ∈ looks env s es) :
    x.1 ∈ es ∧ ∃ s', x.2 = entryLook env s' x.1 := by
  induction es generalizing s with
  | nil => cases h
  | cons e es ih =>
    rcases List.mem_cons.mp h with rfl | h
    · exact ⟨List.mem_cons_self, s, rfl⟩
    · obtain ⟨hmem, hlook⟩ := ih h
      exact ⟨List.mem_cons_of_mem e hmem, hlook⟩

theorem looks_swaps (hdistinct : DistinctKeys es) (s : Seen) :
    (looks env s es).Pairwise (Swaps (readEntry env)) := by
  induction es generalizing s with
  | nil => exact .nil
  | cons e es ih =>
    obtain ⟨hne, hdistinct⟩ := List.pairwise_cons.mp hdistinct
    refine .cons (fun x hx => ?_) (ih hdistinct (s.next e))
    obtain ⟨hmem, s', hlook⟩ := mem_looks hx
    have hswap := readEntry_swaps env (hne x.1 hmem) s s'
    rwa [← hlook] at hswap

theorem globalStep_seen (h : globalStep env l e = some l') : l'.seen = l.seen.next e := by
  simp only [globalStep, globalEntry] at h
  simp only [Seen.next]
  cases htexts : textsOf e with
  | none =>
    rw [htexts] at h
    cases h
  | some texts =>
    rw [htexts] at h
    dsimp only at h ⊢
    cases hkey : GlobalKey.ofText texts.1 with
    | none =>
      rw [hkey] at h
      obtain rfl := Option.some.inj h
      rfl
    | some key =>
      rw [hkey] at h
      exact GlobalKey.read_seen h

theorem run_looks (l : Loading) :
    run (globalStep env) l es = run (readEntry env) l (looks env l.seen es) := by
  induction es generalizing l with
  | nil => rfl
  | cons e es ih =>
    rw [run, looks, run, ← globalStep_look]
    cases hstep : globalStep env l e with
    | none => rfl
    | some l' =>
      rw [Option.bind_some, Option.bind_some, ← globalStep_seen hstep]
      exact ih l'

/-- The section is read to the same when each key looks at the same. -/
theorem run_sameLooks (hdistinct : DistinctKeys es)
    (h : (looks env l.seen es).Perm (looks env l.seen es')) :
    run (globalStep env) l es = run (globalStep env) l es' := by
  rw [run_looks, run_looks]
  exact run_perm h (looks_swaps hdistinct l.seen) l

end Entries

/-! ## The section -/

section Section

variable {env : LoadEnv} {l l' l₁ l₂ : Loading} {e e' : YamlEntry} {es es' : List YamlEntry}

theorem globalLoop_entries (hkeyed : Keyed es) (l : Loading) (rest : List YamlEvent) :
    globalLoop env [] l (entryEvents es ++ .mappingEnd :: rest) =
      (run (globalStep env) l es).bind fun l =>
        if globalAccepted l then some (l, rest) else none := by
  induction es generalizing l with
  | nil => rfl
  | cons e es ih =>
    obtain ⟨key, value⟩ := e
    have hkeyed' : Keyed es := fun v hmem => hkeyed v (List.mem_cons_of_mem _ hmem)
    rw [entryEvents, List.append_assoc, List.append_assoc, run]
    cases key with
    | scalar key =>
      cases value with
      | scalar value =>
        rw [YamlNode.events, YamlNode.events]
        show globalLoop env [] l
          (.scalar key :: .scalar value :: (entryEvents es ++ .mappingEnd :: rest)) = _
        have hstep : globalStep env l (.scalar key, .scalar value) = globalEntry env key value l :=
          rfl
        rw [hstep]
        by_cases hkey : key = []
        · subst hkey
          obtain rfl := hkeyed value List.mem_cons_self
          have hentry : globalEntry env [] [] l = some l := by
            have hnone : GlobalKey.ofText [] = none := by decide
            rw [globalEntry, hnone]
          rw [hentry]
          exact ih hkeyed' l
        · rw [globalLoop, if_pos rfl, globalLoop, if_neg hkey]
          cases globalEntry env key value l with
          | none => rfl
          | some l' => exact ih hkeyed' l'
      | _ =>
        rw [YamlNode.events, YamlNode.events]
        show globalLoop env [] l (.scalar key :: _) = _
        rw [globalLoop, if_pos rfl]
        rfl
    | _ =>
      rw [YamlNode.events]
      rfl

theorem globalSec_mapping (hkeyed : Keyed es) (l : Loading) (rest : List YamlEvent) :
    globalSec env l ((YamlNode.mapping es).events ++ rest) =
      (run (globalStep env) (globalDefaults env l) es).bind fun l =>
        if globalAccepted l then some (l, rest) else none := by
  rw [YamlNode.events, List.cons_append, List.append_assoc, List.singleton_append]
  exact globalLoop_entries hkeyed (globalDefaults env l) rest

/-- The section in another order does the same when each key looks at the same. -/
theorem globalSec_sameLooks (hdistinct : DistinctKeys es) (hkeyed : Keyed es)
    (hperm : es.Perm es') (h : SameLooks env es es') (l : Loading) (rest : List YamlEvent) :
    globalSec env l ((YamlNode.mapping es').events ++ rest) =
      globalSec env l ((YamlNode.mapping es).events ++ rest) := by
  have hrun := run_sameLooks (l := globalDefaults env l) hdistinct h
  rw [globalSec_mapping hkeyed, globalSec_mapping (hkeyed.perm hperm), hrun]

end Section

end Conf
end Chm
