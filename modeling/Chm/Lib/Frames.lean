/-
A stream into which one call after the other writes.

What has been written is kept as the calls that have ended and the one that is going on.  Each of
them has written a prefix of what it is to write, and one that has succeeded the whole of it.
-/
import Mathlib.Data.List.Basic

namespace Frames

variable {τ α : Type*}

/-- A call: who makes it, what it is to write and what it has written. -/
structure Frame (τ α : Type*) where
  writer : τ
  whole : List α
  written : List α
  deriving DecidableEq

/-- The calls on a stream that have ended, with their results, and the one that is going on. -/
structure Log (τ α : Type*) where
  ended : List (Frame τ α × Bool)
  current : Option (Frame τ α)
  deriving DecidableEq

namespace Log

def empty : Log τ α := ⟨[], none⟩

/-- What is in the stream. -/
def contents (l : Log τ α) : List α :=
  (l.ended.map (·.1.written)).flatten ++ (l.current.map (·.written)).getD []

/-- A call begins. -/
def start (writer : τ) (whole : List α) (l : Log τ α) : Log τ α :=
  { l with current := some ⟨writer, whole, []⟩ }

/-- The call that is going on writes. -/
def write (xs : List α) (l : Log τ α) : Log τ α :=
  { l with current := l.current.map fun f => { f with written := f.written ++ xs } }

/-- It ends. -/
def finish (ok : Bool) (l : Log τ α) : Log τ α :=
  match l.current with
  | some f => ⟨l.ended ++ [(f, ok)], none⟩
  | none => l

/-- Every call has written a prefix, one that has succeeded everything. -/
structure Sound (l : Log τ α) : Prop where
  ended : ∀ e ∈ l.ended, e.1.written <+: e.1.whole ∧ (e.2 = true → e.1.written = e.1.whole)
  current : ∀ f, l.current = some f → f.written <+: f.whole

variable {l : Log τ α} {f : Frame τ α} {xs : List α} {ok : Bool}

theorem sound_empty : (empty : Log τ α).Sound :=
  ⟨fun _ he => absurd he List.not_mem_nil, fun _ hf => by cases hf⟩

theorem contents_start (writer : τ) (whole : List α) (h : l.current = none) :
    (l.start writer whole).contents = l.contents := by
  rw [contents, contents, h]
  rfl

theorem contents_write (xs : List α) (h : l.current = some f) :
    (l.write xs).contents = l.contents ++ xs := by
  rw [contents, contents, write, h]
  exact (List.append_assoc ..).symm

theorem contents_finish (ok : Bool) (l : Log τ α) : (l.finish ok).contents = l.contents := by
  rw [finish]
  cases h : l.current with
  | none => rfl
  | some f =>
    rw [contents, contents, h, List.map_append, List.flatten_append]
    exact (List.append_nil _).trans (congrArg _ (List.append_nil f.written))

theorem Sound.start (h : l.Sound) (writer : τ) (whole : List α) : (l.start writer whole).Sound :=
  ⟨h.ended, fun f hf => by
    cases hf
    exact List.nil_prefix⟩

theorem Sound.write (h : l.Sound) (hf : l.current = some f) (hxs : f.written ++ xs <+: f.whole) :
    (l.write xs).Sound := by
  refine ⟨h.ended, fun g hg => ?_⟩
  rw [Log.write, hf] at hg
  cases hg
  exact hxs

theorem Sound.finish (h : l.Sound)
    (hok : ok = true → ∀ f, l.current = some f → f.written = f.whole) : (l.finish ok).Sound := by
  rw [Log.finish]
  cases hf : l.current with
  | none => exact h
  | some f =>
    refine ⟨fun e he => ?_, fun _ hg => by cases hg⟩
    rcases List.mem_append.mp he with he | he
    · exact h.ended e he
    · cases List.mem_singleton.mp he
      exact ⟨h.current f hf, fun htrue => hok htrue f hf⟩

/-- When every call has succeeded the stream holds what they were to write, one after the other. -/
theorem Sound.contents_eq (h : l.Sound) (hnone : l.current = none)
    (hall : ∀ e ∈ l.ended, e.2 = true) : l.contents = (l.ended.map (·.1.whole)).flatten := by
  have hmap : l.ended.map (·.1.written) = l.ended.map (·.1.whole) :=
    List.map_congr_left fun e he => (h.ended e he).2 (hall e he)
  rw [contents, hnone, hmap]
  exact List.append_nil _

end Log
end Frames
