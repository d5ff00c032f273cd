/-
Last-writer-wins registers.

Every replica holds at most one value with the time of the update that wrote it.  A
replica writes a value with a time of its own, and receives values that another
replica has seen, in any order and any number of times; it keeps the newer one.
What the replicas have seen is kept as a ghost.  When every replica has seen the
newest value, every replica holds it.
-/
import Mathlib.Data.Set.Insert
import Mathlib.Logic.Function.Basic
import Mathlib.Logic.Relation
import Mathlib.Order.Defs.LinearOrder
import Mathlib.Tactic.Tauto

/-- A value and the time of the update that wrote it. -/
structure Stamped (ω α : Type*) where
  time : ω
  value : α

namespace LastWriter

variable {ι ω α : Type*} [LinearOrder ω]

/-- What a register holds after a value has come in. -/
def take (held : Option (Stamped ω α)) (a : Stamped ω α) : Option (Stamped ω α) :=
  match held with
  | none => some a
  | some b => if b.time ≤ a.time then some a else some b

/-- A register is never older than what has come in, or what it held. -/
theorem take_spec (held : Option (Stamped ω α)) (a : Stamped ω α) :
    ∃ b, take held a = some b ∧ (b = a ∨ held = some b) ∧ a.time ≤ b.time ∧
      ∀ c, held = some c → c.time ≤ b.time := by
  cases held with
  | none => exact ⟨a, rfl, Or.inl rfl, le_refl _, fun c hc => by cases hc⟩
  | some b =>
    by_cases hle : b.time ≤ a.time
    · refine ⟨a, if_pos hle, Or.inl rfl, le_refl _, ?_⟩
      intro c hc
      cases hc
      exact hle
    · refine ⟨b, if_neg hle, Or.inr rfl, le_of_not_ge hle, ?_⟩
      intro c hc
      cases hc
      exact le_refl _

/-- The registers of the replicas, and the values that each has seen. -/
structure Cluster (ι ω α : Type*) where
  held : ι → Option (Stamped ω α)
  seen : ι → Set (Stamped ω α)

section Step

variable [DecidableEq ι]

/-- A value comes in at a replica. -/
def Cluster.take (c : Cluster ι ω α) (i : ι) (a : Stamped ω α) : Cluster ι ω α where
  held := Function.update c.held i (LastWriter.take (c.held i) a)
  seen := Function.update c.seen i (insert a (c.seen i))

/-- A replica writes a value that is newer than its own, at a time that no other
value has, or receives a value that a replica has seen. -/
inductive Step : Cluster ι ω α → Cluster ι ω α → Prop
  | write {c : Cluster ι ω α} (i : ι) (a : Stamped ω α) :
      (∀ b, c.held i = some b → b.time < a.time) → (∀ j, ∀ b ∈ c.seen j, b.time ≠ a.time) →
        Step c (c.take i a)
  | receive {c : Cluster ι ω α} (i j : ι) (a : Stamped ω α) : a ∈ c.seen j → Step c (c.take i a)

/-- A run of steps. -/
abbrev Run (c c' : Cluster ι ω α) : Prop := Relation.ReflTransGen Step c c'

end Step

/-- A replica has seen what it holds and holds nothing older than what it has seen,
and no two values have one time. -/
structure Coherent (c : Cluster ι ω α) : Prop where
  held : ∀ i a, c.held i = some a → a ∈ c.seen i
  newest : ∀ i, ∀ a ∈ c.seen i, ∃ b, c.held i = some b ∧ a.time ≤ b.time
  unique : ∀ i j, ∀ a ∈ c.seen i, ∀ b ∈ c.seen j, a.time = b.time → a = b

namespace Coherent

variable {c c' : Cluster ι ω α}

variable [DecidableEq ι]

theorem seen_take (c : Cluster ι ω α) (i j : ι) (a b : Stamped ω α) :
    b ∈ (c.take i a).seen j ↔ b ∈ c.seen j ∨ (j = i ∧ b = a) := by
  show b ∈ Function.update c.seen i (insert a (c.seen i)) j ↔ _
  rw [Function.update_apply]
  by_cases hj : j = i
  · rw [if_pos hj, hj, Set.mem_insert_iff]
    tauto
  · rw [if_neg hj]
    tauto

theorem held_take (c : Cluster ι ω α) (i j : ι) (a : Stamped ω α) :
    (c.take i a).held j = if j = i then LastWriter.take (c.held i) a else c.held j :=
  Function.update_apply c.held i _ j

/-- A value that is new, or one that some replica has seen, keeps a cluster
coherent. -/
theorem take (h : Coherent c) (i : ι) (a : Stamped ω α)
    (ha : ∀ j, ∀ b ∈ c.seen j, b.time = a.time → b = a) : Coherent (c.take i a) := by
  obtain ⟨b, hb, hba, hle, hheld⟩ := take_spec (c.held i) a
  refine ⟨fun j d hd => ?_, fun j d hd => ?_, fun j k d hd e he hde => ?_⟩
  · rw [held_take] at hd
    rw [seen_take]
    split at hd
    · rename_i hj
      rw [hb] at hd
      cases hd
      rcases hba with rfl | hba
      · exact Or.inr ⟨hj, rfl⟩
      · exact Or.inl (hj ▸ h.held i b hba)
    · exact Or.inl (h.held j d hd)
  · rw [held_take]
    rw [seen_take] at hd
    split
    · rename_i hj
      rw [hj] at hd
      refine ⟨b, hb, ?_⟩
      rcases hd with hd | ⟨-, rfl⟩
      · obtain ⟨e, he, hde⟩ := h.newest i d hd
        exact hde.trans (hheld e he)
      · exact hle
    · rename_i hj
      rcases hd with hd | ⟨hj', -⟩
      · exact h.newest j d hd
      · exact absurd hj' hj
  · rw [seen_take] at hd he
    rcases hd with hd | ⟨-, rfl⟩ <;> rcases he with he | ⟨-, rfl⟩
    · exact h.unique j k d hd e he hde
    · exact ha j d hd hde
    · exact (ha k e he hde.symm).symm
    · rfl

theorem step (h : Coherent c) (hs : Step c c') : Coherent c' := by
  cases hs with
  | write i a _ hnew => exact h.take i a fun j b hb he => absurd he (hnew j b hb)
  | receive i j a ha => exact h.take i a fun k b hb he => h.unique k j b hb a ha he

/-- A run keeps a cluster coherent. -/
theorem run (h : Coherent c) (hr : Run c c') : Coherent c' := by
  induction hr with
  | refl => exact h
  | tail _ hs ih => exact ih.step hs

end Coherent
end LastWriter
