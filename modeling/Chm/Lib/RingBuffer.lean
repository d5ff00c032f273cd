/-
A ring buffer.

The buffer has `size` slots and a place for the next element, which goes back to the first slot
behind the last one.  It holds the last `size` elements that were put in, the oldest one at the
place of the next (`Holds.push`).
-/
import Mathlib.Data.List.Basic
import Mathlib.Logic.Function.Basic

namespace RingBuffer

variable {α : Type*} {s : Nat → α} {a b c n next size : Nat} {l : List α} {x : α}

/-- The slots from `a` on, up to `b`. -/
def slots (s : Nat → α) (a b : Nat) : List α := (List.range' a (b - a)).map s

theorem slots_self : slots s a a = [] := by simp [slots]

theorem slots_cons (h : a < b) : slots s a b = s a :: slots s (a + 1) b := by
  have hlen : b - a = (b - (a + 1)) + 1 := by omega
  rw [slots, hlen, List.range'_succ, List.map_cons, slots]

theorem slots_concat (h : a ≤ b) : slots s a (b + 1) = slots s a b ++ [s b] := by
  have hlen : b + 1 - a = (b - a) + 1 := by omega
  have hlast : a + 1 * (b - a) = b := by omega
  rw [slots, hlen, List.range'_concat, hlast, List.map_append, slots]
  rfl

theorem length_slots : (slots s a b).length = b - a := by simp [slots]

theorem slots_update_of_lt (h : b ≤ n) : slots (Function.update s n x) a b = slots s a b := by
  refine List.map_congr_left fun i hi => Function.update_of_ne ?_ x s
  rw [List.mem_range'_1] at hi
  omega

theorem slots_update_of_gt (h : n < a) : slots (Function.update s n x) a b = slots s a b := by
  refine List.map_congr_left fun i hi => Function.update_of_ne ?_ x s
  rw [List.mem_range'_1] at hi
  omega

/-- The place behind a slot. -/
def after (size next : Nat) : Nat := if size ≤ next + 1 then 0 else next + 1

/-- All slots, from the oldest on. -/
def contents (s : Nat → α) (next size : Nat) : List α := slots s next size ++ slots s 0 next

/-- The buffer after the elements of `l` have been put in. -/
structure Holds (s : Nat → α) (next size : Nat) (l : List α) : Prop where
  next_eq : next = l.length % size
  growing : l.length < size → slots s 0 l.length = l
  full : size ≤ l.length → contents s next size = l.drop (l.length - size)

theorem holds_nil (hsize : 0 < size) : Holds s 0 size [] :=
  ⟨(Nat.zero_mod size).symm, fun _ => slots_self,
    fun h => absurd (Nat.lt_of_lt_of_le hsize h) (Nat.not_lt_zero 0)⟩

theorem Holds.next_lt (h : Holds s next size l) (hsize : 0 < size) : next < size :=
  h.next_eq ▸ Nat.mod_lt _ hsize

theorem after_eq (hn : n % size = next) (hsize : 0 < size) : after size next = (n + 1) % size := by
  have hlt : next < size := hn ▸ Nat.mod_lt _ hsize
  rw [after, Nat.add_mod, hn]
  split
  · have hnext : next + 1 = size := by omega
    rcases Nat.eq_or_lt_of_le hsize with h1 | h1
    · rw [← h1, Nat.mod_one]
    · rw [Nat.mod_eq_of_lt (a := 1) h1, hnext, Nat.mod_self]
  · rw [Nat.mod_eq_of_lt (a := 1) (by omega), Nat.mod_eq_of_lt (by omega)]

theorem contents_update (hnext : next < size) :
    contents (Function.update s next x) (after size next) size =
      (contents s next size).tail ++ [x] := by
  have hself : Function.update s next x next = x := Function.update_self next x s
  have hold : (contents s next size).tail = slots s (next + 1) size ++ slots s 0 next := by
    rw [contents, slots_cons hnext]
    rfl
  rw [hold, contents, after]
  split
  · -- the last slot was written: the oldest element is in the first one
    have hsize : size = next + 1 := by omega
    rw [hsize, slots_self, slots_self, slots_concat (Nat.zero_le next),
      slots_update_of_lt (Nat.le_refl next), hself, List.append_nil, List.nil_append]
  · rw [slots_update_of_gt (Nat.lt_succ_self next), slots_concat (Nat.zero_le next),
      slots_update_of_lt (Nat.le_refl next), hself, List.append_assoc]

/-- Putting an element in the place of the next. -/
theorem Holds.push (h : Holds s next size l) (hsize : 0 < size) (x : α) :
    Holds (Function.update s next x) (after size next) size (l ++ [x]) := by
  have hlen : (l ++ [x]).length = l.length + 1 := by simp
  have hnext := h.next_lt hsize
  refine ⟨?_, fun hlt => ?_, fun hle => ?_⟩
  · rw [hlen]
    exact after_eq h.next_eq.symm hsize
  · rw [hlen] at hlt ⊢
    have hplace : next = l.length := h.next_eq.trans (Nat.mod_eq_of_lt (Nat.lt_of_succ_lt hlt))
    rw [hplace, slots_concat (Nat.zero_le _), slots_update_of_lt (Nat.le_refl _),
      Function.update_self, h.growing (Nat.lt_of_succ_lt hlt)]
  · rw [hlen] at hle ⊢
    rw [contents_update hnext]
    rcases Nat.lt_or_ge l.length size with hlt | hge
    · -- the last slot has just been filled
      have hsize' : size = l.length + 1 := by omega
      have hplace : next = l.length := h.next_eq.trans (Nat.mod_eq_of_lt hlt)
      have hzero : l.length + 1 - size = 0 := by omega
      rw [hzero, List.drop_zero, contents, hplace, h.growing hlt, hsize',
        slots_cons (Nat.lt_succ_self _), slots_self]
      rfl
    · have hdrop : l.length + 1 - size = (l.length - size) + 1 := by omega
      rw [h.full hge, hdrop, List.tail_drop, List.drop_append_of_le_length (by omega)]

end RingBuffer
