import Mathlib.Logic.Function.Basic
import Mathlib.Tactic.Common

/-!
A circular queue of `size` cells with a read and a write position and no element
count. Equal positions read as empty, so the queue holds at most `size - 1`
elements; writing one more makes it read as empty again.
-/

universe u

structure CircularQueue (α : Type u) where
  entries : Nat → α
  head : Nat
  tail : Nat

namespace CircularQueue
variable {α : Type u} {size : Nat}

def Bounded (size : Nat) (q : CircularQueue α) : Prop := q.head < size ∧ q.tail < size

instance (q : CircularQueue α) : Decidable (q.Bounded size) := inferInstanceAs (Decidable (_ ∧ _))

def push (size : Nat) (q : CircularQueue α) (a : α) : CircularQueue α :=
  { q with entries := Function.update q.entries q.tail a, tail := (q.tail + 1) % size }

def pop (size : Nat) (q : CircularQueue α) : CircularQueue α :=
  { q with head := (q.head + 1) % size }

/-- The elements between the read and the write position, oldest first. -/
def contents (size : Nat) (q : CircularQueue α) : List α :=
  (List.range ((q.tail + size - q.head) % size)).map fun i => q.entries ((q.head + i) % size)

theorem bounded_push {q : CircularQueue α} (h : q.Bounded size) (a : α) :
    (q.push size a).Bounded size :=
  ⟨h.1, Nat.mod_lt _ (Nat.zero_lt_of_lt h.1)⟩

theorem bounded_pop {q : CircularQueue α} (h : q.Bounded size) : (q.pop size).Bounded size :=
  ⟨Nat.mod_lt _ (Nat.zero_lt_of_lt h.1), h.2⟩

theorem length_contents (q : CircularQueue α) :
    (q.contents size).length = (q.tail + size - q.head) % size := by
  simp [contents]

private theorem distance {head tail : Nat} (hh : head < size) (ht : tail < size) :
    (tail + size - head) % size = if head ≤ tail then tail - head else tail + size - head := by
  split
  · rw [show tail + size - head = tail - head + size by omega, Nat.add_mod_right,
      Nat.mod_eq_of_lt (by omega)]
  · rw [Nat.mod_eq_of_lt (by omega)]

private theorem next {i : Nat} (h : i < size) :
    (i + 1) % size = if i + 1 = size then 0 else i + 1 := by
  split
  · next last => rw [last, Nat.mod_self]
  · rw [Nat.mod_eq_of_lt (by omega)]

theorem contents_eq_nil {q : CircularQueue α} (h : q.Bounded size) :
    q.contents size = [] ↔ q.head = q.tail := by
  rw [← List.length_eq_zero_iff, length_contents, distance h.1 h.2]
  have := h.1
  have := h.2
  split <;> omega

theorem contents_push {q : CircularQueue α} (h : q.Bounded size) (a : α)
    (room : (q.tail + 1) % size ≠ q.head) :
    (q.push size a).contents size = q.contents size ++ [a] := by
  obtain ⟨hh, ht⟩ := h
  have hn := next ht
  have grow : ((q.tail + 1) % size + size - q.head) % size =
      (q.tail + size - q.head) % size + 1 := by
    rw [distance hh (Nat.mod_lt _ (Nat.zero_lt_of_lt hh)), distance hh ht]
    split at hn <;> split <;> split <;> omega
  have last : (q.head + (q.tail + size - q.head) % size) % size = q.tail := by
    rw [distance hh ht]
    split
    · rw [show q.head + (q.tail - q.head) = q.tail by omega, Nat.mod_eq_of_lt ht]
    · rw [show q.head + (q.tail + size - q.head) = q.tail + size by omega, Nat.add_mod_right,
        Nat.mod_eq_of_lt ht]
  simp only [contents, push, grow, List.range_succ, List.map_append, List.map_cons, List.map_nil,
    last, Function.update_self]
  congr 1
  apply List.map_congr_left
  intro i hi
  rw [List.mem_range, distance hh ht] at hi
  apply Function.update_of_ne
  intro same
  have : (q.head + i) % size = if q.head + i < size then q.head + i else q.head + i - size := by
    split
    · rw [Nat.mod_eq_of_lt (by assumption)]
    · rw [Nat.mod_eq_sub_mod (by omega), Nat.mod_eq_of_lt (by split at hi <;> omega)]
  split at hi <;> split at this <;> omega

/-- The cell in front of the read position stays free: the queue is full with one element
less than it has cells. -/
theorem full_iff {q : CircularQueue α} (h : q.Bounded size) :
    (q.tail + 1) % size = q.head ↔ (q.contents size).length + 1 = size := by
  obtain ⟨hh, ht⟩ := h
  have hn := next ht
  rw [length_contents, distance hh ht]
  split at hn <;> split <;> omega

/-- One element too many and every element of the queue is lost. -/
theorem contents_push_full {q : CircularQueue α} (h : q.Bounded size) (a : α)
    (full : (q.tail + 1) % size = q.head) : (q.push size a).contents size = [] := by
  rw [contents_eq_nil (bounded_push h a)]
  exact full.symm

theorem contents_pop {q : CircularQueue α} (h : q.Bounded size) (some : q.head ≠ q.tail) :
    q.contents size = q.entries q.head :: (q.pop size).contents size := by
  obtain ⟨hh, ht⟩ := h
  have hn := next hh
  have shrink : (q.tail + size - q.head) % size =
      (q.tail + size - (q.head + 1) % size) % size + 1 := by
    rw [distance (Nat.mod_lt _ (Nat.zero_lt_of_lt hh)) ht, distance hh ht]
    split at hn <;> split <;> split <;> omega
  simp only [contents, pop, shrink, List.range_succ_eq_map, List.map_cons, List.map_map,
    Nat.add_zero, Nat.mod_eq_of_lt hh]
  congr 1
  apply List.map_congr_left
  intro i _
  simp only [Function.comp_apply]
  rw [Nat.mod_add_mod]
  congr 2
  omega

end CircularQueue
