import Mathlib.Data.Finset.Card

/-!
Counters of a set that changes by one element at a time.
-/

namespace Counting

universe u
variable {α : Type u} {p q : α → Prop} {n : Nat} {a : α}

def Counts (p : α → Prop) (n : Nat) : Prop := ∃ F : Finset α, (∀ a, a ∈ F ↔ p a) ∧ F.card = n

theorem counts_zero (none : ∀ a, ¬ p a) : Counts p 0 := ⟨∅, by simp [none], rfl⟩

theorem Counts.congr (h : Counts p n) (same : ∀ a, q a ↔ p a) : Counts q n := by
  obtain ⟨F, mem, card⟩ := h
  exact ⟨F, fun a => (mem a).trans (same a).symm, card⟩

theorem Counts.pos (h : Counts p n) (holds : p a) : 0 < n := by
  obtain ⟨F, mem, rfl⟩ := h
  exact Finset.card_pos.mpr ⟨a, (mem a).mpr holds⟩

theorem Counts.length_le (h : Counts p n) {xs : List α} (nodup : xs.Nodup)
    (all : ∀ a ∈ xs, p a) : xs.length ≤ n := by
  obtain ⟨F, mem, rfl⟩ := h
  exact Finset.card_le_card (s := ⟨(xs : Multiset α), nodup⟩) fun a here => (mem a).mpr (all a here)

variable [DecidableEq α]

theorem Counts.add (h : Counts p n) (new : ¬ p a) (grown : ∀ b, q b ↔ p b ∨ b = a) :
    Counts q (n + 1) := by
  obtain ⟨F, mem, rfl⟩ := h
  refine ⟨insert a F, fun b => ?_, Finset.card_insert_of_notMem fun here => new ((mem a).mp here)⟩
  rw [Finset.mem_insert, mem, grown, or_comm]

theorem Counts.remove (h : Counts p n) (old : p a) (shrunk : ∀ b, q b ↔ p b ∧ b ≠ a) :
    Counts q (n - 1) := by
  obtain ⟨F, mem, rfl⟩ := h
  refine ⟨F.erase a, fun b => ?_, Finset.card_erase_of_mem ((mem a).mpr old)⟩
  rw [Finset.mem_erase, mem, shrunk, and_comm]

end Counting
