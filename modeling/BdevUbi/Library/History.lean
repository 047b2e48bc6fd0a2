import Mathlib.Data.List.Basic

/-!
Order of entries in a history. A history is a list with its newest entry first,
so one step of a machine is a `cons`, and an entry precedes another when it
stands further down the list.
-/

namespace History

universe u
variable {α : Type u} {a b c : α} {past : List α}

def Before (a b : α) : List α → Prop
  | [] => False
  | c :: past => (c = b ∧ a ∈ past) ∨ Before a b past

instance decidableBefore [DecidableEq α] (a b : α) : (log : List α) → Decidable (Before a b log)
  | [] => isFalse id
  | c :: past =>
    have := decidableBefore a b past
    inferInstanceAs (Decidable ((c = b ∧ a ∈ past) ∨ Before a b past))

@[simp] theorem before_nil : ¬ Before a b ([] : List α) := id

@[simp] theorem before_cons :
    Before a b (c :: past) ↔ (c = b ∧ a ∈ past) ∨ Before a b past := Iff.rfl

theorem Before.mem_left (h : Before a b past) : a ∈ past := by
  induction past with
  | nil => exact h.elim
  | cons c past ih =>
      rcases h with ⟨_, older⟩ | older
      · exact List.mem_cons_of_mem _ older
      · exact List.mem_cons_of_mem _ (ih older)

theorem Before.mem_right (h : Before a b past) : b ∈ past := by
  induction past with
  | nil => exact h.elim
  | cons c past ih =>
      rcases h with ⟨rfl, _⟩ | older
      · exact List.mem_cons_self
      · exact List.mem_cons_of_mem _ (ih older)

theorem Before.cons (h : Before a b past) (c : α) : Before a b (c :: past) := Or.inr h

theorem Before.suffix {log : List α} (h : Before a b past) (older : past <:+ log) :
    Before a b log := by
  obtain ⟨recent, rfl⟩ := older
  induction recent with
  | nil => exact h
  | cons c recent ih => exact ih.cons c

theorem before_filter {p : α → Bool} {log : List α} (ha : p a = true) (hb : p b = true) :
    Before a b (log.filter p) ↔ Before a b log := by
  induction log with
  | nil => rfl
  | cons c past ih =>
      rw [List.filter_cons]
      split
      · rw [before_cons, before_cons, ih, List.mem_filter, and_iff_left ha]
      · next out =>
        have other : c ≠ b := by
          rintro rfl
          exact out hb
        rw [ih, before_cons, or_iff_right fun last => other last.1]

end History
