import Mathlib.Logic.Function.Basic

/-!
Exclusive claims. A resource is marked as claimed exactly while some holder has it, and no
two holders have the same one. Holders take free resources and give back the ones they have.
-/

namespace Claims
open Function (update)

universe u v
variable {α : Type u} {ρ : Type v} [DecidableEq α] [DecidableEq ρ]
variable {claimed : ρ → Bool} {held : α → Option ρ} {a b : α} {x y : ρ}

structure Exclusive (claimed : ρ → Bool) (held : α → Option ρ) : Prop where
  claimed_iff : ∀ x, claimed x = true ↔ ∃ a, held a = some x
  unique : ∀ {a b x}, held a = some x → held b = some x → a = b

omit [DecidableEq α] [DecidableEq ρ] in
theorem exclusive_empty : Exclusive (fun _ : ρ => false) (fun _ : α => none) where
  claimed_iff _ := by simp
  unique h := nomatch h

omit [DecidableEq α] [DecidableEq ρ] in
theorem Exclusive.ne_of_free (h : Exclusive claimed held) (free : claimed x = false) :
    held a ≠ some x := by
  intro here
  rw [(h.claimed_iff x).mpr ⟨a, here⟩] at free
  cases free

theorem Exclusive.take (h : Exclusive claimed held) (free : claimed x = false)
    (idle : held a = none) : Exclusive (update claimed x true) (update held a (some x)) where
  claimed_iff y := by
    by_cases same : y = x
    · subst same
      simp only [Function.update_self, true_iff]
      exact ⟨a, Function.update_self ..⟩
    rw [Function.update_of_ne same, h.claimed_iff]
    constructor
    · rintro ⟨b, here⟩
      have other : b ≠ a := fun e => by rw [e, idle] at here; cases here
      exact ⟨b, by rw [Function.update_of_ne other, here]⟩
    · rintro ⟨b, here⟩
      by_cases mine : b = a
      · rw [mine, Function.update_self] at here
        exact absurd (Option.some.inj here).symm same
      · rw [Function.update_of_ne mine] at here
        exact ⟨b, here⟩
  unique {b c y} hb hc := by
    by_cases bmine : b = a <;> by_cases cmine : c = a
    · rw [bmine, cmine]
    · rw [bmine, Function.update_self] at hb
      rw [Function.update_of_ne cmine, ← hb] at hc
      exact absurd hc (h.ne_of_free free)
    · rw [cmine, Function.update_self] at hc
      rw [Function.update_of_ne bmine, ← hc] at hb
      exact absurd hb (h.ne_of_free free)
    · rw [Function.update_of_ne bmine] at hb
      rw [Function.update_of_ne cmine] at hc
      exact h.unique hb hc

theorem Exclusive.give (h : Exclusive claimed held) (here : held a = some x) :
    Exclusive (update claimed x false) (update held a none) where
  claimed_iff y := by
    by_cases same : y = x
    · subst same
      simp only [Function.update_self, Bool.false_eq_true, false_iff]
      rintro ⟨b, there⟩
      by_cases mine : b = a
      · rw [mine, Function.update_self] at there
        cases there
      · rw [Function.update_of_ne mine] at there
        exact mine (h.unique there here)
    rw [Function.update_of_ne same, h.claimed_iff]
    refine exists_congr fun b => ?_
    by_cases mine : b = a
    · rw [mine, Function.update_self, here]
      simp [Ne.symm same]
    · rw [Function.update_of_ne mine]
  unique {b c y} hb hc := by
    have bmine : b ≠ a := fun e => by rw [e, Function.update_self] at hb; cases hb
    have cmine : c ≠ a := fun e => by rw [e, Function.update_self] at hc; cases hc
    rw [Function.update_of_ne bmine] at hb
    rw [Function.update_of_ne cmine] at hc
    exact h.unique hb hc

end Claims
