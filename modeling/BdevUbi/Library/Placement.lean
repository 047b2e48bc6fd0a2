import Mathlib.Tactic.Common

/-!
Tokens and places. A token is described by how often it occurs at each place.
It is at a place when it occurs there once and nowhere else, and at no place when
it does not occur at all. Moving it from one place to another keeps this.
-/

namespace Placement

universe u v
variable {π : Type u} [DecidableEq π] {f g : π → Nat} {p q : Option π} {x : π}

def At (f : π → Nat) (p : Option π) : Prop := ∀ x, f x = if p = some x then 1 else 0

/-- `g` counts one occurrence less than `f` at `p` and one more at `q`. -/
def Moves (f g : π → Nat) (p q : Option π) : Prop :=
  ∀ x, g x + (if p = some x then 1 else 0) = f x + (if q = some x then 1 else 0)

theorem At.eq_some (h : At f p) (occurs : f x ≠ 0) : p = some x := by
  by_contra other
  exact occurs (by rw [h x, if_neg other])

theorem At.eq_one (h : At f (some x)) : f x = 1 := by rw [h x, if_pos rfl]

theorem At.unique (h : At f p) (h' : At f q) : p = q := by
  cases p with
  | some x => exact (h'.eq_some (by rw [h.eq_one]; exact Nat.one_ne_zero)).symm
  | none =>
      cases q with
      | none => rfl
      | some x => exact h.eq_some (by rw [h'.eq_one]; exact Nat.one_ne_zero)

theorem at_none : At f none ↔ ∀ x, f x = 0 := by simp [At]

theorem At.move (h : At f p) (m : Moves f g p q) : At g q := by
  intro x
  have := m x
  rw [h x] at this
  omega

section Tokens

variable {τ : Type v} {many next : τ → π → Nat} {a : τ}

/-- One of many tokens moves and the others stay. -/
structure Shift (many next : τ → π → Nat) (a : τ) (p q : Option π) : Prop where
  counts : Moves (many a) (next a) p q
  others : ∀ b, b ≠ a → next b = many b

theorem Shift.origin (h : Shift many next a p q) {b : τ} (there : next b x ≠ 0) :
    many b x ≠ 0 ∨ (b = a ∧ q = some x) := by
  by_cases same : b = a
  · subst same
    have counts := h.counts x
    by_cases target : q = some x
    · exact .inr ⟨rfl, target⟩
    · rw [if_neg target] at counts
      omega
  · rw [h.others b same] at there
    exact .inl there

theorem shift_move {p q : π} (apart : p ≠ q) (source : many a p = next a p + 1)
    (target : next a q = many a q + 1)
    (frame : ∀ b x, (b = a → x ≠ p ∧ x ≠ q) → next b x = many b x) :
    Shift many next a (some p) (some q) := by
  refine ⟨fun x => ?_, fun b other => funext fun x => frame b x fun same => absurd same other⟩
  by_cases atSource : p = x
  · subst atSource
    simp [Ne.symm apart, source]
  · by_cases atTarget : q = x
    · subst atTarget
      simp [atSource, target]
    · simp [atSource, atTarget, frame a x fun _ => ⟨Ne.symm atSource, Ne.symm atTarget⟩]

theorem shift_enter {q : π} (target : next a q = many a q + 1)
    (frame : ∀ b x, (b = a → x ≠ q) → next b x = many b x) : Shift many next a none (some q) := by
  refine ⟨fun x => ?_, fun b other => funext fun x => frame b x fun same => absurd same other⟩
  by_cases atTarget : q = x
  · subst atTarget
    simp [target]
  · simp [atTarget, frame a x fun _ => Ne.symm atTarget]

theorem shift_leave {p : π} (source : many a p = next a p + 1)
    (frame : ∀ b x, (b = a → x ≠ p) → next b x = many b x) : Shift many next a (some p) none := by
  refine ⟨fun x => ?_, fun b other => funext fun x => frame b x fun same => absurd same other⟩
  by_cases atSource : p = x
  · subst atSource
    simp [source]
  · simp [atSource, frame a x fun _ => Ne.symm atSource]

end Tokens

end Placement
