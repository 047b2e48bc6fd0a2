import Mathlib.Algebra.BigOperators.Group.Finset.Basic
import BdevUbi.Library.Runs

/-!
Potentials of tables. A table's potential is the sum of its entries' weights over
a finite set of positions; changing one entry changes one summand. A relation whose
steps lower a potential has no long paths, whatever steps are taken.
-/

namespace Potential

universe u v
variable {ι : Type u} {α : Type v} {S : Finset ι} {w : ι → α → Nat} {f g : ι → α} {i : ι}

def total (S : Finset ι) (w : ι → α → Nat) (f : ι → α) : Nat := ∑ i ∈ S, w i (f i)

theorem total_congr (same : ∀ i ∈ S, w i (g i) = w i (f i)) : total S w g = total S w f :=
  Finset.sum_congr rfl same

section Update

variable [DecidableEq ι]

theorem total_eq (here : i ∈ S) : total S w f = total (S.erase i) w f + w i (f i) :=
  (Finset.sum_erase_add S _ here).symm

theorem total_update (here : i ∈ S) (a : α) :
    total S w (Function.update f i a) = total (S.erase i) w f + w i a := by
  rw [total_eq here, Function.update_self, total_congr (f := f)]
  intro j there
  rw [Function.update_of_ne (Finset.ne_of_mem_erase there)]

theorem total_update_same {a : α} (same : w i a = w i (f i)) :
    total S w (Function.update f i a) = total S w f := by
  apply total_congr
  intro j _
  by_cases here : j = i
  · rw [here, Function.update_self, same]
  · rw [Function.update_of_ne here]

end Update

/-- The potential of a table whose positions are taken one after the other. -/
def outstanding (n : Nat) (w : α → Nat) (f : Nat → Option α) : Nat :=
  total (Finset.range n) (fun _ a => a.elim 0 w) f

section Outstanding

variable {w : α → Nat} {f : Nat → Option α} {n o : Nat}

theorem outstanding_start (a : α) :
    outstanding (n + 1) w (Function.update f n (some a)) = outstanding n w f + w a := by
  have kept : total (Finset.range n) (fun _ a => a.elim 0 w) (Function.update f n (some a)) =
      outstanding n w f := by
    apply total_congr
    intro o below
    rw [Function.update_of_ne (Finset.mem_range.mp below).ne]
  rw [outstanding, total, Finset.sum_range_succ, Function.update_self]
  exact congrArg (· + w a) kept

/-- The operations other than `o`. -/
def outstandingBut (o n : Nat) (w : α → Nat) (f : Nat → Option α) : Nat :=
  total ((Finset.range n).erase o) (fun _ a => a.elim 0 w) f

theorem outstanding_eq {a : α} (free : ∀ o, n ≤ o → f o = none) (here : f o = some a) :
    outstanding n w f = outstandingBut o n w f + w a := by
  have below : o < n := by
    by_contra above
    rw [free o (by omega)] at here
    cases here
  rw [outstanding, total_eq (Finset.mem_range.mpr below), here]
  rfl

theorem outstanding_update {a : α} (free : ∀ o, n ≤ o → f o = none) (here : f o = some a)
    (b : Option α) :
    outstanding n w (Function.update f o b) = outstandingBut o n w f + b.elim 0 w := by
  have below : o < n := by
    by_contra above
    rw [free o (by omega)] at here
    cases here
  exact total_update (Finset.mem_range.mpr below) b

end Outstanding

/-- Along a path whose steps lower a measure, the measure bounds the number of steps. -/
theorem path_length_le {σ : Type u} {rel : σ → σ → Prop} {P : σ → Prop} (measure : σ → Nat)
    {start s : σ} {past : List (σ × σ)} (keep : ∀ {s t}, P s → rel s t → P t)
    (lower : ∀ {s t}, P s → rel s t → measure t < measure s) (init : P start)
    (path : Runs.Path rel start past s) : past.length + measure s ≤ measure start := by
  have both : P s ∧ past.length + measure s ≤ measure start := by
    refine path.invariant (P := fun past s => P s ∧ past.length + measure s ≤ measure start)
      ⟨init, by simp⟩ ?_
    intro past s t before move
    have less := lower before.1 move
    refine ⟨keep before.1 move, ?_⟩
    rw [List.length_cons]
    omega
  exact both.2

theorem trace_length_le {σ : Type u} {ε η : Type v} {step : σ → ε → Except η σ}
    {allowed : σ → ε → Prop} {P : σ → Prop} (measure : σ → Nat) {start s : σ}
    {past : List (σ × ε)} (keep : ∀ {s t e}, P s → allowed s e → step s e = .ok t → P t)
    (lower : ∀ {s t e}, P s → allowed s e → step s e = .ok t → measure t < measure s)
    (init : P start) (run : Runs.Trace step allowed start past s) :
    P s ∧ past.length + measure s ≤ measure start := by
  induction run with
  | refl => exact ⟨init, by simp⟩
  | tail _ ok move ih =>
      have less := lower ih.1 ok move
      refine ⟨keep ih.1 ok move, ?_⟩
      rw [List.length_cons]
      omega

end Potential
