import Mathlib.Logic.Relation

/-!
Runs of a deterministic partial machine whose steps are labelled by events.
A run is constrained by a condition on each step's event and on the state in
front of it; an invariant only has to survive the steps the condition allows.
-/

namespace Runs

universe u v w
variable {σ : Type u} {ε : Type v} {η : Type w}

/-- States reached from `start` by steps that all meet `allowed`. -/
inductive Reach (step : σ → ε → Except η σ) (allowed : σ → ε → Prop) (start : σ) : σ → Prop
  | refl : Reach step allowed start start
  | tail {s t : σ} {e : ε} :
      Reach step allowed start s → allowed s e → step s e = .ok t → Reach step allowed start t

variable {step : σ → ε → Except η σ} {allowed other : σ → ε → Prop} {start s t : σ}

theorem Reach.invariant {P : σ → Prop} (init : P start)
    (keep : ∀ {s t : σ} {e : ε}, Reach step allowed start s → P s → allowed s e →
      step s e = .ok t → P t)
    (run : Reach step allowed start s) : P s := by
  induction run with
  | refl => exact init
  | tail before ok move ih => exact keep before ih ok move

theorem Reach.mono (weaker : ∀ s e, allowed s e → other s e)
    (run : Reach step allowed start s) : Reach step other start s := by
  induction run with
  | refl => exact .refl
  | tail _ ok move ih => exact .tail ih (weaker _ _ ok) move

theorem Reach.trans (first : Reach step allowed start s) (second : Reach step allowed s t) :
    Reach step allowed start t := by
  induction second with
  | refl => exact first
  | tail _ ok move ih => exact .tail ih ok move

/-- The same runs with their steps, newest first, each with the state in front of it. -/
inductive Trace (step : σ → ε → Except η σ) (allowed : σ → ε → Prop) (start : σ) :
    List (σ × ε) → σ → Prop
  | refl : Trace step allowed start [] start
  | tail {past : List (σ × ε)} {s t : σ} {e : ε} :
      Trace step allowed start past s → allowed s e → step s e = .ok t →
      Trace step allowed start ((s, e) :: past) t

theorem Trace.reach {past : List (σ × ε)} (run : Trace step allowed start past s) :
    Reach step allowed start s := by
  induction run with
  | refl => exact .refl
  | tail _ ok move ih => exact .tail ih ok move

theorem Trace.mono (weaker : ∀ s e, allowed s e → other s e) {past : List (σ × ε)}
    (run : Trace step allowed start past s) : Trace step other start past s := by
  induction run with
  | refl => exact .refl
  | tail _ ok move ih => exact .tail ih (weaker _ _ ok) move

theorem Trace.allowed_of_mem {past : List (σ × ε)} (run : Trace step allowed start past s) :
    ∀ e ∈ past, allowed e.1 e.2 := by
  induction run with
  | refl => simp
  | tail _ ok _ ih => exact List.forall_mem_cons.mpr ⟨ok, ih⟩

theorem Reach.exists_trace (run : Reach step allowed start s) :
    ∃ past, Trace step allowed start past s := by
  induction run with
  | refl => exact ⟨[], .refl⟩
  | tail _ ok move ih =>
      obtain ⟨past, traced⟩ := ih
      exact ⟨_, .tail traced ok move⟩

/-- The transitions of a relation along a path, newest first. -/
inductive Path (rel : σ → σ → Prop) (start : σ) : List (σ × σ) → σ → Prop
  | refl : Path rel start [] start
  | tail {past : List (σ × σ)} {s t : σ} :
      Path rel start past s → rel s t → Path rel start ((s, t) :: past) t

theorem Path.invariant {rel : σ → σ → Prop} {P : List (σ × σ) → σ → Prop} (init : P [] start)
    (keep : ∀ {past s t}, P past s → rel s t → P ((s, t) :: past) t) {past : List (σ × σ)}
    (path : Path rel start past s) : P past s := by
  induction path with
  | refl => exact init
  | tail _ move ih => exact keep ih move

theorem exists_path {rel : σ → σ → Prop} (run : Relation.ReflTransGen rel s t) :
    ∃ past, Path rel s past t := by
  induction run with
  | refl => exact ⟨[], .refl⟩
  | tail _ move ih =>
      obtain ⟨past, path⟩ := ih
      exact ⟨_, .tail path move⟩

/-- The executable run of a list of events whose steps all pass the test `ok`. -/
def exec (step : σ → ε → Except η σ) (ok : σ → ε → Bool) (start : σ) : List ε → Option σ
  | [] => some start
  | e :: es => if ok start e then
      match step start e with
      | .ok next => exec step ok next es
      | .error _ => none
    else none

/-- The test has to be right in the states the run reaches. -/
theorem reach_of_exec {ok : σ → ε → Bool}
    (sound : ∀ s e, Reach step allowed start s → ok s e = true → allowed s e) {es : List ε}
    (run : Reach step allowed start s) (done : exec step ok s es = some t) :
    Reach step allowed start t := by
  induction es generalizing s with
  | nil =>
      cases done
      exact run
  | cons e es ih =>
      simp only [exec] at done
      split at done
      · next passed =>
        split at done
        · next next move => exact ih (.tail run (sound _ _ run passed) move) done
        · cases done
      · cases done

theorem exists_reach_of_exec {ok : σ → ε → Bool}
    (sound : ∀ s e, Reach step allowed start s → ok s e = true → allowed s e)
    {es : List ε} {test : σ → Bool} (h : (exec step ok start es).any test = true) :
    ∃ t, Reach step allowed start t ∧ test t = true := by
  cases done : exec step ok start es with
  | none => simp [done] at h
  | some t => exact ⟨t, reach_of_exec sound .refl done, by simpa [done] using h⟩

end Runs
