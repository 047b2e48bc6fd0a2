import BdevUbi.Library.RegularRegister

/-!
Operations on a register as points on its line of versions. An operation that completes
takes effect at a version between the newest one at its submission and the newest one
at its completion; a write at one that did not exist at its submission. Such an order
of the operations never contradicts real time.
-/

universe u v

namespace AtomicRegister
open History RegularRegister

variable {ι : Type u} {E : Type v}

/-- `since i` was the newest version when operation `i` was submitted, and `index i` is the
version at which it takes effect. -/
structure Timeline (submitted completed : ι → E) (known writer : ι → Prop) (log : List E)
    (newest : Nat) (since index : ι → Nat) : Prop where
  since_le : ∀ i, known i → since i ≤ newest
  within : ∀ i, known i → completed i ∈ log → since i ≤ index i ∧ index i ≤ newest
  advances : ∀ i, known i → completed i ∈ log → writer i → since i < index i
  order : ∀ i j, known i → known j → Before (completed i) (submitted j) log → index i ≤ since j

variable {submitted completed : ι → E} {known known' writer writer' : ι → Prop} {log log' : List E}
  {newest newest' : Nat} {since index : ι → Nat}

namespace Timeline

/-- What completed before another operation was submitted takes effect before it. -/
theorem realTime (line : Timeline submitted completed known writer log newest since index)
    {i j : ι} (hi : known i) (hj : known j) (done : completed j ∈ log)
    (before : Before (completed i) (submitted j) log) :
    index i ≤ index j ∧ (writer j → index i < index j) := by
  have late := line.order i j hi hj before
  refine ⟨late.trans (line.within j hj done).1, fun writes => ?_⟩
  exact late.trans_lt (line.advances j hj done writes)

/-- Operations that complete pick their version; new ones start at the newest version. -/
theorem grow (line : Timeline submitted completed known writer log newest since index)
    (grows : Grows submitted completed known known' log log') (more : newest ≤ newest')
    (same : ∀ i, known i → writer' i → writer i) (pick : ι → Nat)
    (picked : ∀ i, known i → completed i ∈ log' → completed i ∉ log →
      (since i ≤ pick i ∧ pick i ≤ newest') ∧ (writer i → since i < pick i)) :
    ∃ since' index', Timeline submitted completed known' writer' log' newest' since' index' ∧
      (∀ i, known i → since' i = since i) ∧ (∀ i, completed i ∈ log → index' i = index i) ∧
      ∀ i, completed i ∉ log → index' i = pick i := by
  classical
  -- what has completed was known before
  have old {i : ι} (h : known' i) (done : completed i ∈ log') : known i :=
    Classical.byContradiction fun new => grows.fresh i h new done
  refine ⟨fun i => if known i then since i else newest',
    fun i => if completed i ∈ log then index i else pick i, ⟨?_, ?_, ?_, ?_⟩,
    fun i h => if_pos h, fun i h => if_pos h, fun i h => if_neg h⟩
  · intro i h
    split
    · next hi => exact (line.since_le i hi).trans more
    · exact le_rfl
  · intro i h done
    rw [if_pos (old h done)]
    split
    · next before =>
        obtain ⟨low, high⟩ := line.within i (old h done) before
        exact ⟨low, high.trans more⟩
    · next now => exact (picked i (old h done) done now).1
  · intro i h done writes
    rw [if_pos (old h done)]
    split
    · next before => exact line.advances i (old h done) before (same i (old h done) writes)
    · next now => exact (picked i (old h done) done now).2 (same i (old h done) writes)
  · intro i j hi hj before
    have known_i := old hi before.mem_left
    by_cases known_j : known j
    · have earlier := grows.frozen j known_j _ before
      rw [if_pos known_j, if_pos earlier.mem_left]
      exact line.order i j known_i known_j earlier
    · rw [if_neg known_j]
      split
      · next done => exact ((line.within i known_i done).2).trans more
      · next now => exact (picked i known_i before.mem_left now).1.2

theorem empty (none : ∀ i, ¬ known i) (since index : ι → Nat) :
    Timeline submitted completed known writer log newest since index where
  since_le i h := absurd h (none i)
  within i h := absurd h (none i)
  advances i h := absurd h (none i)
  order i _ h := absurd h (none i)

end Timeline
end AtomicRegister
