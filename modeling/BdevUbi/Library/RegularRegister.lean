import BdevUbi.Library.History
import Mathlib.Logic.Function.Basic
import Mathlib.Order.Basic
import Mathlib.Order.Nat

/-!
A register with concurrent writers. A write that takes effect gives the register a
new version, and the history has an entry when a write is submitted and one when it
completes. A reader that finds the newest version finds a value that no completed
write has superseded, the register's initial value counting as a write before
everything: the register is regular.
-/

namespace RegularRegister
open History

universe u v
variable {W : Type u} {E : Type v}

/-- Which write made which version of the register. Versions up to `first` count as
its initial value; those up to `settled` are older than the completion of their write. -/
structure Ledger (submitted completed : W → E) (relevant : W → Prop) (log : List E)
    (first settled latest : Nat) (maker : Nat → W) : Prop where
  made : ∀ v, first < v → v ≤ latest → relevant (maker v)
  finished : ∀ w, relevant w → completed w ∈ log → ∃ v, first < v ∧ v ≤ settled ∧ maker v = w
  order : ∀ v v', first < v → v ≤ latest → first < v' → v' ≤ latest →
    Before (completed (maker v)) (submitted (maker v')) log → v < v'
  settled_le : settled ≤ latest

/-- The write a version stems from; none for the initial value. -/
def source (first : Nat) (maker : Nat → W) (v : Nat) : Option W :=
  if first < v then some (maker v) else none

/-- A source is superseded for a reader if some write was submitted after the source
completed and had completed before the reader's own entry. -/
def Superseded (submitted completed : W → E) (relevant : W → Prop) (log : List E) (reader : E)
    (src : Option W) : Prop :=
  ∃ w, relevant w ∧ (∀ w', src = some w' → Before (completed w') (submitted w) log) ∧
    Before (completed w) reader log

/-- The history grows, and writes become relevant before they complete. -/
structure Grows (submitted completed : W → E) (relevant relevant' : W → Prop)
    (log log' : List E) : Prop where
  kept : ∀ w, relevant w → relevant' w
  fresh : ∀ w, relevant' w → ¬ relevant w → completed w ∉ log'
  frozen : ∀ w, relevant w → ∀ e, Before e (submitted w) log' → Before e (submitted w) log
  older : log ⊆ log'

variable {submitted completed : W → E} {relevant relevant' : W → Prop} {log log' : List E}
  {first settled settled' latest : Nat} {maker : Nat → W}

namespace Ledger

theorem latest_stands (ledger : Ledger submitted completed relevant log first settled latest maker)
    (reader : E) :
    ¬ Superseded submitted completed relevant log reader (source first maker latest) := by
  rintro ⟨w, rel, after, before⟩
  obtain ⟨v, low, high, rfl⟩ := ledger.finished w rel before.mem_left
  have high := high.trans ledger.settled_le
  have newest : first < latest := by omega
  have := ledger.order latest v newest le_rfl low high (after _ (if_pos newest))
  omega

theorem not_before_of_le
    (ledger : Ledger submitted completed relevant log first settled latest maker) {v v' : Nat}
    (low : first < v) (le : v ≤ v') (high : v' ≤ latest) :
    ¬ Before (completed (maker v')) (submitted (maker v)) log := by
  intro before
  have := ledger.order v' v (by omega) high low (by omega) before
  omega

theorem write (ledger : Ledger submitted completed relevant log first settled latest maker) {w : W}
    (rel : relevant w) (pending : completed w ∉ log) :
    Ledger submitted completed relevant log first settled (latest + 1)
      (Function.update maker (latest + 1) w) where
  made v low high := by
    by_cases new : v = latest + 1
    · simpa [new] using rel
    · simpa [new] using ledger.made v low (by omega)
  finished w' rel' done := by
    obtain ⟨v, low, high, made⟩ := ledger.finished w' rel' done
    have := ledger.settled_le
    exact ⟨v, low, high, by rwa [Function.update_of_ne (by omega)]⟩
  order v v' low high low' high' before := by
    by_cases new : v = latest + 1
    · subst new
      rw [Function.update_self] at before
      exact absurd before.mem_left pending
    · by_cases new' : v' = latest + 1
      · omega
      · rw [Function.update_of_ne new, Function.update_of_ne new'] at before
        exact ledger.order v v' low (by omega) low' (by omega) before
  settled_le := ledger.settled_le.trans (Nat.le_succ _)

/-- A version that counts as the initial value is made. -/
theorem raise (ledger : Ledger submitted completed relevant log first settled latest maker)
    (early : latest < first) :
    Ledger submitted completed relevant log first settled (latest + 1) maker where
  made v low high := by omega
  finished := ledger.finished
  order v v' low high low' high' before := by omega
  settled_le := ledger.settled_le.trans (Nat.le_succ _)

theorem grow (ledger : Ledger submitted completed relevant log first settled latest maker)
    (grows : Grows submitted completed relevant relevant' log log') (more : settled ≤ settled')
    (bound : settled' ≤ latest)
    (ended : ∀ w, relevant w → completed w ∈ log' → completed w ∉ log →
      ∃ v, first < v ∧ v ≤ settled' ∧ maker v = w) :
    Ledger submitted completed relevant' log' first settled' latest maker where
  made v low high := grows.kept _ (ledger.made v low high)
  finished w rel done := by
    by_cases old : relevant w
    · by_cases before : completed w ∈ log
      · obtain ⟨v, low, high, made⟩ := ledger.finished w old before
        exact ⟨v, low, high.trans more, made⟩
      · exact ended w old done before
    · exact absurd done (grows.fresh w rel old)
  order v v' low high low' high' before :=
    ledger.order v v' low high low' high' (grows.frozen _ (ledger.made v' low' high') _ before)
  settled_le := bound

theorem empty (early : latest ≤ first) (bound : settled ≤ latest) (maker : Nat → W) :
    Ledger submitted completed relevant [] first settled latest maker where
  made v low high := by omega
  finished w rel done := by simp at done
  order v v' low high low' high' before := before.elim
  settled_le := bound

end Ledger

/-- Once a reader is in the history, what it may find does not depend on what follows. -/
theorem not_superseded_grow (grows : Grows submitted completed relevant relevant' log log')
    {reader : E} {src : Option W}
    (frozen : ∀ e, Before e reader log' → Before e reader log)
    (stands : ¬ Superseded submitted completed relevant log reader src) :
    ¬ Superseded submitted completed relevant' log' reader src := by
  rintro ⟨w, rel, after, before⟩
  have before := frozen _ before
  have old : relevant w := by
    by_contra new
    exact grows.fresh w rel new (grows.older before.mem_left)
  exact stands ⟨w, old, fun w' h => grows.frozen w old _ (after w' h), before⟩

end RegularRegister
