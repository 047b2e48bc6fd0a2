import Mathlib.Logic.Function.Basic
import Mathlib.Tactic.Common

/-!
A block device with a volatile write cache. Every write that takes effect on a
block gives it a new version. A version is settled once the write that made it
has completed, and durable once a flush submitted after that has completed.
A crash keeps, block by block, any version that is not older than the durable one.
-/

namespace VolatileDisk

universe u
variable {β : Type u}

structure Disk (β : Type u) where
  version : Nat → Nat → β
  latest : Nat → Nat
  settled : Nat → Nat
  durable : Nat → Nat
  durable_le : ∀ b, durable b ≤ settled b
  settled_le : ∀ b, settled b ≤ latest b

namespace Disk

def init (content : Nat → β) : Disk β where
  version b _ := content b
  latest _ := 0
  settled _ := 0
  durable _ := 0
  durable_le _ := Nat.le_refl 0
  settled_le _ := Nat.le_refl 0

def current (d : Disk β) (b : Nat) : β := d.version b (d.latest b)

def write (d : Disk β) (b : Nat) (x : β) : Disk β where
  version := Function.update d.version b (Function.update (d.version b) (d.latest b + 1) x)
  latest := Function.update d.latest b (d.latest b + 1)
  settled := d.settled
  durable := d.durable
  durable_le := d.durable_le
  settled_le c := by
    have := d.settled_le c
    by_cases h : c = b
    · subst h
      rw [Function.update_self]
      omega
    · rwa [Function.update_of_ne h]

/-- A write that produced the given versions completes. -/
def settle (d : Disk β) (made : Nat → Option Nat) : Disk β where
  version := d.version
  latest := d.latest
  settled b := max (d.settled b) (min ((made b).getD 0) (d.latest b))
  durable := d.durable
  durable_le b := Nat.le_trans (d.durable_le b) (Nat.le_max_left _ _)
  settled_le b := Nat.max_le.mpr ⟨d.settled_le b, Nat.min_le_right _ _⟩

/-- A flush completes that found the given versions settled when it was submitted. -/
def flush (d : Disk β) (mark : Nat → Nat) : Disk β where
  version := d.version
  latest := d.latest
  settled := d.settled
  durable b := max (d.durable b) (min (mark b) (d.settled b))
  durable_le b := Nat.max_le.mpr ⟨d.durable_le b, Nat.min_le_right _ _⟩
  settled_le := d.settled_le

/-- The contents a crash may leave. -/
def Survives (d : Disk β) (content : Nat → β) : Prop :=
  ∀ b, ∃ v, d.durable b ≤ v ∧ v ≤ d.latest b ∧ content b = d.version b v

/-- The contents a stop may leave if every write is durable once it has completed. -/
def SurvivesThrough (d : Disk β) (content : Nat → β) : Prop :=
  ∀ b, ∃ v, d.settled b ≤ v ∧ v ≤ d.latest b ∧ content b = d.version b v

theorem SurvivesThrough.survives {d : Disk β} {content : Nat → β} (h : d.SurvivesThrough content) :
    d.Survives content := by
  intro b
  obtain ⟨v, low, high, same⟩ := h b
  exact ⟨v, Nat.le_trans (d.durable_le b) low, high, same⟩

theorem survivesThrough_current (d : Disk β) : d.SurvivesThrough d.current :=
  fun b => ⟨d.latest b, d.settled_le b, Nat.le_refl _, rfl⟩

theorem durable_le_latest (d : Disk β) (b : Nat) : d.durable b ≤ d.latest b :=
  Nat.le_trans (d.durable_le b) (d.settled_le b)

@[simp] theorem current_write_self (d : Disk β) (b : Nat) (x : β) :
    (d.write b x).current b = x := by
  simp [current, write]

theorem current_write_of_ne (d : Disk β) {b c : Nat} (x : β) (h : c ≠ b) :
    (d.write b x).current c = d.current c := by
  simp [current, write, h]

theorem version_write_of_le (d : Disk β) {b c v : Nat} (x : β) (h : v ≤ d.latest c) :
    (d.write b x).version c v = d.version c v := by
  by_cases hb : c = b
  · subst hb
    have : v ≠ d.latest c + 1 := by omega
    simp [write, this]
  · simp [write, hb]

theorem version_write_latest (d : Disk β) (b : Nat) (x : β) :
    (d.write b x).version b (d.latest b + 1) = x := by
  simp [write]

theorem latest_write (d : Disk β) (b c : Nat) (x : β) :
    (d.write b x).latest c = if c = b then d.latest b + 1 else d.latest c := by
  simp [write, Function.update_apply]

end Disk
end VolatileDisk
