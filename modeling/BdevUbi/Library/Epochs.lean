/-!
A store that outlives the program using it. An epoch begins over what the store holds,
ends in a state of the program, and leaves something in the store for the next one.
-/

namespace Epochs

universe u v
variable {β : Type u} {σ : Type v}

/-- Epochs one after the other, with the states they ended in, newest first. -/
inductive Chain (epoch : β → σ → β → Prop) (start : β) : List σ → β → Prop
  | start : Chain epoch start [] start
  | next {past : List σ} {found left : β} {s : σ} :
      Chain epoch start past found → epoch found s left → Chain epoch start (s :: past) left

variable {epoch : β → σ → β → Prop} {start found : β} {past : List σ}

theorem Chain.invariant {P : List σ → β → Prop} (init : P [] start)
    (keep : ∀ {past found s left}, P past found → epoch found s left → P (s :: past) left)
    (chain : Chain epoch start past found) : P past found := by
  induction chain with
  | start => exact init
  | next _ last ih => exact keep ih last

end Epochs
