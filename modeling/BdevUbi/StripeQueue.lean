import BdevUbi.ActSteps

/-!
The stripe queue of a channel as a first-in first-out queue. `enqueue_stripe` and
`dequeue_stripe` mask the positions and keep no count of the entries. As long as one cell
stays free, the entries between head and tail are those that were enqueued and have not been
dequeued, in order.
-/

namespace BdevUbi

/-- Calls of `enqueue_stripe` and `dequeue_stripe` on channel `c` that lead from `s` to `t`, with
the indices enqueued and the values returned, oldest first. `dequeue_stripe` is called only
when `stripe_queue_empty` is false, and at most `UBI_FETCH_QUEUE_SIZE - 1` entries are
outstanding after each call. -/
inductive QueueCalls (c : ChId) (s : State) : List Nat → List Nat → State → Prop
  | start : QueueCalls c s [] [] s
  | enqueue {enqueued dequeued : List Nat} {t : State} (stripeIdx : Nat)
      (before : QueueCalls c s enqueued dequeued t)
      (room : enqueued.length + 1 ≤ dequeued.length + (ubiFetchQueueSize - 1)) :
      QueueCalls c s (enqueued ++ [stripeIdx]) dequeued (enqueueStripe t c stripeIdx)
  | dequeue {enqueued dequeued : List Nat} {t : State}
      (before : QueueCalls c s enqueued dequeued t)
      (nonempty : stripeQueueEmpty (t.channel c) = false) :
      QueueCalls c s enqueued (dequeued ++ [(dequeueStripe t c).1]) (dequeueStripe t c).2

variable {s t : State} {c : ChId} {enqueued dequeued : List Nat}

theorem queue_enqueueStripe (s : State) (c : ChId) (stripeIdx : Nat) :
    (enqueueStripe s c stripeIdx).queue c = (s.queue c).push ubiFetchQueueSize stripeIdx := by
  simp [enqueueStripe, State.queue, State.setChannel, State.emit, CircularQueue.push,
    and_mask_eq_mod]

theorem queue_dequeueStripe (s : State) (c : ChId) :
    (dequeueStripe s c).2.queue c = (s.queue c).pop ubiFetchQueueSize := by
  simp [dequeueStripe, State.queue, State.setChannel, State.emit, CircularQueue.pop,
    and_mask_eq_mod]

theorem stripeQueueEmpty_iff (bounded : (s.queue c).Bounded ubiFetchQueueSize) :
    stripeQueueEmpty (s.channel c) = true ↔ (s.queue c).contents ubiFetchQueueSize = [] := by
  rw [CircularQueue.contents_eq_nil bounded, stripeQueueEmpty, beq_iff_eq]

/-- The calls refine a list that grows at its end and shrinks at its front. -/
theorem QueueCalls.contents (calls : QueueCalls c s enqueued dequeued t)
    (bounded : (s.queue c).Bounded ubiFetchQueueSize)
    (empty : stripeQueueEmpty (s.channel c) = true) :
    (t.queue c).Bounded ubiFetchQueueSize ∧
      enqueued = dequeued ++ (t.queue c).contents ubiFetchQueueSize := by
  induction calls with
  | start => exact ⟨bounded, by simp [(stripeQueueEmpty_iff bounded).mp empty]⟩
  | @enqueue enqueued dequeued t stripeIdx before room ih =>
      obtain ⟨bounded, outstanding⟩ := ih
      have count : enqueued.length =
          dequeued.length + ((t.queue c).contents ubiFetchQueueSize).length := by
        rw [← List.length_append, ← outstanding]
      have free : ((t.queue c).tail + 1) % ubiFetchQueueSize ≠ (t.queue c).head := by
        rw [Ne, CircularQueue.full_iff bounded]
        omega
      rw [queue_enqueueStripe, CircularQueue.contents_push bounded stripeIdx free]
      exact ⟨CircularQueue.bounded_push bounded stripeIdx, by rw [outstanding, List.append_assoc]⟩
  | @dequeue enqueued dequeued t before nonempty ih =>
      obtain ⟨bounded, outstanding⟩ := ih
      have apart : (t.queue c).head ≠ (t.queue c).tail := by
        simpa [stripeQueueEmpty] using nonempty
      have first : (dequeueStripe t c).1 = (t.queue c).entries (t.queue c).head := rfl
      rw [queue_dequeueStripe, first]
      refine ⟨CircularQueue.bounded_pop bounded, ?_⟩
      rw [outstanding, CircularQueue.contents_pop bounded apart, List.append_assoc]
      rfl

/-- The values `dequeue_stripe` returns are the indices enqueued, in order and each once, and
the queue reads as empty when all of them have been returned. -/
theorem stripe_queue_fifo (bounded : (s.queue c).Bounded ubiFetchQueueSize)
    (empty : stripeQueueEmpty (s.channel c) = true)
    (calls : QueueCalls c s enqueued dequeued t) :
    dequeued <+: enqueued ∧ enqueued = dequeued ++ (t.queue c).contents ubiFetchQueueSize ∧
      (stripeQueueEmpty (t.channel c) = true ↔ dequeued.length = enqueued.length) := by
  obtain ⟨bounded, outstanding⟩ := calls.contents bounded empty
  refine ⟨⟨_, outstanding.symm⟩, outstanding, ?_⟩
  rw [stripeQueueEmpty_iff bounded, ← List.length_eq_zero_iff]
  have count := congrArg List.length outstanding
  rw [List.length_append] at count
  omega

/-- On a new channel two indices are enqueued and one is dequeued. -/
theorem stripe_queue_fifo_newChannel :
    ∃ t, QueueCalls 0 (blankState (threeBlockBdev false)) [5, 3] [5] t ∧
      [5, 3] = [5] ++ (t.queue 0).contents ubiFetchQueueSize ∧
      stripeQueueEmpty (t.channel 0) = false := by
  have calls : QueueCalls 0 (blankState (threeBlockBdev false)) [5, 3] [5] _ :=
    .dequeue (.enqueue 3 (.enqueue 5 .start (by decide)) (by decide)) (by decide)
  have fifo := stripe_queue_fifo (by decide) (by decide) calls
  refine ⟨_, calls, fifo.2.1, ?_⟩
  simpa using fifo.2.2.not.mpr (by decide)

end BdevUbi
