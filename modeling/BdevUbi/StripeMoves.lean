import BdevUbi.RequestMoves

/-!
The places of a stripe that is being fetched, and how acts move it: between head
and tail of a channel's queue, then in one of the channel's slots. A slot in turn
is owned by one operation, an entry of the ring or a base write.
-/

namespace BdevUbi
open Placement

inductive StripePlace where
  | queued (c : ChId)
  | slot (c : ChId) (k : Nat)
  deriving DecidableEq, Repr

inductive SlotOp where
  | ring
  | write (o : Nat)
  deriving DecidableEq, Repr

def State.stripePlaces (s : State) (x : Nat) : StripePlace → Nat
  | .queued c => ((s.queue c).contents ubiFetchQueueSize).count x
  | .slot c k => if (s.slot c k).active ∧ (s.slot c k).stripeIdx = x then 1 else 0

/-- The operations that point at slot `k` of channel `c`. -/
def State.slotOps (s : State) (slot : ChId × Nat) : SlotOp → Nat
  | .ring => (s.ringEntries slot.1).countP fun sqe => sqe.userData == .stripeFetch slot.2
  | .write o => if (s.writes o).map BaseWrite.cb = some (.stripe slot.1 slot.2) then 1 else 0

/-- The event makes `ubi_submit_request` put stripe `x` into the queue of channel `c`. -/
def Enqueues (dev : UbiBdev) (s : State) (l : Label) (c : ChId) (x : Nat) : Prop :=
  ∃ id r, l = .submit c id r ∧ r.fetches dev ∧ r.startStripe dev = r.endStripe dev ∧
    r.offsetBlocks < dev.imageBlockCount ∧ toCInt (r.startStripe dev) = x ∧ x < ubiMaxStripes ∧
    s.stripeStatus x = .notFetched

/-- The entries of the history that are about fetches. -/
def Obs.isFetch : Obs → Bool
  | .setStatus .. | .enqueued .. | .dequeued .. | .assigned .. | .fetchSubmit .. | .fetchCqe ..
  | .stripeWrite .. | .stripeWriteDone .. => true
  | _ => false

def State.trail (s : State) : List Obs := s.log.filter Obs.isFetch

structure RecordKept (s t : State) : Prop where
  status : t.stripeStatus = s.stripeStatus
  metadata : t.metadata = s.metadata
  fetched : t.stripesFetched = s.stripesFetched

structure SlotsKept (s t : State) : Prop where
  active : ∀ d j, (t.slot d j).active = (s.slot d j).active
  stripe : ∀ d j, (t.slot d j).stripeIdx = (s.slot d j).stripeIdx
  ops : t.slotOps = s.slotOps

structure Entered (s t : State) (c : ChId) (x : Nat) : Prop where
  status : t.stripeStatus = Function.update s.stripeStatus x .inflight
  metadata : t.metadata = s.metadata
  fetched : t.stripesFetched = s.stripesFetched
  slots : SlotsKept s t
  trail : t.trail = .setStatus x .inflight :: .enqueued c x :: s.trail

/-- The operation `p` that kept slot `k` busy ends, and with it the fetch. -/
structure Finished (s t : State) (c : ChId) (k : Nat) (p : SlotOp) (r : StripeStatus) : Prop where
  status : t.stripeStatus = Function.update s.stripeStatus (s.slot c k).stripeIdx r
  active : ∀ d j, (t.slot d j).active = if d = c ∧ j = k then false else (s.slot d j).active
  stripe : ∀ d j, (t.slot d j).stripeIdx = (s.slot d j).stripeIdx
  busy : (s.slot c k).active = true
  owner : s.slotOps (c, k) p ≠ 0
  places : Shift s.stripePlaces t.stripePlaces (s.slot c k).stripeIdx (some (.slot c k)) none
  ops : Shift s.slotOps t.slotOps (c, k) (some p) none

/-- What an act does to the fetches. -/
inductive FetchEffect (dev : UbiBdev) (s : State) (l : Label) (t : State) : Prop
  | stay (record : RecordKept s t) (slots : SlotsKept s t)
      (places : t.stripePlaces = s.stripePlaces) (trail : t.trail = s.trail)
  | enqueue (c : ChId) (x : Nat) (cause : Enqueues dev s l c x) (entered : Entered s t c x)
      (places : Shift s.stripePlaces t.stripePlaces x none (some (.queued c)))
  | overflow (c : ChId) (x : Nat) (cause : Enqueues dev s l c x) (entered : Entered s t c x)
      (full : ((s.queue c).tail + 1) % ubiFetchQueueSize = (s.queue c).head)
      (places : ∀ y p, t.stripePlaces y p = if p = .queued c then 0 else s.stripePlaces y p)
  | start (c : ChId) (k x : Nat) (record : RecordKept s t)
      (active : ∀ d j, (t.slot d j).active = if d = c ∧ j = k then true else (s.slot d j).active)
      (stripe : ∀ d j, (t.slot d j).stripeIdx = if d = c ∧ j = k then x else (s.slot d j).stripeIdx)
      (source : s.stripePlaces x (.queued c) ≠ 0) (free : (s.slot c k).active = false)
      (places : Shift s.stripePlaces t.stripePlaces x (some (.queued c)) (some (.slot c k)))
      (ops : Shift s.slotOps t.slotOps (c, k) none (some .ring))
      (trail : t.trail = .fetchSubmit c k x true :: .assigned c k x (slotBusy s c k) ::
        .dequeued c x :: s.trail)
  | writing (c : ChId) (k o : Nat) (sqe : Sqe) (res : Int) (record : RecordKept s t)
      (active : ∀ d j, (t.slot d j).active = (s.slot d j).active)
      (stripe : ∀ d j, (t.slot d j).stripeIdx = (s.slot d j).stripeIdx)
      (entry : sqe ∈ s.ringEntries c) (tag : sqe.userData = .stripeFetch k) (good : 0 ≤ res)
      (source : s.slotOps (c, k) .ring ≠ 0) (places : t.stripePlaces = s.stripePlaces)
      (ops : Shift s.slotOps t.slotOps (c, k) (some .ring) (some (.write o)))
      (trail : t.trail = .stripeWrite (s.slot c k).stripeIdx true ::
        .fetchCqe c k sqe (s.slot c k).active (s.slot c k).stripeIdx res :: s.trail)
  | readFailed (c : ChId) (k : Nat) (sqe : Sqe) (res : Int) (metadata : t.metadata = s.metadata)
      (fetched : t.stripesFetched = s.stripesFetched)
      (entry : sqe ∈ s.ringEntries c) (tag : sqe.userData = .stripeFetch k) (bad : res < 0)
      (finished : Finished s t c k .ring .failed)
      (trail : t.trail = .setStatus (s.slot c k).stripeIdx .failed ::
        .fetchCqe c k sqe (s.slot c k).active (s.slot c k).stripeIdx res :: s.trail)
  | writeRefused (c : ChId) (k : Nat) (sqe : Sqe) (res : Int) (metadata : t.metadata = s.metadata)
      (fetched : t.stripesFetched = s.stripesFetched)
      (entry : sqe ∈ s.ringEntries c) (tag : sqe.userData = .stripeFetch k) (good : 0 ≤ res)
      (finished : Finished s t c k .ring .failed)
      (trail : t.trail = .setStatus (s.slot c k).stripeIdx .failed ::
        .stripeWrite (s.slot c k).stripeIdx false ::
        .fetchCqe c k sqe (s.slot c k).active (s.slot c k).stripeIdx res :: s.trail)
  | written (c : ChId) (k o : Nat) (success : Bool)
      (metadata : t.metadata =
        Function.update s.metadata (stripeHeaderOffset (s.slot c k).stripeIdx) 1)
      (fetched : t.stripesFetched = s.stripesFetched + 1)
      (finished : Finished s t c k (.write o) .fetched)
      (trail : t.trail = .setStatus (s.slot c k).stripeIdx .fetched ::
        .stripeWriteDone (s.slot c k).stripeIdx success :: s.trail)

variable {dev : UbiBdev} {s t : State} {l : Label}

theorem inflight_origin (effect : FetchEffect dev s l t) {x : Nat}
    (inflight : t.stripeStatus x = .inflight) :
    s.stripeStatus x = .inflight ∨ ∃ c, Enqueues dev s l c x := by
  have ended {c k p r} (finished : Finished s t c k p r) (final : r ≠ .inflight) :
      s.stripeStatus x = .inflight := by
    rw [finished.status, Function.update_apply] at inflight
    split at inflight
    · exact absurd inflight final
    · exact inflight
  cases effect with
  | stay record | start _ _ _ record | writing _ _ _ _ _ record =>
      exact .inl (record.status ▸ inflight)
  | enqueue c y cause entered | overflow c y cause entered =>
      rw [entered.status, Function.update_apply] at inflight
      split at inflight
      · next same => exact .inr ⟨c, same ▸ cause⟩
      · exact .inl inflight
  | readFailed _ _ _ _ _ _ _ _ _ finished | writeRefused _ _ _ _ _ _ _ _ _ finished
  | written _ _ _ _ _ _ finished => exact .inl (ended finished (by decide))

section Effect

@[local grind =] theorem stripeFetches_update (f : ChId → UbiIoChannel) (c d : ChId)
    (ch : UbiIoChannel) (j : Nat) : (Function.update f c ch d).stripeFetches j =
      if d = c then ch.stripeFetches j else (f d).stripeFetches j := by
  by_cases same : d = c
  · subst same
    simp
  · simp [same]

attribute [local grind =] State.stripePlaces State.slotOps State.ringEntries stripeSqe imageReadSqe

theorem SlotsKept.places (slots : SlotsKept s t) (queues : ∀ d, t.queue d = s.queue d) :
    t.stripePlaces = s.stripePlaces := by
  funext x p
  cases p with
  | queued c => simp [State.stripePlaces, queues]
  | slot c k => simp [State.stripePlaces, slots.active, slots.stripe]

theorem FetchEffect.kept (record : RecordKept s t) (slots : SlotsKept s t)
    (queues : ∀ d, t.queue d = s.queue d) (trail : t.trail = s.trail) : FetchEffect dev s l t :=
  .stay record slots (slots.places queues) trail

theorem Finished.free {c : ChId} {k : Nat} {p : SlotOp} {r : StripeStatus}
    (status : t.stripeStatus = Function.update s.stripeStatus (s.slot c k).stripeIdx r)
    (slots : ∀ d j, t.slot d j =
      if d = c ∧ j = k then { s.slot c k with active := false } else s.slot d j)
    (queues : ∀ d, t.queue d = s.queue d) (busy : (s.slot c k).active = true)
    (source : s.slotOps (c, k) p = t.slotOps (c, k) p + 1)
    (frame : ∀ slot q, (slot = (c, k) → q ≠ p) → t.slotOps slot q = s.slotOps slot q) :
    Finished s t c k p r where
  status := status
  active d j := by rw [slots]; split <;> rfl
  stripe d j := by
    rw [slots]
    split
    · next same => rw [same.1, same.2]
    · rfl
  busy := busy
  owner := by omega
  places := by
    refine shift_leave (by simp [State.stripePlaces, slots, busy]) fun x q other => ?_
    cases q with
    | queued d => simp [State.stripePlaces, queues]
    | slot d j =>
        by_cases same : d = c ∧ j = k
        · obtain ⟨rfl, rfl⟩ := same
          have : (s.slot d j).stripeIdx ≠ x := fun here => other here.symm rfl
          simp [State.stripePlaces, slots, this]
        · simp [State.stripePlaces, slots, same]
  ops := shift_leave source frame

/-- Every act does one thing to the fetches, or nothing. -/
theorem act_fetchEffect (fresh : OpsFresh s)
    (bounded : ∀ c, (s.queue c).Bounded ubiFetchQueueSize)
    (live : ∀ c k p, s.slotOps (c, k) p ≠ 0 → (s.slot c k).active = true)
    (issued : ∀ c k x, .fetchSubmit c k x false ∉ t.log) (act : Act dev s l t) :
    FetchEffect dev s l t := by
  have newWrite := fresh.writes s.nextWrite le_rfl
  clear fresh
  cases act
  case fetchReadFailed c k sqe res rest first tag bad =>
    have active := live c k .ring (by grind -ring -linarith)
    clear live issued bounded
    refine .readFailed c k sqe res rfl rfl (by simp [State.ringEntries, first]) tag bad
      (.free rfl (by grind -ring -linarith) (by grind -ring -linarith) active
        (by grind -ring -linarith) fun y p other => ?_) rfl
    cases p <;> first | rfl | grind -ring -linarith
  case fetchWriteRefused c k sqe res rest first tag good =>
    have active := live c k .ring (by grind -ring -linarith)
    clear live issued bounded
    refine .writeRefused c k sqe res rfl rfl (by simp [State.ringEntries, first]) tag good
      (.free rfl (by grind -ring -linarith) (by grind -ring -linarith) active
        (by grind -ring -linarith) fun y p other => ?_) rfl
    cases p <;> first | rfl | grind -ring -linarith
  case fetchWriteStarted c k sqe res rest first tag good fits =>
    clear live issued bounded
    refine .writing c k s.nextWrite sqe res ⟨rfl, rfl, rfl⟩ (by grind -ring -linarith)
      (by grind -ring -linarith) (by simp [State.ringEntries, first]) tag good
      (by grind -ring -linarith) ?_ (shift_move (by simp) (by grind -ring -linarith)
        (by grind -ring -linarith) fun y p other => ?_) rfl
    · funext y p
      cases p <;> first | rfl | grind -ring -linarith
    · cases p <;> first | rfl | grind -ring -linarith
  case fetchStarted c k nonempty free slot room =>
    have pop := CircularQueue.contents_pop (bounded c) nonempty
    clear live issued bounded
    refine .start c k ((s.queue c).entries (s.queue c).head) ⟨rfl, rfl, rfl⟩
      (by grind -ring -linarith) (by grind -ring -linarith) (by grind -ring -linarith) free
      (shift_move (by simp) (by grind -ring -linarith) (by grind -ring -linarith)
        fun y p other => ?_)
      (shift_enter (by grind -ring -linarith) fun y p other => ?_) rfl
    · cases p <;> first | rfl | grind -ring -linarith
    · cases p <;> first | rfl | grind -ring -linarith
  case fetchSubmitFailed c k nonempty free slot room =>
    exact absurd (by simp) (issued c k ((s.queue c).entries (s.queue c).head))
  case uringFetch c i k sqe res entry tag bound
  | uringRead c i id sqe res entry tag bound =>
    clear live issued bounded
    refine .kept ⟨rfl, rfl, rfl⟩ ⟨by grind -ring -linarith, by grind -ring -linarith, ?_⟩
      (by grind -ring -linarith) rfl
    funext y p
    have := countP_eraseIdx (fun sqe => sqe.userData == .stripeFetch y.2) entry
    cases p <;> first | rfl | grind -ring -linarith
  case submitFetching c id r x new type range fetch within image index bound gate =>
    have cause : Enqueues dev s (.submit c id r) c x :=
      ⟨id, r, rfl, fetch, within, image, index, bound, gate⟩
    clear live issued
    by_cases room : ((s.queue c).tail + 1) % ubiFetchQueueSize = (s.queue c).head
    · have push := CircularQueue.contents_push_full (bounded c) x room
      clear bounded
      refine .overflow c x cause ⟨rfl, rfl, rfl, ⟨by grind -ring -linarith,
        by grind -ring -linarith, ?_⟩, rfl⟩ room fun y p => ?_
      · funext y p
        cases p <;> first | rfl | grind -ring -linarith
      · cases p <;> first | rfl | grind -ring -linarith
    · have push := CircularQueue.contents_push (bounded c) x room
      clear bounded
      refine .enqueue c x cause ⟨rfl, rfl, rfl, ⟨by grind -ring -linarith,
        by grind -ring -linarith, ?_⟩, rfl⟩
        (shift_enter (by grind -ring -linarith) fun y p other => ?_)
      · funext y p
        cases p <;> first | rfl | grind -ring -linarith
      · cases p <;> first | rfl | grind -ring -linarith
  case stripeWriteDone o op c k success write cb all =>
    have active := live c k (.write o) (by grind -ring -linarith)
    clear live issued bounded
    refine .written c k o success rfl rfl (.free rfl (by grind -ring -linarith)
      (by grind -ring -linarith) active (by grind -ring -linarith) fun y p other => ?_) rfl
    cases p <;> first | rfl | grind -ring -linarith
  all_goals
    clear live issued bounded
    refine .kept ⟨rfl, rfl, rfl⟩ ⟨by grind -ring -linarith, by grind -ring -linarith, ?_⟩
      (by grind -ring -linarith) rfl
    funext y p
    cases p <;> first | rfl | grind -ring -linarith

end Effect

end BdevUbi
