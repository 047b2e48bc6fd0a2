import BdevUbi.StripeMoves

/-!
Where a stripe is while it is being fetched. As long as no `io_uring_submit` of
`ubi_start_fetch_stripe` fails, a stripe is at one place at most, and only while its
status is in flight; an active slot is owned by exactly one operation, which was
issued for the stripe the slot holds.
-/

namespace BdevUbi
open Placement

/-- No `io_uring_submit` called by `ubi_start_fetch_stripe` has failed. -/
def FetchesIssued (log : List Obs) : Prop := ∀ c k x, .fetchSubmit c k x false ∉ log

theorem fetchesIssued_earlier {past log : List Obs} (older : past <:+ log)
    (issued : FetchesIssued log) : FetchesIssued past :=
  fun c k x logged => issued c k x (older.subset logged)

def Obs.isFailedSubmit : Obs → Bool
  | .fetchSubmit _ _ _ ok => !ok
  | _ => false

theorem fetchesIssued_iff {log : List Obs} :
    FetchesIssued log ↔ ∀ o ∈ log, o.isFailedSubmit = false := by
  constructor
  · intro issued o logged
    cases o with
    | fetchSubmit c k x ok =>
        cases ok with
        | true => rfl
        | false => exact absurd logged (issued c k x)
    | _ => rfl
  · intro all c k x logged
    cases all _ logged

instance (log : List Obs) : Decidable (FetchesIssued log) :=
  decidable_of_iff _ fetchesIssued_iff.symm

structure FetchesPlaced (dev : UbiBdev) (s : State) : Prop where
  fresh : OpsFresh s
  bounded : ∀ c, (s.queue c).Bounded ubiFetchQueueSize
  stripes : ∀ x, ∃ loc, At (s.stripePlaces x) loc ∧ (loc ≠ none → s.stripeStatus x = .inflight)
  slots : ∀ c k, ∃ op, At (s.slotOps (c, k)) op ∧ (op = none ↔ (s.slot c k).active = false)
  entries : ∀ c sqe k, sqe ∈ s.ringEntries c → sqe.userData = .stripeFetch k →
    sqe = stripeSqe dev k (s.slot c k).stripeIdx
  writes : ∀ o op c k, s.writes o = some op → op.cb = .stripe c k →
    op.startBlock = dev.stripeStart (s.slot c k).stripeIdx ∧ op.numBlocks = dev.stripeBlockCount

variable {dev : UbiBdev} {s t : State} {l : Label}

namespace FetchesPlaced

theorem active_of_op (inv : FetchesPlaced dev s) {c : ChId} {k : Nat} {p : SlotOp}
    (owned : s.slotOps (c, k) p ≠ 0) : (s.slot c k).active = true := by
  obtain ⟨op, counts, idle⟩ := inv.slots c k
  have busy := counts.eq_some owned
  cases h : (s.slot c k).active with
  | true => rfl
  | false => rw [idle.mpr h] at busy; cases busy

theorem active_of_entry (inv : FetchesPlaced dev s) {c : ChId} {k : Nat} {sqe : Sqe}
    (entry : sqe ∈ s.ringEntries c) (tag : sqe.userData = .stripeFetch k) :
    (s.slot c k).active = true :=
  inv.active_of_op (p := .ring) (List.countP_pos_iff.mpr ⟨sqe, entry, by simp [tag]⟩).ne'

theorem active_of_write (inv : FetchesPlaced dev s) {o : Nat} {op : BaseWrite} {c : ChId} {k : Nat}
    (write : s.writes o = some op) (cb : op.cb = .stripe c k) : (s.slot c k).active = true :=
  inv.active_of_op (p := .write o) (by simp [State.slotOps, write, cb])

theorem place_unique (inv : FetchesPlaced dev s) {x : Nat} {p q : StripePlace}
    (hp : s.stripePlaces x p ≠ 0) (hq : s.stripePlaces x q ≠ 0) : p = q := by
  obtain ⟨loc, counts, _⟩ := inv.stripes x
  exact Option.some.inj ((counts.eq_some hp).symm.trans (counts.eq_some hq))

theorem inflight_of_place (inv : FetchesPlaced dev s) {x : Nat} {p : StripePlace}
    (hp : s.stripePlaces x p ≠ 0) : s.stripeStatus x = .inflight := by
  obtain ⟨loc, counts, inflight⟩ := inv.stripes x
  exact inflight (by simp [counts.eq_some hp])

theorem inflight_of_active (inv : FetchesPlaced dev s) {c : ChId} {k : Nat}
    (active : (s.slot c k).active = true) :
    s.stripeStatus (s.slot c k).stripeIdx = .inflight :=
  inv.inflight_of_place (p := .slot c k) (by simp [State.stripePlaces, active])

theorem slot_unique (inv : FetchesPlaced dev s) {c d : ChId} {k j : Nat}
    (first : (s.slot c k).active = true) (second : (s.slot d j).active = true)
    (same : (s.slot c k).stripeIdx = (s.slot d j).stripeIdx) : c = d ∧ k = j := by
  have := inv.place_unique (x := (s.slot d j).stripeIdx) (p := .slot c k) (q := .slot d j)
    (by simp [State.stripePlaces, first, same]) (by simp [State.stripePlaces, second])
  cases this
  exact ⟨rfl, rfl⟩

end FetchesPlaced

theorem Finished.source {c : ChId} {k : Nat} {p : SlotOp} {r : StripeStatus}
    (finished : Finished s t c k p r) :
    s.stripePlaces (s.slot c k).stripeIdx (.slot c k) ≠ 0 := by
  simp [State.stripePlaces, finished.busy]

theorem Finished.stripe_place {c : ChId} {k : Nat} {p : SlotOp} {r : StripeStatus}
    (finished : Finished s t c k p r) {y : Nat} {loc : Option StripePlace}
    (counts : At (s.stripePlaces y) loc) (inflight : loc ≠ none → s.stripeStatus y = .inflight) :
    ∃ loc, At (t.stripePlaces y) loc ∧ (loc ≠ none → t.stripeStatus y = .inflight) := by
  by_cases same : y = (s.slot c k).stripeIdx
  · subst same
    obtain rfl := counts.eq_some finished.source
    exact ⟨none, counts.move finished.places.counts, fun h => absurd rfl h⟩
  · exact ⟨loc, by rwa [finished.places.others y same],
      by rwa [finished.status, Function.update_of_ne same]⟩

theorem Finished.slot_op {c d : ChId} {k j : Nat} {p : SlotOp} {r : StripeStatus}
    (finished : Finished s t c k p r) {op : Option SlotOp} (counts : At (s.slotOps (d, j)) op)
    (idle : op = none ↔ (s.slot d j).active = false) :
    ∃ op, At (t.slotOps (d, j)) op ∧ (op = none ↔ (t.slot d j).active = false) := by
  by_cases same : (d, j) = (c, k)
  · cases same
    obtain rfl := counts.eq_some finished.owner
    exact ⟨none, counts.move finished.ops.counts, by simp [finished.active]⟩
  · refine ⟨op, by rwa [finished.ops.others _ same], ?_⟩
    rwa [finished.active, if_neg (by simpa using same)]

theorem stripes_of_effect
    (before : ∀ x, ∃ loc, At (s.stripePlaces x) loc ∧ (loc ≠ none → s.stripeStatus x = .inflight))
    (effect : FetchEffect dev s l t) (y : Nat) :
    ∃ loc, At (t.stripePlaces y) loc ∧ (loc ≠ none → t.stripeStatus y = .inflight) := by
  obtain ⟨loc, counts, inflight⟩ := before y
  cases effect with
  | stay record slots places trail => exact ⟨loc, by rwa [places], by rwa [record.status]⟩
  | writing c k o sqe res record active stripe entry tag good source places ops trail =>
      exact ⟨loc, by rwa [places], by rwa [record.status]⟩
  | enqueue c x cause entered places =>
      by_cases same : y = x
      · subst same
        obtain ⟨_, _, _, _, _, _, _, _, gate⟩ := cause
        obtain rfl : loc = none := by
          by_contra placed
          simp [gate] at inflight
          exact placed inflight
        exact ⟨_, counts.move places.counts, fun _ => by simp [entered.status]⟩
      · exact ⟨loc, by rwa [places.others y same],
          by rwa [entered.status, Function.update_of_ne same]⟩
  | overflow c x cause entered full places =>
      refine ⟨if loc = some (.queued c) then none else loc, fun p => ?_, fun placed => ?_⟩
      · have := counts p
        rw [places]
        grind -linarith
      · by_cases same : y = x
        · rw [same, entered.status, Function.update_self]
        · rw [entered.status, Function.update_of_ne same]
          exact inflight fun none => placed (by simp [none])
  | start c k x record active stripe source free places ops trail =>
      by_cases same : y = x
      · subst same
        obtain rfl := counts.eq_some source
        exact ⟨_, counts.move places.counts,
          fun _ => by rw [record.status]; exact inflight (by simp)⟩
      · exact ⟨loc, by rwa [places.others y same], by rwa [record.status]⟩
  | readFailed c k sqe res metadata fetched entry tag bad finished trail =>
      exact finished.stripe_place counts inflight
  | writeRefused c k sqe res metadata fetched entry tag good finished trail =>
      exact finished.stripe_place counts inflight
  | written c k o success metadata fetched finished trail =>
      exact finished.stripe_place counts inflight

theorem slots_of_effect
    (before : ∀ c k, ∃ op, At (s.slotOps (c, k)) op ∧ (op = none ↔ (s.slot c k).active = false))
    (effect : FetchEffect dev s l t) (d : ChId) (j : Nat) :
    ∃ op, At (t.slotOps (d, j)) op ∧ (op = none ↔ (t.slot d j).active = false) := by
  obtain ⟨op, counts, idle⟩ := before d j
  have kept (slots : SlotsKept s t) :
      ∃ op, At (t.slotOps (d, j)) op ∧ (op = none ↔ (t.slot d j).active = false) :=
    ⟨op, by rwa [slots.ops], by rwa [slots.active]⟩
  cases effect with
  | stay record slots places trail => exact kept slots
  | enqueue c x cause entered places => exact kept entered.slots
  | overflow c x cause entered full places => exact kept entered.slots
  | start c k x record active stripe source free places ops trail =>
      by_cases same : (d, j) = (c, k)
      · cases same
        obtain rfl : op = none := idle.mpr free
        exact ⟨_, counts.move ops.counts, by simp [active]⟩
      · refine ⟨op, by rwa [ops.others _ same], ?_⟩
        rwa [active, if_neg (by simpa using same)]
  | writing c k o sqe res record active stripe entry tag good source places ops trail =>
      by_cases same : (d, j) = (c, k)
      · cases same
        obtain rfl := counts.eq_some source
        exact ⟨_, counts.move ops.counts, by rw [active, ← idle]; simp⟩
      · exact ⟨op, by rwa [ops.others _ same], by rwa [active]⟩
  | readFailed c k sqe res metadata fetched entry tag bad finished trail =>
      exact finished.slot_op counts idle
  | writeRefused c k sqe res metadata fetched entry tag good finished trail =>
      exact finished.slot_op counts idle
  | written c k o success metadata fetched finished trail => exact finished.slot_op counts idle

theorem bounded_act (bounded : ∀ c, (s.queue c).Bounded ubiFetchQueueSize) (act : Act dev s l t)
    (d : ChId) : (t.queue d).Bounded ubiFetchQueueSize := by
  have here := bounded d
  cases act
  case fetchStarted c k _ _ _ _ | fetchSubmitFailed c k _ _ _ _ =>
    have := CircularQueue.bounded_pop (bounded c)
    grind -linarith
  case submitFetching c id r x _ _ _ _ _ _ _ _ _ =>
    have := CircularQueue.bounded_push (bounded c) x
    grind -linarith
  all_goals grind -linarith

section Entries

attribute [local grind =] State.ringEntries stripeFetches_update
attribute [local grind →] List.mem_of_mem_eraseIdx List.mem_of_getElem?

theorem entries_act (inv : FetchesPlaced dev s) (issued : FetchesIssued t.log)
    (act : Act dev s l t) (d : ChId) (sqe : Sqe) (j : Nat) (entry : sqe ∈ t.ringEntries d)
    (tag : sqe.userData = .stripeFetch j) : sqe = stripeSqe dev j (t.slot d j).stripeIdx := by
  have before := inv.entries d sqe j
  have active (old : sqe ∈ s.ringEntries d) := inv.active_of_entry old tag
  clear inv
  cases act
  case fetchSubmitFailed c k _ _ _ _ =>
    exact absurd (by simp) (issued c k ((s.queue c).entries (s.queue c).head))
  all_goals
    clear issued
    grind -linarith [imageReadSqe, stripeSqe]

theorem writes_act (inv : FetchesPlaced dev s) (issued : FetchesIssued t.log)
    (act : Act dev s l t) (o : Nat) (op : BaseWrite) (d : ChId) (j : Nat)
    (write : t.writes o = some op) (cb : op.cb = .stripe d j) :
    op.startBlock = dev.stripeStart (t.slot d j).stripeIdx ∧
      op.numBlocks = dev.stripeBlockCount := by
  have before := inv.writes o
  have active (op) (old : s.writes o = some op) (cb : op.cb = .stripe d j) :=
    inv.active_of_write old cb
  clear inv
  cases act
  case fetchSubmitFailed c k _ _ _ _ =>
    exact absurd (by simp) (issued c k ((s.queue c).entries (s.queue c).head))
  all_goals
    clear issued
    grind -linarith

end Entries

theorem fetchesPlaced_act (inv : FetchesPlaced dev s) (issued : FetchesIssued t.log)
    (act : Act dev s l t) : FetchesPlaced dev t := by
  have effect := act_fetchEffect inv.fresh inv.bounded (fun _ _ _ => inv.active_of_op) issued act
  exact ⟨opsFresh_act inv.fresh act, bounded_act inv.bounded act,
    stripes_of_effect inv.stripes effect, slots_of_effect inv.slots effect,
    entries_act inv issued act, writes_act inv issued act⟩

theorem fetchesPlaced_newState (dev : UbiBdev) (base : Bytes) (table : StripeTable) :
    FetchesPlaced dev (newState base table) := by
  have bounded : newChannel.stripeFetchQueue.Bounded ubiFetchQueueSize := by decide
  constructor
  · exact ⟨fun _ _ => rfl, fun _ _ => rfl, fun _ _ => rfl⟩
  · exact fun _ => bounded
  · intro x
    refine ⟨none, at_none.mpr fun p => ?_, fun h => absurd rfl h⟩
    cases p with
    | queued c =>
        simp [State.stripePlaces, newState, (CircularQueue.contents_eq_nil bounded).mpr rfl]
    | slot c k => rfl
  · intro c k
    refine ⟨none, at_none.mpr fun p => ?_, by simp [newState, newChannel]⟩
    cases p <;> rfl
  · intro c sqe k entry
    cases entry
  · intro o op c k write
    cases write

theorem fetchesPlaced_reach {base : Bytes} {s₀ : State} {allowed : State → Event → Prop}
    (created : Created dev base s₀) (run : Reach dev allowed s₀ s)
    (issued : FetchesIssued s.log) : FetchesPlaced dev s := by
  obtain ⟨table, _, rfl⟩ := created
  exact reach_invariant_log fetchesIssued_earlier fetchesPlaced_act run
    (fetchesPlaced_newState dev base table) issued

/-- A stripe is only put into a queue that is not full. -/
def RingHasRoom (dev : UbiBdev) (s : State) (l : Label) : Prop :=
  ∀ c x, Enqueues dev s l c x →
    ((s.queue c).tail + 1) % ubiFetchQueueSize ≠ (s.queue c).head

def NoneForgotten (s : State) : Prop :=
  ∀ x, s.stripeStatus x = .inflight → ∃ p, s.stripePlaces x p ≠ 0

theorem Finished.none_forgotten {c : ChId} {k : Nat} {p : SlotOp} {r : StripeStatus}
    (finished : Finished s t c k p r) (final : r ≠ .inflight) (before : NoneForgotten s) :
    NoneForgotten t := by
  intro y inflight
  by_cases same : y = (s.slot c k).stripeIdx
  · rw [same, finished.status, Function.update_self] at inflight
    exact absurd inflight final
  · rw [finished.places.others y same]
    exact before y (by rwa [finished.status, Function.update_of_ne same] at inflight)

theorem noneForgotten_effect (before : NoneForgotten s) (room : RingHasRoom dev s l)
    (effect : FetchEffect dev s l t) : NoneForgotten t := by
  cases effect with
  | stay record slots places trail =>
      intro y inflight
      rw [places]
      exact before y (by rwa [← record.status])
  | writing c k o sqe res record active stripe entry tag good source places ops trail =>
      intro y inflight
      rw [places]
      exact before y (by rwa [← record.status])
  | enqueue c x cause entered places =>
      intro y inflight
      by_cases same : y = x
      · subst same
        have := places.counts (.queued c)
        exact ⟨.queued c, by simp at this; omega⟩
      · rw [places.others y same]
        exact before y (by rwa [entered.status, Function.update_of_ne same] at inflight)
  | overflow c x cause entered full places => exact absurd full (room c x cause)
  | start c k x record active stripe source free places ops trail =>
      intro y inflight
      by_cases same : y = x
      · subst same
        have := places.counts (.slot c k)
        exact ⟨.slot c k, by simp at this; omega⟩
      · rw [places.others y same]
        exact before y (by rwa [← record.status])
  | readFailed c k sqe res metadata fetched entry tag bad finished trail =>
      exact finished.none_forgotten (by decide) before
  | writeRefused c k sqe res metadata fetched entry tag good finished trail =>
      exact finished.none_forgotten (by decide) before
  | written c k o success metadata fetched finished trail =>
      exact finished.none_forgotten (by decide) before

/-- The operation that keeps a slot busy was issued for the stripe in the slot. -/
def FetchingOp (dev : UbiBdev) (s : State) (c : ChId) (k x : Nat) : SlotOp → Prop
  | .ring => ∃ sqe ∈ s.ringEntries c, sqe = stripeSqe dev k x
  | .write o => ∃ op, s.writes o = some op ∧ op.cb = .stripe c k ∧
      op.startBlock = dev.stripeStart x ∧ op.numBlocks = dev.stripeBlockCount

theorem FetchesPlaced.fetchingOp (inv : FetchesPlaced dev s) {c : ChId} {k : Nat} {p : SlotOp}
    (owner : s.slotOps (c, k) p ≠ 0) : FetchingOp dev s c k (s.slot c k).stripeIdx p := by
  cases p with
  | ring =>
      obtain ⟨sqe, entry, tag⟩ := List.countP_pos_iff.mp (Nat.pos_of_ne_zero owner)
      exact ⟨sqe, entry, inv.entries c sqe k entry (by simpa using tag)⟩
  | write o =>
      obtain ⟨op, write, cb⟩ : ∃ op, s.writes o = some op ∧ op.cb = .stripe c k := by
        simpa [State.slotOps] using owner
      exact ⟨op, write, cb, inv.writes o op c k write cb⟩

/-- As long as no queue overflows, every stripe in flight is at exactly one place:
once in one queue, or in one active slot that one operation for it keeps busy. -/
theorem inflight_at_one_place {base : Bytes} {s₀ : State} (created : Created dev base s₀)
    (run : Reach dev (Permitted (RingHasRoom dev)) s₀ s) (issued : FetchesIssued s.log)
    (x : Nat) (inflight : s.stripeStatus x = .inflight) :
    ∃ p, At (s.stripePlaces x) (some p) ∧
      ∀ c k, p = .slot c k → ∃ op, At (s.slotOps (c, k)) (some op) ∧ FetchingOp dev s c k x op := by
  have inv := fetchesPlaced_reach created run issued
  have kept : NoneForgotten s := by
    obtain ⟨table, decoded, rfl⟩ := created
    refine (reach_invariant_permitted (P := fun s => FetchesPlaced dev s ∧ NoneForgotten s)
      (fun s c x => ?_) fetchesIssued_earlier (fun {s t l} before room met act => ?_) run
      ⟨fetchesPlaced_newState dev base table, ?_⟩ issued).2
    · rintro ⟨_, _, ⟨⟩, _⟩
    · exact ⟨fetchesPlaced_act before.1 met act, noneForgotten_effect before.2 room
        (act_fetchEffect before.1.fresh before.1.bounded (fun _ _ _ => before.1.active_of_op) met
          act)⟩
    · intro y pending
      have pending : table.stripeStatus y = .inflight := pending
      rcases ubiFinishReadMetadata_status decoded y with fresh | ⟨_, fresh⟩ <;>
        simp [fresh] at pending
  obtain ⟨loc, counts, _⟩ := inv.stripes x
  obtain ⟨p, there⟩ := kept x inflight
  obtain rfl := counts.eq_some there
  refine ⟨p, counts, ?_⟩
  rintro c k rfl
  obtain ⟨active, held⟩ : (s.slot c k).active = true ∧ (s.slot c k).stripeIdx = x := by
    simpa [State.stripePlaces] using there
  obtain ⟨op, owner, idle⟩ := inv.slots c k
  cases op with
  | none => simp [active] at idle
  | some op =>
      have := inv.fetchingOp (p := op) (c := c) (k := k) (by simp [owner.eq_one])
      exact ⟨op, owner, by rwa [held] at this⟩

/-- A submission passes if the queue of its channel has a free cell. -/
def roomTest (s : State) : Event → Bool
  | .submit c _ _ => ((s.queue c).tail + 1) % ubiFetchQueueSize != (s.queue c).head
  | _ => true

theorem roomTest_sound (dev : UbiBdev) (s : State) (e : Event) (h : roomTest s e = true) :
    Permitted (RingHasRoom dev) s e := by
  rintro c x ⟨id, r, label, _⟩
  cases e <;> cases label
  simpa [roomTest] using h

theorem inflight_at_one_place_oneWrite :
    ∃ s, Reach (threeBlockBdev false) (Permitted (RingHasRoom (threeBlockBdev false)))
        (blankState (threeBlockBdev false)) s ∧
      s.stripeStatus 0 = .inflight ∧ ∃ p, At (s.stripePlaces 0) (some p) := by
  have ran : (Runs.exec (step (threeBlockBdev false)) roomTest
      (blankState (threeBlockBdev false)) [.submit 0 0 ⟨.write, 0, 1, fun _ => 5⟩]).any
      (fun s => decide (FetchesIssued s.log) && decide (s.stripeStatus 0 = .inflight)) = true := by
    decide +kernel
  obtain ⟨s, run, test⟩ := Runs.exists_reach_of_exec (fun _ _ _ => roomTest_sound _ _ _) ran
  simp only [Bool.and_eq_true, decide_eq_true_eq] at test
  obtain ⟨p, there, _⟩ :=
    inflight_at_one_place (created_blankState _) run test.1 0 test.2
  exact ⟨s, run, test.2, p, there⟩

def manyStripeBdev : UbiBdev where
  blocklen := 65536
  blockcnt := 32896
  imageSize := 2147483648
  image := fun _ => 7
  stripeSizeKb := 64
  noSync := false
  copyOnRead := false
  layout := ⟨1, 0, 128, 32768⟩
  imageSize_lt := by decide
  blockcnt_lt := by decide
  init := by decide

/-- The state after WRITEs to the first `n` stripes with no poll in between. -/
structure Filled (n : Nat) (s : State) : Prop where
  run : Reach manyStripeBdev anyStep (blankState manyStripeBdev) s
  issued : FetchesIssued s.log
  status : ∀ x, s.stripeStatus x = if x < n then .inflight else .notFetched
  idle : ∀ c k, (s.slot c k).active = false
  head : ∀ c, (s.queue c).head = 0
  tail : ∀ c, (s.queue c).tail = if c = 0 then n % ubiFetchQueueSize else 0
  request : ∀ id, n ≤ id → s.request id = none

theorem filled_zero : Filled 0 (blankState manyStripeBdev) where
  run := .refl
  issued _ _ _ := by simp [blankState, newState]
  status _ := rfl
  idle _ _ := rfl
  head _ := rfl
  tail _ := by simp [blankState, newState, newChannel]
  request _ _ := rfl

theorem filled_succ {n : Nat} (h : Filled n s) (bound : n < 32768) : ∃ t, Filled (n + 1) t := by
  let r : Request := ⟨.write, n, 1, fun _ => 0⟩
  have fetch : r.fetches manyStripeBdev := .inl rfl
  have image : r.offsetBlocks < manyStripeBdev.imageBlockCount := bound
  have index : toCInt (r.startStripe manyStripeBdev) = n := by
    show toCInt (n >>> 0) = n
    unfold toCInt
    rw [Nat.shiftRight_zero, Int.bmod_eq_of_le] <;> omega
  have within : r.startStripe manyStripeBdev = r.endStripe manyStripeBdev := by
    show n >>> 0 = (n + 1 + 2 ^ 64 - 1) % 2 ^ 64 >>> 0
    rw [Nat.shiftRight_zero, Nat.shiftRight_zero]
    omega
  have small : n < ubiMaxStripes := by simp only [ubiMaxStripes]; omega
  have free : s.stripeStatus n = .notFetched := by simp [h.status]
  have accepts : admissible manyStripeBdev s n r = true := by
    have range : n + 1 ≤ manyStripeBdev.ubiBlockcnt := bound
    simp [admissible, h.request n le_rfl, r, ubiIoTypeSupported, range]
  obtain ⟨t, moved⟩ : ∃ t, step manyStripeBdev s (.submit 0 n r) = .ok t := by
    simp only [step, accepts, if_true, ubiSubmitRequest, if_pos fetch, ← within, ne_eq, not_true,
      if_false, if_pos image, index]
    have gate : ubiGetStripeStatus (State.emit { s with
        request := Function.update s.request n (some r)
        buffer := Function.update s.buffer n r.data } (.submitted n)) n = some .notFetched :=
      ubiGetStripeStatus_eq_some.mpr ⟨n, rfl, small, free⟩
    rw [gate]
    exact ⟨_, rfl⟩
  have run := h.run.tail trivial moved
  refine ⟨t, ?_⟩
  cases ubiSubmitRequest_act accepts (by simpa [step, accepts] using moved) with
  | submitSpanning _ _ _ _ span => exact absurd within span
  | submitQueued _ _ _ _ gate =>
      obtain ⟨status, found, other⟩ := gate fetch image
      obtain ⟨x, same, _, rfl⟩ := ubiGetStripeStatus_eq_some.mp found
      obtain rfl : n = x := by omega
      exact absurd free other
  | submitFetching new type range _ _ _ same small _ =>
      obtain rfl := Int.ofNat.inj (index.symm.trans same)
      have issued := h.issued
      refine ⟨run, fun c k x => ?_, fun x => ?_, fun c k => ?_, fun c => ?_, fun c => ?_,
        fun id after => ?_⟩
      · simpa using issued c k x
      · have := h.status x
        grind -linarith
      · have := h.idle c k
        grind -linarith
      · have := h.head c
        grind -linarith [CircularQueue.push]
      · have := h.tail c
        have := Nat.mod_add_mod n ubiFetchQueueSize 1
        grind -linarith [CircularQueue.push]
      · have := h.request id (by omega)
        grind -linarith

/-- With one stripe more than the queue can hold, every stripe in it is forgotten. -/
theorem full_queue_forgets :
    ∃ s, Reach manyStripeBdev anyStep (blankState manyStripeBdev) s ∧ FetchesIssued s.log ∧
      s.stripeStatus 0 = .inflight ∧ ∀ p, s.stripePlaces 0 p = 0 := by
  have fill (n : Nat) (bound : n ≤ 32768) : ∃ s, Filled n s := by
    induction n with
    | zero => exact ⟨_, filled_zero⟩
    | succ n ih =>
        obtain ⟨s, filled⟩ := ih (by omega)
        exact filled_succ filled bound
  obtain ⟨s, filled⟩ := fill 32768 le_rfl
  refine ⟨s, filled.run, filled.issued, by simp [filled.status], fun p => ?_⟩
  cases p with
  | slot c k => simp [State.stripePlaces, filled.idle]
  | queued c =>
      have head := filled.head c
      have tail : (s.queue c).tail = 0 := by
        rw [filled.tail]
        split <;> rfl
      have empty : (s.queue c).contents ubiFetchQueueSize = [] :=
        (CircularQueue.contents_eq_nil ⟨by rw [head]; decide, by rw [tail]; decide⟩).mpr
          (head.trans tail.symm)
      simp [State.stripePlaces, empty]

end BdevUbi
