import BdevUbi.FetchOutcomes
import BdevUbi.Addressing
import BdevUbi.StripeGate

/-!
What keeps a channel alive. A fetch is started for a request that then waits in the list of
the same channel until the fetch has ended, so a channel without requests has no fetch left
in its queue, its slots, its ring or the base bdev, and can be destroyed. The status array
belongs to the bdev: a stripe in flight is always waited for on some channel.
-/

namespace BdevUbi
open Placement

variable {dev : UbiBdev} {s t : State} {l : Label}

/-- A request in the list of channel `c` waits for the fetch of stripe `x`. -/
def Awaited (dev : UbiBdev) (s : State) (c : ChId) (x : Nat) : Prop :=
  ∃ id r, id ∈ (s.channel c).io ∧ s.request id = some r ∧ r.fetches dev ∧
    r.offsetBlocks < dev.imageBlockCount ∧ toCInt (r.startStripe dev) = x ∧ x < ubiMaxStripes

def StripePlace.channel : StripePlace → ChId
  | .queued c => c
  | .slot c _ => c

/-- A request that waits for a stripe in flight is not taken off its list. -/
theorem awaited_act (act : Act dev s l t) {c : ChId} {x : Nat} (waits : Awaited dev s c x)
    (inflight : s.stripeStatus x = .inflight) : Awaited dev t c x := by
  obtain ⟨id, r, listed, known, fetch, image, index, bound⟩ := waits
  refine ⟨id, r, ?_, act_request act known, fetch, image, index, bound⟩
  have gate : ubiGetStripeStatus s (toCInt (r.startStripe dev)) = some .inflight :=
    ubiGetStripeStatus_eq_some.mpr ⟨x, index, bound, inflight⟩
  have data : r.type = .write ∨ r.type = .read := fetch.imp_right And.left
  clear index bound inflight
  cases act <;> first
    | exact listed
    | grind -linarith [Served]

theorem awaited_of_enqueues (act : Act dev s l t) {c : ChId} {x : Nat}
    (cause : Enqueues dev s l c x) : Awaited dev t c x := by
  obtain ⟨id, r, rfl, fetch, within, image, index, bound, _⟩ := cause
  refine ⟨id, r, ?_, ?_, fetch, image, index, bound⟩ <;> cases act <;> simp_all

theorem place_origin (effect : FetchEffect dev s l t) {x : Nat} {p : StripePlace}
    (there : t.stripePlaces x p ≠ 0) :
    (∃ q, s.stripePlaces x q ≠ 0 ∧ q.channel = p.channel) ∨ Enqueues dev s l p.channel x := by
  have kept (h : s.stripePlaces x p ≠ 0) : (∃ q, s.stripePlaces x q ≠ 0 ∧ q.channel = p.channel) ∨
      Enqueues dev s l p.channel x := .inl ⟨p, h, rfl⟩
  cases effect with
  | stay _ _ places | writing _ _ _ _ _ _ _ _ _ _ _ _ places => exact kept (places ▸ there)
  | enqueue c y cause entered places =>
      rcases places.origin there with old | ⟨rfl, ⟨⟩⟩
      · exact kept old
      · exact .inr cause
  | overflow c y cause entered full places =>
      rw [places] at there
      split at there
      · exact absurd rfl there
      · exact kept there
  | start c k y record active stripe source free places =>
      rcases places.origin there with old | ⟨rfl, ⟨⟩⟩
      · exact kept old
      · exact .inl ⟨.queued c, source, rfl⟩
  | readFailed _ _ _ _ _ _ _ _ _ finished | writeRefused _ _ _ _ _ _ _ _ _ finished
  | written _ _ _ _ _ _ finished =>
      rcases finished.places.origin there with old | ⟨_, ⟨⟩⟩
      exact kept old

/-- Every fetch is awaited on its own channel, and every stripe in flight on some channel. -/
structure FetchesAwaited (dev : UbiBdev) (s : State) : Prop where
  placed : FetchesPlaced dev s
  here : ∀ x p, s.stripePlaces x p ≠ 0 → Awaited dev s p.channel x
  inflight : ∀ x, s.stripeStatus x = .inflight → ∃ c, Awaited dev s c x

theorem fetchesAwaited_act (inv : FetchesAwaited dev s) (issued : FetchesIssued t.log)
    (act : Act dev s l t) : FetchesAwaited dev t := by
  have placed := inv.placed
  have effect := act_fetchEffect placed.fresh placed.bounded (fun _ _ _ => placed.active_of_op)
    issued act
  refine ⟨fetchesPlaced_act placed issued act, fun x p there => ?_, fun x inflight => ?_⟩
  · rcases place_origin effect there with ⟨q, old, same⟩ | cause
    · exact same ▸ awaited_act act (inv.here x q old) (placed.inflight_of_place old)
    · exact awaited_of_enqueues act cause
  · rcases inflight_origin effect inflight with old | ⟨c, cause⟩
    · obtain ⟨c, waits⟩ := inv.inflight x old
      exact ⟨c, awaited_act act waits old⟩
    · exact ⟨c, awaited_of_enqueues act cause⟩

theorem fetchesAwaited_reach {base : Bytes} {s₀ : State} (created : Created dev base s₀)
    (run : Reach dev anyStep s₀ s) (issued : FetchesIssued s.log) : FetchesAwaited dev s := by
  obtain ⟨table, read, rfl⟩ := created
  have placed := fetchesPlaced_newState dev base table
  have idle (x : Nat) : table.stripeStatus x ≠ .inflight := by
    rcases ubiFinishReadMetadata_status read x with status | ⟨_, status⟩ <;> simp [status]
  refine reach_invariant_log fetchesIssued_earlier fetchesAwaited_act run ?_ issued
  exact ⟨placed, fun x p there => absurd (placed.inflight_of_place there) (idle x),
    fun x inflight => absurd inflight (idle x)⟩

/-- A callback of the base bdev or of the buffer pool will be given this request. -/
def CallbackDue (s : State) (id : ReqId) : Prop :=
  s.waiting id = true ∨ (∃ o op, s.reads o = some op ∧ op.req = id) ∨
    (∃ o op, s.writes o = some op ∧ (op.cb = .io id ∨ op.cb = .metadata id)) ∨
    ∃ o op, s.flushes o = some op ∧ (op.cb = .data id ∨ op.cb = .metadata id)

theorem callbackDue_origin (act : Act dev s l t) {id : ReqId} (due : CallbackDue t id) :
    (CallbackDue s id ∧ (t.bdevIo id).ubiCh = (s.bdevIo id).ubiCh) ∨
      id ∈ (s.channel (t.bdevIo id).ubiCh).io := by
  unfold CallbackDue at due ⊢
  cases act <;> first
    | exact .inl ⟨due, rfl⟩
    | grind -linarith

/-- Where a request is, the channel on which it was submitted is known. -/
structure ChannelsKnown (s : State) : Prop where
  listed : ∀ c, ∀ id ∈ (s.channel c).io, .queued c id ∈ s.log
  due : ∀ id, CallbackDue s id → .queued (s.bdevIo id).ubiCh id ∈ s.log
  ring : ∀ c, ∀ sqe ∈ s.ringEntries c, ∀ id, sqe.userData = .bdevIo id → .queued c id ∈ s.log

theorem queued_act (act : Act dev s l t) {c : ChId} {id : ReqId} (h : id ∈ (t.channel c).io) :
    id ∈ (s.channel c).io ∨ .queued c id ∈ t.log := by
  cases act <;> first
    | exact .inl h
    | grind -linarith

theorem prepared_act (act : Act dev s l t) {c : ChId} {sqe : Sqe} {id : ReqId}
    (entry : sqe ∈ t.ringEntries c) (tag : sqe.userData = .bdevIo id) :
    sqe ∈ s.ringEntries c ∨ (s.waiting id = true ∧ c = (s.bdevIo id).ubiCh) := by
  simp only [State.ringEntries, List.mem_append, List.mem_map] at entry ⊢
  cases act <;> first
    | exact .inl entry
    | grind -linarith [List.mem_of_mem_eraseIdx, stripeSqe, imageReadSqe]

theorem channelsKnown_act (inv : ChannelsKnown s) (act : Act dev s l t) : ChannelsKnown t where
  listed c id h := (queued_act act h).elim
    (fun old => (act_log act).subset (inv.listed c id old)) fun new => new
  due id h := by
    rcases callbackDue_origin act h with ⟨old, same⟩ | left
    · rw [same]
      exact (act_log act).subset (inv.due id old)
    · exact (act_log act).subset (inv.listed _ id left)
  ring c sqe entry id tag := by
    rcases prepared_act act entry tag with old | ⟨wait, rfl⟩
    · exact (act_log act).subset (inv.ring c sqe old id tag)
    · exact (act_log act).subset (inv.due id (.inl wait))

theorem channelsKnown_reach {base : Bytes} {s₀ : State} (created : Created dev base s₀)
    (run : Reach dev anyStep s₀ s) : ChannelsKnown s := by
  obtain ⟨table, _, rfl⟩ := created
  refine reach_invariant channelsKnown_act run ⟨?_, ?_, ?_⟩ <;>
    simp [newState, newChannel, State.ringEntries, CallbackDue]

def NoneOutstanding (s : State) (c : ChId) : Prop :=
  ∀ id, .queued c id ∈ s.log → ∃ ok, .completed id ok ∈ s.log

/-- Nothing of a fetch is left on the channel, nothing outstanding points into it, and every
stripe in flight is waited for on another channel. -/
structure Quiescent (dev : UbiBdev) (s : State) (c : ChId) : Prop where
  queue : stripeQueueEmpty (s.channel c) = true
  slots : ∀ k, (s.slot c k).active = false
  ring : s.ringEntries c = []
  writes : ∀ o op k, s.writes o = some op → op.cb ≠ .stripe c k
  callbacks : ∀ id, CallbackDue s id → (s.bdevIo id).ubiCh ≠ c
  inflight : ∀ x, s.stripeStatus x = .inflight → ∃ d, d ≠ c ∧ Awaited dev s d x

theorem uncompleted_of_callbackDue (inv : RequestsPlaced s) {id : ReqId} (due : CallbackDue s id)
    (ok : Bool) : .completed id ok ∉ s.log := by
  rcases due with wait | ⟨o, op, read, rfl⟩ | ⟨o, op, write, cb | cb⟩ | ⟨o, op, flush, cb | cb⟩
  · exact inv.uncompleted_of_occurs (p := .buffer) (by simp [State.occurrences, wait]) (by simp) ok
  · exact inv.uncompleted_of_occurs (p := .baseRead o) (by simp [State.occurrences, read])
      (by simp) ok
  · exact inv.uncompleted_of_occurs (p := .baseWrite o) (by simp [State.occurrences, write, cb])
      (by simp) ok
  · exact inv.uncompleted_of_occurs (p := .metadataWrite o)
      (by simp [State.occurrences, write, cb]) (by simp) ok
  · exact inv.uncompleted_of_occurs (p := .dataFlush o) (by simp [State.occurrences, flush, cb])
      (by simp) ok
  · exact inv.uncompleted_of_occurs (p := .metadataFlush o)
      (by simp [State.occurrences, flush, cb]) (by simp) ok

section Quiescent

variable (inv : FetchesAwaited dev s) (requests : RequestsPlaced s) (known : ChannelsKnown s)
  {c : ChId} (idle : NoneOutstanding s c)

include requests known idle

theorem not_awaited (x : Nat) : ¬ Awaited dev s c x := by
  rintro ⟨id, r, listed, _⟩
  obtain ⟨ok, done⟩ := idle id (known.listed c id listed)
  exact requests.uncompleted_of_occurs (p := .listed c) (List.count_pos_iff.mpr listed).ne'
    (by simp) ok done

include inv

theorem quiescent_of_idle : Quiescent dev s c := by
  have placeless (x : Nat) (p : StripePlace) (here : p.channel = c) : s.stripePlaces x p = 0 := by
    by_contra there
    exact not_awaited requests known idle x (here ▸ inv.here x p there)
  have inactive (k : Nat) : (s.slot c k).active = false := by
    by_contra active
    have := placeless (s.slot c k).stripeIdx (.slot c k) rfl
    simp [State.stripePlaces, active] at this
  constructor
  case slots => exact inactive
  case queue =>
    have empty : (s.queue c).contents ubiFetchQueueSize = [] :=
      List.eq_nil_iff_forall_not_mem.mpr fun x here =>
        List.count_pos_iff.mpr here |>.ne' (placeless x (.queued c) rfl)
    simpa [stripeQueueEmpty] using (CircularQueue.contents_eq_nil (inv.placed.bounded c)).mp empty
  case ring =>
    refine List.eq_nil_iff_forall_not_mem.mpr fun sqe entry => ?_
    cases tag : sqe.userData with
    | stripeFetch k =>
        have active := inv.placed.active_of_entry entry tag
        simp [inactive k] at active
    | bdevIo id =>
        obtain ⟨ok, done⟩ := idle id (known.ring c sqe entry id tag)
        exact requests.uncompleted_of_occurs (p := .ring c)
          (List.countP_pos_iff.mpr ⟨sqe, entry, by simp [tag]⟩).ne' (by simp) ok done
  case writes =>
    intro o op k write cb
    have active := inv.placed.active_of_write write cb
    simp [inactive k] at active
  case callbacks =>
    rintro id due rfl
    obtain ⟨ok, done⟩ := idle id (known.due id due)
    exact uncompleted_of_callbackDue requests due ok done
  case inflight =>
    intro x inflight
    obtain ⟨d, waits⟩ := inv.inflight x inflight
    refine ⟨d, ?_, waits⟩
    rintro rfl
    exact not_awaited requests known idle x waits

end Quiescent

theorem Quiescent.destroyed {c : ChId} (quiet : Quiescent dev s c) :
    ubiDestroyChannelCb s c = s := by
  have ring := quiet.ring
  simp only [State.ringEntries, List.append_eq_nil_iff, List.map_eq_nil_iff] at ring
  obtain ⟨⟨sqes, submitted⟩, cqes⟩ := ring
  have same : { s.channel c with sqes := [], submitted := [], cqes := [] } = s.channel c := by
    cases channel : s.channel c
    simp_all
  rw [ubiDestroyChannelCb, State.setChannel, same, Function.update_eq_self]

/-- A stripe between head and tail of a channel's queue, or held by one of its active slots,
has a request in the channel's list whose first block is an image block of that stripe. -/
def FetchesBacked (dev : UbiBdev) (s : State) : Prop :=
  ∀ c x, (x ∈ (s.queue c).contents ubiFetchQueueSize ∨
      ∃ k, (s.slot c k).active = true ∧ (s.slot c k).stripeIdx = x) →
    ∃ id r, id ∈ (s.channel c).io ∧ s.request id = some r ∧
      r.offsetBlocks >>> dev.stripeShift = x ∧ r.offsetBlocks < dev.imageBlockCount

theorem fetchesBacked_of_small (small : dev.imageBlockCount ≤ 2 ^ 32 * dev.stripeBlockCount)
    (inv : FetchesAwaited dev s) : FetchesBacked dev s := by
  intro c x fetching
  obtain ⟨id, r, listed, known, _, image, index, _⟩ : Awaited dev s c x := by
    rcases fetching with queued | ⟨k, active, rfl⟩
    · exact inv.here x (.queued c) (List.count_pos_iff.mpr queued).ne'
    · exact inv.here _ (.slot c k) (by simp [State.stripePlaces, active])
  exact ⟨id, r, listed, known, toCInt_eq (startStripe_lt small image) index, image⟩

/-- The state after the WRITE to `firstAliased`: it waits for the fetch of stripe 0. -/
def aliasedState (dev : UbiBdev) : State :=
  insertTail (ubiSetStripeStatus (enqueueStripe (({ blankState dev with
    request := Function.update (blankState dev).request 0 (some (aliasedWrite dev))
    buffer := Function.update (blankState dev).buffer 0 fun _ => 0 }).emit (.submitted 0)) 0 0)
    0 .inflight) 0 0

theorem aliasedState_submitted (image : dev.firstAliased < dev.imageBlockCount) :
    step dev (blankState dev) (.submit 0 0 (aliasedWrite dev)) = .ok (aliasedState dev) := by
  have admitted := aliasedWrite_admissible (s := blankState dev) image rfl
  have within := aliasedWrite_within image
  have fetch : (aliasedWrite dev).fetches dev := .inl rfl
  have image : (aliasedWrite dev).offsetBlocks < dev.imageBlockCount := image
  have index : toCInt (2 ^ 32) = 0 := by decide
  simp only [step, admitted, if_true, ubiSubmitRequest, if_pos fetch, ← within, ne_eq,
    not_true_eq_false, if_false, if_pos image, aliasedWrite_startStripe, index]
  rfl

theorem aliasedState_issued (dev : UbiBdev) : FetchesIssued (aliasedState dev).log := by
  simp [FetchesIssued, aliasedState, insertTail, ubiSetStripeStatus, enqueueStripe, State.emit,
    State.setChannel, blankState, newState]

theorem aliasedState_unbacked (dev : UbiBdev) : ¬ FetchesBacked dev (aliasedState dev) := by
  intro backed
  have queued : 0 ∈ ((aliasedState dev).queue 0).contents ubiFetchQueueSize := by
    have pushed : (aliasedState dev).queue 0 =
        newChannel.stripeFetchQueue.push ubiFetchQueueSize 0 := by
      simp [aliasedState, insertTail, ubiSetStripeStatus, enqueueStripe, State.queue, State.emit,
        State.setChannel, blankState, newState, CircularQueue.push, and_mask_eq_mod]
    rw [pushed, CircularQueue.contents_push (by decide) 0 (by decide)]
    simp
  obtain ⟨id, r, listed, known, stripe, _⟩ := backed 0 0 (.inl queued)
  have first : ((aliasedState dev).channel 0).io = [0] := rfl
  obtain rfl : id = 0 := by simpa [first] using listed
  obtain rfl : aliasedWrite dev = r := Option.some.inj known
  have := aliasedWrite_startStripe dev
  simp only [Request.startStripe] at this
  omega

theorem channels_quiesce_iff (dev : UbiBdev) :
    (∀ base s₀ s c, Created dev base s₀ → Reach dev anyStep s₀ s → FetchesIssued s.log →
      NoneOutstanding s c → Quiescent dev s c ∧ ubiDestroyChannelCb s c = s) ∧
    ((∀ base s₀ s, Created dev base s₀ → Reach dev anyStep s₀ s → FetchesIssued s.log →
      FetchesBacked dev s) ↔ dev.imageBlockCount ≤ 2 ^ 32 * dev.stripeBlockCount) := by
  refine ⟨fun base s₀ s c created run issued idle => ?_, fun backed => ?_,
    fun small base s₀ s created run issued => ?_⟩
  · have quiet := quiescent_of_idle (fetchesAwaited_reach created run issued)
      (requestsPlaced_reach created run) (channelsKnown_reach created run) idle
    exact ⟨quiet, quiet.destroyed⟩
  · by_contra large
    have image : dev.firstAliased < dev.imageBlockCount := Nat.lt_of_not_le large
    exact aliasedState_unbacked dev (backed _ _ _ (created_blankState dev)
      (.tail .refl trivial (aliasedState_submitted image)) (aliasedState_issued dev))
  · exact fetchesBacked_of_small small (fetchesAwaited_reach created run issued)

theorem vast_fetch_unbacked :
    Reach vastBdev anyStep (blankState vastBdev) (aliasedState vastBdev) ∧
      FetchesIssued (aliasedState vastBdev).log ∧
      ¬ FetchesBacked vastBdev (aliasedState vastBdev) :=
  ⟨.tail .refl trivial (aliasedState_submitted (by decide)), aliasedState_issued _,
    aliasedState_unbacked _⟩

end BdevUbi
