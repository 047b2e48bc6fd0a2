import BdevUbi.StripePlaces
import BdevUbi.RequestPlaces

/-!
The life of a stripe. Its status moves from not fetched to in flight and from there
to fetched or failed, once; it is enqueued, dequeued and written once at most.
-/

namespace BdevUbi
open Placement

/-- What a history says about a stripe, newest first: the statuses it was given, how
often it was enqueued and dequeued, the results of its image reads, and how the
submissions and the completions of its base writes ended. -/
structure Tally where
  statuses : List StripeStatus
  enqueued : Nat
  dequeued : Nat
  reads : List Int
  writes : List Bool
  done : List Bool
  deriving DecidableEq, Repr

def Tally.record (x : Nat) (n : Tally) : Obs → Tally
  | .setStatus y r => if y = x then { n with statuses := r :: n.statuses } else n
  | .enqueued _ y => if y = x then { n with enqueued := n.enqueued + 1 } else n
  | .dequeued _ y => if y = x then { n with dequeued := n.dequeued + 1 } else n
  | .fetchCqe _ _ _ _ y res => if y = x then { n with reads := res :: n.reads } else n
  | .stripeWrite y ok => if y = x then { n with writes := ok :: n.writes } else n
  | .stripeWriteDone y ok => if y = x then { n with done := ok :: n.done } else n
  | _ => n

def tally (x : Nat) : List Obs → Tally
  | [] => ⟨[], 0, 0, [], [], []⟩
  | o :: past => (tally x past).record x o

variable {dev : UbiBdev} {s t : State} {l : Label}

theorem tally_trail (s : State) (x : Nat) : tally x s.trail = tally x s.log := by
  unfold State.trail
  induction s.log with
  | nil => rfl
  | cons o past ih =>
      rw [List.filter_cons]
      cases o <;> simp [Obs.isFetch, tally, Tally.record, ih]

/-- How far the fetch of a stripe has come, and what the history says about it then. -/
inductive Stage (init : Nat → StripeStatus) (s : State) (x : Nat) : Prop
  | untouched (status : s.stripeStatus x = init x)
      (counted : tally x s.trail = ⟨[], 0, 0, [], [], []⟩)
  | queued (new : init x = .notFetched) (status : s.stripeStatus x = .inflight)
      (unslotted : ∀ c k, s.stripePlaces x (.slot c k) = 0)
      (counted : tally x s.trail = ⟨[.inflight], 1, 0, [], [], []⟩)
  | reading (c : ChId) (k : Nat) (new : init x = .notFetched)
      (status : s.stripeStatus x = .inflight) (slot : s.stripePlaces x (.slot c k) ≠ 0)
      (op : s.slotOps (c, k) .ring ≠ 0)
      (counted : tally x s.trail = ⟨[.inflight], 1, 1, [], [], []⟩)
  | writing (c : ChId) (k o : Nat) (res : Int) (new : init x = .notFetched)
      (status : s.stripeStatus x = .inflight) (slot : s.stripePlaces x (.slot c k) ≠ 0)
      (op : s.slotOps (c, k) (.write o) ≠ 0) (good : 0 ≤ res)
      (counted : tally x s.trail = ⟨[.inflight], 1, 1, [res], [true], []⟩)
  | readFailed (res : Int) (new : init x = .notFetched) (status : s.stripeStatus x = .failed)
      (bad : res < 0) (counted : tally x s.trail = ⟨[.failed, .inflight], 1, 1, [res], [], []⟩)
  | writeRefused (res : Int) (new : init x = .notFetched) (status : s.stripeStatus x = .failed)
      (good : 0 ≤ res)
      (counted : tally x s.trail = ⟨[.failed, .inflight], 1, 1, [res], [false], []⟩)
  | written (res : Int) (ok : Bool) (new : init x = .notFetched)
      (status : s.stripeStatus x = .fetched) (good : 0 ≤ res)
      (counted : tally x s.trail = ⟨[.fetched, .inflight], 1, 1, [res], [true], [ok]⟩)

variable {init : Nat → StripeStatus} {x y : Nat}

theorem Stage.frame (stage : Stage init s y) (status : t.stripeStatus y = s.stripeStatus y)
    (slots : ∀ c k, t.stripePlaces y (.slot c k) = s.stripePlaces y (.slot c k))
    (ops : ∀ c k, s.stripePlaces y (.slot c k) ≠ 0 → t.slotOps (c, k) = s.slotOps (c, k))
    (counted : tally y t.trail = tally y s.trail) : Stage init t y := by
  cases stage with
  | untouched status' counted' => exact .untouched (status.trans status') (counted.trans counted')
  | queued new status' unslotted counted' =>
      exact .queued new (status.trans status') (fun c k => (slots c k).trans (unslotted c k))
        (counted.trans counted')
  | reading c k new status' slot op counted' =>
      exact .reading c k new (status.trans status') (by rwa [slots]) (by rwa [ops c k slot])
        (counted.trans counted')
  | writing c k o res new status' slot op good counted' =>
      exact .writing c k o res new (status.trans status') (by rwa [slots]) (by rwa [ops c k slot])
        good (counted.trans counted')
  | readFailed res new status' bad counted' =>
      exact .readFailed res new (status.trans status') bad (counted.trans counted')
  | writeRefused res new status' good counted' =>
      exact .writeRefused res new (status.trans status') good (counted.trans counted')
  | written res ok new status' good counted' =>
      exact .written res ok new (status.trans status') good (counted.trans counted')

section Steps

variable (settled : ∀ x, init x = .notFetched ∨ init x = .fetched) (inv : FetchesPlaced dev s)
include settled inv

theorem Stage.of_queued {c : ChId} (stage : Stage init s x)
    (queued : s.stripePlaces x (.queued c) ≠ 0) :
    init x = .notFetched ∧ tally x s.trail = ⟨[.inflight], 1, 0, [], [], []⟩ := by
  have inflight := inv.inflight_of_place queued
  cases stage with
  | untouched status _ =>
      rw [inflight] at status
      rcases settled x with h | h <;> simp [h] at status
  | queued new _ _ counted => exact ⟨new, counted⟩
  | reading c k _ _ slot _ _ => cases inv.place_unique queued slot
  | writing c k o _ _ _ slot _ _ => cases inv.place_unique queued slot
  | readFailed _ _ status | writeRefused _ _ status | written _ _ _ status =>
      simp [inflight] at status

/-- The stage of a stripe in an active slot follows from the operation of the slot. -/
theorem Stage.of_slotOp {c : ChId} {k : Nat} {p : SlotOp}
    (stage : Stage init s (s.slot c k).stripeIdx) (op : s.slotOps (c, k) p ≠ 0) :
    init (s.slot c k).stripeIdx = .notFetched ∧
      (p = .ring → tally (s.slot c k).stripeIdx s.trail = ⟨[.inflight], 1, 1, [], [], []⟩) ∧
      (p ≠ .ring → ∃ res, 0 ≤ res ∧
        tally (s.slot c k).stripeIdx s.trail = ⟨[.inflight], 1, 1, [res], [true], []⟩) := by
  have active := inv.active_of_op op
  have here : s.stripePlaces (s.slot c k).stripeIdx (.slot c k) ≠ 0 := by
    simp [State.stripePlaces, active]
  have inflight := inv.inflight_of_place here
  have unique {q : SlotOp} (other : s.slotOps (c, k) q ≠ 0) : p = q := by
    obtain ⟨loc, counts, _⟩ := inv.slots c k
    exact Option.some.inj ((counts.eq_some op).symm.trans (counts.eq_some other))
  cases stage with
  | untouched status _ =>
      rw [inflight] at status
      rcases settled (s.slot c k).stripeIdx with h | h <;> simp [h] at status
  | queued _ _ unslotted _ => exact absurd (unslotted c k) here
  | reading d j new _ slot ring counted =>
      cases inv.place_unique here slot
      exact ⟨new, fun _ => counted, fun other => absurd (unique ring) other⟩
  | writing d j o res new _ slot write good counted =>
      cases inv.place_unique here slot
      cases unique write
      exact ⟨new, by simp, fun _ => ⟨res, good, counted⟩⟩
  | readFailed _ _ status | writeRefused _ _ status | written _ _ _ status =>
      simp [inflight] at status

attribute [local simp] tally Tally.record

omit settled inv in
theorem Stage.frame_finished {c : ChId} {k : Nat} {p : SlotOp} {r : StripeStatus}
    (stage : Stage init s y) (finished : Finished s t c k p r)
    (other : y ≠ (s.slot c k).stripeIdx) (counted : tally y t.trail = tally y s.trail) :
    Stage init t y := by
  refine stage.frame (by simp [finished.status, other])
    (fun d j => by rw [finished.places.others y other]) (fun d j slot => ?_) counted
  apply finished.ops.others
  rintro ⟨⟩
  have : (s.slot c k).active = true ∧ (s.slot c k).stripeIdx = y := by
    simpa [State.stripePlaces] using slot
  exact other this.2.symm

omit settled in
theorem Stage.of_entered {c : ChId} (stage : Stage init s y) (cause : Enqueues dev s l c x)
    (entered : Entered s t c x)
    (slots : ∀ d j, t.stripePlaces y (.slot d j) = s.stripePlaces y (.slot d j)) :
    Stage init t y := by
  obtain ⟨_, _, _, _, _, _, _, _, gate⟩ := cause
  by_cases same : y = x
  · subst same
    have unslotted (d : ChId) (j : Nat) : s.stripePlaces y (.slot d j) = 0 := by
      by_contra slot
      have := inv.inflight_of_place slot
      simp [gate] at this
    cases stage with
    | untouched status counted =>
        exact .queued (by rw [← status, gate]) (by simp [entered.status])
          (fun d j => (slots d j).trans (unslotted d j)) (by simp [entered.trail, counted])
    | queued _ status | reading _ _ _ status | writing _ _ _ _ _ status | readFailed _ _ status
    | writeRefused _ _ status | written _ _ _ status => simp [gate] at status
  · exact stage.frame (by simp [entered.status, same]) slots
      (fun _ _ _ => by rw [entered.slots.ops]) (by simp [entered.trail, Ne.symm same])

theorem stage_effect (stage : Stage init s y) (effect : FetchEffect dev s l t) :
    Stage init t y := by
  cases effect with
  | stay record slots places trail =>
      exact stage.frame (by rw [record.status]) (by simp [places]) (by simp [slots.ops])
        (by rw [trail])
  | enqueue c x cause entered places =>
      refine stage.of_entered inv cause entered fun d j => ?_
      by_cases same : y = x
      · subst same
        simpa using places.counts (.slot d j)
      · rw [places.others y same]
  | overflow c x cause entered full places =>
      exact stage.of_entered inv cause entered fun d j => by simp [places]
  | start c k x record active stripe source free places ops trail =>
      by_cases same : y = x
      · subst same
        obtain ⟨new, before⟩ := stage.of_queued settled inv source
        refine .reading c k new ?_ ?_ ?_ (by simp [trail, before])
        · rw [record.status]
          exact inv.inflight_of_place source
        · have := places.counts (.slot c k)
          simp at this
          omega
        · have := ops.counts .ring
          simp at this
          omega
      · refine stage.frame (by rw [record.status]) (fun d j => by rw [places.others y same])
          (fun d j slot => ?_) (by simp [trail, Ne.symm same])
        apply ops.others
        rintro ⟨⟩
        simp [State.stripePlaces, free] at slot
  | writing c k o sqe res record active stripe entry tag good source places ops trail =>
      by_cases same : y = (s.slot c k).stripeIdx
      · subst same
        have busy := inv.active_of_op source
        obtain ⟨new, before, _⟩ := stage.of_slotOp settled inv source
        have before := before rfl
        refine .writing c k o res new ?_ ?_ ?_ good (by simp [trail, before])
        · rw [record.status]
          exact inv.inflight_of_active busy
        · rw [places]
          simp [State.stripePlaces, busy]
        · have := ops.counts (.write o)
          simp at this
          omega
      · refine stage.frame (by rw [record.status]) (by simp [places]) (fun d j slot => ?_)
          (by simp [trail, Ne.symm same])
        apply ops.others
        rintro ⟨⟩
        have : (s.slot c k).active = true ∧ (s.slot c k).stripeIdx = y := by
          simpa [State.stripePlaces] using slot
        exact same this.2.symm
  | readFailed c k sqe res metadata fetched entry tag bad finished trail =>
      by_cases same : y = (s.slot c k).stripeIdx
      · subst same
        obtain ⟨new, before, _⟩ := stage.of_slotOp settled inv finished.owner
        have before := before rfl
        exact .readFailed res new (by simp [finished.status]) bad (by simp [trail, before])
      · exact stage.frame_finished finished same (by simp [trail, Ne.symm same])
  | writeRefused c k sqe res metadata fetched entry tag good finished trail =>
      by_cases same : y = (s.slot c k).stripeIdx
      · subst same
        obtain ⟨new, before, _⟩ := stage.of_slotOp settled inv finished.owner
        have before := before rfl
        exact .writeRefused res new (by simp [finished.status]) good (by simp [trail, before])
      · exact stage.frame_finished finished same (by simp [trail, Ne.symm same])
  | written c k o success metadata fetched finished trail =>
      by_cases same : y = (s.slot c k).stripeIdx
      · subst same
        obtain ⟨new, _, before⟩ := stage.of_slotOp settled inv finished.owner
        obtain ⟨res, good, before⟩ := before (by simp)
        exact .written res success new (by simp [finished.status]) good (by simp [trail, before])
      · exact stage.frame_finished finished same (by simp [trail, Ne.symm same])

end Steps

def StatusStep (before after : StripeStatus) : Prop :=
  after = before ∨ (before = .notFetched ∧ after = .inflight) ∨
    (before = .inflight ∧ (after = .fetched ∨ after = .failed))

theorem StatusStep.started {before after : StripeStatus} (step : StatusStep before after)
    (h : before ≠ .notFetched) : after ≠ .notFetched := by
  cases before <;> cases after <;> simp_all [StatusStep]

theorem StatusStep.final {before after : StripeStatus} (step : StatusStep before after)
    (h : before = .fetched ∨ before = .failed) : after = before := by
  cases before <;> cases after <;> simp_all [StatusStep]

theorem Finished.statusStep {c : ChId} {k : Nat} {p : SlotOp} {r : StripeStatus}
    (inv : FetchesPlaced dev s) (finished : Finished s t c k p r)
    (final : r = .fetched ∨ r = .failed) (x : Nat) :
    StatusStep (s.stripeStatus x) (t.stripeStatus x) := by
  rw [finished.status]
  by_cases same : x = (s.slot c k).stripeIdx
  · subst same
    rw [Function.update_self]
    exact .inr (.inr ⟨inv.inflight_of_active finished.busy, final⟩)
  · exact .inl (Function.update_of_ne same _ _)

theorem Enqueues.statusStep {c : ChId} {y : Nat} (cause : Enqueues dev s l c y)
    (entered : Entered s t c y) (x : Nat) : StatusStep (s.stripeStatus x) (t.stripeStatus x) := by
  obtain ⟨_, _, _, _, _, _, _, _, gate⟩ := cause
  rw [entered.status]
  by_cases same : x = y
  · subst same
    rw [Function.update_self]
    exact .inr (.inl ⟨gate, rfl⟩)
  · exact .inl (Function.update_of_ne same _ _)

theorem statusStep_effect (inv : FetchesPlaced dev s) (effect : FetchEffect dev s l t) (x : Nat) :
    StatusStep (s.stripeStatus x) (t.stripeStatus x) := by
  cases effect with
  | stay record slots places trail => exact .inl (by rw [record.status])
  | enqueue c y cause entered places => exact cause.statusStep entered x
  | overflow c y cause entered full places => exact cause.statusStep entered x
  | start c k y record active stripe source free places ops trail =>
      exact .inl (by rw [record.status])
  | writing c k o sqe res record active stripe entry tag good source places ops trail =>
      exact .inl (by rw [record.status])
  | readFailed c k sqe res metadata fetched entry tag bad finished trail =>
      exact finished.statusStep inv (.inr rfl) x
  | writeRefused c k sqe res metadata fetched entry tag good finished trail =>
      exact finished.statusStep inv (.inr rfl) x
  | written c k o success metadata fetched finished trail =>
      exact finished.statusStep inv (.inl rfl) x

theorem statusStep_act (inv : FetchesPlaced dev s) (issued : FetchesIssued t.log)
    (act : Act dev s l t) (x : Nat) : StatusStep (s.stripeStatus x) (t.stripeStatus x) :=
  statusStep_effect inv
    (act_fetchEffect inv.fresh inv.bounded (fun _ _ _ => inv.active_of_op) issued act) x

def Request.gate (dev : UbiBdev) (s : State) (r : Request) : Option StripeStatus :=
  ubiGetStripeStatus s (toCInt (r.startStripe dev))

theorem gate_step (steps : ∀ x, StatusStep (s.stripeStatus x) (t.stripeStatus x)) {r : Request}
    {status : StripeStatus} (gate : r.gate dev s = some status) :
    ∃ status', r.gate dev t = some status' ∧ StatusStep status status' := by
  obtain ⟨x, index, bound, rfl⟩ := ubiGetStripeStatus_eq_some.mp gate
  exact ⟨_, ubiGetStripeStatus_eq_some.mpr ⟨x, index, bound, rfl⟩, steps x⟩

/-- What the gates of `ubi_submit_request` and `ubi_io_poll` achieve: a listed
request that needs its stripe has had it enqueued, and a WRITE to an image block is
with the base bdev only while its stripe is fetched. -/
structure Gated (dev : UbiBdev) (s : State) : Prop where
  supported : ∀ id r, s.request id = some r → ubiIoTypeSupported r.type = true
  listed : ∀ c id r, id ∈ (s.channel c).io → s.request id = some r → r.fetches dev →
    r.offsetBlocks < dev.imageBlockCount →
    ∃ status, r.gate dev s = some status ∧ status ≠ .notFetched
  writes : ∀ o op id r, s.writes o = some op → op.cb = .io id → s.request id = some r →
    r.offsetBlocks < dev.imageBlockCount → r.gate dev s = some .fetched
  noBug : ∀ id, .bug id ∉ s.log

theorem request_act (act : Act dev s l t) {id : ReqId} {r : Request} (h : t.request id = some r) :
    s.request id = some r ∨ (s.request id = none ∧ ubiIoTypeSupported r.type = true ∧
      r.offsetBlocks + r.numBlocks ≤ dev.ubiBlockcnt) := by
  cases act <;> first | exact .inl h | grind -linarith

theorem listed_act (act : Act dev s l t) {c : ChId} {id : ReqId} (h : id ∈ (t.channel c).io) :
    id ∈ (s.channel c).io ∨ ∃ r, t.request id = some r ∧
      (r.fetches dev → r.offsetBlocks < dev.imageBlockCount →
        ∃ status, r.gate dev t = some status ∧ status ≠ .notFetched) := by
  cases act
  case submitFetching d j r x new type range fetch within image index bound gate =>
    by_cases here : c = d ∧ id = j
    · obtain ⟨rfl, rfl⟩ := here
      refine .inr ⟨r, by simp, fun _ _ => ⟨.inflight, ?_, by decide⟩⟩
      exact ubiGetStripeStatus_eq_some.mpr ⟨x, index, bound, by simp⟩
    · exact .inl (by grind -linarith)
  case submitQueued d j r new type range within gate =>
    by_cases here : c = d ∧ id = j
    · obtain ⟨rfl, rfl⟩ := here
      exact .inr ⟨r, by simp, gate⟩
    · exact .inl (by grind -linarith)
  all_goals first
    | exact .inl h
    | exact .inl (by grind -linarith)

theorem ioWrite_act (act : Act dev s l t) {o : Nat} {op : BaseWrite} {id : ReqId}
    (write : t.writes o = some op) (cb : op.cb = .io id) :
    (∃ op', s.writes o = some op' ∧ op'.cb = .io id) ∨
      ∃ r, s.request id = some r ∧ r.type = .write ∧ Served dev s r := by
  cases act <;> first
    | exact .inl ⟨op, write, cb⟩
    | grind -linarith

theorem gated_act (placed : FetchesPlaced dev s) (requests : RequestsPlaced s) (inv : Gated dev s)
    (issued : FetchesIssued t.log) (act : Act dev s l t) : Gated dev t := by
  have steps := statusStep_act placed issued act
  have fetched {r : Request} (h : r.gate dev s = some .fetched) : r.gate dev t = some .fetched := by
    obtain ⟨status, gate, move⟩ := gate_step steps h
    rwa [move.final (.inl rfl)] at gate
  constructor
  · intro id r known
    rcases request_act act known with old | new
    · exact inv.supported id r old
    · exact new.2.1
  · intro c id r listed known fetch image
    rcases listed_act act listed with old | ⟨r', known', gate⟩
    · obtain ⟨r', known', _⟩ := requests.suits_of_occurs (p := .listed c)
        (List.count_pos_iff.mpr old).ne'
      obtain rfl : r' = r := Option.some.inj ((act_request act known').symm.trans known)
      obtain ⟨status, before, some⟩ := inv.listed c id r' old known' fetch image
      obtain ⟨status', after, move⟩ := gate_step steps before
      exact ⟨status', after, move.started some⟩
    · obtain rfl : r' = r := Option.some.inj (known'.symm.trans known)
      exact gate fetch image
  · intro o op id r write cb known image
    rcases ioWrite_act act write cb with ⟨op', write', cb'⟩ | ⟨r', known', type, served⟩
    · have occurs : s.occurrences id (.baseWrite o) ≠ 0 := by
        simp [State.occurrences, write', cb']
      obtain ⟨r', known', _⟩ := requests.suits_of_occurs occurs
      obtain rfl : r' = r := Option.some.inj ((act_request act known').symm.trans known)
      exact fetched (inv.writes o op' id r' write' cb' known' image)
    · obtain rfl : r' = r := Option.some.inj ((act_request act known').symm.trans known)
      rcases served image with gate | ⟨_, read, _⟩
      · exact fetched gate
      · simp [type] at read
  · intro id bug
    have before := inv.noBug id
    cases act
    case bugTaken c id' rest r first req data image gate fetch =>
      obtain ⟨status, found, other⟩ := inv.listed c id' r (by simp [first]) req (by
        have := inv.supported id' r req
        cases h : r.type <;> simp_all [Request.fetches, ubiIoTypeSupported]) image
      rw [Request.gate, gate] at found
      exact other (Option.some.inj found).symm
    all_goals simp_all

theorem gated_newState (dev : UbiBdev) (base : Bytes) (table : StripeTable) :
    Gated dev (newState base table) := by
  constructor <;> simp [newState, newChannel]

/-- Everything a run without failed fetch submissions keeps about stripes. -/
structure Lifecycle (dev : UbiBdev) (init : Nat → StripeStatus) (s : State) : Prop where
  placed : FetchesPlaced dev s
  requests : RequestsPlaced s
  stages : ∀ x, Stage init s x
  gated : Gated dev s

theorem lifecycle_act (settled : ∀ x, init x = .notFetched ∨ init x = .fetched)
    (inv : Lifecycle dev init s) (issued : FetchesIssued t.log) (act : Act dev s l t) :
    Lifecycle dev init t := by
  have effect := act_fetchEffect inv.placed.fresh inv.placed.bounded
    (fun _ _ _ => inv.placed.active_of_op) issued act
  exact ⟨fetchesPlaced_act inv.placed issued act, requestsPlaced_act inv.requests act,
    fun x => stage_effect settled inv.placed (inv.stages x) effect,
    gated_act inv.placed inv.requests inv.gated issued act⟩

theorem created_settled {base : Bytes} (created : Created dev base s) (x : Nat) :
    s.stripeStatus x = .notFetched ∨ s.stripeStatus x = .fetched := by
  obtain ⟨table, decoded, rfl⟩ := created
  exact (ubiFinishReadMetadata_status decoded x).imp id And.right

theorem lifecycle_created {base : Bytes} (created : Created dev base s) :
    Lifecycle dev s.stripeStatus s := by
  obtain ⟨table, decoded, rfl⟩ := created
  exact ⟨fetchesPlaced_newState dev base table, requestsPlaced_newState base table,
    fun x => .untouched rfl rfl, gated_newState dev base table⟩

theorem lifecycle_reach {base : Bytes} {s₀ : State} {allowed : State → Event → Prop}
    (created : Created dev base s₀) (run : Reach dev allowed s₀ s)
    (issued : FetchesIssued s.log) : Lifecycle dev s₀.stripeStatus s :=
  reach_invariant_log fetchesIssued_earlier
    (lifecycle_act (created_settled created)) run (lifecycle_created created) issued

/-- The status history of a stripe is one life: nothing, or in flight, or in flight and
then a final status, from an unfetched start. -/
def OneLife (start now : StripeStatus) (statuses : List StripeStatus) : Prop :=
  (statuses = [] ∧ now = start) ∨
    (start = .notFetched ∧ statuses = [.inflight] ∧ now = .inflight) ∨
    (start = .notFetched ∧ statuses = [now, .inflight] ∧ (now = .fetched ∨ now = .failed))

/-- A WRITE to the first stripe and the fetch it causes, up to the given result of
the image read and outcome of the base write. -/
def fetchFirst (res : Int) (success : Bool) : List Event :=
  [.submit 0 0 ⟨.write, 0, 1, fun _ => 5⟩, .poll 0 .success, .uring 0 0 res, .poll 0 .success,
    .sample 0 [128], .land 0 [128], .writeDone 0 success 0]

/-- Completions find their slot as it was when their entry was prepared, and slots
are given to a stripe only when no entry points at them. -/
structure CompletionsMatch (dev : UbiBdev) (log : List Obs) : Prop where
  cqe : ∀ c k sqe active x res, .fetchCqe c k sqe active x res ∈ log →
    active = true ∧ sqe = stripeSqe dev k x
  assigned : ∀ c k x busy, .assigned c k x busy ∈ log → busy = false

theorem FetchesPlaced.slotBusy_of_idle (inv : FetchesPlaced dev s) {c : ChId} {k : Nat}
    (idle : (s.slot c k).active = false) : slotBusy s c k = false := by
  unfold slotBusy
  rw [List.any_eq_false]
  intro sqe entry tag
  have := inv.active_of_entry entry (by simpa using tag)
  simp [idle] at this

theorem completionsMatch_act (inv : FetchesPlaced dev s) (before : CompletionsMatch dev s.log)
    (act : Act dev s l t) : CompletionsMatch dev t.log := by
  have matched {c : ChId} {k : Nat} {sqe : Sqe} {res : Int} {rest : List Cqe}
      (first : (s.channel c).cqes = ⟨sqe, res⟩ :: rest) (tag : sqe.userData = .stripeFetch k) :
      (s.slot c k).active = true ∧ sqe = stripeSqe dev k (s.slot c k).stripeIdx := by
    have entry : sqe ∈ s.ringEntries c := by simp [State.ringEntries, first]
    exact ⟨inv.active_of_entry entry tag, inv.entries c sqe k entry tag⟩
  have idle := @inv.slotBusy_of_idle
  obtain ⟨cqe, assigned⟩ := before
  constructor
  · intro c k sqe active x res logged
    cases act <;> first
      | exact cqe c k sqe active x res logged
      | grind -linarith
  · intro c k x busy logged
    cases act <;> first
      | exact assigned c k x busy logged
      | grind -linarith

theorem setStatus_mem_tally {x : Nat} {r : StripeStatus} {log : List Obs}
    (set : .setStatus x r ∈ log) : r ∈ (tally x log).statuses := by
  induction log with
  | nil => cases set
  | cons o past ih =>
      rcases List.mem_cons.mp set with rfl | older
      · simp [tally, Tally.record]
      · have := ih older
        cases o <;> grind -linarith [tally, Tally.record]

/-- No base write of a stripe is tried after its fetch has failed. -/
def FailedUnwritten (s : State) : Prop :=
  ∀ x ok, ¬ History.Before (.setStatus x .failed) (.stripeWrite x ok) s.trail

theorem failedUnwritten_effect (settled : ∀ x, init x = .notFetched ∨ init x = .fetched)
    (inv : Lifecycle dev init s) (before : FailedUnwritten s) (effect : FetchEffect dev s l t) :
    FailedUnwritten t := by
  -- the slot of a read that completes holds a stripe whose only status so far is in flight
  have unfailed {c : ChId} {k : Nat} (op : s.slotOps (c, k) .ring ≠ 0) :
      .setStatus (s.slot c k).stripeIdx .failed ∉ s.trail := by
    intro failed
    have counted := ((inv.stages _).of_slotOp settled inv.placed op).2.1 rfl
    simpa [counted] using setStatus_mem_tally failed
  intro x ok order
  cases effect with
  | stay _ _ _ trail => exact before x ok (trail ▸ order)
  | enqueue _ _ _ entered | overflow _ _ _ entered =>
      exact before x ok (by simpa [entered.trail] using order)
  | start _ _ _ _ _ _ _ _ _ _ trail => exact before x ok (by simpa [trail] using order)
  | writing _ _ _ _ _ _ _ _ _ _ _ source _ _ trail =>
      simp only [trail, History.before_cons, Obs.stripeWrite.injEq, reduceCtorEq, false_and,
        false_or, List.mem_cons] at order
      rcases order with ⟨⟨rfl, _⟩, failed⟩ | older
      · exact unfailed source failed
      · exact before x ok older
  | readFailed _ _ _ _ _ _ _ _ _ _ trail => exact before x ok (by simpa [trail] using order)
  | writeRefused _ _ _ _ _ _ _ _ _ finished trail =>
      simp only [trail, History.before_cons, Obs.stripeWrite.injEq, reduceCtorEq, false_and,
        false_or, List.mem_cons] at order
      rcases order with ⟨⟨rfl, _⟩, failed⟩ | older
      · exact unfailed finished.owner failed
      · exact before x ok older
  | written _ _ _ _ _ _ _ trail => exact before x ok (by simpa [trail] using order)

theorem failedUnwritten_reach {base : Bytes} {s₀ : State} (created : Created dev base s₀)
    (run : Reach dev anyStep s₀ s) (issued : FetchesIssued s.log) : FailedUnwritten s := by
  have settled := created_settled created
  have start : FailedUnwritten s₀ := by
    obtain ⟨table, _, rfl⟩ := created
    exact fun _ _ order => order
  exact (reach_invariant_log
    (P := fun s => Lifecycle dev s₀.stripeStatus s ∧ FailedUnwritten s) fetchesIssued_earlier
    (fun before met act => ⟨lifecycle_act settled before.1 met act,
      failedUnwritten_effect settled before.1 before.2
        (act_fetchEffect before.1.placed.fresh before.1.placed.bounded
          (fun _ _ _ => before.1.placed.active_of_op) met act)⟩) run
    ⟨lifecycle_created created, start⟩ issued).2

theorem completion_matches_fetch {base : Bytes} {s₀ : State} (created : Created dev base s₀)
    (run : Reach dev anyStep s₀ s) (issued : FetchesIssued s.log) :
    CompletionsMatch dev s.log ∧
      (∀ c k x ok, ¬ History.Before (.fetchSubmit c k x false) (.stripeWrite x ok) s.log) ∧
      ∀ x ok, ¬ History.Before (.setStatus x .failed) (.stripeWrite x ok) s.log := by
  have unwritten := failedUnwritten_reach created run issued
  refine ⟨?_, fun c k x ok order => issued c k x order.mem_left, fun x ok order =>
    unwritten x ok ((History.before_filter rfl rfl).mpr order)⟩
  obtain ⟨table, decoded, rfl⟩ := created
  exact (reach_invariant_log (P := fun s => FetchesPlaced dev s ∧ CompletionsMatch dev s.log)
    fetchesIssued_earlier (fun before met act =>
      ⟨fetchesPlaced_act before.1 met act, completionsMatch_act before.1 before.2 act⟩) run
    ⟨fetchesPlaced_newState dev base table, ⟨by simp [newState], by simp [newState]⟩⟩ issued).2

theorem completion_matches_fetch_fetchFirst :
    ∃ s, Reach (threeBlockBdev false) anyStep (blankState (threeBlockBdev false)) s ∧
      .fetchCqe 0 0 (stripeSqe (threeBlockBdev false) 0 0) true 0 65536 ∈ s.log ∧
      CompletionsMatch (threeBlockBdev false) s.log := by
  have ran : (Runs.exec (step (threeBlockBdev false)) (fun _ _ => true)
      (blankState (threeBlockBdev false)) (fetchFirst 65536 true)).any (fun s =>
        decide (FetchesIssued s.log) &&
          decide (.fetchCqe 0 0 (stripeSqe (threeBlockBdev false) 0 0) true 0 65536 ∈ s.log)) =
      true := by decide +kernel
  obtain ⟨s, run, test⟩ := Runs.exists_reach_of_exec (fun _ _ _ _ => trivial) ran
  simp only [Bool.and_eq_true, decide_eq_true_eq] at test
  exact ⟨s, run, test.2, (completion_matches_fetch (created_blankState _) run test.1).1⟩

/-- A failed `io_uring_submit` frees the slot of stripe 0 while its entry stays in the
ring. The slot goes to stripe 1, and the entry of stripe 0 completes there. -/
theorem failed_submit_mixes_stripes :
    ∃ s, Reach (threeBlockBdev false) anyStep (blankState (threeBlockBdev false)) s ∧
      .assigned 0 0 1 true ∈ s.log ∧
      .fetchCqe 0 0 (stripeSqe (threeBlockBdev false) 0 0) true 1 65536 ∈ s.log ∧
      ¬ CompletionsMatch (threeBlockBdev false) s.log := by
  have ran : (Runs.exec (step (threeBlockBdev false)) (fun _ _ => true)
      (blankState (threeBlockBdev false))
      [.submit 0 0 ⟨.write, 0, 1, fun _ => 5⟩,
        .poll 0 { PollEnv.success with fetchSubmitRet := fun _ => -11 },
        .submit 0 1 ⟨.write, 1, 1, fun _ => 5⟩, .poll 0 .success, .uring 0 0 65536,
        .poll 0 .success]).any (fun s => decide (.assigned 0 0 1 true ∈ s.log) &&
          decide (.fetchCqe 0 0 (stripeSqe (threeBlockBdev false) 0 0) true 1 65536 ∈ s.log)) =
      true := by decide +kernel
  obtain ⟨s, run, test⟩ := Runs.exists_reach_of_exec (fun _ _ _ _ => trivial) ran
  simp only [Bool.and_eq_true, decide_eq_true_eq] at test
  exact ⟨s, run, test.1, test.2, fun matched => by cases matched.assigned 0 0 1 true test.1⟩

end BdevUbi
