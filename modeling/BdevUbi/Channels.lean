import BdevUbi.Creation
import BdevUbi.Quiescence
import BdevUbi.PreparedEntries

/-!
Channels that come and go. `ubi_create_channel_cb` takes a poller, a channel of the base bdev,
a descriptor of the image and a ring, in this order, and gives back what it has taken when the
next step fails; `ubi_destroy_channel_cb` gives back all four. The callbacks of outstanding
operations point into the memory of a channel, and nothing in the module waits for them when
it is freed. That they have all come by then, and that a run with channels that come and go
is a run of the system, is shown here.
-/

namespace BdevUbi
open Function (update)

/-- What a channel holds of the layers below. `imageFileFd` tells, once the image is open,
whether it was opened with `O_DIRECT`. -/
structure ChannelHandles where
  poller : Bool
  baseChannel : Bool
  imageFileFd : Option Bool
  imageFileRing : Bool
  deriving DecidableEq

namespace ChannelHandles

def none : ChannelHandles := ⟨false, false, Option.none, false⟩

def all (directio : Bool) : ChannelHandles := ⟨true, true, some directio, true⟩

def unregisterPoller (held : ChannelHandles) : Except Halt ChannelHandles :=
  if held.poller then .ok { held with poller := false } else .error .undefinedBehaviour

def putBaseChannel (held : ChannelHandles) : Except Halt ChannelHandles :=
  if held.baseChannel then .ok { held with baseChannel := false } else .error .undefinedBehaviour

def closeImage (held : ChannelHandles) : Except Halt ChannelHandles :=
  if held.imageFileFd.isSome then .ok { held with imageFileFd := Option.none }
  else .error .undefinedBehaviour

def exitRing (held : ChannelHandles) : Except Halt ChannelHandles :=
  if held.imageFileRing then .ok { held with imageFileRing := false }
  else .error .undefinedBehaviour

end ChannelHandles

/-- What the lower layers answer during `ubi_create_channel_cb`. -/
structure ChannelEnv where
  poller : Bool
  baseChannel : Bool
  openRet : Int
  ringRet : Int

def resetFetches (ch : UbiIoChannel) : UbiIoChannel :=
  { ch with
    stripeFetchQueue := { ch.stripeFetchQueue with head := 0, tail := 0 }
    stripeFetches := fun i => if i < ubiMaxActiveStripeFetches then
      { ch.stripeFetches i with active := false } else ch.stripeFetches i }

/-- `ch` is the memory of the channel, of which `active_reads` and `has_reads` are not set. -/
def ubiCreateChannelCb (directio : Bool) (ch : UbiIoChannel) (env : ChannelEnv) :
    Except Halt (Int × ChannelHandles × UbiIoChannel) :=
  let ch := { ch with io := [] }
  let held := ChannelHandles.none
  if !env.poller then .ok (ENOMEM, held, ch)
  else
    let held := { held with poller := true }
    if !env.baseChannel then do
      let held ← held.unregisterPoller
      return (ENOMEM, held, ch)
    else
      let held := { held with baseChannel := true }
      let ch := resetFetches ch
      if env.openRet < 0 then do
        let held ← held.unregisterPoller
        let held ← held.putBaseChannel
        return (EINVAL, held, ch)
      else
        let held := { held with imageFileFd := some directio }
        if env.ringRet ≠ 0 then do
          let held ← held.unregisterPoller
          let held ← held.putBaseChannel
          let held ← held.closeImage
          return (EINVAL, held, ch)
        else
          .ok (0, { held with imageFileRing := true },
            { ch with sqes := [], submitted := [], cqes := [] })

/-- The handles in `ubi_destroy_channel_cb`. An error of `close` is only logged. -/
def destroyHandles (held : ChannelHandles) : Except Halt ChannelHandles := do
  let held ← held.unregisterPoller
  let held ← held.closeImage
  let held ← held.exitRing
  held.putBaseChannel

/-- The channels into whose memory the callbacks of an event point. -/
def Event.uses (s : State) : Event → List ChId
  | .submit c _ _ | .uring c _ _ => [c]
  | .poll c _ => c :: (s.ringEntries c).filterMap fun sqe => match sqe.userData with
    | .bdevIo id => some (s.bdevIo id).ubiCh
    | .stripeFetch _ => none
  | .getBuf id _ _ => [(s.bdevIo id).ubiCh]
  | .transfer _ _ | .land _ _ => []
  | .sample o _ => match (s.writes o).map BaseWrite.cb with
    | some (.stripe c _) => [c]
    | _ => []
  | .readDone o _ => ((s.reads o).map fun op => (s.bdevIo op.req).ubiCh).toList
  | .writeDone o _ _ => match (s.writes o).map BaseWrite.cb with
    | some (.stripe c _) => [c]
    | some (.io id) | some (.metadata id) => [(s.bdevIo id).ubiCh]
    | none => []
  | .flushDone o _ _ => match (s.flushes o).map BaseFlush.cb with
    | some (.data id) | some (.metadata id) => [(s.bdevIo id).ubiCh]
    | none => []

/-- A ubi bdev with its channels. A channel is known by its memory, which is not used again:
`used` tells for which the creation has been called. -/
structure Channels where
  state : State
  handles : ChId → ChannelHandles
  used : ChId → Bool
  live : ChId → Bool

inductive ChannelEvent where
  | create (c : ChId) (env : ChannelEnv)
  | destroy (c : ChId)
  | io (e : Event)

/-- SPDK allocates the memory of a channel with `calloc` and frees it when the creation fails
and after the destruction. -/
def channelStep (dev : UbiBdev) (directio : Bool) (a : Channels) :
    ChannelEvent → Except Halt Channels
  | .create c env =>
    if a.used c then .error .disabled
    else do
      let (rc, held, ch) ← ubiCreateChannelCb directio newChannel env
      return { state := if rc = 0 then a.state.setChannel c ch else a.state
               handles := update a.handles c held
               used := update a.used c true
               live := update a.live c (rc == 0) }
  | .destroy c =>
    if a.live c then do
      let held ← destroyHandles (a.handles c)
      return { a with
        state := ubiDestroyChannelCb a.state c
        handles := update a.handles c held
        live := update a.live c false }
    else .error .disabled
  | .io e => do
    let next ← step dev a.state e
    if (e.uses a.state).all a.live then return { a with state := next }
    else .error .undefinedBehaviour

/-- What SPDK promises: it destroys a channel when all of its requests have been completed, and
submits requests on channels that exist and polls no others. -/
def ChannelRules (a : Channels) : ChannelEvent → Prop
  | .create _ _ => True
  | .destroy c => NoneOutstanding a.state c
  | .io (.submit c _ _) | .io (.poll c _) => a.live c = true
  | .io _ => True

/-- No channel has been created yet. -/
def unattached (s : State) : Channels := ⟨s, fun _ => .none, fun _ => false, fun _ => false⟩

variable {dev : UbiBdev} {directio : Bool} {s s₀ t : State} {l : Label} {a b : Channels} {c : ChId}

/-- Zeroed memory is set up as the system starts its channels, with all four handles, or the
creation fails and holds none. -/
theorem ubiCreateChannelCb_outcome (directio : Bool) (env : ChannelEnv) :
    ubiCreateChannelCb directio newChannel env = .ok (0, .all directio, newChannel) ∨
      ∃ rc, rc ≠ 0 ∧ ubiCreateChannelCb directio newChannel env = .ok (rc, .none, newChannel) := by
  have reset : resetFetches newChannel = newChannel := by
    simp [resetFetches, newChannel]
  have same : { newChannel with io := [] } = newChannel := rfl
  unfold ubiCreateChannelCb
  simp only [same, reset]
  split
  · exact .inr ⟨ENOMEM, by decide, rfl⟩
  split
  · exact .inr ⟨ENOMEM, by decide, rfl⟩
  split
  · exact .inr ⟨EINVAL, by decide, rfl⟩
  split
  · exact .inr ⟨EINVAL, by decide, rfl⟩
  · exact .inl rfl

theorem destroyHandles_all (directio : Bool) : destroyHandles (.all directio) = .ok .none := rfl

section Untouched

theorem released_other {id : ReqId} (other : (s.bdevIo id).ubiCh ≠ c) :
    s.released id c = s.channel c := by
  unfold State.released
  cases s.request id with
  | none => rfl
  | some r => by_cases read : r.type = .read <;> simp [read, Ne.symm other]

structure Untouched (s : State) (c : ChId) : Prop where
  channel : s.channel c = newChannel
  writes : ∀ o op k, s.writes o = some op → op.cb ≠ .stripe c k
  callbacks : ∀ id, CallbackDue s id → (s.bdevIo id).ubiCh ≠ c

def Elsewhere (c : ChId) (_ : State) (l : Label) : Prop := ∀ id r, l ≠ .submit c id r

theorem elsewhere_quiet (s : State) : Elsewhere c s .quiet := fun _ _ => nofun

theorem untouched_act (inv : Untouched s c) (routed : RingRouted s)
    (elsewhere : Elsewhere c s l) (act : Act dev s l t) : Untouched t c := by
  have io : (s.channel c).io = [] := by rw [inv.channel]; rfl
  have cqes : (s.channel c).cqes = [] := by rw [inv.channel]; rfl
  have submitted : (s.channel c).submitted = [] := by rw [inv.channel]; rfl
  have empty : (s.queue c).head = (s.queue c).tail := by rw [State.queue, inv.channel]; rfl
  have hasReads : (s.channel c).hasReads = 0 := by rw [inv.channel]; rfl
  refine ⟨?_, ?_, fun id due => ?_⟩
  · have due := inv.callbacks
    unfold CallbackDue at due
    unfold Elsewhere at elsewhere
    have ring (d : ChId) (sqe : Sqe) (id : ReqId) (res : Int) (rest : List Cqe)
        (first : (s.channel d).cqes = ⟨sqe, res⟩ :: rest) (tag : sqe.userData = .bdevIo id) :
        (s.bdevIo id).ubiCh = d :=
      routed d sqe id (State.mem_ringEntries_of_cqe (by rw [first]; exact List.mem_cons_self)) tag
    have := inv.channel
    have := inv.writes
    clear routed inv
    cases act <;> grind -linarith [released_other]
  · have := inv.writes
    clear routed inv
    cases act <;> grind -linarith
  · rcases callbackDue_origin act due with ⟨old, same⟩ | left
    · rw [same]
      exact inv.callbacks id old
    · rintro rfl
      rw [io] at left
      cases left

theorem untouched_step {e : Event} (inv : Untouched s c) (entries : EntriesCounted s)
    (elsewhere : Elsewhere c s e.label) (moves : step dev s e = .ok t) : Untouched t c :=
  (step_invariant (P := fun s => EntriesCounted s ∧ Untouched s c)
    (fun before elsewhere act => ⟨entriesCounted_act before.1 act,
      untouched_act before.2 before.1.routed elsewhere act⟩)
    elsewhere_quiet elsewhere moves ⟨entries, inv⟩).2

theorem noneOutstanding_act (inv : NoneOutstanding s c) (elsewhere : Elsewhere c s l)
    (act : Act dev s l t) : NoneOutstanding t c := by
  intro id queued
  have old : Obs.queued c id ∈ s.log := by
    unfold Elsewhere at elsewhere
    clear inv
    cases act <;> grind -linarith
  obtain ⟨ok, done⟩ := inv id old
  exact ⟨ok, (act_log act).subset done⟩

theorem noneOutstanding_step {e : Event} (inv : NoneOutstanding s c)
    (elsewhere : Elsewhere c s e.label) (moves : step dev s e = .ok t) : NoneOutstanding t c :=
  step_invariant (P := fun s => NoneOutstanding s c) noneOutstanding_act elsewhere_quiet elsewhere
    moves inv

end Untouched

/-- The system runs as if all channels had always been there; those that are not live have
nothing outstanding and hold nothing. -/
structure Attached (dev : UbiBdev) (directio : Bool) (s₀ : State) (a : Channels) : Prop where
  run : Reach dev anyStep s₀ a.state
  untouched : ∀ c, a.used c = false → a.live c = false ∧ Untouched a.state c
  idle : ∀ c, a.live c = false → NoneOutstanding a.state c
  handles : ∀ c, a.handles c = if a.live c then .all directio else .none

theorem attached_unattached {base : Bytes} (created : Created dev base s₀) :
    Attached dev directio s₀ (unattached s₀) := by
  obtain ⟨table, _, rfl⟩ := created
  refine ⟨.refl, fun c _ => ⟨rfl, rfl, ?_, ?_⟩, fun c _ id queued => ?_, fun _ => rfl⟩
  · simp [unattached, newState]
  · simp [unattached, newState, CallbackDue]
  · simp [unattached, newState] at queued

section Attached

variable {base : Bytes} (created : Created dev base s₀) (inv : Attached dev directio s₀ a)

include inv

theorem Attached.create {env : ChannelEnv}
    (moves : channelStep dev directio a (.create c env) = .ok b) : Attached dev directio s₀ b := by
  rw [channelStep] at moves
  split at moves
  · cases moves
  next new =>
  obtain ⟨dead, fresh⟩ := inv.untouched c (by simpa using new)
  have same : a.state.setChannel c newChannel = a.state := by
    rw [State.setChannel, ← fresh.channel, Function.update_eq_self]
  -- the state stays as it is, whether the creation fails or not
  have attached (live : Bool) : Attached dev directio s₀ ⟨a.state,
      update a.handles c (if live then .all directio else .none), update a.used c true,
      update a.live c live⟩ := by
    refine ⟨inv.run, fun d unused => ?_, fun d gone => ?_, fun d => ?_⟩
    · have other : d ≠ c := by rintro rfl; simp at unused
      simpa [other] using inv.untouched d (by simpa [other] using unused)
    · by_cases other : d = c
      · exact other ▸ inv.idle c dead
      · exact inv.idle d (by simpa [other] using gone)
    · by_cases other : d = c
      · simp [other]
      · simpa [other] using inv.handles d
  rcases ubiCreateChannelCb_outcome directio env with ok | ⟨rc, bad, failed⟩
  · rw [ok] at moves
    cases moves
    simpa [same] using attached true
  · rw [failed] at moves
    cases moves
    simpa [bad, beq_false_of_ne bad] using attached false

include created

theorem Attached.quiescent (issued : FetchesIssued a.state.log) (gone : NoneOutstanding a.state c) :
    Quiescent dev a.state c :=
  quiescent_of_idle (fetchesAwaited_reach created inv.run issued)
    (requestsPlaced_reach created inv.run) (channelsKnown_reach created inv.run) gone

theorem Attached.entries : EntriesCounted a.state :=
  entriesCounted_passes created (reach_passes inv.run)

theorem Attached.destroy (issued : FetchesIssued a.state.log) (gone : NoneOutstanding a.state c)
    (moves : channelStep dev directio a (.destroy c) = .ok b) : Attached dev directio s₀ b := by
  rw [channelStep] at moves
  split at moves
  · next live =>
    rw [inv.handles, if_pos live, destroyHandles_all,
      (inv.quiescent created issued gone).destroyed] at moves
    cases moves
    refine ⟨inv.run, fun d unused => ?_, fun d idle => ?_, fun d => ?_⟩
    · obtain ⟨dead, fresh⟩ := inv.untouched d unused
      have other : d ≠ c := by rintro rfl; simp [live] at dead
      exact ⟨by simpa [other] using dead, fresh⟩
    · by_cases other : d = c
      · exact other ▸ gone
      · exact inv.idle d (by simpa [other] using idle)
    · by_cases other : d = c
      · simp [other]
      · simpa [other] using inv.handles d
  · cases moves

theorem Attached.io {e : Event} (rule : ChannelRules a (.io e))
    (moves : step dev a.state e = .ok t) : Attached dev directio s₀ { a with state := t } := by
  have elsewhere {c : ChId} (dead : a.live c = false) : Elsewhere c a.state e.label := by
    intro id r
    cases e with
    | submit d _ _ =>
        have live : a.live d = true := rule
        rintro ⟨⟩
        rw [live] at dead
        cases dead
    | _ => exact nofun
  refine ⟨inv.run.tail trivial moves, fun c unused => ?_, fun c dead => ?_, inv.handles⟩
  · obtain ⟨dead, fresh⟩ := inv.untouched c unused
    exact ⟨dead, untouched_step fresh (inv.entries created) (elsewhere dead) moves⟩
  · exact noneOutstanding_step (inv.idle c dead) (elsewhere dead) moves

/-- An event that can happen uses live channels only. -/
theorem Attached.uses_live {e : Event} (issued : FetchesIssued a.state.log)
    (rule : ChannelRules a (.io e)) (moves : step dev a.state e = .ok t) :
    ∀ c ∈ e.uses a.state, a.live c = true := by
  intro c used
  by_contra dead
  have quiet := inv.quiescent created issued (inv.idle c (by simpa using dead))
  cases e with
  | submit d _ _ =>
      obtain rfl : c = d := by simpa [Event.uses] using used
      exact dead rule
  | poll d _ =>
      have own : c = d := by
        simp only [Event.uses, List.mem_cons, List.mem_filterMap] at used
        rcases used with own | ⟨sqe, entry, points⟩
        · exact own
        cases tag : sqe.userData with
        | stripeFetch _ => rw [tag] at points; cases points
        | bdevIo id =>
            rw [tag] at points
            rw [← Option.some.inj points]
            exact (inv.entries created).routed d sqe id entry tag
      subst own
      exact dead rule
  | uring d i res =>
      obtain rfl : c = d := by simpa [Event.uses] using used
      have none : (a.state.channel c).submitted = [] := by
        have ring := quiet.ring
        simp only [State.ringEntries, List.append_eq_nil_iff] at ring
        exact ring.1.2
      simp [step, uringComplete, none] at moves
  | getBuf id _ _ =>
      obtain rfl : c = (a.state.bdevIo id).ubiCh := by simpa [Event.uses] using used
      have waits : a.state.waiting id = true := by
        by_contra idle
        simp [step, idle] at moves
      exact quiet.callbacks id (.inl waits) rfl
  | transfer _ _ | land _ _ => simp [Event.uses] at used
  | sample o _ =>
      cases write : a.state.writes o with
      | none => simp [Event.uses, write] at used
      | some op =>
          cases cb : op.cb with
          | stripe d k =>
              obtain rfl : c = d := by simpa [Event.uses, write, cb] using used
              exact quiet.writes o op k write cb
          | io _ | metadata _ => simp [Event.uses, write, cb] at used
  | readDone o _ =>
      cases read : a.state.reads o with
      | none => simp [Event.uses, read] at used
      | some op =>
          obtain rfl : c = (a.state.bdevIo op.req).ubiCh := by
            simpa [Event.uses, read] using used
          exact quiet.callbacks op.req (.inr (.inl ⟨o, op, read, rfl⟩)) rfl
  | writeDone o _ _ =>
      cases write : a.state.writes o with
      | none => simp [Event.uses, write] at used
      | some op =>
          cases cb : op.cb with
          | stripe d k =>
              obtain rfl : c = d := by simpa [Event.uses, write, cb] using used
              exact quiet.writes o op k write cb
          | io id | metadata id =>
              obtain rfl : c = (a.state.bdevIo id).ubiCh := by
                simpa [Event.uses, write, cb] using used
              exact quiet.callbacks id (.inr (.inr (.inl ⟨o, op, write, by simp [cb]⟩))) rfl
  | flushDone o _ _ =>
      cases flush : a.state.flushes o with
      | none => simp [Event.uses, flush] at used
      | some op =>
          cases cb : op.cb with
          | data id | metadata id =>
              obtain rfl : c = (a.state.bdevIo id).ubiCh := by
                simpa [Event.uses, flush, cb] using used
              exact quiet.callbacks id (.inr (.inr (.inr ⟨o, op, flush, by simp [cb]⟩))) rfl

end Attached

theorem step_log {e : Event} (moves : step dev s e = .ok t) : s.log <:+ t.log :=
  have run : Reach dev anyStep s t := .tail .refl trivial moves
  (reach_passes run).invariant (P := fun u => s.log <:+ u.log)
    (fun older act => older.trans (act_log act)) List.suffix_rfl

theorem channelStep_log {e : ChannelEvent} (moves : channelStep dev directio a e = .ok b) :
    a.state.log <:+ b.state.log := by
  cases e with
  | create c env =>
      rw [channelStep] at moves
      split at moves
      · cases moves
      rcases ubiCreateChannelCb_outcome directio env with ok | ⟨rc, bad, failed⟩
      · rw [ok] at moves
        cases moves
        exact List.suffix_rfl
      · rw [failed] at moves
        cases moves
        simp [bad]
  | destroy c =>
      rw [channelStep] at moves
      split at moves
      · cases released : destroyHandles (a.handles c) with
        | error _ => rw [released] at moves; cases moves
        | ok held =>
            rw [released] at moves
            cases moves
            exact List.suffix_rfl
      · cases moves
  | io e =>
      cases stepped : step dev a.state e with
      | error _ => rw [channelStep, stepped] at moves; cases moves
      | ok next =>
          rw [channelStep, stepped] at moves
          have grows : a.state.log <:+ next.log := step_log stepped
          dsimp only [bind, Except.bind] at moves
          split at moves
          · cases moves
            exact grows
          · cases moves

theorem attached_step {base : Bytes} {e : ChannelEvent} (created : Created dev base s₀)
    (inv : Attached dev directio s₀ a) (issued : FetchesIssued a.state.log)
    (rule : ChannelRules a e) (moves : channelStep dev directio a e = .ok b) :
    Attached dev directio s₀ b := by
  cases e with
  | create c env => exact inv.create moves
  | destroy c => exact inv.destroy created issued rule moves
  | io e =>
      cases stepped : step dev a.state e with
      | error _ => rw [channelStep, stepped] at moves; cases moves
      | ok next =>
          have live := List.all_eq_true.mpr (inv.uses_live created issued rule stepped)
          simp only [channelStep, stepped, bind, Except.bind, live, if_true] at moves
          cases moves
          exact inv.io created rule stepped

/-- A run with channels that come and go is a run of the system, in which every channel that is
live holds its four handles and no other holds any. Nothing is given back twice, and no callback
points into a channel that has been destroyed: what is undefined in such a run is undefined in
the system itself. -/
theorem channels_come_and_go {base : Bytes} (created : Created dev base s₀)
    (run : Runs.Reach (channelStep dev directio) ChannelRules (unattached s₀) a)
    (issued : FetchesIssued a.state.log) :
    Reach dev anyStep s₀ a.state ∧
      (∀ c, a.handles c = if a.live c then .all directio else .none) ∧
      ∀ e, ChannelRules a e → channelStep dev directio a e = .error .undefinedBehaviour →
        ∃ io, e = .io io ∧ step dev a.state io = .error .undefinedBehaviour := by
  have held : FetchesIssued a.state.log → Attached dev directio s₀ a :=
    run.invariant (P := fun a => FetchesIssued a.state.log → Attached dev directio s₀ a)
      (fun _ => attached_unattached created) fun _ before rule moves issued =>
        have earlier := fetchesIssued_earlier (channelStep_log moves) issued
        attached_step created (before earlier) earlier rule moves
  have inv := held issued
  refine ⟨inv.run, inv.handles, fun e rule stuck => ?_⟩
  cases e with
  | create c env =>
      rw [channelStep] at stuck
      split at stuck
      · cases stuck
      rcases ubiCreateChannelCb_outcome directio env with ok | ⟨rc, bad, failed⟩
      · rw [ok] at stuck
        cases stuck
      · rw [failed] at stuck
        cases stuck
  | destroy c =>
      rw [channelStep] at stuck
      split at stuck
      · next live =>
        rw [inv.handles, if_pos live, destroyHandles_all] at stuck
        cases stuck
      · cases stuck
  | io e =>
      refine ⟨e, rfl, ?_⟩
      cases stepped : step dev a.state e with
      | error stop =>
          rw [channelStep, stepped] at stuck
          cases stuck
          rfl
      | ok next =>
          have live := List.all_eq_true.mpr (inv.uses_live created issued rule stepped)
          simp [channelStep, stepped, bind, Except.bind, live] at stuck
          cases stuck

def noneOutstanding (s : State) (c : ChId) : Bool :=
  s.log.all fun o => match o with
    | .queued d id => d != c || s.log.contains (.completed id true) ||
        s.log.contains (.completed id false)
    | _ => true

def channelRules (a : Channels) : ChannelEvent → Bool
  | .create _ _ => true
  | .destroy c => noneOutstanding a.state c
  | .io (.submit c _ _) | .io (.poll c _) => a.live c
  | .io _ => true

theorem channelRules_sound {e : ChannelEvent} (ok : channelRules a e = true) :
    ChannelRules a e := by
  cases e with
  | create _ _ => trivial
  | destroy c =>
      intro id queued
      have done := List.all_eq_true.mp ok _ queued
      simp only [bne_self_eq_false, Bool.false_or, Bool.or_eq_true, List.contains_iff_mem] at done
      exact done.elim (⟨true, ·⟩) (⟨false, ·⟩)
  | io e =>
      cases e with
      | submit _ _ _ | poll _ _ => exact ok
      | _ => trivial

/-- A WRITE of an image block, with the fetch of its stripe, on a channel that is created and
destroyed around it; the creation of another channel fails when the ring is set up. -/
def writeThenDestroy : List ChannelEvent :=
  [.create 0 ⟨true, true, 3, 0⟩, .create 1 ⟨true, true, 4, -1⟩] ++
    (fetchFirst 65536 true).map .io ++
    [.io (.poll 0 .success), .io (.sample 1 [128]), .io (.land 1 [128]), .io (.writeDone 1 true 0),
      .destroy 0]

theorem channels_come_and_go_writeThenDestroy :
    ∃ a, Runs.Reach (channelStep (threeBlockBdev false) true) ChannelRules
        (unattached (blankState (threeBlockBdev false))) a ∧
      .completed 0 true ∈ a.state.log ∧ a.state.stripeStatus 0 = .fetched ∧ a.used 0 = true ∧
      Reach (threeBlockBdev false) anyStep (blankState (threeBlockBdev false)) a.state ∧
      a.handles 0 = .none ∧ a.handles 1 = .none := by
  have ran : (Runs.exec (channelStep (threeBlockBdev false) true) channelRules
      (unattached (blankState (threeBlockBdev false))) writeThenDestroy).any (fun a =>
        decide (.completed 0 true ∈ a.state.log ∧ a.state.stripeStatus 0 = .fetched ∧
          a.used 0 = true ∧ a.live 0 = false ∧ a.live 1 = false ∧ FetchesIssued a.state.log)) =
      true := by decide +kernel
  obtain ⟨a, run, test⟩ := Runs.exists_reach_of_exec (fun _ _ _ ok => channelRules_sound ok) ran
  obtain ⟨done, fetched, used, gone, failed, issued⟩ := of_decide_eq_true test
  obtain ⟨core, handles, _⟩ := channels_come_and_go (created_blankState _) run issued
  exact ⟨a, run, done, fetched, used, core, by rw [handles, gone]; rfl,
    by rw [handles, failed]; rfl⟩

end BdevUbi
