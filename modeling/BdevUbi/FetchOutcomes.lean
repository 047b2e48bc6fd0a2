import BdevUbi.MetadataEncoding
import BdevUbi.BaseFlushes

/-!
How a fetch ends, and what becomes of the requests that wait for it. The image read
and the base write of a stripe decide its final status, except that the code takes a
short read for a whole one and does not look at the outcome of the base write.
-/

namespace BdevUbi
open Placement

variable {dev : UbiBdev} {s₀ s t : State} {l : Label}

/-- The image read of a stripe returned all its image bytes, and its base write
completed with success. -/
def FetchedWhole (dev : UbiBdev) (log : List Obs) (x : Nat) : Prop :=
  ∃ res : Int, (tally x log).reads = [res] ∧ dev.stripeImageBytes x ≤ res ∧
    (tally x log).done = [true]

/-- The fetch of a stripe is over: its read failed, its write was refused, or its write
completed, in whatever way. -/
def FetchEnded (log : List Obs) (x : Nat) : Prop :=
  (∃ res ∈ (tally x log).reads, res < 0) ∨ false ∈ (tally x log).writes ∨ (tally x log).done ≠ []

/-- What the fetch of a stripe has made of it. -/
structure FetchOutcome (dev : UbiBdev) (s₀ s : State) (x : Nat) : Prop where
  fetched : s.stripeStatus x = .fetched ↔ FetchedWhole dev s.log x
  failed : s.stripeStatus x = .failed ↔ FetchEnded s.log x ∧ ¬ FetchedWhole dev s.log x
  header : stripeHeader s.metadata x =
    if s.stripeStatus x = .fetched then 1 else stripeHeader s₀.metadata x
  released : s.stripeStatus x ≠ .inflight →
    ∀ c k, (s.slot c k).active = true → (s.slot c k).stripeIdx ≠ x

/-- Without short reads and failed writes of the stripe, its stage is its outcome. -/
theorem fetchOutcome_of_stage {x : Nat} (placed : FetchesPlaced dev s)
    (stage : Stage s₀.stripeStatus s x) (recorded : Recorded s₀ s)
    (new : s₀.stripeStatus x = .notFetched)
    (whole : ∀ res ∈ (tally x s.log).reads, res < 0 ∨ (dev.stripeImageBytes x : Int) ≤ res)
    (wrote : false ∉ (tally x s.log).done) : FetchOutcome dev s₀ s x := by
  have header := recorded.header x
  have released (final : s.stripeStatus x ≠ .inflight) (c : ChId) (k : Nat)
      (active : (s.slot c k).active = true) : (s.slot c k).stripeIdx ≠ x := by
    rintro rfl
    exact final (placed.inflight_of_active active)
  rw [tally_trail] at header
  cases stage with
  | untouched status counted =>
      rw [tally_trail] at counted
      refine ⟨?_, ?_, ?_, released⟩ <;>
        simp [status, new, counted, header, FetchedWhole, FetchEnded]
  | queued _ status _ counted | reading _ _ _ status _ _ counted =>
      rw [tally_trail] at counted
      refine ⟨?_, ?_, ?_, released⟩ <;> simp [status, counted, header, FetchedWhole, FetchEnded]
  | writing _ _ _ res _ status _ _ good counted =>
      rw [tally_trail] at counted
      refine ⟨?_, ?_, ?_, released⟩ <;>
        simp [status, counted, header, FetchedWhole, FetchEnded, good]
  | readFailed res _ status bad counted =>
      rw [tally_trail] at counted
      refine ⟨?_, ?_, ?_, released⟩ <;>
        simp [status, counted, header, FetchedWhole, FetchEnded, bad]
  | writeRefused res _ status good counted =>
      rw [tally_trail] at counted
      refine ⟨?_, ?_, ?_, released⟩ <;> simp [status, counted, header, FetchedWhole, FetchEnded]
  | written res ok _ status good counted =>
      rw [tally_trail] at counted
      obtain rfl : ok = true := by simpa [counted] using wrote
      have full : (dev.stripeImageBytes x : Int) ≤ res :=
        (whole res (by simp [counted])).resolve_left (Int.not_lt.mpr good)
      refine ⟨?_, ?_, ?_, released⟩ <;>
        simp [status, counted, header, FetchedWhole, FetchEnded, full]

/-- A request in the list of channel `c` that needs stripe `x`, which is in flight or
has failed. -/
structure Waits (dev : UbiBdev) (s : State) (c : ChId) (id : ReqId) (x : Nat) : Prop where
  listed : id ∈ (s.channel c).io
  needs : ∃ r, s.request id = some r ∧ (r.type = .read ∨ r.type = .write) ∧
    r.offsetBlocks < dev.imageBlockCount ∧ toCInt (r.startStripe dev) = x
  bound : x < ubiMaxStripes
  pending : s.stripeStatus x = .inflight ∨ s.stripeStatus x = .failed

/-- The request is completed with failure, once, and was never written to the base. -/
structure FailedUntouched (s : State) (id : ReqId) : Prop where
  place : At (s.occurrences id) (some .completed)
  failed : .completed id false ∈ s.log
  unwritten : ∀ ok, .userWrite id ok ∉ s.log

/-- WRITEs that were handed to the base bdev are in no list any more. -/
def WritesUnlisted (s : State) : Prop :=
  ∀ id ok, .userWrite id ok ∈ s.log → ∀ c, id ∉ (s.channel c).io

theorem RequestsPlaced.listed_once (inv : RequestsPlaced s) {c : ChId} {id : ReqId}
    {rest : List ReqId} (first : (s.channel c).io = id :: rest) :
    id ∉ rest ∧ ∀ d, id ∈ (s.channel d).io → d = c := by
  have here : s.occurrences id (.listed c) ≠ 0 := by simp [State.occurrences, first]
  constructor
  · obtain ⟨loc, placed⟩ := inv.placed id
    obtain rfl := placed.counts.eq_some here
    have once := placed.counts.eq_one
    simpa [State.occurrences, first, List.count_eq_zero] using once
  · intro d listed
    cases inv.place_unique here (q := .listed d) (List.count_pos_iff.mpr listed).ne'
    rfl

theorem writesUnlisted_act (inv : RequestsPlaced s) (kinds : LoggedKinds s)
    (before : WritesUnlisted s) (act : Act dev s l t) : WritesUnlisted t := by
  have once := @inv.listed_once
  have known := kinds.write
  intro id ok logged c
  have older := before id ok
  clear before kinds inv
  cases act <;> grind -linarith

/-- A waiting request leaves the list in one way: its stripe has failed, and so does it. -/
theorem waits_leaves {c : ChId} {id : ReqId} {x : Nat} (act : Act dev s l t)
    (waits : Waits dev s c id x) (gone : id ∉ (t.channel c).io) :
    s.stripeStatus x = .failed ∧ t.stripeStatus = s.stripeStatus ∧
      t.log = .completed id false :: .unqueued c id :: s.log := by
  obtain ⟨listed, ⟨r, known, kind, image, index⟩, bound, pending⟩ := waits
  have gate : ubiGetStripeStatus s (toCInt (r.startStripe dev)) = some (s.stripeStatus x) :=
    ubiGetStripeStatus_eq_some.mpr ⟨x, index, bound, rfl⟩
  cases act <;> grind -linarith [Served]

theorem userWrite_act {id : ReqId} {ok : Bool} (act : Act dev s l t)
    (logged : .userWrite id ok ∈ t.log) :
    .userWrite id ok ∈ s.log ∨ ∃ c, id ∈ (s.channel c).io := by
  cases act <;> grind -linarith

theorem RequestsPlaced.at_completed (inv : RequestsPlaced s) {id : ReqId} {ok : Bool}
    (logged : .completed id ok ∈ s.log) : At (s.occurrences id) (some .completed) := by
  obtain ⟨loc, placed⟩ := inv.placed id
  have there : s.occurrences id .completed ≠ 0 :=
    (List.countP_pos_iff.mpr ⟨_, logged, by simp [Obs.completes]⟩).ne'
  rw [← placed.counts.eq_some there]
  exact placed.counts

theorem RequestsPlaced.uncompleted_of_occurs (inv : RequestsPlaced s) {id : ReqId} {p : Place}
    (here : s.occurrences id p ≠ 0) (other : p ≠ .completed) (ok : Bool) :
    .completed id ok ∉ s.log := by
  intro done
  cases (inv.at_completed done).eq_some here
  exact other rfl

theorem RequestsPlaced.verdict_unique (inv : RequestsPlaced s) {id : ReqId} {ok ok' : Bool}
    (logged : .completed id ok ∈ s.log) (logged' : .completed id ok' ∈ s.log) : ok = ok' := by
  have once : s.log.countP (Obs.completes id) = 1 := (inv.at_completed logged).eq_one
  rw [List.countP_eq_length_filter, List.length_eq_one_iff] at once
  obtain ⟨o, only⟩ := once
  have mem {ok : Bool} (logged : .completed id ok ∈ s.log) : Obs.completed id ok = o := by
    rw [← List.mem_singleton, ← only, List.mem_filter]
    exact ⟨logged, by simp [Obs.completes]⟩
  have same := (mem logged).trans (mem logged').symm
  simpa using same

/-- What is true of a request that has waited for stripe `x`, from then on. -/
def Attended (dev : UbiBdev) (c : ChId) (id : ReqId) (x : Nat) (s : State) : Prop :=
  s.stripeStatus x = .fetched ∨ Waits dev s c id x ∨
    (s.stripeStatus x = .failed ∧ FailedUntouched s id)

theorem attended_act {c : ChId} {id : ReqId} {x : Nat} (placed : FetchesPlaced dev s)
    (requests : RequestsPlaced s) (unlisted : WritesUnlisted s) (issued : FetchesIssued t.log)
    (act : Act dev s l t) (before : Attended dev c id x s) : Attended dev c id x t := by
  have move := statusStep_act placed issued act x
  have after := requestsPlaced_act requests act
  rcases before with fetched | waits | ⟨failed, done⟩
  · exact .inl ((move.final (.inl fetched)).trans fetched)
  · by_cases stays : id ∈ (t.channel c).io
    · obtain ⟨r, known, needs⟩ := waits.needs
      have started := move.started (by rcases waits.pending with h | h <;> simp [h])
      cases status : t.stripeStatus x with
      | notFetched => exact absurd status started
      | fetched => exact .inl status
      | inflight | failed =>
          exact .inr (.inl ⟨stays, ⟨r, act_request act known, needs⟩, waits.bound,
            by simp [status]⟩)
    · obtain ⟨failed, same, log⟩ := waits_leaves act waits stays
      have logged : .completed id false ∈ t.log := by simp [log]
      refine .inr (.inr ⟨by rw [same, failed], after.at_completed logged, logged, ?_⟩)
      intro ok written
      exact unlisted id ok (by simpa [log] using written) c waits.listed
  · have logged := (act_log act).subset done.failed
    refine .inr (.inr ⟨(move.final (.inr failed)).trans failed, after.at_completed logged, logged,
      ?_⟩)
    intro ok written
    rcases userWrite_act act written with old | ⟨d, listed⟩
    · exact done.unwritten ok old
    · have there : s.occurrences id (.listed d) ≠ 0 := (List.count_pos_iff.mpr listed).ne'
      cases done.place.eq_some there

/-- The invariants a run needs to know what becomes of waiting requests. -/
structure Attentive (dev : UbiBdev) (s : State) : Prop where
  placed : FetchesPlaced dev s
  requests : RequestsPlaced s
  kinds : LoggedKinds s
  unlisted : WritesUnlisted s

theorem attentive_act (inv : Attentive dev s) (issued : FetchesIssued t.log)
    (act : Act dev s l t) : Attentive dev t :=
  ⟨fetchesPlaced_act inv.placed issued act, requestsPlaced_act inv.requests act,
    loggedKinds_act inv.requests inv.kinds act,
    writesUnlisted_act inv.requests inv.kinds inv.unlisted act⟩

theorem attentive_reach {base : Bytes} {allowed : State → Event → Prop}
    (created : Created dev base s₀) (run : Reach dev allowed s₀ s)
    (issued : FetchesIssued s.log) : Attentive dev s := by
  obtain ⟨table, _, rfl⟩ := created
  exact reach_invariant_log fetchesIssued_earlier attentive_act run
    ⟨fetchesPlaced_newState dev base table, requestsPlaced_newState base table,
      ⟨by simp [newState], by simp [newState]⟩, by simp [WritesUnlisted, newState]⟩ issued

theorem attended_reach {c : ChId} {id : ReqId} {x : Nat} {allowed : State → Event → Prop}
    (inv : Attentive dev s) (run : Reach dev allowed s t) (issued : FetchesIssued t.log)
    (waits : Attended dev c id x s) : Attended dev c id x t :=
  (reach_invariant_log (P := fun s => Attentive dev s ∧ Attended dev c id x s)
    fetchesIssued_earlier (fun before met act => ⟨attentive_act before.1 met act,
      attended_act before.1.placed before.1.requests before.1.unlisted met act before.2⟩) run
    ⟨inv, waits⟩ issued).2

theorem update_field {α : Type} (field : UbiIoChannel → α) {f : ChId → UbiIoChannel} {c : ChId}
    {ch : UbiIoChannel} (same : field ch = field (f c)) (d : ChId) :
    field (Function.update f c ch d) = field (f d) := by
  by_cases here : d = c
  · subst here
    simp [same]
  · simp [here]

theorem completeCqe_io (s : State) (c d : ChId) (cqe : Cqe) (rest : List Cqe) (ret : Int) :
    ((completeCqe dev s c cqe rest ret).2.channel d).io = (s.channel d).io := by
  have seen : ((cqeSeen s c rest).channel d).io = (s.channel d).io :=
    update_field UbiIoChannel.io (by rfl) d
  unfold completeCqe
  split
  · rw [← seen]
    unfold ubiCompleteFetchStripe
    dsimp only
    split
    · exact update_field UbiIoChannel.io (by rfl) d
    · split
      · rfl
      · exact update_field UbiIoChannel.io (by rfl) d
  · rw [← seen]
    simp only [ubiCompleteReadFromImage, ubiCompleteIo_eq]
    split <;> exact State.released_io _ _ _

theorem completeBatch_io (c d : ChId) (ret : Nat → Int) (batch i : Nat) (last : Int) (s : State) :
    ((completeBatch dev c ret batch i last s).2.channel d).io = (s.channel d).io := by
  induction batch generalizing i last s with
  | zero => rfl
  | succ batch ih =>
      rw [completeBatch]
      split
      · rfl
      · rw [ih, completeCqe_io]

abbrev UbiIoChannel.loop (ch : UbiIoChannel) : List ReqId × Nat := (ch.io, ch.activeReads)

theorem startStripeFetches_loop {c : ChId} {env : PollEnv} {free : List Nat}
    (h : startStripeFetches dev c env free s = .ok t) (d : ChId) :
    (t.channel d).loop = (s.channel d).loop := by
  induction free generalizing s with
  | nil =>
      cases h
      rfl
  | cons k free ih =>
      rw [startStripeFetches] at h
      split at h
      · cases h
        rfl
      split at h
      · cases h
      next next started =>
      rw [ih h]
      have assigned : ((assignSlot s c k).channel d).loop = (s.channel d).loop := by
        rw [assignSlot_eq]
        exact update_field UbiIoChannel.loop (by rfl) d
      rw [← assigned]
      unfold ubiStartFetchStripe at started
      split at started
      · cases started
      split at started
      · cases started
        exact (update_field UbiIoChannel.loop (by rfl) d).trans
          (update_field UbiIoChannel.loop (by rfl) d)
      · cases started
        exact (update_field UbiIoChannel.loop (by rfl) d).trans
          (update_field UbiIoChannel.loop (by rfl) d)

theorem quietly_log (acts : Quietly dev s t) : s.log <:+ t.log :=
  Quietly.invariant (P := fun u => s.log <:+ u.log) (fun older act => older.trans (act_log act))
    acts List.suffix_rfl

/-- The request loop fails a request of a failed stripe that is first in its list,
unless it is a READ and too many READs are active. -/
theorem processIo_fails_first {c : ChId} {id : ReqId} {rest : List ReqId} {r : Request}
    {env : PollEnv} (io : (s.channel c).io = id :: rest) (known : s.request id = some r)
    (data : r.type ≠ .flush) (image : r.offsetBlocks < dev.imageBlockCount)
    (gate : ubiGetStripeStatus s (toCInt (r.startStripe dev)) = some .failed)
    (limit : r.type = .read → (s.channel c).activeReads < ubiMaxConcurrentReads)
    (h : processIo dev c env (s.channel c).io s = .ok t) : .completed id false ∈ t.log := by
  have below : ¬ (r.type = .read ∧ ubiMaxConcurrentReads ≤ (s.channel c).activeReads) :=
    fun full => absurd (limit full.1) (Nat.not_lt.mpr full.2)
  rw [io, processIo] at h
  simp only [processFirst, known, if_neg below, data, image, ne_eq, not_false_eq_true, and_self,
    if_true, gate] at h
  have taken : (((removeFirst s c id rest).complete id false).channel c).io = rest := by
    simp [removeFirst, State.setChannel, State.complete, State.emit]
  exact (quietly_log (processIo_acts taken h)).subset (by simp [State.complete, State.emit])

theorem failed_kept {x : Nat} (placed : FetchesPlaced dev s) (acts : Quietly dev s t)
    (issued : FetchesIssued t.log) (failed : s.stripeStatus x = .failed) :
    t.stripeStatus x = .failed :=
  (Quietly.invariant
    (P := fun u => FetchesIssued u.log → FetchesPlaced dev u ∧ u.stripeStatus x = .failed)
    (fun before act met => by
      obtain ⟨placed, failed⟩ := before (fetchesIssued_earlier (act_log act) met)
      exact ⟨fetchesPlaced_act placed met act,
        ((statusStep_act placed met act x).final (.inr failed)).trans failed⟩)
    acts (fun _ => ⟨placed, failed⟩) issued).2

theorem poll_fails_first {c : ChId} {id : ReqId} {x : Nat} {rest : List ReqId} {env : PollEnv}
    {status : PollerStatus} (inv : Attentive dev s) (waits : Waits dev s c id x)
    (failed : s.stripeStatus x = .failed) (first : (s.channel c).io = id :: rest)
    (limit : ∀ r, s.request id = some r → r.type = .read →
      ((ubiCompleteImageIo dev s c env).2.channel c).activeReads < ubiMaxConcurrentReads)
    (polled : ubiIoPoll dev s c env = .ok (status, t)) (issued : FetchesIssued t.log) :
    .completed id false ∈ t.log := by
  unfold ubiIoPoll at polled
  have completed : Quietly dev s (ubiCompleteImageIo dev s c env).2 :=
    completeBatch_acts c _ _ _ _ s
  have io : ((ubiCompleteImageIo dev s c env).2.channel c).io = id :: rest := by
    rw [← first]
    exact completeBatch_io c c _ _ _ _ s
  simp only [first, List.isEmpty_cons, Bool.false_and, Bool.false_eq_true, if_false] at polled
  split at polled
  · cases polled
  next fetching start =>
  split at polled
  · cases polled
  next processed process =>
  cases polled
  obtain ⟨nodup, free⟩ := freeStripeFetches_spec ((ubiCompleteImageIo dev s c env).2.channel c)
  have started : Quietly dev s fetching := completed.trans
    (startStripeFetches_acts nodup (fun k hk => (free k hk).1) (fun k hk => (free k hk).2) start)
  have submitted : Quietly dev processed (submitReads processed c env.submitRet) :=
    submitReads_acts processed c env.submitRet
  have issued : FetchesIssued fetching.log :=
    fetchesIssued_earlier (quietly_log ((processIo_acts rfl process).trans submitted)) issued
  have loop := startStripeFetches_loop start c
  simp only [UbiIoChannel.loop, Prod.mk.injEq, io] at loop
  obtain ⟨r, known, kind, image, index⟩ := waits.needs
  have failed := failed_kept inv.placed started issued failed
  have known' : fetching.request id = some r :=
    Quietly.invariant (P := fun u => u.request id = some r)
      (fun known act => act_request act known) started known
  refine (quietly_log submitted).subset (processIo_fails_first loop.1 known' ?_ image
    (ubiGetStripeStatus_eq_some.mpr ⟨x, index, waits.bound, failed⟩) (fun read => ?_) process)
  · rcases kind with h | h <;> simp [h]
  · rw [loop.2]
    exact limit r known read

theorem flushed_step {e : Event} (h : step dev s e = .ok t)
    (changed : t.stripesFlushed ≠ s.stripesFlushed) : ∃ o ret, e = .flushDone o true ret := by
  rcases step_acts h with act | ⟨_, acts⟩
  · obtain ⟨o, _, _, label, _⟩ := (flushed_act act).resolve_left changed
    cases e with
    | flushDone o' success ret =>
        cases label
        exact ⟨o, ret, rfl⟩
    | _ => cases label
  · refine absurd
      (Quietly.invariant (P := fun u => u.stripesFlushed = s.stripesFlushed) ?_ acts rfl) changed
    intro u v same act
    by_contra moved
    obtain ⟨_, _, _, label, _⟩ := (flushed_act act).resolve_left (by rwa [same])
    cases label

/-- What becomes of a request that waits for stripe `x`: while the stripe is not fetched
it stays in the list or fails, and a poll that gets to it once the stripe has failed
fails it. -/
structure FailsWithStripe (dev : UbiBdev) (s : State) (c : ChId) (id : ReqId) (x : Nat) : Prop where
  later : ∀ t, Reach dev anyStep s t → FetchesIssued t.log → t.stripeStatus x ≠ .fetched →
    id ∈ (t.channel c).io ∨ FailedUntouched t id
  polled : s.stripeStatus x = .failed → ∀ rest env status t, (s.channel c).io = id :: rest →
    (∀ r, s.request id = some r → r.type = .read →
      ((ubiCompleteImageIo dev s c env).2.channel c).activeReads < ubiMaxConcurrentReads) →
    ubiIoPoll dev s c env = .ok (status, t) → FetchesIssued t.log → FailedUntouched t id

theorem failsWithStripe_of_waits {c : ChId} {id : ReqId} {x : Nat} (inv : Attentive dev s)
    (waits : Waits dev s c id x) : FailsWithStripe dev s c id x := by
  have later (t : State) (run : Reach dev anyStep s t) (issued : FetchesIssued t.log)
      (unfetched : t.stripeStatus x ≠ .fetched) :
      id ∈ (t.channel c).io ∨ FailedUntouched t id := by
    rcases attended_reach inv run issued (.inr (.inl waits)) with fetched | waits | ⟨_, done⟩
    · exact absurd fetched unfetched
    · exact .inl waits.listed
    · exact .inr done
  refine ⟨later, fun failed rest env status t first limit polled issued => ?_⟩
  have moved : step dev s (.poll c env) = .ok t := by simp only [step, polled]; rfl
  have run : Reach dev anyStep s t := .tail .refl trivial moved
  have unfetched : t.stripeStatus x ≠ .fetched := by
    rw [failed_kept inv.placed (ubiIoPoll_acts polled) issued failed]
    decide
  rcases later t run issued unfetched with listed | done
  · have logged := poll_fails_first inv waits failed first limit polled issued
    have after := reach_invariant_log fetchesIssued_earlier attentive_act run inv issued
    have there : t.occurrences id (.listed c) ≠ 0 := (List.count_pos_iff.mpr listed).ne'
    cases (after.requests.at_completed logged).eq_some there
  · exact done

/-- A stripe counts as fetched exactly when it was, for a stripe whose image read is
not short and whose base write does not fail. -/
theorem fetched_only_when_whole {base : Bytes} {x : Nat} (created : Created dev base s₀)
    (run : Reach dev anyStep s₀ s) (issued : FetchesIssued s.log)
    (new : s₀.stripeStatus x = .notFetched)
    (whole : ∀ res ∈ (tally x s.log).reads, res < 0 ∨ (dev.stripeImageBytes x : Int) ≤ res)
    (wrote : false ∉ (tally x s.log).done) :
    FetchOutcome dev s₀ s x ∧ s.stripesFetched = fetchedCount s ∧
      (∀ e t, step dev s e = .ok t → t.stripesFlushed ≠ s.stripesFlushed →
        ∃ o ret, e = .flushDone o true ret) ∧
      ∀ c id, Waits dev s c id x → FailsWithStripe dev s c id x := by
  have life := lifecycle_reach created run issued
  have inv := attentive_reach created run issued
  exact ⟨fetchOutcome_of_stage life.placed (life.stages x) (recorded_reach created run issued) new
    whole wrote, (counted_reach created run issued).exact, fun _ _ => flushed_step,
    fun _ _ => failsWithStripe_of_waits inv⟩

theorem fetched_only_when_whole_fetchFirst :
    ∃ s, Reach (threeBlockBdev false) anyStep (blankState (threeBlockBdev false)) s ∧
      s.stripeStatus 0 = .fetched ∧ FetchedWhole (threeBlockBdev false) s.log 0 := by
  have ran : (Runs.exec (step (threeBlockBdev false)) (fun _ _ => true)
      (blankState (threeBlockBdev false)) (fetchFirst 65536 true)).any (fun s =>
        decide (FetchesIssued s.log) && decide (s.stripeStatus 0 = .fetched) &&
          decide ((tally 0 s.log).reads = [65536]) && decide ((tally 0 s.log).done = [true])) =
      true := by decide +kernel
  obtain ⟨s, run, test⟩ := Runs.exists_reach_of_exec (fun _ _ _ _ => trivial) ran
  simp only [Bool.and_eq_true, decide_eq_true_eq] at test
  obtain ⟨⟨⟨issued, status⟩, reads⟩, done⟩ := test
  have outcome := (fetched_only_when_whole (created_blankState _) run issued rfl
    (by rw [reads]; decide) (by simp [done])).1
  exact ⟨s, run, status, outcome.fetched.mp status⟩

/-- The base write of stripe 0 fails, or its image read returns nothing: in both runs the
stripe becomes fetched, its header is set and the counter goes up. -/
theorem failed_fetch_counts :
    (∃ s, Reach (threeBlockBdev false) anyStep (blankState (threeBlockBdev false)) s ∧
      (tally 0 s.log).done = [false] ∧ s.stripeStatus 0 = .fetched ∧
      stripeHeader s.metadata 0 = 1 ∧ s.stripesFetched = 1) ∧
    (∃ s, Reach (threeBlockBdev false) anyStep (blankState (threeBlockBdev false)) s ∧
      (tally 0 s.log).reads = [0] ∧ s.stripeStatus 0 = .fetched ∧
      stripeHeader s.metadata 0 = 1 ∧ s.stripesFetched = 1) := by
  have failed : (Runs.exec (step (threeBlockBdev false)) (fun _ _ => true)
      (blankState (threeBlockBdev false)) (fetchFirst 65536 false)).any (fun s =>
        decide ((tally 0 s.log).done = [false] ∧ s.stripeStatus 0 = .fetched ∧
          stripeHeader s.metadata 0 = 1 ∧ s.stripesFetched = 1)) = true := by decide +kernel
  have short : (Runs.exec (step (threeBlockBdev false)) (fun _ _ => true)
      (blankState (threeBlockBdev false)) (fetchFirst 0 true)).any (fun s =>
        decide ((tally 0 s.log).reads = [0] ∧ s.stripeStatus 0 = .fetched ∧
          stripeHeader s.metadata 0 = 1 ∧ s.stripesFetched = 1)) = true := by decide +kernel
  constructor
  · obtain ⟨s, run, test⟩ := Runs.exists_reach_of_exec (fun _ _ _ _ => trivial) failed
    exact ⟨s, run, of_decide_eq_true test⟩
  · obtain ⟨s, run, test⟩ := Runs.exists_reach_of_exec (fun _ _ _ _ => trivial) short
    exact ⟨s, run, of_decide_eq_true test⟩

end BdevUbi
