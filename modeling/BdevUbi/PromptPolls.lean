import BdevUbi.PreparedEntries
import BdevUbi.StripePlaces
import BdevUbi.FetchOutcomes

/-!
Polls whose calls return at once. When `spdk_bdev_io_get_buf` calls back inline and
`io_uring_submit` does not fail, a poll leaves no READ waiting for its buffer and no entry
prepared in a ring; and it does not stop short, so it reports nothing undefined.
-/

namespace BdevUbi

/-- Buffers are granted or refused at once, and what is prepared is submitted. -/
structure PollEnv.Prompt (env : PollEnv) : Prop where
  buffers : ∀ id, ∃ ok, env.getBuf id = .inline ok
  fetches : ∀ k, 0 ≤ env.fetchSubmitRet k
  reads : 0 ≤ env.submitRet

theorem prompt_success : PollEnv.success.Prompt :=
  ⟨fun _ => ⟨true, rfl⟩, fun _ => Int.le_refl _, Int.le_refl _⟩

/-- The failing calls that leave something behind: an entry that stays in the ring, or, if
`losses` are of interest, a request that nothing owns any more. -/
def Obs.mishap (losses : Bool) : Obs → Bool
  | .fetchSubmit _ _ _ ok => !ok
  | .userWrite _ ok | .dataFlushDone _ ok => losses && !ok
  | _ => false

/-- What a poll of channel `c` that returns at once does to what it could leave behind. -/
structure Prompted (losses : Bool) (c : ChId) (s t : State) : Prop where
  request : t.request = s.request
  waiting : t.waiting = s.waiting
  sqes : ∀ d, d ≠ c → (t.channel d).sqes = (s.channel d).sqes
  log : ∀ o ∈ t.log, o.mishap losses = true → o ∈ s.log

variable {dev : UbiBdev} {losses : Bool} {c : ChId} {s t u : State}

theorem Prompted.refl (s : State) : Prompted losses c s s :=
  ⟨rfl, rfl, fun _ _ => rfl, fun _ h _ => h⟩

theorem Prompted.trans (first : Prompted losses c s t) (second : Prompted losses c t u) :
    Prompted losses c s u where
  request := second.request.trans first.request
  waiting := second.waiting.trans first.waiting
  sqes d other := (second.sqes d other).trans (first.sqes d other)
  log o logged mishap := first.log o (second.log o logged mishap) mishap

theorem completeCqe_prompted (cqe : Cqe) (rest : List Cqe) (ret : Int) :
    Prompted losses c s (completeCqe dev s c cqe rest ret).2 := by
  unfold completeCqe
  split
  · simp only [ubiCompleteFetchStripe]
    repeat' split
    all_goals
      constructor <;> simp +contextual [ubiFailStripeFetch, ubiSetStripeStatus, cqeSeen,
        State.setFetch, State.setChannel, State.emit, State.startWrite, Obs.mishap]
  · simp only [ubiCompleteReadFromImage]
    split <;> constructor <;> simp +contextual [ubiCompleteIo_eq, cqeSeen, State.setChannel,
      State.emit, Obs.mishap]

theorem completeBatch_prompted (ret : Nat → Int) (batch i : Nat) (last : Int) (s : State) :
    Prompted losses c s (completeBatch dev c ret batch i last s).2 := by
  induction batch generalizing i last s with
  | zero => exact .refl s
  | succ batch ih =>
      rw [completeBatch]
      split
      · exact .refl s
      · exact (completeCqe_prompted _ _ _).trans (ih _ _ _)

/-- A fetch that is submitted takes every prepared entry of the ring with it. -/
theorem startFetch_prompted (losses : Bool) {k : Nat} {ret : Int} (submits : 0 ≤ ret)
    (h : ubiStartFetchStripe dev (assignSlot s c k) c k ret = .ok t) :
    Prompted losses c s t ∧ (t.channel c).sqes = [] := by
  rw [assignSlot_eq, ubiStartFetchStripe] at h
  simp only [Function.update_self] at h
  split at h
  · cases h
  rw [if_neg (Int.not_lt.mpr submits)] at h
  cases h
  constructor
  · constructor <;> simp +contextual [ioUringSubmit, prepareFetch, State.setChannel, State.emit,
      Obs.mishap]
  · simp [ioUringSubmit, State.setChannel]

theorem startStripeFetches_prompted (dev : UbiBdev) (losses : Bool) (free : List Nat)
    {env : PollEnv} (prompt : env.Prompt) (empty : (s.channel c).sqes = []) :
    ∃ t, startStripeFetches dev c env free s = .ok t ∧ Prompted losses c s t ∧
      (t.channel c).sqes = [] := by
  induction free generalizing s with
  | nil => exact ⟨s, rfl, .refl s, empty⟩
  | cons k free ih =>
      rw [startStripeFetches]
      split
      · exact ⟨s, rfl, .refl s, empty⟩
      obtain ⟨next, started⟩ := startFetch_ok dev k (env.fetchSubmitRet k) (s := s) (c := c)
        (by simp [empty, ubiUringQueueSize])
      obtain ⟨left, none⟩ := startFetch_prompted losses (prompt.fetches k) started
      obtain ⟨t, rest, later, empty⟩ := ih none
      exact ⟨t, by rw [started]; exact rest, left.trans later, empty⟩

/-- A status is found for every block of the image. -/
def StatusesFound (dev : UbiBdev) : Prop :=
  ∀ s : State, ∀ r : Request, r.offsetBlocks < dev.imageBlockCount →
    ubiGetStripeStatus s (toCInt (r.startStripe dev)) ≠ none

theorem statusesFound_of_small
    (small : dev.imageBlockCount ≤ ubiMaxStripes * dev.stripeBlockCount) :
    StatusesFound dev := by
  intro s r image
  have bound : r.startStripe dev < ubiMaxStripes := by
    rw [Request.startStripe, dev.shift_eq_div, Nat.div_lt_iff_lt_mul dev.stripeBlockCount_pos]
    exact Nat.lt_of_lt_of_le image small
  rw [toCInt_of_lt bound, ubiGetStripeStatus, if_pos (by omega)]
  simp

theorem getBuf_prompted (losses : Bool) {id : ReqId} {r : Request} (found : StatusesFound dev)
    (req : s.request id = some r) (route : (s.bdevIo id).ubiCh = c) (success : Bool) (ret : Int) :
    ∃ t, getBufForReadCb dev s id success ret = .ok t ∧
      t.waiting = Function.update s.waiting id false ∧
      Prompted losses c { s with waiting := t.waiting } t := by
  have refused : (ubiCompleteIo (grantBuffer s id) id false).waiting =
        Function.update s.waiting id false ∧
      Prompted losses c
        { s with waiting := (ubiCompleteIo (grantBuffer s id) id false).waiting }
        (ubiCompleteIo (grantBuffer s id) id false) := by
    rw [ubiCompleteIo_eq]
    refine ⟨rfl, ?_⟩
    constructor <;> simp +contextual [grantBuffer, Obs.mishap]
  unfold getBufForReadCb
  simp only [req]
  split
  · exact ⟨_, rfl, refused⟩
  split
  · rw [ubiSubmitReadRequest]
    split
    · next next start =>
      split at start
      · cases start
        exact ⟨_, rfl, rfl, ⟨rfl, rfl, fun _ _ => rfl, fun _ h _ => h⟩⟩
      · cases start
    · exact ⟨_, rfl, refused⟩
  next gate =>
  rw [if_neg (found s r (by omega))]
  split
  · exact ⟨_, rfl, refused⟩
  · refine ⟨_, rfl, rfl, ?_⟩
    subst route
    constructor <;> simp +contextual [prepareImageRead, grantBuffer, State.setChannel]

theorem dispatch_prompted (rest : List ReqId) {id : ReqId} {r : Request} {env : PollEnv}
    (found : StatusesFound dev) (prompt : env.Prompt) (req : s.request id = some r)
    (idle : s.waiting id = false)
    (accepted : losses = true → baseAccepts dev (r.offsetBlocks + dev.dataOffsetBlocks)
      r.numBlocks (env.baseRet id) = true) :
    ∃ t, dispatch dev s c id rest r env = .ok t ∧ Prompted losses c s t := by
  have taken : Prompted losses c s (takeFirst s c id rest r) := by
    constructor <;> simp +contextual [takeFirst, removeFirst, State.setChannel, State.emit,
      Obs.mishap]
  unfold dispatch
  split
  · obtain ⟨success, inline⟩ := prompt.buffers id
    simp only [inline]
    obtain ⟨t, called, granted, left⟩ := getBuf_prompted losses (c := c)
      (s := awaitBuffer (takeFirst s c id rest r) c id) found req
      (by simp [awaitBuffer, takeFirst, State.setChannel]) success (env.baseRet id)
    have same : t.waiting = s.waiting := by
      rw [granted]
      simp only [awaitBuffer, State.setChannel, taken.waiting, Function.update_idem]
      rw [← idle, Function.update_eq_self]
    refine ⟨t, called, left.request.trans rfl, same, fun d other => ?_, fun o logged mishap => ?_⟩
    · rw [left.sqes d other, ← taken.sqes d other]
      simp [awaitBuffer, State.setChannel, other]
    · exact taken.log o (left.log o logged mishap) mishap
  · refine ⟨_, rfl, taken.trans ?_⟩
    unfold ubiSubmitWriteRequest
    cases losses with
    | true =>
        simp only [accepted rfl, if_true]
        constructor <;> simp +contextual [State.startWrite, State.emit, Obs.mishap]
    | false =>
        dsimp only
        split <;> constructor <;>
          simp +contextual [State.startWrite, State.emit, Obs.mishap]
  · refine ⟨_, rfl, taken.trans ?_⟩
    unfold ubiSubmitFlushRequest
    dsimp only
    repeat' split
    all_goals
      constructor <;>
        simp +contextual [State.startFlush, State.complete, State.emit, Obs.mishap]
  all_goals
    refine ⟨_, rfl, taken.trans ?_⟩
    constructor <;> simp +contextual [State.complete, State.emit, Obs.mishap]

/-- The base bdev takes the requests, if their loss is of interest. -/
def BaseTakes (dev : UbiBdev) (env : PollEnv) (losses : Bool) (s : State) : Prop :=
  ∀ id r, s.request id = some r → losses = true →
    baseAccepts dev (r.offsetBlocks + dev.dataOffsetBlocks) r.numBlocks (env.baseRet id) = true

section Loop

variable {env : PollEnv} (found : StatusesFound dev) (prompt : env.Prompt)

include found prompt

theorem processFirst_prompted {id : ReqId} (rest : List ReqId) {r : Request}
    (takes : BaseTakes dev env losses s) (idle : ∀ id, s.waiting id = false)
    (req : s.request id = some r) :
    ∃ b t, processFirst dev s c id rest env = .ok (b, t) ∧ Prompted losses c s t := by
  obtain ⟨t, dispatched, left⟩ := dispatch_prompted rest (c := c) found prompt req
    (idle id) (takes id r req)
  have answered : Prompted losses c s ((removeFirst s c id rest).complete id false) := by
    constructor <;> simp +contextual [removeFirst, State.complete, State.setChannel, State.emit,
      Obs.mishap]
  have bug : Prompted losses c s
      (((removeFirst s c id rest).emit (.bug id)).complete id false) := by
    constructor <;> simp +contextual [removeFirst, State.complete, State.setChannel, State.emit,
      Obs.mishap]
  unfold processFirst
  simp only [req, dispatched, Except.map]
  split
  · exact ⟨_, _, rfl, .refl s⟩
  split
  · next image =>
    split
    · next gate => exact absurd gate (found s r image.2)
    · exact ⟨_, _, rfl, answered⟩
    · exact ⟨_, _, rfl, .refl s⟩
    · split
      · exact ⟨_, _, rfl, bug⟩
      · exact ⟨_, _, rfl, left⟩
    · exact ⟨_, _, rfl, left⟩
  · exact ⟨_, _, rfl, left⟩

theorem processIo_prompted (ids : List ReqId) (takes : BaseTakes dev env losses s)
    (idle : ∀ id, s.waiting id = false) (known : ∀ id ∈ ids, s.request id ≠ none) :
    ∃ t, processIo dev c env ids s = .ok t ∧ Prompted losses c s t := by
  induction ids generalizing s with
  | nil => exact ⟨s, rfl, .refl s⟩
  | cons id rest ih =>
      obtain ⟨r, req⟩ := Option.ne_none_iff_exists'.mp (known id List.mem_cons_self)
      obtain ⟨b, next, first, left⟩ := processFirst_prompted (c := c) found prompt rest
        takes idle req
      rw [processIo, first]
      cases b with
      | false => exact ⟨next, rfl, left⟩
      | true =>
          obtain ⟨t, loop, later⟩ := ih (s := next) (by rwa [BaseTakes, left.request])
            (by rwa [left.waiting]) fun j hj => by
              rw [left.request]
              exact known j (List.mem_cons_of_mem _ hj)
          exact ⟨t, loop, left.trans later⟩

end Loop

theorem submitReads_prompted (ret : Int) : Prompted losses c s (submitReads s c ret) := by
  unfold submitReads
  split
  · split
    · exact .refl s
    · constructor <;> simp +contextual [ioUringSubmit, State.setChannel]
  · exact .refl s

/-- Nothing is left to a call that may not come: no READ waits for its buffer, no entry is
prepared and not submitted, and no submission of a fetch has failed. -/
structure AtRest (s : State) : Prop where
  waiting : ∀ id, s.waiting id = false
  sqes : ∀ c, (s.channel c).sqes = []
  issued : FetchesIssued s.log

theorem failedSubmits_of_issued {log : List Obs} (issued : FetchesIssued log) (c : ChId) :
    failedSubmits c log = 0 := by
  induction log with
  | nil => rfl
  | cons o log ih =>
      have before := ih (fetchesIssued_earlier (List.suffix_cons o log) issued)
      cases o with
      | fetchSubmit d k x ok =>
          cases ok with
          | true => simp [failedSubmits, before]
          | false => exact absurd List.mem_cons_self (issued d k x)
      | _ => exact before

theorem Prompted.issued (left : Prompted losses c s t) (issued : FetchesIssued s.log) :
    FetchesIssued t.log :=
  fun d k x logged => issued d k x (left.log _ logged rfl)

theorem AtRest.of_prompted (atRest : AtRest s) (left : Prompted losses c s t)
    (here : (t.channel c).sqes = []) : AtRest t where
  waiting := by
    rw [left.waiting]
    exact atRest.waiting
  sqes d := by
    by_cases same : d = c
    · rw [same, here]
    · rw [left.sqes d same, atRest.sqes d]
  issued := left.issued atRest.issued

/-- What the entries of a ring are counted by. -/
structure RingCounted (s : State) : Prop where
  entries : EntriesCounted s
  hasReads : ∀ c, s.readers c ≠ [] → (s.channel c).hasReads ≠ 0

theorem ringCounted_act {l : Label} (inv : RingCounted s) (act : Act dev s l t) : RingCounted t :=
  ⟨entriesCounted_act inv.entries act, fun c => hasReads_act (inv.hasReads c) act⟩

theorem submitReads_sqes {ret : Int} (inv : RingCounted s) (issued : FetchesIssued s.log)
    (submits : 0 ≤ ret) : ((submitReads s c ret).channel c).sqes = [] := by
  unfold submitReads
  split
  · rw [if_neg (Int.not_lt.mpr submits)]
    simp [ioUringSubmit, State.setChannel]
  · next none =>
    have readers : s.readers c = [] := by
      by_contra some
      exact none (inv.hasReads c some)
    have stuck := inv.entries.stuck c
    rw [failedSubmits_of_issued issued] at stuck
    have length := sqes_length s c
    rw [readers, Nat.le_zero.mp stuck] at length
    exact List.length_eq_zero_iff.mp length

section Poll

variable {env : PollEnv} (found : StatusesFound dev) (prompt : env.Prompt)
  (takes : BaseTakes dev env losses s) (atRest : AtRest s)
  (known : ∀ c, ∀ id ∈ (s.channel c).io, s.request id ≠ none)

include found prompt takes atRest known

theorem poll_stages
    (busy : ((s.channel c).io.isEmpty && stripeQueueEmpty (s.channel c)) = false) :
    ∃ fetching processed,
      startStripeFetches dev c env
        (freeStripeFetches ((ubiCompleteImageIo dev s c env).2.channel c))
        (ubiCompleteImageIo dev s c env).2 = .ok fetching ∧
      Quietly dev (ubiCompleteImageIo dev s c env).2 fetching ∧
      processIo dev c env (fetching.channel c).io fetching = .ok processed ∧
      ubiIoPoll dev s c env = .ok (.busy, submitReads processed c env.submitRet) ∧
      Prompted losses c s processed := by
  have completed : Prompted losses c s (ubiCompleteImageIo dev s c env).2 :=
    completeBatch_prompted _ _ _ _ _
  have ring : ((ubiCompleteImageIo dev s c env).2.channel c).sqes = [] := by
    rw [ubiCompleteImageIo, (completeBatch_ring dev c _ _ _ _ s).1]
    exact atRest.sqes c
  obtain ⟨fetching, started, left, _⟩ := startStripeFetches_prompted dev losses
    (freeStripeFetches ((ubiCompleteImageIo dev s c env).2.channel c)) prompt ring
  have before := completed.trans left
  have io : (fetching.channel c).io = (s.channel c).io :=
    (congrArg Prod.fst (startStripeFetches_loop started c)).trans (completeBatch_io c c _ _ _ _ s)
  obtain ⟨processed, looped, later⟩ := processIo_prompted (c := c) found prompt
    (fetching.channel c).io
    (show BaseTakes dev env losses fetching by rwa [BaseTakes, before.request])
    (by rw [before.waiting]; exact atRest.waiting) (by rw [before.request, io]; exact known c)
  refine ⟨fetching, processed, started, ?_, looped, ?_, before.trans later⟩
  · obtain ⟨nodup, free⟩ := freeStripeFetches_spec ((ubiCompleteImageIo dev s c env).2.channel c)
    exact startStripeFetches_acts nodup (fun k hk => (free k hk).1) (fun k hk => (free k hk).2)
      started
  · simp only [ubiIoPoll, busy, Bool.false_and, Bool.false_eq_true, if_false, started, looped]

/-- A poll whose calls return at once does not stop short and leaves nothing behind. -/
theorem poll_prompted (inv : RingCounted s) :
    ∃ status t, ubiIoPoll dev s c env = .ok (status, t) ∧ AtRest t ∧ Prompted losses c s t := by
  by_cases busy : ((s.channel c).io.isEmpty && stripeQueueEmpty (s.channel c)) = false
  · obtain ⟨fetching, processed, _, begun, looped, polled, left⟩ :=
      poll_stages found prompt takes atRest known (c := c) busy
    have acts := ((completeBatch_acts c _ _ _ _ s).trans begun).trans (processIo_acts rfl looped)
    have counted : RingCounted processed := Quietly.invariant ringCounted_act acts inv
    have whole := left.trans (submitReads_prompted (c := c) env.submitRet)
    exact ⟨_, _, polled, atRest.of_prompted whole
      (submitReads_sqes counted (left.issued atRest.issued) prompt.reads), whole⟩
  · have completed : Prompted losses c s (ubiCompleteImageIo dev s c env).2 :=
      completeBatch_prompted _ _ _ _ _
    have quiet : AtRest (ubiCompleteImageIo dev s c env).2 := by
      refine atRest.of_prompted completed ?_
      rw [ubiCompleteImageIo, (completeBatch_ring dev c _ _ _ _ s).1]
      exact atRest.sqes c
    have empty : ((s.channel c).io.isEmpty && stripeQueueEmpty (s.channel c)) = true := by
      simpa using busy
    simp only [ubiIoPoll, empty, Bool.true_and, if_true, decide_eq_true_eq]
    split
    · exact ⟨_, _, rfl, quiet, completed⟩
    · exact ⟨_, _, rfl, quiet, completed⟩

end Poll

end BdevUbi
