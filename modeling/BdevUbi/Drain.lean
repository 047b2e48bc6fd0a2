import BdevUbi.BoundedWork
import BdevUbi.PromptPolls

/-!
Draining. In a run whose polls return at once and whose queues do not overflow, no request
can get stuck: while one is neither completed nor lost, some call of the lower layers or
some poll is due that does work, and since the work between two submissions is bounded,
every request is answered in the end.
-/

namespace BdevUbi
open Relation Placement

variable {dev : UbiBdev} {s₀ s t u : State} {c : ChId}

/-- Polls return at once, and a stripe is only put into a queue that is not full. -/
def Calm (dev : UbiBdev) (s : State) (e : Event) : Prop :=
  (∀ c env, e = .poll c env → env.Prompt) ∧ RingHasRoom dev s e.label

/-- Events other than submissions whose calls succeed. -/
def Favourable (dev : UbiBdev) (s : State) : Event → Prop
  | .submit .. | .getBuf .. => False
  | .poll _ env => env = .success
  | .uring c i res => ∀ sqe, (s.channel c).submitted[i]? = some sqe → res = dev.available sqe
  | .transfer .. | .sample .. | .land .. => True
  | .readDone _ success => success = true
  | .writeDone _ success ret | .flushDone _ success ret => success = true ∧ ret = 0

theorem Favourable.calm {e : Event} (h : Favourable dev s e) : Calm dev s e := by
  constructor
  · rintro c env rfl
    cases h
    exact prompt_success
  · rintro c x ⟨id, r, label, _⟩
    cases e <;> cases label
    exact False.elim h

section Frames

variable {losses : Bool}

/-- What a step leaves alone when it prepares nothing on any channel. -/
def Unprepared (losses : Bool) (c : ChId) (s t : State) : Prop :=
  Prompted losses c s t ∧ (t.channel c).sqes = (s.channel c).sqes

theorem act_unprepared {l : Label} (act : Act dev s l t) (labelled : l ≠ .quiet)
    (old : l.isSubmit = false) (lossless : losses = true → ∀ o, l ≠ .flushDone o false) :
    Unprepared losses c s t := by
  cases act
  all_goals try exact absurd rfl labelled
  all_goals try cases old
  case dataFlushFailed o op id flush cb =>
    cases losses with
    | true => exact absurd rfl (lossless rfl o)
    | false => exact ⟨by constructor <;> simp +contextual [Obs.mishap], rfl⟩
  case stripeWriteDone o op d k success write cb all =>
    refine ⟨?_, update_field UbiIoChannel.sqes (by rfl) c⟩
    constructor
    case sqes => exact fun e _ => update_field UbiIoChannel.sqes (by rfl) e
    all_goals simp +contextual [Obs.mishap]
  all_goals refine ⟨?_, by simp⟩; constructor <;> simp +contextual [Obs.mishap]

theorem eachBlock_unprepared {move : State → Nat → Except Halt State}
    (one : ∀ {s t b}, move s b = .ok t → Unprepared losses c s t) {blocks : List Nat}
    (h : eachBlock move blocks s = .ok t) : Unprepared losses c s t := by
  induction blocks generalizing s with
  | nil =>
      cases h
      exact ⟨.refl _, rfl⟩
  | cons b blocks ih =>
      rw [eachBlock] at h
      split at h
      · cases h
      · next next moved =>
        have first := one moved
        have rest := ih h
        exact ⟨first.1.trans rest.1, rest.2.trans first.2⟩

theorem sampleBlock_unprepared {o b : Nat} (h : sampleBlock dev o s b = .ok t) :
    Unprepared losses c s t := by
  unfold sampleBlock at h
  split at h
  · cases h
  split at h
  · cases h
    exact ⟨⟨rfl, rfl, fun _ _ => rfl, fun _ h _ => h⟩, rfl⟩
  · cases h

theorem landBlock_unprepared {o b : Nat} (h : landBlock o s b = .ok t) :
    Unprepared losses c s t := by
  unfold landBlock at h
  split at h
  · cases h
  split at h
  · cases h
  split at h
  · cases h
    exact ⟨⟨rfl, rfl, fun _ _ => rfl, fun _ h _ => h⟩, rfl⟩
  · cases h

theorem transferBlock_unprepared {o b : Nat} (h : transferBlock dev o s b = .ok t) :
    Unprepared losses c s t := by
  unfold transferBlock at h
  split at h
  · cases h
  split at h
  · cases h
    exact ⟨⟨rfl, rfl, fun _ _ => rfl, fun _ h _ => h⟩, rfl⟩
  · cases h

theorem uringComplete_unprepared {d : ChId} {i : Nat} {res : Int}
    (h : uringComplete dev s d i res = .ok t) : Unprepared losses c s t := by
  unfold uringComplete at h
  split at h
  · cases h
  next sqe entry =>
  split at h
  · cases h
    have filled : Unprepared losses c s (fillBuffer dev s d sqe res.toNat) := by
      unfold fillBuffer
      split
      · refine ⟨⟨rfl, rfl, fun e _ => ?_, fun _ h _ => h⟩, ?_⟩
        all_goals exact update_field UbiIoChannel.sqes (by rfl) _
      · exact ⟨⟨rfl, rfl, fun _ _ => rfl, fun _ h _ => h⟩, rfl⟩
    refine ⟨filled.1.trans ⟨rfl, rfl, fun e _ => ?_, fun _ h _ => h⟩, Eq.trans ?_ filled.2⟩
    all_goals exact update_field UbiIoChannel.sqes (by rfl) _
  · cases h

theorem readDone_unprepared {o : Nat} {success : Bool} (h : baseReadDone s o success = .ok t) :
    Unprepared losses c s t := by
  unfold baseReadDone at h
  split at h
  · cases h
  split at h
  · cases h
  · cases h
    rw [ubiIoCompletionCb, ubiCompleteIo_eq]
    exact ⟨by constructor <;> simp +contextual [Obs.mishap], by simp⟩

/-- Events other than submissions and polls prepare nothing, and only a data flush that fails
loses a request. -/
theorem event_unprepared {e : Event} (idle : ∀ id, s.waiting id = false)
    (unpolled : ∀ d env, e ≠ .poll d env) (old : e.label.isSubmit = false)
    (lossless : losses = true → ∀ o, e.label ≠ .flushDone o false) (h : step dev s e = .ok t) :
    Unprepared losses c s t := by
  cases e with
  | submit d id r => cases old
  | poll d env => exact absurd rfl (unpolled d env)
  | getBuf id success ret => simp [step, idle id] at h
  | uring d i res => exact uringComplete_unprepared h
  | transfer o blocks => exact eachBlock_unprepared transferBlock_unprepared h
  | sample o blocks => exact eachBlock_unprepared sampleBlock_unprepared h
  | land o blocks => exact eachBlock_unprepared landBlock_unprepared h
  | readDone o success => exact readDone_unprepared h
  | writeDone o success ret =>
      exact act_unprepared (baseWriteDone_act h) (by simp) rfl (by simp)
  | flushDone o success ret => exact act_unprepared (baseFlushDone_act h) (by simp) rfl lossless

theorem submit_atRest {id : ReqId} {r : Request} (atRest : AtRest s)
    (act : Act dev s (.submit c id r) t) : AtRest t := by
  obtain ⟨waiting, sqes, issued⟩ := atRest
  cases act
  case submitSpanning =>
    exact ⟨waiting, sqes, fun d k x => by simpa using issued d k x⟩
  all_goals
    refine ⟨waiting, fun d => ?_, fun d k x => by simpa using issued d k x⟩
    rw [update_field UbiIoChannel.sqes (by rfl) d]
    exact sqes d

end Frames

/-- What holds along a calm run. -/
structure Drainable (dev : UbiBdev) (s : State) : Prop where
  atRest : AtRest s
  requests : RequestsPlaced s
  fetches : FetchesPlaced dev s
  unforgotten : NoneForgotten s
  ring : RingCounted s
  kinds : LoggedKinds s
  inside : ∀ id r, s.request id = some r → r.offsetBlocks + r.numBlocks ≤ dev.ubiBlockcnt

theorem inside_act {l : Label}
    (inside : ∀ id r, s.request id = some r → r.offsetBlocks + r.numBlocks ≤ dev.ubiBlockcnt)
    (act : Act dev s l t) (id : ReqId) (r : Request) (known : t.request id = some r) :
    r.offsetBlocks + r.numBlocks ≤ dev.ubiBlockcnt := by
  have before := inside id r
  clear inside
  cases act <;> grind

namespace Drainable

theorem listed_known (inv : Drainable dev s) (c : ChId) (id : ReqId)
    (listed : id ∈ (s.channel c).io) : s.request id ≠ none := by
  have here : s.occurrences id (.listed c) ≠ 0 := by
    simpa [State.occurrences, List.count_eq_zero] using listed
  obtain ⟨r, known, _⟩ := inv.requests.suits_of_occurs here
  simp [known]

theorem atRest_step {e : Event} (found : StatusesFound dev) (inv : Drainable dev s)
    (calm : Calm dev s e) (h : step dev s e = .ok t) : AtRest t := by
  have other (unpolled : ∀ d env, e ≠ .poll d env) (old : e.label.isSubmit = false) :
      AtRest t := by
    have left : Unprepared false 0 s t :=
      event_unprepared inv.atRest.waiting unpolled old (by simp) h
    exact inv.atRest.of_prompted left.1 (left.2.trans (inv.atRest.sqes 0))
  cases e with
  | submit c id r =>
      obtain act | ⟨quiet, _⟩ := step_acts h
      · exact submit_atRest inv.atRest act
      · cases quiet
  | poll c env =>
      have takes : BaseTakes dev env false s := by simp [BaseTakes]
      obtain ⟨status, u, polled, atRest, _⟩ := poll_prompted (c := c) found (calm.1 c env rfl)
        takes inv.atRest inv.listed_known inv.ring
      rw [step, polled] at h
      cases h
      exact atRest
  | _ => exact other (by simp) rfl

end Drainable

theorem drainable_step {e : Event} (found : StatusesFound dev) (inv : Drainable dev s)
    (calm : Calm dev s e) (h : step dev s e = .ok t) : Drainable dev t := by
  have atRest := inv.atRest_step found calm h
  have run : Reach dev (Permitted (RingHasRoom dev)) s t := .tail .refl calm.2 h
  obtain ⟨requests, fetches, unforgotten, ring, kinds, inside⟩ := reach_invariant_permitted
    (P := fun s => RequestsPlaced s ∧ FetchesPlaced dev s ∧ NoneForgotten s ∧ RingCounted s ∧
      LoggedKinds s ∧
      ∀ id r, s.request id = some r → r.offsetBlocks + r.numBlocks ≤ dev.ubiBlockcnt)
    (Q := FetchesIssued)
    (by rintro s c x ⟨_, _, ⟨⟩, _⟩) fetchesIssued_earlier
    (fun {s t l} ⟨requests, fetches, unforgotten, ring, kinds, inside⟩ room issued act =>
      ⟨requestsPlaced_act requests act, fetchesPlaced_act fetches issued act,
        noneForgotten_effect unforgotten room (act_fetchEffect fetches.fresh fetches.bounded
          (fun _ _ _ => fetches.active_of_op) issued act),
        ringCounted_act ring act, loggedKinds_act requests kinds act, inside_act inside act⟩)
    run ⟨inv.requests, inv.fetches, inv.unforgotten, inv.ring, inv.kinds, inv.inside⟩
    atRest.issued
  exact ⟨atRest, requests, fetches, unforgotten, ring, kinds, inside⟩

theorem drainable_created {base : Bytes} (created : Created dev base s) : Drainable dev s := by
  have counted := entriesCounted_passes created .refl
  have start : Reach dev anyStep s s := .refl
  have kinds := loggedKinds_reach created start
  have hasReads (c : ChId) := hasReads_reach (c := c) created start
  obtain ⟨table, decoded, rfl⟩ := created
  refine ⟨⟨fun _ => rfl, fun _ => rfl, by simp [FetchesIssued, newState]⟩,
    requestsPlaced_newState base table, fetchesPlaced_newState dev base table, ?_,
    ⟨counted, hasReads⟩, kinds, by simp [newState]⟩
  intro x pending
  have pending : table.stripeStatus x = .inflight := pending
  rcases ubiFinishReadMetadata_status decoded x with fresh | ⟨_, fresh⟩ <;>
    simp [fresh] at pending

theorem drainable_reach {base : Bytes} (found : StatusesFound dev) (created : Created dev base s₀)
    (run : Reach dev (Calm dev) s₀ s) : Drainable dev s :=
  run.invariant (P := Drainable dev) (drainable_created created)
    fun _ inv calm move => drainable_step found inv calm move

/-- A call of the lower layers or a poll is due that succeeds and does some work. -/
def Advances (dev : UbiBdev) (s : State) : Prop :=
  ∃ e t, Favourable dev s e ∧ step dev s e = .ok t ∧ TransGen (Toiling dev) s t

theorem toils_of_act {l : Label} (act : Act dev s l t) (old : l.isSubmit = false) :
    TransGen (Toiling dev) s t := .single ⟨l, act, old⟩

theorem toils_of_quietly (acts : Quietly dev s t) : ReflTransGen (Toiling dev) s t :=
  ReflTransGen.mono (fun _ _ act => ⟨_, act, rfl⟩) _ _ acts

theorem read_advances {o : Nat} {op : BaseRead} (read : s.reads o = some op) : Advances dev s := by
  by_cases all : ∀ b, op.startBlock ≤ b → b < op.startBlock + op.numBlocks → op.done b = true
  · have done : ∃ t, baseReadDone s o true = .ok t := by
      simp [baseReadDone, read, allBlocks_iff.mpr all]
    obtain ⟨t, done⟩ := done
    exact ⟨.readDone o true, t, rfl, done, toils_of_act (baseReadDone_act done) rfl⟩
  · push Not at all
    obtain ⟨b, low, high, missing⟩ := all
    have moved : ∃ t, transferBlock dev o s b = .ok t := by
      simp [transferBlock, read, inRange_iff.mpr ⟨low, high⟩, missing]
    obtain ⟨t, moved⟩ := moved
    exact ⟨.transfer o [b], t, trivial, by simp [step, eachBlock, moved],
      toils_of_act (transferBlock_act moved) rfl⟩

/-- A base write samples its blocks, lands them, and completes. -/
theorem write_advances {o : Nat} {op : BaseWrite} (write : s.writes o = some op) :
    Advances dev s := by
  by_cases sampled : ∀ b, op.startBlock ≤ b → b < op.startBlock + op.numBlocks → op.sampled b ≠ none
  · by_cases landed : ∀ b, op.startBlock ≤ b → b < op.startBlock + op.numBlocks → op.landed b ≠ none
    · have all : allBlocks op.startBlock op.numBlocks (fun b => (op.landed b).isSome) = true :=
        allBlocks_iff.mpr fun b low high => Option.isSome_iff_ne_none.mpr (landed b low high)
      have done : ∃ t, baseWriteDone dev s o true 0 = .ok t := by
        simp only [baseWriteDone, write, all]
        cases op.cb <;> simp
      obtain ⟨t, done⟩ := done
      exact ⟨.writeDone o true 0, t, ⟨rfl, rfl⟩, done, toils_of_act (baseWriteDone_act done) rfl⟩
    · push Not at landed
      obtain ⟨b, low, high, missing⟩ := landed
      obtain ⟨data, sample⟩ := Option.ne_none_iff_exists'.mp (sampled b low high)
      have moved : ∃ t, landBlock o s b = .ok t := by simp [landBlock, write, sample, missing]
      obtain ⟨t, moved⟩ := moved
      exact ⟨.land o [b], t, trivial, by simp [step, eachBlock, moved],
        toils_of_act (landBlock_act moved) rfl⟩
  · push Not at sampled
    obtain ⟨b, low, high, missing⟩ := sampled
    have moved : ∃ t, sampleBlock dev o s b = .ok t := by
      simp [sampleBlock, write, inRange_iff.mpr ⟨low, high⟩, missing]
    obtain ⟨t, moved⟩ := moved
    exact ⟨.sample o [b], t, trivial, by simp [step, eachBlock, moved],
      toils_of_act (sampleBlock_act moved) rfl⟩

theorem flush_advances {o : Nat} {op : BaseFlush} (flush : s.flushes o = some op) :
    Advances dev s := by
  have done : ∃ t, baseFlushDone dev s o true 0 = .ok t := by
    simp only [baseFlushDone, flush]
    cases op.cb <;> simp
  obtain ⟨t, done⟩ := done
  exact ⟨.flushDone o true 0, t, ⟨rfl, rfl⟩, done, toils_of_act (baseFlushDone_act done) rfl⟩

theorem submitted_advances (some : (s.channel c).submitted ≠ []) : Advances dev s := by
  obtain ⟨sqe, rest, first⟩ := List.exists_cons_of_ne_nil some
  have entry : (s.channel c).submitted[0]? = .some sqe := by simp [first]
  have done : ∃ t, uringComplete dev s c 0 (dev.available sqe) = .ok t := by
    simp [uringComplete, entry]
  obtain ⟨t, done⟩ := done
  refine ⟨.uring c 0 (dev.available sqe), t, fun sqe' entry' => ?_, done,
    toils_of_act (uringComplete_act done) rfl⟩
  cases entry.symm.trans entry'
  rfl

theorem takes_success (inv : Drainable dev s) : BaseTakes dev .success true s := by
  intro id r known _
  have inside := inv.inside id r known
  have fits : dev.dataOffsetBlocks ≤ dev.blockcnt := dev.accepted.fits
  simp only [UbiBdev.ubiBlockcnt] at inside
  simp only [baseAccepts, PollEnv.success, Bool.and_eq_true, decide_eq_true_eq]
  exact ⟨by omega, rfl⟩

theorem ubiCompleteImageIo_toils (dev : UbiBdev) (env : PollEnv) (some : (s.channel c).cqes ≠ []) :
    TransGen (Toiling dev) s (ubiCompleteImageIo dev s c env).2 := by
  obtain ⟨cqe, rest, first⟩ := List.exists_cons_of_ne_nil some
  have batch : min 64 (s.channel c).cqes.length = min 63 rest.length + 1 := by
    rw [first, List.length_cons]
    omega
  rw [ubiCompleteImageIo, batch, completeBatch]
  simp only [first]
  exact (toils_of_act (completeCqe_act _ first) rfl).trans_left
    (toils_of_quietly (completeBatch_acts _ _ _ _ _ _))

theorem ubiCompleteImageIo_none {env : PollEnv} (none : (s.channel c).cqes = []) :
    ubiCompleteImageIo dev s c env = (0, s) := by
  simp [ubiCompleteImageIo, none, completeBatch]

theorem startStripeFetches_toils {env : PollEnv} {k : Nat} {free : List Nat}
    (nodup : (k :: free).Nodup) (idle : ∀ j ∈ k :: free, (s.slot c j).active = false)
    (slots : ∀ j ∈ k :: free, j < ubiMaxActiveStripeFetches)
    (nonempty : stripeQueueEmpty (s.channel c) = false)
    (h : startStripeFetches dev c env (k :: free) s = .ok t) : TransGen (Toiling dev) s t := by
  rw [startStripeFetches, nonempty] at h
  simp only [Bool.false_eq_true, if_false] at h
  split at h
  · cases h
  next next started =>
  obtain ⟨fresh, nodup⟩ := List.nodup_cons.mp nodup
  have act := startFetch_act (by simpa [stripeQueueEmpty] using nonempty)
    (idle k List.mem_cons_self) (slots k List.mem_cons_self) started
  have still (j : Nat) (hj : j ∈ free) : (next.slot c j).active = false := by
    rw [startFetch_other (by rintro rfl; exact fresh hj) started]
    exact idle j (List.mem_cons_of_mem _ hj)
  exact (toils_of_act act rfl).trans_left (toils_of_quietly
    (startStripeFetches_acts nodup still (fun j hj => slots j (List.mem_cons_of_mem _ hj)) h))

theorem startStripeFetches_none {env : PollEnv} (free : List Nat)
    (empty : stripeQueueEmpty (s.channel c) = true) :
    startStripeFetches dev c env free s = .ok s := by
  cases free with
  | nil => rfl
  | cons k free => rw [startStripeFetches, if_pos empty]

theorem processIo_toils {env : PollEnv} {id : ReqId} {rest : List ReqId}
    (io : (s.channel c).io = id :: rest)
    (first : processFirst dev s c id rest env = .ok (true, u))
    (h : processIo dev c env (s.channel c).io s = .ok t) : TransGen (Toiling dev) s t := by
  rw [io, processIo, first] at h
  obtain ⟨acts, left⟩ := processFirst_acts io first
  have changed : u ≠ s := by
    rintro rfl
    have same := left rfl
    rw [io] at same
    simp at same
  have toils := (reflTransGen_iff_eq_or_transGen.mp (toils_of_quietly acts)).resolve_left changed
  exact toils.trans_left (toils_of_quietly (processIo_acts (left rfl) h))

theorem map_true {b : Bool} {x : Except Halt State}
    (h : (x.map fun next => (true, next)) = .ok (b, t)) : b = true := by
  cases x with
  | error _ => cases h
  | ok _ =>
      cases h
      rfl

section Polls

variable (found : StatusesFound dev) (inv : Drainable dev s)

include found inv

theorem cqe_advances (some : (s.channel c).cqes ≠ []) : Advances dev s := by
  have toils := ubiCompleteImageIo_toils dev .success some
  by_cases busy : ((s.channel c).io.isEmpty && stripeQueueEmpty (s.channel c)) = false
  · obtain ⟨fetching, processed, _, begun, looped, polled, _⟩ := poll_stages found prompt_success
      (takes_success inv) inv.atRest inv.listed_known (c := c) busy
    refine ⟨.poll c .success, _, rfl, by rw [step, polled]; rfl, ?_⟩
    exact toils.trans_left (((toils_of_quietly begun).trans
      (toils_of_quietly (processIo_acts rfl looped))).trans
        (toils_of_quietly (submitReads_acts _ _ _)))
  · have empty : ((s.channel c).io.isEmpty && stripeQueueEmpty (s.channel c)) = true := by
      simpa using busy
    refine ⟨.poll c .success, (ubiCompleteImageIo dev s c .success).2, rfl, ?_, toils⟩
    simp only [step, ubiIoPoll, empty, Bool.true_and, if_true]
    split <;> rfl

theorem queue_advances (none : (s.channel c).cqes = [])
    (nonempty : stripeQueueEmpty (s.channel c) = false)
    (free : ∀ k, (s.slot c k).active = false) : Advances dev s := by
  obtain ⟨fetching, processed, started, _, looped, polled, _⟩ := poll_stages found prompt_success
    (takes_success inv) inv.atRest inv.listed_known (c := c) (by simp [nonempty])
  rw [ubiCompleteImageIo_none none] at started
  obtain ⟨nodup, slots⟩ := freeStripeFetches_spec (s.channel c)
  have all : freeStripeFetches (s.channel c) = 0 :: (List.range 7).map (· + 1) := by
    have every : (List.range ubiMaxActiveStripeFetches).filter
        (fun k => !((s.channel c).stripeFetches k).active) =
        List.range ubiMaxActiveStripeFetches :=
      List.filter_eq_self.mpr fun k _ => by simp [free k]
    rw [freeStripeFetches, every]
    rfl
  rw [all] at nodup slots started
  have toils := startStripeFetches_toils nodup (fun k hk => (slots k hk).1)
    (fun k hk => (slots k hk).2) nonempty started
  refine ⟨.poll c .success, _, rfl, by rw [step, polled]; rfl, ?_⟩
  exact toils.trans_left ((toils_of_quietly (processIo_acts rfl looped)).trans
    (toils_of_quietly (submitReads_acts _ _ _)))

theorem list_advances {id : ReqId} {rest : List ReqId} (none : (s.channel c).cqes = [])
    (empty : stripeQueueEmpty (s.channel c) = true) (io : (s.channel c).io = id :: rest)
    (limit : (s.channel c).activeReads < ubiMaxConcurrentReads)
    (landed : ∀ x, s.stripeStatus x ≠ .inflight) : Advances dev s := by
  obtain ⟨fetching, processed, started, _, looped, polled, _⟩ := poll_stages found prompt_success
    (takes_success inv) inv.atRest inv.listed_known (c := c) (by simp [io])
  rw [ubiCompleteImageIo_none none, startStripeFetches_none _ empty] at started
  cases started
  obtain ⟨r, req⟩ := Option.ne_none_iff_exists'.mp (inv.listed_known c id (by simp [io]))
  obtain ⟨b, u, first, _⟩ := processFirst_prompted (c := c) found prompt_success rest
    (takes_success inv) inv.atRest.waiting req
  have taken : b = true := by
    unfold processFirst at first
    simp only [req] at first
    rw [if_neg (by omega)] at first
    split at first
    · next image =>
      split at first
      · cases first
      · cases first
        rfl
      · next gate =>
        obtain ⟨x, _, _, inflight⟩ := ubiGetStripeStatus_eq_some.mp gate
        exact absurd inflight (landed x)
      · split at first
        · cases first
          rfl
        · exact map_true first
      · exact map_true first
    · exact map_true first
  subst taken
  refine ⟨.poll c .success, _, rfl, by rw [step, polled]; rfl, ?_⟩
  exact (processIo_toils io first looped).trans_left (toils_of_quietly (submitReads_acts _ _ _))

end Polls

/-- The request is neither completed nor lost. -/
def Unanswered (s : State) (id : ReqId) : Prop :=
  s.request id ≠ none ∧ ¬ Lost id s.log ∧ ∀ ok, .completed id ok ∉ s.log

/-- Nothing of the layers below is outstanding, nor is a completion to be seen. -/
structure Quieted (s : State) : Prop where
  reads : ∀ o, s.reads o = none
  writes : ∀ o, s.writes o = none
  flushes : ∀ o, s.flushes o = none
  ring : ∀ c, s.ringEntries c = []

theorem quieted_or_advances (found : StatusesFound dev) (inv : Drainable dev s) :
    Quieted s ∨ Advances dev s := by
  by_contra stuck
  obtain ⟨busy, idle⟩ := not_or.mp stuck
  apply busy
  refine ⟨fun o => ?_, fun o => ?_, fun o => ?_, fun c => ?_⟩
  · by_contra some
    obtain ⟨op, read⟩ := Option.ne_none_iff_exists'.mp some
    exact idle (read_advances read)
  · by_contra some
    obtain ⟨op, write⟩ := Option.ne_none_iff_exists'.mp some
    exact idle (write_advances write)
  · by_contra some
    obtain ⟨op, flush⟩ := Option.ne_none_iff_exists'.mp some
    exact idle (flush_advances flush)
  · have submitted : (s.channel c).submitted = [] := by
      by_contra some
      exact idle (submitted_advances some)
    have cqes : (s.channel c).cqes = [] := by
      by_contra some
      exact idle (cqe_advances found inv some)
    simp [State.ringEntries, inv.atRest.sqes c, submitted, cqes]

section Quieted

variable (inv : Drainable dev s) (quiet : Quieted s)

include inv quiet

theorem Quieted.free (c : ChId) (k : Nat) : (s.slot c k).active = false := by
  obtain ⟨op, counts, idle⟩ := inv.fetches.slots c k
  cases op with
  | none => exact idle.mp rfl
  | some op =>
      have owner := counts.eq_one
      cases op with
      | ring => simp [State.slotOps, quiet.ring c] at owner
      | write o => simp [State.slotOps, quiet.writes o] at owner

theorem Quieted.listed {id : ReqId} (waits : Unanswered s id) : ∃ c, id ∈ (s.channel c).io := by
  obtain ⟨known, kept, uncompleted⟩ := waits
  obtain ⟨r, known⟩ := Option.ne_none_iff_exists'.mp known
  obtain ⟨p, counts, _⟩ | lost := inv.requests.placed_or_lost known
  · have here := counts.eq_one
    cases p with
    | listed c => exact ⟨c, List.count_pos_iff.mp (by simp only [State.occurrences] at here; omega)⟩
    | buffer => simp [State.occurrences, inv.atRest.waiting id] at here
    | ring c => simp [State.occurrences, quiet.ring c] at here
    | baseRead o => simp [State.occurrences, quiet.reads o] at here
    | baseWrite o | metadataWrite o => simp [State.occurrences, quiet.writes o] at here
    | dataFlush o | metadataFlush o => simp [State.occurrences, quiet.flushes o] at here
    | completed =>
        obtain ⟨o, logged, done⟩ := List.countP_pos_iff.mp (by
          simp only [State.occurrences] at here
          omega : 0 < s.log.countP (Obs.completes id))
        cases o with
        | completed j ok =>
            obtain rfl : j = id := by simpa [Obs.completes] using done
            exact absurd logged (uncompleted ok)
        | _ => cases done
  · exact absurd lost kept

theorem Quieted.activeReads (c : ChId) : (s.channel c).activeReads = 0 := by
  obtain ⟨F, mem, card⟩ := inv.ring.entries.reads.counted c
  rw [← card, Finset.card_eq_zero, Finset.eq_empty_iff_forall_notMem]
  intro id inside
  obtain ⟨taken, ⟨r, known, read⟩, uncompleted⟩ := (mem id).mp inside
  have unlost : ¬ Lost id s.log := by
    rintro (refused | failed)
    · obtain ⟨r', known', write⟩ := inv.kinds.write id false refused
      cases known.symm.trans known'
      simp [read] at write
    · obtain ⟨r', known', flush⟩ := inv.kinds.flush id false failed
      cases known.symm.trans known'
      simp [read] at flush
  obtain ⟨d, listed⟩ := quiet.listed inv ⟨by simp [known], unlost, uncompleted⟩
  exact inv.ring.entries.reads.once.unlisted c d id taken listed

end Quieted

/-- As long as a request is neither completed nor lost, something is due that does work. -/
theorem unanswered_advances (found : StatusesFound dev) (inv : Drainable dev s) {id : ReqId}
    (waits : Unanswered s id) : Advances dev s := by
  by_contra stuck
  have quiet := (quieted_or_advances found inv).resolve_right stuck
  have cqes (c : ChId) : (s.channel c).cqes = [] := by
    have ring := quiet.ring c
    simp only [State.ringEntries, List.append_eq_nil_iff, List.map_eq_nil_iff] at ring
    exact ring.2
  have empty (c : ChId) : stripeQueueEmpty (s.channel c) = true := by
    by_contra nonempty
    exact stuck (queue_advances found inv (cqes c) (by simpa using nonempty) (quiet.free inv c))
  have landed (x : Nat) : s.stripeStatus x ≠ .inflight := by
    intro inflight
    obtain ⟨p, there⟩ := inv.unforgotten x inflight
    cases p with
    | queued c =>
        have none : (s.queue c).contents ubiFetchQueueSize = [] :=
          (CircularQueue.contents_eq_nil (inv.fetches.bounded c)).mpr
            (by simpa [stripeQueueEmpty] using empty c)
        simp [State.stripePlaces, none] at there
    | slot c k => simp [State.stripePlaces, quiet.free inv c k] at there
  obtain ⟨c, listed⟩ := quiet.listed inv waits
  obtain ⟨first, rest, io⟩ := List.exists_cons_of_ne_nil (List.ne_nil_of_mem listed)
  exact stuck (list_advances found inv (cqes c) (empty c) io
    (by rw [quiet.activeReads inv c]; decide) landed)

theorem favourable_prompted {e : Event} (found : StatusesFound dev) (inv : Drainable dev s)
    (favourable : Favourable dev s e) (h : step dev s e = .ok t) :
    t.request = s.request ∧ ∀ id, Lost id t.log → Lost id s.log := by
  have left : ∃ c, Prompted true c s t := by
    cases e with
    | submit c id r => exact False.elim favourable
    | poll c env =>
        cases favourable
        obtain ⟨status, u, polled, _, left⟩ := poll_prompted (c := c) found prompt_success
          (takes_success inv) inv.atRest inv.listed_known inv.ring
        rw [step, polled] at h
        cases h
        exact ⟨c, left⟩
    | flushDone o success ret =>
        obtain ⟨rfl, rfl⟩ := favourable
        exact ⟨0, (event_unprepared inv.atRest.waiting (by simp) rfl (by simp [Event.label]) h).1⟩
    | _ =>
        exact ⟨0, (event_unprepared inv.atRest.waiting (by simp) rfl (by simp [Event.label]) h).1⟩
  obtain ⟨c, left⟩ := left
  refine ⟨left.request, fun id => Or.imp ?_ ?_⟩
  · exact fun refused => left.log _ refused rfl
  · exact fun failed => left.log _ failed rfl

/-- The induction is on the work that is left. -/
theorem drains {C : Finset ChId} {K : Finset ReqId} (found : StatusesFound dev) (n : Nat)
    (inv : Drainable dev s) (workable : Workable dev C K s) (bound : s.work dev C K ≤ n) :
    ∃ t, Reach dev (Favourable dev) s t ∧ t.request = s.request ∧
      ∀ id, s.request id ≠ none → ¬ Lost id s.log → ∃ ok, .completed id ok ∈ t.log := by
  induction n using Nat.strong_induction_on generalizing s with
  | _ n ih =>
    by_cases waits : ∃ id, Unanswered s id
    · obtain ⟨id, waits⟩ := waits
      obtain ⟨e, next, favourable, move, toils⟩ := unanswered_advances found inv waits
      obtain ⟨workable, less⟩ := workable.toils toils
      obtain ⟨same, unlost⟩ := favourable_prompted found inv favourable move
      obtain ⟨t, run, request, answered⟩ := ih (next.work dev C K) (by omega)
        (drainable_step found inv favourable.calm move) workable (Nat.le_refl _)
      refine ⟨t, ?_, request.trans same, fun id known kept => ?_⟩
      · exact Runs.Reach.trans (.tail .refl favourable move) run
      · exact answered id (by rwa [same]) fun lost => kept (unlost id lost)
    · refine ⟨s, .refl, rfl, fun id known kept => ?_⟩
      by_contra none
      exact waits ⟨id, known, kept, fun ok done => none ⟨ok, done⟩⟩

def calmTest (s : State) : Event → Bool
  | .poll .. => false
  | e => roomTest s e

theorem calmTest_sound (dev : UbiBdev) (s : State) (e : Event) (h : calmTest s e = true) :
    Calm dev s e := by
  constructor
  · rintro c env rfl
    cases h
  · apply roomTest_sound
    cases e <;> first | exact h | cases h

/-- A WRITE that waits for its stripe on one channel, a READ behind it on the other, and a
FLUSH. -/
def threeKinds : List Event :=
  [.submit 0 0 ⟨.write, 0, 1, fun _ => 5⟩, .submit 1 1 ⟨.read, 0, 1, fun _ => 0⟩,
    .submit 1 2 ⟨.flush, 0, 3, fun _ => 0⟩]

end BdevUbi
