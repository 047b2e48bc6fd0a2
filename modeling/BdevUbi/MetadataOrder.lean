import BdevUbi.WriteThrough

/-!
Metadata writes that take effect in the order of their submission. A FLUSH that finds as many
stripes flushed as fetched completes without a metadata write of its own. With the writes of
earlier FLUSHes in order this is right: a stripe counts as flushed when a write that noted it
is durable, and what takes effect after that write was submitted after it and noted the
stripe, too.
-/

namespace BdevUbi
open VolatileDisk

variable {dev : UbiBdev} {s₀ s t : State} {l : Label} {x k : Nat}

/-- Metadata write `o` has made version `v` of block `b`. -/
def MetadataVersion (s : State) (o b v : Nat) : Prop :=
  ∃ op id, s.writes o = some op ∧ op.cb = .metadata id ∧ op.landed b = some v

/-- The versions metadata writes make of a block are made in the order of submission. -/
def InSubmissionOrder (states : List State) : Prop :=
  ∀ u ∈ states, ∀ u' ∈ states, ∀ o o' b v v', MetadataVersion u o b v →
    MetadataVersion u' o' b v' → o < o' → v < v'

theorem metadataVersion_quiet (fresh : OpsFresh s) (act : Act dev s .quiet t) {o b v : Nat}
    (made : MetadataVersion s o b v) : MetadataVersion t o b v := by
  obtain ⟨op, id, write, cb, landed⟩ := made
  cases act_writeEffect act with
  | stay writes => exact ⟨op, id, by rwa [writes], cb, landed⟩
  | start new writes =>
      have old : o ≠ s.nextWrite := by
        rintro rfl
        simp [fresh.writes _ le_rfl] at write
      exact ⟨op, id, by rwa [writes, Function.update_of_ne old], cb, landed⟩
  | sample o' op' b' write' _ _ after =>
      subst after
      by_cases same : o = o'
      · subst same
        obtain rfl := Option.some.inj (write.symm.trans write')
        exact ⟨{ op with sampled := _ }, id, Function.update_self .., cb, landed⟩
      · exact ⟨op, id, (Function.update_of_ne same ..).trans write, cb, landed⟩
  | land o' op' b' data write' _ new after =>
      subst after
      by_cases same : o = o'
      · subst same
        obtain rfl := Option.some.inj (write.symm.trans write')
        have other : b ≠ b' := by
          rintro rfl
          simp [new] at landed
        exact ⟨{ op with landed := _ }, id, Function.update_self .., cb,
          (Function.update_of_ne other ..).trans landed⟩
      · exact ⟨op, id, (Function.update_of_ne same ..).trans write, cb, landed⟩
  | finish _ _ _ label => cases label

/-- What an outstanding metadata write has noted, it noted before, or the write is the newest
one and has noted every fetched stripe. -/
theorem noted_act (inv : RequestsPlaced s) (act : Act dev s l t) {o : Nat} {op' : BaseWrite}
    {id : ReqId} (write' : t.writes o = some op') (cb' : op'.cb = .metadata id) :
    (∃ op, s.writes o = some op ∧ op.cb = .metadata id ∧ t.captured id = s.captured id) ∨
      (o = s.nextWrite ∧ t.captured id = s.stripesFetched) := by
  cases write_origin act write' with
  | old op write cb =>
      have cb := cb.symm.trans cb'
      exact .inl ⟨op, write, cb, captured_of_write inv act write cb⟩
  | new here =>
      rcases metadataWrite_origin act write' cb' with ⟨op, write, _⟩ |
        ⟨_, _, _, _, _, _, _, _, _, _, captured⟩
      · simp [here, inv.fresh.writes _ le_rfl] at write
      · exact .inr ⟨here, captured⟩

theorem capturesBounded_act (inv : RequestsPlaced s) (before : CapturesBounded s)
    (act : Act dev s l t) : CapturesBounded t := by
  have grown := stripesFetched_mono act
  refine ⟨?_, fun o op' id write' cb' => ?_, fun o op id flush' cb => ?_⟩
  · have old := before.flushed
    rcases flushed_act act with kept | ⟨o, op, id, _, flush, cb, _, more⟩
    · omega
    · have := before.flushes o op id flush cb
      omega
  · rcases noted_act inv act write' cb' with ⟨op, write, cb, kept⟩ | ⟨_, noted⟩
    · rw [kept]
      exact (before.writes o op id write cb).trans grown
    · rwa [noted]
  · obtain ⟨kept, source⟩ := captured_flush_act inv act flush' cb
    rw [kept]
    rcases source with flush | ⟨o', wop, write, cb'⟩
    · exact (before.flushes o op id flush cb).trans grown
    · exact (before.writes o' wop id write cb').trans grown

def CapturesMonotone (s : State) : Prop :=
  ∀ o o' op op' id id', s.writes o = some op → op.cb = .metadata id → s.writes o' = some op' →
    op'.cb = .metadata id' → o ≤ o' → s.captured id ≤ s.captured id'

theorem capturesMonotone_act (inv : RequestsPlaced s) (bounded : CapturesBounded s)
    (before : CapturesMonotone s) (act : Act dev s l t) : CapturesMonotone t := by
  intro o₁ o₂ op₁' op₂' id₁ id₂ write₁' cb₁' write₂' cb₂' le
  rcases noted_act inv act write₁' cb₁' with ⟨op₁, write₁, cb₁, kept₁⟩ | ⟨last, noted₁⟩ <;>
    rcases noted_act inv act write₂' cb₂' with ⟨op₂, write₂, cb₂, kept₂⟩ | ⟨_, noted₂⟩
  · rw [kept₁, kept₂]
    exact before o₁ o₂ op₁ op₂ id₁ id₂ write₁ cb₁ write₂ cb₂ le
  · rw [kept₁, noted₂]
    exact bounded.writes o₁ op₁ id₁ write₁ cb₁
  · -- no write is newer than the one just submitted
    rw [inv.fresh.writes o₂ (last ▸ le)] at write₂
    cases write₂
  · rw [noted₁, noted₂]

section Order

-- the versions the metadata writes of a run ever make: write, block and version
variable {made : Nat → Nat → Nat → Prop}

/-- Every metadata write that has not noted `k` stripes is older than one that has taken effect
on block `b`. -/
def Behind (made : Nat → Nat → Nat → Prop) (k : Nat) (s : State) (b : Nat) : Prop :=
  ∀ o op id, s.writes o = some op → op.cb = .metadata id → s.captured id < k →
    ∃ o' v, o < o' ∧ made o' b v ∧ v ≤ s.disk.latest b

theorem behind_act (inv : RequestsPlaced s) (rank : k ≤ s.stripesFetched) {b : Nat}
    (before : Behind made k s b) (act : Act dev s l t) : Behind made k t b := by
  intro o op' id write' cb' stale
  rcases noted_act inv act write' cb' with ⟨op, write, cb, kept⟩ | ⟨_, noted⟩
  · rw [kept] at stale
    obtain ⟨o', v, older, landed, low⟩ := before o op id write cb stale
    exact ⟨o', v, older, landed, low.trans (latest_mono act b)⟩
  · omega

/-- On a block claimed for the first `k` stripes no write that noted fewer is still to come. -/
structure ClaimsBehind (dev : UbiBdev) (made : Nat → Nat → Nat → Prop) (k : Nat) (s : State) :
    Prop where
  flushing : ∀ o op id, s.flushes o = some op → op.cb = .metadata id → k ≤ s.captured id →
    ∀ b, b < dev.dataOffsetBlocks → Behind made k s b
  flushed : k ≤ s.stripesFlushed → ∀ b, b < dev.dataOffsetBlocks → Behind made k s b

theorem claimsBehind_act (inv : RequestsPlaced s) (matched : WritesMatch dev s)
    (monotone : CapturesMonotone s) (seen : ∀ o b v, MetadataVersion s o b v → made o b v)
    (rank : k ≤ s.stripesFetched) (before : ClaimsBehind dev made k s) (act : Act dev s l t) :
    ClaimsBehind dev made k t := by
  refine ⟨fun o op id flush' cb noted b front => ?_, fun noted b front => ?_⟩
  · obtain ⟨kept, _⟩ := captured_flush_act inv act flush' cb
    rw [kept] at noted
    rcases flush_origin act flush' with flush | ⟨_, issued⟩
    · exact behind_act inv rank (before.flushing o op id flush cb noted b front) act
    · -- the write that has just completed is newer than the stale ones
      simp only [FlushIssued, cb] at issued
      obtain ⟨o', wop, _, write, cb', all, _, _⟩ := issued
      obtain ⟨start, blocks⟩ := (matched o' wop write).metadata id cb'
      obtain ⟨v, landed⟩ := Option.ne_none_iff_exists'.mp (all b (by omega) (by omega))
      have known := seen o' b v ⟨wop, id, write, cb', landed⟩
      have low := ((matched o' wop write).landed b v landed).2.2
      refine behind_act inv rank (fun o₂ op₂ id₂ write₂ cb₂ stale => ⟨o', v, ?_, known, low⟩) act
      by_contra newer
      have := monotone o' o₂ wop op₂ id id₂ write cb' write₂ cb₂ (Nat.not_lt.mp newer)
      omega
  · by_cases already : k ≤ s.stripesFlushed
    · exact behind_act inv rank (before.flushed already b front) act
    · rcases flushed_act act with kept | ⟨o, op, id, _, flush, cb, _, more⟩
      · exact absurd (kept ▸ noted) already
      · exact behind_act inv rank (before.flushing o op id flush cb (by omega) b front) act

/-- What takes effect on a claimed block has noted the stripes it is claimed for. -/
theorem fresh_of_order (ordered : ∀ o o' b v v', made o b v → made o' b v' → o < o' → v < v')
    (matched : WritesMatch dev s) (monotone : CapturesMonotone s)
    (seen : ∀ o b v, MetadataVersion s o b v → made o b v)
    (seen' : ∀ o b v, MetadataVersion t o b v → made o b v) (behind : ClaimsBehind dev made k s)
    {b : Nat} (front : b < dev.dataOffsetBlocks) (claimed : Claimed k s b) {o v : Nat}
    {op op' : BaseWrite} {id : ReqId} (write : s.writes o = some op) (cb : op.cb = .metadata id)
    (write' : t.writes o = some op') (cb' : op'.cb = .metadata id) (landed : op'.landed b = some v)
    (new : s.disk.latest b < v) : k ≤ s.captured id := by
  by_contra stale
  have stale := Nat.not_le.mp stale
  obtain ⟨o', v', older, made', low⟩ : ∃ o' v', o < o' ∧ made o' b v' ∧ v' ≤ s.disk.latest b := by
    rcases claimed with ⟨o', wop, id', v', write₂, cb₂, noted, landed'⟩ |
      ⟨o', fop, id', flush, cb₂, noted⟩ | flushed
    · refine ⟨o', v', ?_, seen o' b v' ⟨wop, id', write₂, cb₂, landed'⟩,
        ((matched o' wop write₂).landed b v' landed').2.2⟩
      by_contra newer
      have := monotone o' o wop op id' id write₂ cb₂ write cb (Nat.not_lt.mp newer)
      omega
    · exact behind.flushing o' fop id' flush cb₂ noted b front o op id write cb stale
    · exact behind.flushed flushed b front o op id write cb stale
  have := ordered o o' b v v' (seen' o b v ⟨op', id, write', cb', landed⟩) made' older
  omega

/-- What a run with metadata writes in order keeps about the header of stripe `x`. -/
structure OrderInv (dev : UbiBdev) (made : Nat → Nat → Nat → Prop) (init : Nat → StripeStatus)
    (x : Nat) (s : State) : Prop where
  life : Lifecycle dev init s
  writes : WritesMatch dev s
  marks : MarksSettled s
  bounded : CapturesBounded s
  monotone : CapturesMonotone s
  seen : ∀ o b v, MetadataVersion s o b v → made o b v
  header : s.stripeStatus x = .fetched → ∃ k, HeaderCarried dev x k s ∧ ClaimsBehind dev made k s

theorem claimsBehind_new (bounded : CapturesBounded s) (act : Act dev s l t)
    (after : t.stripeStatus x = .fetched) (earlier : s.stripeStatus x ≠ .fetched) :
    ClaimsBehind dev made t.stripesFetched t := by
  obtain ⟨o, op, c, j, success, rfl, write, cb, _⟩ := fetched_act act after earlier
  obtain ⟨flushes, bdevIo, flushed, more, _⟩ := stripe_finish_flushes act write cb
  refine ⟨fun o' op' id flush' cb' noted => ?_, fun noted => ?_⟩
  · have := bounded.flushes o' op' id (flushes ▸ flush') cb'
    rw [State.captured, bdevIo, more] at noted
    exact absurd (noted.trans this) (Nat.not_succ_le_self _)
  · have := bounded.flushed
    omega

theorem orderInv_act {init : Nat → StripeStatus}
    (ordered : ∀ o o' b v v', made o b v → made o' b v' → o < o' → v < v')
    (settled : ∀ x, init x = .notFetched ∨ init x = .fetched) (inv : OrderInv dev made init x s)
    (issued : FetchesIssued t.log) (seen' : ∀ o b v, MetadataVersion t o b v → made o b v)
    (act : Act dev s l t) : OrderInv dev made init x t where
  life := lifecycle_act settled inv.life issued act
  writes := writesMatch_act inv.writes act
  marks := marksSettled_act inv.marks act
  bounded := capturesBounded_act inv.life.requests inv.bounded act
  monotone := capturesMonotone_act inv.life.requests inv.bounded inv.monotone act
  seen := seen'
  header after := by
    by_cases earlier : s.stripeStatus x = .fetched
    · obtain ⟨k, carried, behind⟩ := inv.header earlier
      refine ⟨k, headerCarried_of_fresh carried inv.life.placed inv.life.requests inv.writes
        inv.marks earlier act ?_, claimsBehind_act inv.life.requests inv.writes inv.monotone
          inv.seen carried.rank behind act⟩
      intro b front claimed o op op' id v write cb write' cb' landed new
      exact fresh_of_order ordered inv.writes inv.monotone inv.seen seen' behind front claimed write
        cb write' cb' landed new
    · exact ⟨t.stripesFetched, headerCarried_new inv.bounded act after earlier,
        claimsBehind_new inv.bounded act after earlier⟩

theorem orderInv_created {base : Bytes} (created : Created dev base s) :
    OrderInv dev made s.stripeStatus x s where
  life := lifecycle_created created
  writes := writesMatch_created created
  marks := marksSettled_created created
  bounded := (capturesOrdered_created created).bounded
  monotone := by
    obtain ⟨table, _, rfl⟩ := created
    simp [CapturesMonotone, newState]
  seen := by
    obtain ⟨table, _, rfl⟩ := created
    simp [MetadataVersion, newState]
  header fetched := by
    refine ⟨0, (headerInv_created created x).carried fetched, ?_⟩
    obtain ⟨table, _, rfl⟩ := created
    exact ⟨by simp [newState], fun _ b _ o op id write => by simp [newState] at write⟩

end Order

variable {base : Bytes} {past : List (State × Event)}

abbrev statesOf (past : List (State × Event)) (s : State) : List State := s :: past.map Prod.fst

/-- An event keeps the invariant if what its metadata writes have made by its end is known. -/
theorem orderInv_step {made : Nat → Nat → Nat → Prop} {init : Nat → StripeStatus} {e : Event}
    (ordered : ∀ o o' b v v', made o b v → made o' b v' → o < o' → v < v')
    (settled : ∀ x, init x = .notFetched ∨ init x = .fetched) (inv : OrderInv dev made init x s)
    (move : step dev s e = .ok t) (issued : FetchesIssued t.log)
    (seen : ∀ o b v, MetadataVersion t o b v → made o b v) : OrderInv dev made init x t := by
  rcases step_acts move with act | ⟨_, acts⟩
  · exact orderInv_act ordered settled inv issued seen act
  · exact acts.invariant_back (A := OpsFresh)
      (Q := fun u => FetchesIssued u.log ∧ ∀ o b v, MetadataVersion u o b v → made o b v)
      opsFresh_act
      (fun fresh act met => ⟨fetchesIssued_earlier (act_log act) met.1,
        fun o b v h => met.2 o b v (metadataVersion_quiet fresh act h)⟩)
      (fun before met act => orderInv_act ordered settled before met.1 met.2 act)
      inv.life.requests.fresh inv ⟨issued, seen⟩

theorem orderInv_trace {states : List State} (created : Created dev base s₀)
    (ordered : InSubmissionOrder states) (run : Runs.Trace (step dev) anyStep s₀ past s)
    (inside : ∀ u ∈ statesOf past s, u ∈ states) (issued : FetchesIssued s.log) (x : Nat) :
    OrderInv dev (fun o b v => ∃ u ∈ states, MetadataVersion u o b v) s₀.stripeStatus x s := by
  induction run with
  | refl => exact orderInv_created created
  | @tail past u t e before ok move ih =>
      have older : u.log <:+ t.log :=
        (reach_passes (.tail .refl ok move)).invariant (P := fun w => u.log <:+ w.log)
          (fun before act => before.trans (act_log act)) List.suffix_rfl
      have before := ih (fun w mem => inside w (List.mem_cons_of_mem _ mem))
        (fetchesIssued_earlier older issued)
      refine orderInv_step ?_ (created_settled created) before move issued fun o b v made =>
        ⟨t, inside t List.mem_cons_self, made⟩
      rintro o o' b v v' ⟨w, mem, made⟩ ⟨w', mem', made'⟩
      exact ordered w mem w' mem' o o' b v v' made made'

/-- The counters agree with the stripes and never decrease. When as many stripes are flushed as
are fetched, so that the data flush of a FLUSH is not followed by a metadata write, every
content a crash may leave has the header of every fetched stripe. -/
theorem flush_skip_sound (created : Created dev base s₀)
    (run : Runs.Trace (step dev) anyStep s₀ past s) (ordered : InSubmissionOrder (statesOf past s))
    (issued : FetchesIssued s.log) :
    s.stripesFetched = fetchedCount s ∧ s.stripesFlushed ≤ s.stripesFetched ∧
    (∀ e ∈ past, e.1.stripesFetched ≤ s.stripesFetched ∧
      e.1.stripesFlushed ≤ s.stripesFlushed) ∧
    (s.stripesFetched = s.stripesFlushed →
      (∀ id ret, (ubiDataFlushCompletion dev s id true ret).writes = s.writes) ∧
      ∀ x, s.stripeStatus x = .fetched → ∀ found, CrashContent dev s found →
        stripeHeader found x ≠ 0) := by
  have counted := counted_reach created run.reach issued
  have inv (x : Nat) := orderInv_trace created ordered run (fun _ mem => mem) issued x
  refine ⟨counted.exact, (inv 0).bounded.flushed, fun e mem => ?_,
    fun same => ⟨fun id ret => ?_, fun x fetched found crash => ?_⟩⟩
  · exact (trace_passes run e mem).invariant
      (P := fun u => e.1.stripesFetched ≤ u.stripesFetched ∧ e.1.stripesFlushed ≤ u.stripesFlushed)
      (fun before act => ⟨before.1.trans (stripesFetched_mono act),
        before.2.trans (stripesFlushed_mono act)⟩) ⟨le_rfl, le_rfl⟩
  · simp [ubiDataFlushCompletion, same, State.emit, State.complete]
  · obtain ⟨k, carried, _⟩ := (inv x).header fetched
    exact (carried.survives (carried.rank.trans same.le)
      (counted.range x (by simp [fetched])) created (recorded_reach created run.reach issued)
      ((inv x).life.stages x) fetched crash).2

/-- Each outstanding metadata write makes the given version of every block it has reached. -/
def versionsAre (version : Nat → Option Nat) (s : State) : Bool :=
  (List.range s.nextWrite).all fun o => (s.writes o).all fun op =>
    match op.cb with
    | .metadata _ => (List.range op.numBlocks).all fun b => (op.landed b).all (version o == some ·)
    | _ => true

theorem versionsAre_sound {version : Nat → Option Nat} (created : Created dev base s₀)
    {allowed : State → Event → Prop} (run : Reach dev allowed s₀ s)
    (h : versionsAre version s = true) {o b v : Nat} (made : MetadataVersion s o b v) :
    version o = some v := by
  obtain ⟨op, id, write, cb, landed⟩ := made
  have known : o < s.nextWrite := by
    by_contra new
    simp [(requestsPlaced_reach created run).fresh.writes o (Nat.not_lt.mp new)] at write
  have matched := reach_invariant writesMatch_act run (writesMatch_created created) o op write
  have range := (matched.sampled b (matched.landed b v landed).1).2
  rw [(matched.metadata id cb).1, Nat.zero_add] at range
  have checked := List.all_eq_true.mp h o (List.mem_range.mpr known)
  simp only [write, Option.all_some, cb] at checked
  simpa [landed] using List.all_eq_true.mp checked b (List.mem_range.mpr range)

/-- The metadata write of a FLUSH has taken effect but is not completed when stripe 1 is fetched
and a second FLUSH writes the metadata again. The two writes complete in reverse order. -/
def overlappingFlushes : List Event :=
  fetchFirst 65536 true ++ [.submit 0 1 ⟨.flush, 0, 1, fun _ => 0⟩, .poll 0 .success,
    .flushDone 0 true 0, .sample 2 (List.range 128), .land 2 (List.range 128),
    .submit 0 2 ⟨.write, 1, 1, fun _ => 6⟩, .poll 0 .success, .uring 0 0 65536, .poll 0 .success,
    .sample 3 [129], .land 3 [129], .writeDone 3 true 0, .poll 0 .success,
    .submit 0 3 ⟨.flush, 1, 1, fun _ => 0⟩, .poll 0 .success, .flushDone 1 true 0,
    .sample 5 (List.range 128), .land 5 (List.range 128), .writeDone 5 true 0, .flushDone 2 true 0,
    .writeDone 2 true 0, .flushDone 3 true 0]

/-- The versions of the two metadata writes of `overlappingFlushes`. -/
def overlappingVersion : Nat → Option Nat
  | 2 => some 1
  | 5 => some 2
  | _ => none

theorem overlappingVersion_mono {o o' v v' : Nat} (first : overlappingVersion o = some v)
    (second : overlappingVersion o' = some v') (older : o < o') : v < v' := by
  unfold overlappingVersion at first second
  split at first <;> split at second <;> simp_all <;> omega

theorem flush_skip_sound_overlappingFlushes :
    ∃ s, Reach (threeBlockBdev false) anyStep (blankState (threeBlockBdev false)) s ∧
      s.stripesFetched = 2 ∧ s.stripesFlushed = 2 ∧
      ∀ found, CrashContent (threeBlockBdev false) s found →
        stripeHeader found 0 ≠ 0 ∧ stripeHeader found 1 ≠ 0 := by
  have created := created_blankState (threeBlockBdev false)
  have ran : (Runs.exec (step (threeBlockBdev false)) (fun s _ => versionsAre overlappingVersion s)
      (blankState (threeBlockBdev false)) overlappingFlushes).any (fun s =>
        versionsAre overlappingVersion s && decide (FetchesIssued s.log ∧ s.stripesFetched = 2 ∧
          s.stripesFlushed = 2 ∧ s.stripeStatus 0 = .fetched ∧ s.stripeStatus 1 = .fetched)) =
      true := by decide +kernel
  have sound : ∀ s (_ : Event),
      Reach _ (fun s _ => ∀ o b v, MetadataVersion s o b v → overlappingVersion o = some v) _ s →
        versionsAre overlappingVersion s = true →
        ∀ o b v, MetadataVersion s o b v → overlappingVersion o = some v :=
    fun s _ run same o b v => versionsAre_sound created run same
  obtain ⟨s, run, test⟩ := Runs.exists_reach_of_exec sound ran
  simp only [Bool.and_eq_true, decide_eq_true_eq] at test
  obtain ⟨last, issued, fetched, flushed, first, second⟩ := test
  obtain ⟨past, traced⟩ := run.exists_trace
  have versions : ∀ u ∈ statesOf past s, ∀ o b v, MetadataVersion u o b v →
      overlappingVersion o = some v := by
    rw [List.forall_mem_cons, List.forall_mem_map]
    exact ⟨fun o b v => versionsAre_sound created run last, traced.allowed_of_mem⟩
  have ordered : InSubmissionOrder (statesOf past s) := by
    intro u mem u' mem' o o' b v v' made made' older
    exact overlappingVersion_mono (versions u mem o b v made) (versions u' mem' o' b v' made') older
  have sound := flush_skip_sound created (traced.mono fun _ _ _ => trivial) ordered issued
  have headers := (sound.2.2.2 (fetched.trans flushed.symm)).2
  exact ⟨s, run.mono fun _ _ _ => trivial, fetched, flushed,
    fun found crash => ⟨headers 0 first found crash, headers 1 second found crash⟩⟩

end BdevUbi
