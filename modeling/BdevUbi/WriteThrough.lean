import BdevUbi.CreationLedger
import BdevUbi.FlushedWrites

/-!
WRITEs on a base bdev without a write cache. The ubi bdev then advertises no write cache
either, and a completed WRITE is on the base bdev for good. Whether the next life of the bdev
finds it there depends on the header of its stripe, which is written with a FLUSH only: with
the header it reads the WRITE or a later one, without it the image.
-/

namespace BdevUbi
open VolatileDisk History RegularRegister

variable {dev : UbiBdev} {s₀ s s₁ t : State} {l : Label} {B x : Nat} {base found : Bytes}

/-- What a stop of the bdev may leave on a base bdev that writes through. -/
def WriteThroughContent (dev : UbiBdev) (s : State) (base : Bytes) : Prop :=
  ∃ blocks : Nat → Bytes, s.disk.SurvivesThrough blocks ∧ ∀ a, base a = blocks (a / dev.blocklen) a

theorem WriteThroughContent.crash (stop : WriteThroughContent dev s found) :
    CrashContent dev s found := by
  obtain ⟨blocks, survives, content⟩ := stop
  exact ⟨blocks, survives.survives, content⟩

theorem writeThroughContent_now (dev : UbiBdev) (s : State) :
    WriteThroughContent dev s (s.content dev) :=
  ⟨s.disk.current, s.disk.survivesThrough_current, fun _ => rfl⟩

/-- A life that begins in `s₁` reads WRITE `w` of the life that ended in `s`, or a WRITE that had
not completed when `w` was submitted. -/
def KeepsWrite (dev : UbiBdev) (B : Nat) (s s₁ : State) (w : ReqId) : Prop :=
  ∃ w' r', s.request w' = some r' ∧ r'.type = .write ∧ r'.CoversBlock B ∧
    ¬ Before (.completed w' true) (.submitted w) s.log ∧ ReadsExpect dev s₁ B (r'.Supplied dev)

theorem reads_image (created : Created dev found s₁) (image : ImageBlock dev B)
    (unfetched : s₁.stripeStatus (dev.stripeOf B) ≠ .fetched) :
    ReadsExpect dev s₁ B fun p byte => p < dev.imageSize → byte = dev.image p := by
  refine readsExpect_initial created image (fun _ p tail _ low => ?_) fun p here _ => ?_
  · omega
  · subst here
    exact if_neg unfetched

theorem reads_write (created : Created dev base s₀)
    (run : Reach dev (Permitted (SplitAtStripes dev)) s₀ s) (faultless : Faultless dev s.log)
    (image : ImageBlock dev B) {w : ReqId} (write : WritesBlock B s w)
    (done : .completed w true ∈ s.log) (stop : WriteThroughContent dev s found)
    (again : Created dev found s₁) (fetched : s₁.stripeStatus (dev.stripeOf B) = .fetched) :
    KeepsWrite dev B s s₁ w := by
  have first : B * dev.blocklen / dev.blocklen = B := Nat.mul_div_cancel _ dev.blocklen_pos
  have inv := byteInv_reach (p := B * dev.blocklen) created run faultless (first.symm ▸ image)
    fun _ => (lt_roundUp_iff dev.blocklen_pos).mp
      (dev.accepted.image_blocks ▸ image.image)
  obtain ⟨maker, ledger⟩ := inv.ledger
  rw [first] at ledger
  obtain ⟨blocks, survives, content⟩ := stop
  obtain ⟨v, settled, latest, block⟩ := survives (dev.dataBlock B)
  obtain ⟨u, low, high, made⟩ := ledger.ledger.finished w write done
  obtain ⟨r', known', type', covers'⟩ := ledger.ledger.made v (by omega) latest
  refine ⟨maker v, r', known', type', covers', ?_, ?_⟩
  · rw [← made]
    exact ledger.ledger.not_before_of_le low (high.trans settled) latest
  · exact reads_version ledger image (by omega) latest known' covers'
      (fun a here => by rw [content, here, block]) again fetched

theorem Stage.fetched_from_start {init : Nat → StripeStatus} (stage : Stage init s x)
    (start : init x = .fetched) : s.stripeStatus x = .fetched := by
  cases stage with
  | untouched status counted => exact status.trans start
  | queued new _ _ _ | reading _ _ new _ _ _ _ | writing _ _ _ _ new _ _ _ _ _
  | readFailed _ new _ _ _ | writeRefused _ new _ _ _ | written _ _ new _ _ _ =>
      rw [start] at new
      cases new

/-- What a run without stale metadata writes keeps about the header of stripe `x`. A header
found at creation is on the base bdev from the start. -/
structure HeaderInv (dev : UbiBdev) (init : Nat → StripeStatus) (x : Nat) (s : State) : Prop where
  life : Lifecycle dev init s
  writes : WritesMatch dev s
  kinds : LoggedKinds s
  marks : MarksSettled s
  captures : CapturesOrdered s
  kept : init x = .notFetched → HeaderKept dev x s
  carried : init x = .fetched → HeaderCarried dev x 0 s

theorem headerInv_act {init : Nat → StripeStatus} (sync : dev.noSync = false)
    (settled : ∀ x, init x = .notFetched ∨ init x = .fetched) (inv : HeaderInv dev init x s)
    (ordered : NoneStale s l) (issued : FetchesIssued t.log) (act : Act dev s l t) :
    HeaderInv dev init x t where
  life := lifecycle_act settled inv.life issued act
  writes := writesMatch_act inv.writes act
  kinds := loggedKinds_act inv.life.requests inv.kinds act
  marks := marksSettled_act inv.marks act
  captures := capturesOrdered_act inv.life.requests ordered inv.captures act
  kept start := headerKept_act sync start inv.life inv.writes inv.kinds inv.captures inv.marks
    ordered (inv.kept start) act
  carried start := headerCarried_act (inv.carried start) inv.life.placed inv.life.requests
    inv.writes inv.captures inv.marks ((inv.life.stages x).fetched_from_start start) act

theorem headerInv_created (created : Created dev base s) (x : Nat) :
    HeaderInv dev s.stripeStatus x s where
  life := lifecycle_created created
  writes := writesMatch_created created
  kinds := loggedKinds_created created
  marks := marksSettled_created created
  captures := capturesOrdered_created created
  kept start fetched := by
    rw [start] at fetched
    cases fetched
  carried start := by
    have same := metadata_of_fetched created start
    obtain ⟨table, _, rfl⟩ := created
    refine ⟨Nat.zero_le _, by simp [newState], by simp [newState], by simp [newState], ?_⟩
    intro _ b v _ _ _ a _ _
    exact (congrFun same a).symm

theorem headerInv_reach (created : Created dev base s₀) (sync : dev.noSync = false)
    (run : Reach dev (Permitted NoneStale) s₀ s) (issued : FetchesIssued s.log) (x : Nat) :
    HeaderInv dev s₀.stripeStatus x s :=
  reach_invariant_permitted noneStale_quiet fetchesIssued_earlier
    (headerInv_act sync (created_settled created)) run (headerInv_created created x) issued

/-- The stripe was fetched at creation, or its data flush came after the fetch in a FLUSH that
has completed. -/
def HeaderFlushed (s₀ s : State) (x : Nat) : Prop :=
  s₀.stripeStatus x = .fetched ∨ ∃ f, Synced x f s.log ∧ .completed f true ∈ s.log

theorem header_survives (created : Created dev base s₀) (sync : dev.noSync = false)
    (run : Reach dev (Permitted NoneStale) s₀ s) (issued : FetchesIssued s.log)
    (bound : x < ubiMaxStripes) (flushed : HeaderFlushed s₀ s x)
    (crash : CrashContent dev s found) : Stamped found ∧ stripeHeader found x ≠ 0 := by
  have inv := headerInv_reach created sync run issued x
  have recorded := recorded_reach created run issued
  have stage := inv.life.stages x
  rcases created_settled created x with start | start
  · obtain ⟨f, synced, done⟩ := flushed.resolve_left (by simp [start])
    have fetched := (stage.fetched_iff start).mpr synced.mem_left
    obtain ⟨k, carried, ranked⟩ := inv.kept start fetched
    exact carried.survives (ranked.completed f synced done) bound created recorded stage fetched
      crash
  · exact (inv.carried start).survives (Nat.zero_le _) bound created recorded stage
      (stage.fetched_from_start start) crash

/-- The write cache is advertised as the base bdev's. Without one, a completed WRITE is kept
by every stop of the bdev once the header of the block's stripe is flushed. More precisely, it
is kept if the bdev created next finds the header, and the image is read if it does not. -/
theorem write_through_reads (created : Created dev base s₀)
    (run : Reach dev (Permitted (SplitAtStripes dev)) s₀ s) (faultless : Faultless dev s.log)
    (image : ImageBlock dev B) {w : ReqId} (write : WritesBlock B s w)
    (done : .completed w true ∈ s.log) (stop : WriteThroughContent dev s found) :
    (∀ bases allowed h id r b, HostReach bases allowed h → h.registered id = true →
      h.record id = some r → r.baseBdev = some b → r.writeCache = (bases b).writeCache) ∧
    (dev.noSync = false → Reach dev (Permitted NoneStale) s₀ s →
      HeaderFlushed s₀ s (dev.stripeOf B) →
      (∃ s₁, Created dev found s₁) ∧ ∀ s₁, Created dev found s₁ → KeepsWrite dev B s s₁ w) ∧
    ∀ s₁, Created dev found s₁ →
      (s₁.stripeStatus (dev.stripeOf B) = .fetched → KeepsWrite dev B s s₁ w) ∧
      (s₁.stripeStatus (dev.stripeOf B) ≠ .fetched →
        ReadsExpect dev s₁ B fun p byte => p < dev.imageSize → byte = dev.image p) := by
  have kept {s₁ : State} (again : Created dev found s₁)
      (fetched : s₁.stripeStatus (dev.stripeOf B) = .fetched) : KeepsWrite dev B s s₁ w :=
    reads_write created run faultless image write done stop again fetched
  refine ⟨fun bases allowed h id r b run registered known on => ?_, fun sync ordered flushed => ?_,
    fun s₁ again => ⟨kept again, reads_image again image⟩⟩
  · obtain ⟨r', b', _, _, _, known', on', _, _, cache, _⟩ := registered_created run registered
    obtain rfl := Option.some.inj (known'.symm.trans known)
    obtain rfl := Option.some.inj (on'.symm.trans on)
    exact cache
  · obtain ⟨stamped, header⟩ :=
      header_survives created sync ordered faultless.issued image.small flushed stop.crash
    obtain ⟨again, fetched⟩ := fetched_again dev image.small stamped header
    exact ⟨again, fun s₁ created₁ => kept created₁ (fetched s₁ created₁)⟩

/-- The FLUSH after the WRITE lets every later life of the bdev read it. -/
theorem write_through_reads_writeThenFlush :
    ∃ s, Reach (threeBlockBdev false) (Permitted NoneStale) (blankState (threeBlockBdev false)) s ∧
      .completed 0 true ∈ s.log ∧
      ∃ s₁, Created (threeBlockBdev false) (s.content (threeBlockBdev false)) s₁ ∧
        KeepsWrite (threeBlockBdev false) 0 s s₁ 0 := by
  have created := created_blankState (threeBlockBdev false)
  have ran : (Runs.exec (step (threeBlockBdev false)) (fun s e =>
      splitAtStripes (threeBlockBdev false) s e && noneStale s e)
      (blankState (threeBlockBdev false)) writeThenFlush).any (fun s =>
        decide (Faultless (threeBlockBdev false) s.log ∧ .completed 0 true ∈ s.log ∧
          Before (.setStatus 0 .fetched) (.dataFlushDone 1 true) s.log ∧
          .completed 1 true ∈ s.log) &&
        (s.request 0).any (fun r => decide (r.type = .write ∧ r.CoversBlock 0))) = true := by
    decide +kernel
  obtain ⟨s, run, test⟩ := Runs.exists_reach_of_exec
    (fun _ _ run => splitNoneStale_sound created run) ran
  simp only [Bool.and_eq_true, decide_eq_true_eq, Option.any_eq_true] at test
  obtain ⟨⟨faultless, done, synced, flushed⟩, r, known, write⟩ := test
  have ordered := run.mono fun _ _ ok => ok.2
  obtain ⟨⟨s₁, again⟩, kept⟩ := (write_through_reads (B := 0) created
    (run.mono fun _ _ ok => ok.1) faultless ⟨by decide, by decide⟩ ⟨r, known, write⟩ done
    (writeThroughContent_now _ s)).2.1 rfl ordered (.inr ⟨1, synced, flushed⟩)
  exact ⟨s, ordered, done, s₁, again, kept s₁ again⟩

def writeOnly : List Event :=
  fetchFirst 65536 true ++ [.poll 0 .success, .sample 1 [128], .land 1 [128], .writeDone 1 true 0]

def readFirstAgain : List Event :=
  [.submit 0 0 ⟨.read, 0, 1, fun _ => 9⟩, .poll 0 .success, .uring 0 0 65536, .poll 0 .success]

def allSucceeded (s : State) : Bool :=
  s.log.all fun o => match o with
    | .submitted id => decide (.completed id true ∈ s.log)
    | _ => true

theorem allSucceeded_sound {base : Bytes} {allowed : State → Event → Prop}
    (created : Created dev base s₀) (run : Reach dev allowed s₀ s) (h : allSucceeded s = true)
    {id : ReqId} {r : Request} (known : s.request id = some r) : .completed id true ∈ s.log := by
  simpa using List.all_eq_true.mp h _ (submitted_reach created run id r known)

set_option maxRecDepth 4000 in
theorem plainHost_device : ∃ r, plainHost.record 0 = some r ∧
    r.device = some (threeBlockBdev false) ∧ r.writeCache = false :=
  ⟨_, rfl, rfl, rfl⟩

/-- The base bdev writes through and so does the ubi bdev, as it says. A WRITE completes, the bdev
is deleted with nothing outstanding and created again, and a READ returns the image's data. -/
theorem unflushed_write_lost :
    (∃ h, HostReach (fun _ => plainBase) (fun _ _ => True) h ∧ h.registered 0 = true ∧
      ∃ r, h.record 0 = some r ∧ r.device = some (threeBlockBdev false) ∧ r.writeCache = false) ∧
    ∃ s s₁ s₂, Reach (threeBlockBdev false) anyStep (blankState (threeBlockBdev false)) s ∧
      Faultless (threeBlockBdev false) s.log ∧ WritesBlock 0 s 0 ∧
      (∀ id r, s.request id = some r → .completed id true ∈ s.log) ∧
      WriteThroughContent (threeBlockBdev false) s (s.content (threeBlockBdev false)) ∧
      Created (threeBlockBdev false) (s.content (threeBlockBdev false)) s₁ ∧
      Reach (threeBlockBdev false) anyStep s₁ s₂ ∧ Faultless (threeBlockBdev false) s₂.log ∧
      .completed 0 true ∈ s₂.log ∧ (∀ w, ¬ WritesByte (threeBlockBdev false) 0 s₂ w) ∧
      s₂.buffer 0 0 = (threeBlockBdev false).image 0 ∧
      ∀ w r, s.request w = some r → r.type = .write → r.CoversBlock 0 →
        s₂.buffer 0 0 ≠ r.data 0 := by
  have ran : (Runs.exec (step (threeBlockBdev false)) (fun _ _ => true)
      (blankState (threeBlockBdev false)) writeOnly).any (fun s =>
        decide (Faultless (threeBlockBdev false) s.log) &&
        (s.request 0).any (fun r => decide (r.type = .write ∧ r.CoversBlock 0)) &&
        allSucceeded s &&
        allRequests s (fun r => decide (r.type = .write → r.CoversBlock 0 → 7 ≠ r.data 0)) &&
        nextLife (threeBlockBdev false) (s.content (threeBlockBdev false)) readFirstAgain
          fun _ s₂ => decide (Faultless (threeBlockBdev false) s₂.log ∧ noWrites s₂ ∧
            .completed 0 true ∈ s₂.log ∧ s₂.buffer 0 0 = 7)) = true := by
    decide +kernel
  have start := created_blankState (threeBlockBdev false)
  obtain ⟨s, run, test⟩ := Runs.exists_reach_of_exec (fun _ _ _ _ => trivial) ran
  simp only [Bool.and_eq_true, decide_eq_true_eq, Option.any_eq_true] at test
  obtain ⟨⟨⟨⟨faultless, r, known, write⟩, all⟩, others⟩, again⟩ := test
  obtain ⟨s₁, s₂, created, run₂, test⟩ := nextLife_sound again
  obtain ⟨faultless₂, reads₂, done₂, image⟩ := of_decide_eq_true test
  refine ⟨⟨plainHost, plainHost_reach, by decide +kernel, plainHost_device⟩, s, s₁, s₂, run,
    faultless, ⟨r, known, write⟩, fun id r => allSucceeded_sound start run all,
    writeThroughContent_now _ s, created, run₂, faultless₂, done₂,
    unwritten_of_noWrites created run₂ reads₂ _, image, fun w r' known type covers => ?_⟩
  rw [image]
  exact of_decide_eq_true (allRequests_sound start run others known) type covers

end BdevUbi
