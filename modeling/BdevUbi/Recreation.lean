import BdevUbi.Addressing
import BdevUbi.FlushedWrites

/-!
Creation with another stripe size. The headers are numbered by stripes of the size in use
when they were set, and the decoder takes them for stripes of the size it is given: the size
recorded in the metadata is not read. The two numberings agree on the image only if the
sizes are the same or one stripe holds the whole image.
-/

namespace BdevUbi
open VolatileDisk

variable {dev d₁ d₂ : UbiBdev} {s₀ s t : State} {l : Label} {base found : Bytes}

structure SameStorage (d₁ d₂ : UbiBdev) : Prop where
  blocklen : d₁.blocklen = d₂.blocklen
  blockcnt : d₁.blockcnt = d₂.blockcnt
  imageSize : d₁.imageSize = d₂.imageSize
  image : d₁.image = d₂.image

/-- A content of the base bdev with the metadata of this state flushed to it. -/
def MetadataFlushed (s : State) (found : Bytes) : Prop :=
  ∀ a, a < ubiMetadataSize → found a = s.metadata a

theorem stripeSizeKb_eq_iff (same : SameStorage d₁ d₂) :
    d₁.stripeSizeKb = d₂.stripeSizeKb ↔ d₁.stripeBlockCount = d₂.stripeBlockCount := by
  have first : d₁.stripeBlockCount * d₁.blocklen = d₁.stripeSizeKb * 1024 :=
    d₁.accepted.stripe_bytes
  have second : d₂.stripeBlockCount * d₁.blocklen = d₂.stripeSizeKb * 1024 :=
    same.blocklen ▸ d₂.accepted.stripe_bytes
  constructor
  · intro h
    exact Nat.eq_of_mul_eq_mul_right d₁.blocklen_pos (by rw [first, second, h])
  · intro h
    rw [h, second] at first
    omega

theorem stripeOf_agree (h : d₁.stripeBlockCount = d₂.stripeBlockCount ∨
      d₁.imageBlockCount ≤ min d₁.stripeBlockCount d₂.stripeBlockCount) {b : Nat}
    (image : b < d₁.imageBlockCount) : d₁.stripeOf b = d₂.stripeOf b := by
  rcases h with same | small
  · rw [UbiBdev.stripeOf, UbiBdev.stripeOf, same]
  · rw [UbiBdev.stripeOf, UbiBdev.stripeOf, Nat.div_eq_of_lt (by omega),
      Nat.div_eq_of_lt (by omega)]

/-- What every run keeps of the metadata: the front, and all of it when the base bdev has no
room for a stripe, since then no stripe is ever written to it. -/
structure MetadataKept (dev : UbiBdev) (s₀ s : State) : Prop where
  front : ∀ a, a < 14 → s.metadata a = s₀.metadata a
  headers : dev.blockcnt < dev.dataOffsetBlocks + dev.stripeBlockCount → s.metadata = s₀.metadata ∧
    ∀ o op c k, s.writes o = some op → op.cb ≠ .stripe c k

theorem front_act (act : Act dev s l t) {a : Nat} (front : a < 14) :
    t.metadata a = s.metadata a := by
  cases act with
  | stripeWriteDone => exact update_header_of_lt 1 front
  | _ => rfl

theorem stripeWrite_fits (act : Act dev s l t) {o : Nat} {op : BaseWrite} {c : ChId} {k : Nat}
    (write : t.writes o = some op) (cb : op.cb = .stripe c k) :
    (∃ op', s.writes o = some op' ∧ op'.cb = .stripe c k) ∨
      ∃ x, dev.stripeStart x + dev.stripeBlockCount ≤ dev.blockcnt := by
  cases act <;> grind -ring -linarith

theorem metadataKept_act (before : MetadataKept dev s₀ s) (act : Act dev s l t) :
    MetadataKept dev s₀ t where
  front a front := by rw [front_act act front, before.front a front]
  headers small := by
    obtain ⟨metadata, unwritten⟩ := before.headers small
    constructor
    · rw [← metadata]
      cases act with
      | stripeWriteDone success write cb all => exact absurd cb (unwritten _ _ _ _ write)
      | _ => rfl
    · intro o op c k write cb
      rcases stripeWrite_fits act write cb with ⟨op', old, cb'⟩ | ⟨x, fits⟩
      · exact unwritten o op' c k old cb'
      · simp only [UbiBdev.stripeStart] at fits
        omega

theorem metadataKept_reach (created : Created dev base s₀) (run : Reach dev anyStep s₀ s) :
    MetadataKept dev s₀ s := by
  refine reach_invariant (P := MetadataKept dev s₀) metadataKept_act run
    ⟨fun _ _ => rfl, fun _ => ?_⟩
  obtain ⟨table, _, rfl⟩ := created
  exact ⟨rfl, nofun⟩

theorem stripeHeader_flushed (flushed : MetadataFlushed s found) {x : Nat}
    (bound : x < ubiMaxStripes) : stripeHeader found x = stripeHeader s.metadata x :=
  flushed _ (stripeHeaderOffset_lt bound)

theorem stamped_flushed (created : Created dev base s₀) (run : Reach dev anyStep s₀ s)
    (flushed : MetadataFlushed s found) : Stamped found :=
  stamped_congr (fun a front => (flushed a (front.trans (by decide))).trans
    ((metadataKept_reach created run).front a front)) (stamped_created created)

section FirstStripe

/-! A run that fetches stripe 0 and no other, on any bdev with room for it. -/

def firstWrite : Request := ⟨.write, 0, 1, fun _ => 5⟩

def queuedState (dev : UbiBdev) : State :=
  insertTail (ubiSetStripeStatus (enqueueStripe (({ blankState dev with
    request := Function.update (blankState dev).request 0 (some firstWrite)
    buffer := Function.update (blankState dev).buffer 0 firstWrite.data }).emit (.submitted 0)) 0 0)
    0 .inflight) 0 0

def fetchingState (dev : UbiBdev) : State :=
  ioUringSubmit (prepareFetch dev (assignSlot (queuedState dev) 0 0) 0 0 true) 0

def readState (dev : UbiBdev) : State :=
  postCqe (fillBuffer dev (fetchingState dev) 0 (stripeSqe dev 0 0) 0) 0 0 ⟨stripeSqe dev 0 0, 0⟩

def writingState (dev : UbiBdev) : State :=
  (((cqeSeen (readState dev) 0 []).emit (.fetchCqe 0 0 (stripeSqe dev 0 0) true 0 0)).emit
    (.stripeWrite 0 true)).startWrite (.stripe 0 0)
      ((dev.stripeBytes * 0 + ubiMetadataSize) / dev.blocklen) (dev.stripeBytes / dev.blocklen)

def fetchedState (dev : UbiBdev) : State :=
  writeStripeIoCompletion { writingState dev with
    writes := Function.update (writingState dev).writes 0 none } 0 0 false

theorem firstWrite_startStripe (dev : UbiBdev) : firstWrite.startStripe dev = 0 := by
  simp [Request.startStripe, firstWrite]

theorem queuedState_step (image : 0 < dev.imageBlockCount) :
    step dev (blankState dev) (.submit 0 0 firstWrite) = .ok (queuedState dev) := by
  have range : 1 ≤ dev.ubiBlockcnt := Nat.le_trans image dev.imageBlockCount_le
  have admitted : admissible dev (blankState dev) 0 firstWrite = true := by
    simp [admissible, blankState, newState, firstWrite, ubiIoTypeSupported, range]
  have within : firstWrite.startStripe dev = firstWrite.endStripe dev := rfl
  have fetch : firstWrite.fetches dev := .inl rfl
  have image : firstWrite.offsetBlocks < dev.imageBlockCount := image
  have index : toCInt 0 = 0 := by decide
  simp only [step, admitted, if_true, ubiSubmitRequest, if_pos fetch, ← within, ne_eq,
    not_true_eq_false, if_false, if_pos image, firstWrite_startStripe, index]
  rfl

theorem firstWrite_waits (image : 0 < dev.imageBlockCount) (known : s.request 0 = some firstWrite)
    (status : s.stripeStatus 0 = .inflight) (c : ChId) (rest : List ReqId) (env : PollEnv) :
    processFirst dev s c 0 rest env = .ok (false, s) := by
  have gate : ubiGetStripeStatus s (toCInt (firstWrite.startStripe dev)) = some .inflight := by
    rw [firstWrite_startStripe, ← status]
    rfl
  have write : ¬ (firstWrite.type = .read ∧ ubiMaxConcurrentReads ≤ (s.channel c).activeReads) :=
    fun h => nomatch h.1
  have gated : firstWrite.type ≠ .flush ∧ firstWrite.offsetBlocks < dev.imageBlockCount :=
    ⟨nofun, image⟩
  simp only [processFirst, known, if_neg write, if_pos gated, gate]

theorem fetchingState_step (image : 0 < dev.imageBlockCount) :
    step dev (queuedState dev) (.poll 0 .success) = .ok (fetchingState dev) := by
  have polled : ubiCompleteImageIo dev (queuedState dev) 0 .success = (0, queuedState dev) := rfl
  have free : freeStripeFetches ((queuedState dev).channel 0) = [0, 1, 2, 3, 4, 5, 6, 7] := rfl
  have queued : stripeQueueEmpty ((queuedState dev).channel 0) = false := by
    simp [stripeQueueEmpty, queuedState, insertTail, ubiSetStripeStatus, enqueueStripe, State.emit,
      State.setChannel, blankState, newState, newChannel, ubiFetchQueueSize]
  have first : ubiStartFetchStripe dev (assignSlot (queuedState dev) 0 0) 0 0 0 =
      .ok (fetchingState dev) := rfl
  have empty : stripeQueueEmpty ((fetchingState dev).channel 0) = true := beq_iff_eq.mpr rfl
  have started : startStripeFetches dev 0 .success (freeStripeFetches ((queuedState dev).channel 0))
      (queuedState dev) = .ok (fetchingState dev) := by
    simp [free, startStripeFetches, queued, first, empty, PollEnv.success]
  have io : ((queuedState dev).channel 0).io.isEmpty = false := rfl
  have io' : ((fetchingState dev).channel 0).io = [0] := rfl
  have gate := firstWrite_waits (s := fetchingState dev) image rfl rfl 0 [] .success
  simp only [step, ubiIoPoll, io, polled, started, io', processIo, gate, Bool.false_and]
  rfl

theorem readState_step : step dev (fetchingState dev) (.uring 0 0 0) = .ok (readState dev) := by
  have entry : ((fetchingState dev).channel 0).submitted = [stripeSqe dev 0 0] := rfl
  simp only [step, uringComplete, entry]
  exact if_pos (Int.natCast_nonneg _)

theorem writingState_step (image : 0 < dev.imageBlockCount)
    (fits : baseAcceptsBytes dev (dev.stripeBytes * 0 + ubiMetadataSize) dev.stripeBytes 0 = true) :
    step dev (readState dev) (.poll 0 .success) = .ok (writingState dev) := by
  have entry : ((readState dev).channel 0).cqes = [⟨stripeSqe dev 0 0, 0⟩] := rfl
  have handled : completeCqe dev (readState dev) 0 ⟨stripeSqe dev 0 0, 0⟩ [] 0 =
      (1, writingState dev) := by
    have index : (((cqeSeen (readState dev) 0 []).channel 0).stripeFetches 0).stripeIdx = 0 := rfl
    have active : (((cqeSeen (readState dev) 0 []).channel 0).stripeFetches 0).active = true := rfl
    have good : ¬ (0 : Int) < 0 := by decide
    simp only [completeCqe, stripeSqe, writingState, ubiCompleteFetchStripe, index, active, fits,
      if_neg good, if_true]
  have polled : ubiCompleteImageIo dev (readState dev) 0 .success = (1, writingState dev) := by
    simp only [ubiCompleteImageIo, entry]
    simp [completeBatch, entry, handled, PollEnv.success]
  have io : ((readState dev).channel 0).io.isEmpty = false := rfl
  have io' : ((writingState dev).channel 0).io = [0] := rfl
  have free : freeStripeFetches ((writingState dev).channel 0) = [1, 2, 3, 4, 5, 6, 7] := rfl
  have empty : stripeQueueEmpty ((writingState dev).channel 0) = true := beq_iff_eq.mpr rfl
  have gate := firstWrite_waits (s := writingState dev) image rfl rfl 0 [] .success
  simp only [step, ubiIoPoll, io, polled, free, startStripeFetches, empty, io', processIo, gate,
    Bool.false_and, if_true]
  rfl

theorem fetchedState_reach (image : 0 < dev.imageBlockCount)
    (fits : dev.dataOffsetBlocks + dev.stripeBlockCount ≤ dev.blockcnt) :
    Reach dev anyStep (blankState dev) (fetchedState dev) := by
  have accepted := (baseAcceptsBytes_stripe dev 0).mpr (by
    have := Nat.mul_le_mul_right dev.blocklen fits
    rwa [Nat.add_mul, dev.dataOffset_bytes, ← dev.stripeBytes_eq, ← Nat.one_mul dev.stripeBytes]
      at this)
  exact .tail (.tail (.tail (.tail (.tail .refl trivial (queuedState_step image)) trivial
    (fetchingState_step image)) trivial readState_step) trivial (writingState_step image accepted))
    (e := .writeDone 0 false 0) trivial rfl

theorem fetchedState_fetched (x : Nat) : FetchedIn (fetchedState dev).metadata x ↔ x = 0 := by
  have metadata : (fetchedState dev).metadata =
    Function.update (blankState dev).metadata (stripeHeaderOffset 0) 1 := rfl
  rw [FetchedIn, metadata, stripeHeader_update]
  by_cases first : x = 0
  · simp [first, ubiMaxStripes]
  · have blank : stripeHeader (blankState dev).metadata x = 0 :=
      stripeHeader_ubiInitMetadata dev.stripeSizeKb (fun _ => 0) x
    simp [first, blank]

end FirstStripe

/-- After any run of `d₁` from a zeroed metadata area, a bdev created as `d₂` over the flushed
metadata takes those image blocks for fetched that are fetched according to the metadata. -/
def RecreationSafe (d₁ d₂ : UbiBdev) : Prop :=
  ∀ base s₀ s found s₁ b, BlankMetadata base → Created d₁ base s₀ → Reach d₁ anyStep s₀ s →
    MetadataFlushed s found → Created d₂ found s₁ → b < d₁.imageBlockCount →
    (s₁.stripeStatus (d₂.stripeOf b) = .fetched ↔ FetchedIn found (d₁.stripeOf b))

/-- With room for no stripe at all, nothing is ever fetched. -/
theorem unfetched_of_small (blank : BlankMetadata base) (created : Created d₁ base s₀)
    (run : Reach d₁ anyStep s₀ s) (flushed : MetadataFlushed s found)
    (small : d₁.blockcnt < d₁.dataOffsetBlocks + d₁.stripeBlockCount) (x : Nat) :
    ¬ FetchedIn found x := by
  rintro ⟨bound, set⟩
  rw [stripeHeader_flushed flushed bound, ((metadataKept_reach created run).headers small).1] at set
  have encodes := encodes_created created fun _ _ bound => blank.header bound
  have fetched := (encodes x bound).mp set
  rw [unfetched_created created blank] at fetched
  cases fetched

theorem recreation_safe_iff (same : SameStorage d₁ d₂) :
    RecreationSafe d₁ d₂ ↔ d₁.stripeSizeKb = d₂.stripeSizeKb ∨
      d₁.imageBlockCount ≤ min d₁.stripeBlockCount d₂.stripeBlockCount ∨
      d₁.blockcnt < d₁.dataOffsetBlocks + d₁.stripeBlockCount := by
  rw [stripeSizeKb_eq_iff same]
  constructor
  · intro safe
    by_contra broken
    simp only [not_or, Nat.not_le, Nat.not_lt] at broken
    obtain ⟨apart, large, fits⟩ := broken
    -- the first block that the two sizes number differently, after a fetch of stripe 0
    have image : 0 < d₁.imageBlockCount := by omega
    have run := fetchedState_reach image fits
    have created := created_blankState d₁
    have stamped : Stamped (fetchedState d₁).metadata :=
      stamped_flushed created run fun _ _ => rfl
    obtain ⟨⟨s₁, created₁⟩, _⟩ := fetched_again d₂ (x := 0) (by decide) stamped
      ((fetchedState_fetched 0).mpr rfl).2
    have agrees := safe _ _ _ _ s₁ _ (fun _ _ => rfl) created run (fun _ _ => rfl) created₁ large
    rw [created_fetched_iff stamped created₁, fetchedState_fetched, fetchedState_fetched,
      UbiBdev.stripeOf, UbiBdev.stripeOf, Nat.div_eq_zero_iff, Nat.div_eq_zero_iff] at agrees
    have := d₁.stripeBlockCount_pos
    have := d₂.stripeBlockCount_pos
    omega
  · intro condition base s₀ s found s₁ b blank created run flushed created₁ image
    rw [created_fetched_iff (stamped_flushed created run flushed) created₁]
    rcases condition with agree | agree | small
    · rw [stripeOf_agree (.inl agree) image]
    · rw [stripeOf_agree (.inr agree) image]
    · have none := unfetched_of_small blank created run flushed small
      exact iff_of_false (none _) (none _)

def oneBlockImageBdev (wide : Bool) : UbiBdev where
  blocklen := 65536
  blockcnt := 131
  imageSize := 65536
  image := fun _ => 7
  stripeSizeKb := if wide then 128 else 64
  noSync := false
  copyOnRead := false
  layout := if wide then ⟨2, 1, 128, 1⟩ else ⟨1, 0, 128, 1⟩
  imageSize_lt := by decide
  blockcnt_lt := threeBlockBase_lt
  init := by cases wide <;> decide

theorem recreation_safe_oneBlockImage :
    (oneBlockImageBdev false).stripeSizeKb ≠ (oneBlockImageBdev true).stripeSizeKb ∧
      SameStorage (oneBlockImageBdev false) (oneBlockImageBdev true) ∧
      RecreationSafe (oneBlockImageBdev false) (oneBlockImageBdev true) :=
  have same : SameStorage (oneBlockImageBdev false) (oneBlockImageBdev true) := ⟨rfl, rfl, rfl, rfl⟩
  ⟨by decide, same, (recreation_safe_iff same).mpr (.inr (.inl (by decide)))⟩

def wideStripeBdev : UbiBdev where
  blocklen := 65536
  blockcnt := 131
  imageSize := 131072
  image := fun _ => 7
  stripeSizeKb := 128
  noSync := false
  copyOnRead := false
  layout := ⟨2, 1, 128, 2⟩
  imageSize_lt := twoBlockImage_lt
  blockcnt_lt := threeBlockBase_lt
  init := by decide

def readSecond : List Event :=
  [.submit 0 0 ⟨.read, 1, 1, fun _ => 9⟩, .poll 0 .success, .transfer 0 [129], .readDone 0 true]

/-- Stripe 0, of one block, is fetched and a FLUSH completes. Created again with stripes of two
blocks, the bdev takes block 1 for fetched too and reads the base bdev instead of the image. -/
theorem wider_stripe_misread :
    SameStorage (threeBlockBdev false) wideStripeBdev ∧
    ∃ s found s₁ s₂, Reach (threeBlockBdev false) anyStep (blankState (threeBlockBdev false)) s ∧
      Faultless (threeBlockBdev false) s.log ∧ .completed 1 true ∈ s.log ∧
      s.stripesFlushed = s.stripesFetched ∧ CrashContent (threeBlockBdev false) s found ∧
      Created wideStripeBdev found s₁ ∧
      s₁.stripeStatus (wideStripeBdev.stripeOf 1) = .fetched ∧
      ¬ FetchedIn found ((threeBlockBdev false).stripeOf 1) ∧
      Reach wideStripeBdev anyStep s₁ s₂ ∧ Faultless wideStripeBdev s₂.log ∧
      .completed 0 true ∈ s₂.log ∧ s₂.buffer 0 0 ≠ wideStripeBdev.image 65536 := by
  have ran : (Runs.exec (step (threeBlockBdev false)) (fun _ _ => true)
      (blankState (threeBlockBdev false)) writeThenFlush).any (fun s =>
        decide (Faultless (threeBlockBdev false) s.log ∧ .completed 1 true ∈ s.log ∧
          s.stripesFlushed = s.stripesFetched) &&
        decide (stripeHeader (contentLosing (threeBlockBdev false) s 130) 1 = 0) &&
        nextLife wideStripeBdev (contentLosing (threeBlockBdev false) s 130) readSecond
          fun s₁ s₂ => decide (s₁.stripeStatus 0 = .fetched ∧ Faultless wideStripeBdev s₂.log ∧
            .completed 0 true ∈ s₂.log ∧ s₂.buffer 0 0 ≠ 7)) = true := by
    decide +kernel
  obtain ⟨s, run, test⟩ := Runs.exists_reach_of_exec (fun _ _ _ _ => trivial) ran
  simp only [Bool.and_eq_true, decide_eq_true_eq] at test
  obtain ⟨⟨⟨faultless, done, flushed⟩, unset⟩, again⟩ := test
  obtain ⟨s₁, s₂, created, run₂, test⟩ := nextLife_sound again
  obtain ⟨fetched, faultless₂, done₂, wrong⟩ := of_decide_eq_true test
  exact ⟨⟨rfl, rfl, rfl, rfl⟩, s, _, s₁, s₂, run, faultless, done, flushed,
    crashContent_losing _ s 130, created, fetched, fun h => h.2 unset, run₂, faultless₂, done₂,
    wrong⟩

end BdevUbi
