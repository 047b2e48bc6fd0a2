import BdevUbi.MetadataEncoding

/-!
Which stripe a WRITE waits for. `ubi_submit_request` and `ubi_io_poll` hand the 64-bit stripe
number of a request to functions that take an `int`. Up to 2^32 stripes the status they find is
that of the request's own stripe; past that, a WRITE is let through by the status of another.
-/

namespace BdevUbi

variable {dev : UbiBdev} {s : State}

theorem bmod_eq_or_wraps {n m : Nat} (small : n < m) :
    Int.bmod n m = n ∨ Int.bmod n m = (n : Int) - m := by
  rw [Int.bmod_def, Int.emod_eq_of_lt (by omega) (by omega)]
  split
  · exact .inl rfl
  · exact .inr rfl

/-- Below 2^32 stripes the conversion to `int` gives no stripe the number of another one. -/
theorem toCInt_eq {n x : Nat} (small : n < 2 ^ 32) (index : toCInt n = x) : n = x := by
  rcases bmod_eq_or_wraps small with same | wraps
  · exact Int.ofNat.inj (same.symm.trans index)
  · have negative := wraps.symm.trans index
    omega

theorem startStripe_lt {r : Request} (small : dev.imageBlockCount ≤ 2 ^ 32 * dev.stripeBlockCount)
    (image : r.offsetBlocks < dev.imageBlockCount) : r.startStripe dev < 2 ^ 32 := by
  rw [Request.startStripe, dev.shift_eq_div, Nat.div_lt_iff_lt_mul dev.stripeBlockCount_pos]
  exact Nat.lt_of_lt_of_le image small

/-- A WRITE that begins below the end of the image is with the base bdev only while the stripe
of its first block is fetched. -/
def WritesGated (dev : UbiBdev) (s : State) : Prop :=
  ∀ o op id r, s.writes o = some op → op.cb = .io id → s.request id = some r →
    r.offsetBlocks < dev.imageBlockCount →
    ubiGetStripeStatus s (r.startStripe dev) = some .fetched

theorem writesGated_of_small (small : dev.imageBlockCount ≤ 2 ^ 32 * dev.stripeBlockCount)
    (inv : Gated dev s) : WritesGated dev s := by
  intro o op id r write cb known image
  obtain ⟨x, index, bound, fetched⟩ :=
    ubiGetStripeStatus_eq_some.mp (inv.writes o op id r write cb known image)
  have own : r.startStripe dev = x := toCInt_eq (startStripe_lt small image) index
  exact ubiGetStripeStatus_eq_some.mpr ⟨x, by rw [own], bound, fetched⟩

/-- Every stripe has one life at most, no two active slots hold the same stripe, and the BUG
branch of the poller is never taken. -/
structure StripeLives (init : Nat → StripeStatus) (s : State) : Prop where
  life : ∀ x, OneLife (init x) (s.stripeStatus x) (tally x s.log).statuses
  once : ∀ x, (tally x s.log).enqueued ≤ 1 ∧ (tally x s.log).dequeued ≤ 1 ∧
    (tally x s.log).writes.length ≤ 1
  slots : ∀ c k d j, (s.slot c k).active = true → (s.slot d j).active = true →
    (s.slot c k).stripeIdx = (s.slot d j).stripeIdx → c = d ∧ k = j
  noBug : ∀ id, .bug id ∉ s.log

theorem Lifecycle.stripeLives {init : Nat → StripeStatus} (inv : Lifecycle dev init s) :
    StripeLives init s := by
  have tallied (x : Nat) : OneLife (init x) (s.stripeStatus x) (tally x s.log).statuses ∧
      (tally x s.log).enqueued ≤ 1 ∧ (tally x s.log).dequeued ≤ 1 ∧
      (tally x s.log).writes.length ≤ 1 := by
    rw [← tally_trail]
    cases inv.stages x with
    | untouched status counted => simp [counted, OneLife, status]
    | queued new status _ counted => simp [counted, OneLife, status, new]
    | reading _ _ new status _ _ counted => simp [counted, OneLife, status, new]
    | writing _ _ _ _ new status _ _ _ counted => simp [counted, OneLife, status, new]
    | readFailed _ new status _ counted => simp [counted, OneLife, status, new]
    | writeRefused _ new status _ counted => simp [counted, OneLife, status, new]
    | written _ _ new status _ counted => simp [counted, OneLife, status, new]
  exact ⟨fun x => (tallied x).1, fun x => (tallied x).2,
    fun _ _ _ _ => inv.placed.slot_unique, inv.gated.noBug⟩

section Aliased

/-! A WRITE to the first block whose stripe number does not fit into 32 bits. -/

/-- The first block whose stripe number does not fit into 32 bits. -/
def UbiBdev.firstAliased (dev : UbiBdev) : Nat := 2 ^ 32 * dev.stripeBlockCount

def aliasedWrite (dev : UbiBdev) : Request := ⟨.write, dev.firstAliased, 1, fun _ => 0⟩

theorem aliasedWrite_startStripe (dev : UbiBdev) : (aliasedWrite dev).startStripe dev = 2 ^ 32 := by
  rw [Request.startStripe, dev.shift_eq_div]
  exact Nat.mul_div_cancel _ dev.stripeBlockCount_pos

theorem aliasedWrite_within (image : dev.firstAliased < dev.imageBlockCount) :
    (aliasedWrite dev).startStripe dev = (aliasedWrite dev).endStripe dev := by
  have last : (aliasedWrite dev).endBlock = dev.firstAliased := by
    have := dev.imageBlockCount_le
    have := dev.blockcnt_lt
    have : dev.ubiBlockcnt ≤ dev.blockcnt := Nat.sub_le _ _
    simp only [Request.endBlock, aliasedWrite]
    omega
  rw [Request.startStripe, Request.endStripe, last]
  rfl

theorem aliasedWrite_admissible (image : dev.firstAliased < dev.imageBlockCount)
    (new : s.request 0 = none) : admissible dev s 0 (aliasedWrite dev) = true := by
  have range : dev.firstAliased + 1 ≤ dev.ubiBlockcnt := by
    have := dev.imageBlockCount_le
    omega
  simp [admissible, new, aliasedWrite, ubiIoTypeSupported, range]

theorem aliasedWrite_gate (dev : UbiBdev) (s : State) :
    ubiGetStripeStatus s (toCInt ((aliasedWrite dev).startStripe dev)) =
      some (s.stripeStatus 0) := by
  have index : toCInt (2 ^ 32) = 0 := by decide
  rw [aliasedWrite_startStripe, index]
  rfl

/-- A base bdev that was created and flushed with stripe 0 fetched and no other. -/
def firstFetchedBase (dev : UbiBdev) : Bytes :=
  Function.update (ubiInitMetadata dev.stripeSizeKb fun _ => 0) (stripeHeaderOffset 0) 1

theorem firstFetchedBase_created (dev : UbiBdev) :
    ∃ table, Created dev (firstFetchedBase dev) (newState (firstFetchedBase dev) table) ∧
      table.stripeStatus 0 = .fetched := by
  have stamped : Stamped (firstFetchedBase dev) :=
    stamped_congr (fun a front => update_header_of_lt 1 front) (stamped_ubiInitMetadata _ _)
  obtain ⟨table, decoded, status, _⟩ := ubiFinishReadMetadata_stamped dev.stripeSizeKb stamped
  refine ⟨table, ⟨table, decoded, rfl⟩, ?_⟩
  rw [status, firstFetchedBase, stripeHeader_update, if_pos rfl]
  rfl

variable {base : Bytes} {table : StripeTable}

def aliasedListed (dev : UbiBdev) (base : Bytes) (table : StripeTable) : State :=
  insertTail (({ newState base table with
    request := Function.update (newState base table).request 0 (some (aliasedWrite dev))
    buffer := Function.update (newState base table).buffer 0 fun _ => 0 }).emit (.submitted 0)) 0 0

def aliasedSent (dev : UbiBdev) (base : Bytes) (table : StripeTable) : State :=
  ubiSubmitWriteRequest dev
    (takeFirst (aliasedListed dev base table) 0 0 [] (aliasedWrite dev)) 0 (aliasedWrite dev) 0

theorem aliasedListed_step (image : dev.firstAliased < dev.imageBlockCount)
    (fetched : table.stripeStatus 0 = .fetched) :
    step dev (newState base table) (.submit 0 0 (aliasedWrite dev)) =
      .ok (aliasedListed dev base table) := by
  have admitted := aliasedWrite_admissible (s := newState base table) image rfl
  have within := aliasedWrite_within image
  have fetch : (aliasedWrite dev).fetches dev := .inl rfl
  have image : (aliasedWrite dev).offsetBlocks < dev.imageBlockCount := image
  simp only [step, admitted, if_true, ubiSubmitRequest, if_pos fetch, ← within, ne_eq,
    not_true_eq_false, if_false, if_pos image, aliasedWrite_gate]
  simp only [State.emit, newState, fetched]
  rfl

theorem aliasedSent_step (image : dev.firstAliased < dev.imageBlockCount)
    (fetched : table.stripeStatus 0 = .fetched) :
    step dev (aliasedListed dev base table) (.poll 0 .success) =
      .ok (aliasedSent dev base table) := by
  have polled : ubiCompleteImageIo dev (aliasedListed dev base table) 0 .success =
      (0, aliasedListed dev base table) := rfl
  have io : ((aliasedListed dev base table).channel 0).io = [0] := rfl
  have started : startStripeFetches dev 0 .success
      (freeStripeFetches ((aliasedListed dev base table).channel 0))
      (aliasedListed dev base table) = .ok (aliasedListed dev base table) := rfl
  have known : (aliasedListed dev base table).request 0 = some (aliasedWrite dev) := rfl
  have gate : ubiGetStripeStatus (aliasedListed dev base table)
      (toCInt ((aliasedWrite dev).startStripe dev)) = some .fetched := by
    rw [aliasedWrite_gate, ← fetched]
    rfl
  have write : ¬ ((aliasedWrite dev).type = .read ∧ ubiMaxConcurrentReads ≤
      ((aliasedListed dev base table).channel 0).activeReads) := fun h => nomatch h.1
  have gated : (aliasedWrite dev).type ≠ .flush ∧
      (aliasedWrite dev).offsetBlocks < dev.imageBlockCount := ⟨nofun, image⟩
  have first : processFirst dev (aliasedListed dev base table) 0 0 [] .success =
      .ok (true, aliasedSent dev base table) := by
    simp only [processFirst, known, if_neg write, if_pos gated, gate]
    rfl
  have idle : ((aliasedSent dev base table).channel 0).hasReads = 0 := by
    unfold aliasedSent ubiSubmitWriteRequest
    dsimp only
    split <;> rfl
  simp only [step, ubiIoPoll, io, polled, started, processIo, first, submitReads, idle,
    List.isEmpty_cons, Bool.false_and, Bool.false_eq_true, if_false, ne_eq, not_true_eq_false]
  rfl

theorem aliasedSent_write (base : Bytes) (table : StripeTable)
    (image : dev.firstAliased < dev.imageBlockCount) :
    ∃ op, (aliasedSent dev base table).writes 0 = some op ∧ op.cb = .io 0 := by
  have fits : baseAccepts dev ((aliasedWrite dev).offsetBlocks + dev.dataOffsetBlocks)
      (aliasedWrite dev).numBlocks 0 = true := by
    have := dev.imageBlockCount_le
    simp only [UbiBdev.ubiBlockcnt] at this
    refine Bool.and_eq_true_iff.mpr ⟨decide_eq_true ?_, rfl⟩
    simp only [aliasedWrite]
    omega
  unfold aliasedSent ubiSubmitWriteRequest
  simp only [fits, if_true]
  exact ⟨_, rfl, rfl⟩

theorem aliasedSent_ungated (image : dev.firstAliased < dev.imageBlockCount) :
    ¬ WritesGated dev (aliasedSent dev base table) := by
  intro gated
  obtain ⟨op, write, cb⟩ := aliasedSent_write base table image
  have known : (aliasedSent dev base table).request 0 = some (aliasedWrite dev) := by
    unfold aliasedSent ubiSubmitWriteRequest
    dsimp only
    split <;> rfl
  obtain ⟨x, own, bound, _⟩ := ubiGetStripeStatus_eq_some.mp (gated 0 op 0 _ write cb known image)
  rw [aliasedWrite_startStripe] at own
  simp only [ubiMaxStripes] at bound
  omega

theorem aliasedSent_issued (dev : UbiBdev) : FetchesIssued (aliasedSent dev base table).log := by
  unfold aliasedSent ubiSubmitWriteRequest
  dsimp only
  split <;> simp [FetchesIssued, takeFirst, removeFirst, aliasedListed, insertTail, State.emit,
    State.setChannel, State.startWrite, newState]

end Aliased

/-- The life cycle of the stripes, for any failures but those of `io_uring_submit` in
`ubi_start_fetch_stripe`; and the images over which a WRITE waits for its own stripe. -/
theorem stripe_lifecycle_iff (dev : UbiBdev) :
    (∀ base s₀ s, Created dev base s₀ → Reach dev anyStep s₀ s → FetchesIssued s.log →
      StripeLives s₀.stripeStatus s) ∧
    ((∀ base s₀ s, Created dev base s₀ → Reach dev anyStep s₀ s → FetchesIssued s.log →
      WritesGated dev s) ↔ dev.imageBlockCount ≤ 2 ^ 32 * dev.stripeBlockCount) := by
  refine ⟨fun base s₀ s created run issued => (lifecycle_reach created run issued).stripeLives,
    fun gated => ?_, fun small base s₀ s created run issued =>
      writesGated_of_small small (lifecycle_reach created run issued).gated⟩
  by_contra large
  have image : dev.firstAliased < dev.imageBlockCount := Nat.lt_of_not_le large
  obtain ⟨table, created, fetched⟩ := firstFetchedBase_created dev
  exact aliasedSent_ungated image (gated _ _ _ created
    (.tail (.tail .refl trivial (aliasedListed_step image fetched)) trivial
      (aliasedSent_step image fetched)) (aliasedSent_issued dev))

/-- The fetched stripe lets the WRITE that asked for it through. -/
theorem stripe_lifecycle_writeSent :
    ∃ s op, Reach (threeBlockBdev false) anyStep (blankState (threeBlockBdev false)) s ∧
      s.writes 1 = some op ∧ op.cb = .io 0 ∧ op.startBlock = 128 ∧
      OneLife .notFetched .fetched (tally 0 s.log).statuses ∧
      ubiGetStripeStatus s 0 = some .fetched := by
  have ran : (Runs.exec (step (threeBlockBdev false)) (fun _ _ => true)
      (blankState (threeBlockBdev false)) (fetchFirst 65536 true ++ [.poll 0 .success])).any
      (fun s => decide (FetchesIssued s.log ∧ s.stripeStatus 0 = .fetched) &&
        decide ((s.request 0).map (·.offsetBlocks) = some 0) &&
        decide ((s.writes 1).map (fun op => (op.cb, op.startBlock)) = some (.io 0, 128))) =
      true := by decide +kernel
  obtain ⟨s, run, test⟩ := Runs.exists_reach_of_exec (fun _ _ _ _ => trivial) ran
  simp only [Bool.and_eq_true, decide_eq_true_eq, Option.map_eq_some_iff, Prod.mk.injEq] at test
  obtain ⟨⟨⟨issued, status⟩, r, known, first⟩, op, write, cb, start⟩ := test
  obtain ⟨lives, gates⟩ := stripe_lifecycle_iff (threeBlockBdev false)
  have life := (lives _ _ _ (created_blankState _) run issued).life 0
  have gate := gates.mpr (by decide) _ _ _ (created_blankState _) run issued 1 op 0 r write cb known
    (by rw [first]; decide)
  have own : r.startStripe (threeBlockBdev false) = 0 := by simp [Request.startStripe, first]
  rw [status] at life
  rw [own] at gate
  exact ⟨s, op, run, write, cb, start, life, gate⟩

/-- An image of one block more than 2^32 stripes of one block. -/
def vastBdev : UbiBdev where
  blocklen := 65536
  blockcnt := 4294967425
  imageSize := 281474976776192
  image := fun _ => 7
  stripeSizeKb := 64
  noSync := false
  copyOnRead := false
  layout := ⟨1, 0, 128, 4294967297⟩
  imageSize_lt := by decide
  blockcnt_lt := by decide
  init := by decide

/-- The fetch that a WRITE to block 2^32 causes is that of stripe 0. -/
def fetchAliased : List Event :=
  [.submit 0 0 (aliasedWrite vastBdev), .poll 0 .success, .uring 0 0 65536, .poll 0 .success,
    .sample 0 [128], .land 0 [128], .writeDone 0 true 0, .poll 0 .success]

/-- The WRITE to block 2^32 is with the base bdev once stripe 0 has been fetched. Its own stripe
was never enqueued and has no status. -/
theorem vast_write_ungated :
    ∃ s r op, Reach vastBdev anyStep (blankState vastBdev) s ∧ FetchesIssued s.log ∧
      s.request 0 = some r ∧ r.type = .write ∧ r.offsetBlocks = 2 ^ 32 ∧
      s.writes 1 = some op ∧ op.cb = .io 0 ∧ op.startBlock = 2 ^ 32 + 128 ∧
      s.stripeStatus 0 = .fetched ∧ (tally (2 ^ 32) s.log).enqueued = 0 ∧
      ¬ WritesGated vastBdev s := by
  have ran : (Runs.exec (step vastBdev) (fun _ _ => true) (blankState vastBdev) fetchAliased).any
      (fun s => decide (FetchesIssued s.log ∧ s.stripeStatus 0 = .fetched ∧
          (tally (2 ^ 32) s.log).enqueued = 0) &&
        decide ((s.request 0).map (fun r => (r.type, r.offsetBlocks)) = some (.write, 2 ^ 32)) &&
        decide ((s.writes 1).map (fun op => (op.cb, op.startBlock)) =
          some (.io 0, 2 ^ 32 + 128))) = true := by decide +kernel
  obtain ⟨s, run, test⟩ := Runs.exists_reach_of_exec (fun _ _ _ _ => trivial) ran
  simp only [Bool.and_eq_true, decide_eq_true_eq, Option.map_eq_some_iff, Prod.mk.injEq] at test
  obtain ⟨⟨⟨issued, fetched, never⟩, r, known, type, first⟩, op, write, cb, start⟩ := test
  refine ⟨s, r, op, run, issued, known, type, first, write, cb, start, fetched, never,
    fun gated => ?_⟩
  obtain ⟨x, own, bound, _⟩ := ubiGetStripeStatus_eq_some.mp
    (gated 1 op 0 r write cb known (by rw [first]; decide))
  have stripe : r.startStripe vastBdev = 2 ^ 32 := by
    rw [Request.startStripe, first]
    rfl
  rw [stripe] at own
  simp only [ubiMaxStripes] at bound
  omega

end BdevUbi
