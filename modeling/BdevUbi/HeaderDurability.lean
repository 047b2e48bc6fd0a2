import BdevUbi.ImageReads
import BdevUbi.MetadataEncoding

/-!
Crash consistency of the stripe headers. A header may only reach the base bdev when the
data of its stripe is durable there. A FLUSH makes the data of its own range durable and
then writes the headers of all stripes, so this is left to the caller.
-/

namespace BdevUbi
open VolatileDisk RegularRegister

def UbiBdev.headerBlock (dev : UbiBdev) (x : Nat) : Nat := stripeHeaderOffset x / dev.blocklen

variable {dev : UbiBdev} {s₀ s t : State} {l : Label}

theorem headerBlock_lt {x : Nat} (bound : x < ubiMaxStripes) :
    dev.headerBlock x < dev.dataOffsetBlocks := by
  rw [UbiBdev.headerBlock, Nat.div_lt_iff_lt_mul dev.blocklen_pos, dev.dataOffset_bytes]
  exact stripeHeaderOffset_lt bound

theorem metadata_of_sampled (placed : FetchesPlaced dev s) (writes : WritesMatch dev s) {o b : Nat}
    {op : BaseWrite} (write : s.writes o = some op) (sampled : op.sampled b ≠ none)
    (front : b < dev.dataOffsetBlocks) : ∃ id, op.cb = .metadata id := by
  have matched := writes o op write
  have range := matched.sampled _ sampled
  cases cb : op.cb with
  | io id =>
      obtain ⟨r, _, _, start, _⟩ := matched.io id cb
      omega
  | stripe c k =>
      have start := (placed.writes o op c k write cb).1
      simp only [UbiBdev.stripeStart] at start
      omega
  | metadata id => exact ⟨id, rfl⟩

theorem front_landed_act (placed : FetchesPlaced dev s) (writes : WritesMatch dev s)
    (act : Act dev s l t) {b v : Nat} (front : b < dev.dataOffsetBlocks)
    (made : v ≤ t.disk.latest b) : v ≤ s.disk.latest b ∨
      ∃ o op op' id data, s.writes o = some op ∧ op.cb = .metadata id ∧ op.sampled b = some data ∧
        t.disk.version b v = data ∧ t.writes o = some op' ∧ op'.cb = .metadata id ∧
        op'.landed b = some v := by
  cases act_writeEffect act with
  | stay _ kept | start _ _ _ _ _ kept => exact .inl (kept.latest ▸ made)
  | sample _ _ _ _ _ _ after =>
      rw [after] at made
      exact .inl made
  | finish _ _ success _ _ _ _ settled =>
      rw [settled] at made
      cases success <;> exact .inl made
  | land o op b' data write sample _ after =>
      by_cases old : v ≤ s.disk.latest b
      · exact .inl old
      rw [after] at made
      simp only [Disk.latest_write] at made
      split at made
      · next here =>
          subst here
          obtain rfl : v = s.disk.latest b + 1 := by omega
          obtain ⟨id, cb⟩ := metadata_of_sampled placed writes write (by simp [sample]) front
          refine .inr ⟨o, op, { op with landed := Function.update op.landed b _ }, id, data, write,
            cb, sample, ?_, ?_, cb, Function.update_self ..⟩
          · rw [after, Disk.version_write_latest]
          · rw [after]
            exact Function.update_self ..
      · exact absurd made old

theorem front_version_act (placed : FetchesPlaced dev s) (writes : WritesMatch dev s)
    (act : Act dev s l t) {b v : Nat} (front : b < dev.dataOffsetBlocks)
    (made : v ≤ t.disk.latest b) : v ≤ s.disk.latest b ∨
      ∃ o op id data, s.writes o = some op ∧ op.cb = .metadata id ∧ op.sampled b = some data ∧
        t.disk.version b v = data := by
  rcases front_landed_act placed writes act front made with old |
    ⟨o, op, _, id, data, write, cb, sample, version, _⟩
  · exact .inl old
  · exact .inr ⟨o, op, id, data, write, cb, sample, version⟩

/-- The fetched data of a stripe's image blocks is durable. -/
def Secured (dev : UbiBdev) (s : State) (x : Nat) : Prop :=
  ∀ B, B < dev.imageBlockCount → dev.stripeOf B = x → 0 < s.disk.durable (dev.dataBlock B)

theorem secured_act (act : Act dev s l t) {x : Nat} (h : Secured dev s x) : Secured dev t x :=
  fun B image stripe => (h B image stripe).trans_le (durable_mono act _)

/-- Data before headers. A stripe's base write completes only while no metadata write is
outstanding; and when the completion of a data flush starts a metadata write, the
data of every fetched stripe is durable, or that flush makes it durable. -/
structure DataFirst (dev : UbiBdev) (s : State) (l : Label) : Prop where
  alone : ∀ o success op c k, l = .writeDone o success → s.writes o = some op →
    op.cb = .stripe c k → ∀ o' op' id, s.writes o' = some op' → op'.cb ≠ .metadata id
  covered : ∀ o op id, l = .flushDone o true → s.flushes o = some op → op.cb = .data id →
    s.stripesFetched ≠ s.stripesFlushed → ∀ B, B < dev.imageBlockCount →
    s.stripeStatus (dev.stripeOf B) = .fetched →
    0 < s.disk.durable (dev.dataBlock B) ∨ 0 < op.mark (dev.dataBlock B)

/-- Every header that may be found on the base bdev is that of a secured stripe. -/
structure HeadersSecured (dev : UbiBdev) (s : State) : Prop where
  marks : MarksSettled s
  writing : ∀ o op id x, s.writes o = some op → op.cb = .metadata id →
    s.stripeStatus x = .fetched → Secured dev s x
  sampled : ∀ o op id x data, s.writes o = some op → op.cb = .metadata id → x < ubiMaxStripes →
    op.sampled (dev.headerBlock x) = some data → stripeHeader data x ≠ 0 → Secured dev s x
  versions : ∀ x v, x < ubiMaxStripes → v ≤ s.disk.latest (dev.headerBlock x) →
    stripeHeader (s.disk.version (dev.headerBlock x) v) x ≠ 0 → Secured dev s x

theorem headersSecured_act (placed : FetchesPlaced dev s) (writes : WritesMatch dev s)
    (encodes : Encodes s) (first : DataFirst dev s l) (before : HeadersSecured dev s)
    (act : Act dev s l t) : HeadersSecured dev t where
  marks := marksSettled_act before.marks act
  writing o op' id x write' cb' fetched := by
    rcases metadataWrite_origin act write' cb' with ⟨op, write, cb⟩ |
      ⟨o', op, label, flush, cb, dirty, disk, status, _⟩
    · by_cases earlier : s.stripeStatus x = .fetched
      · exact secured_act act (before.writing o op id x write cb earlier)
      · obtain ⟨o', op', c, k, success, label, write', cb', _⟩ := fetched_act act fetched earlier
        exact absurd cb (first.alone o' success op' c k label write' cb' o op id write)
    · intro B image stripe
      rw [status, ← stripe] at fetched
      rcases first.covered o' op id label flush cb dirty B image fetched with old | marked
      · exact old.trans_le (durable_mono act _)
      · exact marked.trans_le (mark_le_durable before.marks flush disk _)
  sampled o op' id x data write' cb' bound sample set := by
    cases write_origin act write' with
    | new _ _ unsampled => simp [unsampled] at sample
    | old op write cb _ _ sampled =>
        have cb := cb.symm.trans cb'
        apply secured_act act
        rcases sampled _ data sample with old | ⟨_, rfl⟩
        · exact before.sampled o op id x data write cb bound old set
        · -- the block is taken from the live metadata
          rw [((writes o op write).metadata id cb).1, cb] at set
          exact before.writing o op id x write cb ((encodes x bound).mp (by simpa [stripeHeader,
            writeBuffer] using set))
  versions x v bound made set := by
    apply secured_act act
    rcases front_version_act placed writes act (headerBlock_lt bound) made with old |
      ⟨o, op, id, data, write, cb, sample, version⟩
    · rw [version_kept act old] at set
      exact before.versions x v bound old set
    · rw [version] at set
      exact before.sampled o op id x data write cb bound sample set

theorem dataFirst_quiet (dev : UbiBdev) (s : State) : DataFirst dev s .quiet :=
  ⟨by rintro _ _ _ _ _ ⟨⟩, by rintro _ _ _ ⟨⟩⟩

def BlankMetadata (base : Bytes) : Prop := ∀ a, a < ubiMetadataSize → base a = 0

section Blank

variable {base : Bytes} (created : Created dev base s₀) (blank : BlankMetadata base)

include blank

theorem BlankMetadata.header {x : Nat} (bound : x < ubiMaxStripes) : stripeHeader base x = 0 :=
  blank _ (stripeHeaderOffset_lt bound)

include created

theorem unfetched_created (x : Nat) : s₀.stripeStatus x = .notFetched := by
  obtain ⟨table, decoded, rfl⟩ := created
  rcases ubiFinishReadMetadata_ok decoded with ⟨_, status, _⟩ | ⟨old, _⟩
  · exact status x
  · have new : ubiNewDisk base = true := by
      simp only [ubiNewDisk, List.all_eq_true, List.mem_range, beq_iff_eq]
      intro i bound
      exact blank i (bound.trans (by decide))
    simp [new] at old

theorem headersSecured_created : HeadersSecured dev s₀ := by
  obtain ⟨table, _, rfl⟩ := created
  refine ⟨by simp [MarksSettled, newState], by simp [newState], by simp [newState],
    fun x v bound _ set => ?_⟩
  exact absurd (blank.header bound) set

theorem headersSecured_reach (run : Reach dev (Permitted (DataFirst dev)) s₀ s)
    (issued : FetchesIssued s.log) : HeadersSecured dev s := by
  have start := encodes_created created fun _ _ bound => blank.header bound
  exact (reach_invariant_permitted (P := fun s => Lifecycle dev s₀.stripeStatus s ∧
      WritesMatch dev s ∧ Recorded s₀ s ∧ HeadersSecured dev s)
    (dataFirst_quiet dev) fetchesIssued_earlier
    (fun ⟨life, writes, recorded, secured⟩ first issued act =>
      ⟨lifecycle_act (created_settled created) life issued act, writesMatch_act writes act,
        recorded_act life.placed recorded issued act,
        headersSecured_act life.placed writes (encodes_of_stages life.stages recorded start) first
          secured act⟩)
    run ⟨lifecycle_created created, writesMatch_created created, recorded_created created,
      headersSecured_created created blank⟩ issued).2.2.2

theorem byteInv_blank (run : Reach dev (Permitted (SplitAtStripes dev)) s₀ s)
    (faultless : Faultless dev s.log) {p : Nat} (block : ImageBlock dev (p / dev.blocklen))
    (image : p < dev.imageSize) : ByteInv dev s₀.stripeStatus 1 p (dev.image p) s := by
  have unfetched := unfetched_created created blank (dev.stripeOf (p / dev.blocklen))
  simpa [initialVersion, initialByte, unfetched] using
    byteInv_reach created run faultless block fun _ => image

end Blank

/-- What a crash leaves of one block is one of its versions, not older than the durable
one. -/
theorem crash_version {found : Bytes} (crash : CrashContent dev s found) (b : Nat) :
    ∃ v, s.disk.durable b ≤ v ∧ v ≤ s.disk.latest b ∧
      ∀ a, a / dev.blocklen = b → found a = s.disk.version b v a := by
  obtain ⟨blocks, survives, content⟩ := crash
  obtain ⟨v, low, high, block⟩ := survives b
  exact ⟨v, low, high, fun a here => by rw [content, here, block]⟩

/-- The base bdev has every image byte of stripe `x` in a durable version. -/
def FetchDurable (dev : UbiBdev) (s : State) (x : Nat) : Prop :=
  ∀ p, p < dev.imageSize → p / dev.stripeBytes = x →
    ∃ v, 0 < v ∧ v ≤ s.disk.durable (dev.dataBlock (p / dev.blocklen)) ∧
      s.disk.version (dev.dataBlock (p / dev.blocklen)) v (ubiMetadataSize + p) = dev.image p

theorem fetchDurable_of_secured {x : Nat} (secured : Secured dev s x)
    (bytes : ∀ p, p < dev.imageSize → p / dev.stripeBytes = x →
      FetchedBlock dev (p / dev.blocklen) s) : FetchDurable dev s x := by
  intro p image stripe
  have durable := secured (p / dev.blocklen) (dev.div_lt_imageBlockCount image)
    (by rw [← stripe, dev.div_stripeBytes])
  exact ⟨1, Nat.one_pos, durable, (bytes p image stripe).image p image rfl
    (durable.trans_le (s.disk.durable_le_latest _))⟩

theorem ByteInv.fetchedBlock {init : Nat → StripeStatus} {p : Nat} {initial : UInt8}
    (inv : ByteInv dev init 1 p initial s) : FetchedBlock dev (p / dev.blocklen) s := by
  rcases inv.starts with ⟨zero, _⟩ | ⟨_, block⟩
  · cases zero
  · exact block

/-- A block that no WRITE touches holds the image once its fetched data is durable. -/
theorem ByteInv.found_image {init : Nat → StripeStatus} {p : Nat} {found : Bytes}
    (inv : ByteInv dev init 1 p (dev.image p) s) (image : p < dev.imageSize)
    (crash : CrashContent dev s found) (unwritten : ∀ w, ¬ WritesByte dev p s w)
    (durable : 0 < s.disk.durable (dev.dataBlock (p / dev.blocklen))) :
    found (ubiMetadataSize + p) = dev.image p := by
  obtain ⟨v, low, high, content⟩ := crash_version crash (dev.dataBlock (p / dev.blocklen))
  obtain ⟨maker, ledger⟩ := inv.ledger
  have first : v = 1 := by
    by_contra other
    have rel := ledger.ledger.made v (by omega) high
    rw [← writesByte_eq] at rel
    exact unwritten _ rel
  rw [content _ (dev.base_block_of_byte p), first]
  exact inv.fetchedBlock.image p image rfl (by omega)

theorem header_of_fetched {found : Bytes} (created : Created dev found s) {x : Nat}
    (fetched : s.stripeStatus x = .fetched) : x < ubiMaxStripes ∧ stripeHeader found x ≠ 0 := by
  obtain ⟨table, decoded, rfl⟩ := created
  change table.stripeStatus x = .fetched at fetched
  rcases ubiFinishReadMetadata_ok decoded with ⟨_, status, _⟩ | ⟨_, _, _, status, _⟩
  · simp [status] at fetched
  · rw [status] at fetched
    by_contra unset
    simp [unset] at fetched

theorem metadata_of_fetched {found : Bytes} (created : Created dev found s) {x : Nat}
    (fetched : s.stripeStatus x = .fetched) : s.metadata = found := by
  obtain ⟨table, decoded, rfl⟩ := created
  change table.stripeStatus x = .fetched at fetched
  rcases ubiFinishReadMetadata_ok decoded with ⟨_, status, _⟩ | ⟨_, _, _, _, metadata, _⟩
  · simp [status] at fetched
  · exact metadata

/-- If data comes before headers, every header a crash may leave is that of a stripe whose
fetched data is durable, and an image block that was never written still reads as the
image's after the bdev is created again. -/
theorem headers_after_crash {base found : Bytes} (created : Created dev base s₀)
    (blank : BlankMetadata base)
    (run : Reach dev (Permitted fun s l => SplitAtStripes dev s l ∧ DataFirst dev s l) s₀ s)
    (faultless : Faultless dev s.log)
    (stripes : dev.imageSize ≤ ubiMaxStripes * dev.stripeBytes)
    (crash : CrashContent dev s found) :
    (∀ x, x < ubiMaxStripes → stripeHeader found x ≠ 0 → FetchDurable dev s x) ∧
    ∀ s₁ s₂ p rd r, Created dev found s₁ → Reach dev (Permitted (SplitAtStripes dev)) s₁ s₂ →
      Faultless dev s₂.log → p < dev.imageSize → (∀ w, ¬ WritesByte dev p s w) →
      (∀ w, ¬ WritesByte dev p s₂ w) → s₂.request rd = some r → r.type = .read →
      r.Covers dev p → .completed rd true ∈ s₂.log →
      s₂.buffer rd (p - r.offsetBlocks * dev.blocklen) = dev.image p := by
  have bytes {p : Nat} (image : p < dev.imageSize) :
      ByteInv dev s₀.stripeStatus 1 p (dev.image p) s :=
    byteInv_blank created blank (run.mono fun _ _ h => h.1) faultless
      (imageBlock_of_byte stripes image) image
  have secured {x : Nat} (bound : x < ubiMaxStripes) (set : stripeHeader found x ≠ 0) :
      Secured dev s x := by
    obtain ⟨v, _, made, content⟩ := crash_version crash (dev.headerBlock x)
    rw [stripeHeader, content _ rfl] at set
    exact (headersSecured_reach created blank (run.mono fun _ _ h => h.2)
      faultless.issued).versions x v bound made set
  refine ⟨fun x bound set => fetchDurable_of_secured (secured bound set)
    fun p image _ => (bytes image).fetchedBlock, ?_⟩
  intro s₁ s₂ p rd r again run' faultless' image unwritten unwritten' known type covers done
  obtain ⟨src, supplies, _⟩ := (byteInv_reach again run' faultless'
    (imageBlock_of_byte stripes image) fun _ => image).reads.done rd r done known type covers
  cases src with
  | some w =>
      obtain ⟨r', known', type', covers', _⟩ := supplies
      exact absurd ⟨r', known', type', covers'⟩ (unwritten' w)
  | none =>
      refine Eq.trans supplies ?_
      unfold initialByte
      split
      · next fetched =>
          obtain ⟨bound, set⟩ := header_of_fetched again fetched
          exact (bytes image).found_image image crash unwritten
            (secured bound set _ (dev.div_lt_imageBlockCount image) rfl)
      · rfl

def dataFirst (dev : UbiBdev) (s : State) : Event → Bool
  | .writeDone _ _ _ => (List.range s.nextWrite).all fun o => (s.writes o).all fun op =>
      match op.cb with
      | .metadata _ => false
      | _ => true
  | .flushDone o _ _ => (s.flushes o).all fun op => (List.range dev.imageBlockCount).all fun B =>
      decide (0 < s.disk.durable (dev.dataBlock B) ∨ 0 < op.mark (dev.dataBlock B) ∨
        s.stripeStatus (dev.stripeOf B) ≠ .fetched)
  | _ => true

theorem dataFirst_sound (fresh : OpsFresh s) {e : Event} (h : dataFirst dev s e = true) :
    Permitted (DataFirst dev) s e := by
  constructor
  · rintro o success op c k label write cb o' op' id write' cb'
    cases e <;> cases label
    have old : o' < s.nextWrite := by
      by_contra new
      simp [fresh.writes o' (by omega)] at write'
    simp only [dataFirst, List.all_eq_true, List.mem_range] at h
    simpa [write', cb'] using h o' old
  · rintro o op id label flush cb dirty B image fetched
    cases e <;> cases label
    simp only [dataFirst, flush, Option.all_some, List.all_eq_true, List.mem_range,
      decide_eq_true_eq] at h
    rcases h B image with durable | marked | unfetched
    · exact .inl durable
    · exact .inr marked
    · exact absurd fetched unfetched

/-- What a crash leaves that loses all of block `b` that is not durable. -/
def contentLosing (dev : UbiBdev) (s : State) (b : Nat) : Bytes := fun a =>
  if a / dev.blocklen = b then s.disk.version b (s.disk.durable b) a else s.content dev a

theorem crashContent_losing (dev : UbiBdev) (s : State) (b : Nat) :
    CrashContent dev s (contentLosing dev s b) := by
  refine ⟨fun b' => if b' = b then s.disk.version b (s.disk.durable b) else s.disk.current b',
    fun b' => ?_, fun a => ?_⟩
  · by_cases here : b' = b
    · subst here
      exact ⟨_, le_rfl, s.disk.durable_le_latest b', by simp⟩
    · exact ⟨_, s.disk.durable_le_latest b', le_rfl, by simp [here, Disk.current]⟩
  · unfold contentLosing State.content
    split
    · next here => simp [here]
    · next other => simp [other]

/-- A READ has stripe 0 fetched. A FLUSH of `numBlocks` blocks at `offset` follows, up to
the moment its metadata write has taken effect on the first block. -/
def fetchThenFlush (offset numBlocks : Nat) : List Event :=
  [.submit 0 0 ⟨.read, 0, 1, fun _ => 0⟩, .poll 0 .success, .uring 0 0 65536, .poll 0 .success,
    .sample 0 [128], .land 0 [128], .writeDone 0 true 0,
    .submit 0 1 ⟨.flush, offset, numBlocks, fun _ => 0⟩, .poll 0 .success, .flushDone 0 true 0,
    .sample 1 [0], .land 1 [0]]

theorem headers_after_crash_fetchThenFlush :
    ∃ s, Reach (threeBlockBdev true) (Permitted fun s l =>
        SplitAtStripes (threeBlockBdev true) s l ∧ DataFirst (threeBlockBdev true) s l)
        (blankState (threeBlockBdev true)) s ∧
      stripeHeader (contentLosing (threeBlockBdev true) s 128) 0 ≠ 0 ∧
      FetchDurable (threeBlockBdev true) s 0 := by
  have created := created_blankState (threeBlockBdev true)
  have ran : (Runs.exec (step (threeBlockBdev true)) (fun s e =>
      splitAtStripes (threeBlockBdev true) s e && dataFirst (threeBlockBdev true) s e)
      (blankState (threeBlockBdev true)) (fetchThenFlush 0 3)).any (fun s =>
        decide (Faultless (threeBlockBdev true) s.log ∧
          stripeHeader (contentLosing (threeBlockBdev true) s 128) 0 ≠ 0)) = true := by
    decide +kernel
  obtain ⟨s, run, test⟩ := Runs.exists_reach_of_exec (fun s e run ok =>
    (⟨splitAtStripes_sound _ _ _ (Bool.and_eq_true_iff.mp ok).1,
        dataFirst_sound (requestsPlaced_reach created run).fresh (Bool.and_eq_true_iff.mp ok).2⟩ :
      Permitted (fun s l => SplitAtStripes (threeBlockBdev true) s l ∧
        DataFirst (threeBlockBdev true) s l) s e)) ran
  obtain ⟨faultless, set⟩ := of_decide_eq_true test
  exact ⟨s, run, set, (headers_after_crash created (fun _ _ => rfl) run faultless (by decide)
    (crashContent_losing _ s 128)).1 0 (by decide) set⟩

/-- The test passes for every request of the history. -/
def allRequests (s : State) (test : Request → Bool) : Bool :=
  s.log.all fun o => match o with
    | .submitted id => (s.request id).all test
    | _ => true

theorem allRequests_sound {base : Bytes} {allowed : State → Event → Prop} {test : Request → Bool}
    (created : Created dev base s₀) (run : Reach dev allowed s₀ s)
    (h : allRequests s test = true) {id : ReqId} {r : Request} (known : s.request id = some r) :
    test r = true := by
  have logged := List.all_eq_true.mp h _ (submitted_reach created run id r known)
  simpa [known] using logged

def noWrites (s : State) : Bool := allRequests s fun r => r.type != .write

theorem unwritten_of_noWrites {base : Bytes} {allowed : State → Event → Prop}
    (created : Created dev base s₀) (run : Reach dev allowed s₀ s) (h : noWrites s = true)
    (p : Nat) (w : ReqId) : ¬ WritesByte dev p s w := by
  rintro ⟨r, known, type, _⟩
  simpa [type] using allRequests_sound created run h known

/-- The test passes for the first and the last state of a life that begins over the content
`found` and takes the events. -/
def nextLife (dev : UbiBdev) (found : Bytes) (events : List Event) (test : State → State → Bool) :
    Bool :=
  match ubiFinishReadMetadata dev.stripeSizeKb true found with
  | .error _ => false
  | .ok table => (Runs.exec (step dev) (fun _ _ => true) (newState found table) events).any
      (test (newState found table))

theorem nextLife_sound {found : Bytes} {events : List Event} {test : State → State → Bool}
    (h : nextLife dev found events test = true) :
    ∃ s₁ s₂, Created dev found s₁ ∧ Reach dev anyStep s₁ s₂ ∧ test s₁ s₂ = true := by
  unfold nextLife at h
  split at h
  · cases h
  next table decoded =>
  obtain ⟨s₂, run, passed⟩ := Runs.exists_reach_of_exec (fun _ _ _ _ => trivial) h
  exact ⟨_, s₂, ⟨table, decoded, rfl⟩, run, passed⟩

def readAgain : List Event :=
  [.submit 0 0 ⟨.read, 0, 1, fun _ => 9⟩, .poll 0 .success, .transfer 0 [128], .readDone 0 true]

/-- A FLUSH of block 1 makes the header of stripe 0 reach the base bdev although the data
of the stripe is not durable; after a crash block 0 no longer reads as the image's. -/
theorem flush_exposes_header :
    ∃ s found s₁ s₂, Reach (threeBlockBdev true) anyStep (blankState (threeBlockBdev true)) s ∧
      Faultless (threeBlockBdev true) s.log ∧ CrashContent (threeBlockBdev true) s found ∧
      stripeHeader found 0 ≠ 0 ∧ ¬ FetchDurable (threeBlockBdev true) s 0 ∧
      Created (threeBlockBdev true) found s₁ ∧ Reach (threeBlockBdev true) anyStep s₁ s₂ ∧
      Faultless (threeBlockBdev true) s₂.log ∧
      (∀ w, ¬ WritesByte (threeBlockBdev true) 0 s w) ∧
      (∀ w, ¬ WritesByte (threeBlockBdev true) 0 s₂ w) ∧ .completed 0 true ∈ s₂.log ∧
      s₂.buffer 0 0 ≠ (threeBlockBdev true).image 0 := by
  have ran : (Runs.exec (step (threeBlockBdev true)) (fun _ _ => true)
      (blankState (threeBlockBdev true)) (fetchThenFlush 1 1)).any (fun s =>
        decide (Faultless (threeBlockBdev true) s.log ∧
          stripeHeader (contentLosing (threeBlockBdev true) s 128) 0 ≠ 0 ∧
          s.disk.durable 128 = 0 ∧ noWrites s) &&
        nextLife (threeBlockBdev true) (contentLosing (threeBlockBdev true) s 128) readAgain
          fun _ s₂ => decide (Faultless (threeBlockBdev true) s₂.log ∧ noWrites s₂ ∧
            .completed 0 true ∈ s₂.log ∧ s₂.buffer 0 0 ≠ 7)) = true := by
    decide +kernel
  obtain ⟨s, run, test⟩ := Runs.exists_reach_of_exec (fun _ _ _ _ => trivial) ran
  simp only [Bool.and_eq_true, decide_eq_true_eq] at test
  obtain ⟨⟨faultless, set, lost, reads⟩, again⟩ := test
  obtain ⟨s₁, s₂, created, run₂, test⟩ := nextLife_sound again
  obtain ⟨faultless₂, reads₂, done, differs⟩ := of_decide_eq_true test
  refine ⟨s, _, s₁, s₂, run, faultless, crashContent_losing _ s 128, set, fun durable => ?_,
    created, run₂, faultless₂, unwritten_of_noWrites (created_blankState _) run reads 0,
    unwritten_of_noWrites created run₂ reads₂ 0, done, differs⟩
  obtain ⟨v, low, high, _⟩ := durable 0 (by decide) (by decide)
  exact absurd (high.trans_eq lost) (by omega)

end BdevUbi
