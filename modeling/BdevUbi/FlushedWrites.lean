import BdevUbi.MetadataWrites

/-!
Durability of flushed WRITEs. A WRITE that completed before a FLUSH of its block was
submitted is durable once the data flush has completed, and the header of its stripe is
when the FLUSH has; then a bdev created after a crash reads it, or a later WRITE.
-/

namespace BdevUbi
open VolatileDisk History RegularRegister

variable {dev : UbiBdev} {s₀ s t : State} {l : Label} {B : Nat} {maker : Nat → ReqId}

/-- The WRITE's version of block `B` is one of those up to `v`. -/
def MadeBy (maker : Nat → ReqId) (v : Nat) (w : ReqId) : Prop := ∃ u, 1 < u ∧ u ≤ v ∧ maker u = w

def Precedes (B : Nat) (s : State) (w f : ReqId) : Prop :=
  WritesBlock B s w ∧ Before (.completed w true) (.submitted f) s.log

def FlushesBlock (B : Nat) (s : State) (f : ReqId) : Prop :=
  ∃ r, s.request f = some r ∧ r.type = .flush ∧ r.CoversBlock B

/-- What FLUSHes have found of the WRITEs that precede them. -/
structure FlushData (dev : UbiBdev) (B : Nat) (maker : Nat → ReqId) (s : State) : Prop where
  pending : ∀ o op f, s.flushes o = some op → op.cb = .data f → FlushesBlock B s f →
    ∀ w, Precedes B s w f → MadeBy maker (op.mark (dev.dataBlock B)) w
  done : ∀ f, .dataFlushDone f true ∈ s.log → FlushesBlock B s f →
    ∀ w, Precedes B s w f →
      Synced (dev.stripeOf B) f s.log ∧ MadeBy maker (s.disk.durable (dev.dataBlock B)) w

theorem precedes_act (inv : RequestsPlaced s) (act : Act dev s l t) {w f : ReqId}
    (known : s.request f ≠ none) (h : Precedes B t w f) : Precedes B s w f := by
  obtain ⟨⟨r, known', rest⟩, before⟩ := h
  have before := submission_frozen act known before
  exact ⟨⟨r, known_of_completed inv act ((act_log act).subset before.mem_left) known', rest⟩,
    before⟩

theorem flushesBlock_act (act : Act dev s l t) {f : ReqId} (known : s.request f ≠ none)
    (h : FlushesBlock B t f) : FlushesBlock B s f := by
  obtain ⟨r, known', rest⟩ := h
  obtain ⟨r', before⟩ := Option.ne_none_iff_exists'.mp known
  exact ⟨r, before.trans ((act_request act before).symm.trans known'), rest⟩

theorem dataFlushDone_act (act : Act dev s l t) {f : ReqId}
    (after : .dataFlushDone f true ∈ t.log) (before : .dataFlushDone f true ∉ s.log) :
    ∃ o op, s.flushes o = some op ∧ op.cb = .data f ∧ t.disk = s.disk.flush op.mark ∧
      ∀ e ∈ s.log, Before e (.dataFlushDone f true) t.log := by
  cases act <;> first | exact absurd after before | grind [before_cons]

theorem MadeBy.mono {maker' : Nat → ReqId} {v v' : Nat} {w : ReqId} (h : MadeBy maker v w)
    (le : v ≤ v') (agree : ∀ u, u ≤ v → maker' u = maker u) : MadeBy maker' v' w := by
  obtain ⟨u, low, high, made⟩ := h
  exact ⟨u, low, high.trans le, (agree u high).trans made⟩

/-- A WRITE completes only after its stripe has been fetched. -/
theorem fetched_of_completed (ledger : BlockLedger dev B 1 maker s) (block : FetchedBlock dev B s)
    {w : ReqId} (rel : WritesBlock B s w) (done : .completed w true ∈ s.log) :
    s.stripeStatus (dev.stripeOf B) = .fetched := by
  by_contra unfetched
  obtain ⟨v, low, high, _⟩ := ledger.ledger.finished w rel done
  have settled := ledger.ledger.settled_le
  rcases block.unfetched unfetched with zero | ⟨one, _⟩ <;> omega

theorem flushData_act {init : Nat → StripeStatus} {maker' : Nat → ReqId}
    (start : init (dev.stripeOf B) = .notFetched) (life : Lifecycle dev init s)
    (kinds : LoggedKinds s) (marks : MarksSettled s) (block : FetchedBlock dev B s)
    (ledger : BlockLedger dev B 1 maker s)
    (agree : ∀ v, v ≤ s.disk.latest (dev.dataBlock B) → maker' v = maker v)
    (before : FlushData dev B maker s) (act : Act dev s l t) : FlushData dev B maker' t := by
  have requests := life.requests
  have marked {o : Nat} {op : BaseFlush} (flush : s.flushes o = some op) :
      op.mark (dev.dataBlock B) ≤ s.disk.latest (dev.dataBlock B) :=
    (marks o op _ flush).trans (s.disk.settled_le _)
  constructor
  · intro o op f flush' cb covers' w precedes'
    rcases flush_origin act flush' with flush | ⟨_, issued⟩
    · obtain ⟨r, known, _⟩ := requests.dataFlush_owner flush cb
      have known : s.request f ≠ none := by simp [known]
      exact (before.pending o op f flush cb (flushesBlock_act act known covers') w
        (precedes_act requests act known precedes')).mono le_rfl fun u h =>
          agree u (h.trans (marked flush))
    · -- the flush finds the WRITE's version settled
      simp only [FlushIssued, cb] at issued
      obtain ⟨c, rest, r, _, known, _, _, _, mark⟩ := issued
      obtain ⟨r', known', _, covers⟩ := flushesBlock_act act (by simp [known]) covers'
      obtain rfl : r = r' := Option.some.inj (known.symm.trans known')
      obtain ⟨rel, earlier⟩ := precedes_act requests act (by simp [known]) precedes'
      obtain ⟨v, low, high, made⟩ := ledger.ledger.finished w rel earlier.mem_left
      refine ⟨v, low, ?_, (agree v (high.trans ledger.ledger.settled_le)).trans made⟩
      obtain ⟨left, right⟩ := covers
      rwa [mark, if_pos ⟨by simp only [UbiBdev.dataBlock]; omega,
        by simp only [UbiBdev.dataBlock]; omega⟩]
  · intro f done covers' w precedes'
    by_cases old : .dataFlushDone f true ∈ s.log
    · obtain ⟨r, known, _⟩ := kinds.flush f true old
      have known : s.request f ≠ none := by simp [known]
      obtain ⟨synced, made⟩ := before.done f old (flushesBlock_act act known covers') w
        (precedes_act requests act known precedes')
      exact ⟨synced.suffix (act_log act), made.mono (durable_mono act _) fun u h =>
        agree u (h.trans (s.disk.durable_le_latest _))⟩
    · obtain ⟨o, op, flush, cb, disk, older⟩ := dataFlushDone_act act done old
      obtain ⟨r, known, _⟩ := requests.dataFlush_owner flush cb
      have known : s.request f ≠ none := by simp [known]
      have precedes := precedes_act requests act known precedes'
      have fetched := fetched_of_completed ledger block precedes.1 precedes.2.mem_left
      refine ⟨older _ (((life.stages _).fetched_iff start).mp fetched), ?_⟩
      exact (before.pending o op f flush cb (flushesBlock_act act known covers') w precedes).mono
        (mark_le_durable marks flush disk _) fun u h => agree u (h.trans (marked flush))

/-- Everything a run without stale metadata writes keeps about block `B`. -/
structure FlushInv (dev : UbiBdev) (init : Nat → StripeStatus) (B : Nat) (s : State) : Prop where
  sup : Supports dev init s
  block : FetchedBlock dev B s
  kinds : LoggedKinds s
  marks : MarksSettled s
  captures : CapturesOrdered s
  logged : FlushLogged s
  header : HeaderKept dev (dev.stripeOf B) s
  data : ∃ maker, BlockLedger dev B 1 maker s ∧ FlushData dev B maker s

theorem flushInv_act {init : Nat → StripeStatus} (sync : dev.noSync = false)
    (settled : ∀ x, init x = .notFetched ∨ init x = .fetched)
    (start : init (dev.stripeOf B) = .notFetched) (image : ImageBlock dev B)
    (inv : FlushInv dev init B s) (split : SplitAtStripes dev s l) (ordered : NoneStale s l)
    (faultless : Faultless dev t.log) (act : Act dev s l t) : FlushInv dev init B t where
  sup := supports_act settled inv.sup split faultless act
  block := fetchedBlock_act inv.sup image inv.block faultless act
  kinds := loggedKinds_act inv.sup.life.requests inv.kinds act
  marks := marksSettled_act inv.marks act
  captures := capturesOrdered_act inv.sup.life.requests ordered inv.captures act
  logged := flushLogged_act sync inv.sup.life.requests inv.logged act
  header := headerKept_act sync start inv.sup.life inv.sup.writes inv.kinds inv.captures inv.marks
    ordered inv.header act
  data := by
    obtain ⟨maker, ledger, data⟩ := inv.data
    obtain ⟨maker', ledger', agree⟩ :=
      blockLedger_act inv.sup image (.inr ⟨rfl, inv.block⟩) ledger act
    exact ⟨maker', ledger', flushData_act start inv.sup.life inv.kinds inv.marks inv.block ledger
      agree data act⟩

theorem loggedKinds_created {base : Bytes} (created : Created dev base s) : LoggedKinds s := by
  obtain ⟨table, _, rfl⟩ := created
  constructor <;> simp [newState]

theorem marksSettled_created {base : Bytes} (created : Created dev base s) : MarksSettled s := by
  obtain ⟨table, _, rfl⟩ := created
  simp [MarksSettled, newState]

theorem capturesOrdered_created {base : Bytes} (created : Created dev base s) :
    CapturesOrdered s := by
  obtain ⟨table, decoded, rfl⟩ := created
  refine ⟨?_, by simp [newState], by simp [newState], by simp [newState]⟩
  show table.stripesFlushed ≤ table.stripesFetched
  rcases ubiFinishReadMetadata_ok decoded with ⟨_, _, _, zero, zero'⟩ | ⟨_, _, _, _, _, _, same⟩ <;>
    omega

theorem flushInv_created {base : Bytes} (created : Created dev base s) (blank : BlankMetadata base)
    (B : Nat) : FlushInv dev s.stripeStatus B s := by
  have unfetched := unfetched_created created blank (dev.stripeOf B)
  have starts := starts_created created B
  simp only [initialVersion, unfetched] at starts
  refine ⟨supports_created created, ?_, loggedKinds_created created, marksSettled_created created,
    capturesOrdered_created created, ?_, ?_, fun _ => 0, blockLedger_created created B 1 _, ?_⟩
  · rcases starts with ⟨zero, _⟩ | ⟨_, block⟩
    · cases zero
    · exact block
  · obtain ⟨table, _, rfl⟩ := created
    constructor <;> simp [newState]
  · intro fetched
    simp [unfetched] at fetched
  · obtain ⟨table, _, rfl⟩ := created
    constructor <;> simp [newState]

theorem noneStale_quiet (s : State) : NoneStale s .quiet := by
  rintro _ _ _ ⟨⟩

variable {base found : Bytes} {s₁ : State}

theorem flushInv_reach (created : Created dev base s₀) (blank : BlankMetadata base)
    (sync : dev.noSync = false)
    (run : Reach dev (Permitted fun s l => SplitAtStripes dev s l ∧ NoneStale s l) s₀ s)
    (faultless : Faultless dev s.log) (image : ImageBlock dev B) :
    FlushInv dev s₀.stripeStatus B s := by
  refine reach_invariant_permitted ?_ faultless_earlier ?_ run (flushInv_created created blank B)
    faultless
  · exact fun s => ⟨splitAtStripes_quiet dev s, noneStale_quiet s⟩
  · exact fun inv ok faultless act => flushInv_act sync (created_settled created)
      (unfetched_created created blank _) image inv ok.1 ok.2 faultless act

/-- A crash does not take back what the metadata tells of a flushed stripe. -/
theorem HeaderCarried.found_eq {x k : Nat} (carried : HeaderCarried dev x k s)
    (flushed : k ≤ s.stripesFlushed) (bound : x < ubiMaxStripes) (crash : CrashContent dev s found)
    {a : Nat} (tells : Tells x a) : found a = s.metadata a := by
  have front : a / dev.blocklen < dev.dataOffsetBlocks := by
    rw [Nat.div_lt_iff_lt_mul dev.blocklen_pos, dev.dataOffset_bytes]
    rcases tells with small | rfl
    · exact small.trans (by decide)
    · exact stripeHeaderOffset_lt bound
  obtain ⟨v, low, high, content⟩ := crash_version crash (a / dev.blocklen)
  rw [content a rfl]
  exact carried.flushed flushed _ v front low high a rfl tells

theorem header_set {x : Nat} (created : Created dev base s₀) (stage : Stage s₀.stripeStatus s x)
    (recorded : Recorded s₀ s) (fetched : s.stripeStatus x = .fetched) :
    stripeHeader s.metadata x ≠ 0 := by
  rw [recorded.header]
  split
  · decide
  next unlogged =>
  cases stage with
  | untouched status counted =>
      rw [status] at fetched
      rw [metadata_of_fetched created fetched]
      exact (header_of_fetched created fetched).2
  | written _ _ _ _ _ counted => simp [counted] at unlogged
  | queued _ status _ _ | reading _ _ _ status _ _ _ | writing _ _ _ _ _ status _ _ _ _
  | readFailed _ _ status _ _ | writeRefused _ _ status _ _ =>
      rw [status] at fetched
      cases fetched

theorem HeaderCarried.survives {x k : Nat} (carried : HeaderCarried dev x k s)
    (flushed : k ≤ s.stripesFlushed) (bound : x < ubiMaxStripes) (created : Created dev base s₀)
    (recorded : Recorded s₀ s) (stage : Stage s₀.stripeStatus s x)
    (fetched : s.stripeStatus x = .fetched) (crash : CrashContent dev s found) :
    Stamped found ∧ stripeHeader found x ≠ 0 := by
  have same {a : Nat} (tells : Tells x a) : found a = s.metadata a :=
    carried.found_eq flushed bound crash tells
  constructor
  · exact stamped_congr (fun a front => (same (.inl front)).trans (recorded.front a front))
      (stamped_created created)
  · rw [stripeHeader, same (.inr rfl)]
    exact header_set created stage recorded fetched

def FetchedIn (metadata : Bytes) (x : Nat) : Prop :=
  x < ubiMaxStripes ∧ stripeHeader metadata x ≠ 0

/-- Whatever its stripe size, a new bdev takes the headers as they are numbered. -/
theorem created_fetched_iff (stamped : Stamped found) (created : Created dev found s) (x : Nat) :
    s.stripeStatus x = .fetched ↔ FetchedIn found x := by
  obtain ⟨table, decoded, status, _⟩ := ubiFinishReadMetadata_stamped dev.stripeSizeKb stamped
  obtain ⟨table', decoded', rfl⟩ := created
  obtain rfl : table = table' := by
    rw [decoded] at decoded'
    exact Except.ok.inj decoded'
  change table.stripeStatus x = .fetched ↔ _
  rw [status, FetchedIn]
  split
  · next set => simp [set]
  · next unset => simp [unset]

theorem fetched_again (dev : UbiBdev) {x : Nat} (bound : x < ubiMaxStripes)
    (stamped : Stamped found) (header : stripeHeader found x ≠ 0) :
    (∃ s₁, Created dev found s₁) ∧ ∀ s₁, Created dev found s₁ → s₁.stripeStatus x = .fetched := by
  obtain ⟨table, decoded, _⟩ := ubiFinishReadMetadata_stamped dev.stripeSizeKb stamped
  exact ⟨⟨_, table, decoded, rfl⟩,
    fun s₁ created => (created_fetched_iff stamped created x).mpr ⟨bound, header⟩⟩

/-- A completed READ of block `B` in a life that begins in `s₁` returns bytes as expected, or
those of a WRITE of that life. -/
def ReadsExpect (dev : UbiBdev) (s₁ : State) (B : Nat) (expected : Nat → UInt8 → Prop) : Prop :=
  ∀ s₂ p rd r, Reach dev (Permitted (SplitAtStripes dev)) s₁ s₂ → Faultless dev s₂.log →
    p / dev.blocklen = B → s₂.request rd = some r → r.type = .read → r.Covers dev p →
    .completed rd true ∈ s₂.log →
    expected p (s₂.buffer rd (p - r.offsetBlocks * dev.blocklen)) ∨
      ∃ w₂ r₂, s₂.request w₂ = some r₂ ∧ r₂.type = .write ∧ r₂.Covers dev p ∧
        s₂.buffer rd (p - r.offsetBlocks * dev.blocklen) =
          r₂.data (p - r₂.offsetBlocks * dev.blocklen)

def Request.Supplied (dev : UbiBdev) (r : Request) (p : Nat) (byte : UInt8) : Prop :=
  byte = r.data (p - r.offsetBlocks * dev.blocklen)

theorem readsExpect_initial (created : Created dev found s₁) (image : ImageBlock dev B)
    {expected : Nat → UInt8 → Prop}
    (unfetched : s₁.stripeStatus (dev.stripeOf B) ≠ .fetched → ∀ p, dev.imageSize ≤ p →
      ∀ byte, expected p byte)
    (initial : ∀ p, p / dev.blocklen = B → expected p (initialByte dev found s₁ p)) :
    ReadsExpect dev s₁ B expected := by
  intro s₂ p rd r run faultless here known type covers done
  by_cases past : s₁.stripeStatus (dev.stripeOf B) ≠ .fetched ∧ dev.imageSize ≤ p
  · exact .inl (unfetched past.1 p past.2 _)
  subst here
  obtain ⟨src, supplies, _⟩ := (byteInv_reach created run faultless image fun unfetched =>
    Nat.lt_of_not_le fun tail => past ⟨unfetched, tail⟩).reads.done rd r done known type covers
  cases src with
  | some w₂ =>
      obtain ⟨r₂, rest⟩ := supplies
      exact .inr ⟨w₂, r₂, rest⟩
  | none =>
      refine .inl ?_
      have same : s₂.buffer rd (p - r.offsetBlocks * dev.blocklen) = initialByte dev found s₁ p :=
        supplies
      rw [same]
      exact initial p rfl

/-- Over a fetched stripe a READ returns the WRITE whose version of the block was found. -/
theorem reads_version {first v : Nat} (ledger : BlockLedger dev B first maker s)
    (image : ImageBlock dev B) (low : first < v) (latest : v ≤ s.disk.latest (dev.dataBlock B))
    {r : Request} (known : s.request (maker v) = some r) (covers : r.CoversBlock B)
    (content : ∀ a, a / dev.blocklen = dev.dataBlock B →
      found a = s.disk.version (dev.dataBlock B) v a)
    (again : Created dev found s₁) (fetched : s₁.stripeStatus (dev.stripeOf B) = .fetched) :
    ReadsExpect dev s₁ B (r.Supplied dev) := by
  refine readsExpect_initial again image (fun unfetched => absurd fetched unfetched)
    fun p here => ?_
  subst here
  rw [Request.Supplied, initialByte, if_pos fetched, content _ (dev.base_block_of_byte p),
    ledger.data v low latest r known]
  congr 1
  have := byte_address (covers_iff.mpr covers)
  omega

/-- If no metadata write is submitted while a stale one is outstanding, a WRITE to an
image block that completed before a FLUSH of the block was submitted survives every
crash after the FLUSH has completed: the next life of the bdev reads its data, or those
of a WRITE that had not completed when it was submitted. -/
theorem flushed_write_survives (created : Created dev base s₀) (blank : BlankMetadata base)
    (sync : dev.noSync = false)
    (run : Reach dev (Permitted fun s l => SplitAtStripes dev s l ∧ NoneStale s l) s₀ s)
    (faultless : Faultless dev s.log) (image : ImageBlock dev B) {w f : ReqId}
    (precedes : Precedes B s w f) (flush : FlushesBlock B s f) (done : .completed f true ∈ s.log)
    (crash : CrashContent dev s found) :
    (∃ s₁, Created dev found s₁) ∧
    ∃ w' r', s.request w' = some r' ∧ r'.type = .write ∧ r'.CoversBlock B ∧
      ¬ Before (.completed w' true) (.submitted w) s.log ∧
      ∀ s₁ s₂ p rd r, Created dev found s₁ → Reach dev (Permitted (SplitAtStripes dev)) s₁ s₂ →
        Faultless dev s₂.log → p / dev.blocklen = B → s₂.request rd = some r → r.type = .read →
        r.Covers dev p → .completed rd true ∈ s₂.log →
        s₂.buffer rd (p - r.offsetBlocks * dev.blocklen) =
            r'.data (p - r'.offsetBlocks * dev.blocklen) ∨
          ∃ w₂ r₂, s₂.request w₂ = some r₂ ∧ r₂.type = .write ∧ r₂.Covers dev p ∧
            s₂.buffer rd (p - r.offsetBlocks * dev.blocklen) =
              r₂.data (p - r₂.offsetBlocks * dev.blocklen) := by
  have inv := flushInv_reach created blank sync run faultless image
  obtain ⟨maker, ledger, data⟩ := inv.data
  obtain ⟨rf, known, type, _⟩ := id flush
  obtain ⟨synced, u, low, high, made⟩ :=
    data.done f (inv.logged.completed f rf known type done) flush w precedes
  -- the metadata found after the crash tells that the stripe is fetched
  have fetched := fetched_of_completed ledger inv.block precedes.1 precedes.2.mem_left
  obtain ⟨k, carried, ranked⟩ := inv.header fetched
  obtain ⟨stamped, header⟩ := carried.survives (ranked.completed f synced done) image.small created
    (recorded_reach created run faultless.issued) (inv.sup.life.stages _) fetched crash
  obtain ⟨again, status⟩ := fetched_again dev image.small stamped header
  -- the block found is a version that is not older than the WRITE's
  obtain ⟨v, durable, latest, content⟩ := crash_version crash (dev.dataBlock B)
  obtain ⟨r', known', type', covers'⟩ := ledger.ledger.made v (by omega) latest
  refine ⟨again, maker v, r', known', type', covers', ?_, ?_⟩
  · rw [← made]
    exact ledger.ledger.not_before_of_le low (high.trans durable) latest
  · intro s₁ s₂ p rd r created₁
    exact reads_version ledger image (by omega) latest known' covers' content created₁
      (status s₁ created₁) s₂ p rd r

def noneStale (s : State) : Event → Bool
  | .flushDone _ _ _ => (List.range s.nextWrite).all fun o => (s.writes o).all fun op =>
      match op.cb with
      | .metadata id => s.captured id == s.stripesFetched
      | _ => true
  | _ => true

theorem noneStale_sound (fresh : OpsFresh s) {e : Event} (h : noneStale s e = true) :
    Permitted NoneStale s e := by
  rintro o op id label _ _ _ o' op' id' write' cb'
  cases e <;> cases label
  have old : o' < s.nextWrite := by
    by_contra new
    simp [fresh.writes o' (by omega)] at write'
  simp only [noneStale, List.all_eq_true, List.mem_range] at h
  simpa [write', cb'] using h o' old

theorem splitNoneStale_sound {base : Bytes} {allowed : State → Event → Prop}
    (created : Created dev base s₀) (run : Reach dev allowed s₀ s) {e : Event}
    (h : (splitAtStripes dev s e && noneStale s e) = true) :
    Permitted (fun s l => SplitAtStripes dev s l ∧ NoneStale s l) s e := by
  obtain ⟨split, current⟩ := Bool.and_eq_true_iff.mp h
  exact ⟨splitAtStripes_sound dev s e split,
    noneStale_sound (requestsPlaced_reach created run).fresh current⟩

def writeThenFlush : List Event :=
  fetchFirst 65536 true ++ [.poll 0 .success, .sample 1 [128], .land 1 [128], .writeDone 1 true 0,
    .submit 0 1 ⟨.flush, 0, 1, fun _ => 0⟩, .poll 0 .success, .flushDone 0 true 0,
    .sample 2 (List.range 128), .land 2 (List.range 128), .writeDone 2 true 0, .flushDone 1 true 0]

/-- A FLUSH has a metadata write outstanding that has taken its first block, when a WRITE
has stripe 1 fetched and completes, and a second FLUSH completes after it. Then the
first metadata write takes effect on its first block. -/
def staleMetadataWrite : List Event :=
  fetchFirst 65536 true ++ [.submit 0 1 ⟨.flush, 0, 1, fun _ => 0⟩, .poll 0 .success,
    .flushDone 0 true 0, .sample 2 [0], .submit 0 2 ⟨.write, 1, 1, fun _ => 6⟩, .poll 0 .success,
    .uring 0 0 65536, .poll 0 .success, .sample 3 [129], .land 3 [129], .writeDone 3 true 0,
    .poll 0 .success, .sample 4 [129], .land 4 [129], .writeDone 4 true 0,
    .submit 0 3 ⟨.flush, 1, 1, fun _ => 0⟩, .poll 0 .success, .flushDone 1 true 0,
    .sample 5 (List.range 128), .land 5 (List.range 128), .writeDone 5 true 0, .flushDone 2 true 0,
    .land 2 [0]]

def readImageAgain : List Event :=
  [.submit 0 0 ⟨.read, 1, 1, fun _ => 9⟩, .poll 0 .success, .uring 0 0 65536, .poll 0 .success]

theorem flushed_write_survives_writeThenFlush :
    ∃ s, Reach (threeBlockBdev false) (Permitted fun s l =>
        SplitAtStripes (threeBlockBdev false) s l ∧ NoneStale s l)
        (blankState (threeBlockBdev false)) s ∧ .completed 1 true ∈ s.log ∧
      (∃ s₁, Created (threeBlockBdev false) (contentLosing (threeBlockBdev false) s 128) s₁) ∧
      ∃ w' r', s.request w' = some r' ∧ r'.type = .write ∧ r'.CoversBlock 0 ∧
        ¬ Before (.completed w' true) (.submitted 0) s.log := by
  have created := created_blankState (threeBlockBdev false)
  have ran : (Runs.exec (step (threeBlockBdev false)) (fun s e =>
      splitAtStripes (threeBlockBdev false) s e && noneStale s e)
      (blankState (threeBlockBdev false)) writeThenFlush).any (fun s =>
        decide (Faultless (threeBlockBdev false) s.log ∧ .completed 1 true ∈ s.log ∧
          Before (.completed 0 true) (.submitted 1) s.log) &&
        (s.request 0).any (fun r => decide (r.type = .write ∧ r.CoversBlock 0)) &&
        (s.request 1).any (fun r => decide (r.type = .flush ∧ r.CoversBlock 0))) = true := by
    decide +kernel
  obtain ⟨s, run, test⟩ := Runs.exists_reach_of_exec
    (fun _ _ run => splitNoneStale_sound created run) ran
  simp only [Bool.and_eq_true, decide_eq_true_eq, Option.any_eq_true] at test
  obtain ⟨⟨⟨faultless, done, before⟩, r, known, write⟩, q, known', flush⟩ := test
  obtain ⟨again, w', r', found, type, covers, order, _⟩ :=
    flushed_write_survives (B := 0) created (fun _ _ => rfl) rfl run faultless
      ⟨by decide, by decide⟩ ⟨⟨r, known, write⟩, before⟩ ⟨q, known', flush⟩ done
      (crashContent_losing _ s 128)
  exact ⟨s, run, done, again, w', r', found, type, covers, order⟩

/-- The second FLUSH has completed, and still the stale metadata write takes the header of
stripe 1 back: after the crash a READ returns the image's old data. -/
theorem stale_metadata_loses_write :
    ∃ s found s₁ s₂, Reach (threeBlockBdev false) anyStep (blankState (threeBlockBdev false)) s ∧
      Faultless (threeBlockBdev false) s.log ∧ Precedes 1 s 2 3 ∧ FlushesBlock 1 s 3 ∧
      .completed 3 true ∈ s.log ∧ CrashContent (threeBlockBdev false) s found ∧
      Created (threeBlockBdev false) found s₁ ∧ Reach (threeBlockBdev false) anyStep s₁ s₂ ∧
      Faultless (threeBlockBdev false) s₂.log ∧ .completed 0 true ∈ s₂.log ∧
      (∀ w, ¬ WritesByte (threeBlockBdev false) 65536 s₂ w) ∧
      s₂.buffer 0 0 = (threeBlockBdev false).image 65536 ∧
      ∀ w r, s.request w = some r → r.type = .write → r.CoversBlock 1 →
        s₂.buffer 0 0 ≠ r.data 0 := by
  have ran : (Runs.exec (step (threeBlockBdev false)) (fun _ _ => true)
      (blankState (threeBlockBdev false)) staleMetadataWrite).any (fun s =>
        decide (Faultless (threeBlockBdev false) s.log ∧ .completed 3 true ∈ s.log ∧
          Before (.completed 2 true) (.submitted 3) s.log) &&
        (s.request 2).any (fun r => decide (r.type = .write ∧ r.CoversBlock 1)) &&
        (s.request 3).any (fun r => decide (r.type = .flush ∧ r.CoversBlock 1)) &&
        allRequests s (fun r => decide (r.type = .write → r.CoversBlock 1 → 7 ≠ r.data 0)) &&
        nextLife (threeBlockBdev false) (contentLosing (threeBlockBdev false) s 130) readImageAgain
          fun _ s₂ => decide (Faultless (threeBlockBdev false) s₂.log ∧ noWrites s₂ ∧
            .completed 0 true ∈ s₂.log ∧ s₂.buffer 0 0 = 7)) = true := by
    decide +kernel
  have start := created_blankState (threeBlockBdev false)
  obtain ⟨s, run, test⟩ := Runs.exists_reach_of_exec (fun _ _ _ _ => trivial) ran
  simp only [Bool.and_eq_true, decide_eq_true_eq, Option.any_eq_true] at test
  obtain ⟨⟨⟨⟨⟨faultless, done, before⟩, r, known, write⟩, q, known', flush⟩, others⟩, again⟩ := test
  obtain ⟨s₁, s₂, created, run₂, test⟩ := nextLife_sound again
  obtain ⟨faultless₂, reads₂, done₂, image⟩ := of_decide_eq_true test
  refine ⟨s, _, s₁, s₂, run, faultless, ⟨⟨r, known, write⟩, before⟩, ⟨q, known', flush⟩, done,
    crashContent_losing _ s 130, created, run₂, faultless₂, done₂,
    unwritten_of_noWrites created run₂ reads₂ _, image, fun w r' known type covers => ?_⟩
  rw [image]
  exact of_decide_eq_true (allRequests_sound start run others known) type covers

end BdevUbi
