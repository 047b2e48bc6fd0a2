import BdevUbi.Recovery
import BdevUbi.Library.Epochs

/-!
Lives of a bdev. A bdev is created over what is found on the base bdev, serves requests
and crashes; the next life begins over what the crash left. Nothing but the base bdev is
carried over. What a block reads after any number of crashes is followed from one life to
the next.
-/

namespace BdevUbi
open VolatileDisk History RegularRegister Epochs

variable {dev : UbiBdev} {s₀ s s₁ s₂ : State} {base found left : Bytes} {p B : Nat}
  {past : List State}

/-- A WRITE of one of the lives has put `byte` at `p`. -/
def Wrote (dev : UbiBdev) (past : List State) (p : Nat) (byte : UInt8) : Prop :=
  ∃ u ∈ past, ∃ w r, u.request w = some r ∧ r.type = .write ∧ r.Covers dev p ∧
    byte = r.data (p - r.offsetBlocks * dev.blocklen)

theorem Wrote.cons {byte : UInt8} (h : Wrote dev past p byte) : Wrote dev (s :: past) p byte := by
  obtain ⟨u, there, wrote⟩ := h
  exact ⟨u, List.mem_cons_of_mem _ there, wrote⟩

/-- A life without faults of the image file, ended by a crash that leaves `left`. -/
def Life (dev : UbiBdev) (found : Bytes) (s : State) (left : Bytes) : Prop :=
  ∃ s₁, Created dev found s₁ ∧ Reach dev (Permitted (SplitAtStripes dev)) s₁ s ∧
    Faultless dev s.log ∧ CrashContent dev s left

/-- What a crash leaves of a byte of an image block is the data of a WRITE, or what the fetch
brought, or what was there before. -/
theorem ByteInv.found_byte {init : Nat → StripeStatus} {first : Nat} {initial : UInt8}
    (inv : ByteInv dev init first p initial s) (crash : CrashContent dev s left) :
    (∃ v, v ≤ first ∧ v ≤ s.disk.latest (dev.dataBlock (p / dev.blocklen)) ∧
      s.disk.durable (dev.dataBlock (p / dev.blocklen)) ≤ v ∧
      left (ubiMetadataSize + p) =
        s.disk.version (dev.dataBlock (p / dev.blocklen)) v (ubiMetadataSize + p)) ∨
      Wrote dev [s] p (left (ubiMetadataSize + p)) := by
  obtain ⟨v, low, high, content⟩ := crash_version crash (dev.dataBlock (p / dev.blocklen))
  have here := content _ (dev.base_block_of_byte p)
  by_cases old : v ≤ first
  · exact .inl ⟨v, old, high, low, here⟩
  · obtain ⟨maker, ledger⟩ := inv.ledger
    have made := ledger.ledger.made v (by omega) high
    rw [← writesByte_eq] at made
    obtain ⟨r, known, type, covers⟩ := made
    refine .inr ⟨s, List.mem_cons_self, maker v, r, known, type, covers, ?_⟩
    rw [here, ledger.data v (by omega) high r known]
    congr 1
    have := byte_address covers
    omega

/-- A life that finds a stripe fetched hands it on, and changes its blocks by WRITEs only. -/
theorem Life.keeps (life : Life dev found s left) (image : ImageBlock dev B)
    (stamped : Stamped found) (header : stripeHeader found (dev.stripeOf B) ≠ 0) :
    Stamped left ∧ stripeHeader left (dev.stripeOf B) ≠ 0 ∧
      ∀ p, p / dev.blocklen = B → left (ubiMetadataSize + p) = found (ubiMetadataSize + p) ∨
        Wrote dev [s] p (left (ubiMetadataSize + p)) := by
  obtain ⟨s₁, again, run, faultless, crash⟩ := life
  have fetched := (created_fetched_iff stamped again _).mpr ⟨image.small, header⟩
  obtain ⟨stamped, _, header⟩ := fetched_survives again fetched run faultless.issued crash
  refine ⟨stamped, header, ?_⟩
  rintro p rfl
  have inv := byteInv_reach again run faultless image fun unfetched => absurd fetched unfetched
  rw [initialVersion, if_pos fetched, initialByte, if_pos fetched] at inv
  obtain ⟨v, first, _, _, here⟩ | wrote := inv.found_byte crash
  · rw [here, Nat.le_zero.mp first]
    exact .inl (inv.zero rfl)
  · exact .inr wrote

section Flushed

variable (created : Created dev base s₀)
  (unfetched : s₀.stripeStatus (dev.stripeOf B) = .notFetched)

include created unfetched

theorem flushInv_unfetched (sync : dev.noSync = false)
    (run : Reach dev (Permitted fun s l => SplitAtStripes dev s l ∧ NoneStale s l) s₀ s)
    (faultless : Faultless dev s.log) (image : ImageBlock dev B) :
    FlushInv dev s₀.stripeStatus B s := by
  have start : FlushInv dev s₀.stripeStatus B s₀ := by
    have starts := starts_created created B
    simp only [initialVersion, unfetched] at starts
    have block : FetchedBlock dev B s₀ := by
      rcases starts with ⟨zero, _⟩ | ⟨_, block⟩
      · cases zero
      · exact block
    refine ⟨supports_created created, block, loggedKinds_created created,
      marksSettled_created created, capturesOrdered_created created, ?_, ?_, fun _ => 0,
      blockLedger_created created B 1 _, ?_⟩
    · obtain ⟨table, _, rfl⟩ := created
      constructor <;> simp [newState]
    · intro fetched
      simp [unfetched] at fetched
    · obtain ⟨table, _, rfl⟩ := created
      constructor <;> simp [newState]
  refine reach_invariant_permitted ?_ faultless_earlier ?_ run start faultless
  · exact fun s => ⟨splitAtStripes_quiet dev s, noneStale_quiet s⟩
  · exact fun inv ok faultless act => flushInv_act sync (created_settled created) unfetched image
      inv ok.1 ok.2 faultless act

/-- After a FLUSH the header and the data of a WRITE before it are found whatever a crash
loses. -/
theorem flushed_write_found (sync : dev.noSync = false)
    (run : Reach dev (Permitted fun s l => SplitAtStripes dev s l ∧ NoneStale s l) s₀ s)
    (faultless : Faultless dev s.log) (image : ImageBlock dev B) {w f : ReqId}
    (precedes : Precedes B s w f) (flush : FlushesBlock B s f) (done : .completed f true ∈ s.log)
    (crash : CrashContent dev s found) :
    Stamped found ∧ stripeHeader found (dev.stripeOf B) ≠ 0 ∧
    ∃ w' r', s.request w' = some r' ∧ r'.type = .write ∧ r'.CoversBlock B ∧
      ¬ Before (.completed w' true) (.submitted w) s.log ∧
      ∀ p, p / dev.blocklen = B →
        found (ubiMetadataSize + p) = r'.data (p - r'.offsetBlocks * dev.blocklen) := by
  have inv := flushInv_unfetched created unfetched sync run faultless image
  obtain ⟨maker, ledger, data⟩ := inv.data
  obtain ⟨rf, known, type, _⟩ := id flush
  obtain ⟨synced, u, low, high, made⟩ :=
    data.done f (inv.logged.completed f rf known type done) flush w precedes
  have fetched := fetched_of_completed ledger inv.block precedes.1 precedes.2.mem_left
  obtain ⟨k, carried, ranked⟩ := inv.header fetched
  obtain ⟨stamped, header⟩ := carried.survives (ranked.completed f synced done) image.small created
    (recorded_reach created run faultless.issued) (inv.sup.life.stages _) fetched crash
  obtain ⟨v, durable, latest, content⟩ := crash_version crash (dev.dataBlock B)
  obtain ⟨r', known', type', covers'⟩ := ledger.ledger.made v (by omega) latest
  refine ⟨stamped, header, maker v, r', known', type', covers', ?_, ?_⟩
  · rw [← made]
    exact ledger.ledger.not_before_of_le low (high.trans durable) latest
  · rintro p rfl
    rw [content _ (dev.base_block_of_byte p), ledger.data v (by omega) latest r' known']
    congr 1
    have := byte_address (covers_iff.mpr covers')
    omega

end Flushed

/-- What is known of block `B` after some lives: its stripe is found fetched, and its bytes are
as expected or come from a WRITE of one of those lives. -/
structure Handed (dev : UbiBdev) (B : Nat) (expected : Nat → UInt8 → Prop) (past : List State)
    (left : Bytes) : Prop where
  stamped : Stamped left
  header : stripeHeader left (dev.stripeOf B) ≠ 0
  bytes : ∀ p, p / dev.blocklen = B →
    expected p (left (ubiMetadataSize + p)) ∨ Wrote dev past p (left (ubiMetadataSize + p))

theorem Handed.next {expected : Nat → UInt8 → Prop} (image : ImageBlock dev B)
    (before : Handed dev B expected past found) (life : Life dev found s left) :
    Handed dev B expected (s :: past) left := by
  obtain ⟨stamped, header, bytes⟩ := life.keeps image before.stamped before.header
  refine ⟨stamped, header, fun p here => ?_⟩
  rcases bytes p here with same | ⟨u, there, wrote⟩
  · rw [same]
    exact (before.bytes p here).imp_right Wrote.cons
  · exact .inr ⟨u, List.mem_cons.mpr (.inl (List.mem_singleton.mp there)), wrote⟩

theorem Handed.reads {expected : Nat → UInt8 → Prop} (image : ImageBlock dev B)
    (handed : Handed dev B expected past found) :
    (∃ s₁, Created dev found s₁) ∧ ∀ s₁, Created dev found s₁ → ReadsExpect dev s₁ B fun p byte =>
      expected p byte ∨ Wrote dev past p byte := by
  obtain ⟨again, status⟩ := fetched_again dev image.small handed.stamped handed.header
  refine ⟨again, fun s₁ created => ?_⟩
  have fetched := status s₁ created
  refine readsExpect_initial created image (fun unfetched => absurd fetched unfetched) ?_
  intro p here
  subst here
  rw [initialByte, if_pos fetched]
  exact handed.bytes p rfl

/-- Data before headers, in a life that begins over `found`. A stripe's base write completes
only while no metadata write is outstanding; and when the completion of a data flush starts a
metadata write, the data of every fetched stripe is durable or that flush makes it durable,
unless the header of the stripe was there from the start. -/
structure DataFirstSince (dev : UbiBdev) (found : Bytes) (s : State) (l : Label) : Prop where
  alone : ∀ o success op c k, l = .writeDone o success → s.writes o = some op →
    op.cb = .stripe c k → ∀ o' op' id, s.writes o' = some op' → op'.cb ≠ .metadata id
  covered : ∀ o op id, l = .flushDone o true → s.flushes o = some op → op.cb = .data id →
    s.stripesFetched ≠ s.stripesFlushed → ∀ B, B < dev.imageBlockCount →
    s.stripeStatus (dev.stripeOf B) = .fetched → stripeHeader found (dev.stripeOf B) ≠ 0 ∨
    0 < s.disk.durable (dev.dataBlock B) ∨ 0 < op.mark (dev.dataBlock B)

/-- The header of the stripe was there from the start, or its fetched data is durable. -/
def Owned (dev : UbiBdev) (found : Bytes) (s : State) (x : Nat) : Prop :=
  stripeHeader found x ≠ 0 ∨ Secured dev s x

/-- Every header that may be found on the base bdev is that of an owned stripe. -/
structure HeadersOwned (dev : UbiBdev) (found : Bytes) (s : State) : Prop where
  marks : MarksSettled s
  writing : ∀ o op id x, s.writes o = some op → op.cb = .metadata id →
    s.stripeStatus x = .fetched → Owned dev found s x
  headers : HeadersImply dev (Owned dev found s) s

theorem owned_act {l : Label} {t : State} {x : Nat} (act : Act dev s l t)
    (h : Owned dev found s x) : Owned dev found t x :=
  h.imp_right (secured_act act)

theorem headersOwned_act {l : Label} {t : State} (created : Created dev found s₁)
    (life : Lifecycle dev s₁.stripeStatus s) (writes : WritesMatch dev s)
    (recorded : Recorded s₁ s) (first : DataFirstSince dev found s l)
    (before : HeadersOwned dev found s) (act : Act dev s l t) : HeadersOwned dev found t where
  marks := marksSettled_act before.marks act
  writing o op' id x write' cb' fetched := by
    rcases metadataWrite_origin act write' cb' with ⟨op, write, cb⟩ |
      ⟨o', op, label, flush, cb, dirty, disk, status, _⟩
    · by_cases earlier : s.stripeStatus x = .fetched
      · exact owned_act act (before.writing o op id x write cb earlier)
      · obtain ⟨o', op', c, k, success, label, write', cb', _⟩ := fetched_act act fetched earlier
        exact absurd cb (first.alone o' success op' c k label write' cb' o op id write)
    · by_cases old : stripeHeader found x ≠ 0
      · exact .inl old
      refine .inr fun B image stripe => ?_
      subst stripe
      rw [status] at fetched
      rcases first.covered o' op id label flush cb dirty B image fetched with set | durable | marked
      · exact absurd set old
      · exact durable.trans_le (durable_mono act _)
      · exact marked.trans_le (mark_le_durable before.marks flush disk _)
  headers := headersImply_act life.placed writes before.headers (fun _ => owned_act act)
    (fun o op id x write cb _ set => by
      rcases fetched_of_header created (life.stages x) recorded set with fetched | old
      · exact before.writing o op id x write cb fetched
      · exact .inl old) act

def OrderedLife (dev : UbiBdev) (found : Bytes) (s : State) (left : Bytes) : Prop :=
  ∃ s₁, Created dev found s₁ ∧ Reach dev (Permitted fun s l =>
      SplitAtStripes dev s l ∧ DataFirstSince dev found s l) s₁ s ∧
    Faultless dev s.log ∧ CrashContent dev s left

theorem headersOwned_reach (created : Created dev found s₁)
    (run : Reach dev (Permitted (DataFirstSince dev found)) s₁ s) (issued : FetchesIssued s.log) :
    HeadersOwned dev found s := by
  have start : HeadersOwned dev found s₁ := by
    refine ⟨marksSettled_created created, ?_, headersImply_created created fun _ _ set => .inl set⟩
    obtain ⟨table, _, rfl⟩ := created
    simp [newState]
  refine (reach_invariant_permitted (P := fun s => Lifecycle dev s₁.stripeStatus s ∧
      WritesMatch dev s ∧ Recorded s₁ s ∧ HeadersOwned dev found s)
    (fun s => ⟨by rintro _ _ _ _ _ ⟨⟩, by rintro _ _ _ ⟨⟩⟩) fetchesIssued_earlier ?_ run
    ⟨lifecycle_created created, writesMatch_created created, recorded_created created, start⟩
    issued).2.2.2
  rintro s t l ⟨life, writes, recorded, owned⟩ first issued act
  exact ⟨lifecycle_act (created_settled created) life issued act, writesMatch_act writes act,
    recorded_act life.placed recorded issued act,
    headersOwned_act created life writes recorded first owned act⟩

theorem version_zero_reach {allowed : State → Event → Prop} (created : Created dev found s₁)
    (run : Reach dev allowed s₁ s) (b : Nat) : s.disk.version b 0 = found := by
  refine reach_invariant (P := fun s => s.disk.version b 0 = found) (fun before act => ?_) run ?_
  · rw [version_kept act (Nat.zero_le _)]
    exact before
  · obtain ⟨table, _, rfl⟩ := created
    rfl

/-- Under every header that is set, the image bytes of the stripe are the image's or come from a
WRITE of an earlier life. -/
def Legitimate (dev : UbiBdev) (past : List State) (found : Bytes) : Prop :=
  ∀ p, p < dev.imageSize → stripeHeader found (dev.stripeOf (p / dev.blocklen)) ≠ 0 →
    found (ubiMetadataSize + p) = dev.image p ∨ Wrote dev past p (found (ubiMetadataSize + p))

theorem Legitimate.next (stripes : dev.imageSize ≤ ubiMaxStripes * dev.stripeBytes)
    (before : Legitimate dev past found) (life : OrderedLife dev found s left) :
    Legitimate dev (s :: past) left := by
  obtain ⟨s₁, created, run, faultless, crash⟩ := life
  have owned := headersOwned_reach created (run.mono fun _ _ h => h.2) faultless.issued
  intro p image set
  have block := imageBlock_of_byte stripes image
  have inv := byteInv_reach created (run.mono fun _ _ h => h.1) faultless block fun _ => image
  obtain ⟨v, old, high, low, here⟩ | ⟨u, there, wrote⟩ := inv.found_byte crash
  · rcases Nat.eq_zero_or_pos v with rfl | pos
    · -- nothing of this life is left in the block, so the header is older
      rw [here, version_zero_reach created run]
      rcases owned.headers.of_found crash block.small set with header | secured
      · exact (before p image header).imp_right Wrote.cons
      · have := secured _ block.image rfl
        omega
    · obtain rfl : v = 1 := by
        simp only [initialVersion] at old
        split at old <;> omega
      rcases inv.starts with ⟨zero, _⟩ | ⟨_, fetch⟩
      · omega
      · rw [here]
        exact .inl (fetch.image p image rfl (by omega))
  · exact .inr ⟨u, List.mem_cons.mpr (.inl (List.mem_singleton.mp there)), wrote⟩

theorem DataFirst.since {l : Label} (first : DataFirst dev s l) : DataFirstSince dev found s l :=
  ⟨first.alone, fun o op id label flush cb dirty B image fetched =>
    .inr (first.covered o op id label flush cb dirty B image fetched)⟩

/-- The test passes for the last state of a life over `found` that takes the events, all of
them with requests split at stripes. -/
def splitLife (dev : UbiBdev) (found : Bytes) (events : List Event) (test : State → Bool) : Bool :=
  match ubiFinishReadMetadata dev.stripeSizeKb true found with
  | .error _ => false
  | .ok table => (Runs.exec (step dev) (splitAtStripes dev) (newState found table) events).any test

theorem splitLife_sound {events : List Event} {test : State → Bool}
    (h : splitLife dev found events test = true) :
    ∃ s₁ s₂, Created dev found s₁ ∧ Reach dev (Permitted (SplitAtStripes dev)) s₁ s₂ ∧
      test s₂ = true := by
  unfold splitLife at h
  split at h
  · cases h
  next table decoded =>
  obtain ⟨s₂, run, passed⟩ :=
    Runs.exists_reach_of_exec (fun s e _ ok => splitAtStripes_sound dev s e ok) h
  exact ⟨_, s₂, ⟨table, decoded, rfl⟩, run, passed⟩

end BdevUbi
