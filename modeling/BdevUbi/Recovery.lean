import BdevUbi.FlushedWrites

/-!
What a crash keeps of the stripe statuses. Whatever the order in which metadata writes
take effect, the headers found after a crash lie between two sets: they tell every stripe
that was fetched when the life began, and no stripe that was not fetched when it ended.
-/

namespace BdevUbi
open VolatileDisk

variable {dev : UbiBdev} {s₀ s t : State} {l : Label} {base found : Bytes} {x : Nat}

/-- The metadata area of a new disk, known by its zeroed magic, has no header set. -/
def CleanMetadata (base : Bytes) : Prop :=
  ubiNewDisk base = true → ∀ i, i < ubiMaxStripes → stripeHeader base i = 0

theorem BlankMetadata.clean (blank : BlankMetadata base) : CleanMetadata base :=
  fun _ _ bound => blank.header bound

theorem stripeHeader_created (created : Created dev base s) (x : Nat) :
    stripeHeader s.metadata x = stripeHeader base x := by
  obtain ⟨table, decoded, rfl⟩ := created
  show stripeHeader table.metadata x = _
  rcases ubiFinishReadMetadata_ok decoded with ⟨_, _, metadata, _⟩ | ⟨_, _, _, _, metadata, _⟩
  · rw [metadata, stripeHeader_ubiInitMetadata]
  · rw [metadata]

/-- Whether a metadata area is accepted is decided by the bytes in front of the headers. -/
theorem accepted_of_front (created : Created dev base s)
    (same : ∀ a, a < 14 → found a = base a) : ∃ s₁, Created dev found s₁ := by
  obtain ⟨table, decoded, _⟩ := created
  rcases ubiFinishReadMetadata_ok decoded with ⟨new, _⟩ | ⟨_, magic, version, _⟩
  · have zeroed : ubiNewDisk found = true := by
      simp only [ubiNewDisk, List.all_eq_true, List.mem_range] at new ⊢
      intro a small
      rw [same a (small.trans (by decide))]
      exact new a small
    exact ⟨_, _, by simp only [ubiFinishReadMetadata, zeroed]; rfl, rfl⟩
  · obtain ⟨table', decoded', _⟩ := ubiFinishReadMetadata_stamped dev.stripeSizeKb
      (stamped_congr same ⟨magic, version⟩)
    exact ⟨_, table', decoded', rfl⟩

section Headers

/-- A header that may be found on the base bdev is that of a stripe with property `P`. -/
structure HeadersImply (dev : UbiBdev) (P : Nat → Prop) (s : State) : Prop where
  sampled : ∀ o op id x data, s.writes o = some op → op.cb = .metadata id → x < ubiMaxStripes →
    op.sampled (dev.headerBlock x) = some data → stripeHeader data x ≠ 0 → P x
  versions : ∀ x v, x < ubiMaxStripes → v ≤ s.disk.latest (dev.headerBlock x) →
    stripeHeader (s.disk.version (dev.headerBlock x) v) x ≠ 0 → P x

/-- It is enough to look at the headers in memory while a metadata write is outstanding. -/
theorem headersImply_act {P Q : Nat → Prop} (placed : FetchesPlaced dev s)
    (writes : WritesMatch dev s) (before : HeadersImply dev P s) (stable : ∀ x, P x → Q x)
    (live : ∀ o op id x, s.writes o = some op → op.cb = .metadata id → x < ubiMaxStripes →
      stripeHeader s.metadata x ≠ 0 → P x)
    (act : Act dev s l t) : HeadersImply dev Q t where
  sampled o op' id x data write' cb' bound sample set := by
    cases write_origin act write' with
    | new _ _ unsampled => simp [unsampled] at sample
    | old op write cb _ _ sampled =>
        have cb := cb.symm.trans cb'
        apply stable
        rcases sampled _ data sample with old | ⟨_, rfl⟩
        · exact before.sampled o op id x data write cb bound old set
        · -- the block is taken from the live metadata
          rw [((writes o op write).metadata id cb).1, cb] at set
          exact live o op id x write cb bound (by simpa [stripeHeader, writeBuffer] using set)
  versions x v bound made set := by
    apply stable
    rcases front_version_act placed writes act (headerBlock_lt bound) made with old |
      ⟨o, op, id, data, write, cb, sample, version⟩
    · rw [version_kept act old] at set
      exact before.versions x v bound old set
    · rw [version] at set
      exact before.sampled o op id x data write cb bound sample set

theorem headersImply_created {P : Nat → Prop} (created : Created dev base s)
    (old : ∀ x, x < ubiMaxStripes → stripeHeader base x ≠ 0 → P x) : HeadersImply dev P s := by
  obtain ⟨table, _, rfl⟩ := created
  exact ⟨by simp [newState], fun x _ bound _ set => old x bound set⟩

theorem HeadersImply.of_found {P : Nat → Prop} (inv : HeadersImply dev P s)
    (crash : CrashContent dev s found) (bound : x < ubiMaxStripes)
    (set : stripeHeader found x ≠ 0) : P x := by
  obtain ⟨v, _, made, content⟩ := crash_version crash (dev.headerBlock x)
  rw [stripeHeader, content _ rfl] at set
  exact inv.versions x v bound made set

end Headers

theorem fetched_of_header (created : Created dev base s₀) (stage : Stage s₀.stripeStatus s x)
    (recorded : Recorded s₀ s) (set : stripeHeader s.metadata x ≠ 0) :
    s.stripeStatus x = .fetched ∨ stripeHeader base x ≠ 0 := by
  rw [recorded.header, stripeHeader_created created] at set
  split at set
  · next logged =>
    cases stage with
    | written _ _ _ status _ _ => exact .inl status
    | untouched _ counted | queued _ _ _ counted | reading _ _ _ _ _ _ counted
    | writing _ _ _ _ _ _ _ _ _ counted | readFailed _ _ _ _ counted
    | writeRefused _ _ _ _ counted => simp [counted] at logged
  · exact .inr set

/-- A stripe that was fetched at the start stays so, and the header that says so is never taken
back: whatever a metadata write puts on the base bdev has it. -/
theorem headerCarried_reach {allowed : State → Event → Prop} (created : Created dev base s₀)
    (fetched : s₀.stripeStatus x = .fetched) (run : Reach dev allowed s₀ s)
    (issued : FetchesIssued s.log) :
    s.stripeStatus x = .fetched ∧ HeaderCarried dev x 0 s := by
  have start : HeaderCarried dev x 0 s₀ := by
    have metadata := metadata_of_fetched created fetched
    obtain ⟨table, _, rfl⟩ := created
    refine ⟨Nat.zero_le _, by simp [newState], by simp [newState], by simp [newState], ?_⟩
    intro _ b v _ _ _ a _ _
    exact (congrFun metadata a).symm
  refine (reach_invariant_log (P := fun s => Lifecycle dev s₀.stripeStatus s ∧
      WritesMatch dev s ∧ MarksSettled s ∧ s.stripeStatus x = .fetched ∧ HeaderCarried dev x 0 s)
    fetchesIssued_earlier ?_ run ⟨lifecycle_created created, writesMatch_created created,
      marksSettled_created created, fetched, start⟩ issued).2.2.2
  rintro s t l ⟨life, writes, marks, fetched, carried⟩ issued act
  have final := (statusStep_act life.placed issued act x).final (.inl fetched)
  refine ⟨lifecycle_act (created_settled created) life issued act, writesMatch_act writes act,
    marksSettled_act marks act, final.trans fetched, ?_⟩
  exact headerCarried_of_fresh carried life.placed life.requests writes marks fetched act
    fun _ _ _ _ _ _ _ _ _ _ _ _ _ _ => Nat.zero_le _

theorem fetched_survives {allowed : State → Event → Prop} (created : Created dev base s₀)
    (fetched : s₀.stripeStatus x = .fetched) (run : Reach dev allowed s₀ s)
    (issued : FetchesIssued s.log) (crash : CrashContent dev s found) :
    Stamped found ∧ x < ubiMaxStripes ∧ stripeHeader found x ≠ 0 := by
  have bound := (header_of_fetched created fetched).1
  obtain ⟨still, carried⟩ := headerCarried_reach created fetched run issued
  obtain ⟨stamped, header⟩ := carried.survives (Nat.zero_le _) bound created
    (recorded_reach created run issued) ((lifecycle_reach created run issued).stages x) still crash
  exact ⟨stamped, bound, header⟩

section UpperBound

variable {allowed : State → Event → Prop} (created : Created dev base s₀)
  (clean : CleanMetadata base) (run : Reach dev allowed s₀ s) (issued : FetchesIssued s.log)

include created clean run issued

theorem headersImply_fetched : HeadersImply dev (fun x => s.stripeStatus x = .fetched) s := by
  have encoded := encodes_created created clean
  have start : HeadersImply dev (fun x => s₀.stripeStatus x = .fetched) s₀ := by
    refine headersImply_created created fun x bound set => ?_
    exact (encoded x bound).mp (by rwa [stripeHeader_created created])
  exact (reach_invariant_log (P := fun s => Lifecycle dev s₀.stripeStatus s ∧ WritesMatch dev s ∧
      Recorded s₀ s ∧ HeadersImply dev (fun x => s.stripeStatus x = .fetched) s)
    fetchesIssued_earlier
    (fun {s t l} ⟨life, writes, recorded, shown⟩ issued act =>
      ⟨lifecycle_act (created_settled created) life issued act, writesMatch_act writes act,
        recorded_act life.placed recorded issued act,
        headersImply_act life.placed writes shown
          (fun x fetched => ((statusStep_act life.placed issued act x).final (.inl fetched)).trans
            fetched)
          (fun _ _ _ x _ _ bound set =>
            (encodes_of_stages life.stages recorded encoded x bound).mp set) act⟩)
    run ⟨lifecycle_created created, writesMatch_created created, recorded_created created, start⟩
    issued).2.2.2

end UpperBound

/-- The bytes in front of the headers that a version of the first block has: those found at the
start, or those of the metadata. -/
structure FrontKept (base front : Bytes) (s : State) : Prop where
  sampled : ∀ o op id data, s.writes o = some op → op.cb = .metadata id →
    op.sampled 0 = some data → ∀ a, a < 14 → data a = front a
  versions : ∀ v, v ≤ s.disk.latest 0 → (∀ a, a < 14 → s.disk.version 0 v a = base a) ∨
    ∀ a, a < 14 → s.disk.version 0 v a = front a

theorem dataOffsetBlocks_pos (dev : UbiBdev) : 0 < dev.dataOffsetBlocks := by
  have bytes := dev.dataOffset_bytes
  by_contra none
  simp [Nat.eq_zero_of_not_pos none, ubiMetadataSize] at bytes

theorem frontKept_act {front : Bytes} (placed : FetchesPlaced dev s) (writes : WritesMatch dev s)
    (live : ∀ a, a < 14 → s.metadata a = front a) (before : FrontKept base front s)
    (act : Act dev s l t) : FrontKept base front t where
  sampled o op' id data write' cb' sample a small := by
    cases write_origin act write' with
    | new _ _ unsampled => simp [unsampled] at sample
    | old op write cb _ _ sampled =>
        have cb := cb.symm.trans cb'
        rcases sampled _ data sample with old | ⟨_, rfl⟩
        · exact before.sampled o op id data write cb old a small
        · rw [← live a small, cb, ((writes o op write).metadata id cb).1]
          simp [writeBuffer]
  versions v made := by
    rcases front_version_act placed writes act (dataOffsetBlocks_pos dev) made with old |
      ⟨o, op, id, data, write, cb, sample, version⟩
    · rw [version_kept act old]
      exact before.versions v old
    · rw [version]
      exact .inr (before.sampled o op id data write cb sample)

theorem frontKept_reach {allowed : State → Event → Prop} (created : Created dev base s₀)
    (run : Reach dev allowed s₀ s) (issued : FetchesIssued s.log) :
    FrontKept base s₀.metadata s := by
  refine (reach_invariant_log (P := fun s => FetchesPlaced dev s ∧ WritesMatch dev s ∧
      Recorded s₀ s ∧ FrontKept base s₀.metadata s) fetchesIssued_earlier
    (fun {s t l} ⟨placed, writes, recorded, kept⟩ issued act =>
      ⟨fetchesPlaced_act placed issued act, writesMatch_act writes act,
        recorded_act placed recorded issued act,
        frontKept_act placed writes recorded.front kept act⟩)
    run ⟨?_, writesMatch_created created, recorded_created created, ?_⟩ issued).2.2.2
  · obtain ⟨table, _, rfl⟩ := created
    exact fetchesPlaced_newState dev base table
  · obtain ⟨table, _, rfl⟩ := created
    exact ⟨by simp [newState], fun _ _ => .inl fun _ _ => rfl⟩

/-- The front of the metadata area is torn by no crash if it lies in one block: it is the one
found at the start or that of this module. -/
theorem front_found {allowed : State → Event → Prop} (created : Created dev base s₀)
    (sector : 14 ≤ dev.blocklen) (run : Reach dev allowed s₀ s) (issued : FetchesIssued s.log)
    (crash : CrashContent dev s found) :
    (∀ a, a < 14 → found a = base a) ∨ Stamped found := by
  obtain ⟨v, _, made, content⟩ := crash_version crash 0
  have same (a : Nat) (small : a < 14) : found a = s.disk.version 0 v a :=
    content a (Nat.div_eq_of_lt (by omega))
  rcases (frontKept_reach created run issued).versions v made with old | new
  · exact .inl fun a small => (same a small).trans (old a small)
  · exact .inr (stamped_congr (fun a small => (same a small).trans (new a small))
      (stamped_created created))

/-- Whatever a crash leaves of a run, the bdev can be created again over it; it finds every
stripe fetched that was fetched when the life began, and none that was not fetched when the
life ended. -/
theorem recovered_between {allowed : State → Event → Prop} (created : Created dev base s₀)
    (clean : CleanMetadata base) (sector : 14 ≤ dev.blocklen) (run : Reach dev allowed s₀ s)
    (issued : FetchesIssued s.log) (crash : CrashContent dev s found) :
    (∃ s₁, Created dev found s₁) ∧ ∀ s₁, Created dev found s₁ → ∀ x,
      (s₀.stripeStatus x = .fetched → s₁.stripeStatus x = .fetched) ∧
      (s₁.stripeStatus x = .fetched → s.stripeStatus x = .fetched) := by
  refine ⟨?_, fun s₁ again x => ⟨fun fetched => ?_, fun fetched => ?_⟩⟩
  · rcases front_found created sector run issued crash with old | stamped
    · exact accepted_of_front created old
    · obtain ⟨table, decoded, _⟩ := ubiFinishReadMetadata_stamped dev.stripeSizeKb stamped
      exact ⟨_, table, decoded, rfl⟩
  · obtain ⟨stamped, bound, header⟩ := fetched_survives created fetched run issued crash
    exact (created_fetched_iff stamped again x).mpr ⟨bound, header⟩
  · obtain ⟨bound, header⟩ := header_of_fetched again fetched
    exact (headersImply_fetched created clean run issued).of_found crash bound header

/-- Stripe 0 is fetched, and its metadata has not been written when the bdev crashes. -/
theorem recovered_between_fetchFirst :
    ∃ s s₁, Reach (threeBlockBdev false) anyStep (blankState (threeBlockBdev false)) s ∧
      s.stripeStatus 0 = .fetched ∧
      Created (threeBlockBdev false) (contentLosing (threeBlockBdev false) s 128) s₁ ∧
      ∀ x, s₁.stripeStatus x = .fetched → s.stripeStatus x = .fetched := by
  have ran : (Runs.exec (step (threeBlockBdev false)) (fun _ _ => true)
      (blankState (threeBlockBdev false)) (fetchFirst 65536 true)).any (fun s =>
        decide (s.stripeStatus 0 = .fetched ∧ FetchesIssued s.log)) = true := by decide +kernel
  obtain ⟨s, run, test⟩ := Runs.exists_reach_of_exec (fun _ _ _ _ => trivial) ran
  simp only [decide_eq_true_eq] at test
  have blank : BlankMetadata fun _ => 0 := fun _ _ => rfl
  obtain ⟨⟨s₁, again⟩, between⟩ := recovered_between (created_blankState _) blank.clean (by decide)
    run test.2 (crashContent_losing (threeBlockBdev false) s 128)
  exact ⟨s, s₁, run, test.1, again, fun x => (between s₁ again x).2⟩

end BdevUbi
