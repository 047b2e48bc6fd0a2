import BdevUbi.AtomicBytes
import BdevUbi.Lives

/-!
What a crash does to the line of values on which the READs and WRITEs of a byte take effect.
It cuts the line: the byte that the next life begins with is a value of the line, and no
WRITE that a completed FLUSH covers is cut off. For stripes past the image this needs
nothing of the metadata; for bytes of the image the header of the stripe decides whether
the data on the base bdev is seen at all.
-/

namespace BdevUbi
open VolatileDisk History RegularRegister AtomicRegister

variable {dev : UbiBdev} {s₀ s t s₁ : State} {l : Label} {p first : Nat} {initial : UInt8}
  {base found : Bytes} {init : Nat → StripeStatus} {maker : Nat → ReqId} {since index : ReqId → Nat}

/-- FLUSH `f` covers block `B` and was submitted after WRITE `w` to the block had completed. -/
def Secures (B : Nat) (s : State) (f w : ReqId) : Prop :=
  Precedes B s w f ∧ FlushesBlock B s f

theorem secures_act {B : Nat} {f w : ReqId} (inv : RequestsPlaced s) (act : Act dev s l t)
    (known : s.request f ≠ none) (h : Secures B t f w) : Secures B s f w :=
  ⟨precedes_act inv act known h.1, flushesBlock_act act known h.2⟩

/-- The WRITEs that a data flush has found, or has made durable, by their places on the line. -/
structure FlushedByte (dev : UbiBdev) (p : Nat) (index : ReqId → Nat) (s : State) : Prop where
  pending : ∀ o op f w, s.flushes o = some op → op.cb = .data f →
    Secures (p / dev.blocklen) s f w → index w ≤ op.mark (dev.dataBlock (p / dev.blocklen))
  done : ∀ f w, .dataFlushDone f true ∈ s.log → Secures (p / dev.blocklen) s f w →
    index w ≤ s.disk.durable (dev.dataBlock (p / dev.blocklen))

/-- The byte as an atomic register, with what FLUSHes have made durable of it. -/
structure DurableByte (dev : UbiBdev) (init : Nat → StripeStatus) (first p : Nat) (initial : UInt8)
    (maker : Nat → ReqId) (since index : ReqId → Nat) (s : State) : Prop where
  atomic : AtomicByte dev init first p initial maker since index s
  kinds : LoggedKinds s
  marks : MarksSettled s
  logged : FlushLogged s
  flushed : FlushedByte dev p index s

theorem DurableByte.flushed_act {index' : ReqId → Nat}
    (inv : DurableByte dev init first p initial maker since index s)
    (same : ∀ id, .completed id true ∈ s.log → index' id = index id) (act : Act dev s l t) :
    FlushedByte dev p index' t := by
  have requests := inv.atomic.versions.sup.life.requests
  constructor
  · intro o op f w flush' cb secures'
    rcases flush_origin act flush' with flush | ⟨_, issued⟩
    · obtain ⟨r, known, _⟩ := requests.dataFlush_owner flush cb
      have secures := secures_act requests act (by simp [known]) secures'
      rw [same w secures.1.2.mem_left]
      exact inv.flushed.pending o op f w flush cb secures
    · -- the flush finds every version settled whose WRITE has completed
      simp only [FlushIssued, cb] at issued
      obtain ⟨c, rest, r, _, known, _, _, _, mark⟩ := issued
      obtain ⟨⟨writes, earlier⟩, r', known', _, low, high⟩ :=
        secures_act requests act (by simp [known]) secures'
      obtain rfl : r = r' := Option.some.inj (known.symm.trans known')
      rw [← writesByte_eq] at writes
      rw [same w earlier.mem_left, mark, if_pos ⟨by simp only [UbiBdev.dataBlock]; omega,
        by simp only [UbiBdev.dataBlock]; omega⟩]
      exact (inv.atomic.wrote w writes earlier.mem_left).2.2
  · intro f w done secures'
    by_cases old : .dataFlushDone f true ∈ s.log
    · obtain ⟨r, known, _⟩ := inv.kinds.flush f true old
      have secures := secures_act requests act (by simp [known]) secures'
      rw [same w secures.1.2.mem_left]
      exact (inv.flushed.done f w old secures).trans (durable_mono act _)
    · obtain ⟨o, op, flush, cb, disk, _⟩ := dataFlushDone_act act done old
      obtain ⟨r, known, _⟩ := requests.dataFlush_owner flush cb
      have secures := secures_act requests act (by simp [known]) secures'
      rw [same w secures.1.2.mem_left]
      exact (inv.flushed.pending o op f w flush cb secures).trans
        (mark_le_durable inv.marks flush disk _)

theorem durableByte_act (sync : dev.noSync = false)
    (settled : ∀ x, init x = .notFetched ∨ init x = .fetched)
    (small : dev.imageBlockCount ≤ ubiMaxStripes * dev.stripeBlockCount)
    (inv : DurableByte dev init first p initial maker since index s)
    (split : SplitAtStripes dev s l) (faultless : Faultless dev t.log) (act : Act dev s l t) :
    ∃ maker' since' index', DurableByte dev init first p initial maker' since' index' t := by
  have requests := inv.atomic.versions.sup.life.requests
  obtain ⟨maker', since', index', atomic, same⟩ :=
    atomicByte_act settled small inv.atomic split faultless act
  exact ⟨maker', since', index', atomic, loggedKinds_act requests inv.kinds act,
    marksSettled_act inv.marks act, flushLogged_act sync requests inv.logged act,
    inv.flushed_act same act⟩

theorem durableByte_reach (created : Created dev base s₀) (sync : dev.noSync = false)
    (stripes : dev.imageSize ≤ ubiMaxStripes * dev.stripeBytes)
    (home : p < dev.imageSize ∨ PastImage dev (p / dev.blocklen))
    (run : Reach dev (Permitted (SplitAtStripes dev)) s₀ s) (faultless : Faultless dev s.log) :
    ∃ first maker since index,
      DurableByte dev s₀.stripeStatus first p (s₀.shown dev p) maker since index s ∧
      (s₀.stripeStatus (dev.stripeOf (p / dev.blocklen)) = .fetched → first = 0) := by
  obtain ⟨first, atomic, zero⟩ := atomicByte_created (p := p) created
    (home.imp_left fun image => ⟨imageBlock_of_byte stripes image, image⟩)
  have start : DurableByte dev s₀.stripeStatus first p (s₀.shown dev p) (fun _ => 0) (fun _ => 0)
      (fun _ => 0) s₀ := by
    refine ⟨atomic, loggedKinds_created created, marksSettled_created created, ?_, ?_⟩ <;>
    · obtain ⟨table, _, rfl⟩ := created
      constructor <;> simp [newState]
  have inv : ∃ maker since index,
      DurableByte dev s₀.stripeStatus first p (s₀.shown dev p) maker since index s := by
    refine reach_invariant_permitted (P := fun s => ∃ maker since index,
        DurableByte dev s₀.stripeStatus first p (s₀.shown dev p) maker since index s)
      (splitAtStripes_quiet dev) faultless_earlier ?_ run ⟨_, _, _, start⟩ faultless
    rintro s t l ⟨maker, since, index, inv⟩ split met act
    exact durableByte_act sync (created_settled created) (imageBlockCount_small stripes) inv split
      met act
  obtain ⟨maker, since, index, inv⟩ := inv
  exact ⟨first, maker, since, index, inv, zero⟩

theorem Versions.valueAt_eq (inv : Versions dev init first p initial maker s) {v : Nat}
    (low : first ≤ v) (high : v ≤ s.disk.latest (dev.dataBlock (p / dev.blocklen))) :
    s.valueAt dev first p initial v =
      s.disk.version (dev.dataBlock (p / dev.blocklen)) v (ubiMetadataSize + p) := by
  rcases Nat.lt_or_eq_of_le low with later | rfl
  · exact valueAt_of_lt later
  rw [valueAt_of_le le_rfl]
  cases inv.home with
  | image block image starts one =>
      rcases starts with ⟨rfl, _⟩ | ⟨rfl, fetch⟩
      · exact (inv.zero rfl).symm
      · rw [fetch.image p image rfl high]
        exact one rfl
  | past past first_eq idle =>
      subst first_eq
      exact (inv.zero rfl).symm

theorem shown_created (created : Created dev found s₁) (p : Nat) :
    s₁.shown dev p = if p < dev.imageSize ∧
      s₁.stripeStatus (dev.stripeOf (p / dev.blocklen)) ≠ .fetched then dev.image p
    else found (ubiMetadataSize + p) := by
  obtain ⟨table, _, rfl⟩ := created
  rfl

/-- A life as it has to be for byte `p`. Nothing is asked of the metadata for a byte past the
image. -/
structure Orderly (dev : UbiBdev) (base : Bytes) (p : Nat) (s : State) (l : Label) : Prop where
  split : SplitAtStripes dev s l
  current : p < dev.imageSize → NoneStale s l
  first : p < dev.imageSize → DataFirstSince dev base s l

/-- The byte is a value of the line, and no WRITE that a completed FLUSH covers comes after it. -/
def Cut (dev : UbiBdev) (s₀ s : State) (p : Nat) (byte : UInt8) : Prop :=
  ∃ value last index cut, Linearization dev s₀ s p value last index ∧ cut ≤ last ∧
    byte = value cut ∧ ∀ f w, Secures (p / dev.blocklen) s f w → .completed f true ∈ s.log →
      index w ≤ cut

namespace DurableByte

/-- What a crash leaves on the base bdev is a cut, if the fetch of the stripe is not lost. -/
theorem cut_found (inv : DurableByte dev init first p (s₀.shown dev p) maker since index s)
    (crash : CrashContent dev s found)
    (reached : first ≤ s.disk.durable (dev.dataBlock (p / dev.blocklen))) :
    Cut dev s₀ s p (found (ubiMetadataSize + p)) := by
  obtain ⟨v, low, high, content⟩ := crash_version crash (dev.dataBlock (p / dev.blocklen))
  have newest : v ≤ s.newest dev first p := high.trans (Nat.le_max_right _ _)
  refine ⟨_, _, _, v - first, inv.atomic.linearization, by omega, ?_, fun f w secures done => ?_⟩
  · rw [content _ (dev.base_block_of_byte p), valueAt_shift,
      inv.atomic.versions.valueAt_eq (reached.trans low) high]
  · obtain ⟨r, known, type, _⟩ := secures.2
    have := inv.flushed.done f w (inv.logged.completed f r known type done) secures
    omega

theorem cut_start (inv : DurableByte dev init first p (s₀.shown dev p) maker since index s)
    (none : ∀ f w, Secures (p / dev.blocklen) s f w → .completed f true ∉ s.log) :
    Cut dev s₀ s p (s₀.shown dev p) :=
  ⟨_, _, _, 0, inv.atomic.linearization, Nat.zero_le _, inv.atomic.linearization.start.symm,
    fun f w secures done => absurd done (none f w secures)⟩

end DurableByte

section Image

variable (created : Created dev base s₀) (image : p < dev.imageSize)
  (stripes : dev.imageSize ≤ ubiMaxStripes * dev.stripeBytes)
  (run : Reach dev (Permitted (Orderly dev base p)) s₀ s) (faultless : Faultless dev s.log)
  (crash : CrashContent dev s found) (again : Created dev found s₁)

include created image stripes run faultless crash again

/-- If the next life does not find the header of the stripe, the stripe was not fetched when the
life began, and no FLUSH has covered a WRITE. -/
theorem none_secured (sync : dev.noSync = false)
    (unfound : s₁.stripeStatus (dev.stripeOf (p / dev.blocklen)) ≠ .fetched) :
    s₀.stripeStatus (dev.stripeOf (p / dev.blocklen)) = .notFetched ∧
      ∀ f w, Secures (p / dev.blocklen) s f w → .completed f true ∉ s.log := by
  have block := imageBlock_of_byte stripes image
  have unset (stamped : Stamped found) :
      stripeHeader found (dev.stripeOf (p / dev.blocklen)) = 0 := by
    by_contra set
    exact unfound ((created_fetched_iff stamped again _).mpr ⟨block.small, set⟩)
  have unfetched : s₀.stripeStatus (dev.stripeOf (p / dev.blocklen)) = .notFetched := by
    refine (created_settled created _).resolve_right fun fetched => ?_
    obtain ⟨stamped, _, set⟩ := fetched_survives created fetched run faultless.issued crash
    exact set (unset stamped)
  refine ⟨unfetched, fun f w secures done => ?_⟩
  obtain ⟨stamped, set, _⟩ := flushed_write_found created unfetched sync
    (run.mono fun _ _ h => ⟨h.split, h.current image⟩) faultless block secures.1 secures.2 done
    crash
  exact set (unset stamped)

/-- If it does, the fetch of the stripe is durable, or was not needed. -/
theorem fetch_durable (clean : CleanMetadata base)
    (fetched : s₁.stripeStatus (dev.stripeOf (p / dev.blocklen)) = .fetched) :
    s₀.stripeStatus (dev.stripeOf (p / dev.blocklen)) = .fetched ∨
      0 < s.disk.durable (dev.dataBlock (p / dev.blocklen)) := by
  have block := imageBlock_of_byte stripes image
  have owned := headersOwned_reach created (run.mono fun _ _ h => h.first image) faultless.issued
  obtain ⟨bound, set⟩ := header_of_fetched again fetched
  refine (owned.headers.of_found crash bound set).imp (fun old => ?_) fun secured => ?_
  · exact (encodes_created created clean _ bound).mp (by rwa [stripeHeader_created created])
  · exact secured _ block.image rfl

end Image

/-- The test of an event for `Orderly`. Of the completed writes, only those of stripes have to
be alone. -/
def orderly (dev : UbiBdev) (s : State) (e : Event) : Bool :=
  splitAtStripes dev s e && noneStale s e && match e with
    | .writeDone o _ _ => (s.writes o).all fun op => match op.cb with
        | .stripe _ _ => dataFirst dev s e
        | _ => true
    | _ => dataFirst dev s e

theorem orderly_sound (fresh : OpsFresh s) (base : Bytes) (p : Nat) {e : Event}
    (h : orderly dev s e = true) : Permitted (Orderly dev base p) s e := by
  simp only [orderly, Bool.and_eq_true] at h
  obtain ⟨⟨split, current⟩, first⟩ := h
  refine ⟨splitAtStripes_sound dev s e split, fun _ => noneStale_sound fresh current, fun _ => ?_⟩
  constructor
  · intro o success op c k label write cb
    cases e <;> cases label
    simp only [write, cb, Option.all_some] at first
    exact (dataFirst_sound fresh first).alone o success op c k rfl write cb
  · intro o op id label flush cb dirty B image fetched
    cases e <;> cases label
    exact .inr ((dataFirst_sound fresh first).covered o op id rfl flush cb dirty B image fetched)

end BdevUbi
