import BdevUbi.ActSteps

/-!
Addresses. A fetch reads and writes a stripe by byte offsets, a request is served by
block numbers. Both put a byte of the ubi bdev at the same base address, behind the
metadata. Whether the last stripe of the image fits the base bdev is another matter.
-/

namespace BdevUbi

def Request.CoversBlock (r : Request) (B : Nat) : Prop :=
  r.offsetBlocks ≤ B ∧ B < r.offsetBlocks + r.numBlocks

instance (r : Request) (B : Nat) : Decidable (r.CoversBlock B) :=
  inferInstanceAs (Decidable (_ ∧ _))

/-- The base block that holds block `B` of the ubi bdev. -/
abbrev UbiBdev.dataBlock (dev : UbiBdev) (B : Nat) : Nat := B + dev.dataOffsetBlocks

abbrev UbiBdev.stripeOf (dev : UbiBdev) (B : Nat) : Nat := B / dev.stripeBlockCount

variable {dev : UbiBdev} {B x : Nat} {r : Request}

theorem stripeOf_of_range {x : Nat}
    (h : dev.stripeStart x ≤ dev.dataBlock B ∧
      dev.dataBlock B < dev.stripeStart x + dev.stripeBlockCount) : dev.stripeOf B = x := by
  simp only [UbiBdev.stripeStart, UbiBdev.dataBlock] at h
  rw [UbiBdev.stripeOf, Nat.div_eq_iff dev.stripeBlockCount_pos]
  omega

theorem range_of_stripeOf (dev : UbiBdev) (B : Nat) :
    dev.stripeStart (dev.stripeOf B) ≤ dev.dataBlock B ∧
      dev.dataBlock B < dev.stripeStart (dev.stripeOf B) + dev.stripeBlockCount := by
  simp only [UbiBdev.stripeStart, UbiBdev.dataBlock, UbiBdev.stripeOf]
  have := Nat.div_add_mod B dev.stripeBlockCount
  have := Nat.mod_lt B dev.stripeBlockCount_pos
  rw [Nat.mul_comm (B / dev.stripeBlockCount)]
  omega

/-- Byte `p` of the ubi bdev, in the base block its own block is redirected to. -/
def UbiBdev.baseByte (dev : UbiBdev) (p : Nat) : Nat :=
  (p / dev.blocklen + dev.dataOffsetBlocks) * dev.blocklen + p % dev.blocklen

/-- The base write that `ubi_complete_fetch_stripe` starts for stripe `x`. -/
def FetchWrite (dev : UbiBdev) (x : Nat) (op : BaseWrite) : Prop :=
  ∃ s c k sqe res ret, (s.slot c k).stripeIdx = x ∧ s.writes s.nextWrite = none ∧
    (ubiCompleteFetchStripe dev s c k sqe res ret).2.writes s.nextWrite = some op

/-- The base blocks that `ubi_submit_read_request` or `ubi_submit_write_request` asks for. -/
def RequestRange (dev : UbiBdev) (r : Request) (startBlock numBlocks : Nat) : Prop :=
  (∃ s id ret t op, ubiSubmitReadRequest dev s id r ret = some t ∧ t.reads s.nextRead = some op ∧
    op.startBlock = startBlock ∧ op.numBlocks = numBlocks) ∨
  ∃ s id ret op, s.writes s.nextWrite = none ∧
    (ubiSubmitWriteRequest dev s id r ret).writes s.nextWrite = some op ∧
    op.startBlock = startBlock ∧ op.numBlocks = numBlocks

theorem baseByte_eq (dev : UbiBdev) (p : Nat) : dev.baseByte p = ubiMetadataSize + p := by
  have := Nat.div_add_mod p dev.blocklen
  rw [UbiBdev.baseByte, Nat.add_mul, dev.dataOffset_bytes, Nat.mul_comm (p / dev.blocklen)]
  omega

theorem fetchWrite_range {op : BaseWrite} (h : FetchWrite dev x op) :
    op.startBlock = dev.stripeStart x ∧ op.numBlocks = dev.stripeBlockCount := by
  obtain ⟨s, c, k, sqe, res, ret, rfl, free, started⟩ := h
  obtain ⟨start, blocks⟩ := stripe_write_range dev (s.slot c k).stripeIdx
  simp only [ubiCompleteFetchStripe] at started
  split at started
  · simp [ubiFailStripeFetch, ubiSetStripeStatus, State.setFetch, State.setChannel, State.emit,
      free] at started
  split at started
  · simp only [State.startWrite, State.emit, Function.update_self, Option.some.injEq] at started
    subst started
    exact ⟨start, blocks⟩
  · simp [ubiFailStripeFetch, ubiSetStripeStatus, State.setFetch, State.setChannel, State.emit,
      free] at started

theorem requestRange_eq {startBlock numBlocks : Nat} (h : RequestRange dev r startBlock numBlocks) :
    startBlock = r.offsetBlocks + dev.dataOffsetBlocks ∧ numBlocks = r.numBlocks := by
  rcases h with ⟨s, id, ret, t, op, started, read, rfl, rfl⟩ |
    ⟨s, id, ret, op, free, write, rfl, rfl⟩
  · simp only [ubiSubmitReadRequest] at started
    split at started
    · cases started
      simp only [State.startRead, Function.update_self, Option.some.injEq] at read
      subst read
      exact ⟨rfl, rfl⟩
    · cases started
  · simp only [ubiSubmitWriteRequest] at write
    split at write
    · simp only [State.startWrite, State.emit, Function.update_self, Option.some.injEq] at write
      subst write
      exact ⟨rfl, rfl⟩
    · simp [State.emit, free] at write

theorem stripeBytes_pos (dev : UbiBdev) : 0 < dev.stripeBytes := by
  rw [dev.stripeBytes_eq]
  exact Nat.mul_pos dev.stripeBlockCount_pos dev.blocklen_pos

theorem stripeSizeKb_le (dev : UbiBdev) : dev.stripeSizeKb ≤ 1024 := by
  have accepted := dev.init
  simp only [ubiInitLayoutParams] at accepted
  split at accepted
  · cases accepted
  split at accepted
  · cases accepted
  next range => simpa [ubiStripeSizeMax] using (not_or.mp range).2

theorem byte_in_stripe (dev : UbiBdev) (p : Nat) :
    dev.stripeOf (p / dev.blocklen) * dev.stripeBytes ≤ p ∧
      p < (dev.stripeOf (p / dev.blocklen) + 1) * dev.stripeBytes := by
  rw [UbiBdev.stripeOf, ← dev.div_stripeBytes]
  have split := Nat.div_add_mod p dev.stripeBytes
  have rest := Nat.mod_lt p (stripeBytes_pos dev)
  rw [Nat.add_one_mul, Nat.mul_comm]
  omega

/-- The fetch of stripe `x` and the requests for block `b` of it address byte `p` alike: a
byte of a buffer goes to the base byte that is as far from the start of the base range. -/
structure AddressesAgree (dev : UbiBdev) (x b p : Nat) : Prop where
  read : ∀ k, (stripeSqe dev k x).offset = x * (dev.stripeSizeKb * 1024) ∧
    (stripeSqe dev k x).nbytes = dev.stripeSizeKb * 1024
  within : x * (dev.stripeSizeKb * 1024) ≤ p ∧ p < (x + 1) * (dev.stripeSizeKb * 1024)
  fetched : ∀ op, FetchWrite dev x op → op.startBlock ≤ dev.dataBlock b ∧
    dev.dataBlock b < op.startBlock + op.numBlocks ∧
    op.startBlock * dev.blocklen + (p - x * (dev.stripeSizeKb * 1024)) = dev.baseByte p
  requested : ∀ r startBlock numBlocks, r.CoversBlock b → RequestRange dev r startBlock numBlocks →
    startBlock ≤ dev.dataBlock b ∧ dev.dataBlock b < startBlock + numBlocks ∧
    startBlock * dev.blocklen + (p - r.offsetBlocks * dev.blocklen) = dev.baseByte p
  /-- The sums fit in a signed 64-bit integer. -/
  unwrapped : (x + 1) * (dev.stripeSizeKb * 1024) + ubiMetadataSize < 2 ^ 63

theorem addressesAgree {p : Nat} (bound : dev.stripeOf (p / dev.blocklen) < ubiMaxStripes) :
    AddressesAgree dev (dev.stripeOf (p / dev.blocklen)) (p / dev.blocklen) p := by
  obtain ⟨low, high⟩ := byte_in_stripe dev p
  refine ⟨fun k => ⟨Nat.mul_comm _ _, rfl⟩, ⟨low, high⟩, fun op write => ?_,
    fun r startBlock numBlocks covers range => ?_, ?_⟩
  · obtain ⟨start, blocks⟩ := fetchWrite_range write
    obtain ⟨left, right⟩ := range_of_stripeOf dev (p / dev.blocklen)
    rw [start, blocks]
    refine ⟨left, right, ?_⟩
    rw [stripeStart_bytes, baseByte_eq, Nat.mul_comm dev.stripeBytes]
    change _ + _ + (_ - _ * dev.stripeBytes) = _
    omega
  · obtain ⟨rfl, rfl⟩ := requestRange_eq range
    obtain ⟨left, right⟩ := covers
    have start : r.offsetBlocks * dev.blocklen ≤ p :=
      (Nat.le_div_iff_mul_le dev.blocklen_pos).mp left
    refine ⟨Nat.add_le_add_right left _, ?_, ?_⟩
    · simp only [UbiBdev.dataBlock]
      omega
    · rw [Nat.add_mul, dev.dataOffset_bytes, baseByte_eq]
      omega
  · have size := stripeSizeKb_le dev
    have bytes : (dev.stripeOf (p / dev.blocklen) + 1) * (dev.stripeSizeKb * 1024) ≤
        ubiMaxStripes * (1024 * 1024) := Nat.mul_le_mul bound (by omega)
    simp only [ubiMaxStripes, ubiMetadataSize] at bytes ⊢
    omega

theorem stripes_disjoint {y : Nat} (apart : x ≠ y) :
    dev.stripeStart x + dev.stripeBlockCount ≤ dev.stripeStart y ∨
      dev.stripeStart y + dev.stripeBlockCount ≤ dev.stripeStart x := by
  have below {x y : Nat} (h : x < y) :
      dev.stripeStart x + dev.stripeBlockCount ≤ dev.stripeStart y := by
    have := Nat.mul_le_mul_right dev.stripeBlockCount (Nat.succ_le_of_lt h)
    rw [Nat.succ_mul] at this
    simp only [UbiBdev.stripeStart]
    omega
  rcases Nat.lt_or_gt_of_ne apart with less | greater
  · exact .inl (below less)
  · exact .inr (below greater)

/-- Block-based and byte-based addressing agree for every accepted geometry. -/
theorem addressing_agrees (dev : UbiBdev) :
    dev.stripeBlockCount = 2 ^ dev.stripeShift ∧
    dev.stripeBlockCount * dev.blocklen = dev.stripeSizeKb * 1024 ∧
    (∀ b p, b >>> dev.stripeShift < ubiMaxStripes → p / dev.blocklen = b →
      AddressesAgree dev (b >>> dev.stripeShift) b p) ∧
    (∀ x y op op', x ≠ y → FetchWrite dev x op → FetchWrite dev y op' →
      op.startBlock + op.numBlocks ≤ op'.startBlock ∨
        op'.startBlock + op'.numBlocks ≤ op.startBlock) ∧
    (∀ x op, FetchWrite dev x op → ubiMetadataSize ≤ op.startBlock * dev.blocklen) ∧
    ∀ r startBlock numBlocks, RequestRange dev r startBlock numBlocks →
      ubiMetadataSize ≤ startBlock * dev.blocklen := by
  refine ⟨dev.stripeBlockCount_eq, dev.accepted.stripe_bytes, ?_, ?_, ?_, ?_⟩
  · rintro _ p bound rfl
    rw [dev.shift_eq_div] at bound ⊢
    exact addressesAgree bound
  · intro x y op op' apart write write'
    obtain ⟨start, blocks⟩ := fetchWrite_range write
    obtain ⟨start', blocks'⟩ := fetchWrite_range write'
    rw [start, blocks, start', blocks']
    exact stripes_disjoint apart
  · intro x op write
    rw [(fetchWrite_range write).1, stripeStart_bytes]
    exact Nat.le_add_right _ _
  · intro r startBlock numBlocks range
    rw [(requestRange_eq range).1, Nat.add_mul, dev.dataOffset_bytes]
    exact Nat.le_add_left _ _

theorem addressing_agrees_threeBlock : AddressesAgree (threeBlockBdev false) 1 1 65540 :=
  (addressing_agrees (threeBlockBdev false)).2.2.1 1 65540 (by decide) (by decide)

def ImageStripe (dev : UbiBdev) (x : Nat) : Prop :=
  ∃ b, b < dev.imageBlockCount ∧ b >>> dev.stripeShift = x

theorem lt_roundUp_iff {k n d : Nat} (pos : 0 < d) : k < (n + d - 1) / d ↔ k * d < n := by
  rw [← Nat.succ_le_iff, Nat.le_div_iff_mul_le pos, Nat.succ_mul]
  omega

theorem imageStripe_iff : ImageStripe dev x ↔ x * dev.stripeBytes < dev.imageSize := by
  have blocks : dev.imageBlockCount = (dev.imageSize + dev.blocklen - 1) / dev.blocklen :=
    dev.accepted.image_blocks
  have first : x * dev.stripeBytes < dev.imageSize ↔
      x * dev.stripeBlockCount < dev.imageBlockCount := by
    rw [blocks, lt_roundUp_iff dev.blocklen_pos, Nat.mul_assoc, ← dev.stripeBytes_eq]
  rw [first]
  constructor
  · rintro ⟨b, image, rfl⟩
    rw [dev.shift_eq_div]
    exact (Nat.div_mul_le_self b _).trans_lt image
  · intro image
    exact ⟨x * dev.stripeBlockCount, image, by
      rw [dev.shift_eq_div, Nat.mul_div_cancel _ dev.stripeBlockCount_pos]⟩

theorem baseAcceptsBytes_stripe (dev : UbiBdev) (x : Nat) :
    baseAcceptsBytes dev (dev.stripeBytes * x + ubiMetadataSize) dev.stripeBytes 0 = true ↔
      ubiMetadataSize + (x + 1) * dev.stripeBytes ≤ dev.blockcnt * dev.blocklen := by
  obtain ⟨start, blocks⟩ := stripe_write_range dev x
  have whole : (dev.stripeBytes * x + ubiMetadataSize) % dev.blocklen = 0 := by
    rw [Nat.add_comm, ← stripeStart_bytes, Nat.mul_mod_left]
  have whole' : dev.stripeBytes % dev.blocklen = 0 := by
    rw [dev.stripeBytes_eq, Nat.mul_mod_left]
  have bytes : ubiMetadataSize + (x + 1) * dev.stripeBytes =
      (dev.stripeStart x + dev.stripeBlockCount) * dev.blocklen := by
    rw [Nat.add_mul (dev.stripeStart x), stripeStart_bytes, ← dev.stripeBytes_eq]
    ring
  rw [bytes, Nat.mul_le_mul_right_iff dev.blocklen_pos]
  simp [baseAcceptsBytes, baseAccepts, start, blocks, whole, whole']

/-- A base bdev with room for the metadata and an image of one block, but not for the
stripe that holds this block. -/
def tightBdev : UbiBdev where
  blocklen := 32768
  blockcnt := 257
  imageSize := 32768
  image := fun _ => 7
  stripeSizeKb := 64
  noSync := false
  copyOnRead := false
  layout := ⟨2, 1, 256, 1⟩
  imageSize_lt := by decide
  blockcnt_lt := by decide
  init := by decide

end BdevUbi
