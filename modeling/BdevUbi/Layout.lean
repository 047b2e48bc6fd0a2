import Mathlib.Data.Nat.Prime.Basic
import Mathlib.Tactic.Common

/-!
Layout of metadata and stripes on the base bdev, and the device it describes.

`ubiInitLayoutParams` decides which base geometry, image size and stripe size are
accepted. A `UbiBdev` can only be built from an accepted one, so every later
result may use what acceptance gives: power-of-two stripes made of whole blocks,
behind a metadata area made of whole blocks.
-/

namespace BdevUbi

def ubiMetadataSize : Nat := 8388608
def ubiMaxStripes : Nat := 2 * 1024 * 1024
def ubiStripeSizeMin : Nat := 64
def ubiStripeSizeMax : Nat := 1024
def ubiMaxActiveStripeFetches : Nat := 8
def ubiMaxConcurrentReads : Nat := 24
def ubiFetchQueueSize : Nat := 32768
def ubiUringQueueSize : Nat := 32

/-- Contents of a byte range, indexed from its first byte. -/
abbrev Bytes := Nat → UInt8

abbrev EINVAL : Int := -22
abbrev EIO : Int := -5

structure LayoutParams where
  stripeBlockCount : Nat
  stripeShift : Nat
  dataOffsetBlocks : Nat
  imageBlockCount : Nat
  deriving DecidableEq, Repr

/-- The halving loop `while (r > 1)`; `r` is a 32-bit value, so 32 rounds suffice. -/
def log2Loop : Nat → Nat → Nat → Nat
  | 0, _, log2r => log2r
  | rounds + 1, r, log2r => if r > 1 then log2Loop rounds (r / 2) (log2r + 1) else log2r

/-- `stat` is the image's size, or `none` when `stat()` fails. -/
def ubiInitLayoutParams (stat : Option Nat) (blocklen blockcnt stripeSizeKb : Nat) :
    Except Int LayoutParams :=
  match stat with
  | none => .error EINVAL
  | some stSize =>
    if blockcnt * blocklen % 2 ^ 64 < (stSize + ubiMetadataSize) % 2 ^ 64 then .error EINVAL
    else if stripeSizeKb < ubiStripeSizeMin ∨ ubiStripeSizeMax < stripeSizeKb then .error EINVAL
    else if stripeSizeKb &&& (stripeSizeKb - 1) ≠ 0 then .error EINVAL
    else
      let stripSizeBytes := stripeSizeKb * 1024 % 2 ^ 32
      if stripSizeBytes < blocklen then .error EINVAL
      else if ubiMetadataSize % blocklen ≠ 0 then .error EINVAL
      else
        let log2r := log2Loop 32 ((stripSizeBytes + blocklen - 1) / blocklen) 0
        .ok { stripeBlockCount := 1 <<< log2r
              stripeShift := log2r
              dataOffsetBlocks := ubiMetadataSize / blocklen
              imageBlockCount := (stSize + blocklen - 1) / blocklen }

theorem log2Loop_two_pow (rounds n log2r : Nat) (h : n ≤ rounds) :
    log2Loop rounds (2 ^ n) log2r = log2r + n := by
  induction rounds generalizing n log2r with
  | zero =>
      obtain rfl : n = 0 := by omega
      rfl
  | succ rounds ih =>
      cases n with
      | zero => simp [log2Loop]
      | succ n =>
          have big : 2 ^ (n + 1) > 1 := Nat.one_lt_two_pow (by omega)
          have half : 2 ^ (n + 1) / 2 = 2 ^ n := by rw [Nat.pow_succ]; omega
          rw [log2Loop, if_pos big, half, ih n (log2r + 1) (by omega)]
          omega

/-- What acceptance of a geometry amounts to. -/
structure Accepted (imageSize blocklen blockcnt stripeSizeKb : Nat) (p : LayoutParams) : Prop where
  blocklen_pos : 0 < blocklen
  stripe_blocks : p.stripeBlockCount = 2 ^ p.stripeShift
  stripe_bytes : p.stripeBlockCount * blocklen = stripeSizeKb * 1024
  data_offset : p.dataOffsetBlocks * blocklen = ubiMetadataSize
  image_blocks : p.imageBlockCount = (imageSize + blocklen - 1) / blocklen
  fits : p.dataOffsetBlocks ≤ blockcnt

private theorem stripe_split {k b : Nat} (hk : k ≠ 0) (kPow : k &&& (k - 1) = 0)
    (kMax : k ≤ 1024) (hb : b ∣ 2 ^ 23) (fit : b ≤ k * 1024) :
    ∃ n, n ≤ 32 ∧ (k * 1024 + b - 1) / b = 2 ^ n ∧ 2 ^ n * b = k * 1024 := by
  obtain ⟨i, rfl⟩ := (Nat.and_sub_one_eq_zero_iff_isPowerOfTwo hk).mp kPow
  obtain ⟨j, _, rfl⟩ := (Nat.dvd_prime_pow Nat.prime_two).mp hb
  have total : 2 ^ i * 1024 = 2 ^ (i + 10) := by rw [Nat.pow_add]
  rw [total] at fit ⊢
  have hji : j ≤ i + 10 := (Nat.pow_le_pow_iff_right (by omega)).mp fit
  have hi : i ≤ 10 := (Nat.pow_le_pow_iff_right (a := 2) (by omega)).mp (by omega)
  have prod : 2 ^ (i + 10 - j) * 2 ^ j = 2 ^ (i + 10) := by
    rw [← Nat.pow_add]
    congr 1
    omega
  refine ⟨i + 10 - j, by omega, ?_, prod⟩
  have pos : 0 < 2 ^ j := Nat.two_pow_pos j
  rw [← prod, Nat.add_sub_assoc pos, Nat.mul_comm, Nat.mul_add_div pos,
    Nat.div_eq_of_lt (by omega), Nat.add_zero]

theorem ubiInitLayoutParams_accepted {imageSize blocklen blockcnt stripeSizeKb : Nat}
    {p : LayoutParams}
    (h : ubiInitLayoutParams (some imageSize) blocklen blockcnt stripeSizeKb = .ok p)
    (small : imageSize + ubiMetadataSize < 2 ^ 64) :
    Accepted imageSize blocklen blockcnt stripeSizeKb p := by
  simp only [ubiInitLayoutParams] at h
  split at h
  · cases h
  next room =>
  split at h
  · cases h
  next range =>
  split at h
  · cases h
  next pow =>
  split at h
  · cases h
  next fit =>
  split at h
  · cases h
  next whole =>
  simp only [ubiStripeSizeMin, ubiStripeSizeMax, not_or, Nat.not_lt] at range
  have small32 : stripeSizeKb * 1024 % 2 ^ 32 = stripeSizeKb * 1024 :=
    Nat.mod_eq_of_lt (by omega)
  rw [small32] at h fit
  have dvd : blocklen ∣ 2 ^ 23 := Nat.dvd_of_mod_eq_zero (not_not.mp whole)
  have pos : 0 < blocklen := Nat.pos_of_dvd_of_pos dvd (by decide)
  obtain ⟨n, hn, quot, bytes⟩ :=
    stripe_split (by omega) (not_not.mp pow) range.2 dvd (by omega)
  rw [quot, log2Loop_two_pow 32 n 0 hn, Nat.zero_add] at h
  cases h
  have meta8 : ubiMetadataSize / blocklen * blocklen = ubiMetadataSize :=
    Nat.div_mul_cancel dvd
  refine ⟨pos, Nat.one_shiftLeft n, ?_, meta8, rfl, ?_⟩
  · simpa [Nat.one_shiftLeft] using bytes
  · rw [Nat.mod_eq_of_lt small] at room
    have grow : blockcnt * blocklen % 2 ^ 64 ≤ blockcnt * blocklen := Nat.mod_le _ _
    apply Nat.le_of_mul_le_mul_right _ pos
    rw [meta8]
    omega

theorem ubiInitLayoutParams_error {stat : Option Nat} {blocklen blockcnt stripeSizeKb : Nat}
    {rc : Int} (h : ubiInitLayoutParams stat blocklen blockcnt stripeSizeKb = .error rc) :
    rc = EINVAL := by
  cases stat with
  | none => exact (Except.error.inj h).symm
  | some imageSize =>
      simp only [ubiInitLayoutParams] at h
      iterate 5
        split at h
        · exact (Except.error.inj h).symm
      cases h

/-- The fields of `struct ubi_bdev` that are fixed once the bdev is created, with
the image it was created on. `imageSize` is an `off_t`. -/
structure UbiBdev where
  blocklen : Nat
  blockcnt : Nat
  imageSize : Nat
  image : Bytes
  stripeSizeKb : Nat
  noSync : Bool
  copyOnRead : Bool
  layout : LayoutParams
  imageSize_lt : imageSize < 2 ^ 63
  blockcnt_lt : blockcnt < 2 ^ 64
  init : ubiInitLayoutParams (some imageSize) blocklen blockcnt stripeSizeKb = .ok layout

namespace UbiBdev
variable (dev : UbiBdev)

abbrev stripeBlockCount : Nat := dev.layout.stripeBlockCount
abbrev stripeShift : Nat := dev.layout.stripeShift
abbrev dataOffsetBlocks : Nat := dev.layout.dataOffsetBlocks
abbrev imageBlockCount : Nat := dev.layout.imageBlockCount

/-- `bdev.blockcnt`, the size of the ubi bdev itself. -/
def ubiBlockcnt : Nat := dev.blockcnt - dev.dataOffsetBlocks

def stripeBytes : Nat := dev.stripeSizeKb * 1024

theorem accepted :
    Accepted dev.imageSize dev.blocklen dev.blockcnt dev.stripeSizeKb dev.layout := by
  apply ubiInitLayoutParams_accepted dev.init
  have := dev.imageSize_lt
  simp only [ubiMetadataSize]
  omega

theorem blocklen_pos : 0 < dev.blocklen := dev.accepted.blocklen_pos

theorem stripeBlockCount_eq : dev.stripeBlockCount = 2 ^ dev.stripeShift :=
  dev.accepted.stripe_blocks

theorem stripeBlockCount_pos : 0 < dev.stripeBlockCount := by
  rw [stripeBlockCount_eq]
  exact Nat.two_pow_pos _

theorem stripeBytes_eq : dev.stripeBytes = dev.stripeBlockCount * dev.blocklen :=
  dev.accepted.stripe_bytes.symm

theorem dataOffset_bytes : dev.dataOffsetBlocks * dev.blocklen = ubiMetadataSize :=
  dev.accepted.data_offset

theorem image_fits : dev.imageSize + ubiMetadataSize ≤ dev.blockcnt * dev.blocklen := by
  have init := dev.init
  simp only [ubiInitLayoutParams] at init
  split at init
  · cases init
  next room =>
  have small : dev.imageSize + ubiMetadataSize < 2 ^ 64 := by
    have := dev.imageSize_lt
    simp only [ubiMetadataSize]
    omega
  rw [Nat.mod_eq_of_lt small, Nat.not_lt] at room
  exact room.trans (Nat.mod_le _ _)

theorem imageBlockCount_le : dev.imageBlockCount ≤ dev.ubiBlockcnt := by
  have fits := dev.image_fits
  have pos := dev.blocklen_pos
  rw [imageBlockCount, dev.accepted.image_blocks, ← Nat.lt_succ_iff, Nat.div_lt_iff_lt_mul pos,
    Nat.succ_mul, ubiBlockcnt, Nat.sub_mul, dev.dataOffset_bytes]
  omega

theorem shift_eq_div (block : Nat) : block >>> dev.stripeShift = block / dev.stripeBlockCount := by
  rw [Nat.shiftRight_eq_div_pow, stripeBlockCount_eq]

theorem div_lt_imageBlockCount {p : Nat} (h : p < dev.imageSize) :
    p / dev.blocklen < dev.imageBlockCount := by
  have pos := dev.blocklen_pos
  rw [imageBlockCount, dev.accepted.image_blocks, Nat.div_lt_iff_lt_mul pos]
  have := Nat.div_add_mod (dev.imageSize + dev.blocklen - 1) dev.blocklen
  have := Nat.mod_lt (dev.imageSize + dev.blocklen - 1) pos
  rw [Nat.mul_comm]
  omega

theorem base_block_of_byte (p : Nat) :
    (ubiMetadataSize + p) / dev.blocklen = p / dev.blocklen + dev.dataOffsetBlocks := by
  rw [← dev.dataOffset_bytes, Nat.mul_comm, Nat.mul_add_div dev.blocklen_pos, Nat.add_comm]

theorem div_stripeBytes (p : Nat) :
    p / dev.stripeBytes = p / dev.blocklen / dev.stripeBlockCount := by
  rw [stripeBytes_eq, Nat.mul_comm, Nat.div_div_eq_div_mul]

/-- Image bytes of stripe `x`: the whole stripe, less what lies past the image. -/
def stripeImageBytes (x : Nat) : Nat := min dev.stripeBytes (dev.imageSize - dev.stripeBytes * x)

end UbiBdev
end BdevUbi
