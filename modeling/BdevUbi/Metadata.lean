import BdevUbi.Layout
import Mathlib.Data.Finset.Card

/-!
The on-disk metadata: a packed array of bytes, its decoder and its initialiser.
Field positions are those of `struct ubi_metadata`, whose members are all bytes.
-/

namespace BdevUbi

inductive StripeStatus where
  | notFetched | inflight | failed | fetched
  deriving DecidableEq, Repr

/-- `UBI_MAGIC` with its terminating zero. -/
def ubiMagic : List UInt8 := [0x42, 0x44, 0x45, 0x56, 0x5f, 0x55, 0x42, 0x49, 0x00]
def ubiMagicSize : Nat := 9
def ubiVersionMajor : Nat := 0
def ubiVersionMinor : Nat := 1

def versionMajorOffset : Nat := 9
def versionMinorOffset : Nat := 11
def stripeSizeKbOffset : Nat := 13

def stripeHeaderOffset (i : Nat) : Nat := 14 + 2 * i

def stripeHeader (metadata : Bytes) (i : Nat) : UInt8 := metadata (stripeHeaderOffset i)

def storeLittleendianShortint (n : Nat) (mem : Bytes) (offset : Nat) : Bytes :=
  Function.update (Function.update mem offset (UInt8.ofNat (n % 256))) (offset + 1)
    (UInt8.ofNat (n / 256))

def loadLittleendianShortint (mem : Bytes) (offset : Nat) : Nat :=
  (mem offset).toNat + 256 * (mem (offset + 1)).toNat

def ubiSetVersion (metadata : Bytes) (major minor : Nat) : Bytes :=
  storeLittleendianShortint minor
    (storeLittleendianShortint major metadata versionMajorOffset) versionMinorOffset

def ubiGetVersion (metadata : Bytes) : Nat × Nat :=
  (loadLittleendianShortint metadata versionMajorOffset,
    loadLittleendianShortint metadata versionMinorOffset)

/-- Assume a new disk if the magic has been zeroed out. -/
def ubiNewDisk (metadata : Bytes) : Bool :=
  (List.range ubiMagicSize).all fun i => metadata i == 0

def magicMatches (metadata : Bytes) : Bool :=
  (List.range ubiMagicSize).all fun i => metadata i == ubiMagic.getD i 0

/-- The stripe size is stored in one byte. -/
def ubiInitMetadata (stripeSizeKb : Nat) (metadata : Bytes) : Bytes :=
  let withMagic : Bytes := fun i => if i < ubiMagicSize then ubiMagic.getD i 0 else metadata i
  Function.update (ubiSetVersion withMagic ubiVersionMajor ubiVersionMinor)
    stripeSizeKbOffset (UInt8.ofNat stripeSizeKb)

/-- The part of `struct ubi_bdev` that creation derives from the metadata. -/
structure StripeTable where
  stripeStatus : Nat → StripeStatus
  metadata : Bytes
  stripesFetched : Nat
  stripesFlushed : Nat

/-- `found` is what the metadata read put in the buffer. The struct was zeroed by
`calloc`, so the new-disk branch leaves every stripe unfetched. -/
def ubiFinishReadMetadata (stripeSizeKb : Nat) (success : Bool) (found : Bytes) :
    Except Int StripeTable :=
  if !success then .error EIO
  else if ubiNewDisk found then
    .ok { stripeStatus := fun _ => .notFetched
          metadata := ubiInitMetadata stripeSizeKb found
          stripesFetched := 0
          stripesFlushed := 0 }
  else if !magicMatches found then .error EINVAL
  else if ubiGetVersion found ≠ (ubiVersionMajor, ubiVersionMinor) then .error EINVAL
  else
    let fetched := (List.range ubiMaxStripes).countP fun i => stripeHeader found i != 0
    .ok { stripeStatus := fun i =>
            if i < ubiMaxStripes ∧ stripeHeader found i ≠ 0 then .fetched else .notFetched
          metadata := found
          stripesFetched := fetched
          stripesFlushed := fetched }

theorem stripeHeaderOffset_ge (i : Nat) : 14 ≤ stripeHeaderOffset i := by
  unfold stripeHeaderOffset
  omega

theorem stripeHeaderOffset_inj {i j : Nat} :
    stripeHeaderOffset i = stripeHeaderOffset j ↔ i = j := by
  unfold stripeHeaderOffset
  omega

theorem stripeHeaderOffset_lt {i : Nat} (h : i < ubiMaxStripes) :
    stripeHeaderOffset i < ubiMetadataSize := by
  unfold stripeHeaderOffset ubiMetadataSize
  unfold ubiMaxStripes at h
  omega

theorem stripeHeader_ubiInitMetadata (stripeSizeKb : Nat) (found : Bytes) (i : Nat) :
    stripeHeader (ubiInitMetadata stripeSizeKb found) i = stripeHeader found i := by
  have := stripeHeaderOffset_ge i
  simp only [stripeHeader, ubiInitMetadata, ubiSetVersion, storeLittleendianShortint]
  rw [Function.update_of_ne, Function.update_of_ne, Function.update_of_ne, Function.update_of_ne,
    Function.update_of_ne, if_neg] <;>
  simp only [stripeSizeKbOffset, versionMajorOffset, versionMinorOffset, ubiMagicSize] <;> omega

theorem update_header_of_lt {metadata : Bytes} {i a : Nat} (v : UInt8) (h : a < 14) :
    Function.update metadata (stripeHeaderOffset i) v a = metadata a := by
  have := stripeHeaderOffset_ge i
  exact Function.update_of_ne (by omega) _ _

theorem stripeHeader_update (metadata : Bytes) (i j : Nat) (v : UInt8) :
    stripeHeader (Function.update metadata (stripeHeaderOffset i) v) j =
      if j = i then v else stripeHeader metadata j := by
  simp only [stripeHeader, Function.update_apply, stripeHeaderOffset_inj]

/-- The two ways in which a metadata area is accepted: as that of a new disk, or as
written by this version. -/
theorem ubiFinishReadMetadata_ok {stripeSizeKb : Nat} {found : Bytes} {table : StripeTable}
    (h : ubiFinishReadMetadata stripeSizeKb true found = .ok table) :
    (ubiNewDisk found = true ∧ (∀ i, table.stripeStatus i = .notFetched) ∧
      table.metadata = ubiInitMetadata stripeSizeKb found ∧ table.stripesFetched = 0 ∧
      table.stripesFlushed = 0) ∨
    (ubiNewDisk found = false ∧ magicMatches found = true ∧
      ubiGetVersion found = (ubiVersionMajor, ubiVersionMinor) ∧
      (∀ i, table.stripeStatus i =
        if i < ubiMaxStripes ∧ stripeHeader found i ≠ 0 then .fetched else .notFetched) ∧
      table.metadata = found ∧
      table.stripesFetched =
        (List.range ubiMaxStripes).countP (fun i => stripeHeader found i != 0) ∧
      table.stripesFlushed = table.stripesFetched) := by
  simp only [ubiFinishReadMetadata, Bool.not_true, Bool.false_eq_true, if_false] at h
  split at h
  · next new =>
    cases h
    exact .inl ⟨new, fun _ => rfl, rfl, rfl, rfl⟩
  next old =>
  split at h
  · cases h
  next magic =>
  split at h
  · cases h
  next version =>
  cases h
  refine .inr ⟨by simpa using old, by simpa using magic, not_not.mp version, fun _ => rfl, rfl, ?_,
    ?_⟩ <;> dsimp only

theorem ubiFinishReadMetadata_status {stripeSizeKb : Nat} {found : Bytes} {table : StripeTable}
    (h : ubiFinishReadMetadata stripeSizeKb true found = .ok table) (i : Nat) :
    table.stripeStatus i = .notFetched ∨ (i < ubiMaxStripes ∧ table.stripeStatus i = .fetched) := by
  rcases ubiFinishReadMetadata_ok h with ⟨_, status, _⟩ | ⟨_, _, _, status, _⟩
  · exact .inl (status i)
  · rw [status]
    split
    · next fetched => exact .inr ⟨fetched.1, rfl⟩
    · exact .inl rfl

end BdevUbi
