import BdevUbi.StripePlaces
import BdevUbi.Addressing

/-!
Where the data of a fetch is stored. A slot has a buffer of its own, somewhat larger than the
largest stripe, and `ubi_start_fetch_stripe` reads to the first aligned address in it; the write
to the base bdev takes the data from there. The image may have been opened for direct I/O, so
addresses, offsets and lengths have to be aligned. In every run they are, no operation of a fetch
leaves the buffer of its slot, and no two outstanding ones share memory.
-/

namespace BdevUbi
open Placement

/-- `alignment_bytes`, set when the ubi bdev is created. -/
def alignmentBytes : Nat := 4096

/-- The length of `buf` in `struct stripe_fetch`. -/
def fetchBufLen : Nat := 1024 * ubiStripeSizeMax + 8192

/-- `buf_aligned`, given the address of `buf`. -/
def bufAligned (buf : Nat) : Nat :=
  let remainder := buf &&& (alignmentBytes - 1)
  let alignmentOffset := if remainder ≠ 0 then alignmentBytes - remainder else 0
  buf + alignmentOffset

structure Region where
  start : Nat
  size : Nat

namespace Region

def Within (inner outer : Region) : Prop :=
  outer.start ≤ inner.start ∧ inner.start + inner.size ≤ outer.start + outer.size

def Apart (a b : Region) : Prop := a.start + a.size ≤ b.start ∨ b.start + b.size ≤ a.start

theorem Apart.mono {a b a' b' : Region} (apart : a'.Apart b') (ha : a.Within a')
    (hb : b.Within b') : a.Apart b := by
  unfold Within at ha hb
  unfold Apart at apart ⊢
  omega

end Region

/-- Where the buffers of the slots are: different objects do not overlap. -/
structure ChannelMemory where
  buf : ChId → Nat → Nat
  apart : ∀ c d k j, k < ubiMaxActiveStripeFetches → j < ubiMaxActiveStripeFetches →
    (c, k) ≠ (d, j) → Region.Apart ⟨buf c k, fetchBufLen⟩ ⟨buf d j, fetchBufLen⟩

/-- The memory that an outstanding operation of a fetch uses: an entry of the ring that a slot is
the user data of, or a base write with a slot as its argument. Both begin at `buf_aligned`; their
lengths are their own. -/
inductive UsesMemory (mem : ChannelMemory) (dev : UbiBdev) (s : State) :
    ChId → Nat → SlotOp → Region → Prop
  | read {c : ChId} {k : Nat} {sqe : Sqe} (entry : sqe ∈ s.ringEntries c)
      (tag : sqe.userData = .stripeFetch k) :
      UsesMemory mem dev s c k .ring ⟨bufAligned (mem.buf c k), sqe.nbytes⟩
  | write {c : ChId} {k o : Nat} {op : BaseWrite} (write : s.writes o = some op)
      (cb : op.cb = .stripe c k) :
      UsesMemory mem dev s c k (.write o)
        ⟨bufAligned (mem.buf c k), op.numBlocks * dev.blocklen⟩

variable {dev : UbiBdev} {s s₀ t : State} {l : Label} {c : ChId} {k : Nat}

theorem bufAligned_spec (buf : Nat) :
    alignmentBytes ∣ bufAligned buf ∧ buf ≤ bufAligned buf ∧
      bufAligned buf < buf + alignmentBytes := by
  have mask : buf &&& (alignmentBytes - 1) = buf % alignmentBytes :=
    Nat.and_two_pow_sub_one_eq_mod buf 12
  unfold bufAligned
  rw [mask]
  by_cases even : buf % alignmentBytes = 0
  · simp only [even, ne_eq, not_true_eq_false, if_false, Nat.add_zero, alignmentBytes] at *
    omega
  · simp only [ne_eq, even, not_false_eq_true, if_true]
    simp only [alignmentBytes] at *
    omega

/-- A stripe is a whole number of aligned units, and the buffer has room for one unit more. -/
theorem stripeBytes_aligned (dev : UbiBdev) :
    alignmentBytes ∣ dev.stripeBytes ∧ dev.stripeBytes + alignmentBytes ≤ fetchBufLen := by
  have accepted := dev.init
  simp only [ubiInitLayoutParams] at accepted
  split at accepted
  · cases accepted
  split at accepted
  · cases accepted
  next range =>
  split at accepted
  · cases accepted
  next pow =>
  clear accepted
  simp only [ubiStripeSizeMin, ubiStripeSizeMax, not_or, Nat.not_lt] at range
  refine ⟨?_, ?_⟩
  · obtain ⟨i, size⟩ := (Nat.and_sub_one_eq_zero_iff_isPowerOfTwo (by omega)).mp (not_not.mp pow)
    have large : 2 ≤ i := by
      by_contra small
      have : 2 ^ i ≤ 2 ^ 1 := Nat.pow_le_pow_right (by decide) (by omega)
      omega
    obtain ⟨j, rfl⟩ := Nat.exists_eq_add_of_le large
    exact ⟨2 ^ j, by rw [UbiBdev.stripeBytes, size, alignmentBytes, Nat.pow_add]; omega⟩
  · unfold UbiBdev.stripeBytes alignmentBytes fetchBufLen ubiStripeSizeMax
    omega

theorem stripe_within (dev : UbiBdev) (buf : Nat) :
    Region.Within ⟨bufAligned buf, dev.stripeBytes⟩ ⟨buf, fetchBufLen⟩ := by
  obtain ⟨_, lower, upper⟩ := bufAligned_spec buf
  have room := (stripeBytes_aligned dev).2
  simp only [Region.Within]
  omega

/-- The entries of fetches are those of the slots, and so are the base writes; both are as long as
a stripe. -/
structure FetchesShaped (dev : UbiBdev) (s : State) : Prop where
  entries : ∀ c sqe k, sqe ∈ s.ringEntries c → sqe.userData = .stripeFetch k →
    k < ubiMaxActiveStripeFetches ∧ ∃ x, sqe = stripeSqe dev k x
  writes : ∀ o op c k, s.writes o = some op → op.cb = .stripe c k →
    k < ubiMaxActiveStripeFetches ∧ op.numBlocks = dev.stripeBlockCount

theorem fetchEntry_act (act : Act dev s l t) {sqe : Sqe} (entry : sqe ∈ t.ringEntries c)
    (tag : sqe.userData = .stripeFetch k) :
    sqe ∈ s.ringEntries c ∨ (k < ubiMaxActiveStripeFetches ∧ ∃ x, sqe = stripeSqe dev k x) := by
  simp only [State.ringEntries, List.mem_append, List.mem_map] at entry ⊢
  cases act <;> first
    | exact .inl entry
    | grind -linarith [List.mem_of_mem_eraseIdx, stripeSqe, imageReadSqe]

theorem fetchesShaped_act (inv : FetchesShaped dev s) (act : Act dev s l t) :
    FetchesShaped dev t := by
  obtain ⟨entries, writes⟩ := inv
  refine ⟨fun c sqe k entry tag => ?_, fun o op c k write cb => ?_⟩
  · exact (fetchEntry_act act entry tag).elim (fun old => entries c sqe k old tag) id
  · have seen {d : ChId} {cqe : Cqe} {rest : List Cqe} {j : Nat}
        (first : (s.channel d).cqes = cqe :: rest) (tag : cqe.sqe.userData = .stripeFetch j) :
        j < ubiMaxActiveStripeFetches :=
      (entries d cqe.sqe j (State.mem_ringEntries_of_cqe (by simp [first])) tag).1
    clear entries
    cases act <;> grind -linarith

theorem fetchesShaped_reach {base : Bytes} (created : Created dev base s₀)
    (run : Reach dev anyStep s₀ s) : FetchesShaped dev s := by
  obtain ⟨table, _, rfl⟩ := created
  refine reach_invariant fetchesShaped_act run ⟨?_, ?_⟩ <;>
    simp [newState, newChannel, State.ringEntries]

namespace UsesMemory
variable {mem : ChannelMemory} {p q : SlotOp} {a b : Region} {d : ChId} {j : Nat}

theorem owned (uses : UsesMemory mem dev s c k p a) : s.slotOps (c, k) p ≠ 0 := by
  cases uses with
  | read entry tag => exact (List.countP_pos_iff.mpr ⟨_, entry, by simpa using tag⟩).ne'
  | write write cb => simp [State.slotOps, write, cb]

theorem slot_lt (uses : UsesMemory mem dev s c k p a) (shaped : FetchesShaped dev s) :
    k < ubiMaxActiveStripeFetches := by
  cases uses with
  | read entry tag => exact (shaped.entries _ _ _ entry tag).1
  | write write cb => exact (shaped.writes _ _ _ _ write cb).1

theorem region_eq (uses : UsesMemory mem dev s c k p a) (shaped : FetchesShaped dev s) :
    a = ⟨bufAligned (mem.buf c k), dev.stripeBytes⟩ := by
  cases uses with
  | read entry tag =>
      obtain ⟨_, x, rfl⟩ := shaped.entries _ _ _ entry tag
      rfl
  | write write cb => rw [(shaped.writes _ _ _ _ write cb).2, dev.stripeBytes_eq]

theorem within (uses : UsesMemory mem dev s c k p a) (shaped : FetchesShaped dev s) :
    a.Within ⟨mem.buf c k, fetchBufLen⟩ := by
  rw [uses.region_eq shaped]
  exact stripe_within dev _

/-- A slot has one operation, so that two of them belong to different buffers. -/
theorem apart (here : UsesMemory mem dev s c k p a) (there : UsesMemory mem dev s d j q b)
    (shaped : FetchesShaped dev s) (placed : FetchesPlaced dev s)
    (other : (c, k, p) ≠ (d, j, q)) : a.Apart b := by
  obtain ⟨op, counts, _⟩ := placed.slots c k
  have mine := counts.eq_some here.owned
  have slots : (c, k) ≠ (d, j) := by
    rintro ⟨⟩
    exact other (by rw [Option.some.inj (mine.symm.trans (counts.eq_some there.owned))])
  exact (mem.apart c d k j (here.slot_lt shaped) (there.slot_lt shaped) slots).mono
    (here.within shaped) (there.within shaped)

end UsesMemory

/-- In every run the reads of the fetches are aligned as direct I/O needs it, and every operation
of a fetch stays inside the buffer of its slot; as long as the fetches could be issued, a slot has
one operation at most and no two share memory. -/
theorem fetch_memory_apart {base : Bytes} (mem : ChannelMemory) (created : Created dev base s₀)
    (run : Reach dev anyStep s₀ s) :
    (∀ c sqe k, sqe ∈ s.ringEntries c → sqe.userData = .stripeFetch k →
      alignmentBytes ∣ bufAligned (mem.buf c k) ∧ alignmentBytes ∣ sqe.offset ∧
        alignmentBytes ∣ sqe.nbytes) ∧
    (∀ c k p a, UsesMemory mem dev s c k p a → k < ubiMaxActiveStripeFetches ∧
      a.Within ⟨mem.buf c k, fetchBufLen⟩) ∧
    (FetchesIssued s.log → ∀ c k p a, UsesMemory mem dev s c k p a →
      s.slotOps (c, k) p = 1 ∧ ∀ d j q b, UsesMemory mem dev s d j q b →
        (c, k, p) ≠ (d, j, q) → a.Apart b) := by
  have shaped := fetchesShaped_reach created run
  obtain ⟨whole, _⟩ := stripeBytes_aligned dev
  refine ⟨fun c sqe k entry tag => ?_, fun c k p a uses => ⟨uses.slot_lt shaped,
    uses.within shaped⟩, fun issued c k p a here => ?_⟩
  · obtain ⟨_, x, rfl⟩ := shaped.entries c sqe k entry tag
    exact ⟨(bufAligned_spec _).1, Dvd.dvd.mul_right whole x, whole⟩
  · have placed := fetchesPlaced_reach created run issued
    obtain ⟨op, counts, _⟩ := placed.slots c k
    refine ⟨?_, fun d j q b there other => here.apart there shaped placed other⟩
    exact (counts.eq_some here.owned ▸ counts).eq_one

def slotNumber (c : ChId) (k : Nat) : Nat := ubiMaxActiveStripeFetches * c + k

theorem slotNumber_inj {d : ChId} {j : Nat} (hk : k < ubiMaxActiveStripeFetches)
    (hj : j < ubiMaxActiveStripeFetches) (same : slotNumber c k = slotNumber d j) :
    (c, k) = (d, j) := by
  have first {c : ChId} {k : Nat} (hk : k < ubiMaxActiveStripeFetches) :
      slotNumber c k / ubiMaxActiveStripeFetches = c := by
    rw [slotNumber, Nat.mul_add_div (by decide), Nat.div_eq_of_lt hk, Nat.add_zero]
  obtain rfl : c = d := by rw [← first (c := c) hk, same, first hj]
  rw [Nat.add_left_cancel same]

/-- The buffers one after the other, none of them aligned. -/
def packedMemory : ChannelMemory where
  buf c k := slotNumber c k * fetchBufLen + 1
  apart c d k j hk hj other := by
    simp only [Region.Apart]
    rcases Nat.lt_or_gt_of_ne fun same => other (slotNumber_inj hk hj same) with below | above
    · have := Nat.mul_le_mul_right fetchBufLen (Nat.succ_le_of_lt below)
      rw [Nat.succ_mul] at this
      exact .inl (by omega)
    · have := Nat.mul_le_mul_right fetchBufLen (Nat.succ_le_of_lt above)
      rw [Nat.succ_mul] at this
      exact .inr (by omega)

/-- Two stripes are being fetched: one is written to the base bdev, the other is read. -/
def twoFetches : List Event :=
  [.submit 0 0 ⟨.write, 0, 1, fun _ => 5⟩, .poll 0 .success, .uring 0 0 65536,
    .submit 0 1 ⟨.write, 1, 1, fun _ => 6⟩, .poll 0 .success]

theorem fetch_memory_apart_twoFetches :
    ∃ s a b, Reach (threeBlockBdev false) anyStep (blankState (threeBlockBdev false)) s ∧
      UsesMemory packedMemory (threeBlockBdev false) s 0 0 (.write 0) a ∧
      UsesMemory packedMemory (threeBlockBdev false) s 0 1 .ring b ∧
      a.Within ⟨1, fetchBufLen⟩ ∧ a.Apart b := by
  have ran : (Runs.exec (step (threeBlockBdev false)) (fun _ _ => true)
      (blankState (threeBlockBdev false)) twoFetches).any (fun s =>
        decide (FetchesIssued s.log ∧ (s.writes 0).map BaseWrite.cb = some (.stripe 0 0) ∧
          stripeSqe (threeBlockBdev false) 1 1 ∈ s.ringEntries 0)) = true := by decide +kernel
  obtain ⟨s, run, test⟩ := Runs.exists_reach_of_exec (fun _ _ _ _ => trivial) ran
  obtain ⟨issued, writing, reading⟩ := of_decide_eq_true test
  obtain ⟨op, write, cb⟩ := Option.map_eq_some_iff.mp writing
  have here : UsesMemory packedMemory (threeBlockBdev false) s 0 0 (.write 0) _ := .write write cb
  have there : UsesMemory packedMemory (threeBlockBdev false) s 0 1 .ring _ := .read reading rfl
  obtain ⟨_, inside, apart⟩ := fetch_memory_apart packedMemory (created_blankState _) run
  exact ⟨s, _, _, run, here, there, (inside _ _ _ _ here).2,
    (apart issued _ _ _ _ here).2 _ _ _ _ there (by decide)⟩

end BdevUbi
