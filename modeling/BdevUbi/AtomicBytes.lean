import BdevUbi.ImageReads
import BdevUbi.Library.AtomicRegister

/-!
Every byte is an atomic register. The versions of a block on the base bdev order all
READs and WRITEs of a byte: a WRITE takes effect when its base write does, a READ when
the block is transferred, or, if it is served from the image, when its entry is
prepared, since no WRITE has taken effect up to then. This is so for the bytes of the
image and for those of stripes past the image; stripe fetches are not seen.
-/

namespace BdevUbi
open VolatileDisk Placement History RegularRegister AtomicRegister

variable {dev : UbiBdev} {s₀ s t : State} {l : Label} {p B : Nat}

/-- The stripe of block `B` starts past the image. -/
def PastImage (dev : UbiBdev) (B : Nat) : Prop :=
  dev.imageBlockCount ≤ dev.stripeOf B * dev.stripeBlockCount

def OnBase (dev : UbiBdev) (s : State) (B : Nat) : Prop :=
  s.stripeStatus (dev.stripeOf B) = .fetched ∨ PastImage dev B

/-- The byte the bdev shows at `p`: the image's where the stripe is not fetched. -/
def State.shown (dev : UbiBdev) (s : State) (p : Nat) : UInt8 :=
  if p < dev.imageSize ∧ s.stripeStatus (dev.stripeOf (p / dev.blocklen)) ≠ .fetched then
    dev.image p
  else s.content dev (ubiMetadataSize + p)

def Accesses (dev : UbiBdev) (p : Nat) (s : State) (id : ReqId) : Prop :=
  ∃ r, s.request id = some r ∧ (r.type = .read ∨ r.type = .write) ∧ r.Covers dev p

theorem not_pastImage (image : B < dev.imageBlockCount) : ¬ PastImage dev B := by
  have := Nat.div_mul_le_self B dev.stripeBlockCount
  simp only [PastImage, UbiBdev.stripeOf]
  omega

theorem PastImage.offset {r : Request} (past : PastImage dev B) (within : r.WithinStripe dev)
    (covers : r.CoversBlock B) : dev.imageBlockCount ≤ r.offsetBlocks := by
  have start := Nat.div_mul_le_self r.offsetBlocks dev.stripeBlockCount
  have same := stripeOf_of_covers within covers
  simp only [PastImage, UbiBdev.stripeOf] at past same
  rw [same] at start
  omega

theorem onBase_act (placed : FetchesPlaced dev s) (issued : FetchesIssued t.log)
    (act : Act dev s l t) (h : OnBase dev s B) : OnBase dev t B :=
  h.imp_left fun fetched =>
    ((statusStep_act placed issued act _).final (.inl fetched)).trans fetched

theorem imageEntry_origin (act : Act dev s l t) {c : ChId} {sqe : Sqe} {id : ReqId}
    (entry : sqe ∈ t.ringEntries c) (tag : sqe.userData = .bdevIo id) :
    sqe ∈ s.ringEntries c ∨ ∃ r status, s.waiting id = true ∧ s.request id = some r ∧
      r.gate dev s = some status ∧ status ≠ .fetched ∧ r.offsetBlocks < dev.imageBlockCount ∧
      sqe = imageReadSqe dev id r := by
  simp only [State.ringEntries, List.mem_append, List.mem_map] at entry ⊢
  cases act with
  | @imageReadPrepared j r status wait req gate unfetched image room =>
      by_cases prepared : sqe = imageReadSqe dev j r
      · obtain rfl : j = id := by simpa [prepared, imageReadSqe] using tag
        exact .inr ⟨r, status, wait, req, gate, unfetched, image, prepared⟩
      · grind
  | _ => first
      | exact .inl entry
      | grind [List.mem_of_mem_eraseIdx, stripeSqe]

theorem grows_accesses (inv : RequestsPlaced s) (act : Act dev s l t) :
    Grows Obs.submitted (Obs.completed · true) (Accesses dev p s) (Accesses dev p t) s.log
      t.log where
  kept := by
    rintro id ⟨r, known, rest⟩
    exact ⟨r, act_request act known, rest⟩
  fresh := by
    rintro id ⟨r, known, rest⟩ new done
    exact new ⟨r, known_of_completed inv act done known, rest⟩
  frozen := by
    rintro id ⟨r, known, _⟩ e
    exact submission_frozen act (by simp [known])
  older := (act_log act).subset

/-- Byte `p` is one of the image, or of a stripe past the image, which is never in flight. Its
initial value `initial` is version `first` of its block. -/
inductive Home (dev : UbiBdev) (first p : Nat) (initial : UInt8) (s : State) : Prop
  | image (block : ImageBlock dev (p / dev.blocklen)) (image : p < dev.imageSize)
      (starts : Starts dev (p / dev.blocklen) first s) (one : first = 1 → initial = dev.image p)
  | past (past : PastImage dev (p / dev.blocklen)) (first_eq : first = 0)
      (idle : s.stripeStatus (dev.stripeOf (p / dev.blocklen)) ≠ .inflight)

/-- The newest version of the byte; before the stripe is fetched, its initial value. -/
def State.newest (dev : UbiBdev) (first p : Nat) (s : State) : Nat :=
  max first (s.disk.latest (dev.dataBlock (p / dev.blocklen)))

def State.valueAt (dev : UbiBdev) (first p : Nat) (initial : UInt8) (s : State) (v : Nat) : UInt8 :=
  if v ≤ first then initial
  else s.disk.version (dev.dataBlock (p / dev.blocklen)) v (ubiMetadataSize + p)

variable {init : Nat → StripeStatus} {first : Nat} {initial : UInt8} {maker : Nat → ReqId}
  {since index : ReqId → Nat}

theorem valueAt_of_le {v : Nat} (h : v ≤ first) : s.valueAt dev first p initial v = initial :=
  if_pos h

theorem valueAt_of_lt {v : Nat} (h : first < v) : s.valueAt dev first p initial v =
    s.disk.version (dev.dataBlock (p / dev.blocklen)) v (ubiMetadataSize + p) :=
  if_neg (Nat.not_le.mpr h)

theorem newest_mono (act : Act dev s l t) : s.newest dev first p ≤ t.newest dev first p := by
  have := latest_mono act (dev.dataBlock (p / dev.blocklen))
  simp only [State.newest]
  omega

theorem valueAt_act (act : Act dev s l t) {v : Nat} (old : v ≤ s.newest dev first p) :
    t.valueAt dev first p initial v = s.valueAt dev first p initial v := by
  by_cases early : v ≤ first
  · rw [valueAt_of_le early, valueAt_of_le early]
  · simp only [State.newest] at old
    rw [valueAt_of_lt (by omega), valueAt_of_lt (by omega), version_kept act (by omega)]

namespace Home

variable (home : Home dev first p initial s)
include home

theorem onBase_of_served {r : Request} (within : r.WithinStripe dev) (covers : r.Covers dev p)
    (gate : r.gate dev s = some .fetched ∨ dev.imageBlockCount ≤ r.offsetBlocks) :
    OnBase dev s (p / dev.blocklen) := by
  have covered := covers_iff.mp covers
  cases home with
  | image block _ _ _ =>
      have := block.image
      have := covered.1
      rw [gate_of_covers block within covered] at gate
      exact .inl (Option.some.inj (gate.resolve_right (by omega)))
  | past past _ _ => exact .inr past

/-- Until its stripe is fetched, a byte has no version but the initial one. -/
theorem newest_of_unfetched (unfetched : ¬ OnBase dev s (p / dev.blocklen)) :
    p < dev.imageSize ∧ initial = dev.image p ∧ s.newest dev first p = first := by
  cases home with
  | image block image starts one =>
      rcases starts with ⟨_, fetched⟩ | ⟨rfl, fetch⟩
      · exact absurd (.inl fetched) unfetched
      · refine ⟨image, one rfl, ?_⟩
        simp only [State.newest]
        rcases fetch.unfetched (fun fetched => unfetched (.inl fetched)) with zero | ⟨latest, _⟩ <;>
          omega
  | past past _ _ => exact absurd (.inr past) unfetched

theorem unfetched_of_unserved {r : Request} {status : StripeStatus} (within : r.WithinStripe dev)
    (covers : r.Covers dev p) (gate : r.gate dev s = some status) (unfetched : status ≠ .fetched)
    (start : r.offsetBlocks < dev.imageBlockCount) : ¬ OnBase dev s (p / dev.blocklen) := by
  have covered := covers_iff.mp covers
  cases home with
  | image block image starts one =>
      rw [gate_of_covers block within covered] at gate
      rintro (fetched | past)
      · exact unfetched (Option.some.inj gate ▸ fetched)
      · exact not_pastImage block.image past
  | past past _ _ =>
      have := past.offset within covered
      omega

/-- A write takes effect on the block: a WRITE, or the fetch that makes the initial value. -/
theorem landing (sup : Supports dev init s) {o : Nat} {op : BaseWrite}
    (write : s.writes o = some op) (sampled : op.sampled (dev.dataBlock (p / dev.blocklen)) ≠ none)
    (new : op.landed (dev.dataBlock (p / dev.blocklen)) = none) :
    ((∃ id r, WritingBlock dev s (p / dev.blocklen) op id r) ∧
      first ≤ s.disk.latest (dev.dataBlock (p / dev.blocklen))) ∨
    ((∃ c k, op.cb = .stripe c k) ∧ s.disk.latest (dev.dataBlock (p / dev.blocklen)) < first) := by
  cases home with
  | image block image starts one =>
      rcases writer_of_sampled sup.life.placed sup.writes write sampled with
        ⟨id, r, cb, known, type, covers, taken⟩ | ⟨c, k, cb, slot⟩
      · have fetched :=
          fetched_of_writing sup.life.gated sup.shaped block write cb known type covers
        exact .inl ⟨⟨id, r, cb, known, type, covers, taken⟩, starts.le_of_fetched fetched⟩
      · exact .inr ⟨⟨c, k, cb⟩, starts.lt_of_landing sup block write cb slot sampled new⟩
  | past past first_eq idle =>
      exact .inl ⟨writingBlock_of_sampled sup.life.placed sup.writes idle write sampled, by omega⟩

theorem content_eq (onBase : OnBase dev s (p / dev.blocklen))
    (zero : first = 0 →
      s.disk.version (dev.dataBlock (p / dev.blocklen)) 0 (ubiMetadataSize + p) = initial) :
    s.content dev (ubiMetadataSize + p) =
      s.valueAt dev first p initial (s.newest dev first p) := by
  rw [State.content, dev.base_block_of_byte, Disk.current]
  by_cases later : first < s.disk.latest (dev.dataBlock (p / dev.blocklen))
  · have newest : s.newest dev first p = s.disk.latest (dev.dataBlock (p / dev.blocklen)) :=
      max_eq_right later.le
    rw [newest, valueAt_of_lt later]
  · rw [valueAt_of_le (by simp only [State.newest]; omega)]
    -- the latest version is the initial one
    cases home with
    | image block image starts one =>
        rcases starts with ⟨rfl, _⟩ | ⟨rfl, fetch⟩
        · rw [Nat.le_zero.mp (Nat.not_lt.mp later)]
          exact zero rfl
        · have made := fetch.fetched (onBase.resolve_right (not_pastImage block.image))
          have newest : s.disk.latest (dev.dataBlock (p / dev.blocklen)) = 1 := by omega
          rw [newest, fetch.image p image rfl made]
          exact (one rfl).symm
    | past past first_eq idle =>
        subst first_eq
        rw [Nat.le_zero.mp (Nat.not_lt.mp later)]
        exact zero rfl

theorem act (sup : Supports dev init s)
    (small : dev.imageBlockCount ≤ ubiMaxStripes * dev.stripeBlockCount)
    (faultless : Faultless dev t.log) (act : Act dev s l t) : Home dev first p initial t := by
  cases home with
  | image block image starts one =>
      exact .image block image (starts_act sup block starts faultless act) one
  | past past first_eq idle =>
      have spared : Spared dev (p / dev.blocklen) s :=
        ⟨sup.life.placed, sup.life.requests, sup.writes, idle⟩
      exact .past past first_eq
        (spared_act spared (spares_past_image past small s l) faultless.issued act).idle

end Home

/-- The versions of the byte and the WRITEs that made them. -/
structure Versions (dev : UbiBdev) (init : Nat → StripeStatus) (first p : Nat) (initial : UInt8)
    (maker : Nat → ReqId) (s : State) : Prop where
  sup : Supports dev init s
  home : Home dev first p initial s
  zero : first = 0 →
    s.disk.version (dev.dataBlock (p / dev.blocklen)) 0 (ubiMetadataSize + p) = initial
  made : ∀ v, first < v → v ≤ s.disk.latest (dev.dataBlock (p / dev.blocklen)) →
    ∃ r, s.request (maker v) = some r ∧ r.type = .write ∧ r.Covers dev p ∧
      s.disk.version (dev.dataBlock (p / dev.blocklen)) v (ubiMetadataSize + p) =
        r.data (p - r.offsetBlocks * dev.blocklen)
  landed : ∀ o op id v, s.writes o = some op → op.cb = .io id →
    op.landed (dev.dataBlock (p / dev.blocklen)) = some v → first < v ∧ maker v = id

namespace Versions

variable (inv : Versions dev init first p initial maker s)
include inv

theorem made_act (act : Act dev s l t) {v : Nat} (low : first < v)
    (high : v ≤ s.disk.latest (dev.dataBlock (p / dev.blocklen))) :
    ∃ r, t.request (maker v) = some r ∧ r.type = .write ∧ r.Covers dev p ∧
      t.disk.version (dev.dataBlock (p / dev.blocklen)) v (ubiMetadataSize + p) =
        r.data (p - r.offsetBlocks * dev.blocklen) := by
  obtain ⟨r, known, type, covers, data⟩ := inv.made v low high
  exact ⟨r, act_request act known, type, covers, by rw [version_kept act high, data]⟩

theorem frame (settled : ∀ x, init x = .notFetched ∨ init x = .fetched)
    (small : dev.imageBlockCount ≤ ubiMaxStripes * dev.stripeBlockCount)
    (split : SplitAtStripes dev s l) (faultless : Faultless dev t.log) (act : Act dev s l t)
    (kept : t.disk.latest (dev.dataBlock (p / dev.blocklen)) =
      s.disk.latest (dev.dataBlock (p / dev.blocklen))) :
    Versions dev init first p initial maker t where
  sup := supports_act settled inv.sup split faultless act
  home := inv.home.act inv.sup small faultless act
  zero h := by rw [version_kept act (Nat.zero_le _), inv.zero h]
  made v low high := inv.made_act act low (kept ▸ high)
  landed o op' id v write' cb' made := by
    cases write_origin act write' with
    | old op write cb _ _ _ _ landed =>
        rcases landed _ v made with old | ⟨_, _, data, _, disk⟩
        · exact inv.landed o op id v write (cb.symm.trans cb') old
        · rw [disk, Disk.latest_write, if_pos rfl] at kept
          omega
    | new _ _ _ unlanded => simp [unlanded] at made

theorem land (sup : Supports dev init t) (home : Home dev first p initial t)
    (act : Act dev s l t) {o : Nat} {op : BaseWrite} {data : Bytes} (write : s.writes o = some op)
    (sample : op.sampled (dev.dataBlock (p / dev.blocklen)) = some data)
    (new : op.landed (dev.dataBlock (p / dev.blocklen)) = none)
    (disk : t.disk = s.disk.write (dev.dataBlock (p / dev.blocklen)) data)
    (writes : t.writes = Function.update s.writes o (some { op with
      landed := Function.update op.landed (dev.dataBlock (p / dev.blocklen))
        (some (s.disk.latest (dev.dataBlock (p / dev.blocklen)) + 1)) })) :
    ∃ maker', Versions dev init first p initial maker' t ∧
      ∀ v, v ≤ s.disk.latest (dev.dataBlock (p / dev.blocklen)) → maker' v = maker v := by
  have latest : t.disk.latest (dev.dataBlock (p / dev.blocklen)) =
      s.disk.latest (dev.dataBlock (p / dev.blocklen)) + 1 := by
    rw [disk, Disk.latest_write, if_pos rfl]
  have zero (h : first = 0) :
      t.disk.version (dev.dataBlock (p / dev.blocklen)) 0 (ubiMetadataSize + p) = initial := by
    rw [version_kept act (Nat.zero_le _), inv.zero h]
  have others {o' : Nat} {op' : BaseWrite} {id : ReqId} {v : Nat} (other : o' ≠ o)
      (write' : t.writes o' = some op') (cb : op'.cb = .io id)
      (made : op'.landed (dev.dataBlock (p / dev.blocklen)) = some v) :
      first < v ∧ maker v = id ∧ v ≤ s.disk.latest (dev.dataBlock (p / dev.blocklen)) := by
    rw [writes, Function.update_of_ne other] at write'
    obtain ⟨low, maker⟩ := inv.landed o' op' id v write' cb made
    exact ⟨low, maker, ((inv.sup.writes o' op' write').landed _ v made).2.2⟩
  rcases inv.home.landing inv.sup write (by simp [sample]) new with
    ⟨⟨id, r, cb, known, type, covers, taken⟩, low⟩ | ⟨⟨c, k, cb⟩, early⟩
  · refine ⟨Function.update maker (s.disk.latest (dev.dataBlock (p / dev.blocklen)) + 1) id,
      ⟨sup, home, zero, ?_, ?_⟩, fun v h => Function.update_of_ne (by omega) _ _⟩
    · intro v low' high
      by_cases now : v = s.disk.latest (dev.dataBlock (p / dev.blocklen)) + 1
      · subst now
        rw [Function.update_self]
        have covers' := covers_iff.mpr covers
        refine ⟨r, act_request act known, type, covers', ?_⟩
        rw [disk, Disk.version_write_latest, taken data sample, ← byte_address covers']
        congr 1
        omega
      · rw [Function.update_of_ne now]
        exact inv.made_act act low' (by omega)
    · intro o' op' id' v write' cb' made
      by_cases same : o' = o
      · subst same
        rw [writes, Function.update_self, Option.some.injEq] at write'
        subst write'
        simp only [Function.update_self, Option.some.injEq] at made
        subst made
        rw [Function.update_self]
        exact ⟨by omega, WriteCb.io.inj (cb.symm.trans cb')⟩
      · obtain ⟨low', made', high⟩ := others same write' cb' made
        exact ⟨low', by rwa [Function.update_of_ne (by omega)]⟩
  · refine ⟨maker, ⟨sup, home, zero, ?_, ?_⟩, fun _ _ => rfl⟩
    · intro v low' high
      omega
    · intro o' op' id' v write' cb' made
      by_cases same : o' = o
      · subst same
        rw [writes, Function.update_self, Option.some.injEq] at write'
        subst write'
        simp [cb] at cb'
      · obtain ⟨low', made', _⟩ := others same write' cb' made
        exact ⟨low', made'⟩

end Versions

theorem versions_act (settled : ∀ x, init x = .notFetched ∨ init x = .fetched)
    (small : dev.imageBlockCount ≤ ubiMaxStripes * dev.stripeBlockCount)
    (inv : Versions dev init first p initial maker s) (split : SplitAtStripes dev s l)
    (faultless : Faultless dev t.log) (act : Act dev s l t) :
    ∃ maker', Versions dev init first p initial maker' t ∧
      ∀ v, v ≤ s.disk.latest (dev.dataBlock (p / dev.blocklen)) → maker' v = maker v := by
  have frame (kept : t.disk.latest (dev.dataBlock (p / dev.blocklen)) =
        s.disk.latest (dev.dataBlock (p / dev.blocklen))) :
      ∃ maker', Versions dev init first p initial maker' t ∧
        ∀ v, v ≤ s.disk.latest (dev.dataBlock (p / dev.blocklen)) → maker' v = maker v :=
    ⟨maker, inv.frame settled small split faultless act kept, fun _ _ => rfl⟩
  cases act_writeEffect act with
  | stay _ kept | start _ _ _ _ _ kept => exact frame (by rw [kept.latest])
  | sample _ _ _ _ _ _ after => exact frame (by rw [after])
  | finish _ _ success _ _ _ _ done => exact frame (by rw [done]; split <;> rfl)
  | land o op b data write sample new after =>
      by_cases here : dev.dataBlock (p / dev.blocklen) = b
      · subst here
        exact inv.land (supports_act settled inv.sup split faultless act)
          (inv.home.act inv.sup small faultless act) act write sample new (by rw [after])
          (by rw [after])
      · exact frame (by rw [after, Disk.latest_write, if_neg here])

/-- A value the byte has had since the submission of the request. -/
def Found (dev : UbiBdev) (first p : Nat) (initial : UInt8) (since : ReqId → Nat) (s : State)
    (id : ReqId) (byte : UInt8) : Prop :=
  ∃ v, since id ≤ v ∧ v ≤ s.newest dev first p ∧ s.valueAt dev first p initial v = byte

/-- Byte `p` with its versions as the line on which its READs and WRITEs take effect. -/
structure AtomicByte (dev : UbiBdev) (init : Nat → StripeStatus) (first p : Nat) (initial : UInt8)
    (maker : Nat → ReqId) (since index : ReqId → Nat) (s : State) : Prop where
  versions : Versions dev init first p initial maker s
  line : Timeline Obs.submitted (Obs.completed · true) (Accesses dev p s) (WritesByte dev p s) s.log
    (s.newest dev first p) since index
  landed : ∀ o op id v, s.writes o = some op → op.cb = .io id →
    op.landed (dev.dataBlock (p / dev.blocklen)) = some v → since id < v
  base : ∀ o op r, s.reads o = some op → s.request op.req = some r → r.Covers dev p →
    (op.startBlock = r.offsetBlocks + dev.dataOffsetBlocks ∧ op.numBlocks = r.numBlocks) ∧
    OnBase dev s (p / dev.blocklen) ∧
    (op.done (dev.dataBlock (p / dev.blocklen)) = true → Found dev first p initial since s op.req
      (s.buffer op.req (p - r.offsetBlocks * dev.blocklen)))
  ring : ∀ c sqe id r, sqe ∈ s.ringEntries c → sqe.userData = .bdevIo id →
    s.request id = some r → r.Covers dev p →
    (p < dev.imageSize ∧ sqe = imageReadSqe dev id r) ∧ initial = dev.image p ∧ since id ≤ first
  filled : ∀ c cqe id, cqe ∈ (s.channel c).cqes → cqe.sqe.userData = .bdevIo id →
    ∀ i, i < cqe.res.toNat → s.buffer id i = dev.image (cqe.sqe.offset + i)
  wrote : ∀ w, WritesByte dev p s w → .completed w true ∈ s.log →
    first < index w ∧ maker (index w) = w ∧
      index w ≤ s.disk.settled (dev.dataBlock (p / dev.blocklen))
  read : ∀ id r, .completed id true ∈ s.log → s.request id = some r → r.type = .read →
    r.Covers dev p →
    s.valueAt dev first p initial (index id) = s.buffer id (p - r.offsetBlocks * dev.blocklen)

theorem Found.act {since' : ReqId → Nat} (act : Act dev s l t) {id : ReqId} {byte : UInt8}
    (h : Found dev first p initial since s id byte) (same : since' id = since id) :
    Found dev first p initial since' t id byte := by
  obtain ⟨v, low, high, value⟩ := h
  exact ⟨v, same ▸ low, high.trans (newest_mono act), by rw [valueAt_act act high, value]⟩

theorem writesByte_of_sampled (writes : WritesMatch dev s) {o : Nat} {op : BaseWrite} {id : ReqId}
    (write : s.writes o = some op) (cb : op.cb = .io id)
    (sampled : op.sampled (dev.dataBlock (p / dev.blocklen)) ≠ none) : WritesByte dev p s id := by
  obtain ⟨r, known, type, start, blocks, _⟩ := (writes o op write).io id cb
  have range := (writes o op write).sampled _ sampled
  refine ⟨r, known, type, covers_iff.mpr ?_⟩
  simp only [UbiBdev.dataBlock] at range
  simp only [Request.CoversBlock]
  omega

theorem WritesByte.accesses {w : ReqId} (h : WritesByte dev p s w) : Accesses dev p s w := by
  obtain ⟨r, known, type, covers⟩ := h
  exact ⟨r, known, .inr type, covers⟩

namespace AtomicByte

variable (inv : AtomicByte dev init first p initial maker since index s)
include inv

/-- A request that completes takes effect at a version it has had the time to see. -/
theorem completing (act : Act dev s l t) (faultless : Faultless dev t.log) {id : ReqId}
    (access : Accesses dev p s id) (after : .completed id true ∈ t.log)
    (before : .completed id true ∉ s.log) :
    ∃ v, (since id ≤ v ∧ v ≤ s.newest dev first p) ∧
      (WritesByte dev p s id → since id < v ∧ first < v ∧ maker v = id ∧
        v ≤ t.disk.settled (dev.dataBlock (p / dev.blocklen))) ∧
      ∀ r, s.request id = some r → r.type = .read → s.valueAt dev first p initial v =
        s.buffer id (p - r.offsetBlocks * dev.blocklen) := by
  have requests := inv.versions.sup.life.requests
  obtain ⟨r, known, type, covers⟩ := access
  have covered := covers_iff.mp covers
  rcases type with read | write
  · -- a READ has found its value when the base read or the image read completes
    have unwritten : ¬ WritesByte dev p s id := by
      rintro ⟨r', known', write, _⟩
      obtain rfl : r = r' := Option.some.inj (known.symm.trans known')
      simp [read] at write
    have same {v : Nat} (value : s.valueAt dev first p initial v =
        s.buffer id (p - r.offsetBlocks * dev.blocklen)) : ∀ r', s.request id = some r' →
        r'.type = .read → s.valueAt dev first p initial v =
          s.buffer id (p - r'.offsetBlocks * dev.blocklen) := by
      rintro r' known' _
      obtain rfl : r = r' := Option.some.inj (known.symm.trans known')
      exact value
    obtain ⟨_, _, ⟨o, op, done, rfl, all⟩ | ⟨c, sqe, res, done, tag, good, logged⟩⟩ :=
      read_completed_act requests act known read after before
    · obtain ⟨⟨start, blocks⟩, _, found⟩ := inv.base o op r done known covers
      obtain ⟨low, high⟩ := covered
      obtain ⟨v, since_le, le_newest, value⟩ :=
        found (all _ (by simp only [UbiBdev.dataBlock]; omega)
          (by simp only [UbiBdev.dataBlock]; omega))
      exact ⟨v, ⟨since_le, le_newest⟩, fun h => absurd h unwritten, same value⟩
    · obtain ⟨⟨image, rfl⟩, start, early⟩ :=
        inv.ring c sqe id r (State.mem_ringEntries_of_cqe done) tag known covers
      have whole := (faultless _ logged).resolve_left (Int.not_lt.mpr good)
      obtain ⟨low, high⟩ := covers
      have here : p - r.offsetBlocks * dev.blocklen < res.toNat := by
        simp only [UbiBdev.available, imageReadSqe] at whole
        rw [Nat.add_mul] at high
        omega
      refine ⟨first, ⟨early, Nat.le_max_left _ _⟩, fun h => absurd h unwritten, same ?_⟩
      rw [valueAt_of_le le_rfl, start, inv.filled c _ id done tag _ here]
      simp [imageReadSqe, Nat.add_sub_cancel' low]
  · -- a WRITE has taken effect on all its blocks
    obtain ⟨o, op, outstanding, cb, disk, all⟩ :=
      write_completed_act requests act known write after before
    obtain ⟨r', known', _, start, blocks, _⟩ := (inv.versions.sup.writes o op outstanding).io id cb
    obtain rfl : r = r' := Option.some.inj (known.symm.trans known')
    obtain ⟨low, high⟩ := covered
    obtain ⟨v, landed⟩ := Option.ne_none_iff_exists'.mp
      (all (dev.dataBlock (p / dev.blocklen)) (by simp only [UbiBdev.dataBlock]; omega)
        (by simp only [UbiBdev.dataBlock]; omega))
    have later := inv.landed o op id v outstanding cb landed
    have latest := ((inv.versions.sup.writes o op outstanding).landed _ v landed).2.2
    obtain ⟨above, made⟩ := inv.versions.landed o op id v outstanding cb landed
    refine ⟨v, ⟨later.le, ?_⟩, fun _ => ⟨later, above, made, ?_⟩, ?_⟩
    · simp only [State.newest]
      omega
    · rw [disk]
      simp only [Disk.settle, landed, Option.getD_some]
      omega
    · intro r' known' read
      obtain rfl : r = r' := Option.some.inj (known.symm.trans known')
      simp [write] at read

theorem transferred_kept (act : Act dev s l t) {o : Nat} {op : BaseRead} {r : Request}
    (read : s.reads o = some op) (known : s.request op.req = some r) (covers : r.Covers dev p)
    (done : op.done (dev.dataBlock (p / dev.blocklen)) = true) :
    t.buffer op.req (p - r.offsetBlocks * dev.blocklen) =
      s.buffer op.req (p - r.offsetBlocks * dev.blocklen) := by
  have requests := inv.versions.sup.life.requests
  have here : s.occurrences op.req (.baseRead o) ≠ 0 := by simp [State.occurrences, read]
  refine buffer_kept act (by simp [known]) (requests.not_submitted here (by simp))
    fun o' op' read' req => ?_
  by_cases same : o = o'
  · subst same
    obtain rfl : op = op' := Option.some.inj (read.symm.trans read')
    obtain ⟨⟨start, _⟩, _⟩ := inv.base o op r read known covers
    rw [start, byte_address covers, dev.base_block_of_byte]
    exact done
  · exact absurd req (requests.not_reading here (by simpa using same) read')

section Next

variable {maker' : Nat → ReqId} {since' : ReqId → Nat}
  (same : ∀ id, Accesses dev p s id → since' id = since id)
include same

theorem landed_act (act : Act dev s l t) {o : Nat} {op' : BaseWrite} {id : ReqId} {v : Nat}
    (write' : t.writes o = some op') (cb' : op'.cb = .io id)
    (made : op'.landed (dev.dataBlock (p / dev.blocklen)) = some v) : since' id < v := by
  have writes := inv.versions.sup.writes
  cases write_origin act write' with
  | old op write cb _ _ _ _ landed =>
      rcases landed _ v made with old | ⟨new, rfl, data, sample, disk⟩
      · have access := writesByte_of_sampled writes write (cb.symm.trans cb')
          ((writes o op write).landed _ v old).1
        rw [same id access.accesses]
        exact inv.landed o op id v write (cb.symm.trans cb') old
      · have access := writesByte_of_sampled writes write (cb.symm.trans cb')
          (by rw [sample]; exact Option.some_ne_none _)
        have early := inv.line.since_le id access.accesses
        rw [same id access.accesses]
        rcases inv.versions.home.landing inv.versions.sup write (by simp [sample]) new with
          ⟨_, low⟩ | ⟨⟨c, k, stripe⟩, _⟩
        · simp only [State.newest] at early
          omega
        · rw [← cb, cb'] at stripe
          cases stripe
  | new _ _ _ unlanded => simp [unlanded] at made

theorem base_act (act : Act dev s l t) (faultless : Faultless dev t.log) {o : Nat} {op' : BaseRead}
    {r : Request} (read' : t.reads o = some op') (known' : t.request op'.req = some r)
    (covers : r.Covers dev p) :
    (op'.startBlock = r.offsetBlocks + dev.dataOffsetBlocks ∧ op'.numBlocks = r.numBlocks) ∧
    OnBase dev t (p / dev.blocklen) ∧
    (op'.done (dev.dataBlock (p / dev.blocklen)) = true → Found dev first p initial since' t op'.req
      (t.buffer op'.req (p - r.offsetBlocks * dev.blocklen))) := by
  have sup := inv.versions.sup
  have kept := onBase_act (B := p / dev.blocklen) sup.life.placed faultless.issued act
  cases read_origin act read' with
  | old op read req start blocks done =>
      obtain ⟨r', known, type⟩ := sup.life.requests.read_owner read
      rw [req] at known'
      obtain rfl : r' = r := Option.some.inj ((act_request act known).symm.trans known')
      have access : Accesses dev p s op.req := ⟨r', known, .inl type, covers⟩
      obtain ⟨⟨start', blocks'⟩, onBase, before⟩ := inv.base o op r' read known covers
      refine ⟨⟨start.trans start', blocks.trans blocks'⟩, kept onBase, fun now => ?_⟩
      rw [req]
      refine Found.act act (?_ : Found dev first p initial since s _ _) (same _ access)
      rcases done _ now with old | new
      · rw [inv.transferred_kept act read known covers old]
        exact before old
      · -- the block is transferred now, and what is there is the newest version
        have address := byte_address covers
        rw [← start'] at address
        rw [new _ (by rw [address, dev.base_block_of_byte]), address]
        exact ⟨_, inv.line.since_le _ access, le_rfl,
          (inv.versions.home.content_eq onBase inv.versions.zero).symm⟩
  | new r' wait known gate start blocks unread =>
      obtain rfl : r' = r := Option.some.inj ((act_request act known).symm.trans known')
      obtain ⟨r'', known'', type⟩ := waiting_owner sup.life.requests wait
      obtain rfl : r' = r'' := Option.some.inj (known.symm.trans known'')
      have onBase :=
        inv.versions.home.onBase_of_served (sup.shaped _ _ known (.inl type)) covers gate
      exact ⟨⟨start, blocks⟩, kept onBase, by simp [unread]⟩

theorem ring_act (act : Act dev s l t) {c : ChId} {sqe : Sqe} {id : ReqId} {r : Request}
    (entry : sqe ∈ t.ringEntries c) (tag : sqe.userData = .bdevIo id)
    (known' : t.request id = some r) (covers : r.Covers dev p) :
    (p < dev.imageSize ∧ sqe = imageReadSqe dev id r) ∧ initial = dev.image p ∧
      since' id ≤ first := by
  have sup := inv.versions.sup
  rcases imageEntry_origin act entry tag with
    old | ⟨r', status, wait, known, gate, unfetched, start, sqe_eq⟩
  · obtain ⟨r', known, type⟩ := sup.life.requests.ring_owner old tag
    obtain rfl : r' = r := Option.some.inj ((act_request act known).symm.trans known')
    rw [same id ⟨r', known, .inl type, covers⟩]
    exact inv.ring c sqe id r' old tag known covers
  · obtain rfl : r' = r := Option.some.inj ((act_request act known).symm.trans known')
    obtain ⟨r'', known'', type⟩ := waiting_owner sup.life.requests wait
    obtain rfl : r' = r'' := Option.some.inj (known.symm.trans known'')
    have access : Accesses dev p s id := ⟨r', known, .inl type, covers⟩
    obtain ⟨image, start', newest⟩ := inv.versions.home.newest_of_unfetched
      (inv.versions.home.unfetched_of_unserved (sup.shaped _ _ known (.inl type)) covers gate
        unfetched start)
    have early := inv.line.since_le id access
    rw [newest] at early
    exact ⟨⟨image, sqe_eq⟩, start', by rw [same id access]; exact early⟩

end Next

theorem filled_act (act : Act dev s l t) {c : ChId} {cqe : Cqe} {id : ReqId}
    (done : cqe ∈ (t.channel c).cqes) (tag : cqe.sqe.userData = .bdevIo id) (i : Nat)
    (bound : i < cqe.res.toNat) : t.buffer id i = dev.image (cqe.sqe.offset + i) := by
  rcases cqe_origin act done with old | ⟨_, fill⟩
  · rw [inv.versions.sup.life.requests.buffer_kept_of_cqe act old tag]
    exact inv.filled c cqe id old tag i bound
  · rw [fill id tag, fillFromImage, if_pos bound]

end AtomicByte

theorem atomicByte_act (settled : ∀ x, init x = .notFetched ∨ init x = .fetched)
    (small : dev.imageBlockCount ≤ ubiMaxStripes * dev.stripeBlockCount)
    (inv : AtomicByte dev init first p initial maker since index s) (split : SplitAtStripes dev s l)
    (faultless : Faultless dev t.log) (act : Act dev s l t) :
    ∃ maker' since' index', AtomicByte dev init first p initial maker' since' index' t ∧
      ∀ id, .completed id true ∈ s.log → index' id = index id := by
  have requests := inv.versions.sup.life.requests
  obtain ⟨maker', versions', agree⟩ := versions_act settled small inv.versions split faultless act
  -- every request that completes now picks its version
  have completing (id : ReqId) : ∃ v, Accesses dev p s id → .completed id true ∈ t.log →
      .completed id true ∉ s.log → (since id ≤ v ∧ v ≤ s.newest dev first p) ∧
      (WritesByte dev p s id → since id < v ∧ first < v ∧ maker v = id ∧
        v ≤ t.disk.settled (dev.dataBlock (p / dev.blocklen))) ∧
      ∀ r, s.request id = some r → r.type = .read → s.valueAt dev first p initial v =
        s.buffer id (p - r.offsetBlocks * dev.blocklen) := by
    by_cases now : Accesses dev p s id ∧ .completed id true ∈ t.log ∧ .completed id true ∉ s.log
    · obtain ⟨v, h⟩ := inv.completing act faultless now.1 now.2.1 now.2.2
      exact ⟨v, fun _ _ _ => h⟩
    · exact ⟨0, fun access after before => absurd ⟨access, after, before⟩ now⟩
  choose pick picked using completing
  have written {w : ReqId} (access : Accesses dev p s w) (h : WritesByte dev p t w) :
      WritesByte dev p s w := by
    obtain ⟨r, known, _⟩ := access
    obtain ⟨r', known', rest⟩ := h
    obtain rfl : r = r' := Option.some.inj ((act_request act known).symm.trans known')
    exact ⟨r, known, rest⟩
  obtain ⟨since', index', line', same, kept, chosen⟩ := inv.line.grow (grows_accesses requests act)
    (newest_mono act) (fun w => written) pick fun id access after before => by
      obtain ⟨⟨low, high⟩, writes, _⟩ := picked id access after before
      exact ⟨⟨low, high.trans (newest_mono act)⟩, fun h => (writes h).1⟩
  refine ⟨maker', since', index', ⟨versions', line', fun _ _ _ _ => inv.landed_act same act,
    fun _ _ _ => inv.base_act same act faultless, fun _ _ _ _ => inv.ring_act same act,
    fun _ _ _ => inv.filled_act act, ?_, ?_⟩, kept⟩
  · intro w writes done
    obtain ⟨r, known', type, covers⟩ := writes
    have known := known_of_completed requests act done known'
    have before' : WritesByte dev p s w := ⟨r, known, type, covers⟩
    -- the version was made earlier, so it keeps its maker
    have made {v : Nat} (low : first < v) (high : v ≤ s.newest dev first p) : maker' v = maker v :=
      agree v (by simp only [State.newest] at high; omega)
    by_cases before : .completed w true ∈ s.log
    · obtain ⟨low, maker_eq, safe⟩ := inv.wrote w before' before
      rw [kept w before, made low (inv.line.within w before'.accesses before).2]
      exact ⟨low, maker_eq, safe.trans (settled_mono act _)⟩
    · obtain ⟨⟨_, high⟩, writes, _⟩ := picked w before'.accesses done before
      obtain ⟨_, low, maker_eq, safe⟩ := writes before'
      rw [chosen w before, made low high]
      exact ⟨low, maker_eq, safe⟩
  · intro id r done known' type covers
    have known := known_of_completed requests act done known'
    have access : Accesses dev p s id := ⟨r, known, .inl type, covers⟩
    by_cases before : .completed id true ∈ s.log
    · rw [kept id before, valueAt_act act (inv.line.within id access before).2,
        requests.buffer_kept_of_completed act before]
      exact inv.read id r before known type covers
    · obtain ⟨⟨_, high⟩, _, value⟩ := picked id access done before
      obtain ⟨buffer, _⟩ := read_completed_act requests act known type done before
      rw [chosen id before, valueAt_act act high, buffer]
      exact value r known type

theorem atomicByte_created {base : Bytes} (created : Created dev base s)
    (home : (ImageBlock dev (p / dev.blocklen) ∧ p < dev.imageSize) ∨
      PastImage dev (p / dev.blocklen)) :
    ∃ first, AtomicByte dev s.stripeStatus first p (s.shown dev p) (fun _ => 0) (fun _ => 0)
      (fun _ => 0) s ∧
        (s.stripeStatus (dev.stripeOf (p / dev.blocklen)) = .fetched → first = 0) := by
  have empty {first : Nat} (start : Home dev first p (s.shown dev p) s)
      (zero : first = 0 → s.shown dev p = s.content dev (ubiMetadataSize + p)) :
      AtomicByte dev s.stripeStatus first p (s.shown dev p) (fun _ => 0) (fun _ => 0)
        (fun _ => 0) s := by
    have sup := supports_created created
    obtain ⟨table, _, rfl⟩ := created
    refine ⟨⟨sup, start, fun h => ?_, ?_, ?_⟩, Timeline.empty ?_ _ _, ?_, ?_, ?_, ?_, ?_, ?_⟩
    · rw [zero h]
      rfl
    · intro v low high
      exact absurd (low.trans_le high) (Nat.not_lt_zero _)
    all_goals
      simp +contextual [newState, newChannel, Disk.init, State.ringEntries, Accesses, WritesByte]
  rcases home with ⟨block, image⟩ | past
  · refine ⟨initialVersion dev s (p / dev.blocklen),
      empty (.image block image (starts_created created _) fun one => ?_) fun zero => ?_,
      fun fetched => if_pos fetched⟩
    · refine if_pos ⟨image, fun fetched => ?_⟩
      rw [initialVersion, if_pos fetched] at one
      cases one
    · refine if_neg fun unfetched => ?_
      rw [initialVersion, if_neg unfetched.2] at zero
      cases zero
  · refine ⟨0, empty (.past past rfl fun inflight => ?_) fun _ => ?_, fun _ => rfl⟩
    · have := created_settled created (dev.stripeOf (p / dev.blocklen))
      simp [inflight] at this
    · exact if_neg fun image => not_pastImage (dev.div_lt_imageBlockCount image.1) past

/-- The READs and WRITEs of byte `p` in one order: a line of values from the byte the bdev showed
at first to the one it shows now, each made by a WRITE. A WRITE that has completed made the
value at its index, a READ returned the one at its own, and the order of the indices agrees
with real time. -/
structure Linearization (dev : UbiBdev) (s₀ s : State) (p : Nat) (value : Nat → UInt8) (last : Nat)
    (index : ReqId → Nat) : Prop where
  start : value 0 = s₀.shown dev p
  now : value last = s.shown dev p
  made : ∀ n, 0 < n → n ≤ last → ∃ w r, s.request w = some r ∧ r.type = .write ∧
    r.Covers dev p ∧ value n = r.data (p - r.offsetBlocks * dev.blocklen)
  write : ∀ w r, s.request w = some r → r.type = .write → r.Covers dev p →
    .completed w true ∈ s.log →
    0 < index w ∧ index w ≤ last ∧ value (index w) = r.data (p - r.offsetBlocks * dev.blocklen)
  distinct : ∀ w w', WritesByte dev p s w → WritesByte dev p s w' → .completed w true ∈ s.log →
    .completed w' true ∈ s.log → index w = index w' → w = w'
  read : ∀ rd r, s.request rd = some r → r.type = .read → r.Covers dev p →
    .completed rd true ∈ s.log →
    index rd ≤ last ∧ s.buffer rd (p - r.offsetBlocks * dev.blocklen) = value (index rd)
  realTime : ∀ x y, Accesses dev p s x → Accesses dev p s y → .completed y true ∈ s.log →
    Before (.completed x true) (.submitted y) s.log →
    index x ≤ index y ∧ (WritesByte dev p s y → index x < index y)

theorem Versions.shown_eq (inv : Versions dev init first p initial maker s) :
    s.valueAt dev first p initial (s.newest dev first p) = s.shown dev p := by
  unfold State.shown
  split
  · next unfetched =>
      obtain ⟨image, start, newest⟩ := inv.home.newest_of_unfetched fun onBase =>
        onBase.elim unfetched.2 (not_pastImage (dev.div_lt_imageBlockCount unfetched.1))
      rw [newest, valueAt_of_le le_rfl, start]
  · next base =>
      refine (inv.home.content_eq ?_ inv.zero).symm
      by_contra unfetched
      obtain ⟨image, _⟩ := inv.home.newest_of_unfetched unfetched
      exact base ⟨image, fun fetched => unfetched (.inl fetched)⟩

theorem valueAt_shift (v : Nat) : s.valueAt dev first p initial (first + (v - first)) =
    s.valueAt dev first p initial v := by
  rcases Nat.le_total first v with later | early
  · rw [Nat.add_sub_cancel' later]
  · rw [valueAt_of_le early, valueAt_of_le (by omega)]

theorem AtomicByte.linearization
    (inv : AtomicByte dev init first p (s₀.shown dev p) maker since index s) :
    Linearization dev s₀ s p (fun n => s.valueAt dev first p (s₀.shown dev p) (first + n))
      (s.newest dev first p - first) (fun id => index id - first) where
  start := valueAt_of_le le_rfl
  now := by rw [valueAt_shift, inv.versions.shown_eq]
  made n low high := by
    simp only [State.newest] at high
    obtain ⟨r, known, type, covers, data⟩ := inv.versions.made (first + n) (by omega) (by omega)
    exact ⟨_, r, known, type, covers, by rw [valueAt_of_lt (by omega), data]⟩
  write w r known type covers done := by
    have writes : WritesByte dev p s w := ⟨r, known, type, covers⟩
    obtain ⟨low, maker_eq, _⟩ := inv.wrote w writes done
    have high := (inv.line.within w writes.accesses done).2
    refine ⟨by omega, by omega, ?_⟩
    simp only [State.newest] at high
    obtain ⟨r', known', _, _, data⟩ := inv.versions.made (index w) low (by omega)
    rw [maker_eq] at known'
    obtain rfl : r = r' := Option.some.inj (known.symm.trans known')
    rw [valueAt_shift, valueAt_of_lt low, data]
  distinct w w' writes writes' done done' same := by
    obtain ⟨low, maker_eq, _⟩ := inv.wrote w writes done
    obtain ⟨low', maker_eq', _⟩ := inv.wrote w' writes' done'
    rw [← maker_eq, ← maker_eq', show index w = index w' by omega]
  read rd r known type covers done := by
    have high := (inv.line.within rd ⟨r, known, .inl type, covers⟩ done).2
    exact ⟨by omega, by rw [valueAt_shift, inv.read rd r done known type covers]⟩
  realTime x y hx hy done before := by
    obtain ⟨le, lt⟩ := inv.line.realTime hx hy done before
    refine ⟨by omega, fun writes => ?_⟩
    have := lt writes
    have := (inv.wrote y writes done).1
    omega

theorem imageBlockCount_small (stripes : dev.imageSize ≤ ubiMaxStripes * dev.stripeBytes) :
    dev.imageBlockCount ≤ ubiMaxStripes * dev.stripeBlockCount := by
  have blocks : dev.imageBlockCount = _ := dev.accepted.image_blocks
  rw [dev.stripeBytes_eq, ← Nat.mul_assoc] at stripes
  have pos := dev.blocklen_pos
  rw [blocks, ← Nat.lt_succ_iff, Nat.div_lt_iff_lt_mul pos, Nat.succ_mul]
  omega

end BdevUbi
