import BdevUbi.HeaderDurability

/-!
Concurrent metadata writes. Every FLUSH may have a write of the whole live metadata
outstanding, and the base bdev does not order them. If none is submitted while an older
one is outstanding that noted fewer stripes, the header of a stripe that counts as
flushed is in every version of its block a crash may leave.
-/

namespace BdevUbi
open VolatileDisk History

variable {dev : UbiBdev} {s₀ s t : State} {l : Label} {x k : Nat}

/-- When the completion of a data flush starts a metadata write, every outstanding
metadata write has noted as many stripes as are fetched now. -/
def NoneStale (s : State) (l : Label) : Prop :=
  ∀ o op id, l = .flushDone o true → s.flushes o = some op → op.cb = .data id →
    s.stripesFetched ≠ s.stripesFlushed →
    ∀ o' op' id', s.writes o' = some op' → op'.cb = .metadata id' →
      s.captured id' = s.stripesFetched

structure CapturesOrdered (s : State) : Prop where
  flushed : s.stripesFlushed ≤ s.stripesFetched
  writes : ∀ o op id, s.writes o = some op → op.cb = .metadata id →
    s.stripesFlushed ≤ s.captured id ∧ s.captured id ≤ s.stripesFetched
  same : ∀ o op id o' op' id', s.writes o = some op → op.cb = .metadata id →
    s.writes o' = some op' → op'.cb = .metadata id' → s.captured id = s.captured id'
  flushes : ∀ o op id, s.flushes o = some op → op.cb = .metadata id →
    s.captured id ≤ s.stripesFetched ∧ ∀ o' op' id', s.writes o' = some op' →
      op'.cb = .metadata id' → s.captured id ≤ s.captured id'

theorem captured_write_act (inv : RequestsPlaced s) (ordered : NoneStale s l) (act : Act dev s l t)
    {o : Nat} {op' : BaseWrite} {id : ReqId} (write' : t.writes o = some op')
    (cb' : op'.cb = .metadata id) :
    (∃ op, s.writes o = some op ∧ op.cb = .metadata id ∧ t.captured id = s.captured id) ∨
      (t.captured id = s.stripesFetched ∧ t.stripesFlushed = s.stripesFlushed ∧
        ∀ o' op id', s.writes o' = some op → op.cb = .metadata id' →
          s.captured id' = s.stripesFetched) := by
  rcases metadataWrite_origin act write' cb' with ⟨op, write, cb⟩ |
    ⟨o', op, label, flush, cb, dirty, _, _, _, flushed, captured⟩
  · exact .inl ⟨op, write, cb, captured_of_write inv act write cb⟩
  · exact .inr ⟨captured, flushed, ordered o' op id label flush cb dirty⟩

theorem captured_flush_act (inv : RequestsPlaced s) (act : Act dev s l t) {o : Nat}
    {op : BaseFlush} {id : ReqId} (flush' : t.flushes o = some op) (cb : op.cb = .metadata id) :
    t.captured id = s.captured id ∧ (s.flushes o = some op ∨
      ∃ o' wop, s.writes o' = some wop ∧ wop.cb = .metadata id) := by
  rcases flush_origin act flush' with old | ⟨_, issued⟩
  · exact ⟨captured_of_flush inv act old cb, .inl old⟩
  · simp only [FlushIssued, cb] at issued
    obtain ⟨o', wop, _, write, cb', _⟩ := issued
    exact ⟨captured_of_write inv act write cb', .inr ⟨o', wop, write, cb'⟩⟩

theorem capturesOrdered_act (inv : RequestsPlaced s) (ordered : NoneStale s l)
    (before : CapturesOrdered s) (act : Act dev s l t) : CapturesOrdered t := by
  have grown := stripesFetched_mono act
  have flushed : t.stripesFlushed ≤ t.stripesFetched := by
    have old := before.flushed
    rcases flushed_act act with kept | ⟨o, op, id, _, flush, cb, _, more⟩
    · omega
    · have := (before.flushes o op id flush cb).1
      omega
  -- a metadata flush that completes noted no more than the outstanding writes
  have below {o op id} (write : s.writes o = some op) (cb : op.cb = .metadata id) :
      t.stripesFlushed ≤ s.captured id := by
    have old := (before.writes o op id write cb).1
    rcases flushed_act act with kept | ⟨o', op', id', _, flush, cb', _, more⟩
    · omega
    · have := (before.flushes o' op' id' flush cb').2 o op id write cb
      omega
  refine ⟨flushed, fun o op' id write' cb' => ?_,
    fun o op' id o₂ op₂' id₂ write' cb' write₂' cb₂' => ?_, fun o op id flush cb => ?_⟩
  · rcases captured_write_act inv ordered act write' cb' with ⟨op, write, cb, kept⟩ | ⟨now, same, _⟩
    · have := below write cb
      have := (before.writes o op id write cb).2
      omega
    · have := before.flushed
      omega
  · rcases captured_write_act inv ordered act write' cb' with
        ⟨op, write, cb, kept⟩ | ⟨now, _, all⟩ <;>
      rcases captured_write_act inv ordered act write₂' cb₂' with
        ⟨op₂, write₂, cb₂, kept₂⟩ | ⟨now₂, _, all₂⟩
    · rw [kept, kept₂]
      exact before.same o op id o₂ op₂ id₂ write cb write₂ cb₂
    · rw [kept, now₂]
      exact all₂ o op id write cb
    · rw [now, kept₂]
      exact (all o₂ op₂ id₂ write₂ cb₂).symm
    · rw [now, now₂]
  · obtain ⟨kept, source⟩ := captured_flush_act inv act flush cb
    have bounds : s.captured id ≤ s.stripesFetched ∧ ∀ o' op' id', s.writes o' = some op' →
        op'.cb = .metadata id' → s.captured id ≤ s.captured id' := by
      rcases source with old | ⟨o', wop, write, cb'⟩
      · exact before.flushes o op id old cb
      · exact ⟨(before.writes o' wop id write cb').2, fun o₂ op₂ id₂ write₂ cb₂ =>
          (before.same o' wop id o₂ op₂ id₂ write cb' write₂ cb₂).le⟩
    rw [kept]
    refine ⟨bounds.1.trans grown, fun o₂ op₂' id₂ write₂' cb₂' => ?_⟩
    rcases captured_write_act inv ordered act write₂' cb₂' with
      ⟨op₂, write₂, cb₂, kept₂⟩ | ⟨now₂, _⟩
    · rw [kept₂]
      exact bounds.2 o₂ op₂ id₂ write₂ cb₂
    · rw [now₂]
      exact bounds.1

/-- The bytes by which the metadata tells that stripe `x` is fetched. -/
def Tells (x a : Nat) : Prop := a < 14 ∨ a = stripeHeaderOffset x

/-- A content of block `b` has those bytes of the live metadata that are in the block. -/
def Carries (dev : UbiBdev) (s : State) (x b : Nat) (data : Bytes) : Prop :=
  ∀ a, a / dev.blocklen = b → Tells x a → data a = s.metadata a

theorem metadata_kept (placed : FetchesPlaced dev s) (act : Act dev s l t)
    (fetched : s.stripeStatus x = .fetched) {a : Nat} (tells : Tells x a) :
    t.metadata a = s.metadata a := by
  cases act with
  | @stripeWriteDone o op c k success write cb all =>
      have inflight := placed.inflight_of_active (placed.active_of_write write cb)
      have other : x ≠ (s.slot c k).stripeIdx := by
        rintro rfl
        simp [inflight] at fetched
      rcases tells with front | rfl
      · exact update_header_of_lt 1 front
      · exact Function.update_of_ne (by simpa [stripeHeaderOffset_inj] using other) _ _
  | _ => rfl

theorem carries_act (placed : FetchesPlaced dev s) (act : Act dev s l t)
    (fetched : s.stripeStatus x = .fetched) {b : Nat} {data : Bytes}
    (h : Carries dev s x b data) : Carries dev t x b data := by
  intro a here tells
  rw [h a here tells, metadata_kept placed act fetched tells]

/-- Stripe `x` was the `k`-th to be fetched. Metadata writes that noted `k` stripes carry
its header, and so do all versions of a block from the one such a write has made on. -/
structure HeaderCarried (dev : UbiBdev) (x k : Nat) (s : State) : Prop where
  rank : k ≤ s.stripesFetched
  sampled : ∀ o op id b data, s.writes o = some op → op.cb = .metadata id → k ≤ s.captured id →
    op.sampled b = some data → Carries dev s x b data
  landed : ∀ o op id b v, s.writes o = some op → op.cb = .metadata id → k ≤ s.captured id →
    op.landed b = some v → ∀ v', v ≤ v' → v' ≤ s.disk.latest b →
      Carries dev s x b (s.disk.version b v')
  flushing : ∀ o op id b, s.flushes o = some op → op.cb = .metadata id → k ≤ s.captured id →
    b < dev.dataOffsetBlocks → ∀ v, op.mark b ≤ v → v ≤ s.disk.latest b →
      Carries dev s x b (s.disk.version b v)
  flushed : k ≤ s.stripesFlushed → ∀ b v, b < dev.dataOffsetBlocks → s.disk.durable b ≤ v →
    v ≤ s.disk.latest b → Carries dev s x b (s.disk.version b v)

namespace HeaderCarried

variable (before : HeaderCarried dev x k s) (placed : FetchesPlaced dev s)
  (matched : WritesMatch dev s) (fetched : s.stripeStatus x = .fetched)

include before placed matched fetched

/-- A version that exists after the act is an old one, or a metadata write makes it. -/
theorem version_act (act : Act dev s l t) {b v : Nat} (front : b < dev.dataOffsetBlocks)
    (made : v ≤ t.disk.latest b)
    (old : v ≤ s.disk.latest b → Carries dev s x b (s.disk.version b v))
    (new : ∀ o op op' id, s.writes o = some op → op.cb = .metadata id → t.writes o = some op' →
      op'.cb = .metadata id → op'.landed b = some v → s.disk.latest b < v → k ≤ s.captured id) :
    Carries dev t x b (t.disk.version b v) := by
  apply carries_act placed act fetched
  by_cases earlier : v ≤ s.disk.latest b
  · rw [version_kept act earlier]
    exact old earlier
  · obtain ⟨o, op, op', id, data, write, cb, sample, version, write', cb', landed⟩ :=
      (front_landed_act placed matched act front made).resolve_left earlier
    rw [version]
    exact before.sampled o op id b data write cb
      (new o op op' id write cb write' cb' landed (Nat.not_le.mp earlier)) sample

end HeaderCarried

/-- Block `b` has a version with the headers of the first `k` stripes that must not be
overwritten with an older one: such a version has been made by an outstanding write, or is
about to be durable, or is durable. -/
def Claimed (k : Nat) (s : State) (b : Nat) : Prop :=
  (∃ o op id v, s.writes o = some op ∧ op.cb = .metadata id ∧ k ≤ s.captured id ∧
    op.landed b = some v) ∨
  (∃ o op id, s.flushes o = some op ∧ op.cb = .metadata id ∧ k ≤ s.captured id) ∨
  k ≤ s.stripesFlushed

/-- The header of a fetched stripe is kept if what takes effect on a claimed block noted the
stripe. -/
theorem headerCarried_of_fresh (before : HeaderCarried dev x k s) (placed : FetchesPlaced dev s)
    (inv : RequestsPlaced s) (matched : WritesMatch dev s) (marks : MarksSettled s)
    (fetched : s.stripeStatus x = .fetched) (act : Act dev s l t)
    (fresh : ∀ b, b < dev.dataOffsetBlocks → Claimed k s b → ∀ o op op' id v,
      s.writes o = some op → op.cb = .metadata id → t.writes o = some op' → op'.cb = .metadata id →
      op'.landed b = some v → s.disk.latest b < v → k ≤ s.captured id) :
    HeaderCarried dev x k t where
  rank := before.rank.trans (stripesFetched_mono act)
  sampled o op' id b data write' cb' noted sample := by
    cases write_origin act write' with
    | new _ _ unsampled => simp [unsampled] at sample
    | old op write cb _ _ sampled =>
        have cb := cb.symm.trans cb'
        rw [captured_of_write inv act write cb] at noted
        apply carries_act placed act fetched
        rcases sampled b data sample with old | ⟨_, rfl⟩
        · exact before.sampled o op id b data write cb noted old
        · intro a _ _
          simp [writeBuffer, cb, ((matched o op write).metadata id cb).1]
  landed o op' id b v write' cb' noted made v' later high := by
    cases write_origin act write' with
    | new _ _ _ unlanded => simp [unlanded] at made
    | old op write cb _ _ _ _ landed =>
        have cb := cb.symm.trans cb'
        rw [captured_of_write inv act write cb] at noted
        rcases landed b v made with earlier | ⟨_, now, data, sample, disk⟩
        · have front : b < dev.dataOffsetBlocks := by
            have := (matched o op write).sampled b ((matched o op write).landed b v earlier).1
            have := (matched o op write).metadata id cb
            omega
          exact before.version_act placed matched fetched act front high
            (before.landed o op id b v write cb noted earlier v' later) fun o₂ op₂ op₂' id₂ =>
              fresh b front (.inl ⟨o, op, id, v, write, cb, noted, earlier⟩) o₂ op₂ op₂' id₂ v'
        · -- the write takes effect on the block now
          rw [disk, Disk.latest_write, if_pos rfl] at high
          obtain rfl : v' = s.disk.latest b + 1 := by omega
          rw [disk, Disk.version_write_latest]
          exact carries_act placed act fetched
            (before.sampled o op id b data write cb noted sample)
  flushing o op id b flush' cb noted front v low high := by
    obtain ⟨kept, _⟩ := captured_flush_act inv act flush' cb
    rw [kept] at noted
    rcases flush_origin act flush' with flush | ⟨_, issued⟩
    · exact before.version_act placed matched fetched act front high
        (before.flushing o op id b flush cb noted front v low) fun o₂ op₂ op₂' id₂ =>
          fresh b front (.inr (.inl ⟨o, op, id, flush, cb, noted⟩)) o₂ op₂ op₂' id₂ v
    · -- the metadata write has just completed, and its versions are settled
      simp only [FlushIssued, cb] at issued
      obtain ⟨o', wop, _, write, cb', all, disk, mark⟩ := issued
      obtain ⟨start, blocks⟩ := (matched o' wop write).metadata id cb'
      obtain ⟨v₀, landed⟩ := Option.ne_none_iff_exists'.mp (all b (by omega) (by omega))
      have settled : v₀ ≤ t.disk.settled b := by
        have := ((matched o' wop write).landed b v₀ landed).2.2
        rw [disk]
        simp only [Disk.settle, landed, Option.getD_some]
        omega
      rw [mark, if_pos front] at low
      exact before.version_act placed matched fetched act front high
        (before.landed o' wop id b v₀ write cb' noted landed v (settled.trans low))
        fun o₂ op₂ op₂' id₂ =>
          fresh b front (.inl ⟨o', wop, id, v₀, write, cb', noted, landed⟩) o₂ op₂ op₂' id₂ v
  flushed noted b v front low high := by
    have low' := (durable_mono act b).trans low
    by_cases already : k ≤ s.stripesFlushed
    · exact before.version_act placed matched fetched act front high
        (before.flushed already b v front low') fun o₂ op₂ op₂' id₂ =>
          fresh b front (.inr (.inr already)) o₂ op₂ op₂' id₂ v
    · rcases flushed_act act with kept | ⟨o, op, id, _, flush, cb, disk, more⟩
      · exact absurd (kept ▸ noted) already
      · have captured : k ≤ s.captured id := by omega
        exact before.version_act placed matched fetched act front high
          (before.flushing o op id b flush cb captured front v
            ((mark_le_durable marks flush disk b).trans low)) fun o₂ op₂ op₂' id₂ =>
              fresh b front (.inr (.inl ⟨o, op, id, flush, cb, captured⟩)) o₂ op₂ op₂' id₂ v

theorem CapturesOrdered.fresh (captures : CapturesOrdered s) {b : Nat} (claimed : Claimed k s b)
    {o : Nat} {op : BaseWrite} {id : ReqId} (write : s.writes o = some op)
    (cb : op.cb = .metadata id) : k ≤ s.captured id := by
  rcases claimed with ⟨o', op', id', _, write', cb', noted, _⟩ | ⟨o', op', id', flush, cb', noted⟩ |
    flushed
  · exact (captures.same o' op' id' o op id write' cb' write cb) ▸ noted
  · exact noted.trans ((captures.flushes o' op' id' flush cb').2 o op id write cb)
  · exact flushed.trans (captures.writes o op id write cb).1

theorem headerCarried_act (before : HeaderCarried dev x k s) (placed : FetchesPlaced dev s)
    (inv : RequestsPlaced s) (matched : WritesMatch dev s) (captures : CapturesOrdered s)
    (marks : MarksSettled s) (fetched : s.stripeStatus x = .fetched)
    (act : Act dev s l t) : HeaderCarried dev x k t :=
  headerCarried_of_fresh before placed inv matched marks fetched act
    fun _ _ claimed _ _ _ _ _ write cb _ _ _ _ => captures.fresh claimed write cb

theorem stripe_finish_flushes {o : Nat} {op : BaseWrite} {c : ChId} {j : Nat} {success : Bool}
    (act : Act dev s (.writeDone o success) t) (write : s.writes o = some op)
    (cb : op.cb = .stripe c j) : t.flushes = s.flushes ∧ t.bdevIo = s.bdevIo ∧
      t.stripesFlushed = s.stripesFlushed ∧ t.stripesFetched = s.stripesFetched + 1 ∧
      ∀ o' op', t.writes o' = some op' → s.writes o' = some op' := by
  cases act <;> grind -linarith

/-- No FLUSH has noted more stripes than are fetched. -/
structure CapturesBounded (s : State) : Prop where
  flushed : s.stripesFlushed ≤ s.stripesFetched
  writes : ∀ o op id, s.writes o = some op → op.cb = .metadata id → s.captured id ≤ s.stripesFetched
  flushes : ∀ o op id, s.flushes o = some op → op.cb = .metadata id →
    s.captured id ≤ s.stripesFetched

theorem CapturesOrdered.bounded (captures : CapturesOrdered s) : CapturesBounded s :=
  ⟨captures.flushed, fun o op id write cb => (captures.writes o op id write cb).2,
    fun o op id flush cb => (captures.flushes o op id flush cb).1⟩

theorem headerCarried_new (captures : CapturesBounded s) (act : Act dev s l t)
    (after : t.stripeStatus x = .fetched) (earlier : s.stripeStatus x ≠ .fetched) :
    HeaderCarried dev x t.stripesFetched t := by
  obtain ⟨o, op, c, j, success, rfl, write, cb, _⟩ := fetched_act act after earlier
  obtain ⟨flushes, bdevIo, flushed, more, writes⟩ := stripe_finish_flushes act write cb
  have noted {id : ReqId} (low : s.captured id ≤ s.stripesFetched) :
      ¬ t.stripesFetched ≤ t.captured id := by
    rw [State.captured, bdevIo, more]
    exact Nat.not_le.mpr (Nat.lt_succ_of_le low)
  have writing {o' op' id} (write' : t.writes o' = some op') (cb' : op'.cb = .metadata id) :
      ¬ t.stripesFetched ≤ t.captured id :=
    noted (captures.writes o' op' id (writes o' op' write') cb')
  refine ⟨le_rfl, fun _ _ _ _ _ write' cb' low => absurd low (writing write' cb'),
    fun _ _ _ _ _ write' cb' low => absurd low (writing write' cb'),
    fun o' op' id _ flush' cb' low => ?_, fun low => ?_⟩
  · rw [flushes] at flush'
    exact absurd low (noted (captures.flushes o' op' id flush' cb'))
  · have := captures.flushed
    omega

theorem headerCarried_fetched (captures : CapturesOrdered s) (act : Act dev s l t)
    (after : t.stripeStatus x = .fetched) (earlier : s.stripeStatus x ≠ .fetched) :
    HeaderCarried dev x t.stripesFetched t := headerCarried_new captures.bounded act after earlier

/-- Stripe `x` was fetched when the data flush of FLUSH `f` completed. -/
def Synced (x : Nat) (f : ReqId) (log : List Obs) : Prop :=
  Before (.setStatus x .fetched) (.dataFlushDone f true) log

theorem synced_act (act : Act dev s l t) {f : ReqId} (h : Synced x f t.log) :
    Synced x f s.log ∨ ∃ o op, l = .flushDone o true ∧ s.flushes o = some op ∧ op.cb = .data f := by
  unfold Synced at h ⊢
  cases act <;> first | exact .inl h | grind -linarith [before_cons]

theorem flush_completed_act (inv : RequestsPlaced s) (act : Act dev s l t) {f : ReqId} {r : Request}
    (known : s.request f = some r) (type : r.type = .flush) (after : .completed f true ∈ t.log)
    (before : .completed f true ∉ s.log) : dev.noSync = true ∨
      ∃ o op, l = .flushDone o true ∧ s.flushes o = some op ∧
        ((op.cb = .data f ∧ t.stripesFlushed = s.stripesFetched ∧ .dataFlushDone f true ∈ t.log) ∨
          (op.cb = .metadata f ∧ s.captured f ≤ t.stripesFlushed)) := by
  have ring {c sqe res rest id} (first : (s.channel c).cqes = ⟨sqe, res⟩ :: rest)
      (tag : sqe.userData = .bdevIo id) : ∃ r, s.request id = some r ∧ r.type = .read :=
    inv.ring_owner (c := c) (by simp [State.ringEntries, first]) tag
  have read := @inv.read_owner
  have writing {o op j} (write : s.writes o = some op) (cb : op.cb = .io j) :
      ∃ r, s.request j = some r ∧ r.type = .write :=
    inv.suits_of_occurs (p := .baseWrite o) (by simp [State.occurrences, write, cb])
  clear inv
  cases act <;> first | exact absurd after before | grind -linarith

/-- A FLUSH whose data flush completed after stripe `x` was fetched notes the stripe, and
counts it as flushed when it completes. -/
structure FlushRanked (x k : Nat) (s : State) : Prop where
  written : ∀ f o op, Synced x f s.log → s.writes o = some op → op.cb = .metadata f →
    k ≤ s.captured f
  flushed : ∀ f o op, Synced x f s.log → s.flushes o = some op → op.cb = .metadata f →
    k ≤ s.captured f
  completed : ∀ f, Synced x f s.log → .completed f true ∈ s.log → k ≤ s.stripesFlushed

theorem flushRanked_act (sync : dev.noSync = false) (inv : RequestsPlaced s) (kinds : LoggedKinds s)
    (ordered : NoneStale s l) (rank : k ≤ s.stripesFetched) (before : FlushRanked x k s)
    (act : Act dev s l t) : FlushRanked x k t := by
  have flushing {f : ReqId} {o : Nat} {op : BaseFlush} (flush : s.flushes o = some op)
      (cb : op.cb = .data f) : s.occurrences f (.dataFlush o) ≠ 0 := by
    simp [State.occurrences, flush, cb]
  refine ⟨fun f o op' synced write' cb' => ?_, fun f o op synced flush' cb => ?_,
    fun f synced done => ?_⟩
  · rcases captured_write_act inv ordered act write' cb' with ⟨op, write, cb, kept⟩ | ⟨now, _⟩
    · rw [kept]
      rcases synced_act act synced with old | ⟨o', fop, _, flush, data⟩
      · exact before.written f o op old write cb
      · cases inv.place_unique (flushing flush data) (q := .metadataWrite o)
          (by simp [State.occurrences, write, cb])
    · rwa [now]
  · obtain ⟨kept, source⟩ := captured_flush_act inv act flush' cb
    rw [kept]
    rcases synced_act act synced with old | ⟨o', fop, _, flush, data⟩
    · rcases source with flush | ⟨o', wop, write, cb'⟩
      · exact before.flushed f o op old flush cb
      · exact before.written f o' wop old write cb'
    · rcases source with flush' | ⟨o', wop, write, cb'⟩
      · cases inv.place_unique (flushing flush data) (q := .metadataFlush o)
          (by simp [State.occurrences, flush', cb])
      · cases inv.place_unique (flushing flush data) (q := .metadataWrite o')
          (by simp [State.occurrences, write, cb'])
  · have grown := stripesFlushed_mono act
    by_cases already : .completed f true ∈ s.log
    · rcases synced_act act synced with old | ⟨o, op, _, flush, cb⟩
      · exact (before.completed f old already).trans grown
      · cases (inv.at_completed already).eq_some (flushing flush cb)
    · obtain ⟨r, known, type⟩ : ∃ r, s.request f = some r ∧ r.type = .flush := by
        rcases synced_act act synced with old | ⟨o, op, _, flush, cb⟩
        · exact kinds.flush f true old.mem_right
        · exact inv.dataFlush_owner flush cb
      obtain ⟨o, op, _, flush, ⟨cb, clean, _⟩ | ⟨cb, counted⟩⟩ :=
        (flush_completed_act inv act known type done already).resolve_left (by simp [sync])
      · rwa [clean]
      · rcases synced_act act synced with old | ⟨o', op', _, flush', cb'⟩
        · exact (before.flushed f o op old flush cb).trans counted
        · cases inv.place_unique (flushing flush' cb') (q := .metadataFlush o)
            (by simp [State.occurrences, flush, cb])

theorem mem_statuses {r : StripeStatus} (log : List Obs) :
    r ∈ (tally x log).statuses ↔ .setStatus x r ∈ log := by
  induction log with
  | nil => simp [tally]
  | cons o past ih =>
      rw [List.mem_cons, tally]
      cases o with
      | setStatus y q =>
          by_cases same : y = x
          · simp [Tally.record, same, ih]
          · simp [Tally.record, same, Ne.symm same, ih]
      | enqueued _ y | dequeued _ y | fetchCqe _ _ _ _ y _ | stripeWrite y _
      | stripeWriteDone y _ =>
          by_cases same : y = x <;> simp [Tally.record, same, ih]
      | _ => simp [Tally.record, ih]

theorem Stage.fetched_iff {init : Nat → StripeStatus} (stage : Stage init s x)
    (start : init x = .notFetched) :
    s.stripeStatus x = .fetched ↔ .setStatus x .fetched ∈ s.log := by
  rw [← mem_statuses, ← tally_trail]
  cases stage with
  | untouched status counted => simp [status, start, counted]
  | queued _ status _ counted | reading _ _ _ status _ _ counted
  | writing _ _ _ _ _ status _ _ _ counted | readFailed _ _ status _ counted
  | writeRefused _ _ status _ counted | written _ _ _ status _ counted => simp [status, counted]

/-- The header of stripe `x` is kept from the moment it counts as flushed. -/
def HeaderKept (dev : UbiBdev) (x : Nat) (s : State) : Prop :=
  s.stripeStatus x = .fetched → ∃ k, HeaderCarried dev x k s ∧ FlushRanked x k s

theorem headerKept_act {init : Nat → StripeStatus} (sync : dev.noSync = false)
    (start : init x = .notFetched) (life : Lifecycle dev init s) (matched : WritesMatch dev s)
    (kinds : LoggedKinds s) (captures : CapturesOrdered s) (marks : MarksSettled s)
    (ordered : NoneStale s l) (before : HeaderKept dev x s) (act : Act dev s l t) :
    HeaderKept dev x t := by
  intro fetched
  by_cases earlier : s.stripeStatus x = .fetched
  · obtain ⟨k, carried, ranked⟩ := before earlier
    exact ⟨k,
      headerCarried_act carried life.placed life.requests matched captures marks earlier act,
      flushRanked_act sync life.requests kinds ordered carried.rank ranked act⟩
  · -- no data flush can have completed after the stripe was fetched
    have unsynced (f : ReqId) : ¬ Synced x f t.log := by
      intro synced
      obtain ⟨o, _, _, _, _, label, _⟩ := fetched_act act fetched earlier
      rcases synced_act act synced with old | ⟨o', _, label', _⟩
      · exact earlier (((life.stages x).fetched_iff start).mpr old.mem_left)
      · cases label.symm.trans label'
    exact ⟨t.stripesFetched, headerCarried_fetched captures act fetched earlier,
      fun f _ _ synced => absurd synced (unsynced f),
      fun f _ _ synced => absurd synced (unsynced f),
      fun f synced => absurd synced (unsynced f)⟩

/-- The data flush of a FLUSH that is past it has completed. -/
structure FlushLogged (s : State) : Prop where
  written : ∀ f o op, s.writes o = some op → op.cb = .metadata f → .dataFlushDone f true ∈ s.log
  flushed : ∀ f o op, s.flushes o = some op → op.cb = .metadata f → .dataFlushDone f true ∈ s.log
  completed : ∀ f r, s.request f = some r → r.type = .flush → .completed f true ∈ s.log →
    .dataFlushDone f true ∈ s.log

theorem flushLogged_act (sync : dev.noSync = false) (inv : RequestsPlaced s)
    (before : FlushLogged s) (act : Act dev s l t) : FlushLogged t := by
  have older := (act_log act).subset
  refine ⟨fun f o op' write' cb' => ?_, fun f o op flush' cb => ?_, fun f r known' type done => ?_⟩
  · rcases metadataWrite_origin act write' cb' with
      ⟨op, write, cb⟩ | ⟨o', op, label, flush, cb, dirty, _⟩
    · exact older (before.written f o op write cb)
    · subst label
      cases act <;> grind -linarith
  · obtain ⟨_, flush | ⟨o', wop, write, cb'⟩⟩ := captured_flush_act inv act flush' cb
    · exact older (before.flushed f o op flush cb)
    · exact older (before.written f o' wop write cb')
  · have known := known_of_completed inv act done known'
    by_cases already : .completed f true ∈ s.log
    · exact older (before.completed f r known type already)
    · obtain ⟨o, op, _, flush, ⟨_, _, logged⟩ | ⟨cb, _⟩⟩ :=
        (flush_completed_act inv act known type done already).resolve_left (by simp [sync])
      · exact logged
      · exact older (before.flushed f o op flush cb)

end BdevUbi
