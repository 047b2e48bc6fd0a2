import BdevUbi.BaseWrites
import BdevUbi.RequestPlaces

/-!
Base flushes and metadata writes. A FLUSH is a data flush, then a metadata write if
stripes have been fetched since the last one, then a metadata flush; each stage is
submitted when the one before it completes.
-/

namespace BdevUbi
open VolatileDisk

/-- A base flush is submitted for a FLUSH at the head of a list, or when a metadata write
completes, and finds what is settled in its range. -/
def FlushIssued (dev : UbiBdev) (s : State) (l : Label) (t : State) (op : BaseFlush) : Prop :=
  match op.cb with
  | .data id => ∃ c rest r, (s.channel c).io = id :: rest ∧ s.request id = some r ∧
      r.type = .flush ∧ t.disk = s.disk ∧ t.log = .unqueued c id :: s.log ∧
      ∀ b, op.mark b = if r.offsetBlocks + dev.dataOffsetBlocks ≤ b ∧
        b < r.offsetBlocks + dev.dataOffsetBlocks + r.numBlocks then s.disk.settled b else 0
  | .metadata id => ∃ o wop, l = .writeDone o true ∧ s.writes o = some wop ∧
      wop.cb = .metadata id ∧
      (∀ b, wop.startBlock ≤ b → b < wop.startBlock + wop.numBlocks → wop.landed b ≠ none) ∧
      t.disk = s.disk.settle wop.landed ∧
      ∀ b, op.mark b = if b < dev.dataOffsetBlocks then t.disk.settled b else 0

variable {dev : UbiBdev} {s t : State} {l : Label}

theorem flush_origin (act : Act dev s l t) {o : Nat} {op : BaseFlush} (h : t.flushes o = some op) :
    s.flushes o = some op ∨ (o = s.nextFlush ∧ FlushIssued dev s l t op) := by
  have removed {o' : Nat} (h : Function.update s.flushes o' none o = some op) :
      s.flushes o = some op := by
    by_cases same : o = o'
    · simp [same] at h
    · simpa [same] using h
  have added {op' : BaseFlush} (h : Function.update s.flushes s.nextFlush (some op') o = some op)
      (issued : FlushIssued dev s l t op') :
      s.flushes o = some op ∨ (o = s.nextFlush ∧ FlushIssued dev s l t op) := by
    by_cases same : o = s.nextFlush
    · rw [same, Function.update_self, Option.some.injEq] at h
      exact .inr ⟨same, h ▸ issued⟩
    · exact .inl (by simpa [same] using h)
  cases act with
  | flushDispatched first req type sync =>
      exact added h ⟨_, _, _, first, req, type, rfl, rfl, fun _ => rfl⟩
  | metadataWriteDone write cb all =>
      exact added h ⟨_, _, rfl, write, cb, all, rfl, fun _ => rfl⟩
  | dataFlushFailed | dataFlushOnly | metadataWriteRefused | metadataWriteStarted
  | metadataFlushFailed | metadataFlushDone => exact .inl (removed h)
  | _ => exact .inl h

theorem durable_mono (act : Act dev s l t) (b : Nat) : s.disk.durable b ≤ t.disk.durable b := by
  cases act with
  | dataFlushOnly | metadataWriteRefused | metadataWriteStarted | metadataFlushDone =>
      exact Nat.le_max_left _ _
  | ioWriteDone success | stripeWriteDone success | metadataWriteFailed success =>
      cases success <;> exact le_rfl
  | _ => exact le_rfl

theorem settled_mono (act : Act dev s l t) (b : Nat) : s.disk.settled b ≤ t.disk.settled b := by
  cases act with
  | ioWriteDone success | stripeWriteDone success | metadataWriteFailed success =>
      cases success
      · exact le_rfl
      · exact Nat.le_max_left _ _
  | metadataWriteDone => exact Nat.le_max_left _ _
  | _ => exact le_rfl

/-- What an outstanding flush found settled is settled still. -/
def MarksSettled (s : State) : Prop :=
  ∀ o op b, s.flushes o = some op → op.mark b ≤ s.disk.settled b

theorem marksSettled_act (before : MarksSettled s) (act : Act dev s l t) : MarksSettled t := by
  intro o op b flush
  rcases flush_origin act flush with old | ⟨_, issued⟩
  · exact (before o op b old).trans (settled_mono act b)
  · cases cb : op.cb with
    | data id =>
        simp only [FlushIssued, cb] at issued
        obtain ⟨_, _, _, _, _, _, disk, _, mark⟩ := issued
        rw [mark, disk]
        split <;> omega
    | metadata id =>
        simp only [FlushIssued, cb] at issued
        obtain ⟨_, _, _, _, _, _, _, mark⟩ := issued
        rw [mark]
        split <;> omega

/-- A flush that completes makes durable what it found settled. -/
theorem mark_le_durable (marks : MarksSettled s) {o : Nat} {op : BaseFlush}
    (flush : s.flushes o = some op) (disk : t.disk = s.disk.flush op.mark) (b : Nat) :
    op.mark b ≤ t.disk.durable b := by
  have settled := marks o op b flush
  rw [disk]
  simp only [Disk.flush]
  omega

/-- Where an outstanding metadata write comes from: it was outstanding before, or the
data flush of its FLUSH has just completed while stripes were not yet flushed. -/
theorem metadataWrite_origin (act : Act dev s l t) {o : Nat} {op' : BaseWrite} {id : ReqId}
    (write : t.writes o = some op') (cb : op'.cb = .metadata id) :
    (∃ op, s.writes o = some op ∧ op.cb = .metadata id) ∨
      ∃ o' op, l = .flushDone o' true ∧ s.flushes o' = some op ∧ op.cb = .data id ∧
        s.stripesFetched ≠ s.stripesFlushed ∧ t.disk = s.disk.flush op.mark ∧
        t.stripeStatus = s.stripeStatus ∧ t.stripesFetched = s.stripesFetched ∧
        t.stripesFlushed = s.stripesFlushed ∧ (t.bdevIo id).stripesFetched = s.stripesFetched := by
  cases act <;> grind -linarith

/-- The number of fetched stripes a FLUSH noted when its metadata write was submitted. -/
abbrev State.captured (s : State) (id : ReqId) : Nat := (s.bdevIo id).stripesFetched

theorem captured_act (act : Act dev s l t) (id : ReqId) :
    t.captured id = s.captured id ∨ ∃ o op, s.flushes o = some op ∧ op.cb = .data id := by
  cases act <;> first | exact .inl rfl | grind -linarith

theorem captured_kept (inv : RequestsPlaced s) (act : Act dev s l t) {id : ReqId} {q : Place}
    (here : s.occurrences id q ≠ 0) (other : ∀ o, q ≠ .dataFlush o) :
    t.captured id = s.captured id := by
  rcases captured_act act id with kept | ⟨o, op, flush, cb⟩
  · exact kept
  · exact absurd (inv.place_unique here (by simp [State.occurrences, flush, cb])) (other o)

theorem captured_of_write (inv : RequestsPlaced s) (act : Act dev s l t) {id : ReqId} {o : Nat}
    {op : BaseWrite} (write : s.writes o = some op) (cb : op.cb = .metadata id) :
    t.captured id = s.captured id :=
  captured_kept inv act (q := .metadataWrite o) (by simp [State.occurrences, write, cb]) (by simp)

theorem captured_of_flush (inv : RequestsPlaced s) (act : Act dev s l t) {id : ReqId} {o : Nat}
    {op : BaseFlush} (flush : s.flushes o = some op) (cb : op.cb = .metadata id) :
    t.captured id = s.captured id :=
  captured_kept inv act (q := .metadataFlush o) (by simp [State.occurrences, flush, cb]) (by simp)

theorem flushed_act (act : Act dev s l t) : t.stripesFlushed = s.stripesFlushed ∨
    ∃ o op id, l = .flushDone o true ∧ s.flushes o = some op ∧ op.cb = .metadata id ∧
      t.disk = s.disk.flush op.mark ∧ t.stripesFlushed = max s.stripesFlushed (s.captured id) := by
  cases act <;> first | exact .inl rfl | grind -linarith

theorem stripesFlushed_mono (act : Act dev s l t) : s.stripesFlushed ≤ t.stripesFlushed := by
  rcases flushed_act act with kept | ⟨_, _, _, _, _, _, _, more⟩ <;> omega

theorem stripesFetched_mono (act : Act dev s l t) : s.stripesFetched ≤ t.stripesFetched := by
  cases act <;> first | exact le_rfl | exact Nat.le_succ _

end BdevUbi
