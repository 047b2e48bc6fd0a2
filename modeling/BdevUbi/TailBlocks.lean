import BdevUbi.Addressing
import BdevUbi.BaseWrites
import BdevUbi.FetchOutcomes

/-!
Blocks past the image. The data blocks of a stripe that is never fetched change only
through user WRITEs. A stripe that the image covers in part is fetched as a whole,
and then its blocks past the image are overwritten too.
-/

namespace BdevUbi
open VolatileDisk Placement

variable {dev : UbiBdev} {s t : State} {l : Label} {B : Nat}

theorem current_act (act : Act dev s l t) {b : Nat}
    (changed : t.disk.current b ≠ s.disk.current b) :
    ∃ o op data, s.writes o = some op ∧ op.sampled b = some data ∧ t.disk.current b = data ∧
      t.request = s.request ∧ t.writes = Function.update s.writes o (some { op with
        landed := Function.update op.landed b (some (s.disk.latest b + 1)) }) := by
  have kept (version : t.disk.version = s.disk.version) (latest : t.disk.latest = s.disk.latest) :
      t.disk.current b = s.disk.current b := by
    rw [Disk.current, Disk.current, version, latest]
  cases act_writeEffect act with
  | stay _ same | start _ _ _ _ _ same => exact absurd (kept same.version same.latest) changed
  | sample _ _ _ _ _ _ after => exact absurd (by rw [after]) changed
  | land o op b' data write sample _ after =>
      subst after
      by_cases same : b = b'
      · subst same
        exact ⟨o, op, data, write, sample, Disk.current_write_self _ _ _, rfl, rfl⟩
      · exact absurd (Disk.current_write_of_ne _ _ same) changed
  | finish _ _ success _ _ _ _ settled =>
      cases success <;> exact absurd (kept (by rw [settled]; rfl) (by rw [settled]; rfl)) changed

def Spares (dev : UbiBdev) (x : Nat) (s : State) (l : Label) : Prop := ∀ c, ¬ Enqueues dev s l c x

structure Spared (dev : UbiBdev) (B : Nat) (s : State) : Prop where
  placed : FetchesPlaced dev s
  requests : RequestsPlaced s
  writes : WritesMatch dev s
  idle : s.stripeStatus (dev.stripeOf B) ≠ .inflight

theorem spared_act (inv : Spared dev B s) (spares : Spares dev (dev.stripeOf B) s l)
    (issued : FetchesIssued t.log) (act : Act dev s l t) : Spared dev B t := by
  refine ⟨fetchesPlaced_act inv.placed issued act, requestsPlaced_act inv.requests act,
    writesMatch_act inv.writes act, fun inflight => ?_⟩
  have effect := act_fetchEffect inv.placed.fresh inv.placed.bounded
    (fun _ _ _ => inv.placed.active_of_op) issued act
  rcases inflight_origin effect inflight with before | ⟨c, cause⟩
  · exact inv.idle before
  · exact spares c cause

theorem spared_created {base : Bytes} (created : Created dev base s) (B : Nat) :
    Spared dev B s := by
  have settled := created_settled created (dev.stripeOf B)
  have life := lifecycle_created created
  refine ⟨life.placed, life.requests, writesMatch_created created, fun inflight => ?_⟩
  simp [inflight] at settled

theorem spares_quiet (x : Nat) (s : State) : Spares dev x s .quiet := by
  rintro c ⟨_, _, ⟨⟩, _⟩

/-- A base write of a user WRITE to block `B`, outstanding. -/
def WritingBlock (dev : UbiBdev) (s : State) (B : Nat) (op : BaseWrite) (id : ReqId)
    (r : Request) : Prop :=
  op.cb = .io id ∧ s.request id = some r ∧ r.type = .write ∧ r.CoversBlock B ∧
    ∀ data, op.sampled (dev.dataBlock B) = some data →
      ∀ a, data a = r.data (a - (r.offsetBlocks + dev.dataOffsetBlocks) * dev.blocklen)

/-- The base writes that have data for a data block: those of WRITEs to it, and that of
its stripe. -/
theorem writer_of_sampled {o : Nat} {op : BaseWrite} (placed : FetchesPlaced dev s)
    (writes : WritesMatch dev s) (write : s.writes o = some op)
    (sampled : op.sampled (dev.dataBlock B) ≠ none) :
    (∃ id r, WritingBlock dev s B op id r) ∨
      ∃ c k, op.cb = .stripe c k ∧ (s.slot c k).stripeIdx = dev.stripeOf B := by
  have matched := writes o op write
  have range := matched.sampled _ sampled
  cases cb : op.cb with
  | io id =>
      obtain ⟨r, known, type, start, blocks, data⟩ := matched.io id cb
      rw [start] at data
      refine .inl ⟨id, r, cb, known, type, ?_, data _⟩
      simp only [start, blocks, UbiBdev.dataBlock] at range
      constructor <;> omega
  | stripe c k =>
      obtain ⟨start, blocks⟩ := placed.writes o op c k write cb
      rw [start, blocks] at range
      exact .inr ⟨c, k, rfl, (stripeOf_of_range range).symm⟩
  | metadata id =>
      obtain ⟨start, blocks⟩ := matched.metadata id cb
      simp only [start, blocks, UbiBdev.dataBlock] at range
      omega

theorem writingBlock_of_sampled {o : Nat} {op : BaseWrite} (placed : FetchesPlaced dev s)
    (writes : WritesMatch dev s) (idle : s.stripeStatus (dev.stripeOf B) ≠ .inflight)
    (write : s.writes o = some op) (sampled : op.sampled (dev.dataBlock B) ≠ none) :
    ∃ id r, WritingBlock dev s B op id r := by
  rcases writer_of_sampled placed writes write sampled with writing | ⟨c, k, cb, slot⟩
  · exact writing
  · rw [← slot] at idle
    exact absurd (placed.inflight_of_active (placed.active_of_write write cb)) idle

/-- Block `B` holds the data of a user WRITE to it, whose base write has taken effect
there and is still outstanding. -/
def Overwritten (dev : UbiBdev) (B : Nat) (s : State) : Prop :=
  ∃ o op id r, s.writes o = some op ∧ WritingBlock dev s B op id r ∧
    op.landed (dev.dataBlock B) ≠ none ∧ ∀ a, s.disk.current (dev.dataBlock B) a =
      r.data (a - (r.offsetBlocks + dev.dataOffsetBlocks) * dev.blocklen)

theorem overwritten_of_changed (inv : Spared dev B s) (act : Act dev s l t)
    (changed : t.disk.current (dev.dataBlock B) ≠ s.disk.current (dev.dataBlock B)) :
    Overwritten dev B t := by
  obtain ⟨o, op, data, write, sample, current, request, writes⟩ := current_act act changed
  obtain ⟨id, r, cb, known, type, covers, taken⟩ :=
    writingBlock_of_sampled inv.placed inv.writes inv.idle write (by simp [sample])
  refine ⟨o, { op with landed := Function.update op.landed _ (some (s.disk.latest _ + 1)) }, id, r,
    by rw [writes, Function.update_self], ⟨cb, by rwa [request], type, covers, taken⟩, by simp,
    fun a => ?_⟩
  rw [current]
  exact taken data sample a

theorem overwritten_quiet (inv : Spared dev B s) (act : Act dev s .quiet t)
    (before : Overwritten dev B s) : Overwritten dev B t := by
  by_cases changed : t.disk.current (dev.dataBlock B) = s.disk.current (dev.dataBlock B)
  swap
  · exact overwritten_of_changed inv act changed
  obtain ⟨o, op, id, r, write, ⟨cb, known, type, covers, taken⟩, landed, current⟩ := before
  have known := act_request act known
  rw [← changed] at current
  have old (same : t.writes o = some op) : Overwritten dev B t :=
    ⟨o, op, id, r, same, ⟨cb, known, type, covers, taken⟩, landed, current⟩
  cases act_writeEffect act with
  | stay writes _ => exact old (by rwa [writes])
  | start op' writes _ _ _ _ =>
      have other : o ≠ s.nextWrite := by
        rintro rfl
        simp [inv.placed.fresh.writes s.nextWrite le_rfl] at write
      exact old (by rw [writes, Function.update_of_ne other, write])
  | sample o' op' b write' range new after =>
      by_cases same : o = o'
      · subst same
        obtain rfl : op = op' := Option.some.inj (write.symm.trans write')
        -- a block that has landed has its data already
        have other : dev.dataBlock B ≠ b := by
          rintro rfl
          obtain ⟨v, made⟩ := Option.ne_none_iff_exists'.mp landed
          exact ((inv.writes o op write).landed _ v made).1 new
        refine ⟨o, { op with sampled := Function.update op.sampled b (some fun a =>
          writeBuffer s op.cb (a - op.startBlock * dev.blocklen)) }, id, r, by simp [after],
          ⟨cb, known, type, covers, ?_⟩, landed, current⟩
        simpa [other] using taken
      · exact old (by rw [after]; simpa [same] using write)
  | land o' op' b data write' sample new after =>
      by_cases same : o = o'
      · subst same
        obtain rfl : op = op' := Option.some.inj (write.symm.trans write')
        refine ⟨o, { op with landed := Function.update op.landed b (some (s.disk.latest b + 1)) },
          id, r, by simp [after], ⟨cb, known, type, covers, taken⟩, ?_, current⟩
        by_cases here : dev.dataBlock B = b
        · simp [here]
        · simpa [here] using landed
      · exact old (by rw [after]; simpa [same] using write)
  | finish _ _ _ label => cases label

/-- One step changes a block of a spared stripe only by the effect of a user WRITE. -/
theorem spared_step {e : Event} (inv : Spared dev B s)
    (issued : FetchesIssued t.log) (h : step dev s e = .ok t)
    (changed : t.disk.current (dev.dataBlock B) ≠ s.disk.current (dev.dataBlock B)) :
    Overwritten dev B t := by
  rcases step_acts h with act | ⟨_, acts⟩
  · exact overwritten_of_changed inv act changed
  · have after := Quietly.invariant
      (P := fun u => FetchesIssued u.log → Spared dev B u ∧
        (u.disk.current (dev.dataBlock B) = s.disk.current (dev.dataBlock B) ∨ Overwritten dev B u))
      (fun {u v} before act met => by
        obtain ⟨inv, same | written⟩ := before (fetchesIssued_earlier (act_log act) met)
        · refine ⟨spared_act inv (spares_quiet _ _) met act, ?_⟩
          by_cases moved : v.disk.current (dev.dataBlock B) = u.disk.current (dev.dataBlock B)
          · exact .inl (moved.trans same)
          · exact .inr (overwritten_of_changed inv act moved)
        · exact ⟨spared_act inv (spares_quiet _ _) met act,
            .inr (overwritten_quiet inv act written)⟩)
      acts (fun _ => ⟨inv, .inl rfl⟩) issued
    exact after.2.resolve_left changed

/-- Along a run, a block of a spared stripe changes only if some WRITE to it had not
completed at the start. -/
theorem spared_later (inv : Spared dev B s)
    (run : Reach dev (Permitted (Spares dev (dev.stripeOf B))) s t) (issued : FetchesIssued t.log)
    (changed : t.disk.current (dev.dataBlock B) ≠ s.disk.current (dev.dataBlock B)) :
    ∃ id r, t.request id = some r ∧ r.type = .write ∧ r.CoversBlock B ∧
      ∀ ok, .completed id ok ∉ s.log := by
  have after := reach_invariant_permitted (s := s) (t := t)
    (P := fun u => Spared dev B u ∧ s.log <:+ u.log ∧
      (u.disk.current (dev.dataBlock B) ≠ s.disk.current (dev.dataBlock B) →
        ∃ id r, u.request id = some r ∧ r.type = .write ∧ r.CoversBlock B ∧
          ∀ ok, .completed id ok ∉ s.log))
    (spares_quiet _) fetchesIssued_earlier (fun {u v l} before spares met act => ?_) run
    ⟨inv, List.suffix_rfl, fun h => absurd rfl h⟩ issued
  · exact after.2.2 changed
  · obtain ⟨inv, older, cause⟩ := before
    refine ⟨spared_act inv spares met act, older.trans (act_log act), fun changed => ?_⟩
    by_cases moved : v.disk.current (dev.dataBlock B) = u.disk.current (dev.dataBlock B)
    · obtain ⟨id, r, known, rest⟩ := cause (by rwa [← moved])
      exact ⟨id, r, act_request act known, rest⟩
    · obtain ⟨o, op, data, write, sample, _⟩ := current_act act moved
      obtain ⟨id, r, cb, known, type, covers, _⟩ :=
        writingBlock_of_sampled inv.placed inv.writes inv.idle write (by simp [sample])
      refine ⟨id, r, act_request act known, type, covers, fun ok logged => ?_⟩
      -- the WRITE is outstanding, so it was not completed at the start either
      have place := inv.requests.at_completed (older.subset logged)
      have there : u.occurrences id (.baseWrite o) ≠ 0 := by simp [State.occurrences, write, cb]
      cases place.eq_some there

theorem spares_past_image (past : dev.imageBlockCount ≤ dev.stripeOf B * dev.stripeBlockCount)
    (small : dev.imageBlockCount ≤ ubiMaxStripes * dev.stripeBlockCount) (s : State) (l : Label) :
    Spares dev (dev.stripeOf B) s l := by
  rintro c ⟨id, r, _, _, _, image, index, _⟩
  rw [Request.startStripe, dev.shift_eq_div] at index
  have bound : r.offsetBlocks / dev.stripeBlockCount < ubiMaxStripes :=
    Nat.div_lt_of_lt_mul (by rw [Nat.mul_comm]; omega)
  rw [toCInt_of_lt bound] at index
  have same : r.offsetBlocks / dev.stripeBlockCount = dev.stripeOf B := by exact_mod_cast index
  have := Nat.div_mul_le_self r.offsetBlocks dev.stripeBlockCount
  rw [same] at this
  omega

/-- As long as the stripe of a block is not fetched, the block is one of a plain disk:
a step changes it only by the effect of a WRITE to it, and it is never changed later
but by WRITEs that had not completed. The stripe of a block past the image is never
fetched if it starts past the image. -/
theorem tail_block_plain {base : Bytes} {s₀ : State} (created : Created dev base s₀)
    (run : Reach dev (Permitted (Spares dev (dev.stripeOf B))) s₀ s)
    (issued : FetchesIssued s.log) :
    (∀ e t a, step dev s e = .ok t → FetchesIssued t.log → a / dev.blocklen = dev.dataBlock B →
      t.content dev a ≠ s.content dev a → ∃ o op id r, t.writes o = some op ∧
        WritingBlock dev t B op id r ∧ op.landed (dev.dataBlock B) ≠ none ∧
        t.content dev a = r.data (a - (r.offsetBlocks + dev.dataOffsetBlocks) * dev.blocklen)) ∧
    (∀ t a, Reach dev (Permitted (Spares dev (dev.stripeOf B))) s t → FetchesIssued t.log →
      a / dev.blocklen = dev.dataBlock B → t.content dev a ≠ s.content dev a →
      ∃ id r, t.request id = some r ∧ r.type = .write ∧ r.CoversBlock B ∧
        ∀ ok, .completed id ok ∉ s.log) ∧
    (dev.imageBlockCount ≤ dev.stripeOf B * dev.stripeBlockCount →
      dev.imageBlockCount ≤ ubiMaxStripes * dev.stripeBlockCount →
      ∀ s l, Spares dev (dev.stripeOf B) s l) := by
  have inv : Spared dev B s := reach_invariant_permitted (spares_quiet _) fetchesIssued_earlier
    spared_act run (spared_created created B) issued
  have differs {t : State} {a : Nat} (block : a / dev.blocklen = dev.dataBlock B)
      (changed : t.content dev a ≠ s.content dev a) :
      t.disk.current (dev.dataBlock B) ≠ s.disk.current (dev.dataBlock B) := by
    intro same
    simp [State.content, block, same] at changed
  refine ⟨fun e t a move issued block changed => ?_, fun t a run issued block changed => ?_,
    spares_past_image⟩
  · obtain ⟨o, op, id, r, write, writing, landed, current⟩ :=
      spared_step inv issued move (differs block changed)
    exact ⟨o, op, id, r, write, writing, landed, by rw [State.content, block, current]⟩
  · exact spared_later inv run issued (differs block changed)

/-- A bdev with stripes of two blocks, of which the image covers the first one only. -/
def halfStripeBdev : UbiBdev where
  blocklen := 32768
  blockcnt := 258
  imageSize := 32768
  image := fun _ => 7
  stripeSizeKb := 64
  noSync := false
  copyOnRead := false
  layout := ⟨2, 1, 256, 1⟩
  imageSize_lt := tightBdev.imageSize_lt
  blockcnt_lt := by decide
  init := by decide

def pastImage (dev : UbiBdev) : Event → Bool
  | .submit _ _ r => decide (dev.imageBlockCount ≤ r.offsetBlocks)
  | _ => true

theorem spares_of_pastImage {e : Event} (h : pastImage dev e = true) (x : Nat) (s : State) :
    Spares dev x s e.label := by
  rintro c ⟨id, r, label, _, _, image, _⟩
  cases e with
  | submit =>
      cases label
      exact absurd image (Nat.not_lt.mpr (of_decide_eq_true h))
  | _ => cases label

/-- Stripe 0 holds an image block, but only block 1 past the image is written. -/
theorem tail_block_plain_halfStripe :
    ∃ s t id r, Reach halfStripeBdev (Permitted (Spares halfStripeBdev 0))
        (blankState halfStripeBdev) s ∧
      s.stripeStatus 0 = .notFetched ∧ step halfStripeBdev s (.land 0 [257]) = .ok t ∧
      t.request id = some r ∧ r.type = .write ∧ r.CoversBlock 1 ∧
      t.content halfStripeBdev (257 * 32768) ≠ s.content halfStripeBdev (257 * 32768) := by
  have ran : (Runs.exec (step halfStripeBdev) (fun _ e => pastImage halfStripeBdev e)
      (blankState halfStripeBdev) [.submit 0 0 ⟨.write, 1, 1, fun _ => 5⟩, .poll 0 .success,
        .sample 0 [257]]).any (fun s =>
        decide (FetchesIssued s.log ∧ s.stripeStatus 0 = .notFetched) &&
          match step halfStripeBdev s (.land 0 [257]) with
          | .ok t => decide (FetchesIssued t.log) &&
              (t.content halfStripeBdev (257 * 32768) != s.content halfStripeBdev (257 * 32768))
          | .error _ => false) = true := by decide +kernel
  obtain ⟨s, run, test⟩ := Runs.exists_reach_of_exec
    (fun s e _ past =>
      (spares_of_pastImage past 0 s : Permitted (Spares halfStripeBdev 0) s e)) ran
  simp only [Bool.and_eq_true, decide_eq_true_eq] at test
  obtain ⟨⟨issued, unfetched⟩, moved⟩ := test
  split at moved
  · next t landed =>
    simp only [Bool.and_eq_true, decide_eq_true_eq, bne_iff_ne] at moved
    obtain ⟨_, _, id, r, _, ⟨_, known, type, covers, _⟩, _⟩ :=
      (tail_block_plain (B := 1) (created_blankState _) run issued).1 _ t (257 * 32768) landed
        moved.1 (by decide) moved.2
    exact ⟨s, t, id, r, run, unfetched, landed, known, type, covers, moved.2⟩
  · cases moved

/-- A WRITE to block 1, past the image, completes. A WRITE to block 0 then makes the
stripe of both be fetched, up to the moment its base write is about to take effect. -/
def tailWriteThenFetch : List Event :=
  [.submit 0 0 ⟨.write, 1, 1, fun _ => 5⟩, .poll 0 .success, .sample 0 [257], .land 0 [257],
    .writeDone 0 true 0, .submit 0 1 ⟨.write, 0, 1, fun _ => 6⟩, .poll 0 .success,
    .uring 0 0 32768, .poll 0 .success, .sample 1 [256, 257]]

/-- The stripe fetch overwrites the completed WRITE with what its buffer holds past the
image. -/
theorem fetch_undoes_tail_write :
    ∃ s t, Reach halfStripeBdev anyStep (blankState halfStripeBdev) s ∧ FetchesIssued s.log ∧
      halfStripeBdev.imageBlockCount ≤ 1 ∧ .completed 0 true ∈ s.log ∧
      step halfStripeBdev s (.land 1 [257]) = .ok t ∧
      (t.writes 1).map BaseWrite.cb = some (.stripe 0 0) ∧
      s.content halfStripeBdev (257 * 32768) = 5 ∧ t.content halfStripeBdev (257 * 32768) = 0 := by
  have ran : (Runs.exec (step halfStripeBdev) (fun _ _ => true) (blankState halfStripeBdev)
      tailWriteThenFetch).any (fun s =>
        decide (FetchesIssued s.log ∧ .completed 0 true ∈ s.log ∧
          s.content halfStripeBdev (257 * 32768) = 5) &&
          match step halfStripeBdev s (.land 1 [257]) with
          | .ok t => decide ((t.writes 1).map BaseWrite.cb = some (.stripe 0 0) ∧
              t.content halfStripeBdev (257 * 32768) = 0)
          | .error _ => false) = true := by decide +kernel
  obtain ⟨s, run, test⟩ := Runs.exists_reach_of_exec (fun _ _ _ _ => trivial) ran
  simp only [Bool.and_eq_true, decide_eq_true_eq] at test
  obtain ⟨⟨issued, completed, before⟩, moved⟩ := test
  split at moved
  · next t landed =>
    obtain ⟨cb, after⟩ := of_decide_eq_true moved
    exact ⟨s, t, run, issued, by decide, completed, landed, cb, before, after⟩
  · cases moved

end BdevUbi
