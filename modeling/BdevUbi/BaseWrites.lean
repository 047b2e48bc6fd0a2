import BdevUbi.StripeLifecycle

/-!
Outstanding base writes and the versions they make of the blocks of the base bdev.
An act submits a write, lets one of its blocks take its data, lets one take effect,
completes a write, or leaves writes and blocks alone.
-/

namespace BdevUbi
open VolatileDisk

/-- A base write is submitted for a request, for a slot whose image read has completed,
or for the metadata, with the range that belongs to it. -/
def Issued (dev : UbiBdev) (s t : State) (op : BaseWrite) : Prop :=
  match op.cb with
  | .io id => ∃ c rest r, (s.channel c).io = id :: rest ∧ s.request id = some r ∧
      r.type = .write ∧ Served dev s r ∧ op.startBlock = r.offsetBlocks + dev.dataOffsetBlocks ∧
      op.numBlocks = r.numBlocks
  | .stripe c k => ∃ sqe res rest, (s.channel c).cqes = ⟨sqe, res⟩ :: rest ∧
      sqe.userData = .stripeFetch k ∧ 0 ≤ res ∧ t.slot c k = s.slot c k ∧
      .fetchCqe c k sqe (s.slot c k).active (s.slot c k).stripeIdx res ∈ t.log ∧
      op.startBlock = dev.stripeStart (s.slot c k).stripeIdx ∧ op.numBlocks = dev.stripeBlockCount
  | .metadata _ => op.startBlock = 0 ∧ op.numBlocks = dev.dataOffsetBlocks

structure VersionsKept (s t : State) : Prop where
  version : t.disk.version = s.disk.version
  latest : t.disk.latest = s.disk.latest

/-- What an act does to the base writes and the versions. -/
inductive WriteEffect (dev : UbiBdev) (s : State) (l : Label) (t : State) : Prop
  | stay (writes : t.writes = s.writes) (kept : VersionsKept s t)
  | start (op : BaseWrite) (writes : t.writes = Function.update s.writes s.nextWrite (some op))
      (unsampled : op.sampled = fun _ => none) (unlanded : op.landed = fun _ => none)
      (issued : Issued dev s t op) (kept : VersionsKept s t)
  | sample (o : Nat) (op : BaseWrite) (b : Nat) (write : s.writes o = some op)
      (range : op.startBlock ≤ b ∧ b < op.startBlock + op.numBlocks)
      (new : op.sampled b = none)
      (after : t = { s with
        writes := Function.update s.writes o (some { op with
          sampled := Function.update op.sampled b
            (some fun a => writeBuffer s op.cb (a - op.startBlock * dev.blocklen)) }) })
  | land (o : Nat) (op : BaseWrite) (b : Nat) (data : Bytes) (write : s.writes o = some op)
      (sample : op.sampled b = some data) (new : op.landed b = none)
      (after : t = { s with
        disk := s.disk.write b data
        writes := Function.update s.writes o (some { op with
          landed := Function.update op.landed b (some (s.disk.latest b + 1)) }) })
  | finish (o : Nat) (op : BaseWrite) (success : Bool) (label : l = .writeDone o success)
      (write : s.writes o = some op) (writes : t.writes = Function.update s.writes o none)
      (all : success = true → ∀ b, op.startBlock ≤ b → b < op.startBlock + op.numBlocks →
        op.landed b ≠ none)
      (settled : t.disk = if success then s.disk.settle op.landed else s.disk)

variable {dev : UbiBdev} {s t : State} {l : Label}

theorem act_writeEffect (act : Act dev s l t) : WriteEffect dev s l t := by
  cases act with
  | fetchWriteStarted first tag good fits =>
      exact .start _ rfl rfl rfl
        ⟨_, _, _, first, tag, good, by simp [State.slot], by simp, rfl, rfl⟩ ⟨rfl, rfl⟩
  | writeDispatched first req type gate fits =>
      exact .start _ rfl rfl rfl ⟨_, _, _, first, req, type, gate, rfl, rfl⟩ ⟨rfl, rfl⟩
  | metadataWriteStarted flush cb dirty => exact .start _ rfl rfl rfl ⟨rfl, rfl⟩ ⟨rfl, rfl⟩
  | sampled write range new => exact .sample _ _ _ write range new rfl
  | landed write sample new => exact .land _ _ _ _ write sample new rfl
  | ioWriteDone success write cb all => exact .finish _ _ success rfl write rfl all rfl
  | stripeWriteDone success write cb all => exact .finish _ _ success rfl write rfl all rfl
  | metadataWriteFailed success write cb all => exact .finish _ _ success rfl write rfl all rfl
  | metadataWriteDone write cb all => exact .finish _ _ true rfl write rfl (fun _ => all) rfl
  | _ => exact .stay rfl ⟨rfl, rfl⟩

/-- A base write is what it was submitted for. -/
structure OpMatches (dev : UbiBdev) (s : State) (op : BaseWrite) : Prop where
  io : ∀ id, op.cb = .io id → ∃ r, s.request id = some r ∧ r.type = .write ∧
    op.startBlock = r.offsetBlocks + dev.dataOffsetBlocks ∧ op.numBlocks = r.numBlocks ∧
    ∀ b data, op.sampled b = some data → ∀ a, data a = r.data (a - op.startBlock * dev.blocklen)
  metadata : ∀ id, op.cb = .metadata id →
    op.startBlock = 0 ∧ op.numBlocks = dev.dataOffsetBlocks
  sampled : ∀ b, op.sampled b ≠ none → op.startBlock ≤ b ∧ b < op.startBlock + op.numBlocks
  landed : ∀ b v, op.landed b = some v → op.sampled b ≠ none ∧ 0 < v ∧ v ≤ s.disk.latest b

def WritesMatch (dev : UbiBdev) (s : State) : Prop :=
  ∀ o op, s.writes o = some op → OpMatches dev s op

theorem latest_mono (act : Act dev s l t) (b : Nat) : s.disk.latest b ≤ t.disk.latest b := by
  cases act_writeEffect act with
  | stay _ kept | start _ _ _ _ _ kept => rw [kept.latest]
  | sample _ _ _ _ _ _ after => rw [after]
  | land o op b' data _ _ _ after =>
      rw [after]
      simp only [Disk.latest_write]
      split
      · next same => subst same; omega
      · exact le_rfl
  | finish _ _ success _ _ _ _ settled =>
      rw [settled]
      split <;> exact le_rfl

theorem version_kept (act : Act dev s l t) {b v : Nat} (old : v ≤ s.disk.latest b) :
    t.disk.version b v = s.disk.version b v := by
  cases act_writeEffect act with
  | stay _ kept | start _ _ _ _ _ kept => rw [kept.version]
  | sample _ _ _ _ _ _ after => rw [after]
  | land o op b' data _ _ _ after =>
      rw [after]
      exact Disk.version_write_of_le _ _ old
  | finish _ _ success _ _ _ _ settled =>
      rw [settled]
      split <;> rfl

/-- Where an outstanding write comes from: it was outstanding before and one of its
blocks may have moved, or it has just been submitted. -/
inductive Origin (dev : UbiBdev) (s t : State) (o : Nat) (op' : BaseWrite) : Prop
  | old (op : BaseWrite) (write : s.writes o = some op) (cb : op'.cb = op.cb)
      (start : op'.startBlock = op.startBlock) (blocks : op'.numBlocks = op.numBlocks)
      (sampled : ∀ b data, op'.sampled b = some data → op.sampled b = some data ∨
        ((op.startBlock ≤ b ∧ b < op.startBlock + op.numBlocks) ∧
          data = fun a => writeBuffer s op.cb (a - op.startBlock * dev.blocklen)))
      (keeps : ∀ b data, op.sampled b = some data → op'.sampled b = some data)
      (landed : ∀ b v, op'.landed b = some v → op.landed b = some v ∨
        (op.landed b = none ∧ v = s.disk.latest b + 1 ∧
          ∃ data, op.sampled b = some data ∧ t.disk = s.disk.write b data))
  | new (here : o = s.nextWrite) (issued : Issued dev s t op')
      (unsampled : op'.sampled = fun _ => none) (unlanded : op'.landed = fun _ => none)

theorem write_origin (act : Act dev s l t) {o : Nat} {op' : BaseWrite} (h : t.writes o = some op') :
    Origin dev s t o op' := by
  have old (h : s.writes o = some op') : Origin dev s t o op' :=
    .old op' h rfl rfl rfl (fun _ _ => .inl) (fun _ _ => id) (fun _ _ => .inl)
  cases act_writeEffect act with
  | stay writes _ => exact old (by rwa [writes] at h)
  | start op writes unsampled unlanded issued _ =>
      rw [writes] at h
      by_cases same : o = s.nextWrite
      · subst same
        simp only [Function.update_self, Option.some.injEq] at h
        subst h
        exact .new rfl issued unsampled unlanded
      · exact old (by simpa [same] using h)
  | sample o' op b write range new after =>
      rw [after] at h
      by_cases same : o = o'
      · subst same
        simp only [Function.update_self, Option.some.injEq] at h
        subst h
        refine .old op write rfl rfl rfl (fun b' data h => ?_) (fun b' data h => ?_)
          (fun _ _ => .inl)
        · by_cases here : b' = b
          · subst here
            simp only [Function.update_self, Option.some.injEq] at h
            exact .inr ⟨range, h.symm⟩
          · exact .inl (by simpa [here] using h)
        · have other : b' ≠ b := by
            rintro rfl
            simp [new] at h
          simpa [other] using h
      · exact old (by simpa [same] using h)
  | land o' op b data write sample new after =>
      have disk : t.disk = s.disk.write b data := by rw [after]
      rw [after] at h
      by_cases same : o = o'
      · subst same
        simp only [Function.update_self, Option.some.injEq] at h
        subst h
        refine .old op write rfl rfl rfl (fun _ _ => .inl) (fun _ _ => id) (fun b' v h => ?_)
        by_cases here : b' = b
        · subst here
          simp only [Function.update_self, Option.some.injEq] at h
          exact .inr ⟨new, h.symm, data, sample, disk⟩
        · exact .inl (by simpa [here] using h)
      · exact old (by simpa [same] using h)
  | finish o' op success _ write writes _ _ =>
      rw [writes] at h
      by_cases same : o = o'
      · simp [same] at h
      · exact old (by simpa [same] using h)

theorem opMatches_issued {op : BaseWrite} (issued : Issued dev s t op)
    (unsampled : op.sampled = fun _ => none) (unlanded : op.landed = fun _ => none)
    (act : Act dev s l t) : OpMatches dev t op where
  io id cb := by
    simp only [Issued, cb] at issued
    obtain ⟨_, _, r, _, known, type, _, start, blocks⟩ := issued
    exact ⟨r, act_request act known, type, start, blocks, by simp [unsampled]⟩
  metadata id cb := by simpa only [Issued, cb] using issued
  sampled b h := by simp [unsampled] at h
  landed b v h := by simp [unlanded] at h

theorem writesMatch_act (inv : WritesMatch dev s) (act : Act dev s l t) : WritesMatch dev t := by
  intro o op' h
  cases write_origin act h with
  | new here issued unsampled unlanded => exact opMatches_issued issued unsampled unlanded act
  | old op write cb start blocks sampled keeps landed =>
      have before := inv o op write
      constructor
      · intro id cb'
        obtain ⟨r, known, type, first, count, data⟩ := before.io id (cb.symm.trans cb')
        refine ⟨r, act_request act known, type, start.trans first, blocks.trans count,
          fun b taken h a => ?_⟩
        rw [start]
        rcases sampled b taken h with old | ⟨_, rfl⟩
        · exact data b taken old a
        · simp [writeBuffer, ← cb, cb', known]
      · intro id cb'
        rw [start, blocks]
        exact before.metadata id (cb.symm.trans cb')
      · intro b h
        obtain ⟨data, h⟩ := Option.ne_none_iff_exists'.mp h
        rw [start, blocks]
        rcases sampled b data h with old | ⟨range, _⟩
        · exact before.sampled b (by simp [old])
        · exact range
      · intro b v h
        rcases landed b v h with old | ⟨_, rfl, data, taken, disk⟩
        · obtain ⟨taken, pos, bound⟩ := before.landed b v old
          obtain ⟨data, taken⟩ := Option.ne_none_iff_exists'.mp taken
          exact ⟨by simp [keeps b data taken], pos, bound.trans (latest_mono act b)⟩
        · exact ⟨by simp [keeps b data taken], Nat.succ_pos _, by simp [disk, Disk.latest_write]⟩

theorem writesMatch_created {base : Bytes} (created : Created dev base s) : WritesMatch dev s := by
  obtain ⟨table, _, rfl⟩ := created
  simp [WritesMatch, newState]

end BdevUbi
