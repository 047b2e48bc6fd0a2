import BdevUbi.TailBlocks
import BdevUbi.FetchData
import BdevUbi.BaseFlushes
import BdevUbi.Library.RegularRegister

/-!
The versions of an image block on the base bdev and the WRITEs they stem from. The
stripe fetch makes the first version, while no WRITE may reach the base bdev; every
later one is made by a WRITE. The block is a regular register.
-/

namespace BdevUbi
open VolatileDisk Placement History RegularRegister

variable {dev : UbiBdev} {s t : State} {l : Label} {B : Nat}

/-- The request asks for at least one block and does not cross a stripe boundary. -/
def Request.WithinStripe (dev : UbiBdev) (r : Request) : Prop :=
  0 < r.numBlocks ∧ dev.stripeOf (r.offsetBlocks + r.numBlocks - 1) = dev.stripeOf r.offsetBlocks

instance (dev : UbiBdev) (r : Request) : Decidable (r.WithinStripe dev) :=
  inferInstanceAs (Decidable (_ ∧ _))

/-- The generic bdev layer splits READs and WRITEs at `optimal_io_boundary`. -/
def SplitAtStripes (dev : UbiBdev) (_ : State) (l : Label) : Prop :=
  ∀ c id r, l = .submit c id r → r.type = .read ∨ r.type = .write → r.WithinStripe dev

def splitAtStripes (dev : UbiBdev) (_ : State) : Event → Bool
  | .submit _ _ r => decide (r.type = .read ∨ r.type = .write → r.WithinStripe dev)
  | _ => true

theorem splitAtStripes_sound (dev : UbiBdev) (s : State) (e : Event)
    (h : splitAtStripes dev s e = true) : Permitted (SplitAtStripes dev) s e := by
  rintro c id r label kind
  cases e <;> cases label
  exact of_decide_eq_true h kind

def Shaped (dev : UbiBdev) (s : State) : Prop :=
  ∀ id r, s.request id = some r → r.type = .read ∨ r.type = .write → r.WithinStripe dev

theorem splitAtStripes_quiet (dev : UbiBdev) (s : State) : SplitAtStripes dev s .quiet := by
  rintro c id r ⟨⟩

theorem request_origin (act : Act dev s l t) {id : ReqId} {r : Request}
    (h : t.request id = some r) : s.request id = some r ∨ ∃ c, l = .submit c id r := by
  have handed {c id' r'} (h : Function.update s.request id' (some r') id = some r) :
      s.request id = some r ∨ ∃ d, Label.submit c id' r' = .submit d id r := by
    by_cases same : id = id'
    · subst same
      simp only [Function.update_self, Option.some.injEq] at h
      exact .inr ⟨c, by rw [h]⟩
    · exact .inl (by simpa [same] using h)
  cases act <;> first | exact .inl h | exact handed h

theorem shaped_act (before : Shaped dev s) (split : SplitAtStripes dev s l)
    (act : Act dev s l t) : Shaped dev t := by
  intro id r known kind
  rcases request_origin act known with old | ⟨c, label⟩
  · exact before id r old kind
  · exact split c id r label kind

theorem stripeOf_of_covers {r : Request} (within : r.WithinStripe dev) (covers : r.CoversBlock B) :
    dev.stripeOf r.offsetBlocks = dev.stripeOf B := by
  obtain ⟨_, same⟩ := within
  obtain ⟨low, high⟩ := covers
  have first : dev.stripeOf r.offsetBlocks ≤ dev.stripeOf B := Nat.div_le_div_right low
  have last : dev.stripeOf B ≤ dev.stripeOf (r.offsetBlocks + r.numBlocks - 1) :=
    Nat.div_le_div_right (by omega)
  omega

/-- A block of the image, in a stripe that has a status. -/
structure ImageBlock (dev : UbiBdev) (B : Nat) : Prop where
  image : B < dev.imageBlockCount
  small : dev.stripeOf B < ubiMaxStripes

theorem gate_of_covers (block : ImageBlock dev B) {r : Request} (within : r.WithinStripe dev)
    (covers : r.CoversBlock B) : r.gate dev s = some (s.stripeStatus (dev.stripeOf B)) := by
  refine ubiGetStripeStatus_eq_some.mpr ⟨dev.stripeOf B, ?_, block.small, rfl⟩
  rw [Request.startStripe, dev.shift_eq_div, ← toCInt_of_lt block.small]
  exact congrArg (fun x : Nat => toCInt x) (stripeOf_of_covers within covers)

theorem fetched_of_writing (gated : Gated dev s) (shaped : Shaped dev s)
    (block : ImageBlock dev B) {o : Nat} {op : BaseWrite} {id : ReqId} {r : Request}
    (write : s.writes o = some op) (cb : op.cb = .io id) (known : s.request id = some r)
    (type : r.type = .write) (covers : r.CoversBlock B) :
    s.stripeStatus (dev.stripeOf B) = .fetched := by
  have image := block.image
  have gate := gated.writes o op id r write cb known (by have := covers.1; omega)
  rw [gate_of_covers block (shaped id r known (.inr type)) covers] at gate
  exact Option.some.inj gate

/-- A status becomes fetched when the base write of the stripe completes. -/
theorem fetched_act {x : Nat} (act : Act dev s l t) (after : t.stripeStatus x = .fetched)
    (before : s.stripeStatus x ≠ .fetched) :
    ∃ o op c k success, l = .writeDone o success ∧ s.writes o = some op ∧ op.cb = .stripe c k ∧
      (s.slot c k).stripeIdx = x ∧ .stripeWriteDone x success ∈ t.log ∧
      (success = true → ∀ b, op.startBlock ≤ b → b < op.startBlock + op.numBlocks →
        op.landed b ≠ none) := by
  cases act <;> first | exact absurd after before | grind -linarith

theorem stripe_finish {o : Nat} {op : BaseWrite} {c : ChId} {k : Nat} {success : Bool}
    (act : Act dev s (.writeDone o success) t) (write : s.writes o = some op)
    (cb : op.cb = .stripe c k) : t.stripeStatus (s.slot c k).stripeIdx = .fetched := by
  cases act <;> grind -linarith

theorem write_kept (fresh : OpsFresh s) (act : Act dev s l t) {o : Nat} {op : BaseWrite}
    (write : s.writes o = some op) :
    (∃ op', t.writes o = some op' ∧ op'.cb = op.cb ∧
      ∀ b v, op.landed b = some v → op'.landed b = some v) ∨
    ∃ success, l = .writeDone o success := by
  have kept (h : t.writes o = some op) : ∃ op', t.writes o = some op' ∧ op'.cb = op.cb ∧
      ∀ b v, op.landed b = some v → op'.landed b = some v := ⟨op, h, rfl, fun _ _ => id⟩
  cases act_writeEffect act with
  | stay writes _ => exact .inl (kept (by rwa [writes]))
  | start op' writes =>
      have other : o ≠ s.nextWrite := by
        rintro rfl
        simp [fresh.writes s.nextWrite le_rfl] at write
      exact .inl (kept (by rw [writes, Function.update_of_ne other, write]))
  | sample o' op' b write' range new after =>
      by_cases same : o = o'
      · subst same
        obtain rfl : op = op' := Option.some.inj (write.symm.trans write')
        exact .inl ⟨{ op with sampled := Function.update op.sampled b (some fun a =>
          writeBuffer s op.cb (a - op.startBlock * dev.blocklen)) }, by simp [after], rfl,
          fun _ _ => id⟩
      · exact .inl (kept (by rw [after]; simpa [same] using write))
  | land o' op' b data write' sample new after =>
      by_cases same : o = o'
      · subst same
        obtain rfl : op = op' := Option.some.inj (write.symm.trans write')
        refine .inl ⟨{ op with landed := Function.update op.landed b (some (s.disk.latest b + 1)) },
          by simp [after], rfl, fun b' v h => ?_⟩
        have other : b' ≠ b := by
          rintro rfl
          simp [new] at h
        simpa [other] using h
      · exact .inl (kept (by rw [after]; simpa [same] using write))
  | finish o' op' success label write' writes =>
      by_cases same : o = o'
      · exact .inr ⟨success, same ▸ label⟩
      · exact .inl (kept (by rw [writes]; simpa [same] using write))

/-- The base write of the stripe of block `B` has taken effect there. -/
def FetchLanded (dev : UbiBdev) (B : Nat) (s : State) : Prop :=
  ∃ o op c k v, s.writes o = some op ∧ op.cb = .stripe c k ∧
    (s.slot c k).stripeIdx = dev.stripeOf B ∧ op.landed (dev.dataBlock B) = some v

/-- A block of a stripe that was not fetched at the start. Until the stripe is fetched
only the stripe's base write has touched the block; its version is the first. -/
structure FetchedBlock (dev : UbiBdev) (B : Nat) (s : State) : Prop where
  unfetched : s.stripeStatus (dev.stripeOf B) ≠ .fetched → s.disk.latest (dev.dataBlock B) = 0 ∨
    (s.disk.latest (dev.dataBlock B) = 1 ∧ FetchLanded dev B s)
  fetched : s.stripeStatus (dev.stripeOf B) = .fetched → 0 < s.disk.latest (dev.dataBlock B)
  image : ∀ p, p < dev.imageSize → p / dev.blocklen = B → 0 < s.disk.latest (dev.dataBlock B) →
    s.disk.version (dev.dataBlock B) 1 (ubiMetadataSize + p) = dev.image p

/-- What is known about the system when the versions of a block are followed. -/
structure Supports (dev : UbiBdev) (init : Nat → StripeStatus) (s : State) : Prop where
  life : Lifecycle dev init s
  writes : WritesMatch dev s
  shaped : Shaped dev s
  data : FetchData dev s

variable {init : Nat → StripeStatus}

theorem fetchLanded_act (inv : FetchesPlaced dev s) (act : Act dev s l t)
    (before : FetchLanded dev B s) (unfetched : t.stripeStatus (dev.stripeOf B) ≠ .fetched) :
    FetchLanded dev B t := by
  obtain ⟨o, op, c, k, v, write, cb, slot, landed⟩ := before
  rcases write_kept inv.fresh act write with ⟨op', write', cb', keeps⟩ | ⟨success, rfl⟩
  · exact ⟨o, op', c, k, v, write', cb'.trans cb,
      (writingSlot_act inv act write cb).1.trans slot, keeps _ v landed⟩
  · exact absurd (slot ▸ stripe_finish act write cb) unfetched

theorem FetchesPlaced.stripeWrite_unique (inv : FetchesPlaced dev s) {o o' : Nat}
    {op op' : BaseWrite} {c c' : ChId} {k k' : Nat} (write : s.writes o = some op)
    (cb : op.cb = .stripe c k) (write' : s.writes o' = some op') (cb' : op'.cb = .stripe c' k')
    (same : (s.slot c k).stripeIdx = (s.slot c' k').stripeIdx) : o = o' := by
  obtain ⟨rfl, rfl⟩ := inv.slot_unique (inv.active_of_write write cb)
    (inv.active_of_write write' cb') same
  obtain ⟨owner, counts, _⟩ := inv.slots c k
  have first : s.slotOps (c, k) (.write o) ≠ 0 := by simp [State.slotOps, write, cb]
  have second : s.slotOps (c, k) (.write o') ≠ 0 := by simp [State.slotOps, write', cb']
  cases Option.some.inj ((counts.eq_some first).symm.trans (counts.eq_some second))
  rfl

theorem FetchedBlock.first_of_landing (before : FetchedBlock dev B s) (sup : Supports dev init s)
    (block : ImageBlock dev B) {o : Nat} {op : BaseWrite} (write : s.writes o = some op)
    (sampled : op.sampled (dev.dataBlock B) ≠ none) (new : op.landed (dev.dataBlock B) = none)
    (unfetched : s.stripeStatus (dev.stripeOf B) ≠ .fetched) :
    s.disk.latest (dev.dataBlock B) = 0 ∧
      ∃ c k, op.cb = .stripe c k ∧ (s.slot c k).stripeIdx = dev.stripeOf B := by
  rcases writer_of_sampled sup.life.placed sup.writes write sampled with
    ⟨id, r, cb, known, type, covers, _⟩ | ⟨c, k, cb, slot⟩
  · exact absurd (fetched_of_writing sup.life.gated sup.shaped block write cb known type covers)
      unfetched
  · refine ⟨?_, c, k, cb, slot⟩
    rcases before.unfetched unfetched with
      zero | ⟨_, o', op', c', k', v, write', cb', slot', landed⟩
    · exact zero
    · have same := sup.life.placed.stripeWrite_unique write cb write' cb' (slot.trans slot'.symm)
      subst same
      obtain rfl : op = op' := Option.some.inj (write.symm.trans write')
      simp [new] at landed

theorem fetchedBlock_act (sup : Supports dev init s) (block : ImageBlock dev B)
    (before : FetchedBlock dev B s) (faultless : Faultless dev t.log) (act : Act dev s l t) :
    FetchedBlock dev B t := by
  have final := (statusStep_act sup.life.placed faultless.issued act (dev.stripeOf B)).final
  refine ⟨fun unfetched => ?_, fun fetched => ?_, fun p image at_p made => ?_⟩
  · have earlier : s.stripeStatus (dev.stripeOf B) ≠ .fetched := fun h =>
      unfetched ((final (.inl h)).trans h)
    have frame (latest : t.disk.latest (dev.dataBlock B) = s.disk.latest (dev.dataBlock B)) :
        t.disk.latest (dev.dataBlock B) = 0 ∨
          (t.disk.latest (dev.dataBlock B) = 1 ∧ FetchLanded dev B t) := by
      rw [latest]
      exact (before.unfetched earlier).imp id fun ⟨one, landed⟩ =>
        ⟨one, fetchLanded_act sup.life.placed act landed unfetched⟩
    cases act_writeEffect act with
    | stay _ kept | start _ _ _ _ _ kept => exact frame (by rw [kept.latest])
    | sample _ _ _ _ _ _ after => exact frame (by rw [after])
    | finish _ _ success _ _ _ _ settled => exact frame (by rw [settled]; split <;> rfl)
    | land o op b data write sample new after =>
        by_cases here : dev.dataBlock B = b
        · subst here
          obtain ⟨zero, c, k, cb, slot⟩ :=
            before.first_of_landing sup block write (by simp [sample]) new earlier
          refine .inr ⟨by simp [after, Disk.latest_write, zero], o, { op with
            landed := Function.update op.landed (dev.dataBlock B)
              (some (s.disk.latest (dev.dataBlock B) + 1)) }, c, k, _, by simp [after], cb, ?_,
            Function.update_self _ _ _⟩
          rw [after]
          exact slot
        · exact frame (by rw [after, Disk.latest_write, if_neg here])
  · by_cases earlier : s.stripeStatus (dev.stripeOf B) = .fetched
    · exact (before.fetched earlier).trans_le (latest_mono act _)
    · obtain ⟨o, op, c, k, success, _, write, cb, slot, logged, all⟩ :=
        fetched_act act fetched earlier
      have success : success = true := faultless _ logged
      obtain ⟨start, blocks⟩ := sup.life.placed.writes o op c k write cb
      have range := range_of_stripeOf dev B
      rw [← slot, ← start, ← blocks] at range
      obtain ⟨v, landed⟩ := Option.ne_none_iff_exists'.mp (all success _ range.1 range.2)
      obtain ⟨_, pos, bound⟩ := (sup.writes o op write).landed _ v landed
      exact (pos.trans_le bound).trans_le (latest_mono act _)
  · by_cases earlier : 0 < s.disk.latest (dev.dataBlock B)
    · rw [version_kept act earlier]
      exact before.image p image at_p earlier
    -- the first version is being made, by the stripe's base write
    have zero : s.disk.latest (dev.dataBlock B) = 0 := by omega
    have unfetched : s.stripeStatus (dev.stripeOf B) ≠ .fetched := fun h =>
      earlier (before.fetched h)
    cases act_writeEffect act with
    | stay _ kept | start _ _ _ _ _ kept => rw [kept.latest] at made; exact absurd made earlier
    | sample _ _ _ _ _ _ after => rw [after] at made; exact absurd made earlier
    | finish _ _ success _ _ _ _ settled =>
        rw [settled] at made
        cases success <;> exact absurd made earlier
    | land o op b data write sample new after =>
        by_cases here : dev.dataBlock B = b
        · subst here
          obtain ⟨_, c, k, cb, slot⟩ :=
            before.first_of_landing sup block write (by simp [sample]) new unfetched
          have data_p := sup.data.image_of_sampled sup.life.placed write cb sample image
            (by rw [dev.div_stripeBytes, at_p, slot])
          have version := Disk.version_write_latest s.disk (dev.dataBlock B) data
          rw [zero] at version
          rw [after, ← data_p]
          exact congrFun version _
        · rw [after, Disk.latest_write, if_neg here] at made
          omega

def WritesBlock (B : Nat) (s : State) (id : ReqId) : Prop :=
  ∃ r, s.request id = some r ∧ r.type = .write ∧ r.CoversBlock B

namespace RequestsPlaced

theorem unknown_uncompleted (inv : RequestsPlaced s) {id : ReqId} (new : s.request id = none)
    (ok : Bool) : .completed id ok ∉ s.log := by
  intro logged
  have place := inv.at_completed logged
  obtain ⟨r, known, _⟩ := inv.suits_of_occurs (p := .completed) (by rw [place.eq_one]; decide)
  simp [new] at known

theorem ring_owner (inv : RequestsPlaced s) {c : ChId} {sqe : Sqe} {id : ReqId}
    (entry : sqe ∈ s.ringEntries c) (tag : sqe.userData = .bdevIo id) :
    ∃ r, s.request id = some r ∧ r.type = .read :=
  inv.suits_of_occurs (p := .ring c)
    (List.countP_pos_iff.mpr ⟨sqe, entry, by simp [tag]⟩).ne'

theorem read_owner (inv : RequestsPlaced s) {o : Nat} {op : BaseRead} (read : s.reads o = some op) :
    ∃ r, s.request op.req = some r ∧ r.type = .read :=
  inv.suits_of_occurs (p := .baseRead o) (by simp [State.occurrences, read])

theorem dataFlush_owner (inv : RequestsPlaced s) {o : Nat} {op : BaseFlush} {id : ReqId}
    (flush : s.flushes o = some op) (cb : op.cb = .data id) :
    ∃ r, s.request id = some r ∧ r.type = .flush :=
  inv.suits_of_occurs (p := .dataFlush o) (by simp [State.occurrences, flush, cb])

theorem metadataFlush_owner (inv : RequestsPlaced s) {o : Nat} {op : BaseFlush} {id : ReqId}
    (flush : s.flushes o = some op) (cb : op.cb = .metadata id) :
    ∃ r, s.request id = some r ∧ r.type = .flush :=
  inv.suits_of_occurs (p := .metadataFlush o) (by simp [State.occurrences, flush, cb])

end RequestsPlaced

theorem RequestsPlaced.writing_uncompleted (inv : RequestsPlaced s) {o : Nat} {op : BaseWrite}
    {id : ReqId} (write : s.writes o = some op) (cb : op.cb = .io id) (ok : Bool) :
    .completed id ok ∉ s.log := by
  intro logged
  have place := (inv.at_completed logged).eq_some (x := .baseWrite o)
    (by simp [State.occurrences, write, cb])
  cases place

/-- A WRITE completes with success when its base write does. -/
theorem write_completed_act (inv : RequestsPlaced s) (act : Act dev s l t) {id : ReqId}
    {r : Request} (known : s.request id = some r) (type : r.type = .write)
    (after : .completed id true ∈ t.log) (before : .completed id true ∉ s.log) :
    ∃ o op, s.writes o = some op ∧ op.cb = .io id ∧ t.disk = s.disk.settle op.landed ∧
      ∀ b, op.startBlock ≤ b → b < op.startBlock + op.numBlocks → op.landed b ≠ none := by
  have ring {c sqe res rest id} (first : (s.channel c).cqes = ⟨sqe, res⟩ :: rest)
      (tag : sqe.userData = .bdevIo id) : ∃ r, s.request id = some r ∧ r.type = .read :=
    inv.ring_owner (c := c) (by simp [State.ringEntries, first]) tag
  have read := @inv.read_owner
  have data := @inv.dataFlush_owner
  have metadata := @inv.metadataFlush_owner
  clear inv
  cases act <;> first | exact absurd after before | grind -linarith

theorem new_uncompleted (inv : RequestsPlaced s) (act : Act dev s l t) {id : ReqId} {r : Request}
    (unknown : s.request id = none) (known : t.request id = some r) :
    .completed id true ∉ t.log := by
  have uncompleted := inv.unknown_uncompleted unknown true
  clear inv
  cases act <;> grind -linarith

theorem known_of_completed (inv : RequestsPlaced s) (act : Act dev s l t) {id : ReqId} {r : Request}
    (done : .completed id true ∈ t.log) (known : t.request id = some r) :
    s.request id = some r := by
  cases before : s.request id with
  | none => exact absurd done (new_uncompleted inv act before known)
  | some r' => exact (act_request act before).symm.trans known

/-- What precedes the submission of a known request does not change. -/
theorem submission_frozen (act : Act dev s l t) {id : ReqId} (known : s.request id ≠ none) {e : Obs}
    (h : Before e (.submitted id) t.log) : Before e (.submitted id) s.log := by
  cases act <;> first | exact h | grind -linarith [before_cons]

/-- The history grows as that of a register with concurrent writers. -/
theorem grows_act (inv : RequestsPlaced s) (act : Act dev s l t) :
    Grows Obs.submitted (Obs.completed · true) (WritesBlock B s) (WritesBlock B t) s.log t.log where
  kept := by
    rintro id ⟨r, known, rest⟩
    exact ⟨r, act_request act known, rest⟩
  fresh := by
    rintro id ⟨r, known, rest⟩ new done
    exact new ⟨r, known_of_completed inv act done known, rest⟩
  frozen := by
    rintro id ⟨r, known, _⟩ e
    exact submission_frozen act (by simp [known])
  older := (act_log act).subset

/-- Block `B` as a register: the WRITEs that made its versions, and their data. -/
structure BlockLedger (dev : UbiBdev) (B first : Nat) (maker : Nat → ReqId) (s : State) : Prop where
  ledger : Ledger Obs.submitted (Obs.completed · true) (WritesBlock B s) s.log first
    (s.disk.settled (dev.dataBlock B)) (s.disk.latest (dev.dataBlock B)) maker
  data : ∀ v, first < v → v ≤ s.disk.latest (dev.dataBlock B) →
    ∀ r, s.request (maker v) = some r → ∀ a, s.disk.version (dev.dataBlock B) v a =
      r.data (a - (r.offsetBlocks + dev.dataOffsetBlocks) * dev.blocklen)
  landed : ∀ o op id v, s.writes o = some op → op.cb = .io id →
    op.landed (dev.dataBlock B) = some v → first < v ∧ maker v = id

variable {first : Nat} {maker : Nat → ReqId}

theorem BlockLedger.ended (before : BlockLedger dev B first maker s) (writes : WritesMatch dev s)
    (requests : RequestsPlaced s) (act : Act dev s l t) {id : ReqId} (rel : WritesBlock B s id)
    (done : .completed id true ∈ t.log) (new : .completed id true ∉ s.log) :
    ∃ v, first < v ∧ v ≤ t.disk.settled (dev.dataBlock B) ∧ maker v = id := by
  obtain ⟨r, known, type, covers⟩ := rel
  obtain ⟨o, op, write, cb, disk, all⟩ := write_completed_act requests act known type done new
  obtain ⟨r', known', _, start, blocks, _⟩ := (writes o op write).io id cb
  obtain rfl : r = r' := Option.some.inj (known.symm.trans known')
  have range : op.startBlock ≤ dev.dataBlock B ∧
      dev.dataBlock B < op.startBlock + op.numBlocks := by
    rw [start, blocks]
    obtain ⟨low, high⟩ := covers
    simp only [UbiBdev.dataBlock]
    omega
  obtain ⟨v, landed⟩ := Option.ne_none_iff_exists'.mp (all _ range.1 range.2)
  obtain ⟨low, made⟩ := before.landed o op id v write cb landed
  have high := ((writes o op write).landed _ v landed).2.2
  refine ⟨v, low, ?_, made⟩
  rw [disk]
  simp only [Disk.settle, landed, Option.getD_some]
  omega

theorem BlockLedger.frame (before : BlockLedger dev B first maker s) (writes : WritesMatch dev s)
    (requests : RequestsPlaced s) (act : Act dev s l t)
    (kept : t.disk.latest (dev.dataBlock B) = s.disk.latest (dev.dataBlock B)) :
    BlockLedger dev B first maker t where
  ledger := by
    have bound := t.disk.settled_le (dev.dataBlock B)
    rw [kept] at bound ⊢
    exact before.ledger.grow (grows_act requests act) (settled_mono act _) bound
      fun id rel done new => before.ended writes requests act rel done new
  data v low high r known a := by
    rw [kept] at high
    obtain ⟨r', known', _⟩ := before.ledger.made v low high
    obtain rfl : r' = r := Option.some.inj ((act_request act known').symm.trans known)
    rw [version_kept act high]
    exact before.data v low high r' known' a
  landed o op' id v write' cb' made := by
    cases write_origin act write' with
    | old op write cb _ _ _ _ landed =>
        rcases landed _ v made with old | ⟨_, _, data, _, disk⟩
        · exact before.landed o op id v write (cb.symm.trans cb') old
        · rw [disk, Disk.latest_write, if_pos rfl] at kept
          omega
    | new _ _ _ unlanded => simp [unlanded] at made

theorem supports_act (settled : ∀ x, init x = .notFetched ∨ init x = .fetched)
    (sup : Supports dev init s) (split : SplitAtStripes dev s l) (faultless : Faultless dev t.log)
    (act : Act dev s l t) : Supports dev init t :=
  ⟨lifecycle_act settled sup.life faultless.issued act, writesMatch_act sup.writes act,
    shaped_act sup.shaped split act, fetchData_act sup.life.placed sup.data faultless act⟩

theorem supports_created {base : Bytes} (created : Created dev base s) :
    Supports dev s.stripeStatus s := by
  refine ⟨lifecycle_created created, writesMatch_created created, ?_, ?_⟩ <;>
    obtain ⟨table, _, rfl⟩ := created
  · simp [Shaped, newState]
  · constructor <;> simp [newState, newChannel]

/-- The initial value of block `B` is version `first`: what the base bdev held if the
stripe was fetched at the start, what the fetch brings if not. -/
def Starts (dev : UbiBdev) (B first : Nat) (s : State) : Prop :=
  (first = 0 ∧ s.stripeStatus (dev.stripeOf B) = .fetched) ∨ (first = 1 ∧ FetchedBlock dev B s)

theorem starts_act (sup : Supports dev init s) (block : ImageBlock dev B)
    (before : Starts dev B first s) (faultless : Faultless dev t.log) (act : Act dev s l t) :
    Starts dev B first t := by
  rcases before with ⟨zero, fetched⟩ | ⟨one, before⟩
  · have final := (statusStep_act sup.life.placed faultless.issued act (dev.stripeOf B)).final
    exact .inl ⟨zero, (final (.inl fetched)).trans fetched⟩
  · exact .inr ⟨one, fetchedBlock_act sup block before faultless act⟩

theorem Starts.le_of_fetched (starts : Starts dev B first s)
    (fetched : s.stripeStatus (dev.stripeOf B) = .fetched) :
    first ≤ s.disk.latest (dev.dataBlock B) := by
  rcases starts with ⟨rfl, _⟩ | ⟨rfl, block⟩
  · exact Nat.zero_le _
  · exact block.fetched fetched

/-- The base write of the stripe takes effect while the block has no value of its own. -/
theorem Starts.lt_of_landing (starts : Starts dev B first s) (sup : Supports dev init s)
    (block : ImageBlock dev B) {o : Nat} {op : BaseWrite} {c : ChId} {k : Nat}
    (write : s.writes o = some op) (cb : op.cb = .stripe c k)
    (slot : (s.slot c k).stripeIdx = dev.stripeOf B)
    (sampled : op.sampled (dev.dataBlock B) ≠ none) (new : op.landed (dev.dataBlock B) = none) :
    s.disk.latest (dev.dataBlock B) < first := by
  have inflight := sup.life.placed.inflight_of_active (sup.life.placed.active_of_write write cb)
  rw [slot] at inflight
  rcases starts with ⟨_, fetched⟩ | ⟨rfl, before⟩
  · simp [inflight] at fetched
  · rw [(before.first_of_landing sup block write sampled new (by simp [inflight])).1]
    exact Nat.zero_lt_one

theorem BlockLedger.land (before : BlockLedger dev B first maker s) (sup : Supports dev init s)
    (block : ImageBlock dev B) (starts : Starts dev B first s) {o : Nat} {op : BaseWrite}
    {data : Bytes} (write : s.writes o = some op)
    (sample : op.sampled (dev.dataBlock B) = some data)
    (new : op.landed (dev.dataBlock B) = none)
    (disk : t.disk = s.disk.write (dev.dataBlock B) data)
    (writes : t.writes = Function.update s.writes o (some { op with
      landed := Function.update op.landed (dev.dataBlock B)
        (some (s.disk.latest (dev.dataBlock B) + 1)) }))
    (request : t.request = s.request) (log : t.log = s.log) :
    ∃ maker', BlockLedger dev B first maker' t ∧
      ∀ v, v ≤ s.disk.latest (dev.dataBlock B) → maker' v = maker v := by
  have latest : t.disk.latest (dev.dataBlock B) = s.disk.latest (dev.dataBlock B) + 1 := by
    rw [disk, Disk.latest_write, if_pos rfl]
  have older {v : Nat} (h : v ≤ s.disk.latest (dev.dataBlock B)) :
      t.disk.version (dev.dataBlock B) v = s.disk.version (dev.dataBlock B) v := by
    rw [disk]
    exact Disk.version_write_of_le _ _ h
  have rel : WritesBlock B t = WritesBlock B s := by unfold WritesBlock; rw [request]
  have settled : t.disk.settled = s.disk.settled := by rw [disk]; rfl
  have others {o' : Nat} {op' : BaseWrite} {id : ReqId} {v : Nat} (other : o' ≠ o)
      (write' : t.writes o' = some op') (cb : op'.cb = .io id)
      (made : op'.landed (dev.dataBlock B) = some v) :
      first < v ∧ maker v = id ∧ v ≤ s.disk.latest (dev.dataBlock B) := by
    rw [writes, Function.update_of_ne other] at write'
    obtain ⟨low, maker⟩ := before.landed o' op' id v write' cb made
    exact ⟨low, maker, ((sup.writes o' op' write').landed _ v made).2.2⟩
  rcases writer_of_sampled (B := B) sup.life.placed sup.writes write (by simp [sample]) with
    ⟨id, r, cb, known, type, covers, taken⟩ | ⟨c, k, cb, slot⟩
  · have pending := sup.life.requests.writing_uncompleted write cb true
    have low := starts.le_of_fetched
      (fetched_of_writing sup.life.gated sup.shaped block write cb known type covers)
    refine ⟨Function.update maker (s.disk.latest (dev.dataBlock B) + 1) id, ⟨?_, ?_, ?_⟩,
      fun v h => Function.update_of_ne (by omega) _ _⟩
    · rw [rel, log, settled, latest]
      exact before.ledger.write ⟨r, known, type, covers⟩ pending
    · intro v first' high r' known' a
      rw [latest] at high
      rw [request] at known'
      by_cases now : v = s.disk.latest (dev.dataBlock B) + 1
      · subst now
        rw [Function.update_self, known, Option.some.injEq] at known'
        subst known'
        rw [disk, Disk.version_write_latest]
        exact taken data sample a
      · rw [Function.update_of_ne now] at known'
        rw [older (by omega)]
        exact before.data v first' (by omega) r' known' a
    · intro o' op' id' v write' cb' made
      by_cases same : o' = o
      · subst same
        rw [writes, Function.update_self, Option.some.injEq] at write'
        subst write'
        simp only [Function.update_self, Option.some.injEq] at made
        subst made
        rw [Function.update_self]
        exact ⟨by omega, WriteCb.io.inj (cb.symm.trans cb')⟩
      · obtain ⟨first', made', high⟩ := others same write' cb' made
        exact ⟨first', by rwa [Function.update_of_ne (by omega)]⟩
  · have early := starts.lt_of_landing sup block write cb slot (by simp [sample]) new
    refine ⟨maker, ⟨?_, ?_, ?_⟩, fun _ _ => rfl⟩
    · rw [rel, log, settled, latest]
      exact before.ledger.raise early
    · intro v first' high
      omega
    · intro o' op' id' v write' cb' made
      by_cases same : o' = o
      · subst same
        rw [writes, Function.update_self, Option.some.injEq] at write'
        subst write'
        simp [cb] at cb'
      · obtain ⟨first', made', _⟩ := others same write' cb' made
        exact ⟨first', made'⟩

theorem blockLedger_act (sup : Supports dev init s) (block : ImageBlock dev B)
    (starts : Starts dev B first s) (before : BlockLedger dev B first maker s)
    (act : Act dev s l t) : ∃ maker', BlockLedger dev B first maker' t ∧
      ∀ v, v ≤ s.disk.latest (dev.dataBlock B) → maker' v = maker v := by
  have frame (kept : t.disk.latest (dev.dataBlock B) = s.disk.latest (dev.dataBlock B)) :
      ∃ maker', BlockLedger dev B first maker' t ∧
        ∀ v, v ≤ s.disk.latest (dev.dataBlock B) → maker' v = maker v :=
    ⟨maker, before.frame sup.writes sup.life.requests act kept, fun _ _ => rfl⟩
  cases act_writeEffect act with
  | stay _ kept | start _ _ _ _ _ kept => exact frame (by rw [kept.latest])
  | sample _ _ _ _ _ _ after => exact frame (by rw [after])
  | finish _ _ success _ _ _ _ settled => exact frame (by rw [settled]; split <;> rfl)
  | land o op b data write sample new after =>
      by_cases here : dev.dataBlock B = b
      · subst here
        exact before.land sup block starts write sample new (by rw [after]) (by rw [after])
          (by rw [after]) (by rw [after])
      · exact frame (by rw [after, Disk.latest_write, if_neg here])

/-- The number of the version that is a block's initial value, for a bdev that starts in
the given state. -/
def initialVersion (dev : UbiBdev) (s : State) (B : Nat) : Nat :=
  if s.stripeStatus (dev.stripeOf B) = .fetched then 0 else 1

theorem starts_created {base : Bytes} (created : Created dev base s) (B : Nat) :
    Starts dev B (initialVersion dev s B) s := by
  unfold initialVersion
  split
  · next fetched => exact .inl ⟨rfl, fetched⟩
  · next unfetched =>
      obtain ⟨table, _, rfl⟩ := created
      refine .inr ⟨rfl, fun _ => .inl rfl, fun fetched => absurd fetched unfetched, ?_⟩
      simp [newState, Disk.init]

theorem blockLedger_created {base : Bytes} (created : Created dev base s) (B first : Nat)
    (maker : Nat → ReqId) : BlockLedger dev B first maker s := by
  obtain ⟨table, _, rfl⟩ := created
  refine ⟨Ledger.empty (Nat.zero_le _) (Nat.zero_le _) maker, ?_, ?_⟩ <;>
    simp +contextual [newState, Disk.init]

end BdevUbi
