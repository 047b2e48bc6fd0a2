import BdevUbi.BlockLedger

/-!
What a READ returns. A READ of a fetched stripe finds the newest version of each block
on the base bdev, one of an unfetched stripe finds the image; in both cases the value
has not been superseded when the READ is submitted, whatever the other channels do
between submission, poll, buffer callback and completion.
-/

namespace BdevUbi
open VolatileDisk Placement History RegularRegister

variable {dev : UbiBdev} {s t : State} {l : Label} {p : Nat}

theorem covers_iff {r : Request} : r.Covers dev p ↔ r.CoversBlock (p / dev.blocklen) := by
  rw [Request.Covers, Request.CoversBlock, Nat.le_div_iff_mul_le dev.blocklen_pos,
    Nat.div_lt_iff_lt_mul dev.blocklen_pos]

theorem byte_address {r : Request} (covers : r.Covers dev p) :
    (r.offsetBlocks + dev.dataOffsetBlocks) * dev.blocklen + (p - r.offsetBlocks * dev.blocklen) =
      ubiMetadataSize + p := by
  have low := covers.1
  rw [Nat.add_mul, dev.dataOffset_bytes]
  omega

def WritesByte (dev : UbiBdev) (p : Nat) (s : State) (id : ReqId) : Prop :=
  ∃ r, s.request id = some r ∧ r.type = .write ∧ r.Covers dev p

theorem writesByte_eq : WritesByte dev p s = WritesBlock (p / dev.blocklen) s := by
  unfold WritesByte WritesBlock
  simp only [covers_iff]

/-- Byte `p` is `byte` in the source: the data of a WRITE, or the initial value. -/
def Supplies (dev : UbiBdev) (s : State) (p : Nat) (initial byte : UInt8) : Option ReqId → Prop
  | none => byte = initial
  | some w => ∃ r, s.request w = some r ∧ r.type = .write ∧ r.Covers dev p ∧
      byte = r.data (p - r.offsetBlocks * dev.blocklen)

/-- A WRITE to byte `p` was submitted after the source had completed, and it completed
before the READ was submitted. -/
def SupersededFor (dev : UbiBdev) (s : State) (p : Nat) (rd : ReqId) : Option ReqId → Prop :=
  Superseded Obs.submitted (Obs.completed · true) (WritesByte dev p s) s.log (.submitted rd)

/-- A READ may return `byte` for byte `p`. -/
def Regular (dev : UbiBdev) (s : State) (p : Nat) (initial : UInt8) (rd : ReqId) (byte : UInt8) :
    Prop :=
  ∃ src, Supplies dev s p initial byte src ∧ ¬ SupersededFor dev s p rd src

theorem supplies_act (act : Act dev s l t) {initial byte : UInt8} {src : Option ReqId}
    (h : Supplies dev s p initial byte src) : Supplies dev t p initial byte src := by
  cases src with
  | none => exact h
  | some w =>
      obtain ⟨r, known, rest⟩ := h
      exact ⟨r, act_request act known, rest⟩

theorem supersededFor_act (inv : RequestsPlaced s) (act : Act dev s l t) {rd : ReqId}
    (known : s.request rd ≠ none) {src : Option ReqId} (stands : ¬ SupersededFor dev s p rd src) :
    ¬ SupersededFor dev t p rd src := by
  unfold SupersededFor at stands ⊢
  rw [writesByte_eq] at stands ⊢
  exact not_superseded_grow (grows_act inv act) (fun _ => submission_frozen act known) stands

theorem regular_act (inv : RequestsPlaced s) (act : Act dev s l t) {initial byte : UInt8}
    {rd : ReqId} (known : s.request rd ≠ none) (h : Regular dev s p initial rd byte) :
    Regular dev t p initial rd byte := by
  obtain ⟨src, supplies, stands⟩ := h
  exact ⟨src, supplies_act act supplies, supersededFor_act inv act known stands⟩

/-- Where an outstanding base read comes from. -/
inductive ReadOrigin (dev : UbiBdev) (s t : State) (o : Nat) (op' : BaseRead) : Prop
  | old (op : BaseRead) (read : s.reads o = some op) (req : op'.req = op.req)
      (start : op'.startBlock = op.startBlock) (blocks : op'.numBlocks = op.numBlocks)
      (done : ∀ b, op'.done b = true → op.done b = true ∨
        ∀ i, (op.startBlock * dev.blocklen + i) / dev.blocklen = b →
          t.buffer op.req i = s.content dev (op.startBlock * dev.blocklen + i))
  | new (r : Request) (wait : s.waiting op'.req = true) (known : s.request op'.req = some r)
      (gate : r.gate dev s = some .fetched ∨ dev.imageBlockCount ≤ r.offsetBlocks)
      (start : op'.startBlock = r.offsetBlocks + dev.dataOffsetBlocks)
      (blocks : op'.numBlocks = r.numBlocks) (unread : op'.done = fun _ => false)

theorem read_origin (act : Act dev s l t) {o : Nat} {op' : BaseRead} (h : t.reads o = some op') :
    ReadOrigin dev s t o op' := by
  have old (h : s.reads o = some op') : ReadOrigin dev s t o op' :=
    .old op' h rfl rfl rfl fun _ => .inl
  cases act with
  | @baseReadStarted id r wait known gate fits =>
      by_cases same : o = s.nextRead
      · subst same
        simp only [Function.update_self, Option.some.injEq] at h
        subst h
        exact .new r wait known gate rfl rfl rfl
      · exact old (by simpa [same] using h)
  | @transferred o' op b read range new =>
      by_cases same : o = o'
      · subst same
        simp only [Function.update_self, Option.some.injEq] at h
        subst h
        refine .old op read rfl rfl rfl fun b' done => ?_
        by_cases here : b' = b
        · subst here
          exact .inr fun i at_i => by simp [at_i]
        · exact .inl (by simpa [here] using done)
      · exact old (by simpa [same] using h)
  | @readDone o' op success read all =>
      by_cases same : o = o'
      · simp [same] at h
      · exact old (by simpa [same] using h)
  | _ => exact old h

theorem waiting_owner (inv : RequestsPlaced s) {id : ReqId} (wait : s.waiting id = true) :
    ∃ r, s.request id = some r ∧ r.type = .read :=
  inv.suits_of_occurs (p := .buffer) (by simp [State.occurrences, wait])

/-- A byte of a buffer changes only when the kernel fills the buffer or when a base read
transfers the block it belongs to. -/
theorem buffer_kept (act : Act dev s l t) {id : ReqId} {i : Nat} (known : s.request id ≠ none)
    (unsubmitted : ∀ c sqe, sqe ∈ (s.channel c).submitted → sqe.userData ≠ .bdevIo id)
    (transferred : ∀ o op, s.reads o = some op → op.req = id →
      op.done ((op.startBlock * dev.blocklen + i) / dev.blocklen) = true) :
    t.buffer id i = s.buffer id i := by
  have other {j : ReqId} {buf : Bytes} (h : id ≠ j) :
      Function.update s.buffer j buf id i = s.buffer id i := by rw [Function.update_of_ne h]
  cases act with
  | submitSpanning new | submitFetching new | submitQueued new =>
      exact other (by rintro rfl; exact known new)
  | uringRead entry tag =>
      exact other (by rintro rfl; exact unsubmitted _ _ (List.mem_of_getElem? entry) tag)
  | @transferred o op b read range new =>
      by_cases same : id = op.req
      · have elsewhere : (op.startBlock * dev.blocklen + i) / dev.blocklen ≠ b := by
          rintro rfl
          simp [transferred o op read same.symm] at new
        simp [same, elsewhere]
      · exact other same
  | _ => rfl

theorem entry_origin (act : Act dev s l t) {c : ChId} {sqe : Sqe} {id : ReqId}
    (entry : sqe ∈ t.ringEntries c) (tag : sqe.userData = .bdevIo id) :
    sqe ∈ s.ringEntries c ∨ ∃ r status, s.waiting id = true ∧ s.request id = some r ∧
      r.gate dev s = some status ∧ status ≠ .fetched ∧ sqe = imageReadSqe dev id r := by
  simp only [State.ringEntries, List.mem_append, List.mem_map] at entry ⊢
  cases act with
  | @imageReadPrepared j r status wait req gate unfetched image room =>
      by_cases prepared : sqe = imageReadSqe dev j r
      · obtain rfl : j = id := by simpa [prepared, imageReadSqe] using tag
        exact .inr ⟨r, status, wait, req, gate, unfetched, prepared⟩
      · grind -linarith
  | _ => first
      | exact .inl entry
      | grind -linarith [List.mem_of_mem_eraseIdx, stripeSqe]

theorem cqe_origin (act : Act dev s l t) {c : ChId} {cqe : Cqe}
    (done : cqe ∈ (t.channel c).cqes) :
    cqe ∈ (s.channel c).cqes ∨ (cqe.sqe ∈ (s.channel c).submitted ∧
      ∀ id, cqe.sqe.userData = .bdevIo id →
        t.buffer id = fillFromImage dev cqe.sqe cqe.res.toNat (s.buffer id)) := by
  cases act <;> first
    | exact .inl done
    | grind -linarith [List.mem_of_getElem?]

namespace RequestsPlaced

theorem not_submitted (inv : RequestsPlaced s) {id : ReqId} {q : Place}
    (here : s.occurrences id q ≠ 0) (other : ∀ c, q ≠ .ring c) (c : ChId) (sqe : Sqe)
    (entry : sqe ∈ (s.channel c).submitted) : sqe.userData ≠ .bdevIo id := by
  intro tag
  have there : s.occurrences id (.ring c) ≠ 0 :=
    (List.countP_pos_iff.mpr ⟨sqe, by simp [State.ringEntries, entry], by simp [tag]⟩).ne'
  exact other c (inv.place_unique here there)

theorem not_reading (inv : RequestsPlaced s) {id : ReqId} {q : Place}
    (here : s.occurrences id q ≠ 0) {o : Nat} (other : q ≠ .baseRead o) {op : BaseRead}
    (read : s.reads o = some op) : op.req ≠ id := by
  intro req
  exact other (inv.place_unique here (by simp [State.occurrences, read, req]))

theorem not_submitted_of_cqe (inv : RequestsPlaced s) {id : ReqId} {c : ChId} {cqe : Cqe}
    (done : cqe ∈ (s.channel c).cqes) (tag : cqe.sqe.userData = .bdevIo id) (d : ChId) (sqe : Sqe)
    (entry : sqe ∈ (s.channel d).submitted) : sqe.userData ≠ .bdevIo id := by
  intro tag'
  have first : 0 < ((s.channel c).cqes.map Cqe.sqe).countP fun e => e.userData == .bdevIo id :=
    List.countP_pos_iff.mpr ⟨cqe.sqe, List.mem_map_of_mem done, by simp [tag]⟩
  have second : 0 < (s.channel d).submitted.countP fun e => e.userData == .bdevIo id :=
    List.countP_pos_iff.mpr ⟨sqe, entry, by simp [tag']⟩
  have here : s.occurrences id (.ring c) ≠ 0 := by
    simp only [State.occurrences, State.ringEntries, List.countP_append]
    omega
  have there : s.occurrences id (.ring d) ≠ 0 := by
    simp only [State.occurrences, State.ringEntries, List.countP_append]
    omega
  cases inv.place_unique here there
  obtain ⟨loc, placed⟩ := inv.placed id
  have once : s.occurrences id (.ring c) ≤ 1 := by rw [placed.counts]; split <;> omega
  simp only [State.occurrences, State.ringEntries, List.countP_append] at once
  omega

/-- The kernel is done with the buffer of an image read it has posted. -/
theorem buffer_kept_of_cqe (inv : RequestsPlaced s) (act : Act dev s l t) {id : ReqId} {c : ChId}
    {cqe : Cqe} (done : cqe ∈ (s.channel c).cqes) (tag : cqe.sqe.userData = .bdevIo id) {i : Nat} :
    t.buffer id i = s.buffer id i := by
  have entry := State.mem_ringEntries_of_cqe done
  have here : s.occurrences id (.ring c) ≠ 0 :=
    (List.countP_pos_iff.mpr ⟨cqe.sqe, entry, by simp [tag]⟩).ne'
  obtain ⟨r, known, _⟩ := inv.ring_owner entry tag
  exact buffer_kept act (by simp [known]) (inv.not_submitted_of_cqe done tag)
    fun o op read req => absurd req (inv.not_reading here (by simp) read)

theorem buffer_kept_of_completed (inv : RequestsPlaced s) (act : Act dev s l t) {id : ReqId}
    {ok : Bool} (done : .completed id ok ∈ s.log) {i : Nat} : t.buffer id i = s.buffer id i := by
  have here : s.occurrences id .completed ≠ 0 := by simp [(inv.at_completed done).eq_one]
  have known : s.request id ≠ none := fun new => inv.unknown_uncompleted new ok done
  exact buffer_kept act known (inv.not_submitted here (by simp))
    fun o op read req => absurd req (inv.not_reading here (by simp) read)

end RequestsPlaced

theorem read_completed_act (inv : RequestsPlaced s) (act : Act dev s l t) {id : ReqId}
    {r : Request} (known : s.request id = some r) (type : r.type = .read)
    (after : .completed id true ∈ t.log) (before : .completed id true ∉ s.log) :
    t.buffer = s.buffer ∧ (∀ e ∈ s.log, Before e (.completed id true) t.log) ∧
    ((∃ o op, s.reads o = some op ∧ op.req = id ∧
        ∀ b, op.startBlock ≤ b → b < op.startBlock + op.numBlocks → op.done b = true) ∨
      ∃ c sqe res, ⟨sqe, res⟩ ∈ (s.channel c).cqes ∧ sqe.userData = .bdevIo id ∧ 0 ≤ res ∧
        .readCqe id sqe res ∈ t.log) := by
  have writing {o op j} (write : s.writes o = some op) (cb : op.cb = .io j) :
      ∃ r, s.request j = some r ∧ r.type = .write :=
    inv.suits_of_occurs (p := .baseWrite o) (by simp [State.occurrences, write, cb])
  have data := @inv.dataFlush_owner
  have metadata := @inv.metadataFlush_owner
  clear inv
  cases act with
  | @imageReadDone c j sqe res rest first tag =>
      obtain ⟨rfl, good⟩ : id = j ∧ 0 ≤ res := by simpa [before] using after
      refine ⟨rfl, fun e older => ?_, .inr ⟨c, sqe, res, by simp [first], tag, good, by simp⟩⟩
      simp [good, older]
  | @readDone o op success read all =>
      obtain ⟨rfl, good⟩ : id = op.req ∧ success = true := by simpa [before, eq_comm] using after
      exact ⟨rfl, fun e older => by simp [good, older], .inl ⟨o, op, read, rfl, all good⟩⟩
  | _ => first | exact absurd after before | grind -linarith

theorem submitted_act (before : ∀ id r, s.request id = some r → .submitted id ∈ s.log)
    (act : Act dev s l t) (id : ReqId) (r : Request) (known : t.request id = some r) :
    .submitted id ∈ t.log := by
  rcases request_origin act known with old | ⟨c, rfl⟩
  · exact (act_log act).subset (before id r old)
  · cases act <;> simp

theorem submitted_reach {base : Bytes} {s₀ : State} {allowed : State → Event → Prop}
    (created : Created dev base s₀) (run : Reach dev allowed s₀ s) (id : ReqId) (r : Request) :
    s.request id = some r → .submitted id ∈ s.log := by
  obtain ⟨table, _, rfl⟩ := created
  exact reach_invariant (P := fun s => ∀ id r, s.request id = some r → .submitted id ∈ s.log)
    (fun before act => submitted_act before act) run (by simp [newState]) id r

/-- What the READs of byte `p` have found so far. -/
structure ReadsRegular (dev : UbiBdev) (p : Nat) (initial : UInt8) (s : State) : Prop where
  base : ∀ o op r, s.reads o = some op → s.request op.req = some r → r.Covers dev p →
    (op.startBlock = r.offsetBlocks + dev.dataOffsetBlocks ∧ op.numBlocks = r.numBlocks) ∧
    s.stripeStatus (dev.stripeOf (p / dev.blocklen)) = .fetched ∧
    (op.done (dev.dataBlock (p / dev.blocklen)) = true →
      Regular dev s p initial op.req (s.buffer op.req (p - r.offsetBlocks * dev.blocklen)))
  ring : ∀ c sqe id r, sqe ∈ s.ringEntries c → sqe.userData = .bdevIo id →
    s.request id = some r → r.Covers dev p →
    p < dev.imageSize ∧ sqe = imageReadSqe dev id r ∧ Regular dev s p initial id (dev.image p)
  filled : ∀ c cqe id, cqe ∈ (s.channel c).cqes → cqe.sqe.userData = .bdevIo id →
    ∀ i, i < cqe.res.toNat → s.buffer id i = dev.image (cqe.sqe.offset + i)
  done : ∀ id r, .completed id true ∈ s.log → s.request id = some r → r.type = .read →
    r.Covers dev p → ∃ src,
      Supplies dev s p initial (s.buffer id (p - r.offsetBlocks * dev.blocklen)) src ∧
      (∀ w, src = some w → Before (.submitted w) (.completed id true) s.log) ∧
      ¬ SupersededFor dev s p id src

/-- Byte `p` of an image block, whose initial value is `initial`. -/
structure ByteInv (dev : UbiBdev) (init : Nat → StripeStatus) (first p : Nat) (initial : UInt8)
    (s : State) : Prop where
  sup : Supports dev init s
  starts : Starts dev (p / dev.blocklen) first s
  ledger : ∃ maker, BlockLedger dev (p / dev.blocklen) first maker s
  recorded : ∀ id r, s.request id = some r → .submitted id ∈ s.log
  zero : first = 0 →
    s.disk.version (dev.dataBlock (p / dev.blocklen)) 0 (ubiMetadataSize + p) = initial
  reads : ReadsRegular dev p initial s

namespace ByteInv

variable {init : Nat → StripeStatus} {first : Nat} {initial : UInt8}
  (inv : ByteInv dev init first p initial s) (block : ImageBlock dev (p / dev.blocklen))
  (one : first = 1 → p < dev.imageSize ∧ initial = dev.image p)

include inv one

theorem content_regular (fetched : s.stripeStatus (dev.stripeOf (p / dev.blocklen)) = .fetched)
    (rd : ReqId) : Regular dev s p initial rd (s.content dev (ubiMetadataSize + p)) := by
  obtain ⟨maker, ledger⟩ := inv.ledger
  refine ⟨source first maker (s.disk.latest (dev.dataBlock (p / dev.blocklen))), ?_, ?_⟩
  · rw [State.content, dev.base_block_of_byte, Disk.current, source]
    split
    · next later =>
        obtain ⟨r, known, type, covers⟩ := ledger.ledger.made _ later le_rfl
        refine ⟨r, known, type, covers_iff.mpr covers, ?_⟩
        rw [ledger.data _ later le_rfl r known]
        congr 1
        have := byte_address (covers_iff.mpr covers)
        omega
    · next early =>
        rcases inv.starts with ⟨rfl, _⟩ | ⟨rfl, block⟩
        · have none : s.disk.latest (dev.dataBlock (p / dev.blocklen)) = 0 := by omega
          rw [none]
          exact inv.zero rfl
        · have made := block.fetched fetched
          have newest : s.disk.latest (dev.dataBlock (p / dev.blocklen)) = 1 := by omega
          obtain ⟨image, start⟩ := one rfl
          rw [newest, block.image p image rfl made]
          exact start.symm
  · unfold SupersededFor
    rw [writesByte_eq]
    exact ledger.ledger.latest_stands _

theorem image_regular (unfetched : s.stripeStatus (dev.stripeOf (p / dev.blocklen)) ≠ .fetched)
    (rd : ReqId) : p < dev.imageSize ∧ Regular dev s p initial rd (dev.image p) := by
  obtain ⟨maker, ledger⟩ := inv.ledger
  rcases inv.starts with ⟨_, fetched⟩ | ⟨rfl, block⟩
  · exact absurd fetched unfetched
  obtain ⟨image, start⟩ := one rfl
  refine ⟨image, none, start.symm, ?_⟩
  unfold SupersededFor
  rw [writesByte_eq]
  rintro ⟨w, rel, _, before⟩
  -- a completed WRITE would have made a second version
  obtain ⟨v, low, high, _⟩ := ledger.ledger.finished w rel before.mem_left
  have settled := s.disk.settled_le (dev.dataBlock (p / dev.blocklen))
  rcases block.unfetched unfetched with zero | ⟨one, _⟩ <;> omega

omit one in
theorem transferred_kept (act : Act dev s l t) {o : Nat} {op : BaseRead} {r : Request}
    (read : s.reads o = some op) (known : s.request op.req = some r) (covers : r.Covers dev p)
    (done : op.done (dev.dataBlock (p / dev.blocklen)) = true) :
    t.buffer op.req (p - r.offsetBlocks * dev.blocklen) =
      s.buffer op.req (p - r.offsetBlocks * dev.blocklen) := by
  have here : s.occurrences op.req (.baseRead o) ≠ 0 := by simp [State.occurrences, read]
  refine buffer_kept act (by simp [known]) (inv.sup.life.requests.not_submitted here (by simp))
    fun o' op' read' req => ?_
  by_cases same : o = o'
  · subst same
    obtain rfl : op = op' := Option.some.inj (read.symm.trans read')
    obtain ⟨⟨start, _⟩, _⟩ := inv.reads.base o op r read known covers
    rw [start, byte_address covers, dev.base_block_of_byte]
    exact done
  · exact absurd req (inv.sup.life.requests.not_reading here (by simpa using same) read')

include block in
/-- A READ finds what the base bdev holds, block by block. -/
theorem base_act (act : Act dev s l t) (faultless : Faultless dev t.log) {o : Nat}
    {op' : BaseRead} {r : Request} (read' : t.reads o = some op')
    (known' : t.request op'.req = some r) (covers : r.Covers dev p) :
    (op'.startBlock = r.offsetBlocks + dev.dataOffsetBlocks ∧ op'.numBlocks = r.numBlocks) ∧
    t.stripeStatus (dev.stripeOf (p / dev.blocklen)) = .fetched ∧
    (op'.done (dev.dataBlock (p / dev.blocklen)) = true →
      Regular dev t p initial op'.req (t.buffer op'.req (p - r.offsetBlocks * dev.blocklen))) := by
  have requests := inv.sup.life.requests
  have kept (h : s.stripeStatus (dev.stripeOf (p / dev.blocklen)) = .fetched) :
      t.stripeStatus (dev.stripeOf (p / dev.blocklen)) = .fetched :=
    ((statusStep_act inv.sup.life.placed faultless.issued act _).final (.inl h)).trans h
  cases read_origin act read' with
  | old op read req start blocks done =>
      obtain ⟨r', known, _⟩ := requests.read_owner read
      rw [req] at known'
      obtain rfl : r' = r := Option.some.inj ((act_request act known).symm.trans known')
      obtain ⟨⟨start', blocks'⟩, fetched, before⟩ := inv.reads.base o op r' read known covers
      refine ⟨⟨start.trans start', blocks.trans blocks'⟩, kept fetched, fun now => ?_⟩
      rw [req]
      apply regular_act requests act (by simp [known])
      rcases done _ now with old | new
      · rw [inv.transferred_kept act read known covers old]
        exact before old
      · have address := byte_address covers
        rw [← start'] at address
        rw [new _ (by rw [address, dev.base_block_of_byte]), address]
        exact inv.content_regular one fetched op.req
  | new r' wait known gate start blocks unread =>
      obtain rfl : r' = r := Option.some.inj ((act_request act known).symm.trans known')
      obtain ⟨r'', known'', type⟩ := waiting_owner requests wait
      obtain rfl : r' = r'' := Option.some.inj (known.symm.trans known'')
      have covered := covers_iff.mp covers
      have image := block.image
      have gate := gate.resolve_right (by have := covered.1; omega)
      rw [gate_of_covers block (inv.sup.shaped _ _ known (.inl type)) covered] at gate
      exact ⟨⟨start, blocks⟩, kept (Option.some.inj gate), by simp [unread]⟩

include block in
theorem ring_act (act : Act dev s l t) {c : ChId} {sqe : Sqe} {id : ReqId} {r : Request}
    (entry : sqe ∈ t.ringEntries c) (tag : sqe.userData = .bdevIo id)
    (known' : t.request id = some r) (covers : r.Covers dev p) :
    p < dev.imageSize ∧ sqe = imageReadSqe dev id r ∧ Regular dev t p initial id (dev.image p) := by
  have requests := inv.sup.life.requests
  rcases entry_origin act entry tag with old | ⟨r', status, wait, known, gate, unfetched, sqe_eq⟩
  · obtain ⟨r', known, _⟩ := requests.ring_owner old tag
    obtain rfl : r' = r := Option.some.inj ((act_request act known).symm.trans known')
    obtain ⟨image, sqe_eq, regular⟩ := inv.reads.ring c sqe id r' old tag known covers
    exact ⟨image, sqe_eq, regular_act requests act (by simp [known]) regular⟩
  · obtain rfl : r' = r := Option.some.inj ((act_request act known).symm.trans known')
    obtain ⟨r'', known'', type⟩ := waiting_owner requests wait
    obtain rfl : r' = r'' := Option.some.inj (known.symm.trans known'')
    rw [gate_of_covers block (inv.sup.shaped _ _ known (.inl type)) (covers_iff.mp covers)] at gate
    obtain ⟨image, regular⟩ := inv.image_regular one (Option.some.inj gate ▸ unfetched) id
    exact ⟨image, sqe_eq, regular_act requests act (by simp [known]) regular⟩

omit one in
theorem filled_act (act : Act dev s l t) {c : ChId} {cqe : Cqe} {id : ReqId}
    (done : cqe ∈ (t.channel c).cqes) (tag : cqe.sqe.userData = .bdevIo id) (i : Nat)
    (bound : i < cqe.res.toNat) : t.buffer id i = dev.image (cqe.sqe.offset + i) := by
  rcases cqe_origin act done with old | ⟨_, fill⟩
  · rw [inv.sup.life.requests.buffer_kept_of_cqe act old tag]
    exact inv.reads.filled c cqe id old tag i bound
  · rw [fill id tag, fillFromImage, if_pos bound]

omit one in
theorem regular_of_completed (act : Act dev s l t) (faultless : Faultless dev t.log) {id : ReqId}
    {r : Request} (known : s.request id = some r) (type : r.type = .read)
    (covers : r.Covers dev p) (after : .completed id true ∈ t.log)
    (before : .completed id true ∉ s.log) :
    Regular dev s p initial id (s.buffer id (p - r.offsetBlocks * dev.blocklen)) := by
  have requests := inv.sup.life.requests
  have covered := covers_iff.mp covers
  obtain ⟨_, _, ⟨o, op, read, rfl, all⟩ | ⟨c, sqe, res, done, tag, good, logged⟩⟩ :=
    read_completed_act requests act known type after before
  · obtain ⟨⟨start, blocks⟩, _, regular⟩ := inv.reads.base o op r read known covers
    obtain ⟨low, high⟩ := covered
    refine regular (all _ ?_ ?_) <;> simp only [UbiBdev.dataBlock] <;> omega
  · have entry : sqe ∈ s.ringEntries c := State.mem_ringEntries_of_cqe done
    obtain ⟨image, rfl, regular⟩ := inv.reads.ring c sqe id r entry tag known covers
    have whole := (faultless _ logged).resolve_left (Int.not_lt.mpr good)
    obtain ⟨low, high⟩ := covers
    have here : p - r.offsetBlocks * dev.blocklen < res.toNat := by
      simp only [UbiBdev.available, imageReadSqe] at whole
      rw [Nat.add_mul] at high
      omega
    rw [inv.reads.filled c _ id done tag _ here]
    simpa [imageReadSqe, Nat.add_sub_cancel' low] using regular

omit one in
theorem done_act (act : Act dev s l t) (faultless : Faultless dev t.log) {id : ReqId} {r : Request}
    (after : .completed id true ∈ t.log) (known' : t.request id = some r) (type : r.type = .read)
    (covers : r.Covers dev p) : ∃ src,
      Supplies dev t p initial (t.buffer id (p - r.offsetBlocks * dev.blocklen)) src ∧
      (∀ w, src = some w → Before (.submitted w) (.completed id true) t.log) ∧
      ¬ SupersededFor dev t p id src := by
  have requests := inv.sup.life.requests
  have known := known_of_completed requests act after known'
  by_cases before : .completed id true ∈ s.log
  · obtain ⟨src, supplies, earlier, stands⟩ := inv.reads.done id r before known type covers
    rw [requests.buffer_kept_of_completed act before]
    exact ⟨src, supplies_act act supplies, fun w h => (earlier w h).suffix (act_log act),
      supersededFor_act requests act (by simp [known]) stands⟩
  · obtain ⟨buffer, older, _⟩ := read_completed_act requests act known type after before
    obtain ⟨src, supplies, stands⟩ :=
      inv.regular_of_completed act faultless known type covers after before
    refine ⟨src, ?_, ?_, supersededFor_act requests act (by simp [known]) stands⟩
    · rw [buffer]
      exact supplies_act act supplies
    · rintro w rfl
      obtain ⟨r', known', _⟩ := supplies
      exact older _ (inv.recorded w r' known')

end ByteInv

theorem byteInv_act {init : Nat → StripeStatus} {first : Nat} {initial : UInt8}
    (settled : ∀ x, init x = .notFetched ∨ init x = .fetched)
    (block : ImageBlock dev (p / dev.blocklen))
    (one : first = 1 → p < dev.imageSize ∧ initial = dev.image p)
    (inv : ByteInv dev init first p initial s) (split : SplitAtStripes dev s l)
    (faultless : Faultless dev t.log) (act : Act dev s l t) :
    ByteInv dev init first p initial t where
  sup := supports_act settled inv.sup split faultless act
  starts := starts_act inv.sup block inv.starts faultless act
  ledger := by
    obtain ⟨maker, ledger⟩ := inv.ledger
    obtain ⟨maker', ledger', _⟩ := blockLedger_act inv.sup block inv.starts ledger act
    exact ⟨maker', ledger'⟩
  recorded := submitted_act inv.recorded act
  zero h := by
    rw [version_kept act (Nat.zero_le _)]
    exact inv.zero h
  reads :=
    ⟨fun _ _ _ => inv.base_act block one act faultless, fun _ _ _ _ => inv.ring_act block one act,
      fun _ _ _ => inv.filled_act act, fun _ _ => inv.done_act act faultless⟩

/-- What byte `p` holds for a bdev that has just been created: the image's byte, or the
base bdev's if the metadata there says that the stripe is fetched. -/
def initialByte (dev : UbiBdev) (base : Bytes) (s₀ : State) (p : Nat) : UInt8 :=
  if s₀.stripeStatus (dev.stripeOf (p / dev.blocklen)) = .fetched then base (ubiMetadataSize + p)
  else dev.image p

theorem byteInv_created {base : Bytes} (created : Created dev base s) (p : Nat) :
    ByteInv dev s.stripeStatus (initialVersion dev s (p / dev.blocklen)) p
      (initialByte dev base s p) s where
  sup := supports_created created
  starts := starts_created created _
  ledger := ⟨fun _ => 0, blockLedger_created created _ _ _⟩
  recorded := by
    obtain ⟨table, _, rfl⟩ := created
    simp [newState]
  zero h := by
    unfold initialVersion at h
    unfold initialByte
    split at h
    · next fetched =>
        rw [if_pos fetched]
        obtain ⟨table, _, rfl⟩ := created
        rfl
    · simp at h
  reads := by
    obtain ⟨table, _, rfl⟩ := created
    constructor <;> simp [newState, newChannel, State.ringEntries]

theorem byteInv_reach {base : Bytes} {s₀ : State} (created : Created dev base s₀)
    (run : Reach dev (Permitted (SplitAtStripes dev)) s₀ s) (faultless : Faultless dev s.log)
    (block : ImageBlock dev (p / dev.blocklen))
    (image : s₀.stripeStatus (dev.stripeOf (p / dev.blocklen)) ≠ .fetched → p < dev.imageSize) :
    ByteInv dev s₀.stripeStatus (initialVersion dev s₀ (p / dev.blocklen)) p
      (initialByte dev base s₀ p) s := by
  refine reach_invariant_permitted (splitAtStripes_quiet dev) faultless_earlier
    (byteInv_act (created_settled created) block fun one => ?_) run (byteInv_created created p)
    faultless
  have unfetched : s₀.stripeStatus (dev.stripeOf (p / dev.blocklen)) ≠ .fetched := by
    intro fetched
    simp [initialVersion, fetched] at one
  exact ⟨image unfetched, if_neg unfetched⟩

theorem imageBlock_of_byte (stripes : dev.imageSize ≤ ubiMaxStripes * dev.stripeBytes)
    (image : p < dev.imageSize) : ImageBlock dev (p / dev.blocklen) := by
  refine ⟨dev.div_lt_imageBlockCount image, ?_⟩
  rw [UbiBdev.stripeOf, ← dev.div_stripeBytes]
  exact Nat.div_lt_of_lt_mul (by rw [Nat.mul_comm]; omega)

/-- A READ that completes with success returns, for every byte of the image, the value
of a WRITE that was submitted before the READ completed and is not superseded. -/
theorem read_returns_unsuperseded {base : Bytes} {s₀ : State} (created : Created dev base s₀)
    (run : Reach dev (Permitted (SplitAtStripes dev)) s₀ s) (faultless : Faultless dev s.log)
    (stripes : dev.imageSize ≤ ubiMaxStripes * dev.stripeBytes) (image : p < dev.imageSize)
    {rd : ReqId} {r : Request} (known : s.request rd = some r) (type : r.type = .read)
    (covers : r.Covers dev p) (done : .completed rd true ∈ s.log) :
    ∃ src, Supplies dev s p (initialByte dev base s₀ p)
        (s.buffer rd (p - r.offsetBlocks * dev.blocklen)) src ∧
      (∀ w, src = some w → Before (.submitted w) (.completed rd true) s.log) ∧
      ¬ SupersededFor dev s p rd src :=
  (byteInv_reach created run faultless (imageBlock_of_byte stripes image)
    fun _ => image).reads.done rd r done known type covers

def writeThenRead : List Event :=
  fetchFirst 65536 true ++ [.poll 0 .success, .sample 1 [128], .land 1 [128], .writeDone 1 true 0,
    .submit 0 1 ⟨.read, 0, 1, fun _ => 0⟩, .poll 0 .success, .transfer 0 [128], .readDone 0 true]

theorem read_returns_unsuperseded_writeThenRead :
    ∃ s, Reach (threeBlockBdev false) (Permitted (SplitAtStripes (threeBlockBdev false)))
        (blankState (threeBlockBdev false)) s ∧
      Obs.completed 1 true ∈ s.log ∧ s.buffer 1 9 = 5 ∧
      ∃ src, Supplies (threeBlockBdev false) s 9 7 (s.buffer 1 9) src ∧
        (∀ w, src = some w → Before (.submitted w) (.completed 1 true) s.log) ∧
        ¬ SupersededFor (threeBlockBdev false) s 9 1 src := by
  have ran : (Runs.exec (step (threeBlockBdev false)) (splitAtStripes (threeBlockBdev false))
      (blankState (threeBlockBdev false)) writeThenRead).any (fun s =>
        decide (Faultless (threeBlockBdev false) s.log ∧ Obs.completed 1 true ∈ s.log ∧
          s.buffer 1 9 = 5) &&
        (s.request 1).any fun r => decide (r.type = .read ∧ r.offsetBlocks = 0 ∧
          r.Covers (threeBlockBdev false) 9)) = true := by decide +kernel
  obtain ⟨s, run, test⟩ := Runs.exists_reach_of_exec (fun _ _ _ => splitAtStripes_sound _ _ _) ran
  simp only [Bool.and_eq_true, decide_eq_true_eq, Option.any_eq_true] at test
  obtain ⟨⟨faultless, done, five⟩, r, known, type, offset, covers⟩ := test
  have found := read_returns_unsuperseded (p := 9) (created_blankState _) run faultless (by decide)
    (by decide) known type covers done
  simp only [offset, Nat.zero_mul, Nat.sub_zero] at found
  exact ⟨s, run, done, five, found⟩

end BdevUbi
