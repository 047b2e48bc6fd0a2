import BdevUbi.System

/-!
What a step can do. Every event is a sequence of acts, and an act is one exit of
one function of the module or one move of a lower layer, with its guards and its
effect on the state written out. Invariants are proved once for each act;
`step_invariant` carries them to the events.
-/

namespace BdevUbi

namespace State

abbrev slot (s : State) (c : ChId) (k : Nat) : StripeFetch := (s.channel c).stripeFetches k

abbrev queue (s : State) (c : ChId) : CircularQueue Nat := (s.channel c).stripeFetchQueue

/-- The channels after `ubi_complete_io`: a READ is no longer counted as active. -/
def released (s : State) (id : ReqId) : ChId → UbiIoChannel :=
  match s.request id with
  | some r => if r.type = IoType.read then
      Function.update s.channel (s.bdevIo id).ubiCh
        { s.channel (s.bdevIo id).ubiCh with
          activeReads := decrement (s.channel (s.bdevIo id).ubiCh).activeReads }
    else s.channel
  | none => s.channel

variable (s : State) (id : ReqId) (c : ChId)

theorem released_eq : ∃ n, s.released id c = { s.channel c with activeReads := n } := by
  unfold released
  cases s.request id with
  | none => exact ⟨_, rfl⟩
  | some r =>
      by_cases read : r.type = .read
      · by_cases h : c = (s.bdevIo id).ubiCh
        · subst h
          exact ⟨_, by simp only [read, if_true, Function.update_self]; rfl⟩
        · exact ⟨(s.channel c).activeReads, by simp [read, h]⟩
      · exact ⟨(s.channel c).activeReads, by simp [read]⟩

@[simp, grind =] theorem released_stripeFetches :
    (s.released id c).stripeFetches = (s.channel c).stripeFetches := by
  obtain ⟨n, h⟩ := s.released_eq id c
  rw [h]

@[simp, grind =] theorem released_stripeFetchQueue :
    (s.released id c).stripeFetchQueue = (s.channel c).stripeFetchQueue := by
  obtain ⟨n, h⟩ := s.released_eq id c
  rw [h]

@[simp, grind =] theorem released_io : (s.released id c).io = (s.channel c).io := by
  obtain ⟨n, h⟩ := s.released_eq id c
  rw [h]

@[simp, grind =] theorem released_hasReads :
    (s.released id c).hasReads = (s.channel c).hasReads := by
  obtain ⟨n, h⟩ := s.released_eq id c
  rw [h]

@[simp, grind =] theorem released_sqes : (s.released id c).sqes = (s.channel c).sqes := by
  obtain ⟨n, h⟩ := s.released_eq id c
  rw [h]

@[simp, grind =] theorem released_submitted :
    (s.released id c).submitted = (s.channel c).submitted := by
  obtain ⟨n, h⟩ := s.released_eq id c
  rw [h]

@[simp, grind =] theorem released_cqes : (s.released id c).cqes = (s.channel c).cqes := by
  obtain ⟨n, h⟩ := s.released_eq id c
  rw [h]

theorem released_cqeSeen (rest : List Cqe) :
    (cqeSeen s c rest).released id =
      Function.update (s.released id) c { s.released id c with cqes := rest } := by
  unfold released cqeSeen setChannel
  cases s.request id with
  | none => rfl
  | some r =>
      by_cases read : r.type = .read
      · funext d
        grind
      · simp [read]

end State

theorem ubiCompleteIo_eq (s : State) (id : ReqId) (success : Bool) :
    ubiCompleteIo s id success =
      { s with channel := s.released id, log := .completed id success :: s.log } := by
  unfold ubiCompleteIo State.released
  cases s.request id with
  | none => rfl
  | some r => by_cases h : r.type = .read <;> simp [h, State.complete, State.emit, State.setChannel]

/-- A ring entry of channel `c` points at slot `k`. -/
def slotBusy (s : State) (c : ChId) (k : Nat) : Bool :=
  (s.ringEntries c).any fun sqe => sqe.userData == .stripeFetch k

def UbiBdev.stripeStart (dev : UbiBdev) (x : Nat) : Nat :=
  x * dev.stripeBlockCount + dev.dataOffsetBlocks

/-- The request may be served: its block is past the image, or its stripe is fetched,
or it reads an unfetched stripe without fetching it. -/
def Served (dev : UbiBdev) (s : State) (r : Request) : Prop :=
  r.offsetBlocks < dev.imageBlockCount →
    ubiGetStripeStatus s (toCInt (r.startStripe dev)) = some .fetched ∨
    (ubiGetStripeStatus s (toCInt (r.startStripe dev)) = some .notFetched ∧ r.type = .read ∧
      dev.copyOnRead = false)

inductive Label where
  | quiet
  | submit (c : ChId) (id : ReqId) (r : Request)
  | writeDone (o : Nat) (success : Bool)
  | flushDone (o : Nat) (success : Bool)

inductive Act (dev : UbiBdev) (s : State) : Label → State → Prop
  | fetchReadFailed {c k sqe res rest}
      (first : (s.channel c).cqes = ⟨sqe, res⟩ :: rest) (tag : sqe.userData = .stripeFetch k)
      (bad : res < 0) :
      Act dev s .quiet { s with
        channel := Function.update s.channel c { s.channel c with
          cqes := rest
          stripeFetches := Function.update (s.channel c).stripeFetches k
            { s.slot c k with active := false } }
        stripeStatus := Function.update s.stripeStatus (s.slot c k).stripeIdx .failed
        log := .setStatus (s.slot c k).stripeIdx .failed ::
          .fetchCqe c k sqe (s.slot c k).active (s.slot c k).stripeIdx res :: s.log }
  | fetchWriteRefused {c k sqe res rest}
      (first : (s.channel c).cqes = ⟨sqe, res⟩ :: rest) (tag : sqe.userData = .stripeFetch k)
      (good : 0 ≤ res) :
      Act dev s .quiet { s with
        channel := Function.update s.channel c { s.channel c with
          cqes := rest
          stripeFetches := Function.update (s.channel c).stripeFetches k
            { s.slot c k with active := false } }
        stripeStatus := Function.update s.stripeStatus (s.slot c k).stripeIdx .failed
        log := .setStatus (s.slot c k).stripeIdx .failed ::
          .stripeWrite (s.slot c k).stripeIdx false ::
          .fetchCqe c k sqe (s.slot c k).active (s.slot c k).stripeIdx res :: s.log }
  | fetchWriteStarted {c k sqe res rest}
      (first : (s.channel c).cqes = ⟨sqe, res⟩ :: rest) (tag : sqe.userData = .stripeFetch k)
      (good : 0 ≤ res)
      (fits : dev.stripeStart (s.slot c k).stripeIdx + dev.stripeBlockCount ≤ dev.blockcnt) :
      Act dev s .quiet { s with
        channel := Function.update s.channel c { s.channel c with cqes := rest }
        writes := Function.update s.writes s.nextWrite
          (some ⟨.stripe c k, dev.stripeStart (s.slot c k).stripeIdx, dev.stripeBlockCount,
            fun _ => none, fun _ => none⟩)
        nextWrite := s.nextWrite + 1
        log := .stripeWrite (s.slot c k).stripeIdx true ::
          .fetchCqe c k sqe (s.slot c k).active (s.slot c k).stripeIdx res :: s.log }
  | imageReadDone {c id sqe res rest}
      (first : (s.channel c).cqes = ⟨sqe, res⟩ :: rest) (tag : sqe.userData = .bdevIo id) :
      Act dev s .quiet { s with
        channel := Function.update (s.released id) c { s.released id c with cqes := rest }
        log := .completed id (decide (0 ≤ res)) :: .readCqe id sqe res :: s.log }
  | fetchStarted {c k} (some : (s.queue c).head ≠ (s.queue c).tail)
      (free : (s.slot c k).active = false) (slot : k < ubiMaxActiveStripeFetches)
      (room : (s.channel c).sqes.length < ubiUringQueueSize) :
      Act dev s .quiet { s with
        channel := Function.update s.channel c { s.channel c with
          stripeFetchQueue := (s.queue c).pop ubiFetchQueueSize
          stripeFetches := Function.update (s.channel c).stripeFetches k
            { s.slot c k with active := true, stripeIdx := (s.queue c).entries (s.queue c).head }
          sqes := []
          submitted := (s.channel c).submitted ++ ((s.channel c).sqes ++
            [stripeSqe dev k ((s.queue c).entries (s.queue c).head)]) }
        log := .fetchSubmit c k ((s.queue c).entries (s.queue c).head) true ::
          .assigned c k ((s.queue c).entries (s.queue c).head) (slotBusy s c k) ::
          .dequeued c ((s.queue c).entries (s.queue c).head) :: s.log }
  | fetchSubmitFailed {c k} (some : (s.queue c).head ≠ (s.queue c).tail)
      (free : (s.slot c k).active = false) (slot : k < ubiMaxActiveStripeFetches)
      (room : (s.channel c).sqes.length < ubiUringQueueSize) :
      Act dev s .quiet { s with
        channel := Function.update s.channel c { s.channel c with
          stripeFetchQueue := (s.queue c).pop ubiFetchQueueSize
          stripeFetches := Function.update (s.channel c).stripeFetches k
            { s.slot c k with active := false, stripeIdx := (s.queue c).entries (s.queue c).head }
          sqes := (s.channel c).sqes ++
            [stripeSqe dev k ((s.queue c).entries (s.queue c).head)] }
        stripeStatus := Function.update s.stripeStatus
          ((s.queue c).entries (s.queue c).head) .failed
        log := .setStatus ((s.queue c).entries (s.queue c).head) .failed ::
          .fetchSubmit c k ((s.queue c).entries (s.queue c).head) false ::
          .assigned c k ((s.queue c).entries (s.queue c).head) (slotBusy s c k) ::
          .dequeued c ((s.queue c).entries (s.queue c).head) :: s.log }
  | requestFailed {c id rest r} (first : (s.channel c).io = id :: rest)
      (req : s.request id = some r) (data : r.type ≠ .flush)
      (image : r.offsetBlocks < dev.imageBlockCount)
      (gate : ubiGetStripeStatus s (toCInt (r.startStripe dev)) = some .failed) :
      Act dev s .quiet { s with
        channel := Function.update s.channel c { s.channel c with io := rest }
        log := .completed id false :: .unqueued c id :: s.log }
  | bugTaken {c id rest r} (first : (s.channel c).io = id :: rest)
      (req : s.request id = some r) (data : r.type ≠ .flush)
      (image : r.offsetBlocks < dev.imageBlockCount)
      (gate : ubiGetStripeStatus s (toCInt (r.startStripe dev)) = some .notFetched)
      (fetch : r.type ≠ .read ∨ dev.copyOnRead = true) :
      Act dev s .quiet { s with
        channel := Function.update s.channel c { s.channel c with io := rest }
        log := .completed id false :: .bug id :: .unqueued c id :: s.log }
  | readDispatched {c id rest r} (first : (s.channel c).io = id :: rest)
      (req : s.request id = some r) (type : r.type = .read)
      (limit : (s.channel c).activeReads < ubiMaxConcurrentReads) (gate : Served dev s r) :
      Act dev s .quiet { s with
        channel := Function.update s.channel c { s.channel c with
          io := rest
          activeReads := (s.channel c).activeReads + 1 }
        bdevIo := Function.update s.bdevIo id { s.bdevIo id with
          ubiCh := c, blockOffset := r.offsetBlocks, blockCount := r.numBlocks }
        waiting := Function.update s.waiting id true
        log := .unqueued c id :: s.log }
  | bufferRefused {id r} (wait : s.waiting id = true) (req : s.request id = some r) :
      Act dev s .quiet { s with
        waiting := Function.update s.waiting id false
        channel := s.released id
        log := .completed id false :: s.log }
  | baseReadStarted {id r} (wait : s.waiting id = true) (req : s.request id = some r)
      (gate : ubiGetStripeStatus s (toCInt (r.startStripe dev)) = some .fetched ∨
        dev.imageBlockCount ≤ r.offsetBlocks)
      (fits : r.offsetBlocks + dev.dataOffsetBlocks + r.numBlocks ≤ dev.blockcnt) :
      Act dev s .quiet { s with
        waiting := Function.update s.waiting id false
        reads := Function.update s.reads s.nextRead
          (some ⟨id, r.offsetBlocks + dev.dataOffsetBlocks, r.numBlocks, fun _ => false⟩)
        nextRead := s.nextRead + 1 }
  | imageReadPrepared {id r status} (wait : s.waiting id = true) (req : s.request id = some r)
      (gate : ubiGetStripeStatus s (toCInt (r.startStripe dev)) = some status)
      (unfetched : status ≠ .fetched) (image : r.offsetBlocks < dev.imageBlockCount)
      (room : (s.channel (s.bdevIo id).ubiCh).sqes.length < ubiUringQueueSize) :
      Act dev s .quiet { s with
        waiting := Function.update s.waiting id false
        channel := Function.update s.channel (s.bdevIo id).ubiCh
          { s.channel (s.bdevIo id).ubiCh with
            sqes := (s.channel (s.bdevIo id).ubiCh).sqes ++ [imageReadSqe dev id r]
            hasReads := (s.channel (s.bdevIo id).ubiCh).hasReads + 1 } }
  | writeDispatched {c id rest r} (first : (s.channel c).io = id :: rest)
      (req : s.request id = some r) (type : r.type = .write) (gate : Served dev s r)
      (fits : r.offsetBlocks + dev.dataOffsetBlocks + r.numBlocks ≤ dev.blockcnt) :
      Act dev s .quiet { s with
        channel := Function.update s.channel c { s.channel c with io := rest }
        bdevIo := Function.update s.bdevIo id { s.bdevIo id with
          ubiCh := c, blockOffset := r.offsetBlocks, blockCount := r.numBlocks }
        writes := Function.update s.writes s.nextWrite
          (some ⟨.io id, r.offsetBlocks + dev.dataOffsetBlocks, r.numBlocks,
            fun _ => none, fun _ => none⟩)
        nextWrite := s.nextWrite + 1
        log := .userWrite id true :: .unqueued c id :: s.log }
  | writeRefused {c id rest r} (first : (s.channel c).io = id :: rest)
      (req : s.request id = some r) (type : r.type = .write) (gate : Served dev s r) :
      Act dev s .quiet { s with
        channel := Function.update s.channel c { s.channel c with io := rest }
        bdevIo := Function.update s.bdevIo id { s.bdevIo id with
          ubiCh := c, blockOffset := r.offsetBlocks, blockCount := r.numBlocks }
        log := .userWrite id false :: .unqueued c id :: s.log }
  | flushDispatched {c id rest r} (first : (s.channel c).io = id :: rest)
      (req : s.request id = some r) (type : r.type = .flush) (sync : dev.noSync = false) :
      Act dev s .quiet { s with
        channel := Function.update s.channel c { s.channel c with io := rest }
        bdevIo := Function.update s.bdevIo id { s.bdevIo id with
          ubiCh := c, blockOffset := r.offsetBlocks, blockCount := r.numBlocks }
        flushes := Function.update s.flushes s.nextFlush
          (some ⟨.data id, r.offsetBlocks + dev.dataOffsetBlocks, r.numBlocks, fun b =>
            if r.offsetBlocks + dev.dataOffsetBlocks ≤ b ∧
              b < r.offsetBlocks + dev.dataOffsetBlocks + r.numBlocks then s.disk.settled b else 0⟩)
        nextFlush := s.nextFlush + 1
        log := .unqueued c id :: s.log }
  | ioAnswered {c id rest r} (ok : Bool) (first : (s.channel c).io = id :: rest)
      (req : s.request id = some r) (type : r.type ≠ .read ∧ r.type ≠ .write)
      (skip : ok = true → dev.noSync = true) :
      Act dev s .quiet { s with
        channel := Function.update s.channel c { s.channel c with io := rest }
        bdevIo := Function.update s.bdevIo id { s.bdevIo id with
          ubiCh := c, blockOffset := r.offsetBlocks, blockCount := r.numBlocks }
        log := .completed id ok :: .unqueued c id :: s.log }
  | readsSubmitted {c} (prepared : (s.channel c).hasReads ≠ 0) :
      Act dev s .quiet { s with
        channel := Function.update s.channel c { s.channel c with
          submitted := (s.channel c).submitted ++ (s.channel c).sqes
          sqes := []
          hasReads := 0 } }
  | uringFetch {c i k sqe} {res : Int} (entry : (s.channel c).submitted[i]? = some sqe)
      (tag : sqe.userData = .stripeFetch k) (bound : res ≤ dev.available sqe) :
      Act dev s .quiet { s with
        channel := Function.update s.channel c { s.channel c with
          stripeFetches := Function.update (s.channel c).stripeFetches k { s.slot c k with
            buf := fillFromImage dev sqe res.toNat (s.slot c k).buf }
          submitted := (s.channel c).submitted.eraseIdx i
          cqes := (s.channel c).cqes ++ [⟨sqe, res⟩] } }
  | uringRead {c i id sqe} {res : Int} (entry : (s.channel c).submitted[i]? = some sqe)
      (tag : sqe.userData = .bdevIo id) (bound : res ≤ dev.available sqe) :
      Act dev s .quiet { s with
        buffer := Function.update s.buffer id (fillFromImage dev sqe res.toNat (s.buffer id))
        channel := Function.update s.channel c { s.channel c with
          submitted := (s.channel c).submitted.eraseIdx i
          cqes := (s.channel c).cqes ++ [⟨sqe, res⟩] } }
  | sampled {o op b} (write : s.writes o = some op)
      (range : op.startBlock ≤ b ∧ b < op.startBlock + op.numBlocks) (new : op.sampled b = none) :
      Act dev s .quiet { s with
        writes := Function.update s.writes o (some { op with
          sampled := Function.update op.sampled b
            (some fun a => writeBuffer s op.cb (a - op.startBlock * dev.blocklen)) }) }
  | landed {o op b data} (write : s.writes o = some op) (sample : op.sampled b = some data)
      (new : op.landed b = none) :
      Act dev s .quiet { s with
        disk := s.disk.write b data
        writes := Function.update s.writes o (some { op with
          landed := Function.update op.landed b (some (s.disk.latest b + 1)) }) }
  | transferred {o op b} (read : s.reads o = some op)
      (range : op.startBlock ≤ b ∧ b < op.startBlock + op.numBlocks) (new : op.done b = false) :
      Act dev s .quiet { s with
        buffer := Function.update s.buffer op.req fun i =>
          if (op.startBlock * dev.blocklen + i) / dev.blocklen = b then
            s.content dev (op.startBlock * dev.blocklen + i)
          else s.buffer op.req i
        reads := Function.update s.reads o
          (some { op with done := Function.update op.done b true }) }
  | readDone {o op} (success : Bool) (read : s.reads o = some op)
      (all : success = true → ∀ b, op.startBlock ≤ b → b < op.startBlock + op.numBlocks →
        op.done b = true) :
      Act dev s .quiet { s with
        reads := Function.update s.reads o none
        channel := s.released op.req
        log := .completed op.req success :: s.log }
  | submitSpanning {c id r} (new : s.request id = none) (type : ubiIoTypeSupported r.type = true)
      (range : r.offsetBlocks + r.numBlocks ≤ dev.ubiBlockcnt) (fetch : r.fetches dev)
      (span : r.startStripe dev ≠ r.endStripe dev) :
      Act dev s (.submit c id r) { s with
        request := Function.update s.request id (some r)
        buffer := Function.update s.buffer id r.data
        log := .completed id false :: .submitted id :: s.log }
  | submitFetching {c id r} {x : Nat} (new : s.request id = none)
      (type : ubiIoTypeSupported r.type = true)
      (range : r.offsetBlocks + r.numBlocks ≤ dev.ubiBlockcnt) (fetch : r.fetches dev)
      (within : r.startStripe dev = r.endStripe dev)
      (image : r.offsetBlocks < dev.imageBlockCount)
      (index : toCInt (r.startStripe dev) = x) (bound : x < ubiMaxStripes)
      (gate : s.stripeStatus x = .notFetched) :
      Act dev s (.submit c id r) { s with
        request := Function.update s.request id (some r)
        buffer := Function.update s.buffer id r.data
        channel := Function.update s.channel c { s.channel c with
          io := (s.channel c).io ++ [id]
          stripeFetchQueue := (s.queue c).push ubiFetchQueueSize x }
        stripeStatus := Function.update s.stripeStatus x .inflight
        log := .queued c id :: .setStatus x .inflight :: .enqueued c x :: .submitted id :: s.log }
  | submitQueued {c id r} (new : s.request id = none) (type : ubiIoTypeSupported r.type = true)
      (range : r.offsetBlocks + r.numBlocks ≤ dev.ubiBlockcnt)
      (within : r.fetches dev → r.startStripe dev = r.endStripe dev)
      (gate : r.fetches dev → r.offsetBlocks < dev.imageBlockCount →
        ∃ status, ubiGetStripeStatus s (toCInt (r.startStripe dev)) = some status ∧
          status ≠ .notFetched) :
      Act dev s (.submit c id r) { s with
        request := Function.update s.request id (some r)
        buffer := Function.update s.buffer id r.data
        channel := Function.update s.channel c { s.channel c with
          io := (s.channel c).io ++ [id] }
        log := .queued c id :: .submitted id :: s.log }
  | ioWriteDone {o op id} (success : Bool) (write : s.writes o = some op) (cb : op.cb = .io id)
      (all : success = true → ∀ b, op.startBlock ≤ b → b < op.startBlock + op.numBlocks →
        op.landed b ≠ none) :
      Act dev s (.writeDone o success) { s with
        writes := Function.update s.writes o none
        disk := if success then s.disk.settle op.landed else s.disk
        channel := s.released id
        log := .completed id success :: s.log }
  | stripeWriteDone {o op c k} (success : Bool) (write : s.writes o = some op)
      (cb : op.cb = .stripe c k)
      (all : success = true → ∀ b, op.startBlock ≤ b → b < op.startBlock + op.numBlocks →
        op.landed b ≠ none) :
      Act dev s (.writeDone o success) { s with
        writes := Function.update s.writes o none
        disk := if success then s.disk.settle op.landed else s.disk
        channel := Function.update s.channel c { s.channel c with
          stripeFetches := Function.update (s.channel c).stripeFetches k
            { s.slot c k with active := false } }
        stripeStatus := Function.update s.stripeStatus (s.slot c k).stripeIdx .fetched
        metadata := Function.update s.metadata (stripeHeaderOffset (s.slot c k).stripeIdx) 1
        stripesFetched := s.stripesFetched + 1
        log := .setStatus (s.slot c k).stripeIdx .fetched ::
          .stripeWriteDone (s.slot c k).stripeIdx success :: s.log }
  | metadataWriteFailed {o op id} (success : Bool) (write : s.writes o = some op)
      (cb : op.cb = .metadata id)
      (all : success = true → ∀ b, op.startBlock ≤ b → b < op.startBlock + op.numBlocks →
        op.landed b ≠ none) :
      Act dev s (.writeDone o success) { s with
        writes := Function.update s.writes o none
        disk := if success then s.disk.settle op.landed else s.disk
        log := .completed id false :: s.log }
  | metadataWriteDone {o op id} (write : s.writes o = some op) (cb : op.cb = .metadata id)
      (all : ∀ b, op.startBlock ≤ b → b < op.startBlock + op.numBlocks → op.landed b ≠ none) :
      Act dev s (.writeDone o true) { s with
        writes := Function.update s.writes o none
        disk := s.disk.settle op.landed
        flushes := Function.update s.flushes s.nextFlush
          (some ⟨.metadata id, 0, dev.dataOffsetBlocks, fun b =>
            if b < dev.dataOffsetBlocks then (s.disk.settle op.landed).settled b else 0⟩)
        nextFlush := s.nextFlush + 1 }
  | dataFlushFailed {o op id} (flush : s.flushes o = some op) (cb : op.cb = .data id) :
      Act dev s (.flushDone o false) { s with
        flushes := Function.update s.flushes o none
        log := .dataFlushDone id false :: s.log }
  | dataFlushOnly {o op id} (flush : s.flushes o = some op) (cb : op.cb = .data id)
      (clean : s.stripesFetched = s.stripesFlushed) :
      Act dev s (.flushDone o true) { s with
        flushes := Function.update s.flushes o none
        disk := s.disk.flush op.mark
        log := .completed id true :: .dataFlushDone id true :: s.log }
  | metadataWriteRefused {o op id} (flush : s.flushes o = some op) (cb : op.cb = .data id)
      (dirty : s.stripesFetched ≠ s.stripesFlushed) :
      Act dev s (.flushDone o true) { s with
        flushes := Function.update s.flushes o none
        disk := s.disk.flush op.mark
        bdevIo := Function.update s.bdevIo id
          { s.bdevIo id with stripesFetched := s.stripesFetched }
        log := .completed id false :: .dataFlushDone id true :: s.log }
  | metadataWriteStarted {o op id} (flush : s.flushes o = some op) (cb : op.cb = .data id)
      (dirty : s.stripesFetched ≠ s.stripesFlushed) :
      Act dev s (.flushDone o true) { s with
        flushes := Function.update s.flushes o none
        disk := s.disk.flush op.mark
        bdevIo := Function.update s.bdevIo id
          { s.bdevIo id with stripesFetched := s.stripesFetched }
        writes := Function.update s.writes s.nextWrite
          (some ⟨.metadata id, 0, dev.dataOffsetBlocks, fun _ => none, fun _ => none⟩)
        nextWrite := s.nextWrite + 1
        log := .dataFlushDone id true :: s.log }
  | metadataFlushFailed {o op id} (flush : s.flushes o = some op) (cb : op.cb = .metadata id) :
      Act dev s (.flushDone o false) { s with
        flushes := Function.update s.flushes o none
        log := .completed id false :: s.log }
  | metadataFlushDone {o op id} (flush : s.flushes o = some op) (cb : op.cb = .metadata id) :
      Act dev s (.flushDone o true) { s with
        flushes := Function.update s.flushes o none
        disk := s.disk.flush op.mark
        stripesFlushed := max s.stripesFlushed (s.bdevIo id).stripesFetched
        log := .completed id true :: s.log }

end BdevUbi
