import BdevUbi.IoChannel
import BdevUbi.Library.Runs

/-!
The system: a ubi bdev, any number of channels, the image file's rings and the
base bdev, as one machine whose events are the module's atomic callbacks and the
moves of the layers below. Events of different channels and layers interleave in
any order the guards of `step` allow.
-/

namespace BdevUbi
open VolatileDisk

inductive Event where
  | submit (c : ChId) (id : ReqId) (r : Request)
  | poll (c : ChId) (env : PollEnv)
  /-- a buffer callback outside the poller -/
  | getBuf (id : ReqId) (success : Bool) (ret : Int)
  /-- the kernel completes the i-th submitted entry of a ring -/
  | uring (c : ChId) (i : Nat) (res : Int)
  /-- blocks of an outstanding base read reach its buffer -/
  | transfer (o : Nat) (blocks : List Nat)
  /-- blocks of an outstanding base write take their data from its buffer -/
  | sample (o : Nat) (blocks : List Nat)
  /-- blocks of an outstanding base write take effect on the device -/
  | land (o : Nat) (blocks : List Nat)
  | readDone (o : Nat) (success : Bool)
  | writeDone (o : Nat) (success : Bool) (ret : Int)
  | flushDone (o : Nat) (success : Bool) (ret : Int)

def inRange (startBlock numBlocks b : Nat) : Bool :=
  decide (startBlock ≤ b) && decide (b < startBlock + numBlocks)

/-- Image bytes a read of `nbytes` at `offset` can return. -/
def UbiBdev.available (dev : UbiBdev) (sqe : Sqe) : Nat :=
  min sqe.nbytes (dev.imageSize - sqe.offset)

/-- The first `n` bytes of a buffer are overwritten with the image's. -/
def fillFromImage (dev : UbiBdev) (sqe : Sqe) (n : Nat) (buf : Bytes) : Bytes :=
  fun i => if i < n then dev.image (sqe.offset + i) else buf i

/-- The kernel writes what it read to the buffer the entry points at. -/
def fillBuffer (dev : UbiBdev) (s : State) (c : ChId) (sqe : Sqe) (n : Nat) : State :=
  match sqe.userData with
  | .stripeFetch k =>
    let f := (s.channel c).stripeFetches k
    s.setFetch c k { f with buf := fillFromImage dev sqe n f.buf }
  | .bdevIo id =>
    { s with buffer := Function.update s.buffer id (fillFromImage dev sqe n (s.buffer id)) }

/-- The i-th submitted entry becomes a completion. -/
def postCqe (s : State) (c : ChId) (i : Nat) (cqe : Cqe) : State :=
  s.setChannel c { s.channel c with
    submitted := (s.channel c).submitted.eraseIdx i
    cqes := (s.channel c).cqes ++ [cqe] }

def uringComplete (dev : UbiBdev) (s : State) (c : ChId) (i : Nat) (res : Int) :
    Except Halt State :=
  match (s.channel c).submitted[i]? with
  | none => .error .disabled
  | some sqe =>
    if res ≤ dev.available sqe then
      .ok (postCqe (fillBuffer dev s c sqe res.toNat) c i ⟨sqe, res⟩)
    else .error .disabled

/-- The buffer a base write takes its data from: the request's own, the slot's, or
the live metadata. -/
def writeBuffer (s : State) : WriteCb → Bytes
  | .io id => match s.request id with
    | some r => r.data
    | none => fun _ => 0
  | .stripe c k => ((s.channel c).stripeFetches k).buf
  | .metadata _ => s.metadata

/-- Block contents are indexed by their position on the base bdev. -/
def sampleBlock (dev : UbiBdev) (o : Nat) (s : State) (b : Nat) : Except Halt State :=
  match s.writes o with
  | none => .error .disabled
  | some op =>
    if inRange op.startBlock op.numBlocks b ∧ op.sampled b = none then
      let data : Bytes := fun a => writeBuffer s op.cb (a - op.startBlock * dev.blocklen)
      .ok { s with
        writes := Function.update s.writes o
          (some { op with sampled := Function.update op.sampled b (some data) }) }
    else .error .disabled

def landBlock (o : Nat) (s : State) (b : Nat) : Except Halt State :=
  match s.writes o with
  | none => .error .disabled
  | some op => match op.sampled b with
    | none => .error .disabled
    | some data =>
      if op.landed b = none then
        .ok { s with
          disk := s.disk.write b data
          writes := Function.update s.writes o
            (some { op with landed :=
              Function.update op.landed b (some (s.disk.latest b + 1)) }) }
      else .error .disabled

def transferBlock (dev : UbiBdev) (o : Nat) (s : State) (b : Nat) : Except Halt State :=
  match s.reads o with
  | none => .error .disabled
  | some op =>
    if inRange op.startBlock op.numBlocks b ∧ op.done b = false then
      let buf : Bytes := fun i =>
        let a := op.startBlock * dev.blocklen + i
        if a / dev.blocklen = b then s.content dev a else s.buffer op.req i
      .ok { s with
        buffer := Function.update s.buffer op.req buf
        reads := Function.update s.reads o
          (some { op with done := Function.update op.done b true }) }
    else .error .disabled

/-- A list of blocks moves one after the other. -/
def eachBlock (move : State → Nat → Except Halt State) : List Nat → State → Except Halt State
  | [], s => .ok s
  | b :: blocks, s => match move s b with
    | .error stop => .error stop
    | .ok next => eachBlock move blocks next

def allBlocks (startBlock numBlocks : Nat) (p : Nat → Bool) : Bool :=
  (List.range numBlocks).all fun i => p (startBlock + i)

/-- A base read that succeeds has filled its whole buffer. -/
def baseReadDone (s : State) (o : Nat) (success : Bool) : Except Halt State :=
  match s.reads o with
  | none => .error .disabled
  | some op =>
    if success ∧ ¬ allBlocks op.startBlock op.numBlocks op.done then .error .disabled
    else .ok (ubiIoCompletionCb { s with reads := Function.update s.reads o none } op.req success)

/-- A base write that succeeds has taken effect on every block. -/
def baseWriteDone (dev : UbiBdev) (s : State) (o : Nat) (success : Bool) (ret : Int) :
    Except Halt State :=
  match s.writes o with
  | none => .error .disabled
  | some op =>
    if success ∧ ¬ allBlocks op.startBlock op.numBlocks (fun b => (op.landed b).isSome) then
      .error .disabled
    else
      let freed := { s with
        writes := Function.update s.writes o none
        disk := if success then s.disk.settle op.landed else s.disk }
      match op.cb with
      | .io id => .ok (ubiIoCompletionCb freed id success)
      | .stripe c k => .ok (writeStripeIoCompletion freed c k success)
      | .metadata id => .ok (ubiMetadataWriteCompletion dev freed id success ret)

def baseFlushDone (dev : UbiBdev) (s : State) (o : Nat) (success : Bool) (ret : Int) :
    Except Halt State :=
  match s.flushes o with
  | none => .error .disabled
  | some op =>
    let freed := { s with
      flushes := Function.update s.flushes o none
      disk := if success then s.disk.flush op.mark else s.disk }
    match op.cb with
    | .data id => .ok (ubiDataFlushCompletion dev freed id success ret)
    | .metadata id => .ok (ubiMetadataFlushCompletion freed id success)

/-- Requests the generic bdev layer hands over: new, of a supported type, and
within the bdev. -/
def admissible (dev : UbiBdev) (s : State) (id : ReqId) (r : Request) : Bool :=
  (s.request id).isNone && ubiIoTypeSupported r.type &&
    decide (r.offsetBlocks + r.numBlocks ≤ dev.ubiBlockcnt)

def step (dev : UbiBdev) (s : State) : Event → Except Halt State
  | .submit c id r =>
    if admissible dev s id r then ubiSubmitRequest dev s c id r else .error .disabled
  | .poll c env => (ubiIoPoll dev s c env).map Prod.snd
  | .getBuf id success ret =>
    if s.waiting id then getBufForReadCb dev s id success ret else .error .disabled
  | .uring c i res => uringComplete dev s c i res
  | .transfer o blocks => eachBlock (transferBlock dev o) blocks s
  | .sample o blocks => eachBlock (sampleBlock dev o) blocks s
  | .land o blocks => eachBlock (landBlock o) blocks s
  | .readDone o success => baseReadDone s o success
  | .writeDone o success ret => baseWriteDone dev s o success ret
  | .flushDone o success ret => baseFlushDone dev s o success ret

/-- A channel as `ubi_create_channel_cb` leaves it. -/
def newChannel : UbiIoChannel where
  stripeFetches _ := ⟨false, 0, fun _ => 0⟩
  stripeFetchQueue := ⟨fun _ => 0, 0, 0⟩
  activeReads := 0
  hasReads := 0
  io := []
  sqes := []
  submitted := []
  cqes := []

/-- The bdev right after its creation over a base bdev with this content. -/
def newState (base : Bytes) (table : StripeTable) : State where
  stripeStatus := table.stripeStatus
  metadata := table.metadata
  stripesFetched := table.stripesFetched
  stripesFlushed := table.stripesFlushed
  channel _ := newChannel
  bdevIo _ := ⟨0, 0, 0, 0⟩
  request _ := none
  buffer _ _ := 0
  waiting _ := false
  reads _ := none
  writes _ := none
  flushes _ := none
  nextRead := 0
  nextWrite := 0
  nextFlush := 0
  disk := Disk.init fun _ => base
  log := []

/-- `s` is the state in which `bdev_ubi_create` registers the bdev. -/
def Created (dev : UbiBdev) (base : Bytes) (s : State) : Prop :=
  ∃ table, ubiFinishReadMetadata dev.stripeSizeKb true base = .ok table ∧
    s = newState base table

abbrev anyStep : State → Event → Prop := fun _ _ => True

abbrev Reach (dev : UbiBdev) (allowed : State → Event → Prop) : State → State → Prop :=
  Runs.Reach (step dev) allowed

/-- Base contents a crash in state `s` may leave. -/
def CrashContent (dev : UbiBdev) (s : State) (base : Bytes) : Prop :=
  ∃ blocks : Nat → Bytes, s.disk.Survives blocks ∧ ∀ a, base a = blocks (a / dev.blocklen) a

def blankState (dev : UbiBdev) : State :=
  newState (fun _ => 0)
    ⟨fun _ => .notFetched, ubiInitMetadata dev.stripeSizeKb fun _ => 0, 0, 0⟩

theorem created_blankState (dev : UbiBdev) : Created dev (fun _ => 0) (blankState dev) :=
  ⟨_, rfl, rfl⟩

-- The sizes of `threeBlockBdev`, which other example devices share.
theorem twoBlockImage_lt : 131072 < 2 ^ 63 := by decide

theorem threeBlockBase_lt : 131 < 2 ^ 64 := by decide

/-- A bdev of three blocks over an image of two, with stripes of one block. -/
def threeBlockBdev (copyOnRead : Bool) : UbiBdev where
  blocklen := 65536
  blockcnt := 131
  imageSize := 131072
  image := fun _ => 7
  stripeSizeKb := 64
  noSync := false
  copyOnRead := copyOnRead
  layout := ⟨1, 0, 128, 2⟩
  imageSize_lt := twoBlockImage_lt
  blockcnt_lt := threeBlockBase_lt
  init := by decide

/-- Every lower-level call of the poller succeeds, and buffers are granted at once. -/
def PollEnv.success : PollEnv where
  stripeWriteRet _ := 0
  fetchSubmitRet _ := 0
  getBuf _ := .inline true
  baseRet _ := 0
  submitRet := 0

end BdevUbi
