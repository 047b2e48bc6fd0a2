import BdevUbi.Flush

/-!
Requests and the poller: `bdev_ubi_io_channel.c` and `ubi_submit_request`.
-/

namespace BdevUbi

/-- Decrement of a `uint64_t`. -/
def decrement (n : Nat) : Nat := (n + (2 ^ 64 - 1)) % 2 ^ 64

def ubiCompleteIo (s : State) (id : ReqId) (success : Bool) : State :=
  let c := (s.bdevIo id).ubiCh
  let counted := match s.request id with
    | some r => if r.type = IoType.read then
        s.setChannel c { s.channel c with
          activeReads := decrement (s.channel c).activeReads }
      else s
    | none => s
  counted.complete id success

/-- `none` when the submission fails. -/
def ubiSubmitReadRequest (dev : UbiBdev) (s : State) (id : ReqId) (r : Request) (ret : Int) :
    Option State :=
  let startBlock := r.offsetBlocks + dev.dataOffsetBlocks
  if baseAccepts dev startBlock r.numBlocks ret then
    some (s.startRead id startBlock r.numBlocks)
  else none

/-- The caller ignores the result, so a failed submission only shows in the log. -/
def ubiSubmitWriteRequest (dev : UbiBdev) (s : State) (id : ReqId) (r : Request) (ret : Int) :
    State :=
  let startBlock := r.offsetBlocks + dev.dataOffsetBlocks
  let ok := baseAccepts dev startBlock r.numBlocks ret
  let tried := s.emit (.userWrite id ok)
  if ok then tried.startWrite (.io id) startBlock r.numBlocks else tried

def imageReadSqe (dev : UbiBdev) (id : ReqId) (r : Request) : Sqe :=
  { userData := .bdevIo id
    offset := r.offsetBlocks * dev.blocklen
    nbytes := r.numBlocks * dev.blocklen }

def grantBuffer (s : State) (id : ReqId) : State :=
  { s with waiting := Function.update s.waiting id false }

def prepareImageRead (dev : UbiBdev) (s : State) (c : ChId) (id : ReqId) (r : Request) : State :=
  s.setChannel c { s.channel c with
    sqes := (s.channel c).sqes ++ [imageReadSqe dev id r]
    hasReads := (s.channel c).hasReads + 1 }

/-- The status is read before the block is compared with the image size. A status
from outside the array is garbage; it decides nothing for a block past the image. -/
def getBufForReadCb (dev : UbiBdev) (s : State) (id : ReqId) (success : Bool) (ret : Int) :
    Except Halt State :=
  let granted := grantBuffer s id
  match s.request id with
  | none => .error .disabled
  | some r =>
    if !success then .ok (ubiCompleteIo granted id false)
    else
      let stripeStatus := ubiGetStripeStatus s (toCInt (r.startStripe dev))
      if stripeStatus = some .fetched ∨ dev.imageBlockCount ≤ r.offsetBlocks then
        match ubiSubmitReadRequest dev granted id r ret with
        | some next => .ok next
        | none => .ok (ubiCompleteIo granted id false)
      else if stripeStatus = none then .error .undefinedBehaviour
      else
        let c := (s.bdevIo id).ubiCh
        if ubiUringQueueSize ≤ (s.channel c).sqes.length then
          .ok (ubiCompleteIo granted id false)
        else .ok (prepareImageRead dev granted c id r)

/-- `sqe` is the completed entry. -/
def ubiCompleteReadFromImage (s : State) (id : ReqId) (sqe : Sqe) (res : Int) : Int × State :=
  let seen := s.emit (.readCqe id sqe res)
  if res < 0 then (-1, ubiCompleteIo seen id false) else (1, ubiCompleteIo seen id true)

/-- `ubi_io_completion_cb`, for base reads and base writes of requests. -/
def ubiIoCompletionCb (s : State) (id : ReqId) (success : Bool) : State :=
  ubiCompleteIo s id success

/-- How `spdk_bdev_io_get_buf` calls back. -/
inductive GetBuf where
  | inline (success : Bool)
  | later
  deriving DecidableEq, Repr

/-- What the lower layers answer during one call of the poller. -/
structure PollEnv where
  /-- `spdk_bdev_write` for the i-th completion handled -/
  stripeWriteRet : Nat → Int
  /-- `io_uring_submit` for the fetch started in a slot -/
  fetchSubmitRet : Nat → Int
  getBuf : ReqId → GetBuf
  /-- the base submission of a request -/
  baseRet : ReqId → Int
  /-- `io_uring_submit` at the end -/
  submitRet : Int

/-- `io_uring_cqe_seen` of the first completion. -/
def cqeSeen (s : State) (c : ChId) (rest : List Cqe) : State :=
  s.setChannel c { s.channel c with cqes := rest }

def completeCqe (dev : UbiBdev) (s : State) (c : ChId) (cqe : Cqe) (rest : List Cqe)
    (ret : Int) : Int × State :=
  match cqe.sqe.userData with
  | .stripeFetch k => ubiCompleteFetchStripe dev (cqeSeen s c rest) c k cqe.sqe cqe.res ret
  | .bdevIo id => ubiCompleteReadFromImage (cqeSeen s c rest) id cqe.sqe cqe.res

/-- The loop over the batch, with the value of the last completion in `last`. -/
def completeBatch (dev : UbiBdev) (c : ChId) (stripeWriteRet : Nat → Int) :
    Nat → Nat → Int → State → Int × State
  | 0, _, last, s => (last, s)
  | batch + 1, i, last, s => match (s.channel c).cqes with
    | [] => (last, s)
    | cqe :: rest =>
      let handled := completeCqe dev s c cqe rest (stripeWriteRet i)
      completeBatch dev c stripeWriteRet batch (i + 1) handled.1 handled.2

def ubiCompleteImageIo (dev : UbiBdev) (s : State) (c : ChId) (env : PollEnv) : Int × State :=
  completeBatch dev c env.stripeWriteRet (min 64 (s.channel c).cqes.length) 0 0 s

def freeStripeFetches (ch : UbiIoChannel) : List Nat :=
  (List.range ubiMaxActiveStripeFetches).filter fun k => !(ch.stripeFetches k).active

def assignSlot (s : State) (c : ChId) (k : Nat) : State :=
  let stripeIdx := (dequeueStripe s c).1
  let dequeued := (dequeueStripe s c).2
  let busy := (dequeued.ringEntries c).any fun sqe => sqe.userData == .stripeFetch k
  let f := (dequeued.channel c).stripeFetches k
  (dequeued.setFetch c k { f with active := true, stripeIdx := stripeIdx }).emit
    (.assigned c k stripeIdx busy)

/-- Dequeue and initiate stripe fetches, one for each free slot. -/
def startStripeFetches (dev : UbiBdev) (c : ChId) (env : PollEnv) :
    List Nat → State → Except Halt State
  | [], s => .ok s
  | k :: free, s =>
    if stripeQueueEmpty (s.channel c) then .ok s
    else match ubiStartFetchStripe dev (assignSlot s c k) c k (env.fetchSubmitRet k) with
      | .error stop => .error stop
      | .ok next => startStripeFetches dev c env free next

/-- `TAILQ_REMOVE` of the first request. -/
def removeFirst (s : State) (c : ChId) (id : ReqId) (rest : List ReqId) : State :=
  (s.setChannel c { s.channel c with io := rest }).emit (.unqueued c id)

/-- Dequeue the first request and fill in its context. -/
def takeFirst (s : State) (c : ChId) (id : ReqId) (rest : List ReqId) (r : Request) : State :=
  let removed := removeFirst s c id rest
  { removed with
    bdevIo := Function.update removed.bdevIo id
      { removed.bdevIo id with
        ubiCh := c, blockOffset := r.offsetBlocks, blockCount := r.numBlocks } }

/-- Count a READ as active and ask for its buffer. -/
def awaitBuffer (s : State) (c : ChId) (id : ReqId) : State :=
  let counted := s.setChannel c { s.channel c with activeReads := (s.channel c).activeReads + 1 }
  { counted with waiting := Function.update counted.waiting id true }

def dispatch (dev : UbiBdev) (s : State) (c : ChId) (id : ReqId) (rest : List ReqId)
    (r : Request) (env : PollEnv) : Except Halt State :=
  let taken := takeFirst s c id rest r
  match r.type with
  | .read => match env.getBuf id with
    | .inline success => getBufForReadCb dev (awaitBuffer taken c id) id success (env.baseRet id)
    | .later => .ok (awaitBuffer taken c id)
  | .write => .ok (ubiSubmitWriteRequest dev taken id r (env.baseRet id))
  | .flush => .ok (ubiSubmitFlushRequest dev taken id (env.baseRet id))
  | .writeZeroes | .reset | .unmap => .ok (taken.complete id false)

/-- The body of the request loop; `false` when the loop is left. -/
def processFirst (dev : UbiBdev) (s : State) (c : ChId) (id : ReqId) (rest : List ReqId)
    (env : PollEnv) : Except Halt (Bool × State) :=
  match s.request id with
  | none => .error .disabled
  | some r =>
    if r.type = .read ∧ ubiMaxConcurrentReads ≤ (s.channel c).activeReads then .ok (false, s)
    else if r.type ≠ .flush ∧ r.offsetBlocks < dev.imageBlockCount then
      match ubiGetStripeStatus s (toCInt (r.startStripe dev)) with
      | none => .error .undefinedBehaviour
      | some .failed => .ok (true, (removeFirst s c id rest).complete id false)
      | some .inflight => .ok (false, s)
      | some .notFetched =>
        if r.type ≠ .read ∨ dev.copyOnRead = true then
          .ok (true, ((removeFirst s c id rest).emit (.bug id)).complete id false)
        else (dispatch dev s c id rest r env).map fun next => (true, next)
      | some .fetched => (dispatch dev s c id rest r env).map fun next => (true, next)
    else (dispatch dev s c id rest r env).map fun next => (true, next)

/-- Dequeue and process I/O requests, in the order they were received. -/
def processIo (dev : UbiBdev) (c : ChId) (env : PollEnv) :
    List ReqId → State → Except Halt State
  | [], s => .ok s
  | id :: rest, s => match processFirst dev s c id rest env with
    | .error stop => .error stop
    | .ok (false, next) => .ok next
    | .ok (true, next) => processIo dev c env rest next

def submitReads (s : State) (c : ChId) (ret : Int) : State :=
  if (s.channel c).hasReads ≠ 0 then
    if ret < 0 then s
    else
      let issued := ioUringSubmit s c
      issued.setChannel c { issued.channel c with hasReads := 0 }
  else s

inductive PollerStatus where
  | idle | busy
  deriving DecidableEq, Repr

def ubiIoPoll (dev : UbiBdev) (s : State) (c : ChId) (env : PollEnv) :
    Except Halt (PollerStatus × State) :=
  let queuesEmpty := (s.channel c).io.isEmpty && stripeQueueEmpty (s.channel c)
  let completed := ubiCompleteImageIo dev s c env
  if queuesEmpty && decide (completed.1 < 1) then .ok (.idle, completed.2)
  else if queuesEmpty then .ok (.busy, completed.2)
  else
    match startStripeFetches dev c env (freeStripeFetches (completed.2.channel c))
        completed.2 with
    | .error stop => .error stop
    | .ok fetching => match processIo dev c env (fetching.channel c).io fetching with
      | .error stop => .error stop
      | .ok processed => .ok (.busy, submitReads processed c env.submitRet)

/-- `TAILQ_INSERT_TAIL`. -/
def insertTail (s : State) (c : ChId) (id : ReqId) : State :=
  (s.setChannel c { s.channel c with io := (s.channel c).io ++ [id] }).emit (.queued c id)

def ubiSubmitRequest (dev : UbiBdev) (s : State) (c : ChId) (id : ReqId) (r : Request) :
    Except Halt State :=
  let arrived := ({ s with
    request := Function.update s.request id (some r)
    buffer := Function.update s.buffer id r.data }).emit (.submitted id)
  if r.fetches dev then
    if r.startStripe dev ≠ r.endStripe dev then .ok (arrived.complete id false)
    else if r.offsetBlocks < dev.imageBlockCount then
      let index := toCInt (r.startStripe dev)
      match ubiGetStripeStatus arrived index with
      | none => .error .undefinedBehaviour
      | some .notFetched =>
        .ok (insertTail (ubiSetStripeStatus (enqueueStripe arrived c index.toNat)
          index.toNat .inflight) c id)
      | some _ => .ok (insertTail arrived c id)
    else .ok (insertTail arrived c id)
  else .ok (insertTail arrived c id)

/-- The ring is torn down with whatever it holds; the queue and the slots are freed as they are. -/
def ubiDestroyChannelCb (s : State) (c : ChId) : State :=
  s.setChannel c { s.channel c with sqes := [], submitted := [], cqes := [] }

end BdevUbi
