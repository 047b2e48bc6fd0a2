import BdevUbi.State

/-!
Stripe fetches: `bdev_ubi_stripe.c` and the calls it makes. A lower-level call
takes the value it returns as an argument, so that a run may give it any outcome.
-/

namespace BdevUbi

/-- Submissions to the base bdev fail outside its range, whatever `ret` says. -/
def baseAccepts (dev : UbiBdev) (startBlock numBlocks : Nat) (ret : Int) : Bool :=
  decide (startBlock + numBlocks ≤ dev.blockcnt) && ret == 0

/-- The byte-addressed calls also refuse offsets and lengths inside a block. -/
def baseAcceptsBytes (dev : UbiBdev) (offset nbytes : Nat) (ret : Int) : Bool :=
  offset % dev.blocklen == 0 && nbytes % dev.blocklen == 0 &&
    baseAccepts dev (offset / dev.blocklen) (nbytes / dev.blocklen) ret

namespace State

def startRead (s : State) (id startBlock numBlocks : Nat) : State :=
  { s with
    reads := Function.update s.reads s.nextRead
      (some ⟨id, startBlock, numBlocks, fun _ => false⟩)
    nextRead := s.nextRead + 1 }

def startWrite (s : State) (cb : WriteCb) (startBlock numBlocks : Nat) : State :=
  { s with
    writes := Function.update s.writes s.nextWrite
      (some ⟨cb, startBlock, numBlocks, fun _ => none, fun _ => none⟩)
    nextWrite := s.nextWrite + 1 }

def startFlush (s : State) (cb : FlushCb) (startBlock numBlocks : Nat) : State :=
  { s with
    flushes := Function.update s.flushes s.nextFlush
      (some ⟨cb, startBlock, numBlocks, fun b =>
        if startBlock ≤ b ∧ b < startBlock + numBlocks then s.disk.settled b else 0⟩)
    nextFlush := s.nextFlush + 1 }

end State

/-- `none` when the index is outside the array. -/
def ubiGetStripeStatus (s : State) (index : Int) : Option StripeStatus :=
  if 0 ≤ index ∧ index < ubiMaxStripes then some (s.stripeStatus index.toNat) else none

def ubiSetStripeStatus (s : State) (index : Nat) (status : StripeStatus) : State :=
  { s with
    stripeStatus := Function.update s.stripeStatus index status
    metadata := if status = .fetched then
        Function.update s.metadata (stripeHeaderOffset index) 1
      else s.metadata
    log := .setStatus index status :: s.log }

def enqueueStripe (s : State) (c : ChId) (stripeIdx : Nat) : State :=
  let q := (s.channel c).stripeFetchQueue
  (s.setChannel c { s.channel c with
    stripeFetchQueue :=
      { q with
        entries := Function.update q.entries q.tail stripeIdx
        tail := (q.tail + 1) &&& (ubiFetchQueueSize - 1) } }).emit (.enqueued c stripeIdx)

def dequeueStripe (s : State) (c : ChId) : Nat × State :=
  let q := (s.channel c).stripeFetchQueue
  let stripeIdx := q.entries q.head
  (stripeIdx, (s.setChannel c { s.channel c with
    stripeFetchQueue := { q with head := (q.head + 1) &&& (ubiFetchQueueSize - 1) } }).emit
      (.dequeued c stripeIdx))

def stripeQueueEmpty (ch : UbiIoChannel) : Bool :=
  ch.stripeFetchQueue.head == ch.stripeFetchQueue.tail

def ubiFailStripeFetch (s : State) (c : ChId) (k : Nat) : State :=
  let f := (s.channel c).stripeFetches k
  (ubiSetStripeStatus s f.stripeIdx .failed).setFetch c k { f with active := false }

/-- A successful `io_uring_submit` issues every prepared entry of the ring. -/
def ioUringSubmit (s : State) (c : ChId) : State :=
  s.setChannel c { s.channel c with
    submitted := (s.channel c).submitted ++ (s.channel c).sqes
    sqes := [] }

def stripeSqe (dev : UbiBdev) (k stripeIdx : Nat) : Sqe :=
  { userData := .stripeFetch k
    offset := dev.stripeBytes * stripeIdx
    nbytes := dev.stripeBytes }

/-- The read entry is prepared; `ok` is whether `io_uring_submit` will take it. -/
def prepareFetch (dev : UbiBdev) (s : State) (c : ChId) (k : Nat) (ok : Bool) : State :=
  let ch := s.channel c
  let stripeIdx := (ch.stripeFetches k).stripeIdx
  (s.setChannel c { ch with sqes := ch.sqes ++ [stripeSqe dev k stripeIdx] }).emit
    (.fetchSubmit c k stripeIdx ok)

/-- `io_uring_get_sqe` returns NULL when every entry is taken; the result is used
unchecked. A negative `ret` from `io_uring_submit` leaves the entry prepared. -/
def ubiStartFetchStripe (dev : UbiBdev) (s : State) (c : ChId) (k : Nat) (ret : Int) :
    Except Halt State :=
  if ubiUringQueueSize ≤ (s.channel c).sqes.length then .error .undefinedBehaviour
  else if ret < 0 then .ok (ubiFailStripeFetch (prepareFetch dev s c k false) c k)
  else .ok (ioUringSubmit (prepareFetch dev s c k true) c)

/-- `sqe` is the completed entry, `ret` what `spdk_bdev_write` returns. -/
def ubiCompleteFetchStripe (dev : UbiBdev) (s : State) (c : ChId) (k : Nat) (sqe : Sqe)
    (res ret : Int) : Int × State :=
  let f := (s.channel c).stripeFetches k
  let offset := dev.stripeBytes * f.stripeIdx
  let seen := s.emit (.fetchCqe c k sqe f.active f.stripeIdx res)
  if res < 0 then (-1, ubiFailStripeFetch seen c k)
  else
    let ok := baseAcceptsBytes dev (offset + ubiMetadataSize) dev.stripeBytes ret
    let tried := seen.emit (.stripeWrite f.stripeIdx ok)
    if ok then
      (1, tried.startWrite (.stripe c k) ((offset + ubiMetadataSize) / dev.blocklen)
        (dev.stripeBytes / dev.blocklen))
    else (-1, ubiFailStripeFetch tried c k)

/-- The outcome of the write is not looked at. -/
def writeStripeIoCompletion (s : State) (c : ChId) (k : Nat) (success : Bool) : State :=
  let f := (s.channel c).stripeFetches k
  let done := ubiSetStripeStatus (s.emit (.stripeWriteDone f.stripeIdx success))
    f.stripeIdx .fetched
  ({ done with stripesFetched := done.stripesFetched + 1 }).setFetch c k { f with active := false }

end BdevUbi
