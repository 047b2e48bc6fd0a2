import BdevUbi.Metadata
import BdevUbi.Library.CircularQueue
import BdevUbi.Library.VolatileDisk
import BdevUbi.Library.History

/-!
State of a ubi bdev with its channels and the layers it calls.

The first group of fields is the source's own. The second stands for code outside
the module: outstanding operations of the base bdev, each with its callback, the
base bdev's blocks, and READs whose buffer has not been granted. `log` is a
history variable: it records the calls a run makes and the outcomes they have,
newest first, and no function reads it.
-/

namespace BdevUbi
open VolatileDisk

abbrev ReqId := Nat
abbrev ChId := Nat

inductive IoType where
  | read | write | flush | writeZeroes | reset | unmap
  deriving DecidableEq, Repr

/-- The generic bdev layer submits no request of an unsupported type. -/
def ubiIoTypeSupported : IoType → Bool
  | .read | .write | .flush => true
  | .writeZeroes | .reset | .unmap => false

/-- The fields of `struct spdk_bdev_io` the module reads. `data` is what the buffer
holds at submission; the owner of a WRITE leaves it alone until completion. -/
structure Request where
  type : IoType
  offsetBlocks : Nat
  numBlocks : Nat
  data : Bytes

/-- `struct ubi_bdev_io`, the per-request context. -/
structure UbiBdevIo where
  ubiCh : ChId
  blockOffset : Nat
  blockCount : Nat
  stripesFetched : Nat

structure StripeFetch where
  active : Bool
  stripeIdx : Nat
  buf : Bytes

/-- What `io_uring_sqe_set_data` attaches to an entry. -/
inductive UserData where
  | stripeFetch (slot : Nat)
  | bdevIo (id : ReqId)
  deriving DecidableEq, Repr

/-- A read of `nbytes` image bytes at `offset`. -/
structure Sqe where
  userData : UserData
  offset : Nat
  nbytes : Nat
  deriving DecidableEq, Repr

structure Cqe where
  sqe : Sqe
  res : Int
  deriving DecidableEq, Repr

/-- `struct ubi_io_channel`. The ring `image_file_ring` is given by the entries
that are prepared, submitted, and completed but not yet seen. -/
structure UbiIoChannel where
  stripeFetches : Nat → StripeFetch
  stripeFetchQueue : CircularQueue Nat
  activeReads : Nat
  hasReads : Nat
  io : List ReqId
  sqes : List Sqe
  submitted : List Sqe
  cqes : List Cqe

/-- A base read; `done` tells which blocks have reached the buffer. -/
structure BaseRead where
  req : ReqId
  startBlock : Nat
  numBlocks : Nat
  done : Nat → Bool

/-- The completion callback of a base write, with its argument. -/
inductive WriteCb where
  | io (id : ReqId)
  | stripe (c : ChId) (slot : Nat)
  | metadata (id : ReqId)
  deriving DecidableEq, Repr

/-- A base write. Each block first takes its data from the buffer and later takes
effect on the device, where it makes the version recorded in `landed`. -/
structure BaseWrite where
  cb : WriteCb
  startBlock : Nat
  numBlocks : Nat
  sampled : Nat → Option Bytes
  landed : Nat → Option Nat

inductive FlushCb where
  | data (id : ReqId)
  | metadata (id : ReqId)
  deriving DecidableEq, Repr

/-- A base flush; `mark` holds the versions settled when it was submitted. -/
structure BaseFlush where
  cb : FlushCb
  startBlock : Nat
  numBlocks : Nat
  mark : Nat → Nat

inductive Obs where
  | submitted (id : ReqId)
  | queued (c : ChId) (id : ReqId)
  | unqueued (c : ChId) (id : ReqId)
  | completed (id : ReqId) (ok : Bool)
  | setStatus (stripe : Nat) (status : StripeStatus)
  | enqueued (c : ChId) (stripe : Nat)
  | dequeued (c : ChId) (stripe : Nat)
  /-- A slot is given to a stripe; `busy` if a ring entry still points at it. -/
  | assigned (c : ChId) (slot stripe : Nat) (busy : Bool)
  | fetchSubmit (c : ChId) (slot stripe : Nat) (ok : Bool)
  /-- The completion of `sqe` for a slot, with what the slot then holds. -/
  | fetchCqe (c : ChId) (slot : Nat) (sqe : Sqe) (active : Bool) (stripe : Nat) (res : Int)
  | stripeWrite (stripe : Nat) (ok : Bool)
  | stripeWriteDone (stripe : Nat) (ok : Bool)
  | readCqe (id : ReqId) (sqe : Sqe) (res : Int)
  | userWrite (id : ReqId) (ok : Bool)
  | dataFlushDone (id : ReqId) (ok : Bool)
  | bug (id : ReqId)
  deriving DecidableEq, Repr

structure State where
  stripeStatus : Nat → StripeStatus
  metadata : Bytes
  stripesFetched : Nat
  stripesFlushed : Nat
  channel : ChId → UbiIoChannel
  bdevIo : ReqId → UbiBdevIo
  request : ReqId → Option Request
  buffer : ReqId → Bytes
  waiting : ReqId → Bool
  reads : Nat → Option BaseRead
  writes : Nat → Option BaseWrite
  flushes : Nat → Option BaseFlush
  nextRead : Nat
  nextWrite : Nat
  nextFlush : Nat
  disk : Disk Bytes
  log : List Obs

namespace State

def emit (s : State) (o : Obs) : State := { s with log := o :: s.log }

def setChannel (s : State) (c : ChId) (ch : UbiIoChannel) : State :=
  { s with channel := Function.update s.channel c ch }

def setFetch (s : State) (c : ChId) (k : Nat) (f : StripeFetch) : State :=
  s.setChannel c { s.channel c with
    stripeFetches := Function.update (s.channel c).stripeFetches k f }

/-- `spdk_bdev_io_complete`. -/
def complete (s : State) (id : ReqId) (ok : Bool) : State := s.emit (.completed id ok)

def content (dev : UbiBdev) (s : State) (a : Nat) : UInt8 := s.disk.current (a / dev.blocklen) a

/-- The ring entries of a channel, from preparation until their completion is seen. -/
def ringEntries (s : State) (c : ChId) : List Sqe :=
  (s.channel c).sqes ++ (s.channel c).submitted ++ (s.channel c).cqes.map Cqe.sqe

theorem mem_ringEntries_of_cqe {s : State} {c : ChId} {cqe : Cqe}
    (done : cqe ∈ (s.channel c).cqes) : cqe.sqe ∈ s.ringEntries c :=
  List.mem_append_right _ (List.mem_map_of_mem done)

end State

/-- The conversion of a 64-bit stripe number to the `int` the stripe functions take. -/
def toCInt (n : Nat) : Int := Int.bmod n (2 ^ 32)

theorem toCInt_of_lt {n : Nat} (h : n < ubiMaxStripes) : toCInt n = n := by
  simp only [ubiMaxStripes] at h
  exact Int.bmod_eq_of_le (by omega) (by omega)

namespace Request
variable (dev : UbiBdev) (r : Request)

def startStripe : Nat := r.offsetBlocks >>> dev.stripeShift

/-- `start_block + num_blocks - 1` wraps when `num_blocks` is 0. -/
def endBlock : Nat := (r.offsetBlocks + r.numBlocks + 2 ^ 64 - 1) % 2 ^ 64

def endStripe : Nat := r.endBlock >>> dev.stripeShift

def Covers (p : Nat) : Prop :=
  r.offsetBlocks * dev.blocklen ≤ p ∧ p < (r.offsetBlocks + r.numBlocks) * dev.blocklen

instance (p : Nat) : Decidable (r.Covers dev p) := by unfold Covers; infer_instance

/-- The request asks for a stripe fetch when its stripe has not been fetched. -/
def fetches : Prop := r.type = .write ∨ (r.type = .read ∧ dev.copyOnRead = true)

instance : Decidable (r.fetches dev) := by unfold fetches; infer_instance

end Request

/-- Why a run stops: the event cannot happen in this state, or the code's
behaviour is undefined from here on. -/
inductive Halt where
  | disabled | undefinedBehaviour
  deriving DecidableEq, Repr

end BdevUbi
