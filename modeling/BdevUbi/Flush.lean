import BdevUbi.Stripe

/-!
FLUSH requests: `bdev_ubi_flush.c`. The data of the requested range is flushed
first; if stripes were fetched since the last metadata write, the metadata is then
written and flushed in turn.
-/

namespace BdevUbi

def ubiSubmitFlushRequest (dev : UbiBdev) (s : State) (id : ReqId) (ret : Int) : State :=
  if dev.noSync then s.complete id true
  else
    let ubiIo := s.bdevIo id
    let startBlock := ubiIo.blockOffset + dev.dataOffsetBlocks
    if baseAccepts dev startBlock ubiIo.blockCount ret then
      s.startFlush (.data id) startBlock ubiIo.blockCount
    else s.complete id false

/-- A failed data flush is only logged: the request is not completed. -/
def ubiDataFlushCompletion (dev : UbiBdev) (s : State) (id : ReqId) (success : Bool)
    (ret : Int) : State :=
  let seen := s.emit (.dataFlushDone id success)
  if !success then seen
  else if seen.stripesFetched = seen.stripesFlushed then seen.complete id true
  else
    let numBlocks := ubiMetadataSize / dev.blocklen
    let captured := { seen with
      bdevIo := Function.update seen.bdevIo id
        { seen.bdevIo id with stripesFetched := seen.stripesFetched } }
    if baseAccepts dev 0 numBlocks ret then captured.startWrite (.metadata id) 0 numBlocks
    else captured.complete id false

def ubiMetadataWriteCompletion (dev : UbiBdev) (s : State) (id : ReqId) (success : Bool)
    (ret : Int) : State :=
  if !success then s.complete id false
  else
    let numBlocks := ubiMetadataSize / dev.blocklen
    if baseAccepts dev 0 numBlocks ret then s.startFlush (.metadata id) 0 numBlocks
    else s.complete id false

def ubiMetadataFlushCompletion (s : State) (id : ReqId) (success : Bool) : State :=
  if !success then s.complete id false
  else
    let flushed := { s with stripesFlushed :=
      if (s.bdevIo id).stripesFetched > s.stripesFlushed then (s.bdevIo id).stripesFetched
      else s.stripesFlushed }
    flushed.complete id true

end BdevUbi
