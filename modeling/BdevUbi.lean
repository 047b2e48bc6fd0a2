import BdevUbi.Library.Runs
import BdevUbi.Library.History
import BdevUbi.Library.Placement
import BdevUbi.Library.Claims
import BdevUbi.Library.CircularQueue
import BdevUbi.Library.VolatileDisk
import BdevUbi.Library.RegularRegister
import BdevUbi.Library.AtomicRegister
import BdevUbi.Library.Potential
import BdevUbi.Library.Epochs
import BdevUbi.Layout
import BdevUbi.Metadata
import BdevUbi.State
import BdevUbi.Stripe
import BdevUbi.Flush
import BdevUbi.IoChannel
import BdevUbi.System
import BdevUbi.Creation
import BdevUbi.CreationLedger
import BdevUbi.BaseRemoval
import BdevUbi.Acts
import BdevUbi.ActSteps
import BdevUbi.Addressing
import BdevUbi.RequestMoves
import BdevUbi.RequestPlaces
import BdevUbi.StripeMoves
import BdevUbi.StripePlaces
import BdevUbi.StripeIndices
import BdevUbi.StripeLifecycle
import BdevUbi.MetadataEncoding
import BdevUbi.StripeGate
import BdevUbi.BaseWrites
import BdevUbi.BaseFlushes
import BdevUbi.FetchOutcomes
import BdevUbi.Quiescence
import BdevUbi.TailBlocks
import BdevUbi.FetchData
import BdevUbi.BlockLedger
import BdevUbi.ImageReads
import BdevUbi.ReadBuffers
import BdevUbi.HeaderDurability
import BdevUbi.MetadataWrites
import BdevUbi.FlushChains
import BdevUbi.FlushedWrites
import BdevUbi.Recreation
import BdevUbi.WriteThrough
import BdevUbi.StripeQueue
import BdevUbi.PreparedEntries
import BdevUbi.SlotReuse
import BdevUbi.MetadataOrder
import BdevUbi.AtomicBytes
import BdevUbi.BoundedWork
import BdevUbi.PromptPolls
import BdevUbi.Drain
import BdevUbi.Recovery
import BdevUbi.Lives
import BdevUbi.DurableBytes
import BdevUbi.FetchBuffers
import BdevUbi.Channels
import BdevUbi.Node
import BdevUbi.Rpc
import BdevUbi.RpcAnswers
import BdevUbi.RpcConfig
