import Dsline.Core.Burst
import Dsline.Core.BytesRing
import Dsline.Core.Config
import Dsline.Core.Crc
import Dsline.Core.Error
import Dsline.Core.Frame
import Dsline.Core.FrameCodec
import Dsline.Core.FrameFormat
import Dsline.Core.Text
import Dsline.Library.Area
import Dsline.Library.Chunks
import Dsline.Library.Effect
import Dsline.Library.Eviction
import Dsline.Library.Feed
import Dsline.Library.LittleEndian
import Dsline.Library.Machine
import Dsline.Library.Outcome
import Dsline.Library.Path
import Dsline.Library.Run
import Dsline.Library.ShiftRegister
import Dsline.Library.Simulation
import Dsline.Library.Split
import Dsline.Library.Window
import Dsline.Library.Words
import Dsline.Mpsc.Delivery
import Dsline.Mpsc.Drop
import Dsline.Mpsc.Reclaim
import Dsline.Mpsc.Refresh
import Dsline.Mpsc.Reserve
import Dsline.Ops.Columns
import Dsline.Ops.DisplayRoundTrip
import Dsline.Ops.Expr
import Dsline.Ops.Float
import Dsline.Ops.Grammar
import Dsline.Ops.Parser
import Dsline.Ops.ParserSpec
import Dsline.Ops.Spelling
import Dsline.Ops.Tokenizer
import Dsline.Ops.Whole
import Dsline.Pipeline.Collect
import Dsline.Pipeline.Compose
import Dsline.Pipeline.ExprOps
import Dsline.Pipeline.Stream
import Dsline.Sharded.Broadcast
import Dsline.Sharded.Channel
import Dsline.Sharded.Files
import Dsline.Sharded.Routing
import Dsline.Shm.Accounting
import Dsline.Shm.Backend
import Dsline.Shm.BoundedFifo
import Dsline.Shm.Bursts
import Dsline.Shm.Channel
import Dsline.Shm.ChannelRecv
import Dsline.Shm.ChannelSend
import Dsline.Shm.Chunking
import Dsline.Shm.CleanupReopen
import Dsline.Shm.CommittedPrefix
import Dsline.Shm.Consume
import Dsline.Shm.CreateOrOpen
import Dsline.Shm.Damaged
import Dsline.Shm.DropInside
import Dsline.Shm.DropLoop
import Dsline.Shm.DropOldest
import Dsline.Shm.DropReturns
import Dsline.Shm.DropSpec
import Dsline.Shm.Entries
import Dsline.Shm.ExactlyOnce
import Dsline.Shm.FailedView
import Dsline.Shm.Flush
import Dsline.Shm.Handle
import Dsline.Shm.InPlace
import Dsline.Shm.Inbox
import Dsline.Shm.Layout
import Dsline.Shm.LeaseSpec
import Dsline.Shm.Leases
import Dsline.Shm.Liveness
import Dsline.Shm.Memory
import Dsline.Shm.MemorySpec
import Dsline.Shm.MessageCodec
import Dsline.Shm.Messages
import Dsline.Shm.OpenCalls
import Dsline.Shm.OpenSpec
import Dsline.Shm.PinFloor
import Dsline.Shm.Plan
import Dsline.Shm.PlanLimits
import Dsline.Shm.ProcStat
import Dsline.Shm.Prototype
import Dsline.Shm.Receive
import Dsline.Shm.ReclaimSpec
import Dsline.Shm.RecvSpec
import Dsline.Shm.Region
import Dsline.Shm.RegionBytes
import Dsline.Shm.RegionCalls
import Dsline.Shm.RegionFile
import Dsline.Shm.RegionPath
import Dsline.Shm.RegionRefine
import Dsline.Shm.Reopen
import Dsline.Shm.Ring
import Dsline.Shm.SendSpec
import Dsline.Shm.Slot
import Dsline.Shm.SlotExchange
import Dsline.Shm.SoleHandle
import Dsline.Shm.Spsc
import Dsline.Shm.SpscInv
import Dsline.Shm.SpscMoves
import Dsline.Shm.SpscReceive
import Dsline.Shm.Tidy
import Dsline.Shm.TryRecv
import Dsline.Shm.Undo
import Dsline.Shm.ViewSpec
import Dsline.Shm.ZeroCopy
import Dsline.Transport.TcpTarget
import Dsline.Transport.Url
import Dsline.Transport.UrlRoundTrip
