import Sel4Test.Adl.ArrayList
import Sel4Test.Adl.ByteArray
import Sel4Test.Adl.LinkedList
import Sel4Test.Adl.Primitives
import Sel4Test.Adl.Rebalance
import Sel4Test.Adl.RedBlackTree
import Sel4Test.Adl.Removal
import Sel4Test.Adl.StringBuilt
import Sel4Test.Adl.StringObject
import Sel4Test.Adl.StringOps
import Sel4Test.Adl.StringOrder
import Sel4Test.Adl.Traversal
import Sel4Test.Adl.TreeHeap
import Sel4Test.Adl.TreeMap
import Sel4Test.Frontend.AddrStr
import Sel4Test.Frontend.Buffers
import Sel4Test.Frontend.Connect
import Sel4Test.Frontend.Creation
import Sel4Test.Frontend.Effect
import Sel4Test.Frontend.Engine
import Sel4Test.Frontend.Fragmentation
import Sel4Test.Frontend.Ids
import Sel4Test.Frontend.Iot
import Sel4Test.Frontend.Linked
import Sel4Test.Frontend.Message
import Sel4Test.Frontend.Passive
import Sel4Test.Frontend.Pool
import Sel4Test.Frontend.Receive
import Sel4Test.Frontend.RoundTrip
import Sel4Test.Frontend.Screening
import Sel4Test.Frontend.SharedMemIo
import Sel4Test.Frontend.Streams
import Sel4Test.HelloWorld.Hex
import Sel4Test.HelloWorld.PollBounds
import Sel4Test.HelloWorld.PollServer
import Sel4Test.Hyperamp.Channel
import Sel4Test.Hyperamp.Copies
import Sel4Test.Hyperamp.Fifo
import Sel4Test.Hyperamp.Publication
import Sel4Test.Hyperamp.Queue
import Sel4Test.Hyperamp.QueueSpec
import Sel4Test.Kernel.Authority
import Sel4Test.Kernel.Boot
import Sel4Test.Kernel.BootUntypeds
import Sel4Test.Kernel.CallBoost
import Sel4Test.Kernel.CallFrame
import Sel4Test.Kernel.CallStacks
import Sel4Test.Kernel.Cap
import Sel4Test.Kernel.Deletion
import Sel4Test.Kernel.Derivation
import Sel4Test.Kernel.DomainSchedule
import Sel4Test.Kernel.Endpoint
import Sel4Test.Kernel.FastLookup
import Sel4Test.Kernel.FreeMem
import Sel4Test.Kernel.Invocation
import Sel4Test.Kernel.Ipc
import Sel4Test.Kernel.IpcQueues
import Sel4Test.Kernel.IpcRuns
import Sel4Test.Kernel.Layout
import Sel4Test.Kernel.Lookup
import Sel4Test.Kernel.Mdb
import Sel4Test.Kernel.Notification
import Sel4Test.Kernel.Refills
import Sel4Test.Kernel.Reply
import Sel4Test.Kernel.ReservedRegions
import Sel4Test.Kernel.Reset
import Sel4Test.Kernel.Revoke
import Sel4Test.Kernel.RootServer
import Sel4Test.Kernel.Scheduler
import Sel4Test.Kernel.SchedulerRuns
import Sel4Test.Kernel.SchedulerTurns
import Sel4Test.Kernel.ServerPort
import Sel4Test.Kernel.Sporadic
import Sel4Test.Kernel.SporadicServer
import Sel4Test.Kernel.Untyped
import Sel4Test.Kernel.ZombieCap
import Sel4Test.Lib.BlockHeap
import Sel4Test.Lib.Bump
import Sel4Test.Lib.ByteMem
import Sel4Test.Lib.Chains
import Sel4Test.Lib.Checked
import Sel4Test.Lib.Circular
import Sel4Test.Lib.Dialogue
import Sel4Test.Lib.Exec
import Sel4Test.Lib.FiniteMap
import Sel4Test.Lib.Framing
import Sel4Test.Lib.Intervals
import Sel4Test.Lib.Ledger
import Sel4Test.Lib.LevelBitmap
import Sel4Test.Lib.LinkedQueue
import Sel4Test.Lib.Pointers
import Sel4Test.Lib.Potential
import Sel4Test.Lib.RedBlack
import Sel4Test.Lib.Rendezvous
import Sel4Test.Lib.Ring
import Sel4Test.Lib.Routine
import Sel4Test.Lib.Search
import Sel4Test.Lib.Threads
import Sel4Test.Lib.Touch
import Sel4Test.Lib.ZeroByte
import Sel4Test.Monkey.AddrConnect
import Sel4Test.Monkey.Auth
import Sel4Test.Monkey.Blocks
import Sel4Test.Monkey.Bridge
import Sel4Test.Monkey.BridgeConnect
import Sel4Test.Monkey.Connect
import Sel4Test.Monkey.Decoders
import Sel4Test.Monkey.Hello
import Sel4Test.Monkey.IP4Addr
import Sel4Test.Monkey.IdentityKeys
import Sel4Test.Monkey.KeyExchange
import Sel4Test.Monkey.Message
import Sel4Test.Monkey.MsgBuffer
import Sel4Test.Monkey.OneClick
import Sel4Test.Monkey.PlainChar
import Sel4Test.Monkey.PlainText
import Sel4Test.Monkey.Rc4
import Sel4Test.Monkey.RecvBounds
import Sel4Test.Monkey.Response
import Sel4Test.Monkey.Session
import Sel4Test.Monkey.WireFormat
import Sel4Test.Server.Bulk
import Sel4Test.Server.BulkRange
import Sel4Test.Server.BulkRoundTrip
import Sel4Test.Server.BulkStatus
import Sel4Test.Server.Ch0
import Sel4Test.Server.Forward
import Sel4Test.Server.MessageBounds
import Sel4Test.Server.Sessions
import Sel4Test.Server.Slots
import Sel4Test.Sync.BinSem
import Sel4Test.Sync.ConditionVar
import Sel4Test.Sync.Notification
import Sel4Test.Sync.RecursiveMutex
import Sel4Test.Sync.Semaphore
