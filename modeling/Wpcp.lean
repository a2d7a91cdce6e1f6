import Wpcp.Lib.Run
import Wpcp.Lib.LinkedPath
import Wpcp.Session.OutQueue
import Wpcp.Session.OutLinks
import Wpcp.Session.OutOrder
import Wpcp.Session.Ahead
import Wpcp.Cbor.Value
import Wpcp.Cbor.Header
import Wpcp.Lib.Attempt
import Wpcp.Cbor.Reader
import Wpcp.Cbor.Wire
import Wpcp.Cbor.Scan
import Wpcp.Cbor.Simulation
import Wpcp.Cbor.ReaderScan
import Wpcp.Cbor.Bounds
import Wpcp.Cbor.Writer
import Wpcp.Cbor.ItemWriter
import Wpcp.Cbor.Writes
import Wpcp.Cbor.Canonical
import Wpcp.Cbor.RoundTrip
import Wpcp.Lib.Heap
import Wpcp.Lib.BinarySearch
import Wpcp.Session.Subscription
import Wpcp.Session.Application
import Wpcp.Session.InMessage
import Wpcp.Session.Delete
import Wpcp.Session.Events
import Wpcp.Session.System
import Wpcp.Session.Invariant
import Wpcp.Session.Frame
import Wpcp.Session.Table
import Wpcp.Session.TableRuns
import Wpcp.Session.Writes
import Wpcp.Session.Preservation
import Wpcp.Session.Completion
import Wpcp.Session.ApplicationCalls
import Wpcp.Session.Settled
import Wpcp.Session.Traversal
import Wpcp.Session.Closing
import Wpcp.Session.Reachable
import Wpcp.Session.Conserved
import Wpcp.Session.Leaves
import Wpcp.Session.Assertions
import Wpcp.Session.Items
import Wpcp.Session.Overtaking
import Wpcp.Session.Attribution
import Wpcp.Session.References
import Wpcp.Session.ItemTables
import Wpcp.Session.ReferenceRuns
import Wpcp.Session.Entries
import Wpcp.Session.Delivery
import Wpcp.Session.DeliveryRuns
import Wpcp.Session.Missing
import Wpcp.Session.Referred
import Wpcp.Session.Backing
import Wpcp.Session.Counters
import Wpcp.Session.Orphaned
import Wpcp.Cbor.Calls
import Wpcp.Cbor.Counts
import Wpcp.Cbor.ItemReads
import Wpcp.Cbor.ChunkTree
import Wpcp.Lib.FloatFormat
import Wpcp.Cbor.FloatNodes
import Wpcp.Cbor.HeaderReader
import Wpcp.Cbor.MapItems
import Wpcp.Session.Dispatched
import Wpcp.Session.EveryItem
import Wpcp.Session.ItemLinks
import Wpcp.Session.Registry
import Wpcp.Session.Crowded
import Wpcp.Session.Accepting
import Wpcp.Lib.Ledger
import Wpcp.Session.Appended
import Wpcp.Session.HeldBack
import Wpcp.Session.AllOrNothing
import Wpcp.Session.Room
import Wpcp.Session.Unsubscribing
import Wpcp.Cbor.ItemMaps
import Wpcp.Cbor.Chunks
import Wpcp.Lib.NullTerminated
import Wpcp.Session.BlockedArray
import Wpcp.Session.FreeIds
import Wpcp.Cbor.Overflow
import Wpcp.Session.Lengths
import Wpcp.Session.LongRequest
import Wpcp.Session.Disposal
import Wpcp.Session.Kinds
import Wpcp.Session.LastUse
import Wpcp.Session.Released
import Wpcp.Session.StandIn
import Wpcp.Session.Messages
import Wpcp.Transport.Server
import Wpcp.Transport.Connections
import Wpcp.Cbor.Written
import Wpcp.Session.Encoded
