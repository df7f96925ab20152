import UdsLib.Machine.Run
import UdsLib.Isotp.Transmit
import UdsLib.Isotp.Receive
import UdsLib.Isotp.BufferSafety
import UdsLib.Isotp.Segmentation
import UdsLib.Isotp.Delivery
import UdsLib.Isotp.RoundTrip
import UdsLib.Isotp.TwoNode
import UdsLib.Isotp.FlowControl
import UdsLib.Isotp.Stream
import UdsLib.Isotp.Duplex
import UdsLib.Isotp.Reassembly
import UdsLib.Machine.Program
import UdsLib.Core.Actions
import UdsLib.Core.Reply
import UdsLib.Services.Maintenance
import UdsLib.Services.Session
import UdsLib.Services.Data
import UdsLib.Services.Flash
import UdsLib.Services.Io
import UdsLib.Services.Memory
import UdsLib.Services.Security
import UdsLib.Core.Api
import UdsLib.Core.Composition
import UdsLib.Services.Composition
import UdsLib.Core.Suppression
import UdsLib.Core.Pending
import UdsLib.Bytes.BigEndian
import UdsLib.Core.AddrLen
import UdsLib.Services.WriteMemory
import UdsLib.Core.Arrival
import UdsLib.Core.Gate
import UdsLib.Core.Path
import UdsLib.Core.OneReply
import UdsLib.Core.Frame
import UdsLib.Core.Atomicity
import UdsLib.Core.Process
import UdsLib.Core.Pair
import UdsLib.Core.Persistence
import UdsLib.Core.Provenance
import UdsLib.Machine.Twin
import UdsLib.Core.Hushes
import UdsLib.Services.Hushes
import UdsLib.Core.Silence
import UdsLib.Services.LateLength
import UdsLib.Core.Priority
import UdsLib.Core.Roles
import UdsLib.Core.Responses
import UdsLib.Core.Locking
import UdsLib.Core.Interference
import UdsLib.Services.Deeds
import UdsLib.Core.Footprint
import UdsLib.Core.RequestBounds
import UdsLib.Core.Callbacks
import UdsLib.Core.Sessions
import UdsLib.Core.Shifts
import UdsLib.Core.BlockOrder
import UdsLib.Core.DidSessions
import UdsLib.Services.Lockout
import UdsLib.Core.Attempts
import UdsLib.Core.Lockout
import UdsLib.Core.Secrecy
import UdsLib.Services.Room
import UdsLib.Core.Room
import UdsLib.Core.AddressSpace
import UdsLib.Core.ExactLength
import UdsLib.Core.Wrapping
import UdsLib.Core.Mirror
import UdsLib.Core.Replay
import UdsLib.Core.TransferEnd
import UdsLib.Core.Inactivity
import UdsLib.Core.Budget
import UdsLib.Core.ClientResponse
import UdsLib.Services.DidRead
import UdsLib.Core.DidReads
import UdsLib.Core.ReadBack
import UdsLib.Core.FieldCodec
import UdsLib.Isotp.TxState
import UdsLib.Isotp.Advertised
import UdsLib.Isotp.FailedSend
import UdsLib.Isotp.Blocks
import UdsLib.Core.Slots
import UdsLib.Core.Registry
import UdsLib.Core.Serving
import UdsLib.Core.Chaining
import UdsLib.Core.Streams
import UdsLib.Core.Timers
import UdsLib.Core.Pacing
import UdsLib.Isotp.Transit
import UdsLib.Isotp.Link
import UdsLib.Isotp.Conveyance
import UdsLib.Isotp.Integrity
import UdsLib.Core.World
import UdsLib.Device.Wiring
import UdsLib.Machine.Simulation
import UdsLib.Device.Projection
import UdsLib.Device.Bus
import UdsLib.Device.Conversation
import UdsLib.Core.Openings
import UdsLib.Device.Hearing
import UdsLib.Isotp.SingleFrames
import UdsLib.Device.Frames
import UdsLib.Isotp.Emission
import UdsLib.Isotp.Separation
import UdsLib.Core.Synchronous
import UdsLib.Device.Serving
import UdsLib.Bytes.Replay
import UdsLib.Core.MemoryAccess
import UdsLib.Core.Accesses
import UdsLib.Device.HostSim
import UdsLib.Device.MockMemory
import UdsLib.Device.Echo
