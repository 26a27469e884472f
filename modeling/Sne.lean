import Sne.Library.Exec
import Sne.Library.Bits
import Sne.Library.Endian
import Sne.Library.Frames
import Sne.Library.Framing
import Sne.Library.Runs
import Sne.Library.Simulation
import Sne.Library.Crc
import Sne.Library.Codec
import Sne.Library.Sequence
import Sne.Library.ByteMemory
import Sne.Library.Bisection
import Sne.Library.Orders
import Sne.Library.BinaryHeap
import Sne.Library.HashTable
import Sne.Library.InPlace
import Sne.Core.StreamBuffer
import Sne.Core.Unicode
import Sne.Core.Stream
import Sne.Core.OBitStream
import Sne.Core.IBitStream
import Sne.Core.BitPacking
import Sne.Core.BitUnpacking
import Sne.Core.BitRoundTrip
import Sne.Core.CarrierRoundTrip
import Sne.Core.MixedRoundTrip
import Sne.Core.BitString
import Sne.Core.BitReading
import Sne.Core.Utf8RoundTrip
import Sne.Core.Utf8Canonical
import Sne.Core.WideStringRoundTrip
import Sne.Core.ByteStream
import Sne.Core.StreamAgreement
import Sne.Core.VectorStreamBuffer
import Sne.Base.MemoryBlock
import Sne.Base.StreamBufferRefinement
import Sne.Base.VectorGrowth
import Sne.Base.BitStreamReset
import Sne.Base.AsioTimer
import Sne.Base.TimerTracking
import Sne.Base.TaskScheduler
import Sne.Base.MemoryPool
import Sne.Base.PoolRuns
import Sne.Base.PoolCapacity
import Sne.Base.VariousMemoryAllocator
import Sne.Base.AllocationSizes
import Sne.Base.MemoryBlockManager
import Sne.Base.BandwidthLimit
import Sne.Sgp.CsProtocol
import Sne.Sgp.PacketCoder
import Sne.Sgp.SgpMarshaller
import Sne.Sgp.PacketFraming
import Sne.Sgp.ReceiveBuffer
import Sne.Security.BlockCipher
import Sne.Security.KeyMaterial
import Sne.Sgp.CipherKeyGenerator
import Sne.Sgp.SecurePacketCoder
import Sne.Sgp.TeaSuite
import Sne.Security.CipherHistory
import Sne.Sgp.SecureRoundTrip
import Sne.Sgp.RefusedPackets
import Sne.Sgp.CheckSumStrength
import Sne.Sgp.PacketsInFlight
import Sne.Sgp.MarshalSoundness
import Sne.Session.TcpSessionImpl
import Sne.Session.WritePath
import Sne.Session.SendOrder
import Sne.Session.MarshalSteps
import Sne.Session.GracefulDisconnect
import Sne.Session.SendBlocks
import Sne.Session.IoContextSessions
import Sne.Session.SessionRelease
import Sne.Session.StaleHandlers
import Sne.Session.PendingWrites
import Sne.Session.ReadPath
import Sne.Session.Endpoint
import Sne.Session.MessageFlow
import Sne.Session.Outgoing
import Sne.Session.Undisturbed
import Sne.Session.Connection
import Sne.Session.Rest
import Sne.Srpc.RpcTypes
import Sne.Srpc.RpcRoundTrip
import Sne.Srpc.StringRoundTrip
import Sne.Srpc.RpcNetwork
import Sne.Srpc.RpcDispatch
import Sne.Srpc.RpcCommandCodec
import Sne.Srpc.RpcDelivery
import Sne.Srpc.RpcConnection
import Sne.Srpc.ReceivedValues
import Sne.Srpc.ReceivedCalls
import Sne.Srpc.SgpRpcNetwork
import Sne.Srpc.HashContainers
import Sne.Srpc.HostByteOrder
import Sne.Sgp.CsMessage
import Sne.Sgp.PacketSeedExchanger
import Sne.Server.ServerSideSession
import Sne.Server.AuthenticationTimeout
import Sne.Server.SeedState
import Sne.Server.GeneralMessages
import Sne.Server.KeyRotation
import Sne.Server.SeedConfirmation
import Sne.Server.ServerSpec
import Sne.Server.Heartbeat
import Sne.Server.ReceiveBlocks
import Sne.Server.ServerSideProxy
import Sne.Server.ClientSideBridge
import Sne.Client.ClientSession
import Sne.Database.DatabaseProxySession
import Sne.Database.ProxyScheduler
import Sne.Database.RequestQueue
import Sne.Database.SqlServerProxyDatabase
import Sne.Database.ProxyServer
import Sne.Database.Delegation
import Sne.Database.DatabasePool
import Sne.Sgp.SeedExchange
import Sne.Sgp.SeedAgreement
import Sne.Session.MessagingExtension
import Sne.Server.RegisteredMessages
