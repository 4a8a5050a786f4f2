import Cpe.Lib.Run
import Cpe.Lib.Interleave
import Cpe.Lib.MemoTable
import Cpe.Lib.BitPrefix
import Cpe.Lib.ByteOrder
import Cpe.Lib.CString
import Cpe.Lib.Number
import Cpe.Lib.InetAddr
import Cpe.Lib.ProtoWire
import Cpe.Pro.Messages
import Cpe.Main.Config
import Cpe.Main.Dispatch
import Cpe.Main.Session
import Cpe.Main.Lookup
import Cpe.Lib.FirstMatch
import Cpe.Main.Updates
import Cpe.Main.Runs
import Cpe.Pro.Encode
import Cpe.Proofs.CacheRuns
import Cpe.Proofs.SessionErrors
import Cpe.Proofs.Routes
import Cpe.Proofs.TapCache
import Cpe.Proofs.MeshNotify
import Cpe.Proofs.MeshRace
import Cpe.Proofs.Rebuild
import Cpe.Main.Subnets
import Cpe.Proofs.MostSpecific
import Cpe.Main.Device
import Cpe.Proofs.FrameTransport
import Cpe.Proofs.TapClasses
import Cpe.Proofs.TunTapAgree
import Cpe.Proofs.CidrLookup
import Cpe.Proofs.Spelling
import Cpe.Proofs.SessionFrames
import Cpe.Proofs.Publish
import Cpe.Proofs.RouteMessages
import Cpe.Main.Process
import Cpe.Proofs.ReadLoop
import Cpe.Main.LoadConfig
import Cpe.Proofs.Reload
import Cpe.Main.TapSetup
import Cpe.Proofs.MacRestart
import Cpe.Lib.Crc
import Cpe.Uvpp.Crc
import Cpe.Proofs.CrcTable
import Cpe.Proofs.BadSettings
import Cpe.Proofs.ReloadFailure
import Cpe.Proofs.DefaultRoute
import Cpe.Proofs.ForeignPackets
import Cpe.Proofs.RouteUndo
import Cpe.Lib.CInt
import Cpe.Proofs.MaskArithmetic
import Cpe.Lib.Access
import Cpe.Main.Reads
import Cpe.Proofs.HeaderFields
import Cpe.Proofs.PacketBounds
import Cpe.Main.SplitThreads
import Cpe.Proofs.SplitRace
import Cpe.Proofs.BurstErrors
import Cpe.Proofs.TextRoundTrips
import Cpe.Lib.MaximalRuns
import Cpe.Lib.Tokens
import Cpe.Proofs.SplitPieces
import Cpe.Lib.Streams
import Cpe.Uvpp.Hexdump
import Cpe.Proofs.DumpOverloads
import Cpe.Lib.History
import Cpe.Main.Overlay
import Cpe.Proofs.Provenance
import Cpe.Proofs.Delivery
import Cpe.Proofs.Convergence
import Cpe.Lib.ProtoCodec
import Cpe.Pro.Packets
import Cpe.Proofs.PacketCodecs
import Cpe.Proofs.Announcements
import Cpe.Lib.Calls
import Cpe.Uvpp.TunTap
import Cpe.Proofs.Descriptors
import Cpe.Main.RouteCalls
import Cpe.Main.Wormhole
import Cpe.Proofs.KernelRoutes
import Cpe.Proofs.WormholeProtocol
import Cpe.Proofs.HandleLifetimes
import Cpe.Main.Signals
import Cpe.Proofs.MeshDump
import Cpe.Proofs.DumpBuffer
import Cpe.Main.StartCalls
import Cpe.Proofs.StartUp
import Cpe.Lib.Trace
import Cpe.Proofs.FrameAccounts
