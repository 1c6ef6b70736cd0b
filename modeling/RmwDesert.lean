import RmwDesert.TcpDaemon
import RmwDesert.Transcoding
import RmwDesert.Lib.Binary
import RmwDesert.NanoCbor
import RmwDesert.TxStream
import RmwDesert.Lib.Reader
import RmwDesert.RxStream
import RmwDesert.MessageSerialization
import RmwDesert.MessageRoundTrip
import RmwDesert.InterpretPackets
import RmwDesert.MessageExchange
import RmwDesert.WireAgreement
import RmwDesert.DesertClient
import RmwDesert.DesertService
import RmwDesert.ServiceNetwork
import RmwDesert.Lib.Counter
import RmwDesert.Security.SecUtils
import RmwDesert.Security.NonceFreshness
import RmwDesert.Dispatch
import RmwDesert.Termination
import RmwDesert.BadPackets
import RmwDesert.Discovery.Beacon
import RmwDesert.Entities
import RmwDesert.Isolation
import RmwDesert.DesertNode
import RmwDesert.Middleware
import RmwDesert.Lib.Buffer
import RmwDesert.Lib.Hexadecimal
import RmwDesert.Security.LocalDelivery
import RmwDesert.Security.Unwrap
import RmwDesert.Security.KdfInfo
import RmwDesert.Discovery.GraphCache
import RmwDesert.Discovery.Thread
import RmwDesert.Discovery.OneNode
import RmwDesert.Discovery.GraphQueries
import RmwDesert.Discovery.Demangle
import RmwDesert.ClientPolls
import RmwDesert.ScalarExtraction
import RmwDesert.Discovery.MalformedBeacons
import RmwDesert.Readiness
import RmwDesert.AllOrNothing
import RmwDesert.LibMcu.Encoder
import RmwDesert.LibMcu.Decoder
import RmwDesert.LibMcu.RxStream
import RmwDesert.Interoperability
import RmwDesert.Insertions
import RmwDesert.LibMcu.Extraction
import RmwDesert.Registries
import RmwDesert.SocketLoops
import RmwDesert.Security.InPlace
import RmwDesert.TextAcceptance
import RmwDesert.SequenceBounds
import RmwDesert.LibMcu.ValueBuffer
import RmwDesert.LibMcu.Delivery
import RmwDesert.LibMcu.Writer
import RmwDesert.LibMcu.Fidelity
import RmwDesert.SocketLink
import RmwDesert.Resynchronization
import RmwDesert.Lib.Merge
import RmwDesert.Inbound
import RmwDesert.DaemonNetwork
import RmwDesert.Mailbox
import RmwDesert.Network
import RmwDesert.TopicNetwork
import RmwDesert.TopicDelivery
import RmwDesert.WaitSet
import RmwDesert.WaitReports
import RmwDesert.Discovery.Convergence
import RmwDesert.Discovery.Announcers
import RmwDesert.Discovery.Network
import RmwDesert.Discovery.Listener
import RmwDesert.InPlaceReads
