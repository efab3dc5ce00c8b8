import Bancho.Library.LittleEndian
import Bancho.Library.FixedCode
import Bancho.Library.GzipMember
import Bancho.Library.Streaming
import Bancho.Library.OneShot
import Bancho.Library.Framing
import Bancho.Library.Transition
import Bancho.Library.Family
import Bancho.Library.Traced
import Bancho.Server.Zlib
import Bancho.Server.BanchoPacket
import Bancho.Server.Session
import Bancho.Server.Reader
import Bancho.Server.Writer
import Bancho.Server.AsyncWrite
import Bancho.Server.Connection
import Bancho.Server.Server
import Bancho.Server.Lifetime
import Bancho.Server.Logger
import Bancho.Server.SessionLog
import Bancho.Server.FixedZlib
import Bancho.Packet.Fields
import Bancho.Packet.Verdict
import Bancho.Packet.Access
import Bancho.Packet.GzipLoops
import Bancho.Packet.Decompress
import Bancho.Packet.Compress
import Bancho.Packet.RoundTrip
import Bancho.Packet.Payload
import Bancho.Packet.Canonical
import Bancho.Reader.Answer
import Bancho.Reader.Detection
import Bancho.Reader.Simulation
import Bancho.Reader.Calls
import Bancho.Reader.Segmentation
import Bancho.Reader.Delivery
import Bancho.Reader.Steps
import Bancho.Reader.Invariants
import Bancho.Reader.ContentSize
import Bancho.Reader.Decomposition
import Bancho.Reader.Effort
import Bancho.Reader.RawRead
import Bancho.Reader.SessionLog
import Bancho.Writer.Header
import Bancho.Writer.Protocol
import Bancho.Writer.Accounting
import Bancho.Writer.Chunks
import Bancho.Writer.Transfer
import Bancho.Writer.Completion
import Bancho.Session.Sides
import Bancho.Session.Connection
import Bancho.Session.EndToEnd
import Bancho.Session.Accepted
import Bancho.Session.Quiescence
import Bancho.Session.Lifetime
import Bancho.Session.Memory
