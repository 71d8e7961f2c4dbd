import Koisyn.Theory.Run
import Koisyn.Theory.LockTrace
import Koisyn.Checksum.IntRange
import Koisyn.Checksum.GetChecksum
import Koisyn.Checksum.Unordered
import Koisyn.Channel.Receive
import Koisyn.Channel.Deframing
import Koisyn.Channel.Reassembly
import Koisyn.Channel.Delivery
import Koisyn.Channel.SharedBuffer
import Koisyn.Session.Handshake
import Koisyn.Session.Events
import Koisyn.Session.World
import Koisyn.Session.RefCount
import Koisyn.Session.Datagram
import Koisyn.Session.DatagramNumbers
import Koisyn.Session.DatagramBounds
import Koisyn.Session.RefusedConnection
import Koisyn.Session.StreamIds
import Koisyn.Session.History
import Koisyn.Session.Registration
import Koisyn.Session.Pairing
import Koisyn.Session.Acceptance
import Koisyn.Session.OnePerRemote
import Koisyn.Session.PortAgreement
import Koisyn.Session.Freshness
import Koisyn.Session.OldSession
import Koisyn.Session.Recovery
import Koisyn.Session.Locks
import Koisyn.Session.FirstPacket
import Koisyn.Session.StreamHandles
import Koisyn.Session.ChannelIdentity
import Koisyn.Session.Destructor
import Koisyn.Rng.Lcg
import Koisyn.Checksum.Sums
import Koisyn.Net.ReceiveLoop
import Koisyn.Theory.InetText
import Koisyn.Net.AddressParser
import Koisyn.Session.Deadline
import Koisyn.Session.Addressee
import Koisyn.Session.Daemon
import Koisyn.Net.UdpSocket
import Koisyn.Session.Start
import Koisyn.Session.Publish
import Koisyn.Session.Deadlock
import Koisyn.Net.AddressText
import Koisyn.Session.Callbacks
import Koisyn.Session.ConnectionHandles
import Koisyn.Session.Completion
import Koisyn.Checksum.ChunkView
import Koisyn.Session.Loader
import Koisyn.Session.Certificate
import Koisyn.Session.Establishment
import Koisyn.Session.Parting
import Koisyn.Session.Endurance
import Koisyn.Session.Conversation
import Koisyn.Session.Consent
