import Unbounded.VirtualUdp.Isolation
import Unbounded.ConsumerPath.Lifetime
import Unbounded.ConsumerPath.Addresses
import Unbounded.Consumer.Session
import Unbounded.Consumer.Sessions
import Unbounded.Consumer.FreshAddresses
import Unbounded.VirtualUdp.Traffic
import Unbounded.Execution.Conservation
import Unbounded.Rtc.DataChannel
import Unbounded.Egress.Tunnel
import Unbounded.Relay.Relay
import Unbounded.EndToEnd.Link
import Unbounded.EndToEnd.Network
import Unbounded.EndToEnd.Integrity
import Unbounded.PeerProxy.Session
import Unbounded.PeerProxy.Callbacks
import Unbounded.PeerProxy.Balance
import Unbounded.PeerProxy.Peer
import Unbounded.PeerProxy.Provenance
import Unbounded.PeerProxy.Announcement
import Unbounded.Consumer.Moves
import Unbounded.Execution.Exchange
import Unbounded.Signaling.Freddie
import Unbounded.Signaling.Pairing
import Unbounded.Supervisor.Accounting
import Unbounded.Supervisor.Worker
import Unbounded.Supervisor.Pool
import Unbounded.Egress.Connect
import Unbounded.Supervisor.Backoff
import Unbounded.Egress.Stream
import Unbounded.Signaling.Advertisements
import Unbounded.VirtualUdp.Multiplexing
import Unbounded.ConsumerPath.Admission
import Unbounded.ConsumerQuic.Broker
import Unbounded.ConsumerQuic.Publication
import Unbounded.Json.Strings
import Unbounded.Json.Value
import Unbounded.Text.Base64
import Unbounded.Json.Record
import Unbounded.Wire.Packet
import Unbounded.Json.Texts
import Unbounded.Wire.Ice
import Unbounded.Consumer.Maintain
import Unbounded.Consumer.Maintenance
import Unbounded.ConsumerSocks5.Handshake
import Unbounded.ConsumerSocks5.Request
import Unbounded.ConsumerQuic.Wakeups
import Unbounded.EndToEnd.Closing
import Unbounded.Rtc.EventOrder
import Unbounded.Consumer.SelectGenesis
import Unbounded.PeerProxy.Opening
import Unbounded.EndToEnd.Opening
import Unbounded.Json.Reports
import Unbounded.Wire.Decoding
import Unbounded.Supervisor.ErrorTexts
import Unbounded.Wire.Signals
import Unbounded.Signaling.Safety
import Unbounded.Text.FormUrlencoded
import Unbounded.Json.Lines
import Unbounded.Signaling.Http
import Unbounded.Consumer.Discovery
import Unbounded.EndToEnd.System
import Unbounded.EndToEnd.Attribution
import Unbounded.Execution.Progress
import Unbounded.Supervisor.Shutdown
import Unbounded.Supervisor.Vetting
import Unbounded.Text.Words
import Unbounded.Program.Lines
import Unbounded.Program.Formats
import Unbounded.Program.Main
import Unbounded.Program.Runs
import Unbounded.Execution.Clock
import Unbounded.Supervisor.Pacing
import Unbounded.Consumer.Pacing
import Unbounded.Tokio.Conversation
import Unbounded.ConsumerSocks5.Dialer
import Unbounded.ConsumerSocks5.Dialing
