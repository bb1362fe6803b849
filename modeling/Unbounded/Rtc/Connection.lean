import Unbounded.Net

/-!
# WebRTC values

The values of the `webrtc` crate that the sessions read: the state of a peer connection, session
descriptions and ICE candidates.
-/

namespace Unbounded.Rtc

/-- `RTCPeerConnectionState`. -/
inductive PeerConnectionState where
  | unspecified
  | new
  | connecting
  | connected
  | disconnected
  | failed
  | closed
  deriving DecidableEq, Repr

/-- `is_terminal_peer_state`, the same in `src/consumer.rs` and in `src/peer_proxy.rs`. -/
def isTerminalPeerState : PeerConnectionState → Bool
  | .disconnected | .failed | .closed => true
  | _ => false

/-- How the wait for an open DataChannel ends: the channel opened, the timeout passed, the sender
was dropped unsent, or a terminal state came first. -/
inductive ChannelWait where
  | opened
  | natTimeout
  | closed
  | ended (state : PeerConnectionState)
  deriving DecidableEq, Repr

/-- `RTCSdpType`. -/
inductive SdpType where
  | unspecified
  | offer
  | pranswer
  | answer
  | rollback
  deriving DecidableEq, Repr

/-- `RTCSessionDescription`. -/
structure SessionDescription where
  sdpType : SdpType
  sdp : String
  deriving DecidableEq, Repr

/-- `RTCIceProtocol`. -/
inductive IceProtocol where
  | unspecified
  | udp
  | tcp
  deriving DecidableEq, Repr

/-- `RTCIceCandidateType`. -/
inductive IceCandidateType where
  | unspecified
  | host
  | srflx
  | prflx
  | relay
  deriving DecidableEq, Repr

/-- `RTCIceCandidate`. -/
structure IceCandidate where
  statsId : String
  foundation : String
  priority : UInt32
  address : String
  protocol : IceProtocol
  port : UInt16
  typ : IceCandidateType
  component : UInt16
  relatedAddress : String
  relatedPort : UInt16
  tcpType : String
  deriving DecidableEq, Repr

end Unbounded.Rtc
