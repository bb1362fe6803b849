import Unbounded.ConsumerPath.Path
import Unbounded.Execution.Machine
import Unbounded.Rtc.Connection
import Unbounded.Signaling.Signaler

/-!
# One consumer session

`run_consumer_session` of `src/consumer.rs` as a machine. A control point is an await point of the
function, or a place where it hands control to the allocator or to `run_consumer_path`, and an input
is what the awaited operation returned. WebRTC, the signaling server and the timers decide the
inputs. An effect is what the session asks of the outside on its way to the next control point.

From the first signaling step to the end of the path the session runs inside a `select!` that
cancellation leaves at any await point, and the connection is closed on the way out. Before that,
a failure returns at once.
-/

namespace Unbounded.Consumer

open ConsumerPath (PathEnd PathError PathResult)
open Rtc (PeerConnectionState ChannelWait SessionDescription IceCandidate IceCandidateType)
open Signaling (SignalingError Reply)

/-- `ConsumerConfig`, as far as a session reads it. The STUN servers and the IPv6 switch go to
WebRTC unread, and the durations are those of timers whose expiry is an input. -/
structure ConsumerConfig where
  consumerSessionId : String
  tag : String
  pathQueueCapacity : Nat
  deriving DecidableEq, Repr

/-- `OfferMessage` of the consumer. -/
structure OfferMessage where
  sdp : SessionDescription
  tag : String
  deriving DecidableEq, Repr

/-- `ConsumerIceCandidate`. -/
structure ConsumerIceCandidate where
  foundation : String
  priority : UInt32
  address : String
  protocol : UInt8
  port : UInt16
  typ : IceCandidateType
  component : UInt16
  relatedAddress : String
  relatedPort : UInt16
  tcpType : String
  deriving DecidableEq, Repr

/-- `From<&RTCIceCandidate> for ConsumerIceCandidate`. -/
def ConsumerIceCandidate.ofCandidate (candidate : IceCandidate) : ConsumerIceCandidate where
  foundation := candidate.foundation
  priority := candidate.priority
  address := candidate.address
  protocol := match candidate.protocol with
    | .udp => 1
    | .tcp => 2
    | .unspecified => 0
  port := candidate.port
  typ := candidate.typ
  component := candidate.component
  relatedAddress := candidate.relatedAddress
  relatedPort := candidate.relatedPort
  tcpType := candidate.tcpType

/-- `IceMessage` of the consumer. -/
structure IceMessage where
  candidates : List ConsumerIceCandidate
  consumerSessionId : String
  deriving DecidableEq, Repr

/-- The JSON encoders and the decoder that a consumer session uses. -/
structure Codec where
  encodeOffer : OfferMessage → Except String String
  decodeAnswer : String → Except String SessionDescription
  encodeIce : IceMessage → Except String String

/-- A codec that writes every message as the one text in it. -/
def Codec.plain : Codec where
  encodeOffer := fun message ↦
    if message.sdp.sdpType = .offer then .ok message.sdp.sdp else .error "not an offer"
  decodeAnswer := fun payload ↦ .ok ⟨.answer, payload⟩
  encodeIce := fun message ↦ .ok message.consumerSessionId

/-- `ConsumerOutcome`. -/
structure ConsumerOutcome where
  remote : SocketAddr
  pathEnd : PathEnd
  deriving DecidableEq, Repr

/-- `ConsumerError`. -/
inductive ConsumerError where
  | signaling (error : SignalingError)
  | webRtc (source : String)
  | json (source : String)
  | noGenesis
  | unexpectedSignal (expected actual : SignalMessageType)
  | missingAnswer
  | natTimeout
  | dataChannelClosed
  | peerConnectionEnded (state : PeerConnectionState)
  | path (error : PathError)
  | cancelled
  deriving DecidableEq, Repr

/-- What `run_consumer_session` returns. -/
abbrev SessionResult := Except ConsumerError ConsumerOutcome

/-- `expect_signal`. -/
def expectSignal (signal : SignalMessage) (expected : SignalMessageType) :
    Except ConsumerError Unit :=
  if signal.kind = expected then .ok () else .error (.unexpectedSignal expected signal.kind)

/-- The control points of a session. -/
inductive Control where
  /-- `build_api_with_options` and `new_peer_connection`. -/
  | connecting
  | creatingChannel
  /-- `select_genesis`: opening the advertisement stream, waiting for the first Genesis, collecting
  more while the patience lasts, and choosing one. -/
  | subscribing
  | discovering
  | collecting (candidates : List SignalMessage)
  | choosing (candidates : List SignalMessage)
  /-- `create_offer`. -/
  | offering (genesis : SignalMessage)
  | awaitingAnswer (offer : SessionDescription)
  /-- `gathering_complete_promise`. -/
  | promising (offer : SessionDescription) (answerSignal : SignalMessage)
      (answer : SessionDescription)
  | settingLocal (offer : SessionDescription) (answerSignal : SignalMessage)
      (answer : SessionDescription)
  | settingRemote (answerSignal : SignalMessage) (answer : SessionDescription)
  | gathering (answerSignal : SignalMessage)
  | awaitingIce
  | awaitingChannel
  | allocating
  /-- An address was allocated, and `run_consumer_path` is about to be called. -/
  | entering (remote : SocketAddr)
  | inPath (remote : SocketAddr)
  /-- `connection.close()`. -/
  | closing (result : SessionResult)
  | returned (result : SessionResult)
  /-- The owner dropped the future. -/
  | dropped
  deriving DecidableEq

/-- What the awaited operation of a control point returned. -/
inductive Input where
  | connected (result : Except String Unit)
  | channelCreated (result : Except String Unit)
  | subscribed (result : Except SignalingError Unit)
  | advertised (result : Reply)
  | patienceOver
  | chosen (index : Nat)
  | offerCreated (result : Except String SessionDescription)
  | replied (result : Reply)
  | promised
  | localSet (result : Except String Unit)
  | remoteSet (result : Except String Unit)
  /-- Gathering is over, with the candidates that the callback has collected by now. -/
  | gathered (candidates : List IceCandidate)
  | waited (result : ChannelWait)
  | allocated (result : Except PathError SocketAddr)
  | entered
  | pathEnded (result : PathResult)
  | cancelled
  | closed
  | dropped
  deriving DecidableEq

/-- What a session asks of the outside. -/
inductive Effect where
  | none
  /-- `exchange`. -/
  | post (sendTo : String) (kind : SignalMessageType) (payload : String)
  deriving DecidableEq, Repr

/-- Cancellation is observed at the await points inside the `select!` of the session. -/
def Control.cancellable : Control → Bool
  | .connecting | .creatingChannel | .closing _ | .returned _ | .dropped => false
  -- no await point separates the end of the wait from the call of `run_consumer_path`
  | .allocating | .entering _ | .choosing _ => false
  | _ => true

/-- The future can be dropped at every await point. -/
def Control.droppable : Control → Bool
  | .connecting | .creatingChannel | .closing _ => true
  | control => control.cancellable

/-- The session leaves its `select!` with an error. -/
def Control.fail (error : ConsumerError) : Option (Effect × Control) :=
  some (.none, .closing (.error error))

/-- A session that returns an error before its `select!`. -/
def Control.abort (error : ConsumerError) : Option (Effect × Control) :=
  some (.none, .returned (.error error))

/-- One step of a session. -/
def Control.next (codec : Codec) (config : ConsumerConfig) :
    Control → Input → Option (Effect × Control)
  | .connecting, .connected (.ok ()) => some (.none, .creatingChannel)
  | .connecting, .connected (.error error) => abort (.webRtc error)
  | .creatingChannel, .channelCreated (.ok ()) => some (.none, .subscribing)
  | .creatingChannel, .channelCreated (.error error) => abort (.webRtc error)
  | .subscribing, .subscribed (.ok ()) => some (.none, .discovering)
  | .subscribing, .subscribed (.error error) => fail (.signaling error)
  | .discovering, .advertised (.ok (some message)) =>
      some (.none, if message.kind = .genesis then .collecting [message] else .discovering)
  | .discovering, .advertised (.ok none) => fail .noGenesis
  | .discovering, .advertised (.error error) => fail (.signaling error)
  | .collecting candidates, .patienceOver => some (.none, .choosing candidates)
  | .collecting candidates, .advertised (.ok (some message)) =>
      some (.none, .collecting
        (if message.kind = .genesis then candidates ++ [message] else candidates))
  | .collecting candidates, .advertised (.ok none) => some (.none, .choosing candidates)
  | .collecting _, .advertised (.error error) => fail (.signaling error)
  | .choosing candidates, .chosen index =>
      candidates[index]?.map fun genesis ↦ (.none, .offering genesis)
  | .offering genesis, .offerCreated (.ok offer) =>
      match codec.encodeOffer ⟨offer, config.tag⟩ with
      | .ok payload => some (.post genesis.replyTo .offer payload, .awaitingAnswer offer)
      | .error error => fail (.json error)
  | .offering _, .offerCreated (.error error) => fail (.webRtc error)
  | .awaitingAnswer offer, .replied (.ok (some signal)) =>
      match expectSignal signal .answer with
      | .error error => fail error
      | .ok () =>
          match codec.decodeAnswer signal.payload with
          | .ok answer => some (.none, .promising offer signal answer)
          | .error error => fail (.json error)
  | .awaitingAnswer _, .replied (.ok none) => fail .missingAnswer
  | .awaitingAnswer _, .replied (.error error) => fail (.signaling error)
  | .promising offer signal answer, .promised => some (.none, .settingLocal offer signal answer)
  | .settingLocal _ signal answer, .localSet (.ok ()) => some (.none, .settingRemote signal answer)
  | .settingLocal _ _ _, .localSet (.error error) => fail (.webRtc error)
  | .settingRemote signal _, .remoteSet (.ok ()) => some (.none, .gathering signal)
  | .settingRemote _ _, .remoteSet (.error error) => fail (.webRtc error)
  | .gathering signal, .gathered candidates =>
      match codec.encodeIce ⟨candidates.map .ofCandidate, config.consumerSessionId⟩ with
      | .ok payload => some (.post signal.replyTo .ice payload, .awaitingIce)
      | .error error => fail (.json error)
  | .awaitingIce, .replied (.ok _) => some (.none, .awaitingChannel)
  | .awaitingIce, .replied (.error error) => fail (.signaling error)
  | .awaitingChannel, .waited .opened => some (.none, .allocating)
  | .awaitingChannel, .waited .natTimeout => fail .natTimeout
  | .awaitingChannel, .waited .closed => fail .dataChannelClosed
  | .awaitingChannel, .waited (.ended state) => fail (.peerConnectionEnded state)
  | .allocating, .allocated (.ok remote) => some (.none, .entering remote)
  | .allocating, .allocated (.error error) => fail (.path error)
  | .entering remote, .entered => some (.none, .inPath remote)
  | .inPath remote, .pathEnded (.ok pathEnd) =>
      some (.none, .closing (.ok ⟨remote, pathEnd⟩))
  | .inPath _, .pathEnded (.error error) => fail (.path error)
  | .closing result, .closed => some (.none, .returned result)
  | control, .cancelled => if control.cancellable then fail .cancelled else none
  | control, .dropped => if control.droppable then some (.none, .dropped) else none
  | _, _ => none

end Unbounded.Consumer
