import Unbounded.Egress.Tunnel
import Unbounded.Relay.Relay
import Unbounded.Rtc.Connection
import Unbounded.Signaling.Signaler
import Unbounded.Time

/-!
# One peer-proxy session

The session future of `run_peer_proxy_until_cancelled` in `src/peer_proxy.rs` as a machine. A
control point is an await point of the function and an input is what the awaited operation returned.
The signaling server, WebRTC, the egress and the timers decide the inputs. An effect is what the
session does to the outside on its way to the next control point.

From the Genesis exchange to the end of the relay the session runs inside a `select!` that
cancellation leaves at any await point, and the connection is closed on the way out. A failure to
create the connection returns at once.
-/

namespace Unbounded.PeerProxy

open Egress (EgressError)
open Relay (RelayEnd RelayError)
open Rtc (PeerConnectionState ChannelWait SessionDescription IceCandidate IceCandidateType)
open Signaling (SignalingError Reply)

/-! ## Messages, outcomes and errors -/

/-- `OfferMessage` of the peer proxy. -/
structure OfferMessage where
  sdp : SessionDescription
  tag : String
  deriving DecidableEq, Repr

/-- `PionIceCandidate`. -/
structure PionIceCandidate where
  foundation : String
  priority : UInt32
  address : String
  protocol : UInt8
  port : UInt16
  typ : IceCandidateType
  component : UInt16
  relatedAddress : String
  relatedPort : UInt16
  tcpType : String
  sdpMid : Option String
  sdpMLineIndex : Option UInt16
  deriving DecidableEq, Repr

/-- `PionIceCandidate::to_rust_candidate`. -/
def PionIceCandidate.toRustCandidate (candidate : PionIceCandidate) : IceCandidate where
  statsId := ""
  foundation := candidate.foundation
  priority := candidate.priority
  address := candidate.address
  protocol := match candidate.protocol with
    | 1 => .udp
    | 2 => .tcp
    | _ => .unspecified
  port := candidate.port
  typ := candidate.typ
  component := candidate.component
  relatedAddress := candidate.relatedAddress
  relatedPort := candidate.relatedPort
  tcpType := candidate.tcpType

/-- `IceMessage` of the peer proxy. -/
structure IceMessage where
  candidates : List PionIceCandidate
  consumerSessionId : String
  deriving DecidableEq, Repr

/-- The JSON encoders and decoders that a session uses. -/
structure Codec where
  /-- The Genesis message, which is always the same. -/
  genesis : Except String String
  decodeOffer : String → Except String OfferMessage
  encodeAnswer : SessionDescription → Except String String
  decodeIce : String → Except String IceMessage

/-- A codec that writes every message as the one text in it. -/
def Codec.plain : Codec where
  genesis := .ok "genesis"
  decodeOffer := fun payload ↦ .ok ⟨⟨.offer, payload⟩, ""⟩
  encodeAnswer := fun description ↦
    if description.sdpType = .answer then .ok description.sdp else .error "not an answer"
  decodeIce := fun payload ↦ .ok ⟨[], payload⟩

/-- `PeerProxyOutcome`. -/
structure PeerProxyOutcome where
  consumerSessionId : String
  relayEnd : RelayEnd
  relayDuration : Duration
  deriving DecidableEq, Repr

/-- `PeerProxyError`. -/
inductive PeerProxyError where
  | signaling (error : SignalingError)
  | webRtc (source : String)
  | decode (step : String) (source : String)
  | missingResponse (response : String)
  | unexpectedSignal (expected actual : SignalMessageType)
  | missingConsumerSessionId
  | invalidConsumerSessionId
  | invalidIceCandidate (source : String)
  | natTimeout
  | dataChannelClosed
  | peerConnectionEnded (state : PeerConnectionState)
  | egress (error : EgressError)
  | relay (relayDuration : Duration) (source : RelayError String EgressError)
  | cancelled
  deriving DecidableEq, Repr

/-- `PeerProxyError::relay_duration`. -/
def PeerProxyError.relayDuration : PeerProxyError → Option Duration
  | .relay duration _ => some duration
  | _ => none

/-- An error from before the relay, other than a cancellation. -/
def PeerProxyError.early : PeerProxyError → Bool
  | .relay _ _ | .cancelled => false
  | _ => true

/-- What `run_peer_proxy_until_cancelled` returns. -/
abbrev SessionResult := Except PeerProxyError PeerProxyOutcome

/-- `expect_signal`. -/
def expectSignal (signal : SignalMessage) (expected : SignalMessageType) :
    Except PeerProxyError Unit :=
  if signal.kind = expected then .ok () else .error (.unexpectedSignal expected signal.kind)

/-- The message that a reply carries: `expect_signal`, and then `decode_payload`. -/
def readSignal {Message : Type} (signal : SignalMessage) (expected : SignalMessageType)
    (step : String) (decode : String → Except String Message) : Except PeerProxyError Message :=
  match expectSignal signal expected with
  | .error error => .error error
  | .ok () =>
      match decode signal.payload with
      | .error source => .error (.decode step source)
      | .ok message => .ok message

/-- The Offer that a reply carries. -/
def readOffer (codec : Codec) (signal : SignalMessage) : Except PeerProxyError OfferMessage :=
  readSignal signal .offer "offer" codec.decodeOffer

/-- The ICE message that a reply carries. -/
def readIce (codec : Codec) (signal : SignalMessage) : Except PeerProxyError IceMessage :=
  readSignal signal .ice "ICE" codec.decodeIce

/-- The checks of a consumer session ID before it is published. -/
def checkSessionId (id : String) : Except PeerProxyError Unit :=
  if id.isEmpty then .error .missingConsumerSessionId
  else if isSubprotocolToken id then .ok ()
  else .error .invalidConsumerSessionId

/-! ## The machine -/

/-- The control points of a session. -/
inductive Control where
  /-- `build_api_with_options` and `new_peer_connection`. -/
  | connecting
  /-- `exchange("genesis", Genesis, ..)`. -/
  | awaitingOffer
  | settingRemote (offerSignal : SignalMessage) (offer : OfferMessage)
  | creatingAnswer (offerSignal : SignalMessage)
  /-- `gathering_complete_promise`. -/
  | promising (offerSignal : SignalMessage) (answer : SessionDescription)
  | settingLocal (offerSignal : SignalMessage) (answer : SessionDescription)
  | gathering (offerSignal : SignalMessage)
  /-- `local_description`. -/
  | describing (offerSignal : SignalMessage)
  /-- `exchange(offer_signal.reply_to, Answer, ..)`. -/
  | awaitingIce
  | addingCandidates (id : String) (candidates : List PionIceCandidate)
  | awaitingChannel (id : String)
  /-- `EgressTunnel::connect`. -/
  | dialing (id : String)
  | relaying (id : String)
  /-- `connection.close()`. -/
  | closing (result : SessionResult)
  | returned (result : SessionResult)
  /-- The owner dropped the future. -/
  | dropped
  deriving DecidableEq

/-- How the attempt to add a candidate ends. -/
inductive AddCandidate where
  | added
  /-- `to_json` failed. -/
  | invalid (source : String)
  /-- `add_ice_candidate` failed. -/
  | failed (source : String)
  deriving DecidableEq, Repr

/-- What the awaited operation of a control point returned. -/
inductive Input where
  | connected (result : Except String Unit)
  | replied (result : Reply)
  | remoteSet (result : Except String Unit)
  | answerCreated (result : Except String SessionDescription)
  | promised
  | localSet (result : Except String Unit)
  | gathered
  | described (description : Option SessionDescription)
  | candidateAdded (result : AddCandidate)
  | waited (result : ChannelWait)
  | egressConnected (result : Except EgressError Unit)
  | relayed (result : Except (RelayError String EgressError) RelayEnd) (duration : Duration)
  | cancelled
  | closed
  | dropped
  deriving DecidableEq

/-- What a session does to the outside. -/
inductive Effect where
  | none
  /-- `exchange`. -/
  | post (sendTo : String) (kind : SignalMessageType) (payload : String)
  /-- The session ID becomes visible to the state callbacks. -/
  | publish (id : String)
  /-- The egress is dialed with a session ID. -/
  | dial (id : String)
  deriving DecidableEq, Repr

/-- Cancellation is observed at the await points inside the `select!` of the session. -/
def Control.cancellable : Control → Bool
  | .connecting | .closing _ | .returned _ | .dropped => false
  | _ => true

/-- The future can be dropped at every await point. -/
def Control.droppable : Control → Bool
  | .returned _ | .dropped => false
  | _ => true

/-- The session leaves its `select!` with an error. -/
def Control.fail (error : PeerProxyError) : Effect × Control :=
  (.none, .closing (.error error))

/-- The session goes on with the candidates that are left. -/
def Control.withCandidates (id : String) : List PionIceCandidate → Control
  | [] => .awaitingChannel id
  | candidates => .addingCandidates id candidates

/-- The first steps of the session, up to the Genesis exchange. -/
def Control.advertise (codec : Codec) : Effect × Control :=
  match codec.genesis with
  | .ok payload => (.post "genesis" .genesis payload, .awaitingOffer)
  | .error source => fail (.signaling (.decode source))

/-- The reply to the Genesis. -/
def Control.afterOffer (codec : Codec) : Reply → Effect × Control
  | .error error => fail (.signaling error)
  | .ok none => fail (.missingResponse "offer")
  | .ok (some signal) =>
      match readOffer codec signal with
      | .error error => fail error
      | .ok offer => (.none, .settingRemote signal offer)

/-- The local description, with its candidates, is posted as the Answer. -/
def Control.answer (codec : Codec) (offerSignal : SignalMessage) :
    Option SessionDescription → Effect × Control
  | none => fail (.missingResponse "local ICE gathering")
  | some description =>
      match codec.encodeAnswer description with
      | .error source => fail (.signaling (.decode source))
      | .ok payload => (.post offerSignal.replyTo .answer payload, .awaitingIce)

/-- The reply to the Answer. The session ID is checked before it is published. -/
def Control.afterIce (codec : Codec) : Reply → Effect × Control
  | .error error => fail (.signaling error)
  | .ok none => fail (.missingResponse "consumer ICE candidates")
  | .ok (some signal) =>
      match readIce codec signal with
      | .error error => fail error
      | .ok ice =>
          match checkSessionId ice.consumerSessionId with
          | .error error => fail error
          | .ok () =>
              (.publish ice.consumerSessionId, withCandidates ice.consumerSessionId ice.candidates)

/-- The wait for the DataChannel is over. `EgressTunnel::connect` checks the session ID again before
it dials. -/
def Control.afterWait (id : String) : ChannelWait → Effect × Control
  | .opened =>
      if isSubprotocolToken id then (.dial id, .dialing id)
      else fail (.egress (.invalidConsumerSessionId id))
  | .natTimeout => fail .natTimeout
  | .closed => fail .dataChannelClosed
  | .ended state => fail (.peerConnectionEnded state)

/-- The relay returned. -/
def Control.afterRelay (id : String) (duration : Duration) :
    Except (RelayError String EgressError) RelayEnd → Effect × Control
  | .ok relayEnd => (.none, .closing (.ok ⟨id, relayEnd, duration⟩))
  | .error source => fail (.relay duration source)

/-- One step of a session. -/
def Control.next (codec : Codec) : Control → Input → Option (Effect × Control)
  | .connecting, .connected (.ok ()) => some (advertise codec)
  | .connecting, .connected (.error source) => some (.none, .returned (.error (.webRtc source)))
  | .awaitingOffer, .replied reply => some (afterOffer codec reply)
  | .settingRemote signal _, .remoteSet (.ok ()) => some (.none, .creatingAnswer signal)
  | .settingRemote _ _, .remoteSet (.error source) => some (fail (.webRtc source))
  | .creatingAnswer signal, .answerCreated (.ok answer) => some (.none, .promising signal answer)
  | .creatingAnswer _, .answerCreated (.error source) => some (fail (.webRtc source))
  | .promising signal answer, .promised => some (.none, .settingLocal signal answer)
  | .settingLocal signal _, .localSet (.ok ()) => some (.none, .gathering signal)
  | .settingLocal _ _, .localSet (.error source) => some (fail (.webRtc source))
  | .gathering signal, .gathered => some (.none, .describing signal)
  | .describing signal, .described description => some (answer codec signal description)
  | .awaitingIce, .replied reply => some (afterIce codec reply)
  | .addingCandidates id (_ :: candidates), .candidateAdded .added =>
      some (.none, withCandidates id candidates)
  | .addingCandidates _ _, .candidateAdded (.invalid source) =>
      some (fail (.invalidIceCandidate source))
  | .addingCandidates _ _, .candidateAdded (.failed source) => some (fail (.webRtc source))
  | .awaitingChannel id, .waited result => some (afterWait id result)
  | .dialing id, .egressConnected (.ok ()) => some (.none, .relaying id)
  | .dialing _, .egressConnected (.error error) => some (fail (.egress error))
  | .relaying id, .relayed result duration => some (afterRelay id duration result)
  | .closing result, .closed => some (.none, .returned result)
  | control, .cancelled => if control.cancellable then some (fail .cancelled) else none
  | control, .dropped => if control.droppable then some (.none, .dropped) else none
  | _, _ => none

/-! ## What a step can do -/

/-- How far a session is. -/
inductive Phase where
  | connecting
  | awaitingOffer
  /-- An Offer came, and its description is being set. -/
  | offered (offerSignal : SignalMessage) (offer : OfferMessage)
  /-- The Offer is set, and its Answer is being prepared. -/
  | answering (offerSignal : SignalMessage)
  | awaitingIce
  /-- The session has its ID, which it goes on with or has returned. -/
  | identified (id : String)
  /-- The session has ended, or is about to, without an outcome. -/
  | ended
  deriving DecidableEq, Repr

/-- The phase of a control point. -/
def Control.phase : Control → Phase
  | .connecting => .connecting
  | .awaitingOffer => .awaitingOffer
  | .settingRemote signal offer => .offered signal offer
  | .creatingAnswer signal | .promising signal _ | .settingLocal signal _ | .gathering signal
  | .describing signal => .answering signal
  | .awaitingIce => .awaitingIce
  | .addingCandidates id _ | .awaitingChannel id | .dialing id | .relaying id => .identified id
  | .closing (.ok outcome) | .returned (.ok outcome) => .identified outcome.consumerSessionId
  | .closing (.error _) | .returned (.error _) | .dropped => .ended

/-- The result comes from the relay. -/
def SessionResult.relayed : SessionResult → Bool
  | .ok _ => true
  | .error error => error.relayDuration.isSome

/-- The DataChannel has opened, and a result that there is comes from the relay. -/
def Control.opened : Control → Bool
  | .dialing _ | .relaying _ => true
  | .closing result | .returned result => SessionResult.relayed result
  | _ => false

/-- The result of a session that was cancelled. -/
def SessionResult.cancelled : SessionResult → Bool
  | .error .cancelled => true
  | _ => false

/-- The session has been cancelled. -/
def Control.cancelled : Control → Bool
  | .closing result | .returned result => SessionResult.cancelled result
  | _ => false

/-- The session awaits the reply to a message that it posted. -/
def Control.exchanging : Control → Bool
  | .awaitingOffer | .awaitingIce => true
  | _ => false

/-- Everything a step of a session can be. -/
inductive Move (codec : Codec) : Control → Input → Effect → Control → Prop where
  | advertise {payload} (hpayload : codec.genesis = .ok payload) :
      Move codec .connecting (.connected (.ok ())) (.post "genesis" .genesis payload) .awaitingOffer
  | offer {signal offer} (hread : readOffer codec signal = .ok offer) :
      Move codec .awaitingOffer (.replied (.ok (some signal))) .none (.settingRemote signal offer)
  | apply {signal offer} :
      Move codec (.settingRemote signal offer) (.remoteSet (.ok ())) .none (.creatingAnswer signal)
  /-- The session prepares its Answer. -/
  | prepare {control input following signal} (hcontrol : control.phase = .answering signal)
      (hfollowing : following.phase = .answering signal)
      (hinput : ∀ reply, input ≠ .replied reply) : Move codec control input .none following
  | answer {signal description payload} (hpayload : codec.encodeAnswer description = .ok payload) :
      Move codec (.describing signal) (.described (some description))
        (.post signal.replyTo .answer payload) .awaitingIce
  | publish {signal ice} (hread : readIce codec signal = .ok ice)
      (hcheck : checkSessionId ice.consumerSessionId = .ok ()) :
      Move codec .awaitingIce (.replied (.ok (some signal))) (.publish ice.consumerSessionId)
        (.withCandidates ice.consumerSessionId ice.candidates)
  /-- The session goes on with its ID. -/
  | proceed {control input following id} (hcontrol : control.phase = .identified id)
      (hfollowing : following.phase = .identified id) (hinput : ∀ reply, input ≠ .replied reply)
      (hopened : following.opened = true → control.opened = true) :
      Move codec control input .none following
  | dial {id} (htoken : isSubprotocolToken id = true) :
      Move codec (.awaitingChannel id) (.waited .opened) (.dial id) (.dialing id)
  | fail {control input following} (hfollowing : following.phase = .ended)
      (hinput : ∀ reply, input = .replied reply → control.exchanging = true)
      (hopened : following.opened = true → control.opened = true)
      (hcancelled : following.cancelled = true → control.cancelled = true ∨ input = .cancelled) :
      Move codec control input .none following

/-- The ID stays while candidates are added. -/
@[simp] theorem Control.withCandidates_phase (id : String)
    (candidates : List PionIceCandidate) :
    (withCandidates id candidates).phase = .identified id := by
  cases candidates <;> rfl

/-- The candidates do not open the DataChannel. -/
@[simp] theorem Control.withCandidates_opened (id : String)
    (candidates : List PionIceCandidate) : (withCandidates id candidates).opened = false := by
  cases candidates <;> rfl

/-- A message that is read has the right kind and was decoded. -/
theorem readSignal_ok {Message : Type} {signal : SignalMessage} {expected : SignalMessageType}
    {step : String} {decode : String → Except String Message} {message : Message}
    (h : readSignal signal expected step decode = .ok message) :
    signal.kind = expected ∧ decode signal.payload = .ok message := by
  unfold readSignal expectSignal at h
  by_cases hkind : signal.kind = expected
  · simp only [hkind, if_true] at h
    cases hdecode : decode signal.payload with
    | error source => simp [hdecode] at h
    | ok decoded =>
        simp only [hdecode] at h
        exact ⟨hkind, congrArg Except.ok (Except.ok.inj h)⟩
  · simp [hkind] at h

/-- The errors of reading a message are early ones. -/
theorem early_of_readSignal {Message : Type} {signal : SignalMessage}
    {expected : SignalMessageType} {step : String} {decode : String → Except String Message}
    {error : PeerProxyError} (h : readSignal signal expected step decode = .error error) :
    error.early = true := by
  unfold readSignal expectSignal at h
  by_cases hkind : signal.kind = expected
  · simp only [hkind, if_true] at h
    cases hdecode : decode signal.payload with
    | error source =>
        simp only [hdecode] at h
        obtain rfl := Except.error.inj h
        rfl
    | ok decoded => simp [hdecode] at h
  · simp only [hkind, if_false] at h
    obtain rfl := Except.error.inj h
    rfl

/-- The errors of the check of a session ID are early ones. -/
theorem early_of_check {id : String} {error : PeerProxyError}
    (h : checkSessionId id = .error error) : error.early = true := by
  unfold checkSessionId at h
  split at h
  · obtain rfl := Except.error.inj h
    rfl
  · split at h
    · simp at h
    · obtain rfl := Except.error.inj h
      rfl

/-- A session that closes with an early error was not cancelled and did not relay. -/
theorem Control.closing_of_early {error : PeerProxyError} (h : error.early = true) :
    (Control.closing (.error error)).opened = false ∧
      (Control.closing (.error error)).cancelled = false := by
  cases error <;> first | exact ⟨rfl, rfl⟩ | simp [PeerProxyError.early] at h

/-- Every step of a peer-proxy session is a `Move`. -/
theorem move_of_next {codec : Codec} {control following : Control} {input : Input}
    {effect : Effect} (h : control.next codec input = some (effect, following)) :
    Move codec control input effect following := by
  have hfail : ∀ error, (∀ reply, input = .replied reply → control.exchanging = true) →
      error.early = true → some (Control.fail error) = some (effect, following) →
      Move codec control input effect following := by
    intro error hinput herror heq
    simp only [Control.fail, Option.some.injEq, Prod.mk.injEq] at heq
    obtain ⟨rfl, rfl⟩ := heq
    obtain ⟨hopened, hcancelled⟩ := Control.closing_of_early herror
    exact .fail rfl hinput (by simp [hopened]) (by simp [hcancelled])
  have hprepare : ∀ signal moved, control.phase = .answering signal →
      moved.phase = .answering signal → (∀ reply, input ≠ .replied reply) →
      some (Effect.none, moved) = some (effect, following) →
      Move codec control input effect following := by
    intro signal moved hcontrol hmoved hinput heq
    simp only [Option.some.injEq, Prod.mk.injEq] at heq
    obtain ⟨rfl, rfl⟩ := heq
    exact .prepare hcontrol hmoved hinput
  have hproceed : ∀ id moved, control.phase = .identified id → moved.phase = .identified id →
      (∀ reply, input ≠ .replied reply) → (moved.opened = true → control.opened = true) →
      some (Effect.none, moved) = some (effect, following) →
      Move codec control input effect following := by
    intro id moved hcontrol hmoved hinput hopened heq
    simp only [Option.some.injEq, Prod.mk.injEq] at heq
    obtain ⟨rfl, rfl⟩ := heq
    exact .proceed hcontrol hmoved hinput hopened
  unfold Control.next at h
  split at h
  case h_5 | h_7 | h_10 | h_15 | h_16 | h_19 => exact hfail _ (by simp) rfl h
  case h_6 | h_8 | h_9 | h_11 => exact hprepare _ _ rfl rfl (by simp) h
  case h_1 =>
    unfold Control.advertise at h
    split at h
    · next payload hpayload =>
      simp only [Option.some.injEq, Prod.mk.injEq] at h
      obtain ⟨rfl, rfl⟩ := h
      exact .advertise hpayload
    · exact hfail _ (by simp) rfl h
  case h_2 =>
    simp only [Option.some.injEq, Prod.mk.injEq] at h
    obtain ⟨rfl, rfl⟩ := h
    exact .fail rfl (by simp) (by simp [Control.opened, SessionResult.relayed,
      PeerProxyError.relayDuration]) (by simp [Control.cancelled, SessionResult.cancelled])
  case h_3 reply =>
    unfold Control.afterOffer at h
    split at h
    · exact hfail _ (fun _ _ ↦ rfl) rfl h
    · exact hfail _ (fun _ _ ↦ rfl) rfl h
    · split at h
      · next error hread =>
        exact hfail _ (fun _ _ ↦ rfl) (early_of_readSignal hread) h
      · next offer hread =>
        simp only [Option.some.injEq, Prod.mk.injEq] at h
        obtain ⟨rfl, rfl⟩ := h
        exact .offer hread
  case h_4 =>
    simp only [Option.some.injEq, Prod.mk.injEq] at h
    obtain ⟨rfl, rfl⟩ := h
    exact .apply
  case h_12 signal description =>
    unfold Control.answer at h
    split at h
    · exact hfail _ (by simp) rfl h
    · split at h
      · exact hfail _ (by simp) rfl h
      · next payload hpayload =>
        simp only [Option.some.injEq, Prod.mk.injEq] at h
        obtain ⟨rfl, rfl⟩ := h
        exact .answer hpayload
  case h_13 reply =>
    unfold Control.afterIce at h
    split at h
    · exact hfail _ (fun _ _ ↦ rfl) rfl h
    · exact hfail _ (fun _ _ ↦ rfl) rfl h
    · split at h
      · next error hread =>
        exact hfail _ (fun _ _ ↦ rfl) (early_of_readSignal hread) h
      · next ice hread =>
        split at h
        · next error hcheck =>
          exact hfail _ (fun _ _ ↦ rfl) (early_of_check hcheck) h
        · next hcheck =>
          simp only [Option.some.injEq, Prod.mk.injEq] at h
          obtain ⟨rfl, rfl⟩ := h
          exact .publish hread hcheck
  case h_14 => exact hproceed _ _ rfl (Control.withCandidates_phase _ _) (by simp) (by simp) h
  case h_17 id result =>
    unfold Control.afterWait at h
    split at h
    · split at h
      · next htoken =>
        simp only [Option.some.injEq, Prod.mk.injEq] at h
        obtain ⟨rfl, rfl⟩ := h
        exact .dial htoken
      · exact hfail _ (by simp) rfl h
    · exact hfail _ (by simp) rfl h
    · exact hfail _ (by simp) rfl h
    · exact hfail _ (by simp) rfl h
  case h_18 => exact hproceed _ _ rfl rfl (by simp) (fun _ ↦ rfl) h
  case h_20 id result duration =>
    unfold Control.afterRelay at h
    split at h
    · exact hproceed _ _ rfl rfl (by simp) (fun _ ↦ rfl) h
    · simp only [Control.fail, Option.some.injEq, Prod.mk.injEq] at h
      obtain ⟨rfl, rfl⟩ := h
      exact .fail rfl (by simp) (fun _ ↦ rfl) (by simp [Control.cancelled, SessionResult.cancelled])
  case h_21 result =>
    simp only [Option.some.injEq, Prod.mk.injEq] at h
    obtain ⟨rfl, rfl⟩ := h
    cases result with
    | ok outcome => exact .proceed rfl rfl (by simp) id
    | error error => exact .fail rfl (by simp) id .inl
  case h_22 =>
    split at h
    · simp only [Control.fail, Option.some.injEq, Prod.mk.injEq] at h
      obtain ⟨rfl, rfl⟩ := h
      exact .fail rfl (by simp) (by simp [Control.opened, SessionResult.relayed,
        PeerProxyError.relayDuration]) fun _ ↦ .inr rfl
    · simp at h
  case h_23 =>
    split at h
    · simp only [Option.some.injEq, Prod.mk.injEq] at h
      obtain ⟨rfl, rfl⟩ := h
      exact .fail rfl (by simp) (by simp [Control.opened])
        (by simp [Control.cancelled, SessionResult.cancelled])
    · simp at h
  case h_24 => simp at h

/-- A session that was cancelled has no ID to go on with. -/
theorem Control.phase_of_cancelled {control : Control} (h : control.cancelled = true) :
    control.phase = .ended := by
  cases control with
  | closing result =>
      cases result <;> first | rfl | simp [Control.cancelled, SessionResult.cancelled] at h
  | returned result =>
      cases result <;> first | rfl | simp [Control.cancelled, SessionResult.cancelled] at h
  | _ => simp [Control.cancelled] at h

/-- A session is cancelled by its token only. -/
theorem Move.cancelled {codec : Codec} {control following : Control} {input : Input}
    {effect : Effect} (h : Move codec control input effect following)
    (hcancelled : following.cancelled = true) :
    control.cancelled = true ∨ input = .cancelled := by
  have hended := Control.phase_of_cancelled hcancelled
  cases h with
  | fail _ _ _ hsource => exact hsource hcancelled
  | prepare _ hphase => simp [hphase] at hended
  | proceed _ hphase => simp [hphase] at hended
  | publish => simp at hended
  | _ => simp [Control.phase] at hended

end Unbounded.PeerProxy
