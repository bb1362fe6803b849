import Unbounded.Signaling.Freddie
import Unbounded.Wire.Decoding

/-!
# The signaling messages on the wire

The JSON forms of the messages that consumers and peer proxies exchange through the signaling
server: the envelope and the Genesis message of `src/protocol.rs`, the Offer that the consumer
writes and the peer proxy reads, and the Answer that goes the other way. Each side is translated
from its own record types. A session description is written and read by the `webrtc` crate, of which
only a round trip is assumed (`DescriptionWriter`).

`jsonCodecs` are the codecs of the two programs. `signals_agree` says that whatever one program
writes the other one reads, unchanged, and that the envelope is read back from the text of Rust and
of Go. The payload of a Genesis message is written but decoded by neither program, as a consumer
looks at the kind of an advertisement only.
-/

namespace Unbounded.Wire

open Json (Value Inverted fields_record inverted_goQuote inverted_serdeQuote goQuote list_map
  optionalField parse_print serdeQuote)
open Rtc (SessionDescription)
open Text (utf8 decodeUtf8)

/-! ## The envelope -/

/-- The number of a kind, which is its `repr(u8)`. -/
def kindNumber : SignalMessageType → Nat
  | .genesis => 0
  | .offer => 1
  | .answer => 2
  | .ice => 3

/-- The kind of a number. -/
def kindOfNumber : Nat → Option SignalMessageType
  | 0 => some .genesis
  | 1 => some .offer
  | 2 => some .answer
  | 3 => some .ice
  | _ => none

/-- The fields of `SignalMessage`. -/
def signalValue (message : SignalMessage) : Value :=
  .record [("ReplyTo", .ofText message.replyTo), ("Type", .natural (kindNumber message.kind)),
    ("Payload", .ofText message.payload)]

/-- Read a `SignalMessage`. -/
def readSignalMessage (value : Value) : Option SignalMessage :=
  match value.fields ["ReplyTo", "Type", "Payload"] with
  | some [some replyTo, some kind, some payload] => do
      let replyTo ← replyTo.text
      let kind ← (kind.natBelow (2 ^ 8)).bind kindOfNumber
      let payload ← payload.text
      some ⟨replyTo, kind, payload⟩
  | _ => none

/-- `serde_json::from_slice` of a `SignalMessage`. The text of an error is left out. -/
def decodeSignal (text : Bytes) : Except String SignalMessage :=
  match (Json.parse text).bind readSignalMessage with
  | some message => .ok message
  | none => .error "invalid signaling message"

/-- A kind is read back from its number. -/
theorem kindOfNumber_kindNumber (kind : SignalMessageType) :
    ((Value.natural (kindNumber kind)).natBelow 256).bind kindOfNumber = some kind := by
  cases kind <;> rfl

/-- A message is read back from its fields. -/
theorem readSignalMessage_signalValue (message : SignalMessage) :
    readSignalMessage (signalValue message) = some message := by
  rw [readSignalMessage, signalValue, fields_record _ (by simp)]
  simp [List.lookup_cons, Value.text_ofText, kindOfNumber_kindNumber]

/-- The envelope is read back from the text of every writer whose strings are read back. -/
theorem decodeSignal_print {quote : Bytes → Bytes} (h : Inverted quote) (message : SignalMessage) :
    decodeSignal ((signalValue message).print quote) = .ok message := by
  rw [decodeSignal, parse_print h, Option.bind_some, readSignalMessage_signalValue]

/-! ## The Genesis message -/

/-- `Endpoint`. -/
structure Endpoint where
  host : String
  distance : UInt32
  deriving DecidableEq, Repr

/-- `PathAssertion`. -/
structure PathAssertion where
  allow : Option (List Endpoint)
  deny : Option (List Endpoint)
  jitUnavailable : Bool
  deriving DecidableEq, Repr

/-- `PathAssertion::all_hosts_on_request`. -/
def PathAssertion.allHostsOnRequest : PathAssertion where
  allow := some [⟨"$", 1⟩]
  deny := none
  jitUnavailable := false

/-- `GenesisMessage`. -/
structure GenesisMessage where
  pathAssertion : PathAssertion
  deriving DecidableEq, Repr

/-- The fields of `Endpoint`. -/
def endpointValue (endpoint : Endpoint) : Value :=
  .record [("Host", .ofText endpoint.host), ("Distance", .natural endpoint.distance.toNat)]

/-- A list of endpoints, or `null`. -/
def endpointsValue : Option (List Endpoint) → Value
  | none => .null
  | some endpoints => .array (endpoints.map endpointValue)

/-- The fields of `PathAssertion`. -/
def assertionValue (assertion : PathAssertion) : Value :=
  .record [("Allow", endpointsValue assertion.allow), ("Deny", endpointsValue assertion.deny),
    ("JITUnavailable", .bool assertion.jitUnavailable)]

/-- The fields of `GenesisMessage`. -/
def genesisValue (message : GenesisMessage) : Value :=
  .record [("PathAssertion", assertionValue message.pathAssertion)]

/-- Read an `Endpoint`. -/
def readEndpoint (value : Value) : Option Endpoint :=
  match value.fields ["Host", "Distance"] with
  | some [some host, some distance] => do
      let host ← host.text
      let distance ← distance.natBelow (2 ^ 32)
      some ⟨host, .ofNat distance⟩
  | _ => none

/-- Read a `PathAssertion`. -/
def readAssertion (value : Value) : Option PathAssertion :=
  match value.fields ["Allow", "Deny", "JITUnavailable"] with
  | some [allow, deny, some jitUnavailable] => do
      let allow ← optionalField (Value.list readEndpoint) allow
      let deny ← optionalField (Value.list readEndpoint) deny
      let jitUnavailable ← jitUnavailable.boolean
      some ⟨allow, deny, jitUnavailable⟩
  | _ => none

/-- Read a `GenesisMessage`. -/
def readGenesis (value : Value) : Option GenesisMessage :=
  match value.fields ["PathAssertion"] with
  | some [some assertion] => (readAssertion assertion).map .mk
  | _ => none

/-- An endpoint is read back from its fields. -/
theorem readEndpoint_endpointValue (endpoint : Endpoint) :
    readEndpoint (endpointValue endpoint) = some endpoint := by
  have hdistance := endpoint.distance.toNat_lt
  rw [readEndpoint, endpointValue, fields_record _ (by simp)]
  simp [List.lookup_cons, Value.text_ofText, Value.natBelow, hdistance]

/-- A list of endpoints is read back. -/
theorem optionalField_endpointsValue (endpoints : Option (List Endpoint)) :
    optionalField (Value.list readEndpoint) (some (endpointsValue endpoints)) =
      some endpoints := by
  cases endpoints with
  | none => rfl
  | some endpoints =>
      have hlist := list_map readEndpoint_endpointValue endpoints
      rw [List.map_id'] at hlist
      show (Value.list readEndpoint (.array (endpoints.map endpointValue))).map some = _
      rw [hlist, Option.map_some]

/-- A Genesis message is read back from its fields. -/
theorem readGenesis_genesisValue (message : GenesisMessage) :
    readGenesis (genesisValue message) = some message := by
  have hassertion : readAssertion (assertionValue message.pathAssertion) =
      some message.pathAssertion := by
    rw [readAssertion, assertionValue, fields_record _ (by simp)]
    simp [List.lookup_cons, optionalField_endpointsValue, Value.boolean]
  rw [readGenesis, genesisValue, fields_record _ (by simp)]
  simp [List.lookup_cons, hassertion]

/-! ## The codecs of the two programs -/

/-- `serde_json::to_string` of a value. -/
def toText (value : Value) : Except String String :=
  match decodeUtf8 (value.print serdeQuote) with
  | some payload => .ok payload
  | none => .error "invalid UTF-8"

/-- A value of texts is written, and parsed again. -/
theorem toText_of_textual {value : Value} (h : value.Textual) :
    ∃ payload, toText value = .ok payload ∧ Json.parse (utf8 payload) = some value := by
  obtain ⟨payload, hdecode, hbytes⟩ := (value.isText_print Json.keepsText_serdeQuote h).decode
  refine ⟨payload, by rw [toText, hdecode], ?_⟩
  rw [hbytes, parse_print inverted_serdeQuote]

/-- How the library writes the session descriptions that it reads. -/
structure DescriptionWriter (serde : Serde) where
  write : SessionDescription → Value
  description_write : ∀ description, serde.description (write description) = some description
  textual : ∀ description, (write description).Textual

variable {serde : Serde} (writer : DescriptionWriter serde)

/-- The fields of the consumer's `OfferMessage`. -/
def offerValue (message : Consumer.OfferMessage) : Value :=
  .record [("SDP", writer.write message.sdp), ("Tag", .ofText message.tag)]

/-- The codec of a consumer. -/
def consumerCodec : Consumer.Codec where
  encodeOffer := fun message ↦ toText (offerValue writer message)
  decodeAnswer := fun payload ↦
    (decodePayload serde serde.description serde.descriptionReport payload).mapError serde.display
  encodeIce := encodeIce serde.form

/-- The codec of a peer proxy. -/
def peerCodec : PeerProxy.Codec where
  genesis := toText (genesisValue ⟨.allHostsOnRequest⟩)
  decodeOffer := fun payload ↦ (decodeOfferPayload serde payload).mapError serde.display
  encodeAnswer := fun description ↦ toText (writer.write description)
  decodeIce := fun payload ↦ (decodeIcePayload serde payload).mapError serde.display

/-- The codecs of the two programs. -/
def jsonCodecs : Signaling.Codecs :=
  ⟨consumerCodec writer, peerCodec writer⟩

/-! ## Agreement -/

/-- A payload is decoded to what is read from the value that it writes. -/
theorem decodePayload_of_parse {Message : Type} {read : Value → Option Message}
    {report : Value → Option Json.Report} {payload : String} {value : Value} {message : Message}
    (hparse : Json.parse (utf8 payload) = some value) (hread : read value = some message) :
    decodePayload serde read report payload = .ok message := by
  simp only [decodePayload, hparse, hread]

/-- The peer proxy reads every Offer that the consumer writes. -/
theorem decodeOffer_encodeOffer (sdp : SessionDescription) (tag : String) :
    ∃ payload, (consumerCodec writer).encodeOffer ⟨sdp, tag⟩ = .ok payload ∧
      (peerCodec writer).decodeOffer payload = .ok ⟨sdp, tag⟩ := by
  have htextual : (offerValue writer ⟨sdp, tag⟩).Textual := by
    refine membersTextual_record ?_
    simp only [List.forall_mem_cons, List.not_mem_nil, false_implies, implies_true, and_true]
    exact ⟨writer.textual sdp, ⟨tag, rfl⟩⟩
  have hread : readOfferMessage serde (offerValue writer ⟨sdp, tag⟩) = some ⟨sdp, tag⟩ := by
    rw [readOfferMessage, offerValue, fields_record _ (by simp)]
    simp [List.lookup_cons, Value.text_ofText, writer.description_write]
  obtain ⟨payload, hencode, hparse⟩ := toText_of_textual htextual
  have hdecode : decodeOfferPayload serde payload = .ok ⟨sdp, tag⟩ :=
    decodePayload_of_parse hparse hread
  exact ⟨payload, hencode, by simp [peerCodec, hdecode, Except.mapError]⟩

/-- The consumer reads every Answer that the peer proxy writes. -/
theorem decodeAnswer_encodeAnswer (description : SessionDescription) :
    ∃ payload, (peerCodec writer).encodeAnswer description = .ok payload ∧
      (consumerCodec writer).decodeAnswer payload = .ok description := by
  obtain ⟨payload, hencode, hparse⟩ := toText_of_textual (writer.textual description)
  have hdecode : decodePayload serde serde.description serde.descriptionReport payload =
      .ok description := decodePayload_of_parse hparse (writer.description_write description)
  exact ⟨payload, hencode, by simp [consumerCodec, hdecode, Except.mapError]⟩

/-- The peer proxy reads every ICE message that the consumer writes. -/
theorem peerCodec_decodeIce (message : Consumer.IceMessage) :
    ∃ payload, (consumerCodec writer).encodeIce message = .ok payload ∧
      (peerCodec writer).decodeIce payload =
        .ok ⟨message.candidates.map pionCandidate, message.consumerSessionId⟩ := by
  obtain ⟨payload, hencode, hdecode⟩ := decodeIce_encodeIce serde.form message
  have hread := (decodeIcePayload_ok_iff serde payload _).mpr hdecode
  exact ⟨payload, hencode, by simp [peerCodec, hread, Except.mapError]⟩

/-- A Genesis message is text. -/
theorem genesisValue_textual (message : GenesisMessage) : (genesisValue message).Textual := by
  have hendpoint : ∀ endpoint, (endpointValue endpoint).Textual := by
    intro endpoint
    refine membersTextual_record ?_
    simp only [List.forall_mem_cons, List.not_mem_nil, false_implies, implies_true, and_true]
    exact ⟨⟨endpoint.host, rfl⟩, trivial⟩
  have hendpoints : ∀ endpoints, (endpointsValue endpoints).Textual := by
    intro endpoints
    cases endpoints with
    | none => trivial
    | some endpoints =>
        show Json.ElementsTextual (endpoints.map endpointValue)
        induction endpoints with
        | nil => trivial
        | cons endpoint endpoints ih => exact ⟨hendpoint endpoint, ih⟩
  refine membersTextual_record ?_
  simp only [List.forall_mem_cons, List.not_mem_nil, false_implies, implies_true, and_true]
  refine membersTextual_record ?_
  simp only [List.forall_mem_cons, List.not_mem_nil, false_implies, implies_true, and_true]
  exact ⟨hendpoints _, hendpoints _, trivial⟩

/-- What an encoder writes is decoded to one thing only. -/
theorem eq_of_decoded {Seen : Type} {encoded : Except String String}
    {decode : String → Except String Seen} {seen decoded : Seen} {payload : String}
    (h : ∃ written, encoded = .ok written ∧ decode written = .ok seen)
    (hencode : encoded = .ok payload) (hdecode : decode payload = .ok decoded) :
    decoded = seen := by
  obtain ⟨written, hwritten, hread⟩ := h
  obtain rfl := Except.ok.inj (hwritten.symm.trans hencode)
  exact Except.ok.inj (hdecode.symm.trans hread)

/-- The codecs of the two programs are compatible. -/
theorem jsonCodecs_compatible : (jsonCodecs writer).Compatible where
  offer := by
    intro message payload decoded hencode hdecode
    rw [eq_of_decoded (decodeOffer_encodeOffer writer message.sdp message.tag) hencode hdecode]
  answer := by
    intro description payload decoded hencode hdecode
    exact eq_of_decoded (decodeAnswer_encodeAnswer writer description) hencode hdecode
  ice := by
    intro message payload decoded hencode hdecode
    rw [eq_of_decoded (peerCodec_decodeIce writer message) hencode hdecode]

/-- Whatever a program writes, the other one reads. A Genesis message, an Offer and an Answer are
always written, and then put into an envelope by any writer whose strings are read back, among them
Rust and Go. Read from there, a Genesis message becomes a candidate of a consumer that looks for
one, with the assertion that was written in its payload, and an advertisement of another kind is
passed over. An Offer comes out at the peer proxy and an Answer at the consumer as it was, after the
check of its kind, and an envelope of another kind is refused for its kind. -/
theorem signals_agree :
    (∃ payload, (peerCodec writer).genesis = .ok payload ∧
      ∀ quote, Inverted quote → ∀ replyTo kind, ∃ signal,
        decodeSignal ((signalValue ⟨replyTo, kind, payload⟩).print quote) = .ok signal ∧
        signal.replyTo = replyTo ∧
        (Json.parse (utf8 signal.payload)).bind readGenesis = some ⟨.allHostsOnRequest⟩ ∧
        ∀ config,
          Consumer.Control.discovering.next (consumerCodec writer) config
              (.advertised (.ok (some signal))) =
            some (.none, if kind = .genesis then .collecting [signal] else .discovering) ∧
          ∀ candidates, (Consumer.Control.collecting candidates).next (consumerCodec writer) config
              (.advertised (.ok (some signal))) =
            some (.none, .collecting
              (if kind = .genesis then candidates ++ [signal] else candidates))) ∧
    (∀ sdp tag, ∃ payload, (consumerCodec writer).encodeOffer ⟨sdp, tag⟩ = .ok payload ∧
      ∀ quote, Inverted quote → ∀ replyTo kind, ∃ signal,
        decodeSignal ((signalValue ⟨replyTo, kind, payload⟩).print quote) = .ok signal ∧
        signal.replyTo = replyTo ∧ PeerProxy.readOffer (peerCodec writer) signal =
          if kind = .offer then .ok ⟨sdp, tag⟩ else .error (.unexpectedSignal .offer kind)) ∧
    (∀ description, ∃ payload, (peerCodec writer).encodeAnswer description = .ok payload ∧
      ∀ quote, Inverted quote → ∀ replyTo kind, ∃ signal,
        decodeSignal ((signalValue ⟨replyTo, kind, payload⟩).print quote) = .ok signal ∧
        signal.replyTo = replyTo ∧ ∀ config offer,
          (Consumer.Control.awaitingAnswer offer).next (consumerCodec writer) config
              (.replied (.ok (some signal))) =
            if kind = .answer then some (.none, .promising offer signal description)
            else Consumer.Control.fail (.unexpectedSignal .answer kind)) ∧
    Inverted serdeQuote ∧ ∀ shortControls, Inverted (goQuote shortControls) := by
  refine ⟨?_, fun sdp tag ↦ ?_, fun description ↦ ?_, inverted_serdeQuote, inverted_goQuote⟩
  · obtain ⟨payload, hencode, hparse⟩ :=
      toText_of_textual (genesisValue_textual ⟨.allHostsOnRequest⟩)
    refine ⟨payload, hencode, fun quote hquote replyTo kind ↦
      ⟨_, decodeSignal_print hquote _, rfl, ?_, fun config ↦ ⟨rfl, fun candidates ↦ rfl⟩⟩⟩
    rw [hparse, Option.bind_some, readGenesis_genesisValue]
  · obtain ⟨payload, hencode, hdecode⟩ := decodeOffer_encodeOffer writer sdp tag
    refine ⟨payload, hencode, fun quote hquote replyTo kind ↦
      ⟨_, decodeSignal_print hquote _, rfl, ?_⟩⟩
    by_cases hkind : kind = .offer
    · simp [PeerProxy.readOffer, PeerProxy.readSignal, PeerProxy.expectSignal, hkind, hdecode]
    · simp [PeerProxy.readOffer, PeerProxy.readSignal, PeerProxy.expectSignal, hkind]
  · obtain ⟨payload, hencode, hdecode⟩ := decodeAnswer_encodeAnswer writer description
    refine ⟨payload, hencode, fun quote hquote replyTo kind ↦
      ⟨_, decodeSignal_print hquote _, rfl, fun config offer ↦ ?_⟩⟩
    by_cases hkind : kind = .answer
    · simp [Consumer.Control.next, Consumer.expectSignal, hkind, hdecode]
    · simp [Consumer.Control.next, Consumer.expectSignal, hkind]

/-! ## A writer of descriptions -/

/-- The writer of the library as far as the model knows it. -/
def DescriptionWriter.plain : DescriptionWriter Serde.plain where
  write := fun description ↦ .record [("type", .ofText (sdpTypeName description.sdpType)),
    ("sdp", .ofText description.sdp)]
  description_write := by
    rintro ⟨sdpType, sdp⟩
    show readDescription _ = _
    have htype : sdpTypeOfName (sdpTypeName sdpType) = some sdpType := by
      cases sdpType <;> rfl
    rw [readDescription, fields_record _ (by simp)]
    simp [List.lookup_cons, Value.variant, Value.ofText, Value.text, Text.decodeUtf8_utf8, htype]
  textual := by
    intro description
    refine membersTextual_record ?_
    simp only [List.forall_mem_cons, List.not_mem_nil, false_implies, implies_true, and_true]
    exact ⟨⟨_, rfl⟩, ⟨_, rfl⟩⟩

example : (peerCodec DescriptionWriter.plain).genesis =
    .ok ("\x7b\"PathAssertion\":\x7b\"Allow\":[\x7b\"Host\":\"$\",\"Distance\":1\x7d]," ++
      "\"Deny\":null,\"JITUnavailable\":false\x7d\x7d") := by
  decide +kernel

end Unbounded.Wire
