import Unbounded.Consumer.Session
import Unbounded.Json.Texts
import Unbounded.PeerProxy.Session

/-!
# The ICE message between the consumer and the peer proxy

The consumer writes its candidates and its session ID with its own record types, and the peer proxy
reads them with other ones: `IceMessage` and `ConsumerIceCandidate` of `src/consumer.rs` against
`IceMessage` and `PionIceCandidate` of `src/peer_proxy.rs`. Each side is translated from its own
declarations, field by field. The JSON form of `RTCIceCandidateType` belongs to the `webrtc` crate,
and all that is used of it is that its reader inverts its writer (`TypeForm`).
-/

namespace Unbounded

open Json (Value optionalField fields_record list_map parse_print inverted_serdeQuote serdeQuote
  keepsText_serdeQuote ElementsTextual MembersTextual)
open Rtc (IceCandidate IceCandidateType)
open Text (utf8 decodeUtf8)

namespace Wire

/-- The JSON form of a candidate type. -/
structure TypeForm where
  write : IceCandidateType → Value
  read : Value → Option IceCandidateType
  read_write : ∀ typ, read (write typ) = some typ
  textual : ∀ typ, (write typ).Textual

/-- The name of a candidate type. -/
def typeName : IceCandidateType → String
  | .unspecified => "Unspecified"
  | .host => "host"
  | .srflx => "srflx"
  | .prflx => "prflx"
  | .relay => "relay"

/-- The candidate type of a name. -/
def typeOfName (name : String) : Option IceCandidateType :=
  [.unspecified, .host, .srflx, .prflx, .relay].find? fun typ ↦ typeName typ == name

/-- Candidate types as their names. -/
def TypeForm.names : TypeForm where
  write := fun typ ↦ .ofText (typeName typ)
  read := fun value ↦ value.text.bind typeOfName
  read_write := by
    intro typ
    rw [Value.text_ofText]
    cases typ <;> rfl
  textual := fun typ ↦ ⟨typeName typ, rfl⟩

variable (form : TypeForm)

/-! ## The consumer's side -/

/-- The fields of `ConsumerIceCandidate`. -/
def candidateFields (candidate : Consumer.ConsumerIceCandidate) : List (String × Value) :=
  [("foundation", .ofText candidate.foundation),
    ("priority", .natural candidate.priority.toNat),
    ("address", .ofText candidate.address),
    ("protocol", .natural candidate.protocol.toNat),
    ("port", .natural candidate.port.toNat),
    ("type", form.write candidate.typ),
    ("component", .natural candidate.component.toNat),
    ("relatedAddress", .ofText candidate.relatedAddress),
    ("relatedPort", .natural candidate.relatedPort.toNat),
    ("tcpType", .ofText candidate.tcpType)]

/-- The fields of the consumer's `IceMessage`. -/
def messageFields (message : Consumer.IceMessage) : List (String × Value) :=
  [("Candidates", .array (message.candidates.map fun candidate ↦
      .record (candidateFields form candidate))),
    ("ConsumerSessionID", .ofText message.consumerSessionId)]

/-- `serde_json::to_string` of the consumer's `IceMessage`. -/
def encodeIce (message : Consumer.IceMessage) : Except String String :=
  match decodeUtf8 ((Value.record (messageFields form message)).print serdeQuote) with
  | some payload => .ok payload
  | none => .error "invalid UTF-8"

/-! ## The peer proxy's side -/

/-- Read a `PionIceCandidate`. -/
def readCandidate (value : Value) : Option PeerProxy.PionIceCandidate :=
  match value.fields ["foundation", "priority", "address", "protocol", "port", "type", "component",
    "relatedAddress", "relatedPort", "tcpType", "sdpMid", "sdpMLineIndex"] with
  | some [some foundation, some priority, some address, some protocol, some port, some typ,
      some component, some relatedAddress, some relatedPort, some tcpType, sdpMid,
      sdpMLineIndex] => do
      let foundation ← foundation.text
      let priority ← priority.natBelow (2 ^ 32)
      let address ← address.text
      let protocol ← protocol.natBelow (2 ^ 8)
      let port ← port.natBelow (2 ^ 16)
      let typ ← form.read typ
      let component ← component.natBelow (2 ^ 16)
      let relatedAddress ← relatedAddress.text
      let relatedPort ← relatedPort.natBelow (2 ^ 16)
      let tcpType ← tcpType.text
      let sdpMid ← optionalField Value.text sdpMid
      let sdpMLineIndex ← optionalField (Value.natBelow (2 ^ 16)) sdpMLineIndex
      some ⟨foundation, .ofNat priority, address, .ofNat protocol, .ofNat port, typ,
        .ofNat component, relatedAddress, .ofNat relatedPort, tcpType, sdpMid,
        sdpMLineIndex.map UInt16.ofNat⟩
  | _ => none

/-- Read the peer proxy's `IceMessage`. -/
def readMessage (value : Value) : Option PeerProxy.IceMessage :=
  match value.fields ["Candidates", "ConsumerSessionID"] with
  | some [some candidates, some id] => do
      let candidates ← candidates.list (readCandidate form)
      let id ← id.text
      some ⟨candidates, id⟩
  | _ => none

/-- `serde_json::from_str` of the peer proxy's `IceMessage`. The text of an error is left out. -/
def decodeIce (payload : String) : Except String PeerProxy.IceMessage :=
  match (Json.parse (utf8 payload)).bind (readMessage form) with
  | some message => .ok message
  | none => .error "invalid ICE message"

/-! ## Agreement -/

/-- What the peer proxy reads for a candidate of the consumer. -/
def pionCandidate (candidate : Consumer.ConsumerIceCandidate) : PeerProxy.PionIceCandidate where
  foundation := candidate.foundation
  priority := candidate.priority
  address := candidate.address
  protocol := candidate.protocol
  port := candidate.port
  typ := candidate.typ
  component := candidate.component
  relatedAddress := candidate.relatedAddress
  relatedPort := candidate.relatedPort
  tcpType := candidate.tcpType
  sdpMid := none
  sdpMLineIndex := none

/-- A candidate is read from the fields that the consumer writes. -/
theorem readCandidate_record (candidate : Consumer.ConsumerIceCandidate) :
    readCandidate form (.record (candidateFields form candidate)) =
      some (pionCandidate candidate) := by
  have hpriority := candidate.priority.toNat_lt
  have hprotocol := candidate.protocol.toNat_lt
  have hport := candidate.port.toNat_lt
  have hcomponent := candidate.component.toNat_lt
  have hrelated := candidate.relatedPort.toNat_lt
  rw [readCandidate, fields_record _ (by simp [candidateFields])]
  simp [candidateFields, List.lookup_cons, Value.text_ofText, Value.natBelow, form.read_write,
    optionalField, pionCandidate, hpriority, hprotocol, hport, hcomponent, hrelated]

/-- A message is read from the fields that the consumer writes. -/
theorem readMessage_record (message : Consumer.IceMessage) :
    readMessage form (.record (messageFields form message)) =
      some ⟨message.candidates.map pionCandidate, message.consumerSessionId⟩ := by
  have hcandidates := list_map (readCandidate_record form) message.candidates
  rw [readMessage, fields_record _ (by simp [messageFields])]
  simp [messageFields, List.lookup_cons, Value.text_ofText, hcandidates]

/-- A record with the fields of a text is text when the values are. -/
theorem membersTextual_record {fields : List (String × Value)}
    (h : ∀ field ∈ fields, field.2.Textual) : (Value.record fields).Textual := by
  show MembersTextual (fields.map fun field ↦ (utf8 field.1, field.2))
  induction fields with
  | nil => trivial
  | cons field fields ih =>
      exact ⟨⟨⟨field.1, rfl⟩, h field List.mem_cons_self⟩,
        ih fun other hmem ↦ h other (List.mem_cons_of_mem _ hmem)⟩

/-- The strings of a message are text. -/
theorem messageFields_textual (message : Consumer.IceMessage) :
    (Value.record (messageFields form message)).Textual := by
  have htext : ∀ text, (Value.ofText text).Textual := fun text ↦ ⟨text, rfl⟩
  have hcandidate : ∀ candidate, (Value.record (candidateFields form candidate)).Textual := by
    intro candidate
    refine membersTextual_record ?_
    simp [candidateFields, htext, form.textual, Value.Textual]
  have hcandidates : ∀ candidates : List Consumer.ConsumerIceCandidate,
      ElementsTextual (candidates.map fun candidate ↦
        .record (candidateFields form candidate)) := by
    intro candidates
    induction candidates with
    | nil => trivial
    | cons candidate candidates ih => exact ⟨hcandidate candidate, ih⟩
  refine membersTextual_record ?_
  simp only [messageFields, List.forall_mem_cons, htext, List.not_mem_nil, false_implies,
    implies_true, and_true]
  exact hcandidates message.candidates

/-- The peer proxy reads every message that the consumer writes. -/
theorem decodeIce_encodeIce (message : Consumer.IceMessage) :
    ∃ payload, encodeIce form message = .ok payload ∧ decodeIce form payload =
      .ok ⟨message.candidates.map pionCandidate, message.consumerSessionId⟩ := by
  obtain ⟨payload, hdecode, hbytes⟩ := ((Value.record (messageFields form message)).isText_print
    keepsText_serdeQuote (messageFields_textual form message)).decode
  refine ⟨payload, by rw [encodeIce, hdecode], ?_⟩
  rw [decodeIce, hbytes, parse_print inverted_serdeQuote, Option.bind_some, readMessage_record]

/-- A candidate goes from one side to the other with all its fields, but for its statistics ID. -/
theorem toRustCandidate_pionCandidate (candidate : IceCandidate) :
    (pionCandidate (.ofCandidate candidate)).toRustCandidate =
      { candidate with statsId := "" } := by
  obtain ⟨_, _, _, _, protocol, _, _, _, _, _, _⟩ := candidate
  cases protocol <;> rfl

/-- The peer proxy goes on with an ICE message exactly if its session ID is a subprotocol token. -/
theorem afterIce_publish_iff (codec : PeerProxy.Codec) (signal : SignalMessage)
    {ice : PeerProxy.IceMessage} (hkind : signal.kind = .ice)
    (hdecode : codec.decodeIce signal.payload = .ok ice) :
    PeerProxy.Control.afterIce codec (.ok (some signal)) =
        (.publish ice.consumerSessionId,
          PeerProxy.Control.withCandidates ice.consumerSessionId ice.candidates) ↔
      isSubprotocolToken ice.consumerSessionId = true := by
  have hread : PeerProxy.readIce codec signal = .ok ice := by
    simp [PeerProxy.readIce, PeerProxy.readSignal, PeerProxy.expectSignal, hkind, hdecode]
  have hempty : ice.consumerSessionId.isEmpty = true →
      isSubprotocolToken ice.consumerSessionId = false := by
    intro hempty
    simp [isSubprotocolToken, hempty]
  simp only [PeerProxy.Control.afterIce, hread, PeerProxy.checkSessionId]
  cases hid : ice.consumerSessionId.isEmpty with
  | true => simp [hempty hid, PeerProxy.Control.fail]
  | false =>
      cases htoken : isSubprotocolToken ice.consumerSessionId with
      | true => simp
      | false => simp [PeerProxy.Control.fail]

/-- The consumer and the peer proxy agree on the ICE message. Whatever the candidates and the
session ID, the consumer's message is written and read by the peer proxy, with the same session ID
and the same candidates in the same order; only their statistics IDs are cleared, and the two fields
that the consumer does not write are absent. The peer proxy then publishes the session ID and goes
on with the candidates exactly when the session ID is a subprotocol token. -/
theorem ice_agreement (candidates : List IceCandidate) (id : String) :
    ∃ payload ice, encodeIce form ⟨candidates.map .ofCandidate, id⟩ = .ok payload ∧
      decodeIce form payload = .ok ice ∧ ice.consumerSessionId = id ∧
      ice.candidates.map PeerProxy.PionIceCandidate.toRustCandidate =
        candidates.map (fun candidate ↦ { candidate with statsId := "" }) ∧
      (∀ candidate ∈ ice.candidates, candidate.sdpMid = none ∧ candidate.sdpMLineIndex = none) ∧
      ∀ (codec : PeerProxy.Codec) (replyTo : String),
        PeerProxy.Control.afterIce { codec with decodeIce := decodeIce form }
            (.ok (some ⟨replyTo, .ice, payload⟩)) =
          (.publish id, PeerProxy.Control.withCandidates id ice.candidates) ↔
        isSubprotocolToken id = true := by
  obtain ⟨payload, hencode, hdecode⟩ := decodeIce_encodeIce form
    ⟨candidates.map .ofCandidate, id⟩
  refine ⟨payload, _, hencode, hdecode, rfl, ?_, ?_, fun codec replyTo ↦ ?_⟩
  · simp only [List.map_map]
    exact List.map_congr_left fun candidate _ ↦ toRustCandidate_pionCandidate candidate
  · intro candidate hmem
    obtain ⟨_, _, rfl⟩ := List.mem_map.mp hmem
    exact ⟨rfl, rfl⟩
  · exact afterIce_publish_iff { codec with decodeIce := decodeIce form }
      ⟨replyTo, .ice, payload⟩ rfl hdecode

end Wire

end Unbounded
