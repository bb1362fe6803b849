import Unbounded.Json.Reports
import Unbounded.Wire.Ice

/-!
# The payloads of a remote consumer

How the peer proxy decodes the payload of an Offer and of an ICE signal, with what is reported about
a payload that is refused. The record types are those of `src/peer_proxy.rs`, field by field. What
belongs to `serde`, `serde_json` and the `webrtc` crate is a parameter with what is assumed of it
(`Serde`). `decodeIcePayload_ok_iff` says that the decoder of the ICE message accepts what
`decodeIce` accepts, and `reason_of_decodePayload` that nothing is refused without a reason.
-/

namespace Unbounded.Wire

open Json (Value Report Field Covers Quiet textReport naturalReport listReport optionalReport
  variantReport recordReport)
open Rtc (IceCandidateType SdpType SessionDescription)
open Text (utf8 hasControl)

/-- What is assumed of the libraries that decode a payload and describe an error. -/
structure Serde where
  /-- The variants of `RTCIceCandidateType`. -/
  typeName : IceCandidateType → String
  typeOfName : String → Option IceCandidateType
  typeOfName_typeName : ∀ typ, typeOfName (typeName typ) = some typ
  /-- `RTCSessionDescription`. -/
  description : Value → Option SessionDescription
  descriptionReport : Value → Option Report
  description_covered : Covers descriptionReport description
  description_quiet : Quiet descriptionReport
  /-- What is reported about a payload that is not JSON. The decoder reads as it parses, so that it
  may find something else to report before it comes to the error in the syntax. -/
  malformed : String → Report
  malformed_static : ∀ payload, (malformed payload).Static
  /-- `Display` of an error. -/
  display : Report → String
  /-- An unknown variant is quoted as it is. -/
  display_unknownVariant : ∀ variant, ∃ before after,
    display (.unknownVariant variant) = before ++ variant ++ after ∧
      hasControl before = false ∧ hasControl after = false
  /-- Anything else is described by fixed texts, numbers, the names of declared fields and strings
  in escaped form. -/
  display_other : ∀ report : Report, report.Static →
    (∀ variant, report ≠ .unknownVariant variant) → hasControl (display report) = false

variable (serde : Serde)

/-- The JSON form of a candidate type. -/
def Serde.form : TypeForm where
  write := fun typ ↦ .ofText (serde.typeName typ)
  read := Value.variant serde.typeOfName
  read_write := by
    intro typ
    show (Text.decodeUtf8 (utf8 (serde.typeName typ))).bind serde.typeOfName = some typ
    rw [Text.decodeUtf8_utf8, Option.bind_some, serde.typeOfName_typeName]
  textual := fun typ ↦ ⟨serde.typeName typ, rfl⟩

/-! ## Why a message is refused -/

/-- The fields of `PionIceCandidate`. -/
def pionCandidateFields : List Field :=
  [⟨"foundation", true, textReport⟩, ⟨"priority", true, naturalReport (2 ^ 32)⟩,
    ⟨"address", true, textReport⟩, ⟨"protocol", true, naturalReport (2 ^ 8)⟩,
    ⟨"port", true, naturalReport (2 ^ 16)⟩, ⟨"type", true, variantReport serde.typeOfName⟩,
    ⟨"component", true, naturalReport (2 ^ 16)⟩, ⟨"relatedAddress", true, textReport⟩,
    ⟨"relatedPort", true, naturalReport (2 ^ 16)⟩, ⟨"tcpType", true, textReport⟩,
    ⟨"sdpMid", false, optionalReport textReport⟩,
    ⟨"sdpMLineIndex", false, optionalReport (naturalReport (2 ^ 16))⟩]

/-- The fields of `IceMessage`. -/
def iceFields : List Field :=
  [⟨"Candidates", true, listReport (recordReport (pionCandidateFields serde))⟩,
    ⟨"ConsumerSessionID", true, textReport⟩]

/-- The fields of `OfferMessage`. -/
def offerFields : List Field :=
  [⟨"SDP", true, serde.descriptionReport⟩, ⟨"Tag", true, textReport⟩]

/-- Read the peer proxy's `OfferMessage`. -/
def readOfferMessage (value : Value) : Option PeerProxy.OfferMessage :=
  match value.fields ["SDP", "Tag"] with
  | some [some sdp, some tag] => do
      let sdp ← serde.description sdp
      let tag ← tag.text
      some ⟨sdp, tag⟩
  | _ => none

/-- `decode_payload`: `serde_json::from_str` into a message, which is read from its JSON value, or
refused with a report. -/
def decodePayload {Message : Type} (read : Value → Option Message)
    (report : Value → Option Report) (payload : String) : Except Report Message :=
  match Json.parse (utf8 payload) with
  | none => .error (serde.malformed payload)
  | some value =>
      match read value with
      | some message => .ok message
      | none => .error ((report value).getD .malformed)

/-- `decode_payload` of an Offer. -/
def decodeOfferPayload (payload : String) : Except Report PeerProxy.OfferMessage :=
  decodePayload serde (readOfferMessage serde) (recordReport (offerFields serde)) payload

/-- `decode_payload` of an ICE signal. -/
def decodeIcePayload (payload : String) : Except Report PeerProxy.IceMessage :=
  decodePayload serde (readMessage serde.form) (recordReport (iceFields serde)) payload

/-! ## Nothing is refused without a reason -/

/-- A candidate that is refused is reported. -/
theorem covers_pionCandidate :
    Covers (recordReport (pionCandidateFields serde)) (readCandidate serde.form) := by
  intro value h
  have htype : Covers (variantReport serde.typeOfName) serde.form.read :=
    Json.covers_variant serde.typeOfName
  obtain ⟨found, hfound, hpasses⟩ :=
    Json.fields_of_recordReport (by simp [pionCandidateFields]) h
  rcases hpasses with _ | ⟨pfoundation, hpasses⟩
  rcases hpasses with _ | ⟨ppriority, hpasses⟩
  rcases hpasses with _ | ⟨paddress, hpasses⟩
  rcases hpasses with _ | ⟨pprotocol, hpasses⟩
  rcases hpasses with _ | ⟨pport, hpasses⟩
  rcases hpasses with _ | ⟨ptyp, hpasses⟩
  rcases hpasses with _ | ⟨pcomponent, hpasses⟩
  rcases hpasses with _ | ⟨prelatedAddress, hpasses⟩
  rcases hpasses with _ | ⟨prelatedPort, hpasses⟩
  rcases hpasses with _ | ⟨ptcpType, hpasses⟩
  rcases hpasses with _ | ⟨psdpMid, hpasses⟩
  rcases hpasses with _ | ⟨psdpMLineIndex, hpasses⟩
  cases hpasses
  obtain ⟨_, _, rfl, hfoundation⟩ := pfoundation.read Json.covers_text
  obtain ⟨_, _, rfl, hpriority⟩ := ppriority.read (Json.covers_natural _)
  obtain ⟨_, _, rfl, haddress⟩ := paddress.read Json.covers_text
  obtain ⟨_, _, rfl, hprotocol⟩ := pprotocol.read (Json.covers_natural _)
  obtain ⟨_, _, rfl, hport⟩ := pport.read (Json.covers_natural _)
  obtain ⟨_, _, rfl, htyp⟩ := ptyp.read htype
  obtain ⟨_, _, rfl, hcomponent⟩ := pcomponent.read (Json.covers_natural _)
  obtain ⟨_, _, rfl, hrelatedAddress⟩ := prelatedAddress.read Json.covers_text
  obtain ⟨_, _, rfl, hrelatedPort⟩ := prelatedPort.read (Json.covers_natural _)
  obtain ⟨_, _, rfl, htcpType⟩ := ptcpType.read Json.covers_text
  obtain ⟨_, hsdpMid⟩ := psdpMid.read_optional Json.covers_text
  obtain ⟨_, hsdpMLineIndex⟩ := psdpMLineIndex.read_optional (Json.covers_natural _)
  simp only [pionCandidateFields, List.map_cons, List.map_nil] at hfound
  simp only [readCandidate, hfound, hfoundation, hpriority, haddress, hprotocol, hport, htyp,
    hcomponent, hrelatedAddress, hrelatedPort, htcpType, hsdpMid, hsdpMLineIndex]
  exact ⟨_, rfl⟩

/-- An ICE message that is refused is reported. -/
theorem covers_ice : Covers (recordReport (iceFields serde)) (readMessage serde.form) := by
  intro value h
  obtain ⟨found, hfound, hpasses⟩ := Json.fields_of_recordReport (by simp [iceFields]) h
  rcases hpasses with _ | ⟨pcandidates, hpasses⟩
  rcases hpasses with _ | ⟨pid, hpasses⟩
  cases hpasses
  obtain ⟨_, _, rfl, hcandidates⟩ :=
    pcandidates.read (Json.covers_list (covers_pionCandidate serde))
  obtain ⟨_, _, rfl, hid⟩ := pid.read Json.covers_text
  simp only [iceFields, List.map_cons, List.map_nil] at hfound
  simp only [readMessage, hfound, hcandidates, hid]
  exact ⟨_, rfl⟩

/-- An Offer that is refused is reported. -/
theorem covers_offer : Covers (recordReport (offerFields serde)) (readOfferMessage serde) := by
  intro value h
  obtain ⟨found, hfound, hpasses⟩ := Json.fields_of_recordReport (by simp [offerFields]) h
  rcases hpasses with _ | ⟨psdp, hpasses⟩
  rcases hpasses with _ | ⟨ptag, hpasses⟩
  cases hpasses
  obtain ⟨_, _, rfl, hsdp⟩ := psdp.read serde.description_covered
  obtain ⟨_, _, rfl, htag⟩ := ptag.read Json.covers_text
  simp only [offerFields, List.map_cons, List.map_nil] at hfound
  simp only [readOfferMessage, hfound, hsdp, htag]
  exact ⟨_, rfl⟩

/-! ## Reports have no names from the payload -/

/-- The names of the fields of a candidate. -/
theorem pionCandidateFields_printable :
    ∀ name ∈ (pionCandidateFields serde).map Field.name, hasControl name = false := by
  simp only [pionCandidateFields, List.map_cons, List.map_nil]
  decide

/-- The names of the fields of an ICE message. -/
theorem iceFields_printable :
    ∀ name ∈ (iceFields serde).map Field.name, hasControl name = false := by
  simp only [iceFields, List.map_cons, List.map_nil]
  decide

/-- The names of the fields of an Offer. -/
theorem offerFields_printable :
    ∀ name ∈ (offerFields serde).map Field.name, hasControl name = false := by
  simp only [offerFields, List.map_cons, List.map_nil]
  decide

/-- The reports about a candidate have no names from the document. -/
theorem quiet_pionCandidate : Quiet (recordReport (pionCandidateFields serde)) := by
  refine Json.quiet_record fun field hfield ↦
    ⟨pionCandidateFields_printable serde field.name (List.mem_map_of_mem hfield), ?_⟩
  simp only [pionCandidateFields, List.mem_cons, List.not_mem_nil, or_false] at hfield
  rcases hfield with rfl | rfl | rfl | rfl | rfl | rfl | rfl | rfl | rfl | rfl | rfl | rfl
  case inr.inr.inr.inr.inr.inl => exact Json.quiet_variant serde.typeOfName
  case inr.inr.inr.inr.inr.inr.inr.inr.inr.inr.inl => exact Json.quiet_optional Json.quiet_text
  case inr.inr.inr.inr.inr.inr.inr.inr.inr.inr.inr =>
    exact Json.quiet_optional (Json.quiet_natural _)
  all_goals first | exact Json.quiet_text | exact Json.quiet_natural _

/-- The reports about an ICE message have no names from the document. -/
theorem quiet_ice : Quiet (recordReport (iceFields serde)) := by
  refine Json.quiet_record fun field hfield ↦
    ⟨iceFields_printable serde field.name (List.mem_map_of_mem hfield), ?_⟩
  simp only [iceFields, List.mem_cons, List.not_mem_nil, or_false] at hfield
  rcases hfield with rfl | rfl
  · exact Json.quiet_list (quiet_pionCandidate serde)
  · exact Json.quiet_text

/-- The reports about an Offer have no names from the document. -/
theorem quiet_offer : Quiet (recordReport (offerFields serde)) := by
  refine Json.quiet_record fun field hfield ↦
    ⟨offerFields_printable serde field.name (List.mem_map_of_mem hfield), ?_⟩
  simp only [offerFields, List.mem_cons, List.not_mem_nil, or_false] at hfield
  rcases hfield with rfl | rfl
  · exact serde.description_quiet
  · exact Json.quiet_text

section Decoding

variable {serde} {Message : Type} {read : Value → Option Message}
  {report : Value → Option Report} {payload : String} {found : Report}

/-- A payload that is refused is not JSON, or something in it is reported. -/
theorem reason_of_decodePayload (hcovers : Covers report read)
    (h : decodePayload serde read report payload = .error found) :
    (Json.parse (utf8 payload) = none ∧ found = serde.malformed payload) ∨
      ∃ value, Json.parse (utf8 payload) = some value ∧ report value = some found := by
  unfold decodePayload at h
  split at h
  case h_1 hparse =>
    cases h
    exact .inl ⟨hparse, rfl⟩
  case h_2 value hparse =>
    split at h
    case h_1 => cases h
    case h_2 hrefused =>
      refine .inr ⟨value, hparse, ?_⟩
      cases hreport : report value with
      | none =>
          obtain ⟨message, hread⟩ := hcovers value hreport
          rw [hread] at hrefused
          cases hrefused
      | some reported =>
          rw [hreport, Option.getD_some] at h
          cases h
          rfl

/-- The report about a payload has no names from it. -/
theorem static_of_decodePayload (hcovers : Covers report read) (hquiet : Quiet report)
    (h : decodePayload serde read report payload = .error found) : found.Static := by
  rcases reason_of_decodePayload hcovers h with ⟨_, rfl⟩ | ⟨value, _, hreport⟩
  · exact serde.malformed_static payload
  · exact hquiet value found hreport

end Decoding

/-- The decoder accepts the ICE messages that the decoder without reports accepts, and reads the
same from them. -/
theorem decodeIcePayload_ok_iff (payload : String) (message : PeerProxy.IceMessage) :
    decodeIcePayload serde payload = .ok message ↔
      decodeIce serde.form payload = .ok message := by
  unfold decodeIcePayload decodePayload decodeIce
  cases Json.parse (utf8 payload) with
  | none => exact ⟨nofun, nofun⟩
  | some value =>
      simp only [Option.bind_some]
      cases readMessage serde.form value with
      | none => exact ⟨nofun, nofun⟩
      | some read => rw [Except.ok.injEq, Except.ok.injEq]

/-! ## An unknown candidate type -/

/-- An unknown variant that is reported about a candidate stands in the candidate. -/
theorem names_of_candidate {value : Value} {variant : String}
    (h : recordReport (pionCandidateFields serde) value = some (.unknownVariant variant)) :
    ∃ typ ∈ value.children, Json.Names variant typ := by
  obtain ⟨field, hfield, child, hchild, hreport⟩ := Json.child_of_unknownVariant h
  simp only [pionCandidateFields, List.mem_cons, List.not_mem_nil, or_false] at hfield
  rcases hfield with rfl | rfl | rfl | rfl | rfl | rfl | rfl | rfl | rfl | rfl | rfl | rfl
  case inr.inr.inr.inr.inr.inl => exact ⟨child, hchild, Json.names_of_unknownVariant hreport⟩
  case inr.inr.inr.inr.inr.inr.inr.inr.inr.inr.inl =>
    exact absurd hreport (Json.optionalReport_ne_unknownVariant
      (Json.textReport_ne_unknownVariant child variant))
  case inr.inr.inr.inr.inr.inr.inr.inr.inr.inr.inr =>
    exact absurd hreport (Json.optionalReport_ne_unknownVariant
      (Json.naturalReport_ne_unknownVariant _ child variant))
  all_goals first
    | exact absurd hreport (Json.textReport_ne_unknownVariant child variant)
    | exact absurd hreport (Json.naturalReport_ne_unknownVariant _ child variant)

/-- An unknown variant that is reported about an ICE message stands in one of its candidates. -/
theorem names_of_ice {value : Value} {variant : String}
    (h : recordReport (iceFields serde) value = some (.unknownVariant variant)) :
    ∃ candidates ∈ value.children, ∃ candidate ∈ candidates.children,
      ∃ typ ∈ candidate.children, Json.Names variant typ := by
  obtain ⟨field, hfield, child, hchild, hreport⟩ := Json.child_of_unknownVariant h
  simp only [iceFields, List.mem_cons, List.not_mem_nil, or_false] at hfield
  rcases hfield with rfl | rfl
  · rcases Json.origin_of_listReport hreport with heq | ⟨candidate, hcandidate, hfound⟩
    · exact absurd heq.symm (Json.unexpected_ne_unknownVariant child variant)
    · exact ⟨child, hchild, candidate, hcandidate, names_of_candidate serde hfound⟩
  · exact absurd hreport (Json.textReport_ne_unknownVariant child variant)

/-- An ICE message whose one candidate begins with its type. -/
def typeFirst (variant : String) : Value :=
  .record [("Candidates", .array [.record [("type", .ofText variant)]])]

/-- The type of a candidate is looked at when it comes, before it is known whether anything is
missing. -/
theorem report_typeFirst {variant : String} (h : serde.typeOfName variant = none) :
    recordReport (iceFields serde) (typeFirst variant) = some (.unknownVariant variant) := by
  have htype : variantReport serde.typeOfName (.ofText variant) =
      some (.unknownVariant variant) := by
    simp [variantReport, Value.ofText, Text.decodeUtf8_utf8, h]
  have hcandidate : recordReport (pionCandidateFields serde) (.record [("type", .ofText variant)]) =
      some (.unknownVariant variant) :=
    Json.recordReport_first ⟨"type", true, variantReport serde.typeOfName⟩ rfl htype []
  have hcandidates : listReport (recordReport (pionCandidateFields serde))
      (.array [.record [("type", .ofText variant)]]) = some (.unknownVariant variant) := by
    rw [listReport, List.findSome?_cons, hcandidate]
  exact Json.recordReport_first ⟨"Candidates", true, _⟩ rfl hcandidates []

/-- A payload with an unknown candidate type is refused, and the type is reported. -/
theorem decodeIcePayload_typeFirst {variant payload : String}
    (h : serde.typeOfName variant = none)
    (hpayload : utf8 payload = (typeFirst variant).print Json.serdeQuote) :
    decodeIcePayload serde payload = .error (.unknownVariant variant) := by
  have hparse : Json.parse (utf8 payload) = some (typeFirst variant) := by
    rw [hpayload]
    exact Json.parse_print Json.inverted_serdeQuote _
  have hrefused : readMessage serde.form (typeFirst variant) = none := by
    rw [typeFirst, readMessage, Json.fields_record _ (by simp)]
    simp [List.lookup_cons]
  rw [decodeIcePayload, decodePayload, hparse]
  simp only [hrefused, report_typeFirst serde h, Option.getD_some]

/-! ## A library that meets the assumptions -/

/-- The name of a description type. -/
def sdpTypeName : SdpType → String
  | .unspecified => "Unspecified"
  | .offer => "offer"
  | .pranswer => "pranswer"
  | .answer => "answer"
  | .rollback => "rollback"

/-- The description type of a name. -/
def sdpTypeOfName (name : String) : Option SdpType :=
  [.unspecified, .offer, .pranswer, .answer, .rollback].find? fun typ ↦ sdpTypeName typ == name

/-- The fields of `RTCSessionDescription`. -/
def descriptionFields : List Field :=
  [⟨"type", true, variantReport sdpTypeOfName⟩, ⟨"sdp", true, textReport⟩]

/-- Read an `RTCSessionDescription`. -/
def readDescription (value : Value) : Option SessionDescription :=
  match value.fields ["type", "sdp"] with
  | some [some typ, some sdp] => do
      let typ ← typ.variant sdpTypeOfName
      let sdp ← sdp.text
      some ⟨typ, sdp⟩
  | _ => none

/-- A description that is refused is reported. -/
theorem covers_description : Covers (recordReport descriptionFields) readDescription := by
  intro value h
  obtain ⟨found, hfound, hpasses⟩ := Json.fields_of_recordReport (by simp [descriptionFields]) h
  rcases hpasses with _ | ⟨ptyp, hpasses⟩
  rcases hpasses with _ | ⟨psdp, hpasses⟩
  cases hpasses
  obtain ⟨_, _, rfl, htyp⟩ := ptyp.read (Json.covers_variant sdpTypeOfName)
  obtain ⟨_, _, rfl, hsdp⟩ := psdp.read Json.covers_text
  simp only [descriptionFields, List.map_cons, List.map_nil] at hfound
  simp only [readDescription, hfound, htyp, hsdp]
  exact ⟨_, rfl⟩

/-- The reports about a description have no names from the document. -/
theorem quiet_description : Quiet (recordReport descriptionFields) := by
  have hnames : ∀ name ∈ descriptionFields.map Field.name, hasControl name = false := by
    simp only [descriptionFields, List.map_cons, List.map_nil]
    decide
  refine Json.quiet_record fun field hfield ↦
    ⟨hnames field.name (List.mem_map_of_mem hfield), ?_⟩
  simp only [descriptionFields, List.mem_cons, List.not_mem_nil, or_false] at hfield
  rcases hfield with rfl | rfl
  · exact Json.quiet_variant sdpTypeOfName
  · exact Json.quiet_text

/-- The texts of reports, without the expectations and positions that follow them. -/
def displayReport : Report → String
  | .unknownVariant variant => "unknown variant `" ++ variant ++ "`"
  | .unexpectedText text => "invalid type: string " ++ Text.debugQuote text
  | .unexpectedValue => "invalid type"
  | .outOfRange => "invalid value"
  | .missingField name => "missing field `" ++ name ++ "`"
  | .duplicateField name => "duplicate field `" ++ name ++ "`"
  | .invalidLength => "invalid length"
  | .malformed => "expected value"

/-- Only an unknown variant can bring a control character into the text of a report. -/
theorem displayReport_printable {report : Report} (hstatic : report.Static)
    (hvariant : ∀ variant, report ≠ .unknownVariant variant) :
    hasControl (displayReport report) = false := by
  cases report with
  | unknownVariant variant => exact absurd rfl (hvariant variant)
  | unexpectedText text =>
      exact Text.hasControl_append_eq_false (by decide +kernel) (Text.hasControl_debugQuote text)
  | missingField name | duplicateField name =>
      have hname : hasControl name = false := hstatic
      exact Text.hasControl_append_eq_false
        (Text.hasControl_append_eq_false (by decide +kernel) hname) (by decide +kernel)
  | unexpectedValue | outOfRange | invalidLength | malformed => decide +kernel

/-- The libraries as far as the model knows them. -/
def Serde.plain : Serde where
  typeName := Wire.typeName
  typeOfName := Wire.typeOfName
  typeOfName_typeName := by
    intro typ
    cases typ <;> rfl
  description := readDescription
  descriptionReport := recordReport descriptionFields
  description_covered := covers_description
  description_quiet := quiet_description
  malformed := fun _ ↦ .malformed
  malformed_static := fun _ ↦ trivial
  display := displayReport
  display_unknownVariant := fun _ ↦ ⟨"unknown variant `", "`", rfl, by decide +kernel, by decide⟩
  display_other := fun _ ↦ displayReport_printable

end Unbounded.Wire
