import Unbounded.Json.Record
import Unbounded.Protocol
import Unbounded.Text.Base64

/-!
# The packet envelope

The JSON form of `UnboundedPacket` in `src/protocol.rs`, as `serde_json` writes and reads it and as
the Go egress writes it. The payload is a string in standard padded base64. Both writers put the
same two fields in the same order and differ only in what they escape in strings.
-/

namespace Unbounded

open Json (Value Inverted inverted_serdeQuote inverted_goQuote serdeQuote goQuote
  fields_record parse_print)
open Text (utf8 ofAscii utf8_ofAscii)

/-- The fields of the envelope. -/
def UnboundedPacket.toValue (packet : UnboundedPacket) : Value :=
  .record [("SourceAddr", .ofText packet.sourceAddr),
    ("Payload", .ofText (ofAscii (Text.Base64.encode packet.payload)))]

/-- Read the envelope. -/
def UnboundedPacket.ofValue (value : Value) : Option UnboundedPacket :=
  match value.fields ["SourceAddr", "Payload"] with
  | some [some source, some payload] => do
      let sourceAddr ← source.text
      let encoded ← payload.text
      let payload ← Text.Base64.decode (utf8 encoded)
      some ⟨sourceAddr, payload⟩
  | _ => none

/-- `serde_json::to_vec` of a packet. -/
def encodePacket (packet : UnboundedPacket) : Bytes :=
  packet.toValue.print serdeQuote

/-- The text that Go's `encoding/json` writes for a packet, with or without the short escapes of the
backspace and the form feed. -/
def goEncodePacket (shortControls : Bool) (packet : UnboundedPacket) : Bytes :=
  packet.toValue.print (goQuote shortControls)

/-- `serde_json::from_slice` of a packet. The text of an error is not modelled. -/
def decodePacket (text : Bytes) : Except String UnboundedPacket :=
  match (Json.parse text).bind UnboundedPacket.ofValue with
  | some packet => .ok packet
  | none => .error "invalid packet"

/-- A packet is read back from its fields. -/
theorem UnboundedPacket.ofValue_toValue (packet : UnboundedPacket) :
    ofValue packet.toValue = some packet := by
  have hfields := fields_record [("SourceAddr", .ofText packet.sourceAddr),
    ("Payload", .ofText (ofAscii (Text.Base64.encode packet.payload)))] (by simp)
    ["SourceAddr", "Payload"]
  rw [ofValue, toValue, hfields]
  simp [List.lookup_cons, Value.text_ofText, utf8_ofAscii (Text.Base64.encode_ascii packet.payload),
    Text.Base64.decode_encode]

/-- The reader inverts every writer of packets whose strings it inverts. -/
theorem decodePacket_print {quote : Bytes → Bytes} (h : Inverted quote)
    (packet : UnboundedPacket) : decodePacket (packet.toValue.print quote) = .ok packet := by
  rw [decodePacket, parse_print h, Option.bind_some, UnboundedPacket.ofValue_toValue]

/-- A packet is read back from the text that Rust writes for it and from the text that Go writes for
it, and different packets have different texts. -/
theorem packet_round_trip :
    (∀ packet, decodePacket (encodePacket packet) = .ok packet) ∧
    Function.Injective encodePacket ∧
    (∀ shortControls packet, decodePacket (goEncodePacket shortControls packet) = .ok packet) := by
  refine ⟨decodePacket_print inverted_serdeQuote, fun packet other h ↦ ?_,
    fun shortControls ↦ decodePacket_print (inverted_goQuote shortControls)⟩
  have hdecoded := congrArg decodePacket h
  rw [encodePacket, encodePacket, decodePacket_print inverted_serdeQuote,
    decodePacket_print inverted_serdeQuote] at hdecoded
  exact Except.ok.inj hdecoded

example : encodePacket ⟨"WebSocket connection test", [0, 1, 2, 255]⟩ =
    utf8 "\x7b\"SourceAddr\":\"WebSocket connection test\",\"Payload\":\"AAEC/w==\"\x7d" := by
  decide +kernel

end Unbounded
