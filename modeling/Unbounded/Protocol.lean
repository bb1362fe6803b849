import Unbounded.Net

/-!
# Messages of the wire protocol

The data of `src/protocol.rs`: the packet envelope, the signaling envelope with its message kinds,
the check of a consumer session identifier, and the subprotocols that carry it to the egress.
-/

namespace Unbounded

/-- A packet from the egress toward the consumer, with the identity of the egress path. -/
structure UnboundedPacket where
  sourceAddr : String
  payload : Bytes
  deriving DecidableEq, Repr

/-- The kinds of signaling messages, in the order of their numeric values. -/
inductive SignalMessageType where
  | genesis
  | offer
  | answer
  | ice
  deriving DecidableEq, Repr

/-- The signaling envelope. -/
structure SignalMessage where
  replyTo : String
  kind : SignalMessageType
  payload : String
  deriving DecidableEq, Repr

/-- `u8::is_ascii_graphic`: the bytes `!` to `~`. -/
def isAsciiGraphic (byte : UInt8) : Bool :=
  33 ≤ byte && byte ≤ 126

/-- `is_subprotocol_token`: not empty, and every byte is visible ASCII and not a comma. -/
def isSubprotocolToken (value : String) : Bool :=
  !value.isEmpty && value.toUTF8.data.toList.all fun byte ↦ isAsciiGraphic byte && byte != 44

/-- `PROTOCOL_VERSION`. -/
def protocolVersion : String := "v2.3.0"

/-- `SUBPROTOCOL_MAGIC_COOKIE`. -/
def subprotocolMagicCookie : String := "un80und3d"

/-- `egress_subprotocols`. -/
def egressSubprotocols (csid version : String) : List String :=
  [subprotocolMagicCookie, csid, version]

/-- `parse_egress_subprotocols`: of exactly three values, the second and the third. -/
def parseEgressSubprotocols : List String → Option (String × String)
  | [_, csid, version] => some (csid, version)
  | _ => none

example : isSubprotocolToken "a1B2/c3+d4=" = true := by decide

example : isSubprotocolToken "csid, injected" = false := by decide

end Unbounded
