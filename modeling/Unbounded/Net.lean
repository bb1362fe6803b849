import Mathlib.Data.List.Basic

/-!
# Bytes, socket addresses and header values

The standard types the whole development shares. An IPv4 address is its big-endian 32-bit value
and an IPv6 address its 128-bit value; a socket address carries what `std::net::SocketAddr`
compares, flow information and scope of an IPv6 address included. `isHeaderValue` is the check that
the `http` crate makes of the value of a header.
-/

namespace Unbounded

/-- The contents of a datagram or of a message. -/
abbrev Bytes := List UInt8

/-- `std::net::IpAddr`. -/
inductive IpAddr where
  | v4 (bits : UInt32)
  | v6 (bits : BitVec 128)
  deriving DecidableEq, Repr

/-- `std::net::SocketAddr`. -/
inductive SocketAddr where
  | v4 (bits : UInt32) (port : UInt16)
  | v6 (bits : BitVec 128) (port : UInt16) (flowinfo scopeId : UInt32)
  deriving DecidableEq, Repr

/-- The address without its port. -/
def SocketAddr.ip : SocketAddr → IpAddr
  | .v4 bits _ => .v4 bits
  | .v6 bits _ _ _ => .v6 bits

/-- The port. -/
def SocketAddr.port : SocketAddr → UInt16
  | .v4 _ port => port
  | .v6 _ port _ _ => port

/-- The bytes of an HTTP header value: visible ASCII, spaces, tabs and everything beyond ASCII.
`HeaderValue::from_str` and `HeaderValue::from_bytes` refuse every other value. -/
def isHeaderValue (value : Bytes) : Bool :=
  value.all fun byte ↦ (32 ≤ byte && byte != 127) || byte == 9

end Unbounded
