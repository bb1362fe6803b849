import Unbounded.Protocol

/-!
# The signaling interface

What a call of `Signaler::exchange` or `AdvertisementSource::next` can return.
-/

namespace Unbounded.Signaling

/-- `SignalingError`. The errors of the URL parser, the HTTP client and the JSON decoder are kept as
text. -/
inductive SignalingError where
  | invalidEndpoint (source : String)
  | nativeTransport (source : String)
  | transport (message : String)
  | protocolVersion (version : String)
  | recipientGone
  | http (status : UInt16)
  | decode (source : String)
  deriving DecidableEq, Repr

/-- The result of an exchange: an error, a reply, or no reply before the server gave up. -/
abbrev Reply := Except SignalingError (Option SignalMessage)

end Unbounded.Signaling
