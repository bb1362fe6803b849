import Unbounded.Protocol
import Unbounded.VirtualUdp.Socket

/-!
# One consumer path

The loop of `run_consumer_path` in `src/consumer_path.rs`, without the socket it runs on. A path is
polled at its `select!`, where the branches are tried in the order of the source: cancellation,
then a packet from the peer, then a datagram for the peer. While a datagram is being sent to the
peer the loop waits for that send alone. Every exit goes through `leaving`, since returning drops
the `VirtualPath` and the `Arc` that the function holds.
-/

namespace Unbounded.ConsumerPath

open Tokio (Poll)
open VirtualUdp (PathReceiveError)

/-- `ConsumerPathEnd`. -/
inductive PathEnd where
  | peerClosed
  | socketClosed
  | cancelled
  deriving DecidableEq, Repr

/-- `ConsumerPathError`. The errors of the transport and of the JSON decoder are kept as text. -/
inductive PathError where
  | transport (source : String)
  | decode (source : String)
  | sourceChanged (expected actual : String)
  | emptySource
  | receive (error : PathReceiveError)
  | addressSpaceExhausted
  deriving DecidableEq, Repr

/-- What `run_consumer_path` returns. -/
abbrev PathResult := Except PathError PathEnd

/-- Decode a packet of the peer and check its source identity against the pinned one. -/
def inspect (decode : Bytes → Except String UnboundedPacket) (source : Option String)
    (raw : Bytes) : Except PathError UnboundedPacket :=
  match decode raw with
  | .error error => .error (.decode error)
  | .ok packet =>
      if packet.sourceAddr.isEmpty then .error .emptySource
      else match source with
        | some expected =>
            if expected ≠ packet.sourceAddr then
              .error (.sourceChanged expected packet.sourceAddr)
            else .ok packet
        | none => .ok packet

/-- Where a path is. `leaving none` is a future that its owner dropped. -/
inductive Control where
  | selecting (source : Option String)
  | sending (source : Option String) (packet : Bytes)
  | leaving (result : Option PathResult)
  | left (result : Option PathResult)
  deriving DecidableEq

/-- The loop goes on after `try_receive`, or the function returns. A full queue is packet loss. -/
def Control.afterReceive (source : String) : Except PathReceiveError Unit → Control
  | .ok () => .selecting (some source)
  | .error .queueFull => .selecting (some source)
  | .error .closed => .leaving (some (.ok .socketClosed))
  | .error (.oversize actual mtu) => .leaving (some (.error (.receive (.oversize actual mtu))))

/-- The loop after `next_outgoing` was polled. -/
def Control.afterOutgoing (source : Option String) : Poll (Option Bytes) → Control
  | .pending => .selecting source
  | .ready none => .leaving (some (.ok .socketClosed))
  | .ready (some packet) => .sending source packet

/-- The loop after `send_packet`. -/
def Control.afterSend (source : Option String) : Except String Unit → Control
  | .ok () => .selecting source
  | .error error => .leaving (some (.error (.transport error)))

end Unbounded.ConsumerPath
