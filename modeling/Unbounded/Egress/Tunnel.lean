import Unbounded.Net
import Unbounded.Tokio.Mpsc

/-!
# The WebSocket tunnel to the egress

`EgressTunnel` of `src/egress.rs` on its receiving side. What the WebSocket stream yields is a list
of items, oldest first, and `recv` goes over them until it has a result. Control frames are skipped,
also by a call that is dropped before it returns.
-/

namespace Unbounded.Egress

open Tokio (Poll)

/-- `EgressError`. The errors of the WebSocket library are kept as text. -/
inductive EgressError where
  | request (source : String)
  | header (source : String)
  | webSocket (source : String)
  | connectTimeout
  | missingSubprotocol
  | unexpectedSubprotocol (selected : String)
  | invalidConsumerSessionId (csid : String)
  | textMessage
  deriving DecidableEq, Repr

/-- The messages of a WebSocket. The contents of all but binary messages are not read. -/
inductive Message where
  | text
  | binary (packet : Bytes)
  | ping
  | pong
  | close
  | frame
  deriving DecidableEq, Repr

/-- What the WebSocket stream yields. -/
inductive Item where
  | message (message : Message)
  | failed (source : String)
  | finished
  deriving DecidableEq, Repr

/-- The packet of a binary message. -/
def Item.binary? : Item → Option Bytes
  | .message (.binary packet) => some packet
  | _ => none

/-- What the WebSocket stream of a tunnel has yet to yield, as far as it has arrived. -/
structure EgressTunnel where
  inbound : List Item

namespace EgressTunnel

/-- A poll of the loop of `recv` over the items that have arrived. -/
def recvLoop : List Item → Poll (Except EgressError (Option Bytes)) × List Item
  | [] => (.pending, [])
  | .finished :: rest => (.ready (.ok none), rest)
  | .failed source :: rest => (.ready (.error (.webSocket source)), rest)
  | .message (.binary packet) :: rest => (.ready (.ok (some packet)), rest)
  | .message .ping :: rest => recvLoop rest
  | .message .pong :: rest => recvLoop rest
  | .message .close :: rest => (.ready (.ok none), rest)
  | .message .text :: rest => (.ready (.error .textMessage), rest)
  | .message .frame :: rest => recvLoop rest

/-- A poll of `recv`. -/
def recv (tunnel : EgressTunnel) : Poll (Except EgressError (Option Bytes)) × EgressTunnel :=
  ((recvLoop tunnel.inbound).1, ⟨(recvLoop tunnel.inbound).2⟩)

/-- The packets of the binary messages that have arrived, oldest first. -/
def binaries (tunnel : EgressTunnel) : List Bytes :=
  tunnel.inbound.filterMap Item.binary?

/-- The loop takes the oldest binary message, or none. -/
theorem recvLoop_binaries (items : List Item) :
    (∃ packet, (recvLoop items).1 = .ready (.ok (some packet)) ∧
      items.filterMap Item.binary? = packet :: (recvLoop items).2.filterMap Item.binary?) ∨
    ((∀ packet, (recvLoop items).1 ≠ .ready (.ok (some packet))) ∧
      (recvLoop items).2.filterMap Item.binary? = items.filterMap Item.binary?) := by
  induction items with
  | nil => exact .inr ⟨by simp [recvLoop], rfl⟩
  | cons item rest ih =>
      cases item with
      | finished => exact .inr ⟨by simp [recvLoop], rfl⟩
      | failed source => exact .inr ⟨by simp [recvLoop], rfl⟩
      | message message =>
          cases message with
          | text => exact .inr ⟨by simp [recvLoop], rfl⟩
          | binary packet => exact .inl ⟨packet, rfl, rfl⟩
          | ping => exact ih
          | pong => exact ih
          | close => exact .inr ⟨by simp [recvLoop], rfl⟩
          | frame => exact ih

/-- `recv` takes the oldest binary message, or none. -/
theorem recv_binaries (tunnel : EgressTunnel) :
    (∃ packet, tunnel.recv.1 = .ready (.ok (some packet)) ∧
      tunnel.binaries = packet :: tunnel.recv.2.binaries) ∨
    ((∀ packet, tunnel.recv.1 ≠ .ready (.ok (some packet))) ∧
      tunnel.recv.2.binaries = tunnel.binaries) :=
  recvLoop_binaries tunnel.inbound

end EgressTunnel

end Unbounded.Egress
