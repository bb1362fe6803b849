import Unbounded.Net
import Unbounded.Tokio.Mpsc

/-!
# The relay of a peer proxy

`relay` of `src/relay.rs`, for any two transports. It waits for a packet of either side in an
unbiased `select!`, and sends a packet on before it waits again. The branches of the `select!` are
polled one after the other in either order, and the first one that is ready wins, so the other
transport was polled without a result or not at all.
-/

namespace Unbounded.Relay

open Tokio (Poll)

/-- `RelayEnd`. -/
inductive RelayEnd where
  | peerClosed
  | egressClosed
  deriving DecidableEq, Repr

/-- `RelayError`, for the error types of the two transports. -/
inductive RelayError (PeerError EgressError : Type) where
  | peer (source : PeerError)
  | egress (source : EgressError)
  deriving DecidableEq, Repr

variable {PeerError EgressError : Type}

/-- Where a relay is. -/
inductive Control (PeerError EgressError : Type) where
  | selecting
  /-- `egress.send_packet(packet).await`. -/
  | toEgress (packet : Bytes)
  /-- `peer.send_packet(packet).await`. -/
  | toPeer (packet : Bytes)
  | ended (result : Except (RelayError PeerError EgressError) RelayEnd)
  /-- The session was cancelled and dropped the relay. -/
  | dropped
  deriving DecidableEq

/-- `recv_packet` of the peer won. -/
def Control.afterPeer : Except PeerError (Option Bytes) → Control PeerError EgressError
  | .error error => .ended (.error (.peer error))
  | .ok none => .ended (.ok .peerClosed)
  | .ok (some packet) => .toEgress packet

/-- `recv_packet` of the egress won. -/
def Control.afterEgress : Except EgressError (Option Bytes) → Control PeerError EgressError
  | .error error => .ended (.error (.egress error))
  | .ok none => .ended (.ok .egressClosed)
  | .ok (some packet) => .toPeer packet

/-- The pending `send_packet` to the egress returned. -/
def Control.afterEgressSend : Except EgressError Unit → Control PeerError EgressError
  | .ok () => .selecting
  | .error error => .ended (.error (.egress error))

/-- The pending `send_packet` to the peer returned. -/
def Control.afterPeerSend : Except PeerError Unit → Control PeerError EgressError
  | .ok () => .selecting
  | .error error => .ended (.error (.peer error))

/-- The packet that a relay is sending to the egress. -/
def Control.upPacket : Control PeerError EgressError → Option Bytes
  | .toEgress packet => some packet
  | _ => none

/-- The packet that a relay is sending to the peer. -/
def Control.downPacket : Control PeerError EgressError → Option Bytes
  | .toPeer packet => some packet
  | _ => none

section Select

variable {Peer Egress : Type}
  (recvPeer : Peer → Poll (Except PeerError (Option Bytes)) × Peer)
  (recvEgress : Egress → Poll (Except EgressError (Option Bytes)) × Egress)

/-- One poll of the `select!`, which starts with either branch. -/
def select (egressFirst : Bool) (peer : Peer) (egress : Egress) :
    Control PeerError EgressError × Peer × Egress :=
  if egressFirst then
    match recvEgress egress with
    | (.ready result, egress') => (.afterEgress result, peer, egress')
    | (.pending, egress') =>
        match recvPeer peer with
        | (.ready result, peer') => (.afterPeer result, peer', egress')
        | (.pending, peer') => (.selecting, peer', egress')
  else
    match recvPeer peer with
    | (.ready result, peer') => (.afterPeer result, peer', egress)
    | (.pending, peer') =>
        match recvEgress egress with
        | (.ready result, egress') => (.afterEgress result, peer', egress')
        | (.pending, egress') => (.selecting, peer', egress')

variable {recvPeer recvEgress}

/-- Everything a poll of the `select!` can be. -/
inductive Selected (recvPeer : Peer → Poll (Except PeerError (Option Bytes)) × Peer)
    (recvEgress : Egress → Poll (Except EgressError (Option Bytes)) × Egress) (peer : Peer)
    (egress : Egress) : Control PeerError EgressError → Peer → Egress → Prop where
  | fromPeer {result peer' egress'} (hpeer : recvPeer peer = (.ready result, peer'))
      (hegress : egress' = egress ∨ recvEgress egress = (.pending, egress')) :
      Selected recvPeer recvEgress peer egress (.afterPeer result) peer' egress'
  | fromEgress {result peer' egress'} (hegress : recvEgress egress = (.ready result, egress'))
      (hpeer : peer' = peer ∨ recvPeer peer = (.pending, peer')) :
      Selected recvPeer recvEgress peer egress (.afterEgress result) peer' egress'
  | neither {peer' egress'} (hpeer : recvPeer peer = (.pending, peer'))
      (hegress : recvEgress egress = (.pending, egress')) :
      Selected recvPeer recvEgress peer egress .selecting peer' egress'

/-- Every poll of the `select!` is a `Selected`. -/
theorem selected_of_select {egressFirst : Bool} {peer peer' : Peer} {egress egress' : Egress}
    {control : Control PeerError EgressError}
    (h : select recvPeer recvEgress egressFirst peer egress = (control, peer', egress')) :
    Selected recvPeer recvEgress peer egress control peer' egress' := by
  unfold select at h
  cases egressFirst with
  | true =>
      simp only [if_true] at h
      split at h
      case h_1 result polled hegress =>
        simp only [Prod.mk.injEq] at h
        obtain ⟨rfl, rfl, rfl⟩ := h
        exact .fromEgress hegress (.inl rfl)
      case h_2 polled hegress =>
        split at h
        case h_1 result taken hpeer =>
          simp only [Prod.mk.injEq] at h
          obtain ⟨rfl, rfl, rfl⟩ := h
          exact .fromPeer hpeer (.inr hegress)
        case h_2 taken hpeer =>
          simp only [Prod.mk.injEq] at h
          obtain ⟨rfl, rfl, rfl⟩ := h
          exact .neither hpeer hegress
  | false =>
      simp only [Bool.false_eq_true, if_false] at h
      split at h
      case h_1 result taken hpeer =>
        simp only [Prod.mk.injEq] at h
        obtain ⟨rfl, rfl, rfl⟩ := h
        exact .fromPeer hpeer (.inl rfl)
      case h_2 taken hpeer =>
        split at h
        case h_1 result polled hegress =>
          simp only [Prod.mk.injEq] at h
          obtain ⟨rfl, rfl, rfl⟩ := h
          exact .fromEgress hegress (.inr hpeer)
        case h_2 polled hegress =>
          simp only [Prod.mk.injEq] at h
          obtain ⟨rfl, rfl, rfl⟩ := h
          exact .neither hpeer hegress

end Select

end Unbounded.Relay
