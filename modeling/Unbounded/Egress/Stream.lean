import Unbounded.Egress.Tunnel
import Unbounded.Relay.Transport

/-!
# The tunnel as a transport of the relay

`EgressTunnel::recv` reports the binary messages of its WebSocket in order, up to the first item
that ends the tunnel (`report`, `binariesBefore`). A receive that is dropped loses nothing, so the
tunnel is a transport that a relay can be run on. `relay_conserves` has both halves: what holds of a
relay between any two transports, and that the tunnel is one.
-/

namespace Unbounded.Egress

open Tokio (Poll)
open Relay (Transport)

/-- What `recv` reports of an item. -/
def Item.report : Item → Option (Except EgressError (Option Bytes))
  | .finished => some (.ok none)
  | .failed source => some (.error (.webSocket source))
  | .message (.binary packet) => some (.ok (some packet))
  | .message .close => some (.ok none)
  | .message .text => some (.error .textMessage)
  | .message .ping | .message .pong | .message .frame => none

/-- The item ends the tunnel: a Close or Text message, an error, or the end of the stream. -/
def Item.ends : Item → Bool
  | .finished | .failed _ | .message .close | .message .text => true
  | _ => false

namespace EgressTunnel

/-- A poll without a result has read everything, and nothing of it was to be reported. -/
theorem recvLoop_pending {items rest : List Item} (h : recvLoop items = (.pending, rest)) :
    rest = [] ∧ items.filterMap Item.report = [] := by
  induction items with
  | nil =>
      simp only [recvLoop, Prod.mk.injEq, true_and] at h
      exact ⟨h.symm, rfl⟩
  | cons item items ih =>
      cases item with
      | finished => simp [recvLoop] at h
      | failed source => simp [recvLoop] at h
      | message message =>
          cases message with
          | ping => exact ih h
          | pong => exact ih h
          | frame => exact ih h
          | _ => simp [recvLoop] at h

/-- A poll with a result has taken the first item that is to be reported. -/
theorem recvLoop_ready {items rest : List Item} {result : Except EgressError (Option Bytes)}
    (h : recvLoop items = (.ready result, rest)) :
    items.filterMap Item.report = result :: rest.filterMap Item.report := by
  induction items with
  | nil => simp [recvLoop] at h
  | cons item items ih =>
      cases item with
      | finished =>
          simp only [recvLoop, Prod.mk.injEq, Poll.ready.injEq] at h
          obtain ⟨rfl, rfl⟩ := h
          rfl
      | failed source =>
          simp only [recvLoop, Prod.mk.injEq, Poll.ready.injEq] at h
          obtain ⟨rfl, rfl⟩ := h
          rfl
      | message message =>
          cases message with
          | ping => exact ih h
          | pong => exact ih h
          | frame => exact ih h
          | _ =>
              simp only [recvLoop, Prod.mk.injEq, Poll.ready.injEq] at h
              obtain ⟨rfl, rfl⟩ := h
              rfl

/-- The tunnel as a transport. -/
def transport : Transport EgressTunnel EgressError Item where
  recv := recv
  arrive tunnel item := ⟨tunnel.inbound ++ [item]⟩
  report := Item.report
  unread tunnel := tunnel.inbound.filterMap Item.report
  unread_arrive tunnel item := by
    cases hreport : item.report <;> simp [hreport]
  unread_pending h := by
    simp only [recv, Prod.mk.injEq] at h
    obtain ⟨hrest, hreport⟩ := recvLoop_pending (Prod.ext h.1 rfl)
    rw [← h.2, hreport]
    exact congrArg (List.filterMap Item.report) hrest
  unread_ready h := by
    simp only [recv, Prod.mk.injEq] at h
    rw [← h.2]
    exact recvLoop_ready (Prod.ext h.1 rfl)

/-- The binary messages before the first item that ends the tunnel. -/
def binariesBefore (items : List Item) : List Bytes :=
  (items.takeWhile fun item ↦ !item.ends).filterMap Item.binary?

/-- Of the items of a stream, the binary messages before the first one that ends the tunnel are
reported, and then that one. -/
theorem filterMap_report (items : List Item) :
    items.filterMap Item.report = (binariesBefore items).map (fun packet ↦ .ok (some packet)) ++
      (items.dropWhile fun item ↦ !item.ends).filterMap Item.report := by
  induction items with
  | nil => rfl
  | cons item items ih =>
      cases item with
      | finished => rfl
      | failed source => rfl
      | message message =>
          cases message with
          | text => rfl
          | close => rfl
          | binary packet => exact congrArg (Except.ok (some packet) :: ·) ih
          | ping => exact ih
          | pong => exact ih
          | frame => exact ih

end EgressTunnel

open Relay Relay.Relaying in
/-- For a relay between any two transports that lose nothing when a receive is dropped, whatever
arrives at them, however the `select!` chooses and however sends end: what was taken from a side is
what has arrived there up to now but for what is unread, and its packets are those that were sent to
the other side followed by one in flight at most. There is at most one packet in flight in both
directions together. The relay returns that a side closed exactly when that side has reported its
end, and then no packet is in flight, and it returns an error of a side exactly when a receive or a
send on that side has failed.

The tunnel to the egress is such a transport: whatever control frames arrive and whichever receives
are dropped, its results are the binary messages in order up to the first item that ends it, and a
receive is pending only if nothing is left to report. -/
theorem relay_conserves :
    (∀ {Peer Egress PeerError EgressError PeerArrival EgressArrival : Type}
      (peers : Transport Peer PeerError PeerArrival)
      (egresses : Transport Egress EgressError EgressArrival) {peer : Peer} {egress : Egress}
      {log : Log PeerError EgressError PeerArrival EgressArrival}
      {relaying : Relaying Peer Egress PeerError EgressError},
      peers.unread peer = [] → egresses.unread egress = [] →
      Execution.Exec (next peers egresses) ⟨.selecting, peer, egress⟩ log relaying →
      ∃ (fromPeer : List (Except PeerError (Option Bytes)))
        (fromEgress : List (Except EgressError (Option Bytes))) (up down : Option Bytes),
        peerArrivals peers log = fromPeer ++ peers.unread relaying.peer ∧
        egressArrivals egresses log = fromEgress ++ egresses.unread relaying.egress ∧
        fromPeer.filterMap packet? = sentToEgress log ++ up.toList ∧
        fromEgress.filterMap packet? = sentToPeer log ++ down.toList ∧
        (up = none ∨ down = none) ∧
        (relaying.control = .ended (.ok .peerClosed) ↔ .ok none ∈ fromPeer) ∧
        (relaying.control = .ended (.ok .egressClosed) ↔ .ok none ∈ fromEgress) ∧
        (∀ ending, relaying.control = .ended (.ok ending) → up = none ∧ down = none) ∧
        (∀ error, relaying.control = .ended (.error (.peer error)) ↔
          .error error ∈ fromPeer ∨ .peerSent (.error error) ∈ log.map Prod.fst) ∧
        (∀ error, relaying.control = .ended (.error (.egress error)) ↔
          .error error ∈ fromEgress ∨ .egressSent (.error error) ∈ log.map Prod.fst)) ∧
    ∀ {log tunnel}, Execution.Exec EgressTunnel.transport.next ⟨[]⟩ log tunnel →
      Transport.received log ++ EgressTunnel.transport.unread tunnel =
        (EgressTunnel.binariesBefore (Transport.arrived log)).map
            (fun packet ↦ .ok (some packet)) ++
          ((Transport.arrived log).dropWhile fun item ↦ !item.ends).filterMap Item.report ∧
      (tunnel.recv.1 = .pending → EgressTunnel.transport.unread tunnel = []) := by
  refine ⟨fun peers egresses peer egress log relaying hpeer hegress hexec ↦ ?_,
    fun {log tunnel} hexec ↦ ⟨?_, fun hpending ↦ ?_⟩⟩
  · obtain ⟨fromPeer, fromEgress, up, down, h⟩ := Exec.conserves hpeer hegress hexec
    refine ⟨fromPeer, fromEgress, up, down, h.peer, h.egress, h.upward, h.downward, h.single, ?_,
      ?_, h.closed, fun error ↦ ?_, fun error ↦ ?_⟩
    · rw [h.ended_iff, peerClosed_mem_endings]
    · rw [h.ended_iff, egressClosed_mem_endings]
    · rw [h.ended_iff, peerError_mem_endings]
    · rw [h.ended_iff, egressError_mem_endings]
  · rw [← EgressTunnel.filterMap_report]
    exact EgressTunnel.transport.received_append_unread rfl hexec
  · exact (EgressTunnel.recvLoop_pending (Prod.ext hpending rfl)).2

open Relay Relay.Relaying in
/-- A relay between two tunnels: a packet passes from one to the other among control frames, while
the other side reports its end before a second packet is taken. -/
theorem relay_conserves_of_closing_tunnel : ∃ log relaying,
    Execution.Exec (next EgressTunnel.transport EgressTunnel.transport)
      ⟨.selecting, ⟨[]⟩, ⟨[]⟩⟩ log relaying ∧
    relaying.control = .ended (.ok .egressClosed) ∧ sentToEgress log = [[1]] ∧
    ∃ (fromPeer : List (Except EgressError (Option Bytes))) (up : Option Bytes),
      peerArrivals EgressTunnel.transport log =
        fromPeer ++ EgressTunnel.transport.unread relaying.peer ∧
      fromPeer.filterMap packet? = sentToEgress log ++ up.toList ∧ up = none := by
  have hrun : Execution.run (next EgressTunnel.transport EgressTunnel.transport)
      [.peerArrives (.message .ping), .poll true, .peerArrives (.message (.binary [1])),
        .peerArrives (.message (.binary [2])), .poll true, .egressSent (.ok ()),
        .egressArrives (.message .close), .poll true]
      ([], ⟨.selecting, ⟨[]⟩, ⟨[]⟩⟩) = some (_, _) := rfl
  have hexec := Execution.exec_of_run hrun
  obtain ⟨fromPeer, _, up, _, hpeer, _, hup, _, _, _, _, hclosed, _⟩ :=
    relay_conserves.1 EgressTunnel.transport EgressTunnel.transport rfl rfl hexec
  exact ⟨_, _, hexec, rfl, rfl, fromPeer, up, hpeer, hup, (hclosed _ rfl).1⟩

end Unbounded.Egress
