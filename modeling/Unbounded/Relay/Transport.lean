import Unbounded.Execution.Machine
import Unbounded.Relay.Relay

/-!
# A relay between two transports

The relay of `src/relay.rs` over any two transports that lose no packet when a receive is dropped:
what a transport has yet to report is not changed by a poll without a result, and a poll with a
result takes it from the front (`Transport`). What arrives at the two transports, the order in which
the `select!` polls its branches and the outcomes of the sends are inputs.

`Conserves` relates the relay to what has arrived. Everything that was taken from one side was sent
to the other, except for one packet at most, and a result of the relay is the one ending that one of
the sides has reported (`endings`).
-/

namespace Unbounded.Relay

open Execution (Next)
open Tokio (Poll)

/-- A `DatagramTransport` on its receiving side. An arrival is reported by `recv_packet`, or is
skipped. -/
structure Transport (State Error Arrival : Type) where
  recv : State → Poll (Except Error (Option Bytes)) × State
  arrive : State → Arrival → State
  report : Arrival → Option (Except Error (Option Bytes))
  /-- What `recv_packet` has yet to report, oldest first. -/
  unread : State → List (Except Error (Option Bytes))
  unread_arrive : ∀ state arrival,
    unread (arrive state arrival) = unread state ++ (report arrival).toList
  /-- A receive that is dropped before it has a result loses nothing. -/
  unread_pending : ∀ {state polled}, recv state = (.pending, polled) →
    unread polled = unread state
  unread_ready : ∀ {state polled result}, recv state = (.ready result, polled) →
    unread state = result :: unread polled

namespace Transport

variable {State Error Arrival : Type}

/-- One step of a transport that is polled for packets: an arrival, or a poll of a `recv_packet`
which is dropped if it has no result. -/
def next (transport : Transport State Error Arrival) :
    Next State (Option Arrival) (Option (Except Error (Option Bytes)))
  | state, some arrival => some (none, transport.arrive state arrival)
  | state, none =>
      match transport.recv state with
      | (.pending, polled) => some (none, polled)
      | (.ready result, polled) => some (some result, polled)

/-- What has arrived, oldest first. -/
def arrived (log : Execution.Log (Option Arrival) (Option (Except Error (Option Bytes)))) :
    List Arrival :=
  (log.filterMap Prod.fst).reverse

/-- The results of the polls, oldest first. -/
def received (log : Execution.Log (Option Arrival) (Option (Except Error (Option Bytes)))) :
    List (Except Error (Option Bytes)) :=
  (log.filterMap Prod.snd).reverse

/-- The polls report what has arrived in order, whichever of them were dropped. -/
theorem received_append_unread (transport : Transport State Error Arrival) {start state : State}
    {log : Execution.Log (Option Arrival) (Option (Except Error (Option Bytes)))}
    (hstart : transport.unread start = []) (h : Execution.Exec transport.next start log state) :
    received log ++ transport.unread state = (arrived log).filterMap transport.report := by
  induction h with
  | refl => exact hstart
  | @snoc log state following input output _ hnext ih =>
      cases input with
      | some arrival =>
          simp only [next, Option.some.injEq, Prod.mk.injEq] at hnext
          obtain ⟨rfl, rfl⟩ := hnext
          have harrived : arrived ((some arrival, none) :: log) = arrived log ++ [arrival] := by
            simp [arrived]
          rw [harrived, List.filterMap_append, ← ih, transport.unread_arrive, List.append_assoc]
          cases hreport : transport.report arrival <;> simp [received, hreport]
      | none =>
          simp only [next] at hnext
          split at hnext
          case h_1 polled hpending =>
            simp only [Option.some.injEq, Prod.mk.injEq] at hnext
            obtain ⟨rfl, rfl⟩ := hnext
            rw [transport.unread_pending hpending]
            exact ih
          case h_2 result polled hready =>
            simp only [Option.some.injEq, Prod.mk.injEq] at hnext
            obtain ⟨rfl, rfl⟩ := hnext
            rw [transport.unread_ready hready] at ih
            simpa [received, arrived] using ih

end Transport

variable {Peer Egress PeerError EgressError PeerArrival EgressArrival : Type}

/-- A relay with its two transports. -/
structure Relaying (Peer Egress PeerError EgressError : Type) where
  control : Control PeerError EgressError
  peer : Peer
  egress : Egress

/-- What can happen to a relay. -/
inductive Op (PeerError EgressError PeerArrival EgressArrival : Type) where
  | peerArrives (arrival : PeerArrival)
  | egressArrives (arrival : EgressArrival)
  /-- The `select!` is polled. -/
  | poll (egressFirst : Bool)
  /-- The pending `send_packet` returns. -/
  | egressSent (result : Except EgressError Unit)
  | peerSent (result : Except PeerError Unit)
  /-- The session drops the relay. -/
  | drop

/-- The packets that a step has sent. -/
structure Out where
  toEgress : Option Bytes
  toPeer : Option Bytes

namespace Relaying

variable (peers : Transport Peer PeerError PeerArrival)
  (egresses : Transport Egress EgressError EgressArrival)

/-- One step of a relay. -/
def next : Next (Relaying Peer Egress PeerError EgressError)
    (Op PeerError EgressError PeerArrival EgressArrival) Out
  | ⟨control, peer, egress⟩, .peerArrives arrival =>
      some (⟨none, none⟩, ⟨control, peers.arrive peer arrival, egress⟩)
  | ⟨control, peer, egress⟩, .egressArrives arrival =>
      some (⟨none, none⟩, ⟨control, peer, egresses.arrive egress arrival⟩)
  | ⟨.selecting, peer, egress⟩, .poll egressFirst =>
      let (control, peer, egress) := select peers.recv egresses.recv egressFirst peer egress
      some (⟨none, none⟩, ⟨control, peer, egress⟩)
  | ⟨.toEgress packet, peer, egress⟩, .egressSent result =>
      some (⟨if result.isOk then some packet else none, none⟩,
        ⟨.afterEgressSend result, peer, egress⟩)
  | ⟨.toPeer packet, peer, egress⟩, .peerSent result =>
      some (⟨none, if result.isOk then some packet else none⟩,
        ⟨.afterPeerSend result, peer, egress⟩)
  | ⟨.selecting, peer, egress⟩, .drop => some (⟨none, none⟩, ⟨.dropped, peer, egress⟩)
  | ⟨.toEgress _, peer, egress⟩, .drop => some (⟨none, none⟩, ⟨.dropped, peer, egress⟩)
  | ⟨.toPeer _, peer, egress⟩, .drop => some (⟨none, none⟩, ⟨.dropped, peer, egress⟩)
  | _, _ => none

/-- A log of a relay. -/
abbrev Log (PeerError EgressError PeerArrival EgressArrival : Type) :=
  Execution.Log (Op PeerError EgressError PeerArrival EgressArrival) Out

variable {peers egresses} {log : Log PeerError EgressError PeerArrival EgressArrival}

/-- The packets that were sent to the egress, oldest first. -/
def sentToEgress (log : Log PeerError EgressError PeerArrival EgressArrival) : List Bytes :=
  (log.filterMap fun entry ↦ entry.2.toEgress).reverse

/-- The packets that were sent to the peer, oldest first. -/
def sentToPeer (log : Log PeerError EgressError PeerArrival EgressArrival) : List Bytes :=
  (log.filterMap fun entry ↦ entry.2.toPeer).reverse

/-- What the peer has to report of a step. -/
def peerReport (peers : Transport Peer PeerError PeerArrival) :
    Op PeerError EgressError PeerArrival EgressArrival → Option (Except PeerError (Option Bytes))
  | .peerArrives arrival => peers.report arrival
  | _ => none

/-- What the egress has to report of a step. -/
def egressReport (egresses : Transport Egress EgressError EgressArrival) :
    Op PeerError EgressError PeerArrival EgressArrival → Option (Except EgressError (Option Bytes))
  | .egressArrives arrival => egresses.report arrival
  | _ => none

/-- Everything that has arrived at the peer, oldest first. -/
def peerArrivals (peers : Transport Peer PeerError PeerArrival)
    (log : Log PeerError EgressError PeerArrival EgressArrival) :
    List (Except PeerError (Option Bytes)) :=
  (log.filterMap fun entry ↦ peerReport peers entry.1).reverse

/-- Everything that has arrived at the egress, oldest first. -/
def egressArrivals (egresses : Transport Egress EgressError EgressArrival)
    (log : Log PeerError EgressError PeerArrival EgressArrival) :
    List (Except EgressError (Option Bytes)) :=
  (log.filterMap fun entry ↦ egressReport egresses entry.1).reverse

/-- The packet of a result of `recv_packet`. -/
def packet? {Error : Type} : Except Error (Option Bytes) → Option Bytes
  | .ok packet => packet
  | .error _ => none

/-- What a result of the peer's `recv_packet` ends the relay with. -/
def peerEnding :
    Except PeerError (Option Bytes) → Option (Except (RelayError PeerError EgressError) RelayEnd)
  | .ok (some _) => none
  | .ok none => some (.ok .peerClosed)
  | .error error => some (.error (.peer error))

/-- What a result of the egress's `recv_packet` ends the relay with. -/
def egressEnding :
    Except EgressError (Option Bytes) → Option (Except (RelayError PeerError EgressError) RelayEnd)
  | .ok (some _) => none
  | .ok none => some (.ok .egressClosed)
  | .error error => some (.error (.egress error))

/-- What a failed send ends the relay with. -/
def sendEnding : Op PeerError EgressError PeerArrival EgressArrival →
    Option (Except (RelayError PeerError EgressError) RelayEnd)
  | .egressSent (.error error) => some (.error (.egress error))
  | .peerSent (.error error) => some (.error (.peer error))
  | _ => none

/-- Every reason to end that the two sides have given. -/
def endings (fromPeer : List (Except PeerError (Option Bytes)))
    (fromEgress : List (Except EgressError (Option Bytes)))
    (log : Log PeerError EgressError PeerArrival EgressArrival) :
    List (Except (RelayError PeerError EgressError) RelayEnd) :=
  fromPeer.filterMap peerEnding ++ fromEgress.filterMap egressEnding ++
    log.filterMap fun entry ↦ sendEnding entry.1

/-- What a relay has returned. -/
def result : Control PeerError EgressError →
    Option (Except (RelayError PeerError EgressError) RelayEnd)
  | .ended result => some result
  | _ => none

/-- Everything a step can be. -/
inductive Change (peers : Transport Peer PeerError PeerArrival)
    (egresses : Transport Egress EgressError EgressArrival) :
    Relaying Peer Egress PeerError EgressError →
    Op PeerError EgressError PeerArrival EgressArrival → Out →
    Relaying Peer Egress PeerError EgressError → Prop where
  | peerArrives {control peer egress arrival} :
      Change peers egresses ⟨control, peer, egress⟩ (.peerArrives arrival) ⟨none, none⟩
        ⟨control, peers.arrive peer arrival, egress⟩
  | egressArrives {control peer egress arrival} :
      Change peers egresses ⟨control, peer, egress⟩ (.egressArrives arrival) ⟨none, none⟩
        ⟨control, peer, egresses.arrive egress arrival⟩
  | poll {control peer peer' egress egress' egressFirst}
      (h : Selected peers.recv egresses.recv peer egress control peer' egress') :
      Change peers egresses ⟨.selecting, peer, egress⟩ (.poll egressFirst) ⟨none, none⟩
        ⟨control, peer', egress'⟩
  | egressSent {packet peer egress} :
      Change peers egresses ⟨.toEgress packet, peer, egress⟩ (.egressSent (.ok ()))
        ⟨some packet, none⟩ ⟨.selecting, peer, egress⟩
  | egressFailed {packet peer egress error} :
      Change peers egresses ⟨.toEgress packet, peer, egress⟩ (.egressSent (.error error))
        ⟨none, none⟩ ⟨.ended (.error (.egress error)), peer, egress⟩
  | peerSent {packet peer egress} :
      Change peers egresses ⟨.toPeer packet, peer, egress⟩ (.peerSent (.ok ()))
        ⟨none, some packet⟩ ⟨.selecting, peer, egress⟩
  | peerFailed {packet peer egress error} :
      Change peers egresses ⟨.toPeer packet, peer, egress⟩ (.peerSent (.error error))
        ⟨none, none⟩ ⟨.ended (.error (.peer error)), peer, egress⟩
  | drop {control peer egress} (hopen : result control = none) (hthere : control ≠ .dropped) :
      Change peers egresses ⟨control, peer, egress⟩ .drop ⟨none, none⟩ ⟨.dropped, peer, egress⟩

variable {relaying following : Relaying Peer Egress PeerError EgressError}
  {op : Op PeerError EgressError PeerArrival EgressArrival} {out : Out}

/-- Every step of a relay and its transports is a `Change`. -/
theorem change_of_next (h : next peers egresses relaying op = some (out, following)) :
    Change peers egresses relaying op out following := by
  unfold next at h
  split at h
  all_goals simp only [Option.some.injEq, Prod.mk.injEq, reduceCtorEq] at h
  case h_1 =>
    obtain ⟨rfl, rfl⟩ := h
    exact .peerArrives
  case h_2 =>
    obtain ⟨rfl, rfl⟩ := h
    exact .egressArrives
  case h_3 peer egress egressFirst =>
    obtain ⟨rfl, rfl⟩ := h
    exact .poll (selected_of_select rfl)
  case h_4 packet peer egress result =>
    obtain ⟨rfl, rfl⟩ := h
    cases result with
    | ok value => exact .egressSent
    | error error => exact .egressFailed
  case h_5 packet peer egress result =>
    obtain ⟨rfl, rfl⟩ := h
    cases result with
    | ok value => exact .peerSent
    | error error => exact .peerFailed
  case h_6 =>
    obtain ⟨rfl, rfl⟩ := h
    exact .drop rfl (by simp)
  case h_7 =>
    obtain ⟨rfl, rfl⟩ := h
    exact .drop rfl (by simp)
  case h_8 =>
    obtain ⟨rfl, rfl⟩ := h
    exact .drop rfl (by simp)

/-! ## Conservation -/

/-- A relay against its log: what was taken from either side, and the packets in flight. -/
structure Conserves (peers : Transport Peer PeerError PeerArrival)
    (egresses : Transport Egress EgressError EgressArrival)
    (log : Log PeerError EgressError PeerArrival EgressArrival)
    (relaying : Relaying Peer Egress PeerError EgressError)
    (fromPeer : List (Except PeerError (Option Bytes)))
    (fromEgress : List (Except EgressError (Option Bytes))) (up down : Option Bytes) : Prop where
  peer : peerArrivals peers log = fromPeer ++ peers.unread relaying.peer
  egress : egressArrivals egresses log = fromEgress ++ egresses.unread relaying.egress
  upward : fromPeer.filterMap packet? = sentToEgress log ++ up.toList
  downward : fromEgress.filterMap packet? = sentToPeer log ++ down.toList
  single : up = none ∨ down = none
  flying : result relaying.control = none → relaying.control ≠ .dropped →
    up = relaying.control.upPacket ∧ down = relaying.control.downPacket
  closed : ∀ ending, relaying.control = .ended (.ok ending) → up = none ∧ down = none
  ending : endings fromPeer fromEgress log = (result relaying.control).toList

/-- The packets to the egress with one more step. -/
theorem sentToEgress_cons :
    sentToEgress ((op, out) :: log) = sentToEgress log ++ out.toEgress.toList := by
  cases hsent : out.toEgress <;> simp [sentToEgress, hsent]

/-- The packets to the peer with one more step. -/
theorem sentToPeer_cons : sentToPeer ((op, out) :: log) = sentToPeer log ++ out.toPeer.toList := by
  cases hsent : out.toPeer <;> simp [sentToPeer, hsent]

/-- What has arrived at the peer with one more step. -/
theorem peerArrivals_cons :
    peerArrivals peers ((op, out) :: log) =
      peerArrivals peers log ++ (peerReport peers op).toList := by
  cases hreport : peerReport peers op <;> simp [peerArrivals, hreport]

/-- What has arrived at the egress with one more step. -/
theorem egressArrivals_cons :
    egressArrivals egresses ((op, out) :: log) =
      egressArrivals egresses log ++ (egressReport egresses op).toList := by
  cases hreport : egressReport egresses op <;> simp [egressArrivals, hreport]

section Step

variable {fromPeer : List (Except PeerError (Option Bytes))}
  {fromEgress : List (Except EgressError (Option Bytes))} {up down : Option Bytes}
  {control : Control PeerError EgressError} {peer peer' : Peer} {egress egress' : Egress}

/-- A step that is no failed send adds no ending of its own. -/
theorem endings_cons (h : sendEnding op = none) :
    endings fromPeer fromEgress ((op, out) :: log) = endings fromPeer fromEgress log := by
  simp [endings, h]

/-- A failed send is the first ending. -/
theorem endings_cons_of_nil {ending : Except (RelayError PeerError EgressError) RelayEnd}
    (hnone : endings fromPeer fromEgress log = []) (h : sendEnding op = some ending) :
    endings fromPeer fromEgress ((op, out) :: log) = [ending] := by
  simp only [endings, List.append_eq_nil_iff] at hnone
  obtain ⟨⟨hfrom, hto⟩, hsends⟩ := hnone
  simp only [endings, hfrom, hto, List.filterMap_cons, h, hsends, List.nil_append]

/-- While the relay selects, nothing has ended it and no packet is in flight. -/
theorem Conserves.selecting
    (h : Conserves peers egresses log ⟨.selecting, peer, egress⟩ fromPeer fromEgress up down) :
    up = none ∧ down = none ∧ endings fromPeer fromEgress log = [] := by
  obtain ⟨hup, hdown⟩ := h.flying rfl (by simp)
  exact ⟨hup, hdown, h.ending⟩

/-- The `select!` takes a result of the peer. -/
theorem Conserves.takePeer {egressFirst : Bool} {received : Except PeerError (Option Bytes)}
    (h : Conserves peers egresses log ⟨.selecting, peer, egress⟩ fromPeer fromEgress up down)
    (hpeer : peers.unread peer = received :: peers.unread peer')
    (hegress : egresses.unread egress' = egresses.unread egress) :
    Conserves peers egresses ((.poll egressFirst, ⟨none, none⟩) :: log)
      ⟨.afterPeer received, peer', egress'⟩ (fromPeer ++ [received]) fromEgress
      (packet? received) none := by
  obtain ⟨rfl, rfl, hending⟩ := h.selecting
  refine ⟨?_, ?_, ?_, ?_, .inr rfl, ?_, ?_, ?_⟩
  · rw [peerArrivals_cons, h.peer, hpeer]
    simp [peerReport]
  · rw [egressArrivals_cons, h.egress, hegress]
    simp [egressReport]
  · rw [List.filterMap_append, h.upward, sentToEgress_cons]
    cases hpacket : packet? received <;> simp [hpacket]
  · rw [h.downward, sentToPeer_cons]
    simp
  · intro _ _
    rcases received with error | _ | packet
    · exact ⟨rfl, rfl⟩
    · exact ⟨rfl, rfl⟩
    · exact ⟨rfl, rfl⟩
  · intro ending hcontrol
    rcases received with error | _ | packet
    · simp [Control.afterPeer] at hcontrol
    · exact ⟨rfl, rfl⟩
    · simp [Control.afterPeer] at hcontrol
  · rw [endings_cons rfl]
    simp only [endings, List.append_eq_nil_iff] at hending
    obtain ⟨⟨hfrom, hto⟩, hsends⟩ := hending
    simp only [endings, List.filterMap_append, hfrom, hto, hsends]
    rcases received with error | _ | packet <;> rfl

/-- The `select!` takes a result of the egress. -/
theorem Conserves.takeEgress {egressFirst : Bool} {received : Except EgressError (Option Bytes)}
    (h : Conserves peers egresses log ⟨.selecting, peer, egress⟩ fromPeer fromEgress up down)
    (hegress : egresses.unread egress = received :: egresses.unread egress')
    (hpeer : peers.unread peer' = peers.unread peer) :
    Conserves peers egresses ((.poll egressFirst, ⟨none, none⟩) :: log)
      ⟨.afterEgress received, peer', egress'⟩ fromPeer (fromEgress ++ [received]) none
      (packet? received) := by
  obtain ⟨rfl, rfl, hending⟩ := h.selecting
  refine ⟨?_, ?_, ?_, ?_, .inl rfl, ?_, ?_, ?_⟩
  · rw [peerArrivals_cons, h.peer, hpeer]
    simp [peerReport]
  · rw [egressArrivals_cons, h.egress, hegress]
    simp [egressReport]
  · rw [h.upward, sentToEgress_cons]
    simp
  · rw [List.filterMap_append, h.downward, sentToPeer_cons]
    cases hpacket : packet? received <;> simp [hpacket]
  · intro _ _
    rcases received with error | _ | packet
    · exact ⟨rfl, rfl⟩
    · exact ⟨rfl, rfl⟩
    · exact ⟨rfl, rfl⟩
  · intro ending hcontrol
    rcases received with error | _ | packet
    · simp [Control.afterEgress] at hcontrol
    · exact ⟨rfl, rfl⟩
    · simp [Control.afterEgress] at hcontrol
  · rw [endings_cons rfl]
    simp only [endings, List.append_eq_nil_iff] at hending
    obtain ⟨⟨hfrom, hto⟩, hsends⟩ := hending
    simp only [endings, List.filterMap_append, hfrom, hto, hsends]
    rcases received with error | _ | packet <;> rfl

/-- A step that takes nothing and sends nothing keeps what was taken and what is in flight. -/
theorem Conserves.keep {control' : Control PeerError EgressError}
    (h : Conserves peers egresses log ⟨control, peer, egress⟩ fromPeer fromEgress up down)
    (hpeer : peers.unread peer' = peers.unread peer ++ (peerReport peers op).toList)
    (hegress : egresses.unread egress' =
      egresses.unread egress ++ (egressReport egresses op).toList)
    (hflying : result control' = none → control' ≠ .dropped →
      up = control'.upPacket ∧ down = control'.downPacket)
    (hclosed : ∀ ending, control' = .ended (.ok ending) → up = none ∧ down = none)
    (hending : endings fromPeer fromEgress ((op, ⟨none, none⟩) :: log) = (result control').toList) :
    Conserves peers egresses ((op, ⟨none, none⟩) :: log) ⟨control', peer', egress'⟩ fromPeer
      fromEgress up down := by
  refine ⟨?_, ?_, ?_, ?_, h.single, hflying, hclosed, hending⟩
  · rw [peerArrivals_cons, h.peer, hpeer, List.append_assoc]
  · rw [egressArrivals_cons, h.egress, hegress, List.append_assoc]
  · rw [h.upward, sentToEgress_cons, Option.toList_none, List.append_nil]
  · rw [h.downward, sentToPeer_cons, Option.toList_none, List.append_nil]

/-- The packet in flight is sent, and the relay selects again. -/
theorem Conserves.sent
    (h : Conserves peers egresses log ⟨control, peer, egress⟩ fromPeer fromEgress up down)
    (hpeer : peerReport peers op = none) (hegress : egressReport egresses op = none)
    (hending : endings fromPeer fromEgress ((op, ⟨up, down⟩) :: log) = []) :
    Conserves peers egresses ((op, ⟨up, down⟩) :: log) ⟨.selecting, peer, egress⟩ fromPeer
      fromEgress none none := by
  refine ⟨?_, ?_, ?_, ?_, .inl rfl, fun _ _ ↦ ⟨rfl, rfl⟩, fun _ _ ↦ ⟨rfl, rfl⟩, hending⟩
  · rw [peerArrivals_cons, hpeer, Option.toList_none, List.append_nil, h.peer]
  · rw [egressArrivals_cons, hegress, Option.toList_none, List.append_nil, h.egress]
  · rw [h.upward, sentToEgress_cons, Option.toList_none, List.append_nil]
  · rw [h.downward, sentToPeer_cons, Option.toList_none, List.append_nil]

end Step

/-- Every step of a relay conserves packets. -/
theorem Conserves.step {fromPeer : List (Except PeerError (Option Bytes))}
    {fromEgress : List (Except EgressError (Option Bytes))} {up down : Option Bytes}
    (h : Conserves peers egresses log relaying fromPeer fromEgress up down)
    (hchange : Change peers egresses relaying op out following) :
    ∃ fromPeer fromEgress up down,
      Conserves peers egresses ((op, out) :: log) following fromPeer fromEgress up down := by
  cases hchange with
  | peerArrives =>
      refine ⟨fromPeer, fromEgress, up, down,
        h.keep (peers.unread_arrive _ _) (by simp [egressReport]) h.flying h.closed ?_⟩
      rw [endings_cons rfl]
      exact h.ending
  | egressArrives =>
      refine ⟨fromPeer, fromEgress, up, down,
        h.keep (by simp [peerReport]) (egresses.unread_arrive _ _) h.flying h.closed ?_⟩
      rw [endings_cons rfl]
      exact h.ending
  | poll hselected =>
      cases hselected with
      | fromPeer hpeer hegress =>
          refine ⟨_, _, _, _, h.takePeer (peers.unread_ready hpeer) ?_⟩
          rcases hegress with rfl | hpending
          · rfl
          · exact egresses.unread_pending hpending
      | fromEgress hegress hpeer =>
          refine ⟨_, _, _, _, h.takeEgress (egresses.unread_ready hegress) ?_⟩
          rcases hpeer with rfl | hpending
          · rfl
          · exact peers.unread_pending hpending
      | neither hpeer hegress =>
          refine ⟨fromPeer, fromEgress, up, down,
            h.keep (by simp [peerReport, peers.unread_pending hpeer])
              (by simp [egressReport, egresses.unread_pending hegress]) h.flying h.closed ?_⟩
          rw [endings_cons rfl]
          exact h.ending
  | @egressSent packet =>
      obtain ⟨rfl, rfl⟩ := h.flying rfl (by simp)
      exact ⟨fromPeer, fromEgress, none, none, h.sent rfl rfl ((endings_cons rfl).trans h.ending)⟩
  | egressFailed =>
      exact ⟨fromPeer, fromEgress, up, down,
        h.keep (by simp [peerReport]) (by simp [egressReport]) (by simp [result]) (by simp)
          (endings_cons_of_nil h.ending rfl)⟩
  | @peerSent packet =>
      obtain ⟨rfl, rfl⟩ := h.flying rfl (by simp)
      exact ⟨fromPeer, fromEgress, none, none, h.sent rfl rfl ((endings_cons rfl).trans h.ending)⟩
  | peerFailed =>
      exact ⟨fromPeer, fromEgress, up, down,
        h.keep (by simp [peerReport]) (by simp [egressReport]) (by simp [result]) (by simp)
          (endings_cons_of_nil h.ending rfl)⟩
  | drop hopen =>
      refine ⟨fromPeer, fromEgress, up, down,
        h.keep (by simp [peerReport]) (by simp [egressReport]) (by simp) (by simp) ?_⟩
      rw [endings_cons rfl]
      exact h.ending.trans (congrArg Option.toList hopen)

/-- Every run of a relay conserves packets. -/
theorem Exec.conserves {peer : Peer} {egress : Egress} (hpeer : peers.unread peer = [])
    (hegress : egresses.unread egress = [])
    (h : Execution.Exec (next peers egresses) ⟨.selecting, peer, egress⟩ log relaying) :
    ∃ fromPeer fromEgress up down,
      Conserves peers egresses log relaying fromPeer fromEgress up down := by
  induction h with
  | refl =>
      refine ⟨[], [], none, none, ?_, ?_, rfl, rfl, .inl rfl, fun _ _ ↦ ⟨rfl, rfl⟩, by simp, rfl⟩
      · rw [hpeer]
        rfl
      · rw [hegress]
        rfl
  | snoc _ hnext ih =>
      obtain ⟨fromPeer, fromEgress, up, down, hconserves⟩ := ih
      exact hconserves.step (change_of_next hnext)

section Endings

variable {fromPeer : List (Except PeerError (Option Bytes))}
  {fromEgress : List (Except EgressError (Option Bytes))}

/-- The relay ends as closed by the peer when the peer reports its end. -/
theorem peerClosed_mem_endings :
    .ok .peerClosed ∈ endings fromPeer fromEgress log ↔ .ok none ∈ fromPeer := by
  simp only [endings, List.mem_append, List.mem_filterMap]
  constructor
  · rintro ((⟨received, hmem, hending⟩ | ⟨received, _, hending⟩) | ⟨entry, _, hending⟩)
    · rcases received with error | _ | packet <;> simp_all [peerEnding]
    · rcases received with error | _ | packet <;> simp [egressEnding] at hending
    · unfold sendEnding at hending
      split at hending <;> simp at hending
  · exact fun hmem ↦ .inl (.inl ⟨_, hmem, rfl⟩)

/-- The relay ends as closed by the egress when the egress reports its end. -/
theorem egressClosed_mem_endings :
    .ok .egressClosed ∈ endings fromPeer fromEgress log ↔ .ok none ∈ fromEgress := by
  simp only [endings, List.mem_append, List.mem_filterMap]
  constructor
  · rintro ((⟨received, _, hending⟩ | ⟨received, hmem, hending⟩) | ⟨entry, _, hending⟩)
    · rcases received with error | _ | packet <;> simp [peerEnding] at hending
    · rcases received with error | _ | packet <;> simp_all [egressEnding]
    · unfold sendEnding at hending
      split at hending <;> simp at hending
  · exact fun hmem ↦ .inl (.inr ⟨_, hmem, rfl⟩)

/-- The relay ends with an error of the peer when a receive from the peer or a send to it fails. -/
theorem peerError_mem_endings {error : PeerError} :
    .error (.peer error) ∈ endings fromPeer fromEgress log ↔
      .error error ∈ fromPeer ∨ .peerSent (.error error) ∈ log.map Prod.fst := by
  simp only [endings, List.mem_append, List.mem_filterMap, List.mem_map]
  constructor
  · rintro ((⟨received, hmem, hending⟩ | ⟨received, _, hending⟩) | ⟨entry, hmem, hending⟩)
    · rcases received with error | _ | packet <;> simp_all [peerEnding]
    · rcases received with error | _ | packet <;> simp [egressEnding] at hending
    · refine .inr ⟨entry, hmem, ?_⟩
      unfold sendEnding at hending
      split at hending <;> simp_all
  · rintro (hmem | ⟨entry, hmem, hop⟩)
    · exact .inl (.inl ⟨_, hmem, rfl⟩)
    · exact .inr ⟨entry, hmem, by rw [hop]; rfl⟩

/-- The relay ends with an error of the egress when a receive from the egress or a send to it
fails. -/
theorem egressError_mem_endings {error : EgressError} :
    .error (.egress error) ∈ endings fromPeer fromEgress log ↔
      .error error ∈ fromEgress ∨ .egressSent (.error error) ∈ log.map Prod.fst := by
  simp only [endings, List.mem_append, List.mem_filterMap, List.mem_map]
  constructor
  · rintro ((⟨received, _, hending⟩ | ⟨received, hmem, hending⟩) | ⟨entry, hmem, hending⟩)
    · rcases received with error | _ | packet <;> simp [peerEnding] at hending
    · rcases received with error | _ | packet <;> simp_all [egressEnding]
    · refine .inr ⟨entry, hmem, ?_⟩
      unfold sendEnding at hending
      split at hending <;> simp_all
  · rintro (hmem | ⟨entry, hmem, hop⟩)
    · exact .inl (.inr ⟨_, hmem, rfl⟩)
    · exact .inr ⟨entry, hmem, by rw [hop]; rfl⟩

/-- A relay has returned exactly the ending that its sides have given. -/
theorem Conserves.ended_iff {up down : Option Bytes}
    {ending : Except (RelayError PeerError EgressError) RelayEnd}
    (h : Conserves peers egresses log relaying fromPeer fromEgress up down) :
    relaying.control = .ended ending ↔ ending ∈ endings fromPeer fromEgress log := by
  rw [h.ending]
  cases relaying.control <;> simp [result, eq_comm]

end Endings

end Relaying

end Unbounded.Relay
