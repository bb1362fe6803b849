import Unbounded.Egress.Tunnel
import Unbounded.Protocol
import Unbounded.Relay.Relay
import Unbounded.Rtc.DataChannel

/-!
# The way from a consumer path to the egress

A link is everything between one `run_consumer_path` and the egress: the DataChannel with a
`WebRtcDatagrams` at both ends, and the relay of the peer proxy with its WebSocket. A send that is
in progress is taken by its transport at most once, and may end, or be dropped, with or without
that. `Link.upAccount` and `Link.downAccount` say that in both directions a packet that comes out at
one end went in at the other, each packet once.
-/

namespace Unbounded.EndToEnd

open Egress (EgressError EgressTunnel Item)
open Execution (Account Next)
open Rtc (Flow)
open Tokio (Poll)

/-- The state between a consumer path and the egress. -/
structure Link where
  /-- The packet of the consumer's `send_packet`, until the DataChannel takes it. -/
  outgoing : Option Bytes
  /-- From the consumer to the peer proxy. -/
  up : Flow
  /-- From the peer proxy to the consumer. -/
  down : Flow
  relay : Relay.Control String EgressError
  /-- The transport has not taken the packet that the relay is sending. -/
  unwritten : Bool
  tunnel : EgressTunnel
  /-- What was written to the WebSocket and has not reached the egress. -/
  toEgress : List Bytes

namespace Link

/-- A link with datagram queues of the given capacities. -/
def new (upCapacity downCapacity : Nat) : Option Link :=
  (Rtc.WebRtcDatagrams.withCapacity upCapacity).bind fun peer ↦
    (Rtc.WebRtcDatagrams.withCapacity downCapacity).map fun consumer ↦
      ⟨none, ⟨[], peer⟩, ⟨[], consumer⟩, .selecting, false, ⟨[]⟩, []⟩

/-- What can happen on a link. -/
inductive Op where
  /-- The DataChannel moves on by itself, in either direction. -/
  | up (op : Flow.Op)
  | down (op : Flow.Op)
  /-- The consumer polls `recv_packet`, calls `send_packet`, is done with `send_packet`, or drops
  its end of the DataChannel. -/
  | consumerRecv
  | consumerSend (packet : Bytes)
  | consumerTaken
  | consumerSent
  | consumerLeft
  /-- The relay is polled at its `select!`, its packet is taken by a transport, its `send_packet`
  returns, or it is dropped. -/
  | relaySelect (egressFirst : Bool)
  | relayTaken
  | relaySentToEgress (result : Except EgressError Unit)
  | relaySentToPeer (result : Except String Unit)
  | relayDropped
  /-- The peer proxy drops its end of the DataChannel and the tunnel. -/
  | peerLeft
  /-- The egress sends an envelope, or something else that is no envelope. -/
  | envelope (packet : UnboundedPacket)
  | egressItem (item : Item)
  /-- The egress receives a binary message, or all messages under way are lost. -/
  | egressReceive
  | egressLoss
  deriving DecidableEq

/-- What a step reports. -/
inductive Out where
  | unit
  /-- What `recv_packet` of the consumer returned. -/
  | polled (result : Poll (Except String (Option Bytes)))
  /-- What the egress received. -/
  | received (packet : Bytes)
  deriving DecidableEq

/-- The steps that a DataChannel takes by itself. -/
def transit : Flow.Op → Bool
  | .arrive _ | .lose _ | .close | .pollSpawned | .pollReserved | .dropCallbacks => true
  | .send _ | .recvPacket | .dropReceiver => false

/-- A binary message that decodes is an envelope. -/
def isEnvelope (decode : Bytes → Except String UnboundedPacket) (item : Item) : Bool :=
  match item.binary? with
  | some raw => (decode raw).isOk
  | none => false

variable (encode : UnboundedPacket → Bytes) (decode : Bytes → Except String UnboundedPacket)

/-- One step of a link. -/
def next : Next Link Op Out
  | link, .up op =>
      if transit op then
        (Flow.next link.up op).map fun (_, flow) ↦ (.unit, { link with up := flow })
      else none
  | link, .down op =>
      if transit op then
        (Flow.next link.down op).map fun (_, flow) ↦ (.unit, { link with down := flow })
      else none
  | link, .consumerRecv =>
      some (.polled link.down.recvPacket.1, { link with down := link.down.recvPacket.2 })
  | link, .consumerSend packet => some (.unit, { link with outgoing := some packet })
  | link, .consumerTaken =>
      link.outgoing.map fun packet ↦
        (.unit, { link with
          outgoing := none
          up := link.up.send packet })
  | link, .consumerSent => some (.unit, { link with outgoing := none })
  | link, .consumerLeft =>
      some (.unit, { link with
        outgoing := none
        down := link.down.dropReceiver })
  | link, .relaySelect egressFirst =>
      match link.relay with
      | .selecting =>
          let (control, up, tunnel) :=
            Relay.select Flow.recvPacket EgressTunnel.recv egressFirst link.up link.tunnel
          some (.unit,
            { link with relay := control, up := up, tunnel := tunnel, unwritten := true })
      | _ => none
  | link, .relayTaken =>
      if link.unwritten then
        match link.relay with
        | .toEgress packet => some (.unit, { link with
            unwritten := false
            toEgress := link.toEgress ++ [packet] })
        | .toPeer packet => some (.unit, { link with
            unwritten := false
            down := link.down.send packet })
        | _ => none
      else none
  | link, .relaySentToEgress result =>
      match link.relay with
      | .toEgress _ => some (.unit, { link with relay := .afterEgressSend result })
      | _ => none
  | link, .relaySentToPeer result =>
      match link.relay with
      | .toPeer _ => some (.unit, { link with relay := .afterPeerSend result })
      | _ => none
  | link, .relayDropped => some (.unit, { link with relay := .dropped })
  | link, .peerLeft =>
      match link.relay with
      | .ended _ | .dropped => some (.unit, { link with
          up := link.up.dropReceiver
          tunnel := ⟨[]⟩ })
      | _ => none
  | link, .envelope packet =>
      some (.unit, { link with
        tunnel := ⟨link.tunnel.inbound ++ [.message (.binary (encode packet))]⟩ })
  | link, .egressItem item =>
      if isEnvelope decode item then none
      else some (.unit, { link with tunnel := ⟨link.tunnel.inbound ++ [item]⟩ })
  | link, .egressReceive =>
      match link.toEgress with
      | packet :: rest => some (.received packet, { link with toEgress := rest })
      | [] => none
  | link, .egressLoss => some (.unit, { link with toEgress := [] })

/-- A log of a link. -/
abbrev Log := Execution.Log Op Out

/-- Executions of a link. -/
abbrev Exec := Execution.Exec (next encode decode)

/-! ## What a link holds -/

/-- The packet that the relay sends to the egress, until the WebSocket takes it. -/
def relayUp (link : Link) : Option Bytes :=
  if link.unwritten then link.relay.upPacket else none

/-- The packet that the relay sends to the consumer, until the DataChannel takes it. -/
def relayDown (link : Link) : Option Bytes :=
  if link.unwritten then link.relay.downPacket else none

/-- The packets on their way to the egress. -/
def upHolds (link : Link) : Multiset Bytes :=
  (link.outgoing.toList : Multiset Bytes) + link.up.holds +
    (link.relayUp.toList : Multiset Bytes) + (link.toEgress : Multiset Bytes)

/-- The packets on their way to the consumer. -/
def downHolds (link : Link) : Multiset Bytes :=
  (link.tunnel.binaries : Multiset Bytes) + (link.relayDown.toList : Multiset Bytes) +
    link.down.holds

/-- The packet that the consumer sends in a step. -/
def Op.given : Op → Multiset Bytes
  | .consumerSend packet => {packet}
  | _ => 0

/-- The packet that the egress receives in a step. -/
def Out.egressReceived : Out → Multiset Bytes
  | .received packet => {packet}
  | _ => 0

/-- The binary message that the egress sends in a step. -/
def Op.egressSent (encode : UnboundedPacket → Bytes) : Op → Multiset Bytes
  | .envelope packet => {encode packet}
  | .egressItem item => (item.binary?.toList : Multiset Bytes)
  | _ => 0

/-- The packet that `recv_packet` of the consumer returns in a step. -/
def Out.consumerReceived : Out → Multiset Bytes
  | .polled result => Flow.receives result
  | _ => 0

/-- No packet is made or copied between two states of a link, in either direction. -/
structure Conserved (encode : UnboundedPacket → Bytes) (link : Link) (op : Op) (out : Out)
    (following : Link) : Prop where
  up : following.upHolds + out.egressReceived ≤ link.upHolds + op.given
  down : following.downHolds + out.consumerReceived ≤ link.downHolds + op.egressSent encode

variable {encode decode} {link following : Link} {op : Op} {out : Out}

/-- A step with which no packet enters or leaves the link. -/
theorem Conserved.of_quiet (hup : following.upHolds ≤ link.upHolds)
    (hdown : following.downHolds ≤ link.downHolds) (hgiven : op.given = 0)
    (hsent : op.egressSent encode = 0) : Conserved encode link op .unit following where
  up := by simpa [hgiven, Out.egressReceived] using hup
  down := by simpa [hsent, Out.consumerReceived] using hdown

/-- A step that a DataChannel takes by itself takes no message in. -/
theorem holds_le_of_transit {flow flow' : Flow} {op : Flow.Op} {out : Flow.Out}
    (htransit : transit op = true) (h : Flow.next flow op = some (out, flow')) :
    flow'.holds ≤ flow.holds := by
  have hsends : op.sends = 0 := by
    cases op <;> first | rfl | simp [transit] at htransit
  have hstep := Flow.conserves h
  rw [hsends, add_zero] at hstep
  exact (Multiset.le_add_right _ _).trans hstep

/-- The packet that a relay takes from the consumer. -/
theorem afterPeer_packets (result : Except String (Option Bytes)) :
    let control : Relay.Control String EgressError := .afterPeer result
    (control.upPacket.toList : Multiset Bytes) = Flow.receives (.ready result) ∧
      control.downPacket = none := by
  rcases result with error | (_ | packet) <;> exact ⟨rfl, rfl⟩

/-- A poll of `recv` leaves the binary messages that it does not return. -/
theorem binaries_recv_le (tunnel : EgressTunnel) :
    (tunnel.recv.2.binaries : Multiset Bytes) ≤ (tunnel.binaries : Multiset Bytes) := by
  obtain ⟨packet, _, hbinaries⟩ | ⟨_, hbinaries⟩ := tunnel.recv_binaries
  · rw [hbinaries, ← Multiset.cons_coe]
    exact Multiset.le_cons_self _ _
  · rw [hbinaries]

/-- The packet that a relay takes from the egress. -/
theorem afterEgress_packets {tunnel tunnel' : EgressTunnel}
    {result : Except EgressError (Option Bytes)} (h : tunnel.recv = (.ready result, tunnel')) :
    let control : Relay.Control String EgressError := .afterEgress result
    (tunnel'.binaries : Multiset Bytes) + (control.downPacket.toList : Multiset Bytes) ≤
      (tunnel.binaries : Multiset Bytes) ∧ control.upPacket = none := by
  obtain ⟨packet, hready, hbinaries⟩ | ⟨hnone, hbinaries⟩ := tunnel.recv_binaries
  · rw [h] at hready hbinaries
    obtain rfl := Poll.ready.inj hready
    refine ⟨le_of_eq ?_, rfl⟩
    rw [hbinaries, ← Multiset.cons_coe, ← Multiset.singleton_add, add_comm]
    rfl
  · rw [h] at hnone hbinaries
    change tunnel'.binaries = tunnel.binaries at hbinaries
    rcases result with error | (_ | packet)
    · exact ⟨by rw [hbinaries]; exact le_of_eq (add_zero _), rfl⟩
    · exact ⟨by rw [hbinaries]; exact le_of_eq (add_zero _), rfl⟩
    · exact absurd rfl (hnone packet)

/-- The relay takes a packet from one side and holds it for the other. -/
theorem conserved_of_select {egressFirst : Bool} (hrelay : link.relay = .selecting)
    {control : Relay.Control String EgressError} {up : Flow} {tunnel : EgressTunnel}
    (h : Relay.select Flow.recvPacket EgressTunnel.recv egressFirst link.up link.tunnel =
      (control, up, tunnel)) :
    Conserved encode link (.relaySelect egressFirst) .unit
      { link with relay := control, up := up, tunnel := tunnel, unwritten := true } := by
  have hrelayUp : link.relayUp = none := by simp [relayUp, hrelay, Relay.Control.upPacket]
  have hrelayDown : link.relayDown = none := by
    simp [relayDown, hrelay, Relay.Control.downPacket]
  -- both transports give what they hold, less the packet that the relay now has
  suffices hboth : up.holds + (control.upPacket.toList : Multiset Bytes) ≤ link.up.holds ∧
      (tunnel.binaries : Multiset Bytes) + (control.downPacket.toList : Multiset Bytes) ≤
        (link.tunnel.binaries : Multiset Bytes) by
    obtain ⟨hup, hdown⟩ := hboth
    refine .of_quiet ?_ ?_ rfl rfl
    · unfold upHolds
      rw [hrelayUp, Multiset.le_iff_count]
      intro packet
      have hcount := Multiset.le_iff_count.mp hup packet
      simp only [relayUp, Multiset.count_add, if_true, Option.toList_none, Multiset.coe_nil,
        Multiset.count_zero] at hcount ⊢
      omega
    · unfold downHolds
      rw [hrelayDown, Option.toList_none, Multiset.coe_nil, add_zero]
      exact add_le_add hdown le_rfl
  have hpolled := link.up.holds_recvPacket_le
  cases Relay.selected_of_select h with
  | @fromPeer result up' tunnel' hpeer hegress =>
      obtain ⟨hcarried, hnone⟩ := afterPeer_packets result
      rw [hpeer] at hpolled
      refine ⟨by rw [hcarried]; exact hpolled, ?_⟩
      rw [hnone, Option.toList_none, Multiset.coe_nil, add_zero]
      rcases hegress with rfl | hpending
      · exact le_rfl
      · have hbinaries := binaries_recv_le link.tunnel
        rw [hpending] at hbinaries
        exact hbinaries
  | @fromEgress result up' tunnel' hegress hpeer =>
      obtain ⟨hcarried, hnone⟩ := afterEgress_packets hegress
      refine ⟨?_, hcarried⟩
      rw [hnone, Option.toList_none, Multiset.coe_nil, add_zero]
      rcases hpeer with rfl | hpending
      · exact le_rfl
      · rw [hpending] at hpolled
        exact (Multiset.le_add_right _ _).trans hpolled
  | neither hpeer hegress =>
      rw [hpeer] at hpolled
      have hbinaries := binaries_recv_le link.tunnel
      rw [hegress] at hbinaries
      exact ⟨hpolled, by simpa [Relay.Control.downPacket] using hbinaries⟩

/-- The transport takes the packet that the relay is sending. -/
theorem conserved_of_relayTaken (h : next encode decode link .relayTaken = some (out, following)) :
    Conserved encode link .relayTaken out following := by
  simp only [next] at h
  split at h
  case isFalse => simp at h
  case isTrue hunwritten =>
    split at h
    case h_1 packet hrelay =>
      simp only [Option.some.injEq, Prod.mk.injEq] at h
      obtain ⟨rfl, rfl⟩ := h
      refine .of_quiet (le_of_eq ?_) (le_of_eq ?_) rfl rfl
      · simp only [upHolds, relayUp, hunwritten, hrelay, Relay.Control.upPacket, if_true,
          Bool.false_eq_true, if_false, Option.toList_none, Option.toList_some, Multiset.coe_nil,
          add_zero, ← Multiset.coe_add]
        ac_rfl
      · simp [downHolds, relayDown, hrelay, Relay.Control.downPacket]
    case h_2 packet hrelay =>
      simp only [Option.some.injEq, Prod.mk.injEq] at h
      obtain ⟨rfl, rfl⟩ := h
      refine .of_quiet (le_of_eq ?_) ?_ rfl rfl
      · simp [upHolds, relayUp, hrelay, Relay.Control.upPacket]
      · simp only [downHolds, relayDown, hunwritten, hrelay, Relay.Control.downPacket, if_true,
          Bool.false_eq_true, if_false, Option.toList_none, Option.toList_some, Multiset.coe_nil,
          Multiset.coe_singleton, add_zero]
        rw [add_assoc, add_comm ({packet} : Multiset Bytes)]
        exact add_le_add le_rfl (link.down.holds_send_le packet)
    case h_3 => simp at h

/-- A relay that is done with its packet, or that is dropped, holds nothing any more. -/
theorem conserved_of_relay {control : Relay.Control String EgressError}
    (hup : control.upPacket = none) (hdown : control.downPacket = none) (hgiven : op.given = 0)
    (hsent : op.egressSent encode = 0) :
    Conserved encode link op .unit { link with relay := control } := by
  refine .of_quiet ?_ ?_ hgiven hsent
  · unfold upHolds
    have hnone : relayUp { link with relay := control } = none := by simp [relayUp, hup]
    rw [hnone]
    exact add_le_add (add_le_add le_rfl (Multiset.zero_le _)) le_rfl
  · unfold downHolds
    have hnone : relayDown { link with relay := control } = none := by simp [relayDown, hdown]
    rw [hnone]
    exact add_le_add (add_le_add le_rfl (Multiset.zero_le _)) le_rfl

/-- No step of a link makes or copies a packet. -/
theorem conserved_of_next (h : next encode decode link op = some (out, following)) :
    Conserved encode link op out following := by
  cases op with
  | up op =>
      simp only [next] at h
      split at h
      case isFalse => simp at h
      case isTrue htransit =>
        simp only [Option.map_eq_some_iff, Prod.mk.injEq] at h
        obtain ⟨⟨_, flow⟩, hflow, rfl, rfl⟩ := h
        refine .of_quiet ?_ le_rfl rfl rfl
        exact add_le_add (add_le_add (add_le_add le_rfl (holds_le_of_transit htransit hflow))
          le_rfl) le_rfl
  | down op =>
      simp only [next] at h
      split at h
      case isFalse => simp at h
      case isTrue htransit =>
        simp only [Option.map_eq_some_iff, Prod.mk.injEq] at h
        obtain ⟨⟨_, flow⟩, hflow, rfl, rfl⟩ := h
        exact .of_quiet le_rfl (add_le_add le_rfl (holds_le_of_transit htransit hflow)) rfl rfl
  | consumerRecv =>
      simp only [next, Option.some.injEq, Prod.mk.injEq] at h
      obtain ⟨rfl, rfl⟩ := h
      refine ⟨le_rfl, ?_⟩
      show _ + _ + _ + _ ≤ _ + _ + _ + 0
      rw [add_zero, add_assoc _ (Flow.holds _)]
      exact add_le_add le_rfl link.down.holds_recvPacket_le
  | consumerSend packet =>
      simp only [next, Option.some.injEq, Prod.mk.injEq] at h
      obtain ⟨rfl, rfl⟩ := h
      refine ⟨?_, le_rfl⟩
      rw [Multiset.le_iff_count]
      intro other
      simp only [upHolds, relayUp, Op.given, Out.egressReceived, Option.toList_some,
        Multiset.coe_singleton, Multiset.count_add, Multiset.count_zero]
      omega
  | consumerTaken =>
      simp only [next, Option.map_eq_some_iff, Prod.mk.injEq] at h
      obtain ⟨packet, houtgoing, rfl, rfl⟩ := h
      refine .of_quiet ?_ le_rfl rfl rfl
      show 0 + _ + _ + _ ≤ _
      unfold upHolds
      rw [houtgoing, Option.toList_some, Multiset.coe_singleton, zero_add,
        add_comm ({packet} : Multiset Bytes)]
      exact add_le_add (add_le_add (link.up.holds_send_le packet) le_rfl) le_rfl
  | consumerSent =>
      simp only [next, Option.some.injEq, Prod.mk.injEq] at h
      obtain ⟨rfl, rfl⟩ := h
      refine .of_quiet ?_ le_rfl rfl rfl
      exact add_le_add (add_le_add (add_le_add (Multiset.zero_le _) le_rfl) le_rfl) le_rfl
  | consumerLeft =>
      simp only [next, Option.some.injEq, Prod.mk.injEq] at h
      obtain ⟨rfl, rfl⟩ := h
      refine .of_quiet ?_ (add_le_add le_rfl link.down.holds_dropReceiver_le) rfl rfl
      exact add_le_add (add_le_add (add_le_add (Multiset.zero_le _) le_rfl) le_rfl) le_rfl
  | relaySelect egressFirst =>
      simp only [next] at h
      split at h
      case h_2 => simp at h
      case h_1 hrelay =>
        simp only [Option.some.injEq, Prod.mk.injEq] at h
        obtain ⟨rfl, rfl⟩ := h
        exact conserved_of_select hrelay rfl
  | relayTaken => exact conserved_of_relayTaken h
  | relaySentToEgress result =>
      simp only [next] at h
      split at h
      case h_2 => simp at h
      case h_1 =>
        simp only [Option.some.injEq, Prod.mk.injEq] at h
        obtain ⟨rfl, rfl⟩ := h
        cases result <;> exact conserved_of_relay rfl rfl rfl rfl
  | relaySentToPeer result =>
      simp only [next] at h
      split at h
      case h_2 => simp at h
      case h_1 =>
        simp only [Option.some.injEq, Prod.mk.injEq] at h
        obtain ⟨rfl, rfl⟩ := h
        cases result <;> exact conserved_of_relay rfl rfl rfl rfl
  | relayDropped =>
      simp only [next, Option.some.injEq, Prod.mk.injEq] at h
      obtain ⟨rfl, rfl⟩ := h
      exact conserved_of_relay rfl rfl rfl rfl
  | peerLeft =>
      have hleft : (out, following) = (.unit, { link with
          up := link.up.dropReceiver
          tunnel := ⟨[]⟩ }) := by
        simp only [next] at h
        split at h
        · exact (Option.some.inj h).symm
        · exact (Option.some.inj h).symm
        · simp at h
      simp only [Prod.mk.injEq] at hleft
      obtain ⟨rfl, rfl⟩ := hleft
      refine .of_quiet ?_ ?_ rfl rfl
      · exact add_le_add (add_le_add (add_le_add le_rfl link.up.holds_dropReceiver_le)
          le_rfl) le_rfl
      · exact add_le_add (add_le_add (Multiset.zero_le _) le_rfl) le_rfl
  | envelope packet =>
      simp only [next, Option.some.injEq, Prod.mk.injEq] at h
      obtain ⟨rfl, rfl⟩ := h
      refine ⟨le_rfl, le_of_eq ?_⟩
      simp only [downHolds, relayDown, Op.egressSent, Out.consumerReceived,
        EgressTunnel.binaries, Item.binary?, List.filterMap_append, List.filterMap_cons,
        List.filterMap_nil, ← Multiset.coe_add, Multiset.coe_singleton]
      ac_rfl
  | egressItem item =>
      simp only [next] at h
      split at h
      case isTrue => simp at h
      case isFalse =>
        simp only [Option.some.injEq, Prod.mk.injEq] at h
        obtain ⟨rfl, rfl⟩ := h
        refine ⟨le_rfl, le_of_eq ?_⟩
        have hitem : [item].filterMap Item.binary? = item.binary?.toList := by
          cases hbinary : item.binary? <;> simp [hbinary]
        simp only [downHolds, relayDown, Op.egressSent, Out.consumerReceived,
          EgressTunnel.binaries, List.filterMap_append, hitem, ← Multiset.coe_add]
        ac_rfl
  | egressReceive =>
      simp only [next] at h
      split at h
      case h_2 => simp at h
      case h_1 packet rest htoEgress =>
        simp only [Option.some.injEq, Prod.mk.injEq] at h
        obtain ⟨rfl, rfl⟩ := h
        refine ⟨le_of_eq ?_, le_rfl⟩
        simp only [upHolds, relayUp, Op.given, Out.egressReceived, htoEgress,
          ← Multiset.cons_coe, ← Multiset.singleton_add]
        ac_rfl
  | egressLoss =>
      simp only [next, Option.some.injEq, Prod.mk.injEq] at h
      obtain ⟨rfl, rfl⟩ := h
      exact .of_quiet (add_le_add le_rfl (Multiset.zero_le _)) le_rfl rfl rfl

variable (encode decode)

/-- What the egress receives was sent by the consumer, each packet once. -/
def upAccount : Account (next encode decode) Bytes where
  holds := upHolds
  enters entry := entry.1.given
  leaves entry := entry.2.egressReceived
  conserves h := (conserved_of_next h).up

/-- What the consumer receives was sent by the egress, each packet once. -/
def downAccount : Account (next encode decode) Bytes where
  holds := downHolds
  enters entry := entry.1.egressSent encode
  leaves entry := entry.2.consumerReceived
  conserves h := (conserved_of_next h).down

variable {encode decode}

/-- A new link is empty. -/
theorem holds_new {upCapacity downCapacity : Nat}
    (h : Link.new upCapacity downCapacity = some link) :
    link.upHolds = 0 ∧ link.downHolds = 0 := by
  simp only [Link.new, Rtc.WebRtcDatagrams.withCapacity, Option.bind_eq_some_iff,
    Option.map_eq_some_iff] at h
  obtain ⟨peer, hpeer, consumer, hconsumer, rfl⟩ := h
  split at hpeer
  case isFalse => simp at hpeer
  case isTrue =>
    split at hconsumer
    case isFalse => simp at hconsumer
    case isTrue =>
      simp only [Option.some.injEq] at hpeer hconsumer
      subst hpeer hconsumer
      exact ⟨rfl, rfl⟩

end Link

end Unbounded.EndToEnd
