import Unbounded.Execution.Conservation
import Unbounded.Rtc.Datagrams

/-!
# One direction of a DataChannel

The DataChannels of `create_unreliable_data_channel` are unordered and never retransmit, so a
message that is in flight may be lost, or overtaken by any other, but it arrives at most once and as
it was sent. `Flow` is one direction of such a channel with the `WebRtcDatagrams` at its receiving
end, and `Flow.account` says that what `recv_packet` returns was sent, each message once.
-/

namespace Unbounded.Rtc

open Execution (Account Next)
open Tokio (Poll)

/-- One direction of a DataChannel, with its receiving end. -/
structure Flow where
  inFlight : List Bytes
  datagrams : WebRtcDatagrams

namespace Flow

/-- What can happen to one direction of a DataChannel. -/
inductive Op where
  /-- The DataChannel takes a message from its sender. -/
  | send (data : Bytes)
  /-- A message arrives: the `on_message` callback runs. -/
  | arrive (index : Nat)
  | lose (index : Nat)
  /-- The `on_close` callback runs. -/
  | close
  | pollSpawned
  | pollReserved
  | recvPacket
  | dropCallbacks
  | dropReceiver
  deriving DecidableEq

/-- What a step reports. -/
inductive Out where
  | unit
  | received (result : Poll (Except String (Option Bytes)))
  deriving DecidableEq

/-- Replace the receiving end. -/
def withDatagrams (flow : Flow) (datagrams : WebRtcDatagrams) : Out × Flow :=
  (.unit, { flow with datagrams := datagrams })

/-- The DataChannel takes a message. -/
def send (flow : Flow) (data : Bytes) : Flow :=
  { flow with inFlight := flow.inFlight ++ [data] }

/-- The owner of the receiving end drops it. -/
def dropReceiver (flow : Flow) : Flow :=
  { flow with datagrams := flow.datagrams.dropReceiver }

/-- The owner of the receiving end polls `recv_packet`. -/
def recvPacket (flow : Flow) : Poll (Except String (Option Bytes)) × Flow :=
  (flow.datagrams.recvPacket.1, { flow with datagrams := flow.datagrams.recvPacket.2 })

/-- One step of one direction of a DataChannel. -/
def next : Next Flow Op Out
  | flow, .send data => some (.unit, flow.send data)
  | flow, .arrive index =>
      if flow.datagrams.callbacks then
        flow.inFlight[index]?.map fun data ↦
          (.unit, ⟨flow.inFlight.eraseIdx index, flow.datagrams.onMessage false data⟩)
      else none
  | flow, .lose index => some (.unit, { flow with inFlight := flow.inFlight.eraseIdx index })
  | flow, .close =>
      if flow.datagrams.callbacks then some (flow.withDatagrams flow.datagrams.onClose) else none
  | flow, .pollSpawned => flow.datagrams.pollSpawned.map flow.withDatagrams
  | flow, .pollReserved => flow.datagrams.pollReserved.map flow.withDatagrams
  | flow, .recvPacket => some (.received flow.recvPacket.1, flow.recvPacket.2)
  | flow, .dropCallbacks => some (flow.withDatagrams flow.datagrams.dropCallbacks)
  | flow, .dropReceiver => some (.unit, flow.dropReceiver)

/-- The messages in flight and in the queue of the receiving end. -/
def holds (flow : Flow) : Multiset Bytes :=
  (flow.inFlight : Multiset Bytes) + (flow.datagrams.packets : Multiset Bytes)

/-- The message that a step takes from its sender. -/
def Op.sends : Op → Multiset Bytes
  | .send data => {data}
  | _ => 0

/-- The message that a poll of `recv_packet` returns. -/
def receives : Poll (Except String (Option Bytes)) → Multiset Bytes
  | .ready (.ok (some data)) => {data}
  | _ => 0

/-- The message that leaves the direction with a step. -/
def Out.receives : Out → Multiset Bytes
  | .received result => Flow.receives result
  | .unit => 0

/-- A poll that returns no packet takes no message. -/
theorem receives_eq_zero {result : Poll (Except String (Option Bytes))}
    (h : ∀ data, result ≠ .ready (.ok (some data))) : receives result = 0 := by
  unfold receives
  split
  case h_1 data => exact absurd rfl (h data)
  case h_2 => rfl

/-- A message in flight and the others. -/
theorem cons_eraseIdx_inFlight {flow : Flow} {index : Nat} {data : Bytes}
    (h : flow.inFlight[index]? = some data) :
    (flow.inFlight : Multiset Bytes) =
      data ::ₘ (flow.inFlight.eraseIdx index : Multiset Bytes) := by
  obtain ⟨hlt, rfl⟩ := List.getElem?_eq_some_iff.mp h
  rw [Multiset.cons_coe, Multiset.coe_eq_coe]
  exact (List.getElem_cons_eraseIdx_perm hlt).symm

/-- A step that only replaces the receiving end by one with the same packets or fewer. -/
theorem holds_withDatagrams_le (flow : Flow) {datagrams : WebRtcDatagrams}
    (h : datagrams.packets.Sublist flow.datagrams.packets) :
    holds { flow with datagrams := datagrams } ≤ flow.holds :=
  add_le_add le_rfl (Multiset.coe_le.mpr h.subperm)

/-- No step makes or copies a message. -/
theorem conserves {flow following : Flow} {op : Op} {out : Out}
    (h : next flow op = some (out, following)) :
    following.holds + out.receives ≤ flow.holds + op.sends := by
  have hreplace : ∀ datagrams : WebRtcDatagrams, datagrams.packets.Sublist flow.datagrams.packets →
      op.sends = 0 → some (flow.withDatagrams datagrams) = some (out, following) →
      following.holds + out.receives ≤ flow.holds + op.sends := by
    intro datagrams hpackets hsends heq
    simp only [withDatagrams, Option.some.injEq, Prod.mk.injEq] at heq
    obtain ⟨rfl, rfl⟩ := heq
    rw [hsends]
    exact add_le_add (flow.holds_withDatagrams_le hpackets) le_rfl
  cases op with
  | send data =>
      simp only [next, Option.some.injEq, Prod.mk.injEq] at h
      obtain ⟨rfl, rfl⟩ := h
      refine le_of_eq ?_
      simp only [holds, send, Out.receives, Op.sends, ← Multiset.coe_add, Multiset.coe_singleton]
      ac_rfl
  | arrive index =>
      simp only [next] at h
      split at h
      case isFalse => simp at h
      case isTrue =>
        simp only [Option.map_eq_some_iff, Prod.mk.injEq] at h
        obtain ⟨data, hdata, rfl, rfl⟩ := h
        simp only [holds, Out.receives, Op.sends, add_zero, cons_eraseIdx_inFlight hdata]
        obtain ⟨_, hpackets⟩ | hpackets := flow.datagrams.onMessage_packets false data
        · rw [hpackets, ← Multiset.coe_add, Multiset.coe_singleton, ← Multiset.singleton_add]
          refine le_of_eq ?_
          ac_rfl
        · rw [hpackets, Multiset.cons_add]
          exact Multiset.le_cons_self _ _
  | lose index =>
      simp only [next, Option.some.injEq, Prod.mk.injEq] at h
      obtain ⟨rfl, rfl⟩ := h
      simp only [holds, Out.receives, Op.sends, add_zero]
      exact add_le_add (Multiset.coe_le.mpr (List.eraseIdx_sublist _ _).subperm) le_rfl
  | close =>
      simp only [next] at h
      split at h
      case isFalse => simp at h
      case isTrue =>
        exact hreplace _ (by rw [WebRtcDatagrams.onClose_packets]) rfl h
  | pollSpawned =>
      simp only [next, Option.map_eq_some_iff] at h
      obtain ⟨datagrams, hpoll, heq⟩ := h
      exact hreplace _ (by rw [WebRtcDatagrams.pollSpawned_packets hpoll]) rfl
        (congrArg some heq)
  | pollReserved =>
      simp only [next, Option.map_eq_some_iff] at h
      obtain ⟨datagrams, hpoll, heq⟩ := h
      exact hreplace _ (by rw [WebRtcDatagrams.pollReserved_packets hpoll]) rfl
        (congrArg some heq)
  | recvPacket =>
      simp only [next, Option.some.injEq, Prod.mk.injEq] at h
      obtain ⟨rfl, rfl⟩ := h
      simp only [holds, Out.receives, Op.sends, add_zero, recvPacket]
      obtain ⟨data, hready, hpackets⟩ | ⟨hnone, hpackets⟩ := flow.datagrams.recvPacket_packets
      · rw [hready, hpackets, ← Multiset.cons_coe, ← Multiset.singleton_add]
        refine le_of_eq ?_
        simp only [receives]
        ac_rfl
      · rw [receives_eq_zero hnone, hpackets, add_zero]
  | dropCallbacks => exact hreplace flow.datagrams.dropCallbacks (List.Sublist.refl _) rfl h
  | dropReceiver => exact hreplace flow.datagrams.dropReceiver (List.nil_sublist _) rfl h

/-- A message that the DataChannel takes is in flight. -/
theorem holds_send_le (flow : Flow) (data : Bytes) :
    (flow.send data).holds ≤ flow.holds + {data} := by
  have hstep : (flow.send data).holds + Out.receives .unit ≤ flow.holds + Op.sends (.send data) :=
    conserves rfl
  simpa [Out.receives, Op.sends] using hstep

/-- A receiving end that is dropped loses its packets. -/
theorem holds_dropReceiver_le (flow : Flow) : flow.dropReceiver.holds ≤ flow.holds :=
  flow.holds_withDatagrams_le (List.nil_sublist _)

/-- What a poll of `recv_packet` returns leaves the direction. -/
theorem holds_recvPacket_le (flow : Flow) :
    flow.recvPacket.2.holds + receives flow.recvPacket.1 ≤ flow.holds := by
  have hstep : flow.recvPacket.2.holds + Out.receives (.received flow.recvPacket.1) ≤
      flow.holds + Op.sends .recvPacket := conserves rfl
  simpa [Out.receives, Op.sends] using hstep

/-- What `recv_packet` returns was sent, each message once. -/
def account : Account next Bytes where
  holds := holds
  enters entry := entry.1.sends
  leaves entry := entry.2.receives
  conserves := conserves

end Flow

end Unbounded.Rtc
