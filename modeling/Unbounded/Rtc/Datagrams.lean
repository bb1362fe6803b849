import Unbounded.Net
import Unbounded.Tokio.Mpsc

/-!
# Datagrams over a DataChannel

`WebRtcDatagrams` of `src/rtc.rs`: the bounded queue between the callbacks of a DataChannel and
`recv_packet`. A message that finds the queue full is lost. A close that finds it full is handed to
a detached task, which waits for room. The permits of the queue are counted as the channel counts
them: a permit that `recv_packet` frees goes to a waiting task before a callback can take it.
-/

namespace Unbounded.Rtc

open Tokio (Poll)

/-- `ChannelEvent`. -/
inductive ChannelEvent where
  | packet (data : Bytes)
  | text
  | closed
  deriving DecidableEq, Repr

/-- The data of an event that carries a packet. -/
def ChannelEvent.data? : ChannelEvent → Option Bytes
  | .packet data => some data
  | .text | .closed => none

/-- The text of `WebRtcDatagramError::TextMessage`. -/
def textMessageError : String :=
  "WebRTC DataChannel sent text on the binary packet path"

/-- What `recv_packet` returns for an event. -/
def ChannelEvent.received : ChannelEvent → Except String (Option Bytes)
  | .packet data => .ok (some data)
  | .text => .error textMessageError
  | .closed => .ok none

/-- `WebRtcDatagrams` with the tasks that its close callback detached. -/
structure WebRtcDatagrams where
  capacity : Nat
  queue : List ChannelEvent
  /-- Detached sends that were not polled yet. -/
  spawned : Nat
  /-- Detached sends that wait for a permit. -/
  waiting : Nat
  /-- Detached sends that were given a permit and have not used it yet. -/
  reserved : Nat
  /-- The DataChannel still has the callbacks, which own a sender each. -/
  callbacks : Bool
  receiver : Bool
  capacity_pos : 0 < capacity
  bounded : queue.length + reserved ≤ capacity

namespace WebRtcDatagrams

/-- `with_capacity`. It panics on a capacity of zero. -/
def withCapacity (capacity : Nat) : Option WebRtcDatagrams :=
  if h : 0 < capacity then
    some ⟨capacity, [], 0, 0, 0, true, true, h, Nat.zero_le _⟩
  else none

/-- `try_send` on the event channel, where `none` stands for a full or closed channel. -/
def trySend (datagrams : WebRtcDatagrams) (event : ChannelEvent) : Option WebRtcDatagrams :=
  if datagrams.receiver then
    if h : datagrams.queue.length + datagrams.reserved < datagrams.capacity then
      some { datagrams with
        queue := datagrams.queue ++ [event]
        bounded := by simp only [List.length_append, List.length_singleton]; omega }
    else none
  else none

/-- The `on_message` callback. -/
def onMessage (datagrams : WebRtcDatagrams) (isString : Bool) (data : Bytes) : WebRtcDatagrams :=
  (datagrams.trySend (if isString then .text else .packet data)).getD datagrams

/-- The `on_close` callback. -/
def onClose (datagrams : WebRtcDatagrams) : WebRtcDatagrams :=
  (datagrams.trySend .closed).getD { datagrams with spawned := datagrams.spawned + 1 }

/-- A detached task is polled for the first time: it sends, waits for a permit, or ends since the
receiver is gone. -/
def pollSpawned (datagrams : WebRtcDatagrams) : Option WebRtcDatagrams :=
  if 0 < datagrams.spawned then
    let polled := { datagrams with spawned := datagrams.spawned - 1 }
    some <|
      if datagrams.receiver then
        (polled.trySend .closed).getD { polled with waiting := polled.waiting + 1 }
      else polled
  else none

/-- A detached task uses the permit it was given. -/
def pollReserved (datagrams : WebRtcDatagrams) : Option WebRtcDatagrams :=
  if h : 0 < datagrams.reserved then
    some { datagrams with
      queue := datagrams.queue ++ [.closed]
      reserved := datagrams.reserved - 1
      bounded := by
        have hbound := datagrams.bounded
        simp only [List.length_append, List.length_singleton]
        omega }
  else none

/-- A poll of `recv_packet`. The freed permit goes to a task that waits for one. The channel ends
when no callback and no task has a sender left. -/
def recvPacket (datagrams : WebRtcDatagrams) :
    Poll (Except String (Option Bytes)) × WebRtcDatagrams :=
  match h : datagrams.queue with
  | event :: rest =>
      (.ready event.received,
        if 0 < datagrams.waiting then
          { datagrams with
            queue := rest
            waiting := datagrams.waiting - 1
            reserved := datagrams.reserved + 1
            bounded := by
              have hbound := datagrams.bounded
              rw [h, List.length_cons] at hbound
              omega }
        else
          { datagrams with
            queue := rest
            bounded := by
              have hbound := datagrams.bounded
              rw [h, List.length_cons] at hbound
              omega })
  | [] =>
      (if datagrams.callbacks ∨ 0 < datagrams.spawned + datagrams.waiting + datagrams.reserved
        then .pending else .ready (.ok none), datagrams)

/-- The DataChannel drops its callbacks. -/
def dropCallbacks (datagrams : WebRtcDatagrams) : WebRtcDatagrams :=
  { datagrams with callbacks := false }

/-- The owner drops the datagrams, which closes the queue and ends the waiting tasks. -/
def dropReceiver (datagrams : WebRtcDatagrams) : WebRtcDatagrams :=
  { datagrams with
    queue := []
    waiting := 0
    reserved := 0
    receiver := false
    bounded := Nat.zero_le _ }

/-! ## The packets in the queue -/

/-- The packets in the queue, oldest first. -/
def packets (datagrams : WebRtcDatagrams) : List Bytes :=
  datagrams.queue.filterMap ChannelEvent.data?

variable {datagrams following : WebRtcDatagrams}

/-- What a send that does not wait adds to the packets. -/
theorem trySend_packets {event : ChannelEvent} (h : datagrams.trySend event = some following) :
    following.packets = datagrams.packets ++ event.data?.toList := by
  unfold trySend at h
  split at h
  case isFalse => simp at h
  case isTrue =>
    split at h
    case isFalse => simp at h
    case isTrue =>
      simp only [Option.some.injEq] at h
      subst h
      cases event <;> simp [packets, ChannelEvent.data?]

/-- A message joins the packets, or is lost. -/
theorem onMessage_packets (datagrams : WebRtcDatagrams) (isString : Bool) (data : Bytes) :
    (isString = false ∧ (datagrams.onMessage isString data).packets = datagrams.packets ++ [data]) ∨
      (datagrams.onMessage isString data).packets = datagrams.packets := by
  unfold onMessage
  cases hsend : datagrams.trySend (if isString then .text else .packet data) with
  | none => exact .inr rfl
  | some following =>
      have hpackets := trySend_packets hsend
      cases isString with
      | true => exact .inr (by simpa [ChannelEvent.data?] using hpackets)
      | false => exact .inl ⟨rfl, by simpa [ChannelEvent.data?] using hpackets⟩

/-- A close is no packet. -/
theorem onClose_packets (datagrams : WebRtcDatagrams) :
    datagrams.onClose.packets = datagrams.packets := by
  unfold onClose
  cases hsend : datagrams.trySend .closed with
  | none => rfl
  | some following => simpa [ChannelEvent.data?] using trySend_packets hsend

/-- A detached task sends no packet. -/
theorem pollSpawned_packets (h : datagrams.pollSpawned = some following) :
    following.packets = datagrams.packets := by
  unfold pollSpawned at h
  split at h
  case isFalse => simp at h
  case isTrue =>
    simp only [Option.some.injEq] at h
    subst h
    split
    case isFalse => rfl
    case isTrue =>
      cases hsend : trySend { datagrams with spawned := datagrams.spawned - 1 } .closed with
      | none => rfl
      | some sent => simpa [ChannelEvent.data?, packets] using trySend_packets hsend

/-- A detached task sends no packet. -/
theorem pollReserved_packets (h : datagrams.pollReserved = some following) :
    following.packets = datagrams.packets := by
  unfold pollReserved at h
  split at h
  case isFalse => simp at h
  case isTrue =>
    simp only [Option.some.injEq] at h
    subst h
    simp [packets, ChannelEvent.data?]

/-- `recv_packet` takes the oldest event of the queue. -/
theorem recvPacket_cons {event : ChannelEvent} {rest : List ChannelEvent}
    (h : datagrams.queue = event :: rest) :
    datagrams.recvPacket.1 = .ready event.received ∧ datagrams.recvPacket.2.queue = rest := by
  unfold recvPacket
  split
  case h_2 hempty => simp [h] at hempty
  case h_1 first others hqueue =>
    rw [h, List.cons.injEq] at hqueue
    obtain ⟨rfl, rfl⟩ := hqueue
    refine ⟨rfl, ?_⟩
    dsimp only
    split <;> rfl

/-- `recv_packet` finds nothing in an empty queue. -/
theorem recvPacket_nil (h : datagrams.queue = []) :
    (datagrams.recvPacket.1 = .pending ∨ datagrams.recvPacket.1 = .ready (.ok none)) ∧
      datagrams.recvPacket.2 = datagrams := by
  unfold recvPacket
  split
  case h_1 first others hqueue => simp [h] at hqueue
  case h_2 =>
    refine ⟨?_, rfl⟩
    dsimp only
    split
    · exact .inl rfl
    · exact .inr rfl

/-- `recv_packet` takes the oldest packet of the queue, or no packet. -/
theorem recvPacket_packets (datagrams : WebRtcDatagrams) :
    (∃ data, datagrams.recvPacket.1 = .ready (.ok (some data)) ∧
      datagrams.packets = data :: datagrams.recvPacket.2.packets) ∨
    ((∀ data, datagrams.recvPacket.1 ≠ .ready (.ok (some data))) ∧
      datagrams.recvPacket.2.packets = datagrams.packets) := by
  cases hqueue : datagrams.queue with
  | nil =>
      obtain ⟨hresult, hsame⟩ := recvPacket_nil hqueue
      refine .inr ⟨fun data ↦ ?_, by rw [hsame]⟩
      rcases hresult with hresult | hresult <;> simp [hresult]
  | cons event rest =>
      obtain ⟨hresult, hrest⟩ := recvPacket_cons hqueue
      unfold packets
      rw [hresult, hrest, hqueue]
      cases event with
      | packet data => exact .inl ⟨data, rfl, rfl⟩
      | text => exact .inr ⟨by simp [ChannelEvent.received], rfl⟩
      | closed => exact .inr ⟨by simp [ChannelEvent.received], rfl⟩

@[simp] theorem dropCallbacks_packets (datagrams : WebRtcDatagrams) :
    datagrams.dropCallbacks.packets = datagrams.packets := rfl

@[simp] theorem dropReceiver_packets (datagrams : WebRtcDatagrams) :
    datagrams.dropReceiver.packets = [] := rfl

end WebRtcDatagrams

end Unbounded.Rtc
