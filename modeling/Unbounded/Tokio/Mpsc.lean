import Mathlib.Data.List.Basic

/-!
# Bounded multi-producer channels with counted handles

The model of a bounded `tokio::sync::mpsc` channel. A channel counts its sender handles and knows
whether its receiver is alive. Sending without waiting succeeds exactly when the receiver is alive
and a permit is left, that is, when fewer than `capacity` values are queued. Receiving yields the
oldest value, ends when every sender is gone, and is pending otherwise. Dropping the receiver
closes the channel and discards what is queued.

The queue bound is part of the type, so that no operation can build an overfull channel.
-/

namespace Unbounded.Tokio

/-- The result of polling a future. -/
inductive Poll (α : Type) where
  | pending
  | ready (value : α)
  deriving DecidableEq, Repr

/-- What a send that does not wait reports. -/
inductive TrySend where
  | sent
  | full
  | closed
  deriving DecidableEq, Repr

/-- A bounded channel: what is queued, oldest first, and which handles still exist. -/
structure Channel (α : Type) where
  capacity : Nat
  queue : List α
  senders : Nat
  receiver : Bool
  capacity_pos : 0 < capacity
  bounded : queue.length ≤ capacity

namespace Channel

variable {α : Type}

/-- A new channel with its first sender and its receiver. -/
def new (capacity : Nat) (h : 0 < capacity) : Channel α where
  capacity := capacity
  queue := []
  senders := 1
  receiver := true
  capacity_pos := h
  bounded := Nat.zero_le _

/-- Send without waiting. A dropped receiver is reported before a full queue. -/
def trySend (channel : Channel α) (value : α) : TrySend × Channel α :=
  if channel.receiver then
    if h : channel.queue.length < channel.capacity then
      (.sent, { channel with
        queue := channel.queue ++ [value]
        bounded := by simpa using Nat.succ_le_of_lt h })
    else (.full, channel)
  else (.closed, channel)

/-- Poll the receiver. -/
def recv (channel : Channel α) : Poll (Option α) × Channel α :=
  match h : channel.queue with
  | value :: rest =>
      (.ready (some value), { channel with
        queue := rest
        bounded := by
          have hbound := channel.bounded
          rw [h, List.length_cons] at hbound
          omega })
  | [] => (if channel.senders = 0 then .ready none else .pending, channel)

/-- Clone a sender handle. -/
def cloneSender (channel : Channel α) : Channel α :=
  { channel with senders := channel.senders + 1 }

/-- Drop a sender handle. -/
def dropSender (channel : Channel α) : Channel α :=
  { channel with senders := channel.senders - 1 }

/-- Drop the receiver, which closes the channel and discards its queue. -/
def dropReceiver (channel : Channel α) : Channel α :=
  { channel with
    queue := []
    receiver := false
    bounded := Nat.zero_le _ }

/-! ## What each operation does to each part -/

@[simp] theorem new_queue (capacity : Nat) (h : 0 < capacity) :
    (new capacity h : Channel α).queue = [] := rfl

@[simp] theorem new_senders (capacity : Nat) (h : 0 < capacity) :
    (new capacity h : Channel α).senders = 1 := rfl

@[simp] theorem new_receiver (capacity : Nat) (h : 0 < capacity) :
    (new capacity h : Channel α).receiver = true := rfl

@[simp] theorem new_capacity (capacity : Nat) (h : 0 < capacity) :
    (new capacity h : Channel α).capacity = capacity := rfl

@[simp] theorem cloneSender_queue (channel : Channel α) :
    channel.cloneSender.queue = channel.queue := rfl

@[simp] theorem cloneSender_senders (channel : Channel α) :
    channel.cloneSender.senders = channel.senders + 1 := rfl

@[simp] theorem cloneSender_receiver (channel : Channel α) :
    channel.cloneSender.receiver = channel.receiver := rfl

@[simp] theorem cloneSender_capacity (channel : Channel α) :
    channel.cloneSender.capacity = channel.capacity := rfl

@[simp] theorem dropSender_queue (channel : Channel α) :
    channel.dropSender.queue = channel.queue := rfl

@[simp] theorem dropSender_senders (channel : Channel α) :
    channel.dropSender.senders = channel.senders - 1 := rfl

@[simp] theorem dropSender_receiver (channel : Channel α) :
    channel.dropSender.receiver = channel.receiver := rfl

@[simp] theorem dropSender_capacity (channel : Channel α) :
    channel.dropSender.capacity = channel.capacity := rfl

@[simp] theorem dropReceiver_queue (channel : Channel α) :
    channel.dropReceiver.queue = [] := rfl

@[simp] theorem dropReceiver_senders (channel : Channel α) :
    channel.dropReceiver.senders = channel.senders := rfl

@[simp] theorem dropReceiver_receiver (channel : Channel α) :
    channel.dropReceiver.receiver = false := rfl

@[simp] theorem dropReceiver_capacity (channel : Channel α) :
    channel.dropReceiver.capacity = channel.capacity := rfl

/-! ## Sending and receiving -/

/-- Everything a send without waiting can do. -/
theorem trySend_cases (channel : Channel α) (value : α) :
    (channel.receiver = true ∧ channel.queue.length < channel.capacity ∧
      (channel.trySend value).1 = .sent ∧
      (channel.trySend value).2.queue = channel.queue ++ [value]) ∨
    (channel.receiver = true ∧ channel.queue.length = channel.capacity ∧
      channel.trySend value = (.full, channel)) ∨
    (channel.receiver = false ∧ channel.trySend value = (.closed, channel)) := by
  unfold trySend
  cases hreceiver : channel.receiver with
  | false => simp
  | true =>
      by_cases hroom : channel.queue.length < channel.capacity
      · simp [hroom]
      · have hfull : channel.queue.length = channel.capacity := by
          have hbound := channel.bounded
          omega
        simp [hfull]

@[simp] theorem trySend_senders (channel : Channel α) (value : α) :
    (channel.trySend value).2.senders = channel.senders := by
  unfold trySend
  split <;> [split; skip] <;> rfl

@[simp] theorem trySend_receiver (channel : Channel α) (value : α) :
    (channel.trySend value).2.receiver = channel.receiver := by
  unfold trySend
  split <;> [split; skip] <;> simp_all

@[simp] theorem trySend_capacity (channel : Channel α) (value : α) :
    (channel.trySend value).2.capacity = channel.capacity := by
  unfold trySend
  split <;> [split; skip] <;> rfl

/-- A send is refused as closed exactly when the receiver is gone. -/
theorem trySend_closed_iff (channel : Channel α) (value : α) :
    (channel.trySend value).1 = .closed ↔ channel.receiver = false := by
  rcases trySend_cases channel value with ⟨hr, _, hs, _⟩ | ⟨hr, _, hs⟩ | ⟨hr, hs⟩ <;> simp [hr, hs]

/-- A send is refused for want of room exactly when the receiver is alive and the queue is full. -/
theorem trySend_full_iff (channel : Channel α) (value : α) :
    (channel.trySend value).1 = .full ↔
      channel.receiver = true ∧ channel.capacity ≤ channel.queue.length := by
  rcases trySend_cases channel value with ⟨hr, hq, hs, _⟩ | ⟨hr, hq, hs⟩ | ⟨hr, hs⟩
  · simp only [hs, reduceCtorEq, false_iff, not_and]
    omega
  · simp only [hr, hs, true_and, true_iff]
    omega
  · simp [hr, hs]

/-- Everything a poll of the receiver can do. -/
theorem recv_cases (channel : Channel α) :
    (∃ value rest, channel.queue = value :: rest ∧ channel.recv.1 = .ready (some value) ∧
      channel.recv.2.queue = rest) ∨
    (channel.queue = [] ∧ channel.senders = 0 ∧ channel.recv = (.ready none, channel)) ∨
    (channel.queue = [] ∧ 0 < channel.senders ∧ channel.recv = (.pending, channel)) := by
  unfold recv
  split
  case h_1 value rest hqueue => exact .inl ⟨value, rest, hqueue, rfl, rfl⟩
  case h_2 hqueue =>
      by_cases hsenders : channel.senders = 0
      · exact .inr (.inl ⟨hqueue, hsenders, by simp [hsenders]⟩)
      · exact .inr (.inr ⟨hqueue, by omega, by simp [hsenders]⟩)

@[simp] theorem recv_senders (channel : Channel α) :
    channel.recv.2.senders = channel.senders := by
  unfold recv
  split <;> rfl

@[simp] theorem recv_receiver (channel : Channel α) :
    channel.recv.2.receiver = channel.receiver := by
  unfold recv
  split <;> rfl

@[simp] theorem recv_capacity (channel : Channel α) :
    channel.recv.2.capacity = channel.capacity := by
  unfold recv
  split <;> rfl

/-- A channel with a sender left never reports its end. -/
theorem recv_ne_end {channel : Channel α} (h : 0 < channel.senders) :
    channel.recv.1 ≠ .ready none := by
  rcases recv_cases channel with ⟨_, _, _, hr, _⟩ | ⟨_, hs, _⟩ | ⟨_, _, hr⟩
  · simp [hr]
  · omega
  · simp [hr]

/-- Two channels are equal when their observable parts are. -/
theorem ext_parts {first second : Channel α} (hcapacity : first.capacity = second.capacity)
    (hqueue : first.queue = second.queue) (hsenders : first.senders = second.senders)
    (hreceiver : first.receiver = second.receiver) : first = second := by
  cases first
  cases second
  simp_all

end Channel

end Unbounded.Tokio
