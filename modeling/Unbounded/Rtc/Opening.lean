import Unbounded.Execution.Machine
import Unbounded.Rtc.Connection

/-!
# The wait for an open DataChannel

A session waits on a oneshot channel for its DataChannel. The only sender of that channel is in a
cell that the callbacks of the connection share, a `DataChannelWaitSender`, and whichever callback
takes it from there may send one result. `DataChannelWait` is the cell together with what was sent.

`decision` says what the wait is for: the first event that decides, decides. An open decides if the
channel has the label of the data channel, and a connection state if it is a terminal one.
-/

namespace Unbounded.Rtc

/-- `DATA_CHANNEL_LABEL`. -/
def dataChannelLabel : String := "data"

/-- What a session waits for: the datagrams of a channel, named by the channel, or the state of the
connection that ended the wait. -/
abbrev Opening := Except PeerConnectionState Nat

/-- `DataChannelWaitSender` with its oneshot channel. -/
structure DataChannelWait where
  /-- The sender is in the cell. -/
  sender : Bool
  /-- What was sent, oldest first. -/
  results : List Opening
  /-- The sender was dropped before it sent anything. -/
  dropped : Bool
  deriving DecidableEq, Repr

namespace DataChannelWait

/-- A new wait. -/
def new : DataChannelWait :=
  ⟨true, [], false⟩

/-- `lock().unwrap().take()`: the sender is taken out of the cell. -/
def take (wait : DataChannelWait) : DataChannelWait :=
  { wait with sender := false }

/-- `tx.send(result)`. -/
def send (wait : DataChannelWait) (result : Opening) : DataChannelWait :=
  { wait with results := wait.results ++ [result] }

/-- A sender that was taken is dropped unsent. -/
def abandon (wait : DataChannelWait) : DataChannelWait :=
  { wait with dropped := true }

/-- Take the sender, and send if there was one. -/
def takeAndSend (wait : DataChannelWait) (result : Opening) : DataChannelWait :=
  if wait.sender then wait.take.send result else wait

/-- `fail_data_channel_wait`, and the same lines in `src/consumer.rs`. -/
def failDataChannelWait (wait : DataChannelWait) (state : PeerConnectionState) : DataChannelWait :=
  if isTerminalPeerState state then wait.takeAndSend (.error state) else wait

/-- The callbacks are dropped, and with them the cell and a sender that is still in it. -/
def release (wait : DataChannelWait) : DataChannelWait :=
  if wait.sender then wait.take.abandon else wait

/-- What the session finds when it polls the receiver. -/
def outcome (wait : DataChannelWait) : Option ChannelWait :=
  match wait.results with
  | .ok _ :: _ => some .opened
  | .error state :: _ => some (.ended state)
  | [] => if wait.dropped then some .closed else none

/-- One result was sent. -/
def settled (result : Opening) : DataChannelWait :=
  ⟨false, [result], false⟩

/-- A connection state has no effect on a wait without a sender. -/
theorem failDataChannelWait_of_sender {wait : DataChannelWait} (h : wait.sender = false)
    (state : PeerConnectionState) : wait.failDataChannelWait state = wait := by
  unfold failDataChannelWait takeAndSend
  rw [h]
  exact ite_self wait

/-- A connection state never puts a sender into the cell. -/
theorem sender_of_failDataChannelWait {wait : DataChannelWait} {state : PeerConnectionState}
    (h : (wait.failDataChannelWait state).sender = true) : wait.sender = true := by
  cases hsender : wait.sender with
  | true => rfl
  | false => rwa [failDataChannelWait_of_sender hsender, hsender] at h

/-- A terminal state settles a new wait. -/
theorem failDataChannelWait_new_of_terminal {state : PeerConnectionState}
    (h : isTerminalPeerState state = true) :
    new.failDataChannelWait state = settled (.error state) :=
  if_pos h

/-- A state that is not terminal leaves a new wait as it is. -/
theorem failDataChannelWait_new_of_not_terminal {state : PeerConnectionState}
    (h : ¬ isTerminalPeerState state = true) : new.failDataChannelWait state = new :=
  if_neg h

/-- A settled wait has an outcome, and it is not that the sender is gone. -/
theorem outcome_settled (result : Opening) : (settled result).outcome ≠ some .closed := by
  cases result <;> exact fun hclosed ↦ nomatch hclosed

end DataChannelWait

/-! ## What decides -/

/-- What a callback is called for: a channel opened, or the connection changed its state. -/
inductive Event where
  | opened (channel : Nat) (label : String)
  | state (connection : PeerConnectionState)
  deriving DecidableEq, Repr

/-- What an event decides, if no event before it did. -/
def Event.decides : Event → Option Opening
  | .opened channel label => if label = dataChannelLabel then some (.ok channel) else none
  | .state connection =>
      if isTerminalPeerState connection then some (.error connection) else none

/-- The open of a data channel decides the wait. -/
theorem Event.decides_data_channel (channel : Nat) :
    (Event.opened channel dataChannelLabel).decides = some (.ok channel) := by
  simp only [Event.decides, if_true]

/-- The open of a channel with another label decides nothing. -/
theorem Event.decides_other_channel {channel : Nat} {label : String}
    (h : label ≠ dataChannelLabel) : (Event.opened channel label).decides = none :=
  if_neg h

/-- A terminal state decides the wait. -/
theorem Event.decides_terminal {connection : PeerConnectionState}
    (h : isTerminalPeerState connection = true) :
    (Event.state connection).decides = some (.error connection) :=
  if_pos h

/-- A state that is not terminal decides nothing. -/
theorem Event.decides_not_terminal {connection : PeerConnectionState}
    (h : ¬ isTerminalPeerState connection = true) : (Event.state connection).decides = none :=
  if_neg h

/-- What events decide, oldest first. -/
def decision (events : List Event) : Option Opening :=
  events.findSome? Event.decides

/-- An event decides only what was open. -/
theorem decision_append (events : List Event) (event : Event) :
    decision (events ++ [event]) = (decision events).or event.decides := by
  simp [decision, List.findSome?_append]

section Events

variable {Op : Type}

/-- The events of a log, oldest first. -/
def events (log : Execution.Log Op (Option Event)) : List Event :=
  (log.filterMap Prod.snd).reverse

/-- A step without an event. -/
@[simp]
theorem events_cons_none (op : Op) (log : Execution.Log Op (Option Event)) :
    events ((op, none) :: log) = events log :=
  rfl

/-- A step with an event. -/
@[simp]
theorem events_cons_some (op : Op) (event : Event) (log : Execution.Log Op (Option Event)) :
    events ((op, some event) :: log) = events log ++ [event] := by
  simp [events]

/-- What was decided stays decided. -/
theorem decision_cons_of_some {log : Execution.Log Op (Option Event)} {result : Opening}
    (h : decision (events log) = some result) (op : Op) (event : Option Event) :
    decision (events ((op, event) :: log)) = some result := by
  cases event with
  | none => exact h
  | some event => rw [events_cons_some, decision_append, h, Option.some_or]

/-- An event is the first that decides. -/
theorem decision_cons_of_none {log : Execution.Log Op (Option Event)}
    (h : decision (events log) = none) (op : Op) (event : Event) :
    decision (events ((op, some event) :: log)) = event.decides := by
  rw [events_cons_some, decision_append, h, Option.none_or]

end Events

end Unbounded.Rtc
