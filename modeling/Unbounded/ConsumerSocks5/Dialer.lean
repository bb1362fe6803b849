import Unbounded.ConsumerQuic.Publication
import Unbounded.ConsumerSocks5.Handshake
import Unbounded.Tokio.Conversation

/-!
# Dialing through a QUIC connection

`connect_socks5` of `src/consumer_socks5.rs`: open a stream on the connection that a broker has
published, and do the SOCKS5 handshake on it, unless the caller's token is cancelled. Any number of
calls run beside the broker, each waits at every read and write of its handshake, and each may be
cancelled or dropped there.

Where a call waits in its handshake is a conversation of `socks5Script`, which is `socks5_connect`
cut at its await points.
-/

namespace Unbounded.ConsumerSocks5

open Execution (Next)
open ConsumerQuic (Broker DialOp QuicError)
open Tokio (Conversation)

/-! ## Calls beside a broker -/

/-- `ConsumerSocks5Error`, with the errors of the handshake in one group. -/
inductive ConsumerSocks5Error where
  | quic (error : QuicError)
  | cancelled
  | handshake (error : Socks5Error)
  deriving DecidableEq

/-- Where a call of `connect_socks5` is. -/
inductive CallControl where
  /-- In `open_bi`. -/
  | opening
  /-- In the `select!` around the handshake, with the connection of the stream. The token is looked
  at when a poll begins, and not again before it ends. -/
  | handshaking (connection : Nat) (polled : Bool) (conversation : Conversation Socks5Error Unit)
  /-- A stream on a connection, or an error. -/
  | returned (result : Except ConsumerSocks5Error Nat)
  /-- The owner dropped the call. -/
  | dropped

/-- A call of `connect_socks5`, with the number of its call of `open_bi` and the state of its token.
-/
structure Call where
  dial : Nat
  target : Socks5Target
  cancelled : Bool
  control : CallControl

/-- A broker with all calls of `connect_socks5` that ever began. -/
structure Dialer where
  broker : Broker
  calls : List Call

/-- Go on with the handshake, or return its result. -/
def CallControl.settle (connection : Nat) : Conversation Socks5Error Unit → CallControl
  | .finished (.ok ()) => .returned (.ok connection)
  | .finished (.error error) => .returned (.error (.handshake error))
  | conversation => .handshaking connection true conversation

/-- Go on with the result of `open_bi`. The `select!` looks at the token before the handshake. -/
def Call.afterOpening (call : Call) : ConsumerQuic.OpenResult → CallControl
  | .ok connection =>
      if call.cancelled then .returned (.error .cancelled)
      else .settle connection (socks5Script call.target).start
  | .error .cancelled => .returned (.error .cancelled)
  | .error error => .returned (.error (.quic error))

/-- What a call of `open_bi` can see of the token of its caller. -/
def Call.shows (call : Call) : DialOp → Bool
  | .read => true
  | .pollOpen cancelled _ _ | .pollChanged cancelled => cancelled = call.cancelled
  | .drop => false

namespace Dialer

/-- A broker before its first connection and its first call. -/
def new : Dialer :=
  ⟨.new, []⟩

/-- What can happen to a broker and its callers. -/
inductive Op where
  /-- A step of the broker, or of a call of `open_bi` by somebody else. -/
  | broker (op : ConsumerQuic.Op)
  /-- Somebody calls `connect_socks5`, with a receiver that has seen some version. -/
  | connect (seen : Nat) (target : Socks5Target) (cancelled : Bool)
  /-- Somebody cancels the token of a call. -/
  | cancel (index : Nat)
  /-- A step of the call's `open_bi`. -/
  | dial (index : Nat) (op : DialOp)
  /-- `open_bi` has returned. -/
  | opened (index : Nat)
  /-- A poll of the `select!` begins. -/
  | poll (index : Nat)
  | stream (index : Nat) (input : Conversation.Input)
  /-- A poll ends, as the stream is not ready. -/
  | pending (index : Nat)
  | drop (index : Nat)

/-- What a step does: a step of the broker and its dialers, and a transfer on the stream of a call.
-/
structure Out where
  performed : Option (ConsumerQuic.Op × Option ConsumerQuic.Event)
  transfer : Option (Nat × Conversation.Transfer)

/-- The step does not belong to the `open_bi` of a call. -/
def foreign (dialer : Dialer) : ConsumerQuic.Op → Bool
  | .dial index _ => dialer.calls.all (·.dial ≠ index)
  | _ => true

/-- Perform a step of the broker and its dialers. -/
def perform (dialer : Dialer) (op : ConsumerQuic.Op) (calls : List Call) :
    Option (Out × Dialer) :=
  (ConsumerQuic.next dialer.broker op).map fun (event, broker) ↦
    (⟨some (op, event), none⟩, ⟨broker, calls⟩)

/-- Move a call to another place. -/
def move (dialer : Dialer) (index : Nat) (call : Call) (control : CallControl) : Dialer :=
  ⟨dialer.broker, dialer.calls.set index { call with control := control }⟩

/-- One step of a broker and its callers. -/
def next : Next Dialer Op Out
  | dialer, .broker op => if dialer.foreign op then dialer.perform op dialer.calls else none
  | dialer, .connect seen target cancelled =>
      dialer.perform (.openBi seen)
        (dialer.calls ++ [⟨dialer.broker.dials.length, target, cancelled, .opening⟩])
  | dialer, .cancel index =>
      dialer.calls[index]?.map fun call ↦
        (⟨none, none⟩,
          ⟨dialer.broker, dialer.calls.set index { call with cancelled := true }⟩)
  | dialer, .dial index op =>
      dialer.calls[index]?.bind fun call ↦ match call.control with
        | .opening =>
            if call.shows op then dialer.perform (.dial call.dial op) dialer.calls else none
        | _ => none
  | dialer, .opened index =>
      dialer.calls[index]?.bind fun call ↦
        match call.control, dialer.broker.dials[call.dial]? with
        | .opening, some ⟨_, .returned result⟩ =>
            some (⟨none, none⟩, dialer.move index call (call.afterOpening result))
        | _, _ => none
  | dialer, .poll index =>
      dialer.calls[index]?.bind fun call ↦ match call.control with
        | .handshaking connection false conversation =>
            some (⟨none, none⟩, dialer.move index call
              (if call.cancelled then .returned (.error .cancelled)
                else .handshaking connection true conversation))
        | _ => none
  | dialer, .stream index input =>
      dialer.calls[index]?.bind fun call ↦ match call.control with
        | .handshaking connection true conversation =>
            (Conversation.next .io conversation input).map fun (transfer, following) ↦
              (⟨none, some (index, transfer)⟩,
                dialer.move index call (.settle connection following))
        | _ => none
  | dialer, .pending index =>
      dialer.calls[index]?.bind fun call ↦ match call.control with
        | .handshaking connection true conversation =>
            some (⟨none, none⟩,
              dialer.move index call (.handshaking connection false conversation))
        | _ => none
  | dialer, .drop index =>
      dialer.calls[index]?.bind fun call ↦ match call.control with
        | .opening => dialer.perform (.dial call.dial .drop)
            (dialer.calls.set index { call with control := .dropped })
        | .handshaking _ false _ => some (⟨none, none⟩, dialer.move index call .dropped)
        | _ => none

/-- A log of a broker and its callers. -/
abbrev Log := Execution.Log Op Out

/-- Executions of a broker and its callers. -/
abbrev Exec := Execution.Exec next

/-- The log of the broker and its dialers. -/
def brokerLog (log : Log) : ConsumerQuic.Log :=
  log.filterMap fun entry ↦ entry.2.performed

/-- What went over the stream of a call, newest first. -/
def transfers (index : Nat) (log : Log) : List Conversation.Transfer :=
  log.filterMap fun entry ↦ match entry.2.transfer with
    | some (other, transfer) => if other = index then some transfer else none
    | none => none

/-- What a call has read from its stream, in the chunks in which it was read. -/
def received (index : Nat) (log : Log) : List Bytes :=
  Conversation.reads (transfers index log)

/-- What a call has written to its stream. -/
def written (index : Nat) (log : Log) : Bytes :=
  Conversation.writes (transfers index log)

/-- Everything a step can be. -/
inductive Change (dialer : Dialer) : Op → Out → Dialer → Prop where
  | broker {op event broker} (hforeign : dialer.foreign op = true)
      (hnext : ConsumerQuic.next dialer.broker op = some (event, broker)) :
      Change dialer (.broker op) ⟨some (op, event), none⟩ ⟨broker, dialer.calls⟩
  | connect {seen target cancelled event broker}
      (hnext : ConsumerQuic.next dialer.broker (.openBi seen) = some (event, broker)) :
      Change dialer (.connect seen target cancelled) ⟨some (.openBi seen, event), none⟩
        ⟨broker, dialer.calls ++ [⟨dialer.broker.dials.length, target, cancelled, .opening⟩]⟩
  | cancel {index call} (hcall : dialer.calls[index]? = some call) :
      Change dialer (.cancel index) ⟨none, none⟩
        ⟨dialer.broker, dialer.calls.set index { call with cancelled := true }⟩
  | dial {index op event broker} {call : Call} (hcall : dialer.calls[index]? = some call)
      (hcontrol : call.control = .opening) (hshows : call.shows op = true)
      (hnext : ConsumerQuic.next dialer.broker (.dial call.dial op) = some (event, broker)) :
      Change dialer (.dial index op) ⟨some (.dial call.dial op, event), none⟩
        ⟨broker, dialer.calls⟩
  | opened {index seen result} {call : Call} (hcall : dialer.calls[index]? = some call)
      (hcontrol : call.control = .opening)
      (hdial : dialer.broker.dials[call.dial]? = some ⟨seen, .returned result⟩) :
      Change dialer (.opened index) ⟨none, none⟩
        (dialer.move index call (call.afterOpening result))
  | poll {index connection conversation} {call : Call} (hcall : dialer.calls[index]? = some call)
      (hcontrol : call.control = .handshaking connection false conversation)
      (hcancelled : call.cancelled = false) :
      Change dialer (.poll index) ⟨none, none⟩
        (dialer.move index call (.handshaking connection true conversation))
  | interrupted {index connection conversation} {call : Call}
      (hcall : dialer.calls[index]? = some call)
      (hcontrol : call.control = .handshaking connection false conversation)
      (hcancelled : call.cancelled = true) :
      Change dialer (.poll index) ⟨none, none⟩
        (dialer.move index call (.returned (.error .cancelled)))
  | stream {index input connection conversation transfer following} {call : Call}
      (hcall : dialer.calls[index]? = some call)
      (hcontrol : call.control = .handshaking connection true conversation)
      (hnext : Conversation.next .io conversation input = some (transfer, following)) :
      Change dialer (.stream index input) ⟨none, some (index, transfer)⟩
        (dialer.move index call (.settle connection following))
  | pending {index connection conversation} {call : Call}
      (hcall : dialer.calls[index]? = some call)
      (hcontrol : call.control = .handshaking connection true conversation) :
      Change dialer (.pending index) ⟨none, none⟩
        (dialer.move index call (.handshaking connection false conversation))
  | dropOpening {index event broker} {call : Call} (hcall : dialer.calls[index]? = some call)
      (hcontrol : call.control = .opening)
      (hnext : ConsumerQuic.next dialer.broker (.dial call.dial .drop) = some (event, broker)) :
      Change dialer (.drop index) ⟨some (.dial call.dial .drop, event), none⟩
        ⟨broker, dialer.calls.set index { call with control := .dropped }⟩
  | dropHandshaking {index connection conversation} {call : Call}
      (hcall : dialer.calls[index]? = some call)
      (hcontrol : call.control = .handshaking connection false conversation) :
      Change dialer (.drop index) ⟨none, none⟩ (dialer.move index call .dropped)

variable {dialer following : Dialer}

/-- Performing a step is a step of the broker and its dialers. -/
theorem perform_eq_some {op : ConsumerQuic.Op} {calls : List Call} {out : Out}
    (h : dialer.perform op calls = some (out, following)) :
    ∃ event broker, ConsumerQuic.next dialer.broker op = some (event, broker) ∧
      out = ⟨some (op, event), none⟩ ∧ following = ⟨broker, calls⟩ := by
  simp only [perform, Option.map_eq_some_iff, Prod.mk.injEq] at h
  obtain ⟨⟨event, broker⟩, hnext, rfl, rfl⟩ := h
  exact ⟨event, broker, hnext, rfl, rfl⟩

/-- Every step of a dialer is a `Change`. -/
theorem change_of_next {op : Op} {out : Out} (h : next dialer op = some (out, following)) :
    Change dialer op out following := by
  cases op with
  | broker op =>
      simp only [next] at h
      split at h
      case isFalse => simp at h
      case isTrue hforeign =>
        obtain ⟨event, broker, hnext, rfl, rfl⟩ := perform_eq_some h
        exact .broker hforeign hnext
  | connect seen target cancelled =>
      obtain ⟨event, broker, hnext, rfl, rfl⟩ := perform_eq_some h
      exact .connect hnext
  | cancel index =>
      simp only [next, Option.map_eq_some_iff, Prod.mk.injEq] at h
      obtain ⟨call, hcall, rfl, rfl⟩ := h
      exact .cancel hcall
  | dial index op =>
      simp only [next, Option.bind_eq_some_iff] at h
      obtain ⟨call, hcall, h⟩ := h
      split at h
      case h_2 => simp at h
      case h_1 hcontrol =>
        split at h
        case isFalse => simp at h
        case isTrue hshows =>
          obtain ⟨event, broker, hnext, rfl, rfl⟩ := perform_eq_some h
          exact .dial hcall hcontrol hshows hnext
  | opened index =>
      simp only [next, Option.bind_eq_some_iff] at h
      obtain ⟨call, hcall, h⟩ := h
      split at h
      case h_2 => simp at h
      case h_1 hcontrol hdial =>
        simp only [Option.some.injEq, Prod.mk.injEq] at h
        obtain ⟨rfl, rfl⟩ := h
        exact .opened hcall hcontrol hdial
  | poll index =>
      simp only [next, Option.bind_eq_some_iff] at h
      obtain ⟨call, hcall, h⟩ := h
      split at h
      case h_2 => simp at h
      case h_1 hcontrol =>
        simp only [Option.some.injEq, Prod.mk.injEq] at h
        obtain ⟨rfl, rfl⟩ := h
        split
        case isTrue hcancelled => exact .interrupted hcall hcontrol hcancelled
        case isFalse hcancelled => exact .poll hcall hcontrol (by simpa using hcancelled)
  | stream index input =>
      simp only [next, Option.bind_eq_some_iff] at h
      obtain ⟨call, hcall, h⟩ := h
      split at h
      case h_2 => simp at h
      case h_1 hcontrol =>
        simp only [Option.map_eq_some_iff, Prod.mk.injEq] at h
        obtain ⟨⟨transfer, following⟩, hnext, rfl, rfl⟩ := h
        exact .stream hcall hcontrol hnext
  | pending index =>
      simp only [next, Option.bind_eq_some_iff] at h
      obtain ⟨call, hcall, h⟩ := h
      split at h
      case h_2 => simp at h
      case h_1 hcontrol =>
        simp only [Option.some.injEq, Prod.mk.injEq] at h
        obtain ⟨rfl, rfl⟩ := h
        exact .pending hcall hcontrol
  | drop index =>
      simp only [next, Option.bind_eq_some_iff] at h
      obtain ⟨call, hcall, h⟩ := h
      split at h
      case h_3 => simp at h
      case h_1 hcontrol =>
        obtain ⟨event, broker, hnext, rfl, rfl⟩ := perform_eq_some h
        exact .dropOpening hcall hcontrol hnext
      case h_2 hcontrol =>
        simp only [Option.some.injEq, Prod.mk.injEq] at h
        obtain ⟨rfl, rfl⟩ := h
        exact .dropHandshaking hcall hcontrol

end Dialer

end Unbounded.ConsumerSocks5
