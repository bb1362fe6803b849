import Unbounded.Execution.Slots
import Unbounded.Execution.Machine
import Unbounded.Tokio.Watch

/-!
# The QUIC connection broker and its dialers

`ConsumerQuicBroker::run` and `ConsumerQuicDialer::open_bi` of `src/consumer_quic.rs`. The broker
accepts one connection after another and publishes the current one on a watch channel, which any
number of calls of `open_bi` read. The broker moves from one shared access to the next in its own
steps, so that a call can look at the channel between any two of them.

A connection is named by the number of connections whose handshake had succeeded before its own.
What `quinn` reports (incoming connections, handshakes, streams, the reason of a closed connection)
and the state of the cancellation tokens are inputs of the steps that look at them. Besides being
driven to its end, the future of `run` may be dropped where it waits, and so may every call.
-/

namespace Unbounded.ConsumerQuic

open Execution (Next)
open Tokio (Poll Watch)

/-- `ConsumerQuicError`. The errors of `quinn` and of the operating system are kept as text. -/
inductive QuicError where
  | endpoint (source : String)
  | closed
  | cancelled
  | handshake (source : String)
  | brokerStopped
  | stream (source : String)
  deriving DecidableEq, Repr

/-! ## The broker -/

/-- Where `run` is. `accepting` and `handshaking` are the two waits of `accept`. -/
inductive Control where
  | accepting
  | handshaking
  | publishing (connection : Nat)
  | serving (connection : Nat)
  | withdrawing
  | closing (result : Except QuicError Unit)
  | clearing (result : Except QuicError Unit)
  | leaving (result : Except QuicError Unit)
  | returned (result : Except QuicError Unit)
  | dropped
  deriving DecidableEq

/-- How `run` goes on from the result of `accept`. -/
def Control.afterAccept : Except QuicError Nat → Control
  | .ok connection => .publishing connection
  | .error .cancelled => .closing (.ok ())
  | .error (.handshake _) => .accepting
  | .error error => .closing (.error error)

/-- The wait of `accept` for an incoming connection was polled. Cancellation is looked at first. -/
def Control.afterIncoming (cancelled : Bool) (incoming : Poll (Option Unit)) : Control :=
  if cancelled then .afterAccept (.error .cancelled)
  else match incoming with
    | .pending => .accepting
    | .ready none => .afterAccept (.error .closed)
    | .ready (some ()) => .handshaking

/-- The wait for the published connection to close was polled. -/
def Control.afterServing (connection : Nat) (cancelled closed : Bool) : Control :=
  if cancelled then .closing (.ok ())
  else if closed then .withdrawing
  else .serving connection

/-- The broker with the channel it publishes on and its endpoint. -/
structure Publisher where
  watch : Watch (Option Nat)
  endpointClosed : Bool
  /-- The connections whose handshake has succeeded so far. -/
  established : Nat
  control : Control
  deriving DecidableEq

/-- A broker before its first connection. -/
def Publisher.new : Publisher where
  watch := .new none
  endpointClosed := false
  established := 0
  control := .accepting

/-- The steps of `run`. -/
inductive RunOp where
  /-- Poll the wait for an incoming connection. -/
  | pollIncoming (cancelled : Bool) (incoming : Poll (Option Unit))
  /-- Poll the wait for its handshake. -/
  | pollHandshake (cancelled : Bool) (outcome : Poll (Except String Unit))
  /-- Publish the accepted connection. -/
  | publish
  /-- Poll the wait for the published connection to close. -/
  | pollServing (cancelled : Bool) (closed : Bool)
  /-- Publish `None` after the connection closed. -/
  | withdraw
  /-- Close the endpoint before returning. -/
  | close
  /-- Publish `None` before returning. -/
  | clear
  /-- Drop the broker and return. -/
  | finish
  /-- The owner drops the future of `run` at one of its awaits. -/
  | dropRun
  /-- Another holder of the server closes its endpoint. -/
  | closeEndpoint
  deriving DecidableEq

/-- What a step of `run` shows. -/
inductive Event where
  | accepted (connection : Nat)
  | published (value : Option Nat)
  deriving DecidableEq

/-- One step of `run`. -/
def Publisher.next : Next Publisher RunOp (Option Event)
  | publisher, .pollIncoming cancelled incoming =>
      match publisher.control with
      | .accepting =>
          some (none, { publisher with control := .afterIncoming cancelled incoming })
      | _ => none
  | publisher, .pollHandshake cancelled outcome =>
      match publisher.control with
      | .handshaking =>
          if cancelled then
            some (none, { publisher with control := .afterAccept (.error .cancelled) })
          else match outcome with
            | .pending => some (none, publisher)
            | .ready (.error error) =>
                some (none, { publisher with control := .afterAccept (.error (.handshake error)) })
            | .ready (.ok ()) =>
                some (some (.accepted publisher.established), { publisher with
                  established := publisher.established + 1
                  control := .afterAccept (.ok publisher.established) })
      | _ => none
  | publisher, .publish =>
      match publisher.control with
      | .publishing connection =>
          some (some (.published (some connection)), { publisher with
            watch := publisher.watch.sendReplace (some connection)
            control := .serving connection })
      | _ => none
  | publisher, .pollServing cancelled closed =>
      match publisher.control with
      | .serving connection =>
          some (none, { publisher with control := .afterServing connection cancelled closed })
      | _ => none
  | publisher, .withdraw =>
      match publisher.control with
      | .withdrawing =>
          some (some (.published none), { publisher with
            watch := publisher.watch.sendReplace none
            control := .accepting })
      | _ => none
  | publisher, .close =>
      match publisher.control with
      | .closing result =>
          some (none, { publisher with endpointClosed := true, control := .clearing result })
      | _ => none
  | publisher, .clear =>
      match publisher.control with
      | .clearing result =>
          some (some (.published none), { publisher with
            watch := publisher.watch.sendReplace none
            control := .leaving result })
      | _ => none
  | publisher, .finish =>
      match publisher.control with
      | .leaving result =>
          some (none, { publisher with
            watch := publisher.watch.close
            control := .returned result })
      | _ => none
  | publisher, .dropRun =>
      match publisher.control with
      | .accepting | .handshaking | .serving _ =>
          some (none, { publisher with watch := publisher.watch.close, control := .dropped })
      | _ => none
  | publisher, .closeEndpoint => some (none, { publisher with endpointClosed := true })

/-! ## The calls of `open_bi` -/

/-- What `open_bi` returns: the connection on which the stream was opened, or an error. -/
abbrev OpenResult := Except QuicError Nat

/-- Where a call of `open_bi` is. -/
inductive DialControl where
  | reading
  | opening (connection : Nat)
  | waiting
  | returned (result : OpenResult)
  | dropped
  deriving DecidableEq

/-- A call of `open_bi` with the version its receiver has seen. -/
structure Dial where
  seen : Nat
  control : DialControl
  deriving DecidableEq

/-- The steps of a call. -/
inductive DialOp where
  /-- Read the current value with `borrow`. -/
  | read
  /-- Poll the opening of a stream; a failure is followed by a look at the close reason. -/
  | pollOpen (cancelled : Bool) (opened : Poll (Except String Unit)) (closeReason : Bool)
  /-- Poll the wait for a change. -/
  | pollChanged (cancelled : Bool)
  /-- The owner drops the call where it waits. -/
  | drop
  deriving DecidableEq

/-- One step of a call, on the channel as it is. -/
def Dial.step (watch : Watch (Option Nat)) : Dial → DialOp → Option Dial
  | ⟨seen, .reading⟩, .read =>
      some ⟨seen, match watch.value with
        | some connection => .opening connection
        | none => .waiting⟩
  | ⟨seen, .opening connection⟩, .pollOpen cancelled opened closeReason =>
      some ⟨seen,
        if cancelled then .returned (.error .cancelled)
        else match opened with
          | .pending => .opening connection
          | .ready (.ok ()) => .returned (.ok connection)
          | .ready (.error error) =>
              if closeReason then .waiting else .returned (.error (.stream error))⟩
  | ⟨seen, .waiting⟩, .pollChanged cancelled =>
      if cancelled then some ⟨seen, .returned (.error .cancelled)⟩
      else
        let (result, after) := watch.changed seen
        some ⟨after, match result with
          | .pending => .waiting
          | .ready (.ok ()) => .reading
          | .ready (.error ()) => .returned (.error .brokerStopped)⟩
  | ⟨seen, .opening _⟩, .drop => some ⟨seen, .dropped⟩
  | ⟨seen, .waiting⟩, .drop => some ⟨seen, .dropped⟩
  | _, _ => none

/-! ## The broker among its dialers -/

/-- A broker and all calls of `open_bi` that ever began. -/
structure Broker where
  publisher : Publisher
  dials : List Dial
  deriving DecidableEq

/-- A broker before its first connection and its first call. -/
def Broker.new : Broker :=
  ⟨.new, []⟩

/-- The steps of a broker and its dialers. -/
inductive Op where
  | run (op : RunOp)
  /-- Call `open_bi`, which clones a receiver that has seen some version. -/
  | openBi (seen : Nat)
  | dial (index : Nat) (op : DialOp)
  deriving DecidableEq

/-- One step of a broker and its dialers. -/
def next : Next Broker Op (Option Event)
  | broker, .run op =>
      (broker.publisher.next op).map fun (event, following) ↦
        (event, { broker with publisher := following })
  | broker, .openBi seen =>
      if seen ≤ broker.publisher.watch.version then
        some (none, { broker with dials := broker.dials ++ [⟨seen, .reading⟩] })
      else none
  | broker, .dial index op =>
      match broker.dials[index]? with
      | some dial =>
          (dial.step broker.publisher.watch op).map fun following ↦
            (none, { broker with dials := broker.dials.set index following })
      | none => none

/-- A log of a broker and its dialers. -/
abbrev Log := Execution.Log Op (Option Event)

/-- Executions of a broker and its dialers. -/
abbrev Exec := Execution.Exec next

end Unbounded.ConsumerQuic
