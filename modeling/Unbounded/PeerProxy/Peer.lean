import Unbounded.Execution.Slots
import Unbounded.PeerProxy.Callbacks

/-!
# A peer-proxy session with its callbacks

The session future and the state callbacks of one `run_peer_proxy_until_cancelled`. WebRTC may call
the handler at any time once the connection exists, also after the session has returned, and the
bodies of the callbacks overlap with each other and with the session in any way. The session
publishes its ID for the callbacks, and nothing else of it is visible to them.
-/

namespace Unbounded.PeerProxy

open Execution (Next)
open Rtc (PeerConnectionState)
open Supervisor (SupervisorEvent)

/-- The session ID that is visible after an effect of the session. -/
def Effect.visible : Effect → Option String → Option String
  | .publish id, _ => some id
  | _, visible => visible

/-- The callbacks see the ID that the session publishes. -/
def Shared.after (shared : Shared) (effect : Effect) : Shared :=
  { shared with sessionId := effect.visible shared.sessionId }

/-- A session and the callback bodies of its connection. -/
structure Peer where
  control : Control
  shared : Shared
  callbacks : List Callback

namespace Peer

/-- A session that has just been called, with or without an event sender. -/
def new (events : Bool) : Peer :=
  ⟨.connecting, .new events, []⟩

/-- What can happen to a session. -/
inductive Op where
  /-- The session goes on with what it awaited. -/
  | session (input : Input)
  /-- WebRTC calls the handler. -/
  | call (state : PeerConnectionState)
  /-- A step of a callback body, where `remote` is the address of the selected pair. -/
  | body (callback : Nat) (remote : Option SocketAddr)
  /-- WebRTC drops a callback body where it awaits, or before it has started. -/
  | dropBody (callback : Nat)

/-- What a step does to the outside, and the event that it sends. -/
structure Out where
  effect : Effect
  event : Option SupervisorEvent

/-- One step of a session or of one of its callbacks. -/
def next (codec : Codec) : Next Peer Op Out
  | peer, .session input =>
      (peer.control.next codec input).map fun (effect, control) ↦
        (⟨effect, none⟩,
          { peer with control := control, shared := peer.shared.after effect })
  | peer, .call state =>
      if peer.control = .connecting then none
      else some (⟨.none, none⟩, { peer with callbacks := peer.callbacks ++ [.enter state] })
  | peer, .body index remote =>
      peer.callbacks[index]?.bind fun callback ↦
        (callback.next peer.shared remote).map fun (event, shared, moved) ↦
          (⟨.none, event⟩,
            { peer with shared := shared, callbacks := peer.callbacks.set index moved })
  | peer, .dropBody index =>
      peer.callbacks[index]?.bind fun callback ↦
        if callback.stage = .entered ∨ callback.stage = .pairing then
          some (⟨.none, none⟩,
            { peer with callbacks := peer.callbacks.set index { callback with stage := .dropped } })
        else none

/-- A log of a session. -/
abbrev Log := Execution.Log Op Out

/-- Executions of a session. -/
abbrev Exec (codec : Codec) := Execution.Exec (next codec)

/-- The events that a session's callbacks sent, newest first. -/
def events (log : Log) : List SupervisorEvent :=
  log.filterMap fun entry ↦ entry.2.event

/-- What a session did to the outside, newest first. -/
def effects (log : Log) : List Effect :=
  log.map fun entry ↦ entry.2.effect

/-- The events of a log with one more step. -/
theorem events_cons {op : Op} {out : Out} {log : Log} :
    events ((op, out) :: log) = out.event.toList ++ events log := by
  cases hevent : out.event <;> simp [events, hevent]

variable {codec : Codec} {peer following : Peer}

/-- Everything a step can be. -/
inductive Change (codec : Codec) (peer : Peer) : Op → Out → Peer → Prop where
  | session {input effect control}
      (hnext : peer.control.next codec input = some (effect, control)) :
      Change codec peer (.session input) ⟨effect, none⟩
        { peer with control := control, shared := peer.shared.after effect }
  | call {state} (hconnected : peer.control ≠ .connecting) :
      Change codec peer (.call state) ⟨.none, none⟩
        { peer with callbacks := peer.callbacks ++ [.enter state] }
  | body {index remote callback event shared moved}
      (hcallback : peer.callbacks[index]? = some callback)
      (hnext : callback.next peer.shared remote = some (event, shared, moved)) :
      Change codec peer (.body index remote) ⟨.none, event⟩
        { peer with shared := shared, callbacks := peer.callbacks.set index moved }
  | dropBody {index callback} (hcallback : peer.callbacks[index]? = some callback)
      (hstage : callback.stage = .entered ∨ callback.stage = .pairing) :
      Change codec peer (.dropBody index) ⟨.none, none⟩
        { peer with callbacks := peer.callbacks.set index { callback with stage := .dropped } }

/-- Every step of a session and its callbacks is a `Change`. -/
theorem change_of_next {op : Op} {out : Out} (h : next codec peer op = some (out, following)) :
    Change codec peer op out following := by
  cases op with
  | session input =>
      simp only [next, Option.map_eq_some_iff, Prod.mk.injEq] at h
      obtain ⟨⟨effect, control⟩, hnext, rfl, rfl⟩ := h
      exact .session hnext
  | call state =>
      simp only [next] at h
      split at h
      case isTrue => simp at h
      case isFalse hconnected =>
        simp only [Option.some.injEq, Prod.mk.injEq] at h
        obtain ⟨rfl, rfl⟩ := h
        exact .call hconnected
  | body index remote =>
      simp only [next, Option.bind_eq_some_iff, Option.map_eq_some_iff, Prod.mk.injEq] at h
      obtain ⟨callback, hcallback, ⟨event, shared, moved⟩, hnext, rfl, rfl⟩ := h
      exact .body hcallback hnext
  | dropBody index =>
      simp only [next, Option.bind_eq_some_iff] at h
      obtain ⟨callback, hcallback, hdrop⟩ := h
      split at hdrop
      case isFalse => simp at hdrop
      case isTrue hstage =>
        simp only [Option.some.injEq, Prod.mk.injEq] at hdrop
        obtain ⟨rfl, rfl⟩ := hdrop
        exact .dropBody hcallback hstage

end Peer

end Unbounded.PeerProxy
