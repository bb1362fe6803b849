import Unbounded.Execution.Machine
import Unbounded.Supervisor.Event

/-!
# The state callbacks of a peer connection

The `on_peer_connection_state_change` handler of `run_peer_proxy_until_cancelled`. WebRTC calls it
with every state of the connection, and every call makes a body that runs by itself. `Callback.next`
is one step of a body between two accesses to what the bodies share, so that bodies may overlap in
any way. `handle` is a body that runs alone, from its start to its end (`handle_eq_run`).
-/

namespace Unbounded.PeerProxy

open Rtc (PeerConnectionState isTerminalPeerState)
open Supervisor (SupervisorEvent)

/-- What the callback bodies of a connection share, with the session that publishes its ID. -/
structure Shared where
  /-- The session has an event sender. -/
  events : Bool
  sessionId : Option String
  connectEmitted : Bool
  disconnectEmitted : Bool
  deriving DecidableEq, Repr

/-- What a new session shares with its callbacks. -/
def Shared.new (events : Bool) : Shared :=
  ⟨events, none, false, false⟩

/-- `is_disconnect_state`. -/
def isDisconnectState (state : PeerConnectionState) : Bool :=
  isTerminalPeerState state

/-- Where a callback body is. -/
inductive Stage where
  /-- The body was not polled yet. -/
  | entered
  /-- Before `connect_emitted.store(true)`. -/
  | storing
  /-- Awaiting the selected candidate pair. -/
  | pairing
  /-- Before `connect_emitted.load()`. -/
  | loading
  /-- Before `disconnect_emitted.swap(true)`. -/
  | swapping
  /-- Before a `PeerDisconnected` is sent. -/
  | sending
  | done
  /-- WebRTC dropped the body. -/
  | dropped
  deriving DecidableEq, Repr

/-- A callback body with the connection state it was called with and the session ID it has read. -/
structure Callback where
  state : PeerConnectionState
  sessionId : Option String
  stage : Stage
  deriving DecidableEq, Repr

/-- A body that WebRTC has just made. -/
def Callback.enter (state : PeerConnectionState) : Callback :=
  ⟨state, none, .entered⟩

/-- The body reads the session ID, and goes on when there is one to report about. -/
def Callback.read (shared : Shared) (state : PeerConnectionState) : Callback :=
  if shared.events then
    match shared.sessionId with
    | none => ⟨state, none, .done⟩
    | some id => ⟨state, some id,
        if state = .connected then .storing
        else if isDisconnectState state then .loading
        else .done⟩
  else ⟨state, none, .done⟩

/-- One step of a body, with the event it sends. `remote` is the address that the selected candidate
pair has, which is read when the body awaits that pair. -/
def Callback.next (shared : Shared) (remote : Option SocketAddr) :
    Callback → Option (Option SupervisorEvent × Shared × Callback)
  | ⟨state, _, .entered⟩ => some (none, shared, read shared state)
  | ⟨state, id, .storing⟩ =>
      some (none, { shared with connectEmitted := true }, ⟨state, id, .pairing⟩)
  | ⟨state, some id, .pairing⟩ =>
      some (some (.peerConnected id remote), shared, ⟨state, some id, .done⟩)
  | ⟨state, id, .loading⟩ =>
      some (none, shared, ⟨state, id, if shared.connectEmitted then .swapping else .done⟩)
  | ⟨state, id, .swapping⟩ =>
      some (none, { shared with disconnectEmitted := true },
        ⟨state, id, if shared.disconnectEmitted then .done else .sending⟩)
  | ⟨state, some id, .sending⟩ =>
      some (some (.peerDisconnected id), shared, ⟨state, some id, .done⟩)
  | _ => none

/-- Everything a step of a body can be. -/
inductive Body (shared : Shared) (remote : Option SocketAddr) :
    Callback → Option SupervisorEvent → Shared → Callback → Prop where
  /-- There is no event sender or no session ID. -/
  | unreported {state seen} (hshared : shared.events = false ∨ shared.sessionId = none) :
      Body shared remote ⟨state, seen, .entered⟩ none shared ⟨state, none, .done⟩
  | ignored {state seen id} (hid : shared.sessionId = some id) (hstate : state ≠ .connected) :
      Body shared remote ⟨state, seen, .entered⟩ none shared ⟨state, some id, .done⟩
  | begin {seen id} (hid : shared.sessionId = some id) :
      Body shared remote ⟨.connected, seen, .entered⟩ none shared ⟨.connected, some id, .storing⟩
  | terminal {state seen id} (hid : shared.sessionId = some id) (hstate : state ≠ .connected) :
      Body shared remote ⟨state, seen, .entered⟩ none shared ⟨state, some id, .loading⟩
  | store {state id} :
      Body shared remote ⟨state, id, .storing⟩ none { shared with connectEmitted := true }
        ⟨state, id, .pairing⟩
  | connect {state id} :
      Body shared remote ⟨state, some id, .pairing⟩ (some (.peerConnected id remote)) shared
        ⟨state, some id, .done⟩
  | load {state id} (hconnect : shared.connectEmitted = true) :
      Body shared remote ⟨state, id, .loading⟩ none shared ⟨state, id, .swapping⟩
  | unconnected {state id} :
      Body shared remote ⟨state, id, .loading⟩ none shared ⟨state, id, .done⟩
  | swap {state id} (hdisconnect : shared.disconnectEmitted = false) :
      Body shared remote ⟨state, id, .swapping⟩ none { shared with disconnectEmitted := true }
        ⟨state, id, .sending⟩
  /-- Another body has reported the disconnect. -/
  | repeated {state id} (hdisconnect : shared.disconnectEmitted = true) :
      Body shared remote ⟨state, id, .swapping⟩ none { shared with disconnectEmitted := true }
        ⟨state, id, .done⟩
  | disconnect {state id} :
      Body shared remote ⟨state, some id, .sending⟩ (some (.peerDisconnected id)) shared
        ⟨state, some id, .done⟩

/-- Every step of the body of a callback is a `Body`. -/
theorem body_of_next {shared following : Shared} {remote : Option SocketAddr}
    {callback moved : Callback} {event : Option SupervisorEvent}
    (h : callback.next shared remote = some (event, following, moved)) :
    Body shared remote callback event following moved := by
  unfold Callback.next at h
  split at h
  case h_1 state seen =>
    simp only [Option.some.injEq, Prod.mk.injEq] at h
    obtain ⟨rfl, rfl, rfl⟩ := h
    unfold Callback.read
    cases hevents : shared.events with
    | false => exact .unreported (.inl hevents)
    | true =>
        cases hid : shared.sessionId with
        | none => exact .unreported (.inr hid)
        | some id =>
            by_cases hconnected : state = .connected
            · subst hconnected
              exact .begin hid
            · simp only [if_true, hconnected, if_false]
              split
              · exact .terminal hid hconnected
              · exact .ignored hid hconnected
  case h_2 =>
    simp only [Option.some.injEq, Prod.mk.injEq] at h
    obtain ⟨rfl, rfl, rfl⟩ := h
    exact .store
  case h_3 =>
    simp only [Option.some.injEq, Prod.mk.injEq] at h
    obtain ⟨rfl, rfl, rfl⟩ := h
    exact .connect
  case h_4 =>
    simp only [Option.some.injEq, Prod.mk.injEq] at h
    obtain ⟨rfl, rfl, rfl⟩ := h
    split
    · next hconnect => exact .load hconnect
    · exact .unconnected
  case h_5 =>
    simp only [Option.some.injEq, Prod.mk.injEq] at h
    obtain ⟨rfl, rfl, rfl⟩ := h
    cases hdisconnect : shared.disconnectEmitted with
    | false => exact .swap hdisconnect
    | true => exact .repeated hdisconnect
  case h_6 =>
    simp only [Option.some.injEq, Prod.mk.injEq] at h
    obtain ⟨rfl, rfl, rfl⟩ := h
    exact .disconnect
  case h_7 => simp at h

/-- A body that was called for `Connected` and has read the session ID. -/
def Callback.begun (callback : Callback) : Bool :=
  callback.state = .connected && callback.sessionId.isSome && callback.stage != .entered

/-- A body that is about to report the disconnect. -/
def Callback.isSending (callback : Callback) : Bool :=
  callback.stage = .sending

/-- What a step of a body keeps and what it needs, also when WebRTC drops the body. -/
structure Advance (shared : Shared) (callback : Callback) (event : Option SupervisorEvent)
    (following : Shared) (moved : Callback) : Prop where
  visible : following.sessionId = shared.sessionId
  seen : ∀ id, moved.sessionId = some id → callback.sessionId = some id ∨ shared.sessionId = some id
  sends : ∀ sent, event = some sent → ∃ id, callback.sessionId = some id ∧
    ((∃ remote, sent = .peerConnected id remote) ∨
      (sent = .peerDisconnected id ∧ callback.stage = .sending))
  begun : callback.begun = true → moved.begun = true
  storing : moved.stage = .storing → moved.begun = true
  connected : following.connectEmitted = true →
    shared.connectEmitted = true ∨ callback.stage = .storing
  kept : shared.connectEmitted = true → following.connectEmitted = true
  swapping : moved.stage = .swapping ∨ moved.stage = .sending →
    shared.connectEmitted = true ∨ callback.stage = .swapping
  once : event.toList.countP SupervisorEvent.isDisconnect + moved.isSending.toNat +
    shared.disconnectEmitted.toNat ≤ callback.isSending.toNat + following.disconnectEmitted.toNat

/-- A step of a body advances it. -/
theorem Body.advance {shared following : Shared} {remote : Option SocketAddr}
    {callback moved : Callback} {event : Option SupervisorEvent}
    (h : Body shared remote callback event following moved) :
    Advance shared callback event following moved := by
  cases h <;> constructor <;>
    simp_all [Callback.begun, Callback.isSending, SupervisorEvent.isDisconnect]

/-- Dropping a body advances it. -/
theorem Advance.drop (shared : Shared) {callback : Callback}
    (hstage : callback.stage = .entered ∨ callback.stage = .pairing) :
    Advance shared callback none shared { callback with stage := .dropped } := by
  rcases hstage with hstage | hstage <;> constructor <;>
    simp_all [Callback.begun, Callback.isSending]

/-! ## Bodies that run alone -/

/-- A whole body of the handler, when no other body runs. -/
def handle (shared : Shared) (state : PeerConnectionState) (remote : Option SocketAddr) :
    List SupervisorEvent × Shared :=
  if shared.events then
    match shared.sessionId with
    | none => ([], shared)
    | some id =>
        if state = .connected then
          ([.peerConnected id remote], { shared with connectEmitted := true })
        else if isDisconnectState state ∧ shared.connectEmitted then
          if shared.disconnectEmitted then ([], shared)
          else ([.peerDisconnected id], { shared with disconnectEmitted := true })
        else ([], shared)
  else ([], shared)

/-- Run a body for at most `fuel` steps, and collect its events. -/
def Callback.run (remote : Option SocketAddr) :
    Nat → Shared → Callback → List SupervisorEvent × Shared × Callback
  | 0, shared, callback => ([], shared, callback)
  | fuel + 1, shared, callback =>
      match callback.next shared remote with
      | none => ([], shared, callback)
      | some (event, following, moved) =>
          let (events, last) := run remote fuel following moved
          (event.toList ++ events, last)

/-- A body that runs alone ends after at most four steps, and does what `handle` says. -/
theorem handle_eq_run (shared : Shared) (state : PeerConnectionState)
    (remote : Option SocketAddr) :
    let (events, last, callback) := Callback.run remote 4 shared (.enter state)
    handle shared state remote = (events, last) ∧ callback.stage = .done := by
  obtain ⟨reports, sessionId, connectEmitted, disconnectEmitted⟩ := shared
  cases reports with
  | false => exact ⟨rfl, rfl⟩
  | true =>
      cases sessionId with
      | none => exact ⟨rfl, rfl⟩
      | some id =>
          cases state <;> cases connectEmitted <;> cases disconnectEmitted <;> exact ⟨rfl, rfl⟩

/-- The handler is called with one state after the other, each body running to its end. -/
def handleAll : Shared → List (PeerConnectionState × Option SocketAddr) →
    List SupervisorEvent × Shared
  | shared, [] => ([], shared)
  | shared, (state, remote) :: rest =>
      let (events, following) := handle shared state remote
      let (later, last) := handleAll following rest
      (events ++ later, last)

end Unbounded.PeerProxy
