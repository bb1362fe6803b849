import Unbounded.Consumer.Sessions
import Unbounded.Time

/-!
# The consumer loop

`maintain_consumer` of `src/consumer.rs` as a machine over the sessions of its socket. A control
point stands between two accesses to the cancellation token. An attempt starts a session of its own
and moves it step by step to its end, so that a failure at any point of `run_consumer_session` is an
attempt of the loop, and the token may be cancelled between any two steps.

The session gets a child of the token, which nobody else holds: it is cancelled when the token is.
Other users of the socket, with sessions or loops of their own, may take steps in between.
-/

namespace Unbounded.Consumer

open Execution (Next)
open ConsumerPath (Endpoint)

/-- `ConsumerSupervisorConfig`. -/
structure ConsumerSupervisorConfig where
  consumer : ConsumerConfig
  retryDelay : Duration
  deriving DecidableEq, Repr

/-- `ConsumerSummary`. -/
structure ConsumerSummary where
  attempts : Nat
  completedPaths : Nat
  failedAttempts : Nat
  deriving DecidableEq, Repr

/-- `ConsumerSummary::default`. -/
def ConsumerSummary.default : ConsumerSummary :=
  ⟨0, 0, 0⟩

/-- `ConsumerEvent`. -/
inductive ConsumerEvent where
  | attemptStarted (attempt : Nat)
  | pathEnded (attempt : Nat) (outcome : ConsumerOutcome)
  | attemptFailed (attempt : Nat) (error : String)
  | stopped (summary : ConsumerSummary)
  deriving DecidableEq, Repr

namespace Sessions

/-- What the session that takes a step is told. -/
def input (state : Sessions) : Op → Option Input
  | .step _ input => some input
  | .allocate _ => some (.allocated state.endpoint.allocator.allocate.1)
  | .enter _ => some .entered
  | .leave index => state.sessions[index]?.bind fun session ↦
      session.interruption.or (session.task.bind state.ended)
  | .embedder _ | .start _ | .path _ _ | .interrupt _ _ => none

/-- What the session that takes a step asks of the outside. -/
def effect (codec : Codec) (state : Sessions) (op : Op) : Effect :=
  match op.session.bind (state.sessions[·]?), state.input op with
  | some session, some input =>
      ((session.control.next codec session.config input).map Prod.fst).getD .none
  | _, _ => .none

end Sessions

namespace Maintenance

/-- Where the loop is. -/
inductive Control where
  /-- At the head of the loop. -/
  | checking
  | starting
  /-- Awaiting `run_consumer_session`. -/
  | running (session : Nat)
  | sleeping (delay : Duration)
  /-- After the loop. -/
  | stopping
  | returned
  deriving DecidableEq

/-- What can happen around a loop. -/
inductive Op where
  /-- Somebody cancels the token. -/
  | cancel
  | check
  | start
  /-- A step of the session of the attempt. -/
  | session (op : Sessions.Op)
  /-- The session has returned, and its result is examined. -/
  | examine
  /-- The sleep is over, and the token was not cancelled. -/
  | woke
  | interrupted
  | stop
  /-- A step of another user of the socket. -/
  | other (op : Sessions.Op)

/-- What a step reports: the event it emits, the step of the sessions it performed, and what the
session of the attempt asked of the outside. -/
structure Out where
  event : Option ConsumerEvent
  performed : Option (Sessions.Op × Endpoint.Log)
  effect : Effect

/-- A step of the loop alone. -/
def Out.own (event : Option ConsumerEvent) : Out :=
  ⟨event, none, .none⟩

end Maintenance

/-- A call of `maintain_consumer`, with the sessions on its socket. -/
structure Maintenance where
  sessions : Sessions
  cancelled : Bool
  summary : ConsumerSummary
  control : Maintenance.Control

namespace Maintenance

/-- A call that has just been made. -/
def new (sessions : Sessions) (cancelled : Bool) : Maintenance :=
  ⟨sessions, cancelled, .default, .checking⟩

/-- What a session can see of its token, when `cancelled` says whether the token of the loop is
cancelled. The loop awaits its session and never drops it. -/
def tokenAllows (cancelled : Bool) : Sessions.Op → Bool
  | .step _ .cancelled | .interrupt _ .cancelled => cancelled
  | .step _ .dropped | .interrupt _ .dropped => false
  | .path _ (.poll _ seen _) => !seen || cancelled
  | _ => true

/-- What `run_consumer_session` has returned. -/
def sessionResult (sessions : Sessions) (index : Nat) : Option SessionResult :=
  sessions.sessions[index]?.bind fun session ↦ match session.control with
    | .returned result => some result
    | _ => none

/-- What the loop does with the result of a session: the event, the summary and where it goes. -/
def settle (display : ConsumerError → String) (retryDelay : Duration) (cancelled : Bool)
    (summary : ConsumerSummary) : SessionResult → Option ConsumerEvent × ConsumerSummary × Control
  | .error error =>
      if cancelled then (none, summary, .stopping)
      else (some (.attemptFailed summary.attempts (display error)),
        { summary with failedAttempts := summary.failedAttempts + 1 }, .sleeping retryDelay)
  | .ok outcome =>
      if outcome.pathEnd = .cancelled then (none, summary, .stopping)
      else (some (.pathEnded summary.attempts outcome),
        { summary with completedPaths := summary.completedPaths + 1 }, .checking)

/-- Another user does not move the session of the attempt. -/
def foreign (control : Control) (op : Sessions.Op) : Bool :=
  match control with
  | .running index => op.session ≠ some index
  | _ => true

/-- The `Arc` in the configuration of the loop is still there. -/
def keepsArc (sessions : Sessions) (control : Control) : Bool :=
  control = .returned || sessions.embedderMay .dropArc

/-- One step of a loop. `display` is `to_string` of an error. -/
def next (display : ConsumerError → String) (codec : Codec)
    (decode : Bytes → Except String UnboundedPacket) (config : ConsumerSupervisorConfig) :
    Next Maintenance Op Out
  | ⟨sessions, _, summary, control⟩, .cancel => some (.own none, ⟨sessions, true, summary, control⟩)
  | ⟨sessions, cancelled, summary, .checking⟩, .check =>
      some (.own none, ⟨sessions, cancelled, summary, if cancelled then .stopping else .starting⟩)
  | ⟨sessions, cancelled, summary, .starting⟩, .start =>
      let started := { summary with attempts := summary.attempts + 1 }
      (Sessions.next codec decode sessions (.start config.consumer)).map fun (log, following) ↦
        (⟨some (.attemptStarted started.attempts), some (.start config.consumer, log), .none⟩,
          ⟨following, cancelled, started, .running sessions.sessions.length⟩)
  | ⟨sessions, cancelled, summary, .running index⟩, .session op =>
      if op.session = some index ∧ tokenAllows cancelled op = true then
        (Sessions.next codec decode sessions op).map fun (log, following) ↦
          (⟨none, some (op, log), sessions.effect codec op⟩,
            ⟨following, cancelled, summary, .running index⟩)
      else none
  | ⟨sessions, cancelled, summary, .running index⟩, .examine =>
      (sessionResult sessions index).map fun result ↦
        let (event, counted, control) :=
          settle display config.retryDelay cancelled summary result
        (.own event, ⟨sessions, cancelled, counted, control⟩)
  | ⟨sessions, false, summary, .sleeping _⟩, .woke =>
      some (.own none, ⟨sessions, false, summary, .checking⟩)
  | ⟨sessions, true, summary, .sleeping _⟩, .interrupted =>
      some (.own none, ⟨sessions, true, summary, .stopping⟩)
  | ⟨sessions, cancelled, summary, .stopping⟩, .stop =>
      some (.own (some (.stopped summary)), ⟨sessions, cancelled, summary, .returned⟩)
  | ⟨sessions, cancelled, summary, control⟩, .other op =>
      if foreign control op then
        (Sessions.next codec decode sessions op).bind fun (log, following) ↦
          if keepsArc following control then
            some (⟨none, some (op, log), .none⟩, ⟨following, cancelled, summary, control⟩)
          else none
      else none
  | _, _ => none

/-- A log of a loop. -/
abbrev Log := Execution.Log Op Out

/-- Executions of a loop. -/
abbrev Exec (display : ConsumerError → String) (codec : Codec)
    (decode : Bytes → Except String UnboundedPacket) (config : ConsumerSupervisorConfig) :=
  Execution.Exec (next display codec decode config)

/-- The events that a loop has emitted, newest first. -/
def events (log : Log) : List ConsumerEvent :=
  log.filterMap fun entry ↦ entry.2.event

/-- The steps of the sessions in a run, newest first. -/
def sessionsLog (log : Log) : Sessions.Log :=
  log.filterMap fun entry ↦ entry.2.performed

/-- The addresses that the sessions of a loop have allocated, newest first. -/
def addresses (log : Log) : List SocketAddr :=
  log.flatMap fun entry ↦ match entry.1, entry.2.performed with
    | .session _, some (_, performed) => Endpoint.allocations performed
    | _, _ => []

/-- The step starts an attempt. -/
def Op.starts : Op → Bool
  | .start => true
  | _ => false

/-- The step belongs to another session on the socket. A QUIC endpoint that sends and receives on
the socket is not one. -/
def Op.disturbs : Op → Bool
  | .other (.embedder _) => false
  | .other _ => true
  | _ => false

/-- An attempt is under way: its session has not returned. -/
def attempting (state : Maintenance) : Bool :=
  match state.control with
  | .running index => (sessionResult state.sessions index).isNone
  | _ => false

/-- What leads from an address, in the route table of the socket. -/
def route (state : Maintenance) (remote : SocketAddr) : Option VirtualUdp.PathId :=
  state.sessions.endpoint.paths.socket.routes.get remote

variable {display : ConsumerError → String} {codec : Codec}
  {decode : Bytes → Except String UnboundedPacket} {config : ConsumerSupervisorConfig}
  {state following : Maintenance}

/-- Everything a step can be. -/
inductive Change (display : ConsumerError → String) (codec : Codec)
    (decode : Bytes → Except String UnboundedPacket) (config : ConsumerSupervisorConfig) :
    Maintenance → Op → Out → Maintenance → Prop where
  | cancel {sessions cancelled summary control} :
      Change display codec decode config ⟨sessions, cancelled, summary, control⟩ .cancel (.own none)
        ⟨sessions, true, summary, control⟩
  | go {sessions summary} :
      Change display codec decode config ⟨sessions, false, summary, .checking⟩ .check (.own none)
        ⟨sessions, false, summary, .starting⟩
  | give {sessions summary} :
      Change display codec decode config ⟨sessions, true, summary, .checking⟩ .check (.own none)
        ⟨sessions, true, summary, .stopping⟩
  | start {sessions cancelled summary log moved}
      (hnext : Sessions.next codec decode sessions (.start config.consumer) = some (log, moved)) :
      Change display codec decode config ⟨sessions, cancelled, summary, .starting⟩ .start
        ⟨some (.attemptStarted (summary.attempts + 1)), some (.start config.consumer, log), .none⟩
        ⟨moved, cancelled, { summary with attempts := summary.attempts + 1 },
          .running sessions.sessions.length⟩
  | session {sessions cancelled summary index op log moved} (hop : op.session = some index)
      (hallowed : tokenAllows cancelled op = true)
      (hnext : Sessions.next codec decode sessions op = some (log, moved)) :
      Change display codec decode config ⟨sessions, cancelled, summary, .running index⟩
        (.session op) ⟨none, some (op, log), sessions.effect codec op⟩
        ⟨moved, cancelled, summary, .running index⟩
  | settled {sessions cancelled summary index result event counted control}
      (hresult : sessionResult sessions index = some result)
      (hsettle : settle display config.retryDelay cancelled summary result =
        (event, counted, control)) :
      Change display codec decode config ⟨sessions, cancelled, summary, .running index⟩ .examine
        (.own event) ⟨sessions, cancelled, counted, control⟩
  | woke {sessions summary delay} :
      Change display codec decode config ⟨sessions, false, summary, .sleeping delay⟩ .woke
        (.own none) ⟨sessions, false, summary, .checking⟩
  | interrupted {sessions summary delay} :
      Change display codec decode config ⟨sessions, true, summary, .sleeping delay⟩ .interrupted
        (.own none) ⟨sessions, true, summary, .stopping⟩
  | stop {sessions cancelled summary} :
      Change display codec decode config ⟨sessions, cancelled, summary, .stopping⟩ .stop
        (.own (some (.stopped summary))) ⟨sessions, cancelled, summary, .returned⟩
  | other {sessions cancelled summary control op log moved} (hforeign : foreign control op = true)
      (hnext : Sessions.next codec decode sessions op = some (log, moved)) :
      Change display codec decode config ⟨sessions, cancelled, summary, control⟩ (.other op)
        ⟨none, some (op, log), .none⟩ ⟨moved, cancelled, summary, control⟩

/-- Every step of the maintenance is a `Change`. -/
theorem change_of_next {op : Op} {out : Out}
    (h : next display codec decode config state op = some (out, following)) :
    Change display codec decode config state op out following := by
  unfold next at h
  split at h
  case h_1 =>
    simp only [Option.some.injEq, Prod.mk.injEq] at h
    obtain ⟨rfl, rfl⟩ := h
    exact .cancel
  case h_2 sessions cancelled summary =>
    simp only [Option.some.injEq, Prod.mk.injEq] at h
    obtain ⟨rfl, rfl⟩ := h
    cases cancelled with
    | true => exact .give
    | false => exact .go
  case h_3 =>
    simp only [Option.map_eq_some_iff, Prod.mk.injEq] at h
    obtain ⟨⟨log, moved⟩, hnext, rfl, rfl⟩ := h
    exact .start hnext
  case h_4 =>
    split at h
    case isFalse => simp at h
    case isTrue hop =>
      simp only [Option.map_eq_some_iff, Prod.mk.injEq] at h
      obtain ⟨⟨log, moved⟩, hnext, rfl, rfl⟩ := h
      exact .session hop.1 hop.2 hnext
  case h_5 =>
    simp only [Option.map_eq_some_iff, Prod.mk.injEq] at h
    obtain ⟨result, hresult, rfl, rfl⟩ := h
    exact .settled hresult rfl
  case h_6 =>
    simp only [Option.some.injEq, Prod.mk.injEq] at h
    obtain ⟨rfl, rfl⟩ := h
    exact .woke
  case h_7 =>
    simp only [Option.some.injEq, Prod.mk.injEq] at h
    obtain ⟨rfl, rfl⟩ := h
    exact .interrupted
  case h_8 =>
    simp only [Option.some.injEq, Prod.mk.injEq] at h
    obtain ⟨rfl, rfl⟩ := h
    exact .stop
  case h_9 =>
    split at h
    case isFalse => simp at h
    case isTrue hforeign =>
      simp only [Option.bind_eq_some_iff] at h
      obtain ⟨⟨log, moved⟩, hnext, hkeeps⟩ := h
      split at hkeeps
      case isFalse => simp at hkeeps
      case isTrue =>
        simp only [Option.some.injEq, Prod.mk.injEq] at hkeeps
        obtain ⟨rfl, rfl⟩ := hkeeps
        exact .other hforeign hnext
  case h_10 => simp at h

/-- A step either leaves the sessions alone or reports the step it performed. -/
theorem Change.sessions {op : Op} {out : Out}
    (h : Change display codec decode config state op out following) :
    (out.performed = none ∧ following.sessions = state.sessions) ∨
      ∃ performed log, out.performed = some (performed, log) ∧
        Sessions.next codec decode state.sessions performed = some (log, following.sessions) := by
  cases h with
  | start hnext => exact .inr ⟨_, _, rfl, hnext⟩
  | session _ _ hnext => exact .inr ⟨_, _, rfl, hnext⟩
  | other _ hnext => exact .inr ⟨_, _, rfl, hnext⟩
  | _ => exact .inl ⟨rfl, rfl⟩

/-- A run of a loop is a run of the sessions on its socket. -/
theorem Exec.sessions {start : Maintenance} {log : Log}
    (h : Exec display codec decode config start log state) :
    Sessions.Exec codec decode start.sessions (sessionsLog log) state.sessions := by
  induction h with
  | refl => exact .refl
  | @snoc log _ _ op out _ hnext ih =>
      obtain ⟨hnone, hsame⟩ | ⟨performed, fragment, hsome, hsessions⟩ :=
        (change_of_next hnext).sessions
      · have hlog : sessionsLog ((op, out) :: log) = sessionsLog log :=
          List.filterMap_cons_none hnone
        rw [hlog, hsame]
        exact ih
      · have hlog : sessionsLog ((op, out) :: log) = (performed, fragment) :: sessionsLog log :=
          List.filterMap_cons_some hsome
        rw [hlog]
        exact ih.snoc hsessions

end Maintenance

end Unbounded.Consumer
