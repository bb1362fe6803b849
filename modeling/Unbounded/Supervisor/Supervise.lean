import Unbounded.Execution.Machine
import Unbounded.Supervisor.Event

/-!
# The supervisor loop

`supervise_with` of `src/supervisor.rs` as a machine. A control point stands between two accesses to
the cancellation token, and the token may be cancelled at any of them. What a session returns, the
clocks and the entropy are inputs.
-/

namespace Unbounded.Supervisor

open Execution (Next)
open PeerProxy (PeerProxyError SessionResult)

/-- `SupervisorConfig`, as far as the loop reads it. -/
structure SupervisorConfig where
  initialBackoff : Duration
  maxBackoff : Duration
  stableSession : Duration
  deriving DecidableEq, Repr

/-- `nonzero`. -/
def nonzero (duration : Duration) : Duration :=
  if duration = .zero then .oneMilli else duration

/-- `entropy`, with the nanoseconds of the clock as a `u64`. -/
def entropy (now : UInt64) (attempt : Nat) : UInt64 :=
  now ^^^ (UInt64.ofNat attempt * 0x9e3779b97f4a7c15)

/-- `jittered`. The product saturates as a `u128`, and the result as a `u64`. -/
def jittered (base : Duration) (entropy : UInt64) : Duration :=
  let percent := 80 + entropy.toNat % 41
  let nanos := Nat.min (base.nanos * percent) (2 ^ 128 - 1) / 100
  .fromNanos (Nat.min nanos (2 ^ 64 - 1)) <|
    Nat.lt_of_le_of_lt (Nat.min_le_right _ _) (by decide)

/-- The first backoff of a supervision. -/
def SupervisorConfig.firstBackoff (config : SupervisorConfig) : Duration :=
  nonzero config.initialBackoff

/-- The largest backoff of a supervision. -/
def SupervisorConfig.lastBackoff (config : SupervisorConfig) : Duration :=
  config.maxBackoff.max config.firstBackoff

/-- How long the relay of a session lasted, if there was one. -/
def relayDuration : SessionResult → Option Duration
  | .ok outcome => some outcome.relayDuration
  | .error error => error.relayDuration

/-- The relay lasted long enough to start over with the first backoff. -/
def SupervisorConfig.stable (config : SupervisorConfig) (result : SessionResult) : Bool :=
  (relayDuration result).any fun duration ↦ config.stableSession ≤ duration

/-- The control points of the loop. -/
inductive Control where
  /-- Before the check of the token at the top. -/
  | checking
  | starting
  /-- Awaiting `run_session`. -/
  | running
  /-- Before the check of the result and the token. -/
  | examining (result : SessionResult) (duration : Duration)
  | reporting (result : SessionResult) (duration : Duration)
  | sleeping (retryIn : Duration)
  /-- After the loop. -/
  | stopping
  | returned
  deriving DecidableEq

/-- A call of `supervise_with`. -/
structure Supervision where
  config : SupervisorConfig
  cancelled : Bool
  backoff : Duration
  summary : SupervisorSummary
  control : Control

/-- A call that has just been made. -/
def Supervision.new (config : SupervisorConfig) (cancelled : Bool) : Supervision :=
  ⟨config, cancelled, config.firstBackoff, .default, .checking⟩

/-- What can happen to a supervision. -/
inductive Op where
  /-- Somebody cancels the token. -/
  | cancel
  | check
  | start
  /-- `run_session` returns, after a time. -/
  | sessionReturned (result : SessionResult) (duration : Duration)
  | examine
  /-- The result is reported, at a time that the entropy depends on. -/
  | report (now : UInt64)
  /-- The sleep is over, and the token was not cancelled. -/
  | woke
  | interrupted
  | stop
  deriving DecidableEq

namespace Supervision

/-- The backoff that the delay after a result is made from. -/
def settledBackoff (supervision : Supervision) (result : SessionResult) : Duration :=
  if supervision.config.stable result then supervision.config.firstBackoff else supervision.backoff

/-- The delay after a result. -/
def retryIn (supervision : Supervision) (result : SessionResult) (now : UInt64) : Duration :=
  (jittered (supervision.settledBackoff result) (entropy now supervision.summary.attempts)).min
    supervision.config.lastBackoff

/-- The backoff after a result. -/
def nextBackoff (supervision : Supervision) (result : SessionResult) : Duration :=
  if supervision.config.stable result then supervision.config.firstBackoff
  else (supervision.backoff.saturatingMul 2).min supervision.config.lastBackoff

/-- The event of a result. -/
def resultEvent (display : PeerProxyError → String) (attempt : Nat) (result : SessionResult)
    (duration retryIn : Duration) : SupervisorEvent :=
  match result with
  | .ok outcome => .sessionEnded attempt outcome duration retryIn
  | .error error => .attemptFailed attempt (display error) duration retryIn

/-- The summary counts a result. -/
def counted (summary : SupervisorSummary) (result : SessionResult) : SupervisorSummary :=
  match result with
  | .ok _ => { summary with completedSessions := summary.completedSessions + 1 }
  | .error _ => { summary with failedAttempts := summary.failedAttempts + 1 }

/-- The result is an error. -/
def isErr : SessionResult → Bool
  | .ok _ => false
  | .error _ => true

/-- One step of a supervisor, with the event it emits. `display` is `to_string` of an error. -/
def next (display : PeerProxyError → String) : Next Supervision Op (Option SupervisorEvent)
  | supervision, .cancel => some (none, { supervision with cancelled := true })
  | ⟨config, cancelled, backoff, summary, .checking⟩, .check =>
      some (none, ⟨config, cancelled, backoff, summary, if cancelled then .stopping else .starting⟩)
  | ⟨config, cancelled, backoff, summary, .starting⟩, .start =>
      let started := { summary with attempts := summary.attempts + 1 }
      some (some (.attemptStarted started.attempts),
        ⟨config, cancelled, backoff, started, .running⟩)
  | ⟨config, cancelled, backoff, summary, .running⟩, .sessionReturned result duration =>
      some (none, ⟨config, cancelled, backoff, summary, .examining result duration⟩)
  | ⟨config, cancelled, backoff, summary, .examining result duration⟩, .examine =>
      some (none, ⟨config, cancelled, backoff, summary,
        if isErr result && cancelled then .stopping else .reporting result duration⟩)
  | supervision@⟨config, cancelled, _, summary, .reporting result duration⟩, .report now =>
      let retryIn := supervision.retryIn result now
      some (some (resultEvent display summary.attempts result duration retryIn),
        ⟨config, cancelled, supervision.nextBackoff result, counted summary result,
          .sleeping retryIn⟩)
  | ⟨config, false, backoff, summary, .sleeping _⟩, .woke =>
      some (none, ⟨config, false, backoff, summary, .checking⟩)
  | ⟨config, true, backoff, summary, .sleeping _⟩, .interrupted =>
      some (none, ⟨config, true, backoff, summary, .stopping⟩)
  | ⟨config, cancelled, backoff, summary, .stopping⟩, .stop =>
      some (some (.stopped summary), ⟨config, cancelled, backoff, summary, .returned⟩)
  | _, _ => none

/-- A log of a supervision. -/
abbrev Log := Execution.Log Op (Option SupervisorEvent)

/-- Executions of a supervision. -/
abbrev Exec (display : PeerProxyError → String) := Execution.Exec (next display)

/-- The events that a supervisor has emitted, newest first. -/
def events (log : Log) : List SupervisorEvent :=
  log.filterMap Prod.snd

/-- The assumption on a session: it returns `Cancelled` only if its token is cancelled. -/
def honest (supervision : Supervision) : Op → Bool
  | .sessionReturned (.error .cancelled) _ => supervision.cancelled
  | _ => true

/-- Everything a step can be. -/
inductive Change (display : PeerProxyError → String) :
    Supervision → Op → Option SupervisorEvent → Supervision → Prop where
  | cancel {supervision} :
      Change display supervision .cancel none { supervision with cancelled := true }
  | go {config backoff summary} :
      Change display ⟨config, false, backoff, summary, .checking⟩ .check none
        ⟨config, false, backoff, summary, .starting⟩
  | give {config backoff summary} :
      Change display ⟨config, true, backoff, summary, .checking⟩ .check none
        ⟨config, true, backoff, summary, .stopping⟩
  | start {config cancelled backoff summary} :
      Change display ⟨config, cancelled, backoff, summary, .starting⟩ .start
        (some (.attemptStarted (summary.attempts + 1)))
        ⟨config, cancelled, backoff, { summary with attempts := summary.attempts + 1 }, .running⟩
  | sessionReturned {config cancelled backoff summary result duration} :
      Change display ⟨config, cancelled, backoff, summary, .running⟩
        (.sessionReturned result duration) none
        ⟨config, cancelled, backoff, summary, .examining result duration⟩
  /-- An error is not reported once the token is cancelled. -/
  | abandon {config backoff summary error duration} :
      Change display ⟨config, true, backoff, summary, .examining (.error error) duration⟩ .examine
        none ⟨config, true, backoff, summary, .stopping⟩
  | accept {config cancelled backoff summary result duration}
      (hresult : isErr result = false ∨ cancelled = false) :
      Change display ⟨config, cancelled, backoff, summary, .examining result duration⟩ .examine
        none ⟨config, cancelled, backoff, summary, .reporting result duration⟩
  | report {config cancelled backoff summary result duration now retryIn following}
      (hretry : retryIn = Supervision.retryIn
        ⟨config, cancelled, backoff, summary, .reporting result duration⟩ result now)
      (hbackoff : following = Supervision.nextBackoff
        ⟨config, cancelled, backoff, summary, .reporting result duration⟩ result) :
      Change display ⟨config, cancelled, backoff, summary, .reporting result duration⟩
        (.report now) (some (resultEvent display summary.attempts result duration retryIn))
        ⟨config, cancelled, following, counted summary result, .sleeping retryIn⟩
  | woke {config backoff summary retryIn} :
      Change display ⟨config, false, backoff, summary, .sleeping retryIn⟩ .woke none
        ⟨config, false, backoff, summary, .checking⟩
  | interrupted {config backoff summary retryIn} :
      Change display ⟨config, true, backoff, summary, .sleeping retryIn⟩ .interrupted none
        ⟨config, true, backoff, summary, .stopping⟩
  | stop {config cancelled backoff summary} :
      Change display ⟨config, cancelled, backoff, summary, .stopping⟩ .stop
        (some (.stopped summary)) ⟨config, cancelled, backoff, summary, .returned⟩

/-- Every step of the supervisor is a `Change`. -/
theorem change_of_next {display : PeerProxyError → String} {supervision following : Supervision}
    {op : Op} {event : Option SupervisorEvent}
    (h : next display supervision op = some (event, following)) :
    Change display supervision op event following := by
  unfold next at h
  split at h
  all_goals simp only [Option.some.injEq, Prod.mk.injEq, reduceCtorEq] at h
  case h_1 =>
    obtain ⟨rfl, rfl⟩ := h
    exact .cancel
  case h_2 config cancelled backoff summary =>
    obtain ⟨rfl, rfl⟩ := h
    cases cancelled with
    | true => exact .give
    | false => exact .go
  case h_3 =>
    obtain ⟨rfl, rfl⟩ := h
    exact .start
  case h_4 =>
    obtain ⟨rfl, rfl⟩ := h
    exact .sessionReturned
  case h_5 config cancelled backoff summary result duration =>
    obtain ⟨rfl, rfl⟩ := h
    cases cancelled with
    | false =>
        rw [Bool.and_false]
        exact .accept (.inr rfl)
    | true =>
        cases result with
        | ok outcome => exact .accept (.inl rfl)
        | error error => exact .abandon
  case h_6 =>
    obtain ⟨rfl, rfl⟩ := h
    exact .report rfl rfl
  case h_7 =>
    obtain ⟨rfl, rfl⟩ := h
    exact .woke
  case h_8 =>
    obtain ⟨rfl, rfl⟩ := h
    exact .interrupted
  case h_9 =>
    obtain ⟨rfl, rfl⟩ := h
    exact .stop

end Supervision

end Unbounded.Supervisor
