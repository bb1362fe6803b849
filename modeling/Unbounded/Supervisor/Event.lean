import Unbounded.PeerProxy.Session

/-!
# Supervisor events

The events of `src/supervisor.rs` that a supervisor and the state callbacks of its sessions report.
-/

namespace Unbounded.Supervisor

open PeerProxy (PeerProxyOutcome)

/-- `SupervisorSummary`. -/
structure SupervisorSummary where
  attempts : Nat
  completedSessions : Nat
  failedAttempts : Nat
  deriving DecidableEq, Repr

/-- `SupervisorSummary::default`. -/
def SupervisorSummary.default : SupervisorSummary :=
  ⟨0, 0, 0⟩

/-- `SupervisorEvent`. -/
inductive SupervisorEvent where
  | attemptStarted (attempt : Nat)
  | peerConnected (sessionId : String) (remote : Option SocketAddr)
  | peerDisconnected (sessionId : String)
  | sessionEnded (attempt : Nat) (outcome : PeerProxyOutcome) (duration retryIn : Duration)
  | attemptFailed (attempt : Nat) (error : String) (duration retryIn : Duration)
  | stopped (summary : SupervisorSummary)
  deriving DecidableEq, Repr

/-- The event is a disconnect. -/
def SupervisorEvent.isDisconnect : SupervisorEvent → Bool
  | .peerDisconnected _ => true
  | _ => false

end Unbounded.Supervisor
