import Unbounded.Egress.Connect
import Unbounded.Supervisor.Vetting
import Unbounded.Text.Controls
import Unbounded.Text.Words

/-!
# The lines of the program

What `src/bin/peer-proxy.rs` prints: a line for every event of the pool, and one for the summary of
the pool at the end. The session IDs in the lines come from remote peers.

`readLine` is what an operator or a collector of telemetry does with a line. It looks at the words
of the line and nothing else. `readLine_line` says that it finds the record of the event that the
line was printed for, if the session ID of the event is a token, as then the ID is one word. The
record has the slot, the kind of the event, its numbers, its session ID and the end of its relay.
The address of a peer, the durations and the text of an error come after all of these, and the text
may be anything.
-/

namespace Unbounded.Program

open Relay (RelayEnd)
open Supervisor (PoolEvent SupervisorEvent SupervisorPoolSummary)
open Supervisor.Supervision (isFailed)
open Text (hasControl hasControl_append_eq_false hasControl_repr blank_notMem_repr readAfter
  readAfter_repr readBefore readBefore_repr readNumber readNumber_repr words words_before
  words_of_notMem words_word words_word_append)

/-- How the standard library writes durations and addresses for debugging. -/
structure Formats where
  duration : Duration → String
  remote : Option SocketAddr → String

/-- `Debug` of `RelayEnd`. -/
def debugRelayEnd : RelayEnd → String
  | .peerClosed => "PeerClosed"
  | .egressClosed => "EgressClosed"

/-- The line that the reporter prints for an event of a slot. -/
def eventText (formats : Formats) : SupervisorEvent → String
  | .attemptStarted attempt => "starting peer proxy attempt " ++ attempt.repr
  | .peerConnected sessionId remote =>
      "peer " ++ sessionId ++ " connected (remote " ++ formats.remote remote ++ ")"
  | .peerDisconnected sessionId => "peer " ++ sessionId ++ " disconnected"
  | .sessionEnded attempt outcome duration retryIn =>
      "attempt " ++ attempt.repr ++ " session " ++ outcome.consumerSessionId ++ " ended " ++
        debugRelayEnd outcome.relayEnd ++ " after " ++ formats.duration duration ++
        "; retrying in " ++ formats.duration retryIn
  | .attemptFailed attempt error duration retryIn =>
      "attempt " ++ attempt.repr ++ " failed after " ++ formats.duration duration ++ ": " ++
        error ++ "; retrying in " ++ formats.duration retryIn
  | .stopped summary =>
      "stopped after " ++ summary.attempts.repr ++ " attempts (" ++
        summary.completedSessions.repr ++ " sessions, " ++ summary.failedAttempts.repr ++
        " failures)"

/-- The line that the reporter prints for an event. -/
def line (formats : Formats) (tagged : PoolEvent) : String :=
  "slot " ++ tagged.slot.repr ++ ": " ++ eventText formats tagged.event

/-- The last line. -/
def totals (slots : Nat) (summary : SupervisorPoolSummary) : String :=
  "peer proxy pool stopped: " ++ slots.repr ++ " slots, " ++ summary.attempts.repr ++
    " attempts, " ++ summary.completedSessions.repr ++ " sessions, " ++
    summary.failedAttempts.repr ++ " failures"

/-! ## Reading a line -/

/-- What a line is about. -/
inductive Entry where
  | started (attempt : Nat)
  | connected (sessionId : String)
  | disconnected (sessionId : String)
  | ended (attempt : Nat) (sessionId : String) (relayEnd : RelayEnd)
  | failed (attempt : Nat)
  | stopped (attempts sessions failures : Nat)
  deriving DecidableEq, Repr

/-- A line that was read. -/
inductive Record where
  | slot (slot : Nat) (entry : Entry)
  | pool (slots attempts sessions failures : Nat)
  deriving DecidableEq, Repr

/-- What is read of an event: everything but the address of a peer, the durations and the text of
an error. -/
def entry : SupervisorEvent → Entry
  | .attemptStarted attempt => .started attempt
  | .peerConnected sessionId _ => .connected sessionId
  | .peerDisconnected sessionId => .disconnected sessionId
  | .sessionEnded attempt outcome _ _ =>
      .ended attempt outcome.consumerSessionId outcome.relayEnd
  | .attemptFailed attempt _ _ _ => .failed attempt
  | .stopped summary =>
      .stopped summary.attempts summary.completedSessions summary.failedAttempts

/-- The record of an event. -/
def record (tagged : PoolEvent) : Record :=
  .slot tagged.slot (entry tagged.event)

/-- The record of a summary. -/
def totalsRecord (slots : Nat) (summary : SupervisorPoolSummary) : Record :=
  .pool slots summary.attempts summary.completedSessions summary.failedAttempts

/-- The word for the end of a relay. -/
def readRelayEnd (word : String) : Option RelayEnd :=
  [RelayEnd.peerClosed, .egressClosed].find? (debugRelayEnd · = word)

/-- The words after the slot. -/
def readEntry : List String → Option Entry
  | ["starting", "peer", "proxy", "attempt", attempt] => (readNumber attempt).map .started
  | "peer" :: sessionId :: "connected" :: _ => some (.connected sessionId)
  | ["peer", sessionId, "disconnected"] => some (.disconnected sessionId)
  | "attempt" :: attempt :: "session" :: sessionId :: "ended" :: relayEnd :: _ => do
      some (.ended (← readNumber attempt) sessionId (← readRelayEnd relayEnd))
  | "attempt" :: attempt :: "failed" :: _ => (readNumber attempt).map .failed
  | ["stopped", "after", attempts, "attempts", sessions, "sessions,", failures, "failures)"] => do
      some (.stopped (← readNumber attempts) (← readAfter '(' sessions) (← readNumber failures))
  | _ => none

/-- What a line says. -/
def readLine (text : String) : Option Record :=
  match words text with
  | "slot" :: slot :: rest => do some (.slot (← readBefore ':' slot) (← readEntry rest))
  | ["peer", "proxy", "pool", "stopped:", slots, "slots,", attempts, "attempts,", sessions,
      "sessions,", failures, "failures"] => do
      some (.pool (← readNumber slots) (← readNumber attempts) (← readNumber sessions)
        (← readNumber failures))
  | _ => none

/-! ## What is printed is read -/

/-- A token has no blank. -/
theorem blank_notMem_of_token {text : String} (h : isSubprotocolToken text = true) :
    ' ' ∉ text.toList := by
  intro hblank
  exact absurd rfl (Egress.char_of_token h hblank).2

/-- The end of a relay is written as a word. -/
theorem blank_notMem_debugRelayEnd (relayEnd : RelayEnd) :
    ' ' ∉ (debugRelayEnd relayEnd).toList := by
  cases relayEnd <;> decide

/-- The end of a relay is read as it was written. -/
theorem readRelayEnd_debugRelayEnd (relayEnd : RelayEnd) :
    readRelayEnd (debugRelayEnd relayEnd) = some relayEnd := by
  cases relayEnd <;> decide

/-- The words after the slot tell the entry of the event. -/
theorem readEntry_eventText (formats : Formats) {event : SupervisorEvent}
    (h : event.isVetted = true) :
    readEntry (words (eventText formats event)) = some (entry event) := by
  cases event with
  | attemptStarted attempt =>
      have hwords : words (eventText formats (.attemptStarted attempt)) =
          words "starting peer proxy attempt" ++ [attempt.repr] := by
        rw [← words_of_notMem (blank_notMem_repr attempt)]
        exact words_before (by decide) _
      rw [hwords]
      show (readNumber attempt.repr).map Entry.started = _
      rw [readNumber_repr]
      rfl
  | peerConnected sessionId remote =>
      have hwords : words (eventText formats (.peerConnected sessionId remote)) =
          words "peer" ++ sessionId :: (words "connected (remote" ++
            words (formats.remote remote ++ ")")) := by
        show words ("peer " ++ sessionId ++ " connected (remote " ++ formats.remote remote ++
          ")") = _
        simp only [String.append_assoc]
        rw [words_before (by decide : "peer " = "peer" ++ " "),
          words_word_append (blank_notMem_of_token h)
            (by decide : " connected (remote " = " " ++ "connected (remote "),
          words_before (by decide : "connected (remote " = "connected (remote" ++ " ")]
      rw [hwords]
      rfl
  | peerDisconnected sessionId =>
      have hwords : words (eventText formats (.peerDisconnected sessionId)) =
          words "peer" ++ sessionId :: words "disconnected" := by
        show words ("peer " ++ sessionId ++ " disconnected") = _
        rw [String.append_assoc, words_before (by decide : "peer " = "peer" ++ " "),
          words_word (blank_notMem_of_token h)
            (by decide : " disconnected" = " " ++ "disconnected")]
      rw [hwords]
      rfl
  | sessionEnded attempt outcome duration retryIn =>
      have hwords : words (eventText formats (.sessionEnded attempt outcome duration retryIn)) =
          words "attempt" ++ attempt.repr :: (words "session" ++
            outcome.consumerSessionId :: (words "ended" ++ debugRelayEnd outcome.relayEnd ::
              words ("after " ++ (formats.duration duration ++
                ("; retrying in " ++ formats.duration retryIn))))) := by
        show words ("attempt " ++ attempt.repr ++ " session " ++ outcome.consumerSessionId ++
          " ended " ++ debugRelayEnd outcome.relayEnd ++ " after " ++ formats.duration duration ++
          "; retrying in " ++ formats.duration retryIn) = _
        simp only [String.append_assoc]
        rw [words_before (by decide : "attempt " = "attempt" ++ " "),
          words_word_append (blank_notMem_repr attempt)
            (by decide : " session " = " " ++ "session "),
          words_before (by decide : "session " = "session" ++ " "),
          words_word_append (blank_notMem_of_token h) (by decide : " ended " = " " ++ "ended "),
          words_before (by decide : "ended " = "ended" ++ " "),
          words_word_append (blank_notMem_debugRelayEnd _)
            (by decide : " after " = " " ++ "after ")]
      rw [hwords]
      show (do some (Entry.ended (← readNumber attempt.repr) outcome.consumerSessionId
        (← readRelayEnd (debugRelayEnd outcome.relayEnd)))) = _
      rw [readNumber_repr, readRelayEnd_debugRelayEnd]
      rfl
  | attemptFailed attempt error duration retryIn =>
      have hwords : words (eventText formats (.attemptFailed attempt error duration retryIn)) =
          words "attempt" ++ attempt.repr :: (words "failed after" ++
            words (formats.duration duration ++ (": " ++ (error ++ ("; retrying in " ++
              formats.duration retryIn))))) := by
        show words ("attempt " ++ attempt.repr ++ " failed after " ++ formats.duration duration ++
          ": " ++ error ++ "; retrying in " ++ formats.duration retryIn) = _
        simp only [String.append_assoc]
        rw [words_before (by decide : "attempt " = "attempt" ++ " "),
          words_word_append (blank_notMem_repr attempt)
            (by decide : " failed after " = " " ++ "failed after "),
          words_before (by decide : "failed after " = "failed after" ++ " ")]
      rw [hwords]
      show (readNumber attempt.repr).map Entry.failed = _
      rw [readNumber_repr]
      rfl
  | stopped summary =>
      obtain ⟨attempts, sessions, failures⟩ := summary
      have hwords : words (eventText formats (.stopped ⟨attempts, sessions, failures⟩)) =
          words "stopped after" ++ attempts.repr :: (words "attempts" ++
            ("(" ++ sessions.repr) :: (words "sessions," ++ failures.repr ::
              words "failures)")) := by
        show words ("stopped after " ++ attempts.repr ++ " attempts (" ++ sessions.repr ++
          " sessions, " ++ failures.repr ++ " failures)") = _
        have hopening : ' ' ∉ ("(" ++ sessions.repr).toList := by
          rw [String.toList_append, List.mem_append]
          exact not_or.mpr ⟨by decide, blank_notMem_repr sessions⟩
        simp only [String.append_assoc]
        rw [words_before (by decide : "stopped after " = "stopped after" ++ " "),
          words_word_append (blank_notMem_repr attempts)
            (by decide : " attempts (" = " " ++ ("attempts " ++ "(")),
          String.append_assoc, words_before (by decide : "attempts " = "attempts" ++ " "),
          ← String.append_assoc, words_word_append hopening
            (by decide : " sessions, " = " " ++ "sessions, "),
          words_before (by decide : "sessions, " = "sessions," ++ " "),
          words_word (blank_notMem_repr failures) (by decide : " failures)" = " " ++ "failures)")]
      rw [hwords]
      show (do some (Entry.stopped (← readNumber attempts.repr)
        (← readAfter '(' ("(" ++ sessions.repr)) (← readNumber failures.repr))) = _
      rw [readNumber_repr, readNumber_repr, readAfter_repr sessions rfl]
      rfl

/-- A line is read as the record of the event that it was printed for, if the session ID of the
event is a token. The text of an error and the formats of the standard library do not matter. -/
theorem readLine_line (formats : Formats) {tagged : PoolEvent}
    (h : tagged.event.isVetted = true) : readLine (line formats tagged) = some (record tagged) := by
  obtain ⟨slot, event⟩ := tagged
  have hslot : ' ' ∉ (slot.repr ++ ":").toList := by
    rw [String.toList_append, List.mem_append]
    exact not_or.mpr ⟨blank_notMem_repr slot, by decide⟩
  have hwords : words (line formats ⟨slot, event⟩) =
      words "slot" ++ (slot.repr ++ ":") :: words (eventText formats event) := by
    have hcolon : ": " = ":" ++ " " := by decide
    rw [line, hcolon]
    simp only [String.append_assoc]
    rw [words_before (by decide : "slot " = "slot" ++ " "), ← String.append_assoc,
      words_word hslot rfl]
  have hentry := readEntry_eventText formats h
  rw [readLine, hwords]
  show (do some (Record.slot (← readBefore ':' (slot.repr ++ ":"))
    (← readEntry (words (eventText formats event))))) = _
  rw [readBefore_repr slot rfl, hentry]
  rfl

/-- The last line is read as the totals. -/
theorem readLine_totals (slots : Nat) (summary : SupervisorPoolSummary) :
    readLine (totals slots summary) = some (totalsRecord slots summary) := by
  have hwords : words (totals slots summary) =
      words "peer proxy pool stopped:" ++ slots.repr :: (words "slots," ++
        summary.attempts.repr :: (words "attempts," ++ summary.completedSessions.repr ::
          (words "sessions," ++ summary.failedAttempts.repr :: words "failures"))) := by
    show words ("peer proxy pool stopped: " ++ slots.repr ++ " slots, " ++ summary.attempts.repr ++
      " attempts, " ++ summary.completedSessions.repr ++ " sessions, " ++
      summary.failedAttempts.repr ++ " failures") = _
    simp only [String.append_assoc]
    rw [words_before (by decide : "peer proxy pool stopped: " = "peer proxy pool stopped:" ++ " "),
      words_word_append (blank_notMem_repr slots) (by decide : " slots, " = " " ++ "slots, "),
      words_before (by decide : "slots, " = "slots," ++ " "),
      words_word_append (blank_notMem_repr _) (by decide : " attempts, " = " " ++ "attempts, "),
      words_before (by decide : "attempts, " = "attempts," ++ " "),
      words_word_append (blank_notMem_repr _) (by decide : " sessions, " = " " ++ "sessions, "),
      words_before (by decide : "sessions, " = "sessions," ++ " "),
      words_word (blank_notMem_repr _) (by decide : " failures" = " " ++ "failures")]
  rw [readLine, hwords]
  show (do some (Record.pool (← readNumber slots.repr) (← readNumber summary.attempts.repr)
    (← readNumber summary.completedSessions.repr) (← readNumber summary.failedAttempts.repr))) = _
  rw [readNumber_repr, readNumber_repr, readNumber_repr, readNumber_repr]
  rfl

/-! ## Control characters -/

/-- The texts of the standard library have no control characters. -/
structure Formats.Printable (formats : Formats) : Prop where
  duration : ∀ duration, hasControl (formats.duration duration) = false
  remote : ∀ remote, hasControl (formats.remote remote) = false

/-- A token has no control characters. -/
theorem hasControl_token {text : String} (h : isSubprotocolToken text = true) :
    hasControl text = false := by
  rw [hasControl, List.any_eq_false]
  intro char hchar
  obtain ⟨byte, hbyte⟩ : ∃ byte, byte ∈ String.utf8EncodeChar char :=
    List.exists_mem_of_ne_nil _ String.utf8EncodeChar_ne_nil
  have hgraphic := (Egress.byte_of_token h (Text.mem_utf8 hchar hbyte)).1
  simp only [isAsciiGraphic, Bool.and_eq_true, decide_eq_true_eq, UInt8.le_iff_toNat_le] at hgraphic
  have hlow : 33 ≤ byte.toNat := hgraphic.1
  have hhigh : byte.toNat ≤ 126 := hgraphic.2
  obtain ⟨hascii, hcode⟩ := Text.lt_of_mem_utf8EncodeChar hbyte (by omega)
  rw [hcode, UInt8.toNat_ofNat'] at hlow hhigh
  simp only [Text.isControl, Bool.or_eq_true, decide_eq_true_eq, beq_iff_eq]
  omega

/-- Only the line of a failed attempt can have control characters. -/
theorem hasControl_line {formats : Formats} (hformats : formats.Printable) {tagged : PoolEvent}
    (h : tagged.event.isVetted = true) (hevent : isFailed tagged.event = false) :
    hasControl (line formats tagged) = false := by
  obtain ⟨slot, event⟩ := tagged
  have hjoin := fun {text other : String} ↦ @hasControl_append_eq_false text other
  have htext : hasControl (eventText formats event) = false := by
    cases event with
    | attemptStarted attempt => exact hjoin (by decide) (hasControl_repr attempt)
    | peerConnected sessionId remote =>
        exact hjoin (hjoin (hjoin (hjoin (by decide) (hasControl_token h)) (by decide))
          (hformats.remote remote)) (by decide)
    | peerDisconnected sessionId => exact hjoin (hjoin (by decide) (hasControl_token h)) (by decide)
    | sessionEnded attempt outcome duration retryIn =>
        have hend : hasControl (debugRelayEnd outcome.relayEnd) = false := by
          cases outcome.relayEnd <;> decide
        exact hjoin (hjoin (hjoin (hjoin (hjoin (hjoin (hjoin (hjoin (hjoin (by decide)
          (hasControl_repr attempt)) (by decide)) (hasControl_token h)) (by decide)) hend)
          (by decide)) (hformats.duration duration)) (by decide)) (hformats.duration retryIn)
    | attemptFailed => simp [isFailed] at hevent
    | stopped summary =>
        exact hjoin (hjoin (hjoin (hjoin (hjoin (hjoin (by decide) (hasControl_repr _)) (by decide))
          (hasControl_repr _)) (by decide)) (hasControl_repr _)) (by decide)
  exact hjoin (hjoin (hjoin (by decide) (hasControl_repr slot)) (by decide)) htext

/-- The last line has no control characters. -/
theorem hasControl_totals (slots : Nat) (summary : SupervisorPoolSummary) :
    hasControl (totals slots summary) = false := by
  have hjoin := fun {text other : String} ↦ @hasControl_append_eq_false text other
  exact hjoin (hjoin (hjoin (hjoin (hjoin (hjoin (hjoin (hjoin (by decide) (hasControl_repr _))
    (by decide)) (hasControl_repr _)) (by decide)) (hasControl_repr _)) (by decide))
    (hasControl_repr _)) (by decide)

end Unbounded.Program
