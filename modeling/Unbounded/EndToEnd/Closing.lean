import Unbounded.Consumer.Session
import Unbounded.Execution.Bracket
import Unbounded.PeerProxy.Session

/-!
# Peer connections are closed

Both sessions create one peer connection, work with it inside a `select!`, and close it on the way
out. A session of the peer proxy enters its `select!` as soon as the connection exists. A session of
the consumer creates the DataChannel first, and returns without closing the connection when that
fails. So every connection is closed exactly once, but for those of the consumer whose DataChannel
could not be created.
-/

namespace Unbounded

open Execution (Exec)
open Execution.Bracket (Brackets)

/-! ## The consumer -/

namespace Consumer

/-- How far a session is with its connection. -/
def Control.bracket : Control → Execution.Bracket.Phase SessionResult
  | .connecting => .idle
  | .creatingChannel => .held
  | .closing result => .releasing result
  | .returned result => .returned result
  | .dropped => .dropped
  | _ => .guarded

/-- What an input means for the connection. -/
def Input.bracket : Input → Execution.Bracket.Kind
  | .connected (.ok ()) => .acquire
  | .channelCreated (.error _) => .abandon
  | .cancelled => .cancel
  | .closed => .release
  | _ => .other

/-- Cancellation is observed in the `select!` only. -/
theorem Control.guarded_of_cancellable {control : Control} (h : control.cancellable = true) :
    control.bracket = .guarded := by
  cases control <;> first | rfl | cases h

/-- A session creates its connection, works with it and closes it, but abandons it when the
DataChannel cannot be created. -/
theorem brackets (codec : Codec) (config : ConsumerConfig) :
    Brackets (Control.next codec config) Control.bracket Input.bracket (.error .cancelled) := by
  intro control input effect following h
  have hwork : ∀ effect' moved, control.bracket = .guarded → input.bracket = .other →
      moved.bracket = .guarded → some (effect', moved) = some (effect, following) →
      Execution.Bracket.Step (.error .cancelled) control.bracket input.bracket
        following.bracket := by
    intro effect' moved hcontrol hinput hmoved heq
    simp only [Option.some.injEq, Prod.mk.injEq] at heq
    obtain ⟨_, rfl⟩ := heq
    rw [hcontrol, hinput, hmoved]
    exact .work
  have hleave : ∀ result, control.bracket = .guarded → input.bracket = .other →
      some (Effect.none, .closing result) = some (effect, following) →
      Execution.Bracket.Step (.error .cancelled) control.bracket input.bracket
        following.bracket := by
    intro result hcontrol hinput heq
    simp only [Option.some.injEq, Prod.mk.injEq] at heq
    obtain ⟨_, rfl⟩ := heq
    rw [hcontrol, hinput]
    exact .leave
  unfold Control.next at h
  split at h
  -- the session goes on inside its `select!`
  case h_5 | h_10 | h_11 | h_12 | h_20 | h_21 | h_23 | h_26 | h_28 | h_32 | h_34 =>
    exact hwork _ _ rfl rfl rfl h
  case h_7 message => exact hwork _ _ rfl rfl (by split <;> rfl) h
  -- and leaves it with a result
  case h_6 | h_8 | h_9 | h_13 | h_16 | h_18 | h_19 | h_22 | h_24 | h_27 | h_29 | h_30 | h_31 | h_33
      | h_35 | h_36 =>
    exact hleave _ rfl rfl h
  case h_14 candidates index =>
    simp only [Option.map_eq_some_iff, Prod.mk.injEq] at h
    obtain ⟨genesis, _, rfl, rfl⟩ := h
    exact .work
  case h_15 | h_25 =>
    split at h
    · exact hwork _ _ rfl rfl rfl h
    · exact hleave _ rfl rfl h
  case h_17 offer signal =>
    split at h
    · exact hleave _ rfl rfl h
    · split at h
      · exact hwork _ _ rfl rfl rfl h
      · exact hleave _ rfl rfl h
  case h_1 | h_2 | h_3 | h_4 | h_37 =>
    simp only [Control.abort, Option.some.injEq, Prod.mk.injEq] at h
    obtain ⟨rfl, rfl⟩ := h
    constructor
  case h_38 =>
    split at h
    case isFalse => simp at h
    case isTrue hcancellable =>
      simp only [Control.fail, Option.some.injEq, Prod.mk.injEq] at h
      obtain ⟨rfl, rfl⟩ := h
      rw [Control.guarded_of_cancellable hcancellable]
      exact .cancel
  case h_39 =>
    split at h
    case isFalse => simp at h
    case isTrue =>
      simp only [Option.some.injEq, Prod.mk.injEq] at h
      obtain ⟨rfl, rfl⟩ := h
      exact .drop
  case h_40 => simp at h

/-- The connection is released by closing it. -/
theorem count_closed (inputs : List Input) :
    inputs.count .closed = inputs.countP fun input ↦ input.bracket == .release := by
  rw [List.count_eq_countP]
  refine List.countP_congr fun input _ ↦ ?_
  unfold Input.bracket
  split <;> simp_all

/-- The connection is abandoned when the DataChannel cannot be created. -/
theorem channelCreated_of_abandon {input : Input} (h : input.bracket = .abandon) :
    ∃ error, input = .channelCreated (.error error) := by
  unfold Input.bracket at h
  split at h
  case h_2 error => exact ⟨error, rfl⟩
  all_goals cases h

end Consumer

/-! ## The peer proxy -/

namespace PeerProxy

open Egress (EgressError)
open Relay (RelayEnd RelayError)
open Rtc (ChannelWait SessionDescription)
open Signaling (Reply)

/-- How far a session is with its connection. -/
def Control.bracket : Control → Execution.Bracket.Phase SessionResult
  | .connecting => .idle
  | .closing result => .releasing result
  | .returned result => .returned result
  | .dropped => .dropped
  | _ => .guarded

/-- What an input means for the connection. -/
def Input.bracket : Input → Execution.Bracket.Kind
  | .connected (.ok ()) => .acquire
  | .cancelled => .cancel
  | .closed => .release
  | _ => .other

/-- Cancellation is observed in the `select!` only. -/
theorem Control.guarded_of_cancellable {control : Control} (h : control.cancellable = true) :
    control.bracket = .guarded := by
  cases control <;> first | rfl | cases h

/-- Where a part of the session inside the `select!` can lead. -/
def Control.inside (control : Control) : Prop :=
  control.bracket = .guarded ∨ ∃ result, control = .closing result

/-- A session that fails leaves its `select!`. -/
theorem Control.inside_fail (error : PeerProxyError) : (fail error).2.inside :=
  .inr ⟨_, rfl⟩

/-- The Genesis is posted inside the `select!`. -/
theorem Control.inside_advertise (codec : Codec) : (advertise codec).2.inside := by
  unfold advertise
  split
  · exact .inl rfl
  · exact inside_fail _

/-- The Offer is read inside the `select!`. -/
theorem Control.inside_afterOffer (codec : Codec) (reply : Reply) :
    (afterOffer codec reply).2.inside := by
  unfold afterOffer
  split
  · exact inside_fail _
  · exact inside_fail _
  · split
    · exact inside_fail _
    · exact .inl rfl

/-- The Answer is posted inside the `select!`. -/
theorem Control.inside_answer (codec : Codec) (signal : SignalMessage)
    (description : Option SessionDescription) : (answer codec signal description).2.inside := by
  unfold answer
  split
  · exact inside_fail _
  · split
    · exact inside_fail _
    · exact .inl rfl

/-- The candidates are added inside the `select!`. -/
theorem Control.inside_withCandidates (id : String) (candidates : List PionIceCandidate) :
    (withCandidates id candidates).inside := by
  cases candidates <;> exact .inl rfl

/-- The candidates are read inside the `select!`. -/
theorem Control.inside_afterIce (codec : Codec) (reply : Reply) :
    (afterIce codec reply).2.inside := by
  unfold afterIce
  split
  · exact inside_fail _
  · exact inside_fail _
  · split
    · exact inside_fail _
    · split
      · exact inside_fail _
      · exact inside_withCandidates _ _

/-- The session waits for its DataChannel inside the `select!`. -/
theorem Control.inside_afterWait (id : String) (result : ChannelWait) :
    (afterWait id result).2.inside := by
  cases result with
  | opened =>
      rw [afterWait]
      split
      · exact .inl rfl
      · exact inside_fail _
  | natTimeout | closed | ended => exact inside_fail _

/-- The relay runs inside the `select!`. -/
theorem Control.inside_afterRelay (id : String) (duration : Duration)
    (result : Except (RelayError String EgressError) RelayEnd) :
    (afterRelay id duration result).2.inside := by
  cases result <;> exact .inr ⟨_, rfl⟩

/-- A session creates its connection, works with it and closes it. -/
theorem brackets (codec : Codec) :
    Brackets (Control.next codec) Control.bracket Input.bracket (.error .cancelled) := by
  intro control input effect following h
  have hinside : ∀ outcome : Effect × Control, outcome.2.inside → control.bracket = .guarded →
      input.bracket = .other → some outcome = some (effect, following) →
      Execution.Bracket.Step (.error .cancelled) control.bracket input.bracket
        following.bracket := by
    intro outcome hinside hcontrol hinput heq
    simp only [Option.some.injEq] at heq
    subst heq
    rw [hcontrol, hinput]
    rcases hinside with hstays | ⟨result, hleaves⟩
    · rw [hstays]
      exact .work
    · obtain rfl : following = .closing result := hleaves
      exact .leave
  unfold Control.next at h
  split at h
  case h_3 => exact hinside _ (Control.inside_afterOffer codec _) rfl rfl h
  case h_12 => exact hinside _ (Control.inside_answer codec _ _) rfl rfl h
  case h_13 => exact hinside _ (Control.inside_afterIce codec _) rfl rfl h
  case h_14 => exact hinside _ (Control.inside_withCandidates _ _) rfl rfl h
  case h_17 => exact hinside _ (Control.inside_afterWait _ _) rfl rfl h
  case h_20 => exact hinside _ (Control.inside_afterRelay _ _ _) rfl rfl h
  case h_4 | h_6 | h_8 | h_9 | h_11 | h_18 => exact hinside _ (.inl rfl) rfl rfl h
  case h_5 | h_7 | h_10 | h_15 | h_16 | h_19 => exact hinside _ (Control.inside_fail _) rfl rfl h
  case h_1 =>
    simp only [Option.some.injEq] at h
    have hadvertise := Control.inside_advertise codec
    rw [h] at hadvertise
    rcases hadvertise with hstays | ⟨result, hleaves⟩
    · rw [hstays]
      exact .acquireGuarded
    · obtain rfl : following = .closing result := hleaves
      exact .acquireReleasing
  case h_2 | h_21 =>
    simp only [Option.some.injEq, Prod.mk.injEq] at h
    obtain ⟨rfl, rfl⟩ := h
    constructor
  case h_22 =>
    split at h
    case isFalse => simp at h
    case isTrue hcancellable =>
      simp only [Control.fail, Option.some.injEq, Prod.mk.injEq] at h
      obtain ⟨rfl, rfl⟩ := h
      rw [Control.guarded_of_cancellable hcancellable]
      exact .cancel
  case h_23 =>
    split at h
    case isFalse => simp at h
    case isTrue =>
      simp only [Option.some.injEq, Prod.mk.injEq] at h
      obtain ⟨rfl, rfl⟩ := h
      exact .drop
  case h_24 => simp at h

/-- The connection is released by closing it. -/
theorem count_closed (inputs : List Input) :
    inputs.count .closed = inputs.countP fun input ↦ input.bracket == .release := by
  rw [List.count_eq_countP]
  refine List.countP_congr fun input _ ↦ ?_
  unfold Input.bracket
  split <;> simp_all

/-- The connection is never abandoned. -/
theorem not_abandon (input : Input) : input.bracket ≠ .abandon := by
  unfold Input.bracket
  split <;> simp

end PeerProxy

/-! ## Both sides -/

/-- When a session that created its connection has returned, it has closed the connection exactly
once; in the consumer this holds exactly when the DataChannel could be created. A session whose
`select!` observed a cancellation returns `Cancelled`. -/
theorem connections_closed_once (consumerCodec : Consumer.Codec) (config : Consumer.ConsumerConfig)
    (peerCodec : PeerProxy.Codec) :
    (∀ log result,
      Exec (Consumer.Control.next consumerCodec config) .connecting log (.returned result) →
      .connected (.ok ()) ∈ log.map Prod.fst →
      ((log.map Prod.fst).count .closed = 1 ↔
        ∀ error, .channelCreated (.error error) ∉ log.map Prod.fst) ∧
      (.cancelled ∈ log.map Prod.fst → result = .error .cancelled)) ∧
    (∀ log result, Exec (PeerProxy.Control.next peerCodec) .connecting log (.returned result) →
      .connected (.ok ()) ∈ log.map Prod.fst →
      (log.map Prod.fst).count .closed = 1 ∧
      (.cancelled ∈ log.map Prod.fst → result = .error .cancelled)) := by
  constructor
  · intro log result h hconnected
    obtain ⟨hclosed, hcancelled⟩ :=
      (Consumer.brackets consumerCodec config).returned rfl h rfl hconnected rfl
    refine ⟨?_, fun hmem ↦ hcancelled _ hmem rfl⟩
    rw [Consumer.count_closed, hclosed]
    constructor
    · intro hnone error hmem
      exact hnone _ hmem rfl
    · intro hnone input hmem hkind
      obtain ⟨error, rfl⟩ := Consumer.channelCreated_of_abandon hkind
      exact hnone error hmem
  · intro log result h hconnected
    obtain ⟨hclosed, hcancelled⟩ := (PeerProxy.brackets peerCodec).returned rfl h rfl hconnected rfl
    refine ⟨?_, fun hmem ↦ hcancelled _ hmem rfl⟩
    rw [PeerProxy.count_closed, hclosed]
    exact fun input _ ↦ PeerProxy.not_abandon input

/-- A consumer session whose DataChannel cannot be created returns without having closed its
connection. -/
theorem connection_left_open : ∃ log,
    Exec (Consumer.Control.next .plain ⟨"id", "tag", 1⟩) .connecting log
      (.returned (.error (.webRtc "no SCTP transport"))) ∧
    .connected (.ok ()) ∈ log.map Prod.fst ∧ (log.map Prod.fst).count .closed = 0 := by
  have hrun : Execution.run (Consumer.Control.next .plain ⟨"id", "tag", 1⟩)
      [.connected (.ok ()), .channelCreated (.error "no SCTP transport")] ([], .connecting) =
      some (_, _) := rfl
  exact ⟨_, Execution.exec_of_run hrun, by simp, by simp⟩

end Unbounded
