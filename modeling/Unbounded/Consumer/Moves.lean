import Unbounded.Consumer.Session

/-!
# The signaling steps of a consumer session

What a step of a consumer session can be, as far as its exchanges with the signaling server go. The
control points up to the Ice message are grouped into phases that carry the messages a session still
uses, and everything after it is past. A session creates one DataChannel
(`Control.created_of_next`, `Control.created_of_channelCreated`).
-/

namespace Unbounded.Consumer

open Rtc (SessionDescription)

/-- How far a session is with its exchanges. -/
inductive Phase where
  /-- The session looks for a Genesis, and has these to choose from. -/
  | searching (candidates : List SignalMessage)
  | awaitingAnswer
  /-- An Answer came, and its description is not set yet. -/
  | answered (answerSignal : SignalMessage) (answer : SessionDescription)
  | applied (answerSignal : SignalMessage)
  | past
  deriving DecidableEq, Repr

/-- The phase of a control point. -/
def Control.phase : Control → Phase
  | .connecting | .creatingChannel | .subscribing | .discovering => .searching []
  | .collecting candidates | .choosing candidates => .searching candidates
  | .offering genesis => .searching [genesis]
  | .awaitingAnswer _ => .awaitingAnswer
  | .promising _ signal answer | .settingLocal _ signal answer | .settingRemote signal answer =>
      .answered signal answer
  | .gathering signal => .applied signal
  | _ => .past

/-- Everything a step of a session can be. -/
inductive Move (codec : Codec) (config : ConsumerConfig) :
    Control → Input → Effect → Control → Prop where
  | search {control input following candidates kept}
      (hcontrol : control.phase = .searching candidates)
      (hfollowing : following.phase = .searching kept)
      (hkept : ∀ message ∈ kept, message ∈ candidates) :
      Move codec config control input .none following
  | advertise {control following candidates kept message}
      (hcontrol : control.phase = .searching candidates)
      (hfollowing : following.phase = .searching kept)
      (hkept : ∀ other ∈ kept, other ∈ candidates ∨ (other = message ∧ message.kind = .genesis)) :
      Move codec config control (.advertised (.ok (some message))) .none following
  | offer {genesis offer payload} (hpayload : codec.encodeOffer ⟨offer, config.tag⟩ = .ok payload) :
      Move codec config (.offering genesis) (.offerCreated (.ok offer))
        (.post genesis.replyTo .offer payload) (.awaitingAnswer offer)
  | answer {offer signal answer} (hkind : signal.kind = .answer)
      (hdecode : codec.decodeAnswer signal.payload = .ok answer) :
      Move codec config (.awaitingAnswer offer) (.replied (.ok (some signal))) .none
        (.promising offer signal answer)
  | prepare {control input following signal answer}
      (hcontrol : control.phase = .answered signal answer)
      (hfollowing : following.phase = .answered signal answer) :
      Move codec config control input .none following
  | apply {signal answer} :
      Move codec config (.settingRemote signal answer) (.remoteSet (.ok ())) .none
        (.gathering signal)
  | ice {signal candidates payload}
      (hpayload : codec.encodeIce ⟨candidates.map .ofCandidate, config.consumerSessionId⟩ =
        .ok payload) :
      Move codec config (.gathering signal) (.gathered candidates)
        (.post signal.replyTo .ice payload) .awaitingIce
  | past {control input following} (hfollowing : following.phase = .past) :
      Move codec config control input .none following

/-- Every step of a consumer session is a `Move`. -/
theorem move_of_next {codec : Codec} {config : ConsumerConfig} {control following : Control}
    {input : Input} {effect : Effect}
    (h : control.next codec config input = some (effect, following)) :
    Move codec config control input effect following := by
  have hpast : ∀ moved, moved.phase = .past → some (Effect.none, moved) = some (effect, following) →
      Move codec config control input effect following := by
    intro moved hmoved heq
    simp only [Option.some.injEq, Prod.mk.injEq] at heq
    obtain ⟨rfl, rfl⟩ := heq
    exact .past hmoved
  have hsearch : ∀ candidates kept moved, control.phase = .searching candidates →
      moved.phase = .searching kept → (∀ message ∈ kept, message ∈ candidates) →
      some (Effect.none, moved) = some (effect, following) →
      Move codec config control input effect following := by
    intro candidates kept moved hcontrol hmoved hkept heq
    simp only [Option.some.injEq, Prod.mk.injEq] at heq
    obtain ⟨rfl, rfl⟩ := heq
    exact .search hcontrol hmoved hkept
  have hprepare : ∀ signal answer moved, control.phase = .answered signal answer →
      moved.phase = .answered signal answer →
      some (Effect.none, moved) = some (effect, following) →
      Move codec config control input effect following := by
    intro signal answer moved hcontrol hmoved heq
    simp only [Option.some.injEq, Prod.mk.injEq] at heq
    obtain ⟨rfl, rfl⟩ := heq
    exact .prepare hcontrol hmoved
  unfold Control.next at h
  split at h
  -- the session fails, or is past its exchanges
  case h_2 | h_4 | h_6 | h_8 | h_9 | h_13 | h_16 | h_18 | h_19 | h_22 | h_24 | h_26 | h_27 | h_28
      | h_29 | h_30 | h_31 | h_32 | h_33 | h_34 | h_35 | h_36 | h_37 =>
    exact hpast _ rfl h
  case h_1 | h_3 | h_5 =>
    exact hsearch _ _ _ rfl rfl (by simp) h
  case h_10 | h_12 =>
    exact hsearch _ _ _ rfl rfl (fun _ hmem ↦ hmem) h
  case h_20 | h_21 =>
    exact hprepare _ _ _ rfl rfl h
  case h_7 message =>
    simp only [Option.some.injEq, Prod.mk.injEq] at h
    obtain ⟨rfl, rfl⟩ := h
    by_cases hkind : message.kind = .genesis
    · rw [if_pos hkind]
      exact .advertise rfl rfl fun other hmem ↦ .inr ⟨by simpa using hmem, hkind⟩
    · rw [if_neg hkind]
      exact .search rfl rfl (by simp)
  case h_11 candidates message =>
    simp only [Option.some.injEq, Prod.mk.injEq] at h
    obtain ⟨rfl, rfl⟩ := h
    by_cases hkind : message.kind = .genesis
    · rw [if_pos hkind]
      refine .advertise rfl rfl fun other hmem ↦ ?_
      rcases List.mem_append.mp hmem with hold | hnew
      · exact .inl hold
      · exact .inr ⟨by simpa using hnew, hkind⟩
    · rw [if_neg hkind]
      exact .search rfl rfl fun _ hmem ↦ hmem
  case h_14 candidates index =>
    simp only [Option.map_eq_some_iff, Prod.mk.injEq] at h
    obtain ⟨genesis, hgenesis, rfl, rfl⟩ := h
    refine .search rfl rfl fun message hmem ↦ ?_
    obtain rfl : message = genesis := by simpa using hmem
    exact List.mem_of_getElem? hgenesis
  case h_15 genesis offer =>
    split at h
    · next payload hpayload =>
      simp only [Option.some.injEq, Prod.mk.injEq] at h
      obtain ⟨rfl, rfl⟩ := h
      exact .offer hpayload
    · exact hpast _ rfl h
  case h_17 offer signal =>
    unfold expectSignal at h
    by_cases hkind : signal.kind = .answer
    · simp only [hkind, if_true] at h
      split at h
      · next answer hdecode =>
        simp only [Option.some.injEq, Prod.mk.injEq] at h
        obtain ⟨rfl, rfl⟩ := h
        exact .answer hkind hdecode
      · exact hpast _ rfl h
    · simp only [hkind, if_false] at h
      exact hpast _ rfl h
  case h_23 =>
    simp only [Option.some.injEq, Prod.mk.injEq] at h
    obtain ⟨rfl, rfl⟩ := h
    exact .apply
  case h_25 signal candidates =>
    split at h
    · next payload hpayload =>
      simp only [Option.some.injEq, Prod.mk.injEq] at h
      obtain ⟨rfl, rfl⟩ := h
      exact .ice hpayload
    · exact hpast _ rfl h
  case h_38 | h_39 =>
    split at h
    · exact hpast _ rfl h
    · simp at h
  case h_40 => simp at h

/-! ## The DataChannel of a session -/

variable {codec : Codec} {config : ConsumerConfig} {control following : Control} {input : Input}
  {effect : Effect}

/-- The session is past the creation of its DataChannel. -/
def Control.created : Control → Bool
  | .connecting | .creatingChannel => false
  | _ => true

/-- A session that is past the creation of its DataChannel does not come back to it. -/
theorem Control.created_of_next (h : control.next codec config input = some (effect, following))
    (hcreated : control.created = true) : following.created = true := by
  unfold Control.next at h
  split at h
  -- the session is not past it
  case h_1 | h_2 | h_3 | h_4 => cases hcreated
  case h_7 =>
    cases h
    split <;> rfl
  case h_14 =>
    simp only [Option.map_eq_some_iff, Prod.mk.injEq] at h
    obtain ⟨_, _, _, rfl⟩ := h
    rfl
  case h_15 | h_25 | h_38 | h_39 => split at h <;> cases h <;> rfl
  case h_17 =>
    split at h
    · cases h
      rfl
    · split at h <;> cases h <;> rfl
  case h_40 => cases h
  all_goals
    cases h
    rfl

/-- The step that creates a DataChannel gets the session past it. -/
theorem Control.created_of_channelCreated
    (h : control.next codec config (.channelCreated (.ok ())) = some (effect, following)) :
    control.created = false ∧ following.created = true := by
  cases control with
  | creatingChannel =>
      obtain ⟨rfl, rfl⟩ := Prod.mk.inj (Option.some.inj h)
      exact ⟨rfl, rfl⟩
  | _ => simp [Control.next] at h

end Unbounded.Consumer
