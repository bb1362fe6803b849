import Unbounded.Supervisor.Worker
import Unbounded.Wire.Decoding

/-!
# What a remote consumer writes into reported errors

The payloads of the Offer and of the ICE signal come from a remote consumer. When one of them cannot
be decoded, the session fails with what the decoder reports, and the supervisor puts the text of
that error into an `AttemptFailed` event, which is printed as it is.

`Traced` follows every decode error of a run back to a payload that a session received.
`remote_payload_texts` says exactly when the text has a control character: when the payload is
refused for an unknown variant that has one. `control_byte_reported` is a run in which that happens.
-/

namespace Unbounded.Supervisor

open Json (Report Value)
open PeerProxy (Codec Peer PeerProxyError)
open Text (hasControl utf8)
open Wire (Serde)

/-- `Display` of a `PeerProxyError`. The texts of the errors that are not about a payload are
`rest`. -/
def displayError (rest : PeerProxyError → String) : PeerProxyError → String
  | .decode step source => "invalid " ++ step ++ " signaling payload: " ++ source
  | error => rest error

/-- The codec of a session that decodes with a library. -/
def withSerde (serde : Serde) (codec : Codec) : Codec :=
  { codec with
    decodeOffer := fun payload ↦ (Wire.decodeOfferPayload serde payload).mapError serde.display
    decodeIce := fun payload ↦ (Wire.decodeIcePayload serde payload).mapError serde.display }

/-- What is reported when nothing was decoded. -/
def reported {Message : Type} : Except Report Message → Option Report
  | .error report => some report
  | .ok _ => none

/-- A report comes from an error. -/
theorem eq_error_of_reported {Message : Type} {result : Except Report Message} {report : Report}
    (h : reported result = some report) : result = .error report := by
  cases result with
  | error found =>
      cases h
      rfl
  | ok => cases h

/-- The signals whose payload comes from a remote consumer. -/
inductive Remote where
  | offer
  | ice
  deriving DecidableEq, Repr

namespace Remote

/-- The kind of the signal. -/
def kind : Remote → SignalMessageType
  | .offer => .offer
  | .ice => .ice

/-- What the signal is called in an error. -/
def step : Remote → String
  | .offer => "offer"
  | .ice => "ICE"

/-- Where a session waits for the signal. -/
def control : Remote → PeerProxy.Control
  | .offer => .awaitingOffer
  | .ice => .awaitingIce

/-- What is reported about a payload that cannot be decoded. -/
def refusal (serde : Serde) (payload : String) : Remote → Option Report
  | .offer => reported (Wire.decodeOfferPayload serde payload)
  | .ice => reported (Wire.decodeIcePayload serde payload)

end Remote

variable {serde : Serde} {codec : Codec} {rest : PeerProxyError → String} {remote : Remote}
  {payload : String} {report : Report}

/-- The report about a remote payload has no names from it. -/
theorem static_of_refusal (h : remote.refusal serde payload = some report) : report.Static := by
  cases remote with
  | offer =>
      exact Wire.static_of_decodePayload (Wire.covers_offer serde) (Wire.quiet_offer serde)
        (eq_error_of_reported h)
  | ice =>
      exact Wire.static_of_decodePayload (Wire.covers_ice serde) (Wire.quiet_ice serde)
        (eq_error_of_reported h)

/-- The error of a session that could not decode a payload. -/
def refused (serde : Serde) (remote : Remote) (report : Report) : PeerProxyError :=
  .decode remote.step (serde.display report)

/-- A session that cannot decode a payload fails with what was reported. -/
theorem next_of_refusal (h : remote.refusal serde payload = some report) (replyTo : String) :
    PeerProxy.Control.next (withSerde serde codec) remote.control
        (.replied (.ok (some ⟨replyTo, remote.kind, payload⟩))) =
      some (.none, .closing (.error (refused serde remote report))) := by
  cases remote with
  | offer =>
      have hdecode : Wire.decodeOfferPayload serde payload = .error report := eq_error_of_reported h
      simp [PeerProxy.Control.next, Remote.control, Remote.kind, PeerProxy.Control.afterOffer,
        PeerProxy.readOffer, PeerProxy.readSignal, PeerProxy.expectSignal, withSerde, hdecode,
        Except.mapError, PeerProxy.Control.fail, refused, Remote.step]
  | ice =>
      have hdecode : Wire.decodeIcePayload serde payload = .error report := eq_error_of_reported h
      simp [PeerProxy.Control.next, Remote.control, Remote.kind, PeerProxy.Control.afterIce,
        PeerProxy.readIce, PeerProxy.readSignal, PeerProxy.expectSignal, withSerde, hdecode,
        Except.mapError, PeerProxy.Control.fail, refused, Remote.step]

/-! ## The text of a refusal -/

/-- The text of a report has a control character exactly if an unknown variant has one. -/
theorem hasControl_display_iff (hstatic : report.Static) :
    hasControl (serde.display report) = true ↔
      ∃ variant, report = .unknownVariant variant ∧ hasControl variant = true := by
  constructor
  · intro hcontrol
    by_cases hvariant : ∃ variant, report = .unknownVariant variant
    · obtain ⟨variant, rfl⟩ := hvariant
      obtain ⟨before, after, htext, hbefore, hafter⟩ := serde.display_unknownVariant variant
      rw [htext, Text.hasControl_append, Text.hasControl_append, hbefore, hafter] at hcontrol
      exact ⟨variant, rfl, by simpa using hcontrol⟩
    · have hclean := serde.display_other report hstatic fun variant heq ↦ hvariant ⟨variant, heq⟩
      rw [hclean] at hcontrol
      cases hcontrol
  · rintro ⟨variant, rfl, hvariant⟩
    obtain ⟨before, after, htext, _, _⟩ := serde.display_unknownVariant variant
    rw [htext, Text.hasControl_append, Text.hasControl_append, hvariant]
    simp

/-- What stands before the report in the text of an error has no control character. -/
theorem hasControl_step (remote : Remote) :
    hasControl ("invalid " ++ remote.step ++ " signaling payload: ") = false := by
  cases remote <;> decide +kernel

/-- The text of a refusal has a control character exactly if an unknown variant has one. -/
theorem hasControl_refused_iff (h : remote.refusal serde payload = some report) :
    hasControl (displayError rest (refused serde remote report)) = true ↔
      ∃ variant, report = .unknownVariant variant ∧ hasControl variant = true := by
  rw [← hasControl_display_iff (static_of_refusal h)]
  show hasControl (("invalid " ++ remote.step ++ " signaling payload: ") ++ serde.display report) =
    true ↔ _
  rw [Text.hasControl_append, hasControl_step, Bool.false_or]

/-! ## Where decode errors come from -/

/-- The error that a session is about to return, or has returned. -/
def sessionFailure : PeerProxy.Control → Option PeerProxyError
  | .closing (.error error) | .returned (.error error) => some error
  | _ => none

/-- The error that a supervisor has got from a session. -/
def supervisedFailure : Control → Option PeerProxyError
  | .examining (.error error) _ | .reporting (.error error) _ => some error
  | _ => none

/-- The error is not about a payload. -/
def PayloadFree (control : PeerProxy.Control) : Prop :=
  ∀ step source, sessionFailure control ≠ some (.decode step source)

/-- The start of the session decodes nothing. -/
theorem payloadFree_advertise (codec : Codec) :
    PayloadFree (PeerProxy.Control.advertise codec).2 := by
  intro step source
  unfold PeerProxy.Control.advertise
  split <;> exact nofun

/-- Preparing the Answer decodes nothing. -/
theorem payloadFree_answer (codec : Codec) (signal : SignalMessage)
    (description : Option Rtc.SessionDescription) :
    PayloadFree (PeerProxy.Control.answer codec signal description).2 := by
  intro step source
  unfold PeerProxy.Control.answer
  split
  · exact nofun
  · split <;> exact nofun

/-- Going on with the candidates decodes nothing. -/
theorem payloadFree_withCandidates (id : String) (candidates : List PeerProxy.PionIceCandidate) :
    PayloadFree (PeerProxy.Control.withCandidates id candidates) := by
  intro step source
  cases candidates <;> exact nofun

/-- The end of the wait for the DataChannel decodes nothing. -/
theorem payloadFree_afterWait (id : String) (result : Rtc.ChannelWait) :
    PayloadFree (PeerProxy.Control.afterWait id result).2 := by
  intro step source
  cases result with
  | opened =>
      simp only [PeerProxy.Control.afterWait]
      split <;> exact nofun
  | _ => exact nofun

/-- The end of the relay decodes nothing. -/
theorem payloadFree_afterRelay (id : String) (duration : Duration)
    (result : Except (Relay.RelayError String Egress.EgressError) Relay.RelayEnd) :
    PayloadFree (PeerProxy.Control.afterRelay id duration result).2 := by
  intro step source
  cases result <;> exact nofun

/-- The check of a session ID decodes nothing. -/
theorem checkSessionId_ne_decode (id step source : String) :
    PeerProxy.checkSessionId id ≠ .error (.decode step source) := by
  unfold PeerProxy.checkSessionId
  split
  · exact nofun
  · split <;> exact nofun

/-- The input is a signal whose payload is refused, and the error is what was reported. -/
def Refuses (serde : Serde) (input : PeerProxy.Input) (step source : String) : Prop :=
  ∃ (remote : Remote) (replyTo payload : String) (report : Report),
    input = .replied (.ok (some ⟨replyTo, remote.kind, payload⟩)) ∧
    remote.refusal serde payload = some report ∧ step = remote.step ∧
    source = serde.display report

/-- A signal fails with a decode error only if its payload is refused. -/
theorem refuses_of_readSignal {Message : Type} (remote : Remote) {signal : SignalMessage}
    {decode : String → Except Report Message} {step source : String}
    (hrefusal : ∀ payload, remote.refusal serde payload = reported (decode payload))
    (h : PeerProxy.readSignal signal remote.kind remote.step
      (fun payload ↦ (decode payload).mapError serde.display) = .error (.decode step source)) :
    Refuses serde (.replied (.ok (some signal))) step source := by
  obtain ⟨replyTo, kind, payload⟩ := signal
  unfold PeerProxy.readSignal PeerProxy.expectSignal at h
  by_cases hkind : kind = remote.kind
  · subst hkind
    rw [if_pos rfl] at h
    cases hdecode : decode payload with
    | error report =>
        simp only [hdecode, Except.mapError, Except.error.injEq, PeerProxyError.decode.injEq] at h
        refine ⟨remote, replyTo, payload, report, rfl, ?_, h.1.symm, h.2.symm⟩
        rw [hrefusal, hdecode]
        rfl
    | ok message => simp [hdecode, Except.mapError] at h
  · simp [if_neg hkind] at h

/-- A decode error after the reply to the Genesis is about the Offer. -/
theorem refuses_afterOffer {reply : Signaling.Reply} {step source : String}
    (h : sessionFailure (PeerProxy.Control.afterOffer (withSerde serde codec) reply).2 =
      some (.decode step source)) : Refuses serde (.replied reply) step source := by
  rcases reply with error | _ | signal
  · cases h
  · cases h
  · unfold PeerProxy.Control.afterOffer at h
    cases hread : PeerProxy.readOffer (withSerde serde codec) signal with
    | ok offer => simp [hread, sessionFailure] at h
    | error error =>
        simp only [hread, PeerProxy.Control.fail, sessionFailure, Option.some.injEq] at h
        subst h
        exact refuses_of_readSignal .offer (fun _ ↦ rfl) hread

/-- A decode error after the reply to the Answer is about the ICE message. -/
theorem refuses_afterIce {reply : Signaling.Reply} {step source : String}
    (h : sessionFailure (PeerProxy.Control.afterIce (withSerde serde codec) reply).2 =
      some (.decode step source)) : Refuses serde (.replied reply) step source := by
  rcases reply with error | _ | signal
  · cases h
  · cases h
  · unfold PeerProxy.Control.afterIce at h
    cases hread : PeerProxy.readIce (withSerde serde codec) signal with
    | ok ice =>
        cases hcheck : PeerProxy.checkSessionId ice.consumerSessionId with
        | ok =>
            simp only [hread, hcheck] at h
            exact absurd h (payloadFree_withCandidates _ _ step source)
        | error error =>
            simp only [hread, hcheck, PeerProxy.Control.fail, sessionFailure,
              Option.some.injEq] at h
            exact absurd (h ▸ hcheck) (checkSessionId_ne_decode _ step source)
    | error error =>
        simp only [hread, PeerProxy.Control.fail, sessionFailure, Option.some.injEq] at h
        subst h
        exact refuses_of_readSignal .ice (fun _ ↦ rfl) hread

/-- The error of where a step leads. -/
theorem sessionFailure_of_some {result : PeerProxy.Effect × PeerProxy.Control}
    {effect : PeerProxy.Effect} {following : PeerProxy.Control} {error : PeerProxyError}
    (h : some result = some (effect, following))
    (hfailure : sessionFailure following = some error) : sessionFailure result.2 = some error := by
  obtain rfl := Option.some.inj h
  exact hfailure

/-- A session gets a decode error only from a payload that is refused. -/
theorem refuses_of_next {control following : PeerProxy.Control} {input : PeerProxy.Input}
    {effect : PeerProxy.Effect} {step source : String}
    (h : PeerProxy.Control.next (withSerde serde codec) control input = some (effect, following))
    (hfailure : sessionFailure following = some (.decode step source)) :
    sessionFailure control = some (.decode step source) ∨ Refuses serde input step source := by
  unfold PeerProxy.Control.next at h
  split at h
  case h_1 =>
    exact absurd (sessionFailure_of_some h hfailure) (payloadFree_advertise _ step source)
  case h_3 =>
    exact .inr (refuses_afterOffer (sessionFailure_of_some h hfailure))
  case h_12 =>
    exact absurd (sessionFailure_of_some h hfailure) (payloadFree_answer _ _ _ step source)
  case h_13 =>
    exact .inr (refuses_afterIce (sessionFailure_of_some h hfailure))
  case h_14 =>
    exact absurd (sessionFailure_of_some h hfailure) (payloadFree_withCandidates _ _ step source)
  case h_17 =>
    exact absurd (sessionFailure_of_some h hfailure) (payloadFree_afterWait _ _ step source)
  case h_20 =>
    exact absurd (sessionFailure_of_some h hfailure) (payloadFree_afterRelay _ _ _ step source)
  case h_21 result =>
    -- the session returns the error that it has closed its connection with
    cases h
    cases result with
    | ok => cases hfailure
    | error => exact .inl hfailure
  case h_22 | h_23 =>
    split at h
    · cases h
      cases hfailure
    · cases h
  case h_24 => cases h
  -- the session goes on, or fails for another reason
  all_goals
    cases h
    cases hfailure

/-! ## Whole runs -/

/-- A session received a remote payload. -/
def Supplied (log : Worker.Log) (remote : Remote) (payload : String) : Prop :=
  ∃ index replyTo, Worker.Op.session index
    (.session (.replied (.ok (some ⟨replyTo, remote.kind, payload⟩)))) ∈ log.map Prod.fst

/-- A decode error is about a payload that a session received and refused. -/
def Traced (serde : Serde) (log : Worker.Log) (error : PeerProxyError) : Prop :=
  ∀ step source, error = .decode step source →
    ∃ (remote : Remote) (payload : String) (report : Report), Supplied log remote payload ∧
      remote.refusal serde payload = some report ∧ error = refused serde remote report

/-- What was traced stays traced. -/
theorem Traced.cons {log : Worker.Log} {error : PeerProxyError} (h : Traced serde log error)
    (entry : Worker.Op × Worker.Out) : Traced serde (entry :: log) error := by
  intro step source herror
  obtain ⟨remote, payload, report, ⟨index, replyTo, hmem⟩, hrest⟩ := h step source herror
  exact ⟨remote, payload, report, ⟨index, replyTo, List.mem_cons_of_mem _ hmem⟩, hrest⟩

/-- Every error that a worker has or has reported is traced. -/
structure Tracing (serde : Serde) (display : PeerProxyError → String) (log : Worker.Log)
    (worker : Worker) : Prop where
  sessions : ∀ (index : Nat) (peer : Peer) (error : PeerProxyError),
    worker.sessions[index]? = some peer → sessionFailure peer.control = some error →
    Traced serde log error
  supervision : ∀ error, supervisedFailure worker.supervision.control = some error →
    Traced serde log error
  events : ∀ attempt text duration retryIn,
    SupervisorEvent.attemptFailed attempt text duration retryIn ∈ Worker.enqueued log →
    ∃ error, text = display error ∧ Traced serde log error

/-- A step of a session traces its error. -/
theorem traced_of_peer {peer moved : Peer} {op : Peer.Op} {out : Peer.Out} {log : Worker.Log}
    {index : Nat} {effect : Worker.Out} {error : PeerProxyError}
    (h : Peer.Change (withSerde serde codec) peer op out moved)
    (hbefore : ∀ error, sessionFailure peer.control = some error → Traced serde log error)
    (hfailure : sessionFailure moved.control = some error) :
    Traced serde ((.session index op, effect) :: log) error := by
  cases h with
  | @session input _ control hnext =>
      intro step source herror
      subst herror
      rcases refuses_of_next hnext hfailure with hold | ⟨remote, replyTo, payload, report, rfl,
        hrefusal, rfl, rfl⟩
      · exact (hbefore _ hold).cons _ step source rfl
      · exact ⟨remote, payload, report, ⟨index, replyTo, List.mem_cons_self⟩, hrefusal, rfl⟩
  | call | body | dropBody => exact (hbefore _ hfailure).cons _

/-- A supervisor gets its error from a session. -/
theorem supervisedFailure_of_change {display : PeerProxyError → String}
    {supervision moved : Supervision} {op : Op} {event : Option SupervisorEvent}
    {error : PeerProxyError} (h : Supervision.Change display supervision op event moved)
    (hfailure : supervisedFailure moved.control = some error) :
    supervisedFailure supervision.control = some error ∨
      ∃ duration, op = .sessionReturned (.error error) duration := by
  cases h with
  | cancel => exact .inl hfailure
  | @sessionReturned _ _ _ _ result duration =>
      cases result with
      | ok => cases hfailure
      | error =>
          cases hfailure
          exact .inr ⟨duration, rfl⟩
  | @accept _ _ _ _ result =>
      cases result with
      | ok => cases hfailure
      | error => exact .inl hfailure
  | go | give | start | abandon | report | woke | interrupted | stop => cases hfailure

/-- A supervisor reports the text of the error that it has. -/
theorem text_of_change {display : PeerProxyError → String} {supervision moved : Supervision}
    {op : Op} {attempt : Nat} {text : String} {duration retryIn : Duration}
    (h : Supervision.Change display supervision op
      (some (.attemptFailed attempt text duration retryIn)) moved) :
    ∃ error, supervisedFailure supervision.control = some error ∧ text = display error := by
  generalize hevent : some (SupervisorEvent.attemptFailed attempt text duration retryIn) =
    event at h
  cases h with
  | @report _ _ _ _ result =>
      cases result with
      | ok => cases hevent
      | error error =>
          cases hevent
          exact ⟨error, rfl, rfl⟩
  | cancel | go | give | start | sessionReturned | abandon | accept | woke | interrupted | stop =>
      cases hevent

/-- A session after a step of the supervisor was there before, or was just started. -/
theorem session_of_started {sessions : List Peer} {op : Op} {index : Nat} {peer : Peer}
    (h : (sessions ++ Worker.started op)[index]? = some peer) :
    sessions[index]? = some peer ∨ peer = .new true := by
  by_cases hlt : index < sessions.length
  · rw [List.getElem?_append_left hlt] at h
    exact .inl h
  · rw [List.getElem?_append_right (Nat.le_of_not_lt hlt)] at h
    have hmem := List.mem_of_getElem? h
    unfold Worker.started at hmem
    split at hmem
    · exact .inr (List.mem_singleton.1 hmem)
    · cases hmem

/-- The session that a supervisor awaits has returned. -/
theorem session_of_awaited {worker : Worker} {error : PeerProxyError} {duration : Duration}
    (h : worker.awaited (.sessionReturned (.error error) duration) = true) :
    ∃ (index : Nat) (peer : Peer), worker.sessions[index]? = some peer ∧
      sessionFailure peer.control = some error := by
  cases hlast : worker.sessions.getLast? with
  | none => simp [Worker.awaited, hlast] at h
  | some peer =>
      have hreturned : peer.control = .returned (.error error) := by
        simpa [Worker.awaited, hlast] using h
      rw [List.getLast?_eq_getElem?] at hlast
      exact ⟨_, peer, hlast, by rw [hreturned]; rfl⟩

variable {display : PeerProxyError → String} {log : Worker.Log} {worker following : Worker}
  {op : Worker.Op} {out : Worker.Out}

/-- A step of the supervisor keeps every error traced. -/
theorem Tracing.supervise {op : Op} {event : Option SupervisorEvent} {supervision : Supervision}
    (h : Tracing serde display log worker) (hawaited : worker.awaited op = true)
    (hnext : Supervision.next display worker.supervision op = some (event, supervision)) :
    Tracing serde display ((.supervise op, ⟨[(op, event)], event, none⟩) :: log)
      { worker with
        supervision := supervision
        sessions := worker.sessions ++ Worker.started op
        queue := worker.queue ++ event.toList } := by
  have hchange := Supervision.change_of_next hnext
  refine ⟨?_, ?_, ?_⟩
  · intro index peer error hpeer hfailure
    rcases session_of_started hpeer with hold | rfl
    · exact (h.sessions index peer error hold hfailure).cons _
    · cases hfailure
  · intro error hfailure
    rcases supervisedFailure_of_change hchange hfailure with hold | ⟨duration, rfl⟩
    · exact (h.supervision error hold).cons _
    · obtain ⟨index, peer, hpeer, hreturned⟩ := session_of_awaited hawaited
      exact (h.sessions index peer error hpeer hreturned).cons _
  · intro attempt text duration retryIn hevent
    rw [Worker.enqueued_cons] at hevent
    rcases List.mem_append.1 hevent with hnew | hold
    · obtain rfl := Option.mem_toList.1 hnew
      obtain ⟨error, hfailure, htext⟩ := text_of_change hchange
      exact ⟨error, htext, (h.supervision error hfailure).cons _⟩
    · obtain ⟨error, htext, htraced⟩ := h.events attempt text duration retryIn hold
      exact ⟨error, htext, htraced.cons _⟩

/-- A step of a session keeps every error traced. -/
theorem Tracing.session {index : Nat} {op : Peer.Op} {peer moved : Peer} {out : Peer.Out}
    (h : Tracing serde display log worker) (hpeer : worker.sessions[index]? = some peer)
    (hnext : Peer.next (withSerde serde codec) peer op = some (out, moved)) :
    Tracing serde display ((.session index op, ⟨[], worker.received out.event, none⟩) :: log)
      { worker with
        sessions := worker.sessions.set index moved
        queue := worker.queue ++ (worker.received out.event).toList } := by
  have hchange := Peer.change_of_next hnext
  refine ⟨?_, ?_, ?_⟩
  · intro other found error hfound hfailure
    rcases Execution.getElem?_set_cases hfound with ⟨_, rfl⟩ | ⟨_, hold⟩
    · exact traced_of_peer hchange (fun error ↦ h.sessions index peer error hpeer) hfailure
    · exact (h.sessions other found error hold hfailure).cons _
  · exact fun error hfailure ↦ (h.supervision error hfailure).cons _
  · intro attempt text duration retryIn hevent
    rw [Worker.enqueued_cons] at hevent
    rcases List.mem_append.1 hevent with hnew | hold
    · -- a session and its callbacks report no failed attempt
      have hsent : SupervisorEvent.attemptFailed attempt text duration retryIn ∈
          out.event.toList := by
        unfold Worker.received at hnew
        split at hnew
        · cases hnew
        · exact hnew
      have hown := List.mem_filter.2 ⟨hsent, (rfl : Worker.isOwn _ = true)⟩
      rw [Worker.isOwn_of_peer hchange] at hown
      cases hown
    · obtain ⟨error, htext, htraced⟩ := h.events attempt text duration retryIn hold
      exact ⟨error, htext, htraced.cons _⟩

/-- A step that moves neither the supervisor nor a session keeps every error traced. -/
theorem Tracing.frame (h : Tracing serde display log worker)
    (hsupervision : following.supervision = worker.supervision)
    (hsessions : following.sessions = worker.sessions) (hevent : out.enqueued = none) :
    Tracing serde display ((op, out) :: log) following := by
  refine ⟨?_, ?_, ?_⟩
  · intro index peer error hpeer hfailure
    rw [hsessions] at hpeer
    exact (h.sessions index peer error hpeer hfailure).cons _
  · intro error hfailure
    rw [hsupervision] at hfailure
    exact (h.supervision error hfailure).cons _
  · intro attempt text duration retryIn hmem
    rw [Worker.enqueued_cons, hevent] at hmem
    obtain ⟨error, htext, htraced⟩ := h.events attempt text duration retryIn hmem
    exact ⟨error, htext, htraced.cons _⟩

/-- Over whole runs every error is traced. -/
theorem Exec.tracing {config : SupervisorConfig} {cancelled : Bool}
    (h : Worker.Exec (withSerde serde codec) display (.new config cancelled) log worker) :
    Tracing serde display log worker := by
  induction h with
  | refl =>
      refine ⟨?_, ?_, ?_⟩
      · intro index peer error hpeer
        simp [Worker.new] at hpeer
      · intro error hfailure
        simp [Worker.new, Supervision.new, supervisedFailure] at hfailure
      · intro attempt text duration retryIn hmem
        simp [Worker.enqueued] at hmem
  | snoc _ hnext ih =>
      cases Worker.change_of_next hnext with
      | supervise _ hawaited hstep => exact ih.supervise hawaited hstep
      | session _ hpeer hstep => exact ih.session hpeer hstep
      | forward | finish | drain | complete => exact ih.frame rfl rfl rfl

/-- When a remote payload cannot be decoded, the session fails with what is reported about it and
the supervisor reports the text of that error. The text has a control character exactly if the
payload is refused for an unknown variant that has one. Over every run of a worker, whatever an
`AttemptFailed` says about a decode error is about a payload that a session received, with the same
condition for a control character. An unknown variant in an ICE message stands in one of its
candidates. -/
theorem remote_payload_texts (serde : Serde) (codec : Codec) (rest : PeerProxyError → String) :
    (∀ (remote : Remote) (payload : String) (report : Report),
      remote.refusal serde payload = some report →
      (∀ replyTo, PeerProxy.Control.next (withSerde serde codec) remote.control
          (.replied (.ok (some ⟨replyTo, remote.kind, payload⟩))) =
        some (.none, .closing (.error (refused serde remote report)))) ∧
      (∀ attempt duration retryIn, Supervision.resultEvent (displayError rest) attempt
          (.error (refused serde remote report)) duration retryIn =
        .attemptFailed attempt (displayError rest (refused serde remote report)) duration retryIn) ∧
      (hasControl (displayError rest (refused serde remote report)) = true ↔
        ∃ variant, report = .unknownVariant variant ∧ hasControl variant = true)) ∧
    (∀ config cancelled log worker,
      Worker.Exec (withSerde serde codec) (displayError rest) (.new config cancelled) log worker →
      ∀ attempt text duration retryIn,
        SupervisorEvent.attemptFailed attempt text duration retryIn ∈ Worker.enqueued log →
        ∃ error, text = displayError rest error ∧ ∀ step source, error = .decode step source →
          ∃ (remote : Remote) (payload : String) (report : Report), Supplied log remote payload ∧
            remote.refusal serde payload = some report ∧
            (hasControl text = true ↔
              ∃ variant, report = .unknownVariant variant ∧ hasControl variant = true)) ∧
    (∀ payload value variant, Json.parse (utf8 payload) = some value →
      Remote.refusal serde payload .ice = some (.unknownVariant variant) →
      ∃ candidates ∈ value.children, ∃ candidate ∈ candidates.children,
        ∃ typ ∈ candidate.children, Json.Names variant typ) := by
  refine ⟨?_, ?_, ?_⟩
  · intro remote payload report h
    exact ⟨next_of_refusal h, fun _ _ _ ↦ rfl, hasControl_refused_iff h⟩
  · intro config cancelled log worker h attempt text duration retryIn hevent
    obtain ⟨error, htext, htraced⟩ := (Exec.tracing h).events attempt text duration retryIn hevent
    refine ⟨error, htext, fun step source herror ↦ ?_⟩
    obtain ⟨remote, payload, report, hsupplied, hrefusal, hrefused⟩ := htraced step source herror
    refine ⟨remote, payload, report, hsupplied, hrefusal, ?_⟩
    rw [htext, hrefused]
    exact hasControl_refused_iff hrefusal
  · intro payload value variant hparse h
    rcases Wire.reason_of_decodePayload (Wire.covers_ice serde) (eq_error_of_reported h) with
      ⟨hnone, _⟩ | ⟨found, hfound, hreport⟩
    · rw [hparse] at hnone
      cases hnone
    · rw [hparse, Option.some.injEq] at hfound
      subst hfound
      exact Wire.names_of_ice serde hreport

/-! ## A line break in a reported error -/

/-- An Offer that the peer proxy accepts. -/
def sampleOffer : String :=
  "\x7b\"SDP\":\x7b\"type\":\"offer\",\"sdp\":\"\"\x7d,\"Tag\":\"\"\x7d"

/-- An ICE message with a line break in the type of its candidate. -/
def brokenIce : String :=
  "\x7b\"Candidates\":[\x7b\"type\":\"host\\n\"\x7d]\x7d"

/-- The Offer is decoded. -/
theorem decode_sampleOffer :
    Wire.decodeOfferPayload .plain sampleOffer = .ok ⟨⟨.offer, ""⟩, ""⟩ := by
  have hbytes : utf8 sampleOffer = (Value.record
      [("SDP", .record [("type", .ofText "offer"), ("sdp", .ofText "")]),
        ("Tag", .ofText "")]).print Json.serdeQuote := by
    decide +kernel
  have htype : (Value.ofText "offer").variant Wire.sdpTypeOfName = some .offer := by
    show (Text.decodeUtf8 (utf8 "offer")).bind Wire.sdpTypeOfName = some .offer
    rw [Text.decodeUtf8_utf8]
    rfl
  have hdescription : Serde.plain.description
      (.record [("type", .ofText "offer"), ("sdp", .ofText "")]) = some ⟨.offer, ""⟩ := by
    have hplain : Serde.plain.description = Wire.readDescription := rfl
    rw [hplain, Wire.readDescription, Json.fields_record _ (by simp)]
    simp [List.lookup_cons, Value.text_ofText, htype]
  have hread : Wire.readOfferMessage .plain (.record
      [("SDP", .record [("type", .ofText "offer"), ("sdp", .ofText "")]),
        ("Tag", .ofText "")]) = some ⟨⟨.offer, ""⟩, ""⟩ := by
    rw [Wire.readOfferMessage, Json.fields_record _ (by simp)]
    simp [List.lookup_cons, Value.text_ofText, hdescription]
  rw [Wire.decodeOfferPayload, Wire.decodePayload, hbytes,
    Json.parse_print Json.inverted_serdeQuote]
  simp only [hread]

/-- The ICE message is refused, and the line break is reported. -/
theorem refusal_brokenIce :
    Remote.refusal .plain brokenIce .ice = some (.unknownVariant "host\n") := by
  have hbytes : utf8 brokenIce = (Wire.typeFirst "host\n").print Json.serdeQuote := by
    decide +kernel
  exact congrArg reported (Wire.decodeIcePayload_typeFirst .plain (by decide +kernel) hbytes)

section Run

variable {start : Worker} {control moved : PeerProxy.Control} {input : PeerProxy.Input}
  {effect : PeerProxy.Effect}

/-- A worker in its first attempt, with nothing published yet. -/
def firstAttempt (config : SupervisorConfig) (supervised : Control)
    (control : PeerProxy.Control) : Worker :=
  ⟨⟨config, false, config.firstBackoff, ⟨1, 0, 0⟩, supervised⟩, [⟨control, .new true, []⟩],
    [.attemptStarted 1], .looping⟩

/-- The session of the first attempt goes on. -/
theorem exec_firstAttempt {config : SupervisorConfig}
    (h : Worker.Exec codec display start log (firstAttempt config .running control))
    (hnext : PeerProxy.Control.next codec control input = some (effect, moved))
    (hinput : input ≠ .cancelled) (heffect : ∀ id, effect ≠ .publish id) :
    Worker.Exec codec display start ((.session 0 (.session input), ⟨[], none, none⟩) :: log)
      (firstAttempt config .running moved) := by
  have hpermits : (firstAttempt config .running control).permits (.session input) = true := by
    cases input with
    | cancelled => exact absurd rfl hinput
    | _ => rfl
  have hshared : (PeerProxy.Shared.new true).after effect = .new true := by
    cases effect with
    | publish id => exact absurd rfl (heffect id)
    | none | post | dial => rfl
  refine h.snoc ?_
  simp only [Worker.next, hpermits, if_true]
  simp [firstAttempt, Peer.next, hnext, hshared, Worker.received]

/-- The session of the first attempt runs on, as long as it is not cancelled and publishes
nothing. -/
theorem exec_of_session {config : SupervisorConfig}
    {trace : Execution.Log PeerProxy.Input PeerProxy.Effect}
    (hsession : Execution.Exec (PeerProxy.Control.next codec) control trace moved)
    (h : Worker.Exec codec display start log (firstAttempt config .running control))
    (htrace : ∀ entry ∈ trace, entry.1 ≠ .cancelled ∧ ∀ id, entry.2 ≠ .publish id) :
    ∃ later, Worker.Exec codec display start (later ++ log) (firstAttempt config .running moved) ∧
      later.map Prod.fst = trace.map fun entry ↦ .session 0 (.session entry.1) := by
  induction hsession with
  | refl => exact ⟨[], h, rfl⟩
  | @snoc trace _ _ input effect _ hnext ih =>
      obtain ⟨⟨hinput, heffect⟩, hbefore⟩ := List.forall_mem_cons.1 htrace
      obtain ⟨later, hexec, hops⟩ := ih hbefore
      refine ⟨_ :: later, exec_firstAttempt hexec hnext hinput heffect, ?_⟩
      rw [List.map_cons, hops]
      rfl

/-- A first attempt that has failed is reported. -/
theorem exec_reported {config : SupervisorConfig} {error : PeerProxyError}
    (h : Worker.Exec codec display start log
      (firstAttempt config .running (.returned (.error error)))) :
    ∃ later worker retryIn, Worker.Exec codec display start (later ++ log) worker ∧
      .attemptFailed 1 (display error) .zero retryIn ∈ Worker.enqueued later := by
  have hreturned : Worker.next codec display
      (firstAttempt config .running (.returned (.error error)))
      (.supervise (.sessionReturned (.error error) .zero)) =
      some (⟨[(.sessionReturned (.error error) .zero, none)], none, none⟩,
        firstAttempt config (.examining (.error error) .zero) (.returned (.error error))) := by
    simp [Worker.next, firstAttempt, Worker.awaited, Supervision.next, Worker.started]
  have hreported : Execution.run (Worker.next codec display)
      [.supervise .examine, .supervise (.report 0)]
      ([], firstAttempt config (.examining (.error error) .zero) (.returned (.error error))) =
      some (_, _) := rfl
  have hexec := (h.snoc hreturned).trans (Execution.exec_of_run hreported)
  rw [List.append_cons] at hexec
  exact ⟨_, _, _, hexec, List.mem_cons_self⟩

end Run

/-- A session that receives the broken ICE message returns with the line break in its error. -/
theorem session_of_brokenIce : ∃ trace, Execution.Exec
    (PeerProxy.Control.next (withSerde .plain .plain)) .connecting trace
      (.returned (.error (refused .plain .ice (.unknownVariant "host\n")))) ∧
    (∀ entry ∈ trace, entry.1 ≠ .cancelled ∧ ∀ id, entry.2 ≠ .publish id) ∧
    .replied (.ok (some ⟨"consumer", .ice, brokenIce⟩)) ∈ trace.map Prod.fst := by
  have hoffer : PeerProxy.Control.next (withSerde .plain .plain) .awaitingOffer
      (.replied (.ok (some ⟨"consumer", .offer, sampleOffer⟩))) =
      some (.none, .settingRemote ⟨"consumer", .offer, sampleOffer⟩ ⟨⟨.offer, ""⟩, ""⟩) := by
    simp [PeerProxy.Control.next, PeerProxy.Control.afterOffer, PeerProxy.readOffer,
      PeerProxy.readSignal, PeerProxy.expectSignal, withSerde, decode_sampleOffer, Except.mapError]
  have hice : PeerProxy.Control.next (withSerde .plain .plain) .awaitingIce
      (.replied (.ok (some ⟨"consumer", .ice, brokenIce⟩))) =
      some (.none, .closing (.error (refused .plain .ice (.unknownVariant "host\n")))) :=
    next_of_refusal refusal_brokenIce "consumer"
  have hadvertised : Execution.run (PeerProxy.Control.next (withSerde .plain .plain))
      [.connected (.ok ())] ([], .connecting) =
      some ([(_, .post "genesis" .genesis "genesis")], .awaitingOffer) := rfl
  have hoffered := (Execution.exec_of_run hadvertised).snoc hoffer
  have hanswered : Execution.run (PeerProxy.Control.next (withSerde .plain .plain))
      [.remoteSet (.ok ()), .answerCreated (.ok ⟨.answer, ""⟩), .promised, .localSet (.ok ()),
        .gathered, .described (some ⟨.answer, ""⟩)]
      ([], .settingRemote ⟨"consumer", .offer, sampleOffer⟩ ⟨⟨.offer, ""⟩, ""⟩) =
      some ([(_, .post "consumer" .answer ""), (_, .none), (_, .none), (_, .none), (_, .none),
        (_, .none)], .awaitingIce) := rfl
  have hrefused := (hoffered.trans (Execution.exec_of_run hanswered)).snoc hice
  have hclosed : PeerProxy.Control.next (withSerde .plain .plain)
      (.closing (.error (refused .plain .ice (.unknownVariant "host\n")))) .closed =
      some (.none, _) := rfl
  exact ⟨_, hrefused.snoc hclosed, by simp, by simp⟩

/-- A consumer that answers with the broken ICE message puts a line break into an `AttemptFailed`
event of the worker. -/
theorem control_byte_reported :
    ∃ log worker attempt text duration retryIn,
      Worker.Exec (withSerde .plain .plain) (displayError fun _ ↦ "")
        (.new ⟨.oneMilli, .oneMilli, .oneMilli⟩ false) log worker ∧
      Supplied log .ice brokenIce ∧
      SupervisorEvent.attemptFailed attempt text duration retryIn ∈ Worker.enqueued log ∧
      text = "invalid ICE signaling payload: unknown variant `host\n`" ∧
      hasControl text = true := by
  have hrun : Execution.run (Worker.next (withSerde .plain .plain) (displayError fun _ ↦ ""))
      [.supervise .check, .supervise .start]
      ([], .new ⟨.oneMilli, .oneMilli, .oneMilli⟩ false) =
      some (_, firstAttempt ⟨.oneMilli, .oneMilli, .oneMilli⟩ .running .connecting) := rfl
  obtain ⟨trace, hsession, htrace, hsupplied⟩ := session_of_brokenIce
  obtain ⟨later, hexec, hops⟩ := exec_of_session hsession (Execution.exec_of_run hrun) htrace
  obtain ⟨last, worker, retryIn, hreported, hevent⟩ := exec_reported hexec
  have htext : displayError (fun _ ↦ "") (refused .plain .ice (.unknownVariant "host\n")) =
      "invalid ICE signaling payload: unknown variant `host\n`" := by
    decide +kernel
  rw [htext] at hevent
  refine ⟨_, worker, 1, _, .zero, retryIn, hreported, ⟨0, "consumer", ?_⟩, ?_, rfl, ?_⟩
  · rw [List.map_append, List.map_append, hops]
    exact List.mem_append_right _ (List.mem_append_left _
      (by simpa [List.mem_map, Remote.kind] using hsupplied))
  · rw [Worker.enqueued, List.filterMap_append]
    exact List.mem_append_left _ hevent
  · decide +kernel

end Unbounded.Supervisor
