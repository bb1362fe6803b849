import Unbounded.PeerProxy.Peer

/-!
# Where the session ID comes from

The consumer session ID is supplied by a remote peer and reaches three places: the events of the
state callbacks, the egress, and the outcome of the session. `accepted codec log` says, in terms of
the log alone, which ID a session may use: the one of the Ice message that came in reply to the
session's own Answer, after an Offer had come in reply to its Genesis, when it is a subprotocol
token. `Provenance` and `Reports` connect the log with the state, and
`session_id_provenance` collects what follows for every run, whatever the signaling server replies,
however the callback bodies overlap, and whenever the session is cancelled.
-/

namespace Unbounded.PeerProxy.Peer

open Execution (countP_set_slot getElem?_set_slot)
open Rtc (PeerConnectionState)
open Supervisor (SupervisorEvent)

/-! ## The account of a log -/

/-- The kind of the last message that the session posted. -/
def lastPost : Log → Option SignalMessageType
  | [] => none
  | (_, ⟨.post _ kind _, _⟩) :: _ => some kind
  | _ :: log => lastPost log

/-- The reply to the message of a kind that the session posted. -/
def replyTo : Log → SignalMessageType → Option SignalMessage
  | [], _ => none
  | (.session (.replied (.ok (some signal))), _) :: log, kind =>
      if lastPost log = some kind then some signal else replyTo log kind
  | _ :: log, kind => replyTo log kind

/-- The Offer that came in reply to the session's Genesis. -/
def offerOf (codec : Codec) (log : Log) : Option OfferMessage :=
  (replyTo log .genesis).bind fun signal ↦
    if signal.kind = .offer then (codec.decodeOffer signal.payload).toOption else none

/-- The Ice message that came in reply to the session's Answer. -/
def iceOf (codec : Codec) (log : Log) : Option IceMessage :=
  (replyTo log .answer).bind fun signal ↦
    if signal.kind = .ice then (codec.decodeIce signal.payload).toOption else none

/-- The session ID that a session may use. -/
def accepted (codec : Codec) (log : Log) : Option String :=
  match offerOf codec log, iceOf codec log with
  | some _, some ice =>
      if isSubprotocolToken ice.consumerSessionId then some ice.consumerSessionId else none
  | _, _ => none

/-- What a session reports, dials or returns is about the session ID. -/
def mentions (log : Log) (peer : Peer) (id : String) : Prop :=
  (∃ remote, .peerConnected id remote ∈ events log) ∨ .peerDisconnected id ∈ events log ∨
    .dial id ∈ effects log ∨
    ∃ outcome, peer.control = .returned (.ok outcome) ∧ outcome.consumerSessionId = id

variable {codec : Codec} {log : Log} {peer following : Peer}

/-- A session ID that passes the checks is a token. -/
theorem token_of_check {id : String} (h : checkSessionId id = .ok ()) :
    isSubprotocolToken id = true := by
  unfold checkSessionId at h
  split at h
  · simp at h
  · split at h
    · assumption
    · simp at h

/-- Replies do not change in a step that receives none. -/
theorem replyTo_cons {op : Op} {out : Out}
    (h : ∀ signal, op ≠ .session (.replied (.ok (some signal)))) :
    replyTo ((op, out) :: log) = replyTo log := by
  funext kind
  cases op with
  | session input =>
      cases input with
      | replied reply =>
          rcases reply with error | (_ | signal)
          · rfl
          · rfl
          · exact absurd rfl (h signal)
      | _ => rfl
  | _ => rfl

/-- The ID that may be used depends on the replies. -/
theorem accepted_congr (codec : Codec) {first second : Log} (h : replyTo first = replyTo second) :
    offerOf codec first = offerOf codec second ∧ accepted codec first = accepted codec second := by
  have hoffer : offerOf codec first = offerOf codec second := by
    unfold offerOf
    rw [h]
  have hice : iceOf codec first = iceOf codec second := by
    unfold iceOf
    rw [h]
  exact ⟨hoffer, by unfold accepted; rw [hoffer, hice]⟩

/-- A reply is the reply to the message that was posted last. -/
theorem replyTo_replied (signal : SignalMessage) (out : Out) (kind : SignalMessageType) :
    replyTo ((.session (.replied (.ok (some signal))), out) :: log) kind =
      if lastPost log = some kind then some signal else replyTo log kind := rfl

/-! ## The session -/

/-- What the log says in each phase of a session, and which ID its callbacks can see. -/
inductive Provenance (codec : Codec) (log : Log) : Phase → Option String → Prop where
  | connecting : Provenance codec log .connecting none
  | awaitingOffer (hposted : lastPost log = some .genesis) :
      Provenance codec log .awaitingOffer none
  | offered {signal offer} (hoffer : (offerOf codec log).isSome = true) :
      Provenance codec log (.offered signal offer) none
  | answering {signal} (hoffer : (offerOf codec log).isSome = true) :
      Provenance codec log (.answering signal) none
  | awaitingIce (hposted : lastPost log = some .answer)
      (hoffer : (offerOf codec log).isSome = true) : Provenance codec log .awaitingIce none
  | identified {id} (hid : accepted codec log = some id) :
      Provenance codec log (.identified id) (some id)
  | ended {visible} (hid : ∀ id, visible = some id → accepted codec log = some id) :
      Provenance codec log .ended visible

/-- The ID that the callbacks can see is the one that the session may use. -/
theorem Provenance.accepted_of_visible {phase : Phase} {visible : Option String} {id : String}
    (h : Provenance codec log phase visible) (hid : visible = some id) :
    accepted codec log = some id := by
  cases h with
  | identified hvalid =>
      obtain rfl := Option.some.inj hid
      exact hvalid
  | ended hvalid => exact hvalid id hid
  | _ => simp at hid

/-- The account of a phase stays when no reply comes and nothing is posted. -/
theorem Provenance.congr {phase : Phase} {visible : Option String} {first second : Log}
    (h : Provenance codec first phase visible) (hreply : replyTo second = replyTo first)
    (hpost : lastPost second = lastPost first) : Provenance codec second phase visible := by
  obtain ⟨hoffer, hid⟩ := accepted_congr codec hreply
  cases h with
  | connecting => exact .connecting
  | awaitingOffer hposted => exact .awaitingOffer (hpost.trans hposted)
  | offered hoffered => exact .offered (hoffer ▸ hoffered)
  | answering hoffered => exact .answering (hoffer ▸ hoffered)
  | awaitingIce hposted hoffered => exact .awaitingIce (hpost.trans hposted) (hoffer ▸ hoffered)
  | identified hvalid => exact .identified (hid.trans hvalid)
  | ended hvalid => exact .ended fun id hvisible ↦ hid.trans (hvalid id hvisible)

/-- A step of the session keeps the account. -/
theorem Provenance.session {control moved : Control} {visible : Option String} {input : Input}
    {effect : Effect} (h : Provenance codec log control.phase visible)
    (hmove : Move codec control input effect moved) :
    Provenance codec ((.session input, ⟨effect, none⟩) :: log) moved.phase
      (effect.visible visible) := by
  have hquiet : (∀ reply, input ≠ .replied reply) →
      replyTo ((.session input, ⟨effect, none⟩) :: log) = replyTo log := by
    intro hinput
    refine replyTo_cons fun signal heq ↦ ?_
    exact hinput (.ok (some signal)) (Op.session.inj heq)
  cases hmove with
  | advertise =>
      cases h with
      | connecting => exact .awaitingOffer rfl
  | offer hread =>
      cases h with
      | awaitingOffer hposted =>
          obtain ⟨hkind, hdecode⟩ := readSignal_ok hread
          refine .offered ?_
          simp [offerOf, replyTo_replied, hposted, hkind, hdecode, Except.toOption]
  | apply =>
      cases h with
      | offered hoffer =>
          refine .answering ?_
          rwa [(accepted_congr codec (hquiet (by simp))).1]
  | prepare hcontrol hmoved hinput =>
      rw [hcontrol] at h
      rw [hmoved]
      exact h.congr (hquiet hinput) rfl
  | answer =>
      cases h with
      | answering hoffer =>
          refine .awaitingIce rfl ?_
          rwa [(accepted_congr codec (hquiet (by simp))).1]
  | @publish signal ice hread hcheck =>
      cases h with
      | awaitingIce hposted hoffer =>
          rw [Control.withCandidates_phase]
          refine .identified ?_
          obtain ⟨hkind, hdecode⟩ := readSignal_ok hread
          -- the reply is to the Answer, so the Offer is the one from before
          have hice : iceOf codec ((.session (.replied (.ok (some signal))),
              ⟨.publish ice.consumerSessionId, none⟩) :: log) = some ice := by
            simp [iceOf, replyTo_replied, hposted, hkind, hdecode, Except.toOption]
          have hkept : offerOf codec ((.session (.replied (.ok (some signal))),
              ⟨.publish ice.consumerSessionId, none⟩) :: log) = offerOf codec log := by
            simp [offerOf, replyTo_replied, hposted]
          obtain ⟨offer, hoffer⟩ := Option.isSome_iff_exists.mp hoffer
          simp only [accepted, hice, hkept, hoffer, token_of_check hcheck, if_true]
  | proceed hcontrol hmoved hinput =>
      rw [hcontrol] at h
      rw [hmoved]
      exact h.congr (hquiet hinput) rfl
  | dial => exact h.congr (hquiet (by simp)) rfl
  | fail hmoved hinput =>
      rw [hmoved]
      refine .ended fun id hid ↦ ?_
      by_cases hreplied : ∃ reply, input = .replied reply
      · obtain ⟨reply, hreply⟩ := hreplied
        have hnone : visible = none := by
          have hexchanging := hinput reply hreply
          cases control <;> simp [Control.exchanging] at hexchanging <;> cases h <;> rfl
        have hsome : visible = some id := hid
        simp [hnone] at hsome
      · rw [(accepted_congr codec (hquiet fun reply heq ↦ hreplied ⟨reply, heq⟩)).2]
        exact h.accepted_of_visible hid

/-- The session publishes one ID, and dials with it. -/
theorem Provenance.kept {control moved : Control} {visible : Option String} {input : Input}
    {effect : Effect} (h : Provenance codec log control.phase visible)
    (hmove : Move codec control input effect moved) :
    (∀ id, visible = some id → effect.visible visible = some id) ∧
      ∀ id, effect = .dial id → visible = some id := by
  cases hmove with
  | publish =>
      cases h with
      | awaitingIce => exact ⟨by simp, by simp⟩
  | dial =>
      cases h with
      | identified => exact ⟨fun _ hid ↦ hid, by simp⟩
  | _ => exact ⟨fun _ hid ↦ hid, by simp⟩

/-- A step that is not one of the session keeps the account. -/
theorem Provenance.callback {phase : Phase} {visible : Option String} {op : Op}
    {event : Option SupervisorEvent} (h : Provenance codec log phase visible)
    (hop : ∀ input, op ≠ .session input) :
    Provenance codec ((op, ⟨.none, event⟩) :: log) phase visible := by
  refine h.congr (replyTo_cons fun signal ↦ hop _) ?_
  cases op <;> rfl

/-- The account of a session in every run. -/
theorem Exec.provenance {reports : Bool} (h : Exec codec (.new reports) log peer) :
    Provenance codec log peer.control.phase peer.shared.sessionId := by
  induction h with
  | refl => exact .connecting
  | snoc _ hnext ih =>
      cases change_of_next hnext with
      | session hmove => exact ih.session (move_of_next hmove)
      | call => exact ih.callback (by simp)
      | body _ hbody =>
          rw [← (body_of_next hbody).advance.visible] at ih
          exact ih.callback (by simp)
      | dropBody => exact ih.callback (by simp)

/-! ## The callbacks -/

/-- The callbacks against what they have sent, and the session against what it has dialed. -/
structure Reports (log : Log) (peer : Peer) : Prop where
  read : ∀ callback ∈ peer.callbacks, ∀ id, callback.sessionId = some id →
    peer.shared.sessionId = some id
  sent : ∀ event ∈ events log, ∃ id, peer.shared.sessionId = some id ∧
    ((∃ remote, event = .peerConnected id remote) ∨ event = .peerDisconnected id)
  dialed : ∀ id, .dial id ∈ effects log → peer.shared.sessionId = some id
  storing : ∀ callback ∈ peer.callbacks, callback.stage = .storing → callback.begun = true
  /-- The flag says that a `Connected` body has seen the session ID. -/
  connected : peer.shared.connectEmitted = true → ∃ callback ∈ peer.callbacks, callback.begun = true
  swapping : ∀ callback ∈ peer.callbacks, callback.stage = .swapping ∨ callback.stage = .sending →
    peer.shared.connectEmitted = true
  /-- One body wins the swap, and it sends once. -/
  once : (events log).countP SupervisorEvent.isDisconnect +
    peer.callbacks.countP Callback.isSending ≤ peer.shared.disconnectEmitted.toNat

/-- Nothing is reported at the start. -/
theorem Reports.new (reports : Bool) : Reports [] (.new reports) where
  read := by simp [Peer.new]
  sent := by simp [events]
  dialed := by simp [effects]
  storing := by simp [Peer.new]
  connected := by simp [Peer.new, Shared.new]
  swapping := by simp [Peer.new]
  once := by simp [events, Peer.new, Shared.new]

/-- A step of the session, which may publish the ID that no body has read yet, keeps the callbacks
in line with what they have sent. -/
theorem Reports.session {input : Input} {effect : Effect} {control : Control}
    (h : Reports log peer)
    (hvisible : ∀ id, peer.shared.sessionId = some id →
      effect.visible peer.shared.sessionId = some id)
    (hdial : ∀ id, effect = .dial id → peer.shared.sessionId = some id) :
    Reports ((.session input, ⟨effect, none⟩) :: log)
      { peer with control := control, shared := peer.shared.after effect } where
  read := fun callback hmem id hid ↦ hvisible id (h.read callback hmem id hid)
  sent := by
    intro event hmem
    obtain ⟨id, hid, hevent⟩ := h.sent event hmem
    exact ⟨id, hvisible id hid, hevent⟩
  dialed := by
    intro id hmem
    rcases List.mem_cons.mp hmem with heq | hmem
    · exact hvisible id (hdial id heq.symm)
    · exact hvisible id (h.dialed id hmem)
  storing := h.storing
  connected := h.connected
  swapping := h.swapping
  once := h.once

/-- A call of the handler by WebRTC keeps the callbacks in line with what they have sent. -/
theorem Reports.call {state : PeerConnectionState} (h : Reports log peer) :
    Reports ((.call state, ⟨.none, none⟩) :: log)
      { peer with callbacks := peer.callbacks ++ [.enter state] } where
  read := by
    intro callback hmem
    rcases List.mem_append.mp hmem with hold | hnew
    · exact h.read callback hold
    · simp_all [Callback.enter]
  sent := h.sent
  dialed := by simpa [effects] using h.dialed
  storing := by
    intro callback hmem
    rcases List.mem_append.mp hmem with hold | hnew
    · exact h.storing callback hold
    · simp_all [Callback.enter]
  connected := by
    intro hflag
    obtain ⟨callback, hmem, hbegun⟩ := h.connected hflag
    exact ⟨callback, List.mem_append_left _ hmem, hbegun⟩
  swapping := by
    intro callback hmem
    rcases List.mem_append.mp hmem with hold | hnew
    · exact h.swapping callback hold
    · simp_all [Callback.enter]
  once := by
    have hnew : List.countP Callback.isSending [Callback.enter state] = 0 := rfl
    show (events log).countP SupervisorEvent.isDisconnect +
      (peer.callbacks ++ [Callback.enter state]).countP Callback.isSending ≤ _
    rw [List.countP_append, hnew]
    exact h.once

/-- A body that goes on, or is dropped, keeps the callbacks in line with what they have sent. -/
theorem Reports.replace {index : Nat} {callback moved : Callback} {shared : Shared} {op : Op}
    {event : Option SupervisorEvent} (h : Reports log peer)
    (hcallback : peer.callbacks[index]? = some callback)
    (hstep : Advance peer.shared callback event shared moved) :
    Reports ((op, ⟨.none, event⟩) :: log)
      { peer with shared := shared, callbacks := peer.callbacks.set index moved } := by
  have hmem : callback ∈ peer.callbacks := List.mem_of_getElem? hcallback
  have hmoved : moved ∈ peer.callbacks.set index moved :=
    List.mem_of_getElem? (i := index) (by simp [getElem?_set_slot hcallback])
  -- every body is the one that moved or was there before
  have hcases : ∀ other ∈ peer.callbacks.set index moved,
      other = moved ∨ other ∈ peer.callbacks := by
    intro other hother
    exact (List.mem_or_eq_of_mem_set hother).symm
  constructor
  case read =>
    intro other hother id hid
    show shared.sessionId = some id
    rw [hstep.visible]
    rcases hcases other hother with rfl | hold
    · rcases hstep.seen id hid with hseen | hnow
      · exact h.read callback hmem id hseen
      · exact hnow
    · exact h.read other hold id hid
  case sent =>
    intro sent hsent
    show ∃ id, shared.sessionId = some id ∧ _
    rw [hstep.visible]
    rcases List.mem_append.mp (events_cons ▸ hsent) with hnew | hold
    · obtain ⟨id, hid, hevent⟩ := hstep.sends sent (Option.mem_toList.mp hnew)
      refine ⟨id, h.read callback hmem id hid, ?_⟩
      exact hevent.imp_right And.left
    · exact h.sent sent hold
  case dialed =>
    intro id hdial
    show shared.sessionId = some id
    rw [hstep.visible]
    refine h.dialed id ?_
    simpa [effects] using hdial
  case storing =>
    intro other hother hstoring
    rcases hcases other hother with rfl | hold
    · exact hstep.storing hstoring
    · exact h.storing other hold hstoring
  case connected =>
    intro hflag
    rcases hstep.connected hflag with hbefore | hstoring
    · obtain ⟨other, hother, hbegun⟩ := h.connected hbefore
      obtain ⟨slot, hslot⟩ := List.getElem?_of_mem hother
      by_cases heq : index = slot
      · subst heq
        obtain rfl := Option.some.inj (hcallback.symm.trans hslot)
        exact ⟨moved, hmoved, hstep.begun hbegun⟩
      · refine ⟨other, List.mem_of_getElem? (i := slot) ?_, hbegun⟩
        rw [getElem?_set_slot hcallback, if_neg heq]
        exact hslot
    · exact ⟨moved, hmoved, hstep.begun (h.storing callback hmem hstoring)⟩
  case swapping =>
    intro other hother hstage
    rcases hcases other hother with rfl | hold
    · rcases hstep.swapping hstage with hflag | hswapping
      · exact hstep.kept hflag
      · exact hstep.kept (h.swapping callback hmem (.inl hswapping))
    · exact hstep.kept (h.swapping other hold hstage)
  case once =>
    have hslots := countP_set_slot hcallback moved Callback.isSending
    have hevents : (events ((op, ⟨.none, event⟩) :: log)).countP SupervisorEvent.isDisconnect =
        event.toList.countP SupervisorEvent.isDisconnect +
          (events log).countP SupervisorEvent.isDisconnect := by
      rw [events_cons, List.countP_append]
    have hbefore := h.once
    have honce := hstep.once
    show (events ((op, ⟨.none, event⟩) :: log)).countP SupervisorEvent.isDisconnect +
      (peer.callbacks.set index moved).countP Callback.isSending ≤ shared.disconnectEmitted.toNat
    omega

/-- The callbacks report what they should in every run. -/
theorem Exec.reports {reports : Bool} (h : Exec codec (.new reports) log peer) :
    Reports log peer := by
  induction h with
  | refl => exact .new reports
  | snoc hexec hnext ih =>
      have hprovenance := Exec.provenance hexec
      cases change_of_next hnext with
      | session hmove =>
          obtain ⟨hvisible, hdial⟩ := hprovenance.kept (move_of_next hmove)
          exact ih.session hvisible hdial
      | call => exact ih.call
      | body hcallback hbody => exact ih.replace hcallback (body_of_next hbody).advance
      | dropBody hcallback hstage => exact ih.replace hcallback (.drop _ hstage)

/-- An ID that a session may use is a token, and so it is not empty. -/
theorem token_of_accepted {id : String} (h : accepted codec log = some id) :
    isSubprotocolToken id = true ∧ id ≠ "" := by
  have htoken : isSubprotocolToken id = true := by
    unfold accepted at h
    split at h
    · split at h
      · next htoken =>
        obtain rfl := Option.some.inj h
        exact htoken
      · simp at h
    · simp at h
  refine ⟨htoken, ?_⟩
  rintro rfl
  revert htoken
  decide

/-- Whatever a session mentions is the ID that its callbacks can see. -/
theorem visible_of_mentions {reports : Bool} {id : String}
    (h : Exec codec (.new reports) log peer) (hmentions : mentions log peer id) :
    peer.shared.sessionId = some id := by
  have hreports := Exec.reports h
  rcases hmentions with ⟨remote, hsent⟩ | hsent | hdial | ⟨outcome, hcontrol, rfl⟩
  · obtain ⟨sentId, hid, hevent⟩ := hreports.sent _ hsent
    simp_all
  · obtain ⟨sentId, hid, hevent⟩ := hreports.sent _ hsent
    simp_all
  · exact hreports.dialed id hdial
  · have hprovenance := Exec.provenance h
    rw [hcontrol] at hprovenance
    generalize peer.shared.sessionId = visible at hprovenance
    cases hprovenance with
    | identified => rfl

/-- Nothing is reported or dialed before there is an ID. -/
theorem Reports.silent (h : Reports log peer) (hid : peer.shared.sessionId = none) :
    events log = [] ∧ ∀ id, .dial id ∉ effects log := by
  refine ⟨List.eq_nil_iff_forall_not_mem.mpr fun event hmem ↦ ?_, fun id hdial ↦ ?_⟩
  · obtain ⟨id, hsome, _⟩ := h.sent event hmem
    simp [hid] at hsome
  · have hsome := h.dialed id hdial
    simp [hid] at hsome

/-- A body that reports a disconnect comes after a `Connected` body that has seen the same ID. -/
theorem Reports.begun_of_disconnect {op : Op} {out : Out} {id : String} (h : Reports log peer)
    (hnext : next codec peer op = some (out, following))
    (hevent : out.event = some (.peerDisconnected id)) :
    ∃ callback ∈ peer.callbacks,
      callback.state = .connected ∧ callback.sessionId = some id ∧ callback.stage ≠ .entered := by
  cases change_of_next hnext with
  | session => simp at hevent
  | call => simp at hevent
  | dropBody => simp at hevent
  | @body index remote callback event shared moved hcallback hbody =>
      have hmem := List.mem_of_getElem? hcallback
      obtain ⟨sentId, hid, hsent⟩ := (body_of_next hbody).advance.sends _ hevent
      simp only [reduceCtorEq, exists_false, false_or, SupervisorEvent.peerDisconnected.injEq]
        at hsent
      obtain ⟨rfl, hstage⟩ := hsent
      obtain ⟨begun, hbegun, hconnected⟩ := h.connected (h.swapping callback hmem (.inr hstage))
      simp only [Callback.begun, Bool.and_eq_true, decide_eq_true_eq, bne_iff_ne, ne_eq]
        at hconnected
      obtain ⟨⟨hstate, hseen⟩, hentered⟩ := hconnected
      obtain ⟨seenId, hseenId⟩ := Option.isSome_iff_exists.mp hseen
      refine ⟨begun, hbegun, hstate, ?_, hentered⟩
      -- both bodies have read the one ID that was published
      have hsame := h.read begun hbegun seenId hseenId
      rw [h.read callback hmem id hid, Option.some.injEq] at hsame
      rw [hseenId, hsame]

/-- In every run of a session, with any replies of the signaling server, any interleaving with the
callback bodies and any cancellation: whatever ID a session reports, dials or returns is the token
of the Ice message that came in reply to its own Answer, after an Offer came in reply to its
Genesis, so that nothing is reported or dialed when there is none. A disconnect is reported at most
once, and only when a body called for `Connected` has seen the ID. -/
theorem session_id_provenance {reports : Bool} (h : Exec codec (.new reports) log peer) :
    (∀ id, mentions log peer id →
      accepted codec log = some id ∧ isSubprotocolToken id = true ∧ id ≠ "") ∧
    (accepted codec log = none → events log = [] ∧ ∀ id, .dial id ∉ effects log) ∧
    (events log).countP SupervisorEvent.isDisconnect ≤ 1 ∧
    ∀ op out following id, next codec peer op = some (out, following) →
      out.event = some (.peerDisconnected id) → ∃ callback ∈ peer.callbacks,
        callback.state = .connected ∧ callback.sessionId = some id ∧ callback.stage ≠ .entered := by
  have hvisible : ∀ id, peer.shared.sessionId = some id → accepted codec log = some id :=
    fun id ↦ (Exec.provenance h).accepted_of_visible
  have hreports := Exec.reports h
  refine ⟨?_, ?_, ?_, fun op out following id ↦ hreports.begun_of_disconnect⟩
  · intro id hmentions
    have hid := hvisible id (visible_of_mentions h hmentions)
    exact ⟨hid, token_of_accepted hid⟩
  · intro hnone
    refine hreports.silent ?_
    cases hid : peer.shared.sessionId with
    | none => rfl
    | some id => simp [hvisible id hid] at hnone
  · have honce := hreports.once
    have hflag := Bool.toNat_le peer.shared.disconnectEmitted
    omega

/-- A session that dials the egress, and whose connection is then lost, uses the ID of the Ice
message. -/
theorem session_id_provenance_of_lost_session : ∃ log peer, Exec .plain (.new true) log peer ∧
    events log = [.peerDisconnected "csid", .peerConnected "csid" none] ∧
    .dial "csid" ∈ effects log ∧ accepted .plain log = some "csid" := by
  have hrun : Execution.run (next .plain)
      [.session (.connected (.ok ())), .session (.replied (.ok (some ⟨"r1", .offer, "sdp"⟩))),
        .session (.remoteSet (.ok ())), .session (.answerCreated (.ok ⟨.answer, "sdp"⟩)),
        .session .promised, .session (.localSet (.ok ())), .session .gathered,
        .session (.described (some ⟨.answer, "sdp"⟩)),
        .session (.replied (.ok (some ⟨"r2", .ice, "csid"⟩))), .call .connected,
        .body 0 none, .body 0 none, .body 0 none, .session (.waited .opened),
        .call .disconnected, .body 1 none, .body 1 none, .body 1 none, .body 1 none]
      ([], .new true) = some (_, _) := rfl
  have hexec := Execution.exec_of_run hrun
  refine ⟨_, _, hexec, rfl, ?_, ?_⟩
  · decide
  · exact ((session_id_provenance hexec).1 "csid" (.inr (.inl List.mem_cons_self))).1

end Unbounded.PeerProxy.Peer
