import Unbounded.Signaling.Pairing
import Unbounded.Wire.Signals

/-!
# Sessions that understand each other

Between consumers and peer proxies that both run this code, no message is out of place. A Genesis is
answered by an Offer, an Offer by an Answer and an Answer by an ICE message, an ICE message is not
answered at all, and whatever arrives is decoded. So in no run does a session fail because of the
kind or the contents of a message (`honest_sessions`): a consumer never does, and a peer proxy only
if the session ID that the consumer at the other end was configured with is no subprotocol token.

`Turn` says what a step of the system is with the step of the session that takes it, and `Asking`
says which message a session waits on.
-/

namespace Unbounded.Consumer

/-- The session has failed, or is about to. -/
def Control.failure : Control → Option ConsumerError
  | .closing (.error error) | .returned (.error error) => some error
  | _ => none

/-- The error is about a message that came or that could not be written. -/
def ConsumerError.blames : ConsumerError → Bool
  | .json _ | .unexpectedSignal _ _ => true
  | _ => false

/-- How a step of a session can fail because of a message. -/
inductive Fault (codec : Codec) (config : ConsumerConfig) : Control → Input → Prop where
  | offer {genesis offer source}
      (hencode : codec.encodeOffer ⟨offer, config.tag⟩ = .error source) :
      Fault codec config (.offering genesis) (.offerCreated (.ok offer))
  | kind {offer signal} (hkind : signal.kind ≠ .answer) :
      Fault codec config (.awaitingAnswer offer) (.replied (.ok (some signal)))
  | answer {offer signal source} (hdecode : codec.decodeAnswer signal.payload = .error source) :
      Fault codec config (.awaitingAnswer offer) (.replied (.ok (some signal)))
  | ice {signal candidates source}
      (hencode : codec.encodeIce ⟨candidates.map .ofCandidate, config.consumerSessionId⟩ =
        .error source) :
      Fault codec config (.gathering signal) (.gathered candidates)

/-- A consumer session that fails because of a message does so by a `Fault`. -/
theorem fault_of_next {codec : Codec} {config : ConsumerConfig} {control following : Control}
    {input : Input} {effect : Effect} {error : ConsumerError}
    (h : control.next codec config input = some (effect, following))
    (hfailure : following.failure = some error) (hblames : error.blames = true) :
    control.failure = some error ∨ Fault codec config control input := by
  have hother : ∀ other moved, (∀ found, Control.failure moved = some found →
      found.blames = false) → some (other, moved) = some (effect, following) →
      control.failure = some error ∨ Fault codec config control input := by
    intro other moved hmoved heq
    simp only [Option.some.injEq, Prod.mk.injEq] at heq
    obtain ⟨rfl, rfl⟩ := heq
    simp [hmoved error hfailure] at hblames
  unfold Control.next at h
  split at h
  case h_14 =>
    simp only [Option.map_eq_some_iff, Prod.mk.injEq] at h
    obtain ⟨genesis, _, rfl, rfl⟩ := h
    simp [Control.failure] at hfailure
  case h_15 genesis offer =>
    split at h
    · exact hother _ _ (by simp [Control.failure]) h
    · next source hencode => exact .inr (.offer hencode)
  case h_17 offer signal =>
    unfold expectSignal at h
    by_cases hkind : signal.kind = .answer
    · simp only [hkind, if_true] at h
      split at h
      · exact hother _ _ (by simp [Control.failure]) h
      · next source hdecode => exact .inr (.answer hdecode)
    · exact .inr (.kind hkind)
  case h_25 signal candidates =>
    split at h
    · exact hother _ _ (by simp [Control.failure]) h
    · next source hencode => exact .inr (.ice hencode)
  case h_37 result =>
    simp only [Option.some.injEq, Prod.mk.injEq] at h
    obtain ⟨rfl, rfl⟩ := h
    cases result with
    | ok outcome => simp [Control.failure] at hfailure
    | error found => exact .inl hfailure
  case h_7 | h_11 => exact hother _ _ (by split <;> simp [Control.failure]) h
  case h_38 | h_39 =>
    split at h
    · exact hother _ _ (by simp [Control.failure, ConsumerError.blames]) h
    · simp at h
  case h_40 => simp at h
  all_goals exact hother _ _ (by simp [Control.failure, ConsumerError.blames]) h

end Unbounded.Consumer

namespace Unbounded.PeerProxy

/-- The session has failed, or is about to. -/
def Control.failure : Control → Option PeerProxyError
  | .closing (.error error) | .returned (.error error) => some error
  | _ => none

/-- The error is about a message that came. -/
def PeerProxyError.blames : PeerProxyError → Bool
  | .decode _ _ | .unexpectedSignal _ _ | .missingConsumerSessionId
  | .invalidConsumerSessionId => true
  | _ => false

/-- How a step of a session can fail because of a message. -/
inductive Fault (codec : Codec) : Control → Input → PeerProxyError → Prop where
  | offer {signal error} (hread : readOffer codec signal = .error error) :
      Fault codec .awaitingOffer (.replied (.ok (some signal))) error
  | ice {signal error} (hread : readIce codec signal = .error error) :
      Fault codec .awaitingIce (.replied (.ok (some signal))) error
  | id {signal ice error} (hread : readIce codec signal = .ok ice)
      (hcheck : checkSessionId ice.consumerSessionId = .error error) :
      Fault codec .awaitingIce (.replied (.ok (some signal))) error

/-- A peer-proxy session that fails because of a message does so by a `Fault`. -/
theorem fault_of_next {codec : Codec} {control following : Control} {input : Input}
    {effect : Effect} {error : PeerProxyError}
    (h : control.next codec input = some (effect, following))
    (hfailure : following.failure = some error) (hblames : error.blames = true) :
    control.failure = some error ∨ Fault codec control input error := by
  have hother : ∀ other moved, (∀ found, Control.failure moved = some found →
      found.blames = false) → some (other, moved) = some (effect, following) →
      control.failure = some error ∨ Fault codec control input error := by
    intro other moved hmoved heq
    simp only [Option.some.injEq, Prod.mk.injEq] at heq
    obtain ⟨rfl, rfl⟩ := heq
    simp [hmoved error hfailure] at hblames
  have hfail : ∀ found, some (Control.fail found) = some (effect, following) → found = error := by
    intro found heq
    simp only [Control.fail, Option.some.injEq, Prod.mk.injEq] at heq
    obtain ⟨rfl, rfl⟩ := heq
    simpa [Control.failure] using hfailure
  unfold Control.next at h
  split at h
  case h_1 =>
    unfold Control.advertise at h
    split at h
    all_goals exact hother _ _ (by simp [Control.failure, PeerProxyError.blames]) h
  case h_3 reply =>
    unfold Control.afterOffer at h
    split at h
    · exact hother _ _ (by simp [Control.failure, PeerProxyError.blames]) h
    · exact hother _ _ (by simp [Control.failure, PeerProxyError.blames]) h
    · split at h
      · next found hread =>
        obtain rfl := hfail _ h
        exact .inr (.offer hread)
      · exact hother _ _ (by simp [Control.failure]) h
  case h_12 signal description =>
    unfold Control.answer at h
    split at h
    · exact hother _ _ (by simp [Control.failure, PeerProxyError.blames]) h
    · split at h
      all_goals exact hother _ _ (by simp [Control.failure, PeerProxyError.blames]) h
  case h_13 reply =>
    unfold Control.afterIce at h
    split at h
    · exact hother _ _ (by simp [Control.failure, PeerProxyError.blames]) h
    · exact hother _ _ (by simp [Control.failure, PeerProxyError.blames]) h
    · split at h
      · next found hread =>
        obtain rfl := hfail _ h
        exact .inr (.ice hread)
      · next ice hread =>
        split at h
        · next found hcheck =>
          obtain rfl := hfail _ h
          exact .inr (.id hread hcheck)
        · refine hother _ _ (fun found hfound ↦ ?_) h
          cases hcandidates : ice.candidates <;>
            simp [Control.withCandidates, Control.failure, hcandidates] at hfound
  case h_14 =>
    refine hother _ _ (fun found hfound ↦ ?_) h
    unfold Control.withCandidates at hfound
    split at hfound <;> simp [Control.failure] at hfound
  case h_17 id result =>
    unfold Control.afterWait at h
    split at h
    · split at h
      all_goals exact hother _ _ (by simp [Control.failure, PeerProxyError.blames]) h
    all_goals exact hother _ _ (by simp [Control.failure, PeerProxyError.blames]) h
  case h_20 id result duration =>
    unfold Control.afterRelay at h
    split at h
    all_goals exact hother _ _ (by simp [Control.failure, PeerProxyError.blames]) h
  case h_21 result =>
    simp only [Option.some.injEq, Prod.mk.injEq] at h
    obtain ⟨rfl, rfl⟩ := h
    cases result with
    | ok outcome => simp [Control.failure] at hfailure
    | error found => exact .inl hfailure
  case h_22 | h_23 =>
    split at h
    · exact hother _ _ (by simp [Control.failure, PeerProxyError.blames]) h
    · simp at h
  case h_24 => simp at h
  all_goals exact hother _ _ (by simp [Control.failure, PeerProxyError.blames]) h

end Unbounded.PeerProxy

namespace Unbounded.Signaling.Freddie

open Execution (getElem?_append_cases getElem?_append_of_some getElem?_set_cases
  getElem?_set_slot)
open Execution.Exchange (Answered Sound)

/-! ## Steps -/

/-- Everything a step can be, with the step of the session that takes it. -/
inductive Turn (codecs : Codecs) (system : Freddie) : Out → Freddie → Prop where
  | joinConsumer {config} : Turn codecs system .quiet
      { system with consumers := system.consumers ++ [⟨config, .connecting, none⟩] }
  | joinPeer : Turn codecs system .quiet
      { system with peers := system.peers ++ [⟨.connecting, none⟩] }
  | consumer {index attempt input reply fresh effect control performed server}
      (hattempt : system.consumers[index]? = some attempt)
      (hnext : attempt.control.next codecs.consumer attempt.config input = some (effect, control))
      (hperformed : Performed system.server reply (consumerPost index fresh effect) performed
        server)
      (hdelivers : Delivers system attempt.exchange reply (consumerReply input)) :
      Turn codecs system (consumerOut index attempt input performed)
        (system.moveConsumer index attempt control (consumerPost index fresh effect) server)
  | peer {index session input reply fresh effect control performed server}
      (hsession : system.peers[index]? = some session)
      (hnext : session.control.next codecs.peer input = some (effect, control))
      (hperformed : Performed system.server reply (peerPost index fresh effect) performed server)
      (hdelivers : Delivers system session.exchange reply (peerReply input)) :
      Turn codecs system (peerOut index session input effect performed)
        (system.movePeer index control (peerPost index fresh effect) server)

variable {codecs : Codecs} {log : Log} {system following : Freddie}

/-- A step of a consumer session with what it got. -/
theorem turn_of_consumerStep {index : Nat} {input : Consumer.Input} {reply : Option (Nat × Nat)}
    {fresh : String} {out : Out}
    (h : consumerStep codecs system index input reply fresh = some (out, following))
    (hdelivers : ∀ attempt, system.consumers[index]? = some attempt →
      Delivers system attempt.exchange reply (consumerReply input)) :
    Turn codecs system out following := by
  simp only [consumerStep, Option.bind_eq_some_iff, Option.map_eq_some_iff, Prod.mk.injEq] at h
  obtain ⟨attempt, hattempt, ⟨effect, control⟩, hnext, ⟨performed, server⟩, hperform, rfl, rfl⟩ := h
  exact .consumer hattempt hnext (performed_of_perform hperform) (hdelivers attempt hattempt)

/-- A step of a peer-proxy session with what it got. -/
theorem turn_of_peerStep {index : Nat} {input : PeerProxy.Input} {reply : Option (Nat × Nat)}
    {fresh : String} {out : Out}
    (h : peerStep codecs system index input reply fresh = some (out, following))
    (hdelivers : ∀ session, system.peers[index]? = some session →
      Delivers system session.exchange reply (peerReply input)) :
    Turn codecs system out following := by
  simp only [peerStep, Option.bind_eq_some_iff, Option.map_eq_some_iff, Prod.mk.injEq] at h
  obtain ⟨session, hsession, ⟨effect, control⟩, hnext, ⟨performed, server⟩, hperform, rfl, rfl⟩ := h
  exact .peer hsession hnext (performed_of_perform hperform) (hdelivers session hsession)

/-- Every step of the server and its sessions is a `Turn`. -/
theorem turn_of_next {op : Op} {out : Out} (h : next codecs system op = some (out, following)) :
    Turn codecs system out following := by
  cases op with
  | joinConsumer config =>
      simp only [next, Option.some.injEq, Prod.mk.injEq] at h
      obtain ⟨rfl, rfl⟩ := h
      exact .joinConsumer
  | joinPeer =>
      simp only [next, Option.some.injEq, Prod.mk.injEq] at h
      obtain ⟨rfl, rfl⟩ := h
      exact .joinPeer
  | consumer index input fresh =>
      simp only [next] at h
      split at h
      case isFalse => simp at h
      case isTrue hnothing =>
        refine turn_of_consumerStep h fun attempt _ ↦ ?_
        rw [hnothing.1]
        exact .nothing _
  | peer index input fresh =>
      simp only [next] at h
      split at h
      case isFalse => simp at h
      case isTrue hnothing =>
        refine turn_of_peerStep h fun session _ ↦ ?_
        rw [hnothing]
        exact .nothing _
  | advertise index message fresh =>
      simp only [next, Option.bind_eq_some_iff] at h
      obtain ⟨post, _, hstep⟩ := h
      split at hstep
      case isFalse => simp at hstep
      case isTrue => exact turn_of_consumerStep hstep fun _ _ ↦ .nothing _
  | answer party message fresh =>
      cases party with
      | consumer index =>
          simp only [next, Option.bind_eq_some_iff] at h
          obtain ⟨attempt, hattempt, request, hrequest, post, hpost, hstep⟩ := h
          refine turn_of_consumerStep hstep fun found hfound ↦ ?_
          obtain rfl := Option.some.inj (hattempt.symm.trans hfound)
          rw [hrequest]
          exact .answer hpost
      | peer index =>
          simp only [next, Option.bind_eq_some_iff] at h
          obtain ⟨session, hsession, request, hrequest, post, hpost, hstep⟩ := h
          refine turn_of_peerStep hstep fun found hfound ↦ ?_
          obtain rfl := Option.some.inj (hsession.symm.trans hfound)
          rw [hrequest]
          exact .answer hpost

/-! ## The message that a session waits on -/

/-- The kind of the message whose answer a consumer session awaits. -/
def consumerAsks : Consumer.Control → Option SignalMessageType
  | .awaitingAnswer _ => some .offer
  | .awaitingIce => some .ice
  | _ => none

/-- The kind of the message whose answer a peer-proxy session awaits. -/
def peerAsks : PeerProxy.Control → Option SignalMessageType
  | .awaitingOffer => some .genesis
  | .awaitingIce => some .answer
  | _ => none

/-- A consumer session that posts a message awaits its answer. -/
theorem consumerAsks_of_next {config : Consumer.ConsumerConfig} {control moved : Consumer.Control}
    {input : Consumer.Input} {effect : Consumer.Effect} {index : Nat} {fresh : String} {post : Post}
    (h : control.next codecs.consumer config input = some (effect, moved))
    (hpost : consumerPost index fresh effect = some post) :
    consumerAsks moved = some post.body.kind := by
  cases Consumer.move_of_next h with
  | offer | ice =>
      obtain rfl := Option.some.inj hpost
      rfl
  | _ => simp [consumerPost] at hpost

/-- A peer-proxy session that posts a message awaits its answer. -/
theorem peerAsks_of_next {control moved : PeerProxy.Control} {input : PeerProxy.Input}
    {effect : PeerProxy.Effect} {index : Nat} {fresh : String} {post : Post}
    (h : control.next codecs.peer input = some (effect, moved))
    (hpost : peerPost index fresh effect = some post) : peerAsks moved = some post.body.kind := by
  cases PeerProxy.move_of_next h with
  | advertise | answer =>
      obtain rfl := Option.some.inj hpost
      rfl
  | _ => simp [peerPost] at hpost

/-- A session that waits for the answer to a message posted one of the kind that it asks with. -/
structure Asking (system : Freddie) : Prop where
  consumers : ∀ (index : Nat) (attempt : Attempt) (request : Nat),
    system.consumers[index]? = some attempt → attempt.exchange = some request →
    ∃ asked, system.server.posts[request]? = some asked ∧
      consumerAsks attempt.control = some asked.body.kind
  peers : ∀ (index : Nat) (session : Session) (request : Nat),
    system.peers[index]? = some session → session.exchange = some request →
    ∃ asked, system.server.posts[request]? = some asked ∧
      peerAsks session.control = some asked.body.kind

/-- The message that a step posts is the last one after it. -/
theorem Performed.posted {server moved : Execution.Exchange.Server Party Body}
    {reply : Option (Nat × Nat)} {post : Option Post} {performed : ServerLog}
    (h : Performed server reply post performed moved) {request : Nat}
    (hrequest : (post.map fun _ ↦ server.posts.length) = some request) :
    ∃ new, post = some new ∧ moved.posts[request]? = some new := by
  obtain ⟨new, rfl, rfl⟩ := Option.map_eq_some_iff.mp hrequest
  exact ⟨new, rfl, by simp [h.posts]⟩

/-- The messages of the server stay. -/
theorem Performed.kept {server moved : Execution.Exchange.Server Party Body}
    {reply : Option (Nat × Nat)} {post : Option Post} {performed : ServerLog}
    (h : Performed server reply post performed moved) {index : Nat} {found : Post}
    (hfound : server.posts[index]? = some found) : moved.posts[index]? = some found := by
  rw [h.posts, List.getElem?_append_left (List.getElem?_eq_some_iff.mp hfound).1, hfound]

/-- Every step keeps what the sessions wait on. -/
theorem Asking.step {out : Out} (h : Asking system) (hturn : Turn codecs system out following) :
    Asking following := by
  cases hturn with
  | joinConsumer =>
      refine ⟨fun index attempt request hattempt hexchange ↦ ?_, h.peers⟩
      rcases getElem?_append_cases hattempt with ⟨_, rfl⟩ | ⟨_, hold⟩
      · simp at hexchange
      · exact h.consumers index attempt request hold hexchange
  | joinPeer =>
      refine ⟨h.consumers, fun index session request hsession hexchange ↦ ?_⟩
      rcases getElem?_append_cases hsession with ⟨_, rfl⟩ | ⟨_, hold⟩
      · simp at hexchange
      · exact h.peers index session request hold hexchange
  | consumer _ hnext hperformed =>
      refine ⟨fun index attempt request hattempt hexchange ↦ ?_,
        fun index session request hsession hexchange ↦ ?_⟩
      · rcases getElem?_set_cases hattempt with ⟨rfl, rfl⟩ | ⟨_, hold⟩
        · obtain ⟨new, hpost, hnew⟩ := hperformed.posted hexchange
          exact ⟨new, hnew, consumerAsks_of_next hnext hpost⟩
        · obtain ⟨asked, hasked, hkind⟩ := h.consumers index attempt request hold hexchange
          exact ⟨asked, hperformed.kept hasked, hkind⟩
      · obtain ⟨asked, hasked, hkind⟩ := h.peers index session request hsession hexchange
        exact ⟨asked, hperformed.kept hasked, hkind⟩
  | peer _ hnext hperformed =>
      refine ⟨fun index attempt request hattempt hexchange ↦ ?_,
        fun index session request hsession hexchange ↦ ?_⟩
      · obtain ⟨asked, hasked, hkind⟩ := h.consumers index attempt request hattempt hexchange
        exact ⟨asked, hperformed.kept hasked, hkind⟩
      · rcases getElem?_set_cases hsession with ⟨rfl, rfl⟩ | ⟨_, hold⟩
        · obtain ⟨new, hpost, hnew⟩ := hperformed.posted hexchange
          exact ⟨new, hnew, peerAsks_of_next hnext hpost⟩
        · obtain ⟨asked, hasked, hkind⟩ := h.peers index session request hold hexchange
          exact ⟨asked, hperformed.kept hasked, hkind⟩

/-- The sessions of a run wait on messages of the kinds that they ask with. -/
theorem Exec.asking (h : Exec codecs .new log system) : Asking system :=
  h.invariant ⟨by simp [Freddie.new], by simp [Freddie.new]⟩
    fun hasking hnext ↦ hasking.step (turn_of_next hnext)

/-- A step forgets nothing. -/
theorem Turn.extends {op : Op} {out : Out} (h : Turn codecs system out following) :
    Extends log system ((op, out) :: log) following := by
  cases h with
  | joinConsumer =>
      refine ⟨fun _ _ hpost ↦ hpost, fun _ _ hanswered ↦ hanswered, fun _ hmem ↦ hmem,
        fun _ hmem ↦ hmem, fun consumer config hconfig ↦ ?_⟩
      obtain ⟨attempt, hattempt, rfl⟩ := Option.map_eq_some_iff.mp hconfig
      exact congrArg (Option.map Attempt.config) (getElem?_append_of_some hattempt _)
  | joinPeer =>
      exact ⟨fun _ _ hpost ↦ hpost, fun _ _ hanswered ↦ hanswered, fun _ hmem ↦ hmem,
        fun _ hmem ↦ hmem, fun _ _ hconfig ↦ hconfig⟩
  | @consumer index attempt input reply fresh effect control performed server hattempt _
      hperformed =>
      refine (acts_of_performed hperformed (fun _ ↦ owner_of_consumerPost) ?_).grows
      intro other config hother
      rw [configOf, moveConsumer, getElem?_set_slot hattempt]
      split
      case isTrue heq =>
        subst heq
        rw [configOf, hattempt] at hother
        exact hother
      case isFalse => exact hother
  | peer _ _ hperformed =>
      refine (acts_of_performed hperformed (fun _ ↦ owner_of_peerPost) ?_).grows
      exact fun _ _ hconfig ↦ hconfig

/-! ## What arrives can be read -/

/-- Every message of one side is written, and read by the other side. -/
structure Faithful (codecs : Codecs) : Prop where
  offer : ∀ sdp tag, ∃ payload, codecs.consumer.encodeOffer ⟨sdp, tag⟩ = .ok payload ∧
    codecs.peer.decodeOffer payload = .ok ⟨sdp, tag⟩
  answer : ∀ description, ∃ payload, codecs.peer.encodeAnswer description = .ok payload ∧
    codecs.consumer.decodeAnswer payload = .ok description
  ice : ∀ message, ∃ payload ice, codecs.consumer.encodeIce message = .ok payload ∧
    codecs.peer.decodeIce payload = .ok ice ∧ ice.consumerSessionId = message.consumerSessionId

/-- A message that is in the server can be read by its receiver. -/
structure Readable (codecs : Codecs) (system : Freddie) (post : Post) : Prop where
  offer : post.body.kind = .offer → ∃ offer, codecs.peer.decodeOffer post.body.payload = .ok offer
  answer : post.body.kind = .answer →
    ∃ answer, codecs.consumer.decodeAnswer post.body.payload = .ok answer
  ice : post.body.kind = .ice → ∃ ice consumer config,
    codecs.peer.decodeIce post.body.payload = .ok ice ∧ post.owner = .consumer consumer ∧
      configOf system consumer = some config ∧ ice.consumerSessionId = config.consumerSessionId

/-- Every message in the server can be read. -/
theorem Wired.readable (h : Wired codecs log system) (hcodecs : Faithful codecs) {post : Post}
    (hmem : post ∈ system.server.posts) : Readable codecs system post := by
  cases h.origin post hmem with
  | genesis _ hkind => exact ⟨by simp [hkind], by simp [hkind], by simp [hkind]⟩
  | @offer consumer tag genesis offer _ hkind _ _ _ _ hpayload =>
      obtain ⟨payload, hencode, hdecode⟩ := hcodecs.offer offer tag
      obtain rfl := Except.ok.inj (hencode.symm.trans hpayload)
      exact ⟨fun _ ↦ ⟨_, hdecode⟩, by simp [hkind], by simp [hkind]⟩
  | @answer peer message offer answer _ hkind _ _ _ _ hpayload =>
      obtain ⟨payload, hencode, hdecode⟩ := hcodecs.answer answer
      obtain rfl := Except.ok.inj (hencode.symm.trans hpayload)
      exact ⟨by simp [hkind], fun _ ↦ ⟨_, hdecode⟩, by simp [hkind]⟩
  | @ice consumer message answer config candidates howner hkind _ _ _ hconfig hpayload =>
      obtain ⟨payload, ice, hencode, hdecode, hid⟩ :=
        hcodecs.ice ⟨candidates, config.consumerSessionId⟩
      obtain rfl := Except.ok.inj (hencode.symm.trans hpayload)
      exact ⟨by simp [hkind], by simp [hkind],
        fun _ ↦ ⟨ice, consumer, config, hdecode, howner, hconfig, hid⟩⟩

/-- A message that a session gets in a step answers one of its own, of the kind that it asks
with. -/
theorem answer_of_delivers {op : Op} {out : Out} {party : Party} {exchange : Option Nat}
    {reply : Option (Nat × Nat)} {post : Option Post} {message : SignalMessage}
    {kind : SignalMessageType} (hwired : Wired codecs log system)
    (hafter : Wired codecs ((op, out) :: log) following)
    (hsound : Sound "genesis" (serverLog ((op, out) :: log)) following.server)
    (hperformed : Performed system.server reply post out.performed following.server)
    (hdelivers : Delivers system exchange reply (some message))
    (hwaits : ∀ request, exchange = some request → Waits system request party)
    (hasks : ∀ request, exchange = some request →
      ∃ asked, system.server.posts[request]? = some asked ∧ asked.body.kind = kind) :
    ∃ found, Received ((op, out) :: log) following party found ∧ message = signal found ∧
      answerKind kind = some found.body.kind := by
  obtain ⟨request, index, found, hreply, hfound, hsignal⟩ := hdelivers.source message rfl
  have hexchange := hdelivers.waiting request index hreply
  obtain ⟨asked, hasked, howner⟩ := hwired.waiting party request (hwaits request hexchange)
  obtain ⟨same, hsame, hkind⟩ := hasks request hexchange
  obtain rfl := Option.some.inj (hasked.symm.trans hsame)
  have hanswered : Answered (serverLog ((op, out) :: log)) request index :=
    List.mem_append_left _ ((hperformed.answered request index).mpr hreply)
  refine ⟨found, ⟨request, index, asked, hanswered, hperformed.kept hasked, howner,
    hperformed.kept hfound⟩, hsignal, ?_⟩
  rw [← hkind]
  exact (hafter.asked hsound hanswered (hperformed.kept hasked) (hperformed.kept hfound)).2

/-! ## No session fails because of a message -/

/-- No consumer session has failed because of a message, and a peer-proxy session only because of
the session ID of the consumer that it is paired with. -/
structure Blameless (log : Log) (system : Freddie) : Prop where
  consumers : ∀ (index : Nat) (attempt : Attempt) (error : Consumer.ConsumerError),
    system.consumers[index]? = some attempt → attempt.control.failure = some error →
    error.blames = false
  peers : ∀ (index : Nat) (session : Session) (error : PeerProxy.PeerProxyError),
    system.peers[index]? = some session → session.control.failure = some error →
    error.blames = true → ∃ consumer config, Paired log system consumer index ∧
      configOf system consumer = some config ∧
      PeerProxy.checkSessionId config.consumerSessionId = .error error

/-- Sessions that a step leaves alone are as blameless as before. -/
theorem Blameless.keep {newer : Log} (h : Blameless log system)
    (hextends : Extends log system newer following) {index : Nat} {session : Session}
    {error : PeerProxy.PeerProxyError} (hsession : system.peers[index]? = some session)
    (hfailure : session.control.failure = some error) (hblames : error.blames = true) :
    ∃ consumer config, Paired newer following consumer index ∧
      configOf following consumer = some config ∧
      PeerProxy.checkSessionId config.consumerSessionId = .error error := by
  obtain ⟨consumer, config, ⟨post, hreceived, howner⟩, hconfig, hcheck⟩ :=
    h.peers index session error hsession hfailure hblames
  exact ⟨consumer, config, ⟨post, hreceived.mono hextends, howner⟩,
    hextends.config _ _ hconfig, hcheck⟩

/-- A step of a consumer session gives no reason to blame a message. -/
theorem consumer_blameless {op : Op} {index : Nat} {attempt : Attempt} {input : Consumer.Input}
    {reply : Option (Nat × Nat)} {fresh : String} {effect : Consumer.Effect}
    {control : Consumer.Control} {performed : ServerLog}
    {server : Execution.Exchange.Server Party Body} (hcodecs : Faithful codecs)
    (hwired : Wired codecs log system) (hasking : Asking system) (h : Blameless log system)
    (hattempt : system.consumers[index]? = some attempt)
    (hnext : attempt.control.next codecs.consumer attempt.config input = some (effect, control))
    (hperformed : Performed system.server reply (consumerPost index fresh effect) performed server)
    (hdelivers : Delivers system attempt.exchange reply (consumerReply input))
    (hafter : Wired codecs ((op, consumerOut index attempt input performed) :: log)
      (system.moveConsumer index attempt control (consumerPost index fresh effect) server))
    (hsound : Sound "genesis" (serverLog ((op, consumerOut index attempt input performed) :: log))
      server) {error : Consumer.ConsumerError} (hfailure : control.failure = some error) :
    error.blames = false := by
  by_contra hblames
  rw [Bool.not_eq_false] at hblames
  have hreply : ∀ offer signal, attempt.control = .awaitingAnswer offer →
      input = .replied (.ok (some signal)) → signal.kind = .answer ∧
        ∃ answer, codecs.consumer.decodeAnswer signal.payload = .ok answer := by
    rintro offer signal hcontrol rfl
    have hwaits : ∀ request, attempt.exchange = some request →
        Waits system request (.consumer index) :=
      fun request hrequest ↦ ⟨attempt, hattempt, hrequest⟩
    have hasks : ∀ request, attempt.exchange = some request → ∃ asked,
        system.server.posts[request]? = some asked ∧ asked.body.kind = .offer := by
      intro request hrequest
      obtain ⟨asked, hasked, hkind⟩ := hasking.consumers index attempt request hattempt hrequest
      rw [hcontrol] at hkind
      exact ⟨asked, hasked, (Option.some.inj hkind).symm⟩
    obtain ⟨found, ⟨_, _, _, _, _, _, hplace⟩, rfl, hkind⟩ :=
      answer_of_delivers hwired hafter hsound hperformed hdelivers hwaits hasks
    have hanswer := (Option.some.inj hkind).symm
    exact ⟨hanswer, (hafter.readable hcodecs (List.mem_of_getElem? hplace)).answer hanswer⟩
  rcases Consumer.fault_of_next hnext hfailure hblames with hbefore | hfault
  · simp [h.consumers index attempt error hattempt hbefore] at hblames
  generalize hcontrol : attempt.control = before at hfault
  cases hfault with
  | @offer genesis offer source hencode =>
      obtain ⟨payload, hwritten, _⟩ := hcodecs.offer offer attempt.config.tag
      simp [hwritten] at hencode
  | kind hkind => exact hkind (hreply _ _ hcontrol rfl).1
  | answer hdecode =>
      obtain ⟨answer, hread⟩ := (hreply _ _ hcontrol rfl).2
      simp [hread] at hdecode
  | @ice signal candidates source hencode =>
      obtain ⟨payload, ice, hwritten, _⟩ :=
        hcodecs.ice ⟨candidates.map .ofCandidate, attempt.config.consumerSessionId⟩
      simp [hwritten] at hencode

/-- A step of a peer-proxy session gives no reason to blame a message, but for the session ID of the
consumer that it is paired with. -/
theorem peer_blameless {op : Op} {index : Nat} {session : Session} {input : PeerProxy.Input}
    {reply : Option (Nat × Nat)} {fresh : String} {effect : PeerProxy.Effect}
    {control : PeerProxy.Control} {performed : ServerLog}
    {server : Execution.Exchange.Server Party Body} (hcodecs : Faithful codecs)
    (hwired : Wired codecs log system) (hasking : Asking system) (h : Blameless log system)
    (hsession : system.peers[index]? = some session)
    (hnext : session.control.next codecs.peer input = some (effect, control))
    (hperformed : Performed system.server reply (peerPost index fresh effect) performed server)
    (hdelivers : Delivers system session.exchange reply (peerReply input))
    (hextends : Extends log system ((op, peerOut index session input effect performed) :: log)
      (system.movePeer index control (peerPost index fresh effect) server))
    (hafter : Wired codecs ((op, peerOut index session input effect performed) :: log)
      (system.movePeer index control (peerPost index fresh effect) server))
    (hsound : Sound "genesis"
      (serverLog ((op, peerOut index session input effect performed) :: log)) server)
    {error : PeerProxy.PeerProxyError} (hfailure : control.failure = some error)
    (hblames : error.blames = true) :
    ∃ consumer config,
      Paired ((op, peerOut index session input effect performed) :: log)
        (system.movePeer index control (peerPost index fresh effect) server) consumer index ∧
      configOf (system.movePeer index control (peerPost index fresh effect) server) consumer =
        some config ∧ PeerProxy.checkSessionId config.consumerSessionId = .error error := by
  have hreply : ∀ kind signal, peerAsks session.control = some kind →
      input = .replied (.ok (some signal)) → ∃ found,
        Received ((op, peerOut index session input effect performed) :: log)
          (system.movePeer index control (peerPost index fresh effect) server) (.peer index) found ∧
        signal = Signaling.signal found ∧ answerKind kind = some found.body.kind := by
    rintro kind signal hasks rfl
    have hwaits : ∀ request, session.exchange = some request →
        Waits system request (.peer index) :=
      fun request hrequest ↦ ⟨session, hsession, hrequest⟩
    refine answer_of_delivers hwired hafter hsound hperformed hdelivers hwaits
      fun request hrequest ↦ ?_
    obtain ⟨asked, hasked, hkind⟩ := hasking.peers index session request hsession hrequest
    exact ⟨asked, hasked, Option.some.inj (hkind.symm.trans hasks)⟩
  rcases PeerProxy.fault_of_next hnext hfailure hblames with hbefore | hfault
  · exact h.keep hextends hsession hbefore hblames
  generalize hcontrol : session.control = before at hfault
  cases hfault with
  | offer hread =>
      obtain ⟨found, ⟨_, _, _, _, _, _, hplace⟩, rfl, hkind⟩ :=
        hreply .genesis _ (by rw [hcontrol]; rfl) rfl
      have hoffer := (Option.some.inj hkind).symm
      obtain ⟨offer, hdecode⟩ :=
        (hafter.readable hcodecs (List.mem_of_getElem? hplace)).offer hoffer
      simp [PeerProxy.readOffer, PeerProxy.readSignal, PeerProxy.expectSignal, Signaling.signal,
        hoffer, hdecode] at hread
  | ice hread =>
      obtain ⟨found, ⟨_, _, _, _, _, _, hplace⟩, rfl, hkind⟩ :=
        hreply .answer _ (by rw [hcontrol]; rfl) rfl
      have hice := (Option.some.inj hkind).symm
      obtain ⟨ice, _, _, hdecode, _⟩ :=
        (hafter.readable hcodecs (List.mem_of_getElem? hplace)).ice hice
      simp [PeerProxy.readIce, PeerProxy.readSignal, PeerProxy.expectSignal, Signaling.signal,
        hice, hdecode] at hread
  | @id signal ice error hread hcheck =>
      obtain ⟨found, hreceived, rfl, hkind⟩ := hreply .answer _ (by rw [hcontrol]; rfl) rfl
      obtain ⟨_, _, _, _, _, _, hplace⟩ := id hreceived
      have hice := (Option.some.inj hkind).symm
      obtain ⟨decoded, consumer, config, hdecode, howner, hconfig, hid⟩ :=
        (hafter.readable hcodecs (List.mem_of_getElem? hplace)).ice hice
      have hsame : decoded = ice := by
        simpa [PeerProxy.readIce, PeerProxy.readSignal, PeerProxy.expectSignal, Signaling.signal,
          hice, hdecode] using hread
      rw [← hsame, hid] at hcheck
      exact ⟨consumer, config, ⟨found, hreceived, howner⟩, hconfig, hcheck⟩

/-- In every run the sessions are blameless. -/
theorem Exec.blameless (hcodecs : Faithful codecs) (h : Exec codecs .new log system) :
    Blameless log system := by
  induction h with
  | refl => exact ⟨by simp [Freddie.new], by simp [Freddie.new]⟩
  | @snoc log system following op out hexec hnext ih =>
      have hafter := Exec.wired (hexec.snoc hnext)
      have hsound := Execution.Exchange.Exec.sound (Exec.server (hexec.snoc hnext))
      have hwired := Exec.wired hexec
      have hasking := Exec.asking hexec
      have hturn := turn_of_next hnext
      have hextends : Extends log system ((op, out) :: log) following := hturn.extends
      cases hturn with
      | joinConsumer =>
          refine ⟨fun index attempt error hattempt hfailure ↦ ?_,
            fun index session error hsession ↦ ih.keep hextends hsession⟩
          rcases getElem?_append_cases hattempt with ⟨_, rfl⟩ | ⟨_, hold⟩
          · simp [Consumer.Control.failure] at hfailure
          · exact ih.consumers index attempt error hold hfailure
      | joinPeer =>
          refine ⟨ih.consumers, fun index session error hsession hfailure ↦ ?_⟩
          rcases getElem?_append_cases hsession with ⟨_, rfl⟩ | ⟨_, hold⟩
          · simp [PeerProxy.Control.failure] at hfailure
          · exact ih.keep hextends hold hfailure
      | consumer hattempt hstep hperformed hdelivers =>
          refine ⟨fun index attempt error hfound hfailure ↦ ?_,
            fun index session error hsession ↦ ih.keep hextends hsession⟩
          rcases getElem?_set_cases hfound with ⟨rfl, rfl⟩ | ⟨_, hold⟩
          · exact consumer_blameless hcodecs hwired hasking ih hattempt hstep hperformed hdelivers
              hafter hsound hfailure
          · exact ih.consumers index attempt error hold hfailure
      | peer hsession hstep hperformed hdelivers =>
          refine ⟨ih.consumers, fun index session error hfound hfailure ↦ ?_⟩
          rcases getElem?_set_cases hfound with ⟨rfl, rfl⟩ | ⟨_, hold⟩
          · exact peer_blameless hcodecs hwired hasking ih hsession hstep hperformed hdelivers
              hextends hafter hsound hfailure
          · exact ih.keep hextends hold hfailure

/-- The codecs of the two programs are faithful. -/
theorem faithful_jsonCodecs {serde : Wire.Serde} (writer : Wire.DescriptionWriter serde) :
    Faithful (Wire.jsonCodecs writer) where
  offer := Wire.decodeOffer_encodeOffer writer
  answer := Wire.decodeAnswer_encodeAnswer writer
  ice := by
    intro message
    obtain ⟨payload, hencode, hdecode⟩ := Wire.peerCodec_decodeIce writer message
    exact ⟨payload, _, hencode, hdecode, rfl⟩

/-- Let any number of consumers and peer proxies that run this code share a signaling server, with
any interleaving, any loss and failure of replies and any cancellation. Then no consumer session
fails because of a message that it got or could not write, and a peer-proxy session that fails
because of a message does so because the consumer that it is paired with was configured with a
session ID that is empty or no subprotocol token. A message is answered by one of the next kind, and
nothing answers an ICE message. -/
theorem honest_sessions {serde : Wire.Serde} {writer : Wire.DescriptionWriter serde}
    (h : Exec (Wire.jsonCodecs writer) .new log system) :
    (∀ (index : Nat) (attempt : Attempt) (error : Consumer.ConsumerError),
      system.consumers[index]? = some attempt → attempt.control.failure = some error →
      error.blames = false) ∧
    (∀ (index : Nat) (session : Session) (error : PeerProxy.PeerProxyError),
      system.peers[index]? = some session → session.control.failure = some error →
      error.blames = true →
      ∃ consumer attempt, Paired log system consumer index ∧
        system.consumers[consumer]? = some attempt ∧
        PeerProxy.checkSessionId attempt.config.consumerSessionId = .error error) ∧
    ∀ request message asked, Answered (serverLog log) request message →
      system.server.posts[request]? = some asked → ∃ post,
        system.server.posts[message]? = some post ∧
        answerKind asked.body.kind = some post.body.kind := by
  have hblameless := Exec.blameless (faithful_jsonCodecs writer) h
  have hsound := Execution.Exchange.Exec.sound (Exec.server h)
  refine ⟨hblameless.consumers, ?_, ?_⟩
  · intro index session error hsession hfailure hblames
    obtain ⟨consumer, config, hpaired, hconfig, hcheck⟩ :=
      hblameless.peers index session error hsession hfailure hblames
    obtain ⟨attempt, hattempt, rfl⟩ := Option.map_eq_some_iff.mp hconfig
    exact ⟨consumer, attempt, hpaired, hattempt, hcheck⟩
  · intro request message asked hanswered hasked
    obtain ⟨_, post, _, hpost, _⟩ := hsound.answered request message hanswered
    exact ⟨post, hpost, ((Exec.wired h).asked hsound hanswered hasked hpost).2⟩

/-- A peer proxy that refuses the session ID of the consumer it was paired with. -/
theorem honest_sessions_of_refused_id : ∃ log system session,
    Exec (Wire.jsonCodecs Wire.DescriptionWriter.plain) .new log system ∧
    system.peers[0]? = some session ∧
    session.control.failure = some .invalidConsumerSessionId ∧
    ∃ consumer attempt, Paired log system consumer 0 ∧
      system.consumers[consumer]? = some attempt ∧
      PeerProxy.checkSessionId attempt.config.consumerSessionId =
        .error .invalidConsumerSessionId := by
  have hrun : (Execution.run (next (Wire.jsonCodecs Wire.DescriptionWriter.plain))
      [.joinConsumer ⟨"a b", "tag", 8⟩, .joinPeer, .peer 0 (.connected (.ok ())) "r0",
        .consumer 0 (.connected (.ok ())) "", .consumer 0 (.channelCreated (.ok ())) "",
        .consumer 0 (.subscribed (.ok ())) "", .advertise 0 0 "", .consumer 0 .patienceOver "",
        .consumer 0 (.chosen 0) "", .consumer 0 (.offerCreated (.ok ⟨.offer, "offer"⟩)) "r1",
        .answer (.peer 0) 1 "", .peer 0 (.remoteSet (.ok ())) "",
        .peer 0 (.answerCreated (.ok ⟨.answer, "answer"⟩)) "", .peer 0 .promised "",
        .peer 0 (.localSet (.ok ())) "", .peer 0 .gathered "",
        .peer 0 (.described (some ⟨.answer, "answer"⟩)) "r2", .answer (.consumer 0) 2 "",
        .consumer 0 .promised "", .consumer 0 (.localSet (.ok ())) "",
        .consumer 0 (.remoteSet (.ok ())) "", .consumer 0 (.gathered []) "r3",
        .answer (.peer 0) 3 ""] ([], .new)).any (fun reached ↦ reached.2.peers[0]?.any fun session ↦
          session.control.failure = some .invalidConsumerSessionId) = true := by
    decide +kernel
  obtain ⟨⟨log, system⟩, hreached, htest⟩ := (Option.any_eq_true _ _).mp hrun
  obtain ⟨session, hsession, hfailure⟩ := (Option.any_eq_true _ _).mp htest
  have hexec := Execution.exec_of_run hreached
  have hrefused := of_decide_eq_true hfailure
  exact ⟨log, system, session, hexec, hsession, hrefused,
    (honest_sessions hexec).2.1 0 session _ hsession hrefused rfl⟩

end Unbounded.Signaling.Freddie
