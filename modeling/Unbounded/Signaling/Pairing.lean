import Unbounded.Signaling.Wiring
import Unbounded.Wire.Signals

/-!
# Which consumer a peer proxy is paired with

A request is answered once and IDs are not shared, so that the chain of IDs leads from an Ice
message back to one consumer attempt and one peer-proxy session. Each of the two has then applied
the description that the other one has made, and the session ID in the Ice message is the one of the
consumer at the other end (`pairing_agreement`).
-/

namespace Unbounded.Signaling.Freddie

open Execution.Exchange (Answered Sound)
open Rtc (SessionDescription)

variable {codecs : Codecs} {log : Log} {system : Freddie}

/-- The kind of the message that a message of a kind is answered with. -/
def answerKind : SignalMessageType → Option SignalMessageType
  | .genesis => some .offer
  | .offer => some .answer
  | .answer => some .ice
  | .ice => none

/-- A session received a message that was sent to a message of its own, of the kind before. -/
theorem Wired.asked (h : Wired codecs log system)
    (hsound : Sound "genesis" (serverLog log) system.server) {request message : Nat}
    {asked post : Post} (hanswered : Answered (serverLog log) request message)
    (hasked : system.server.posts[request]? = some asked)
    (hpost : system.server.posts[message]? = some post) :
    asked.id = post.sendTo ∧ answerKind asked.body.kind = some post.body.kind := by
  have hid : asked.id = post.sendTo := by
    obtain ⟨found, hfound, hid⟩ := hsound.request_of_answered hanswered hpost
    obtain rfl := Option.some.inj (hfound.symm.trans hasked)
    exact hid
  refine ⟨hid, ?_⟩
  -- the message with that ID is the one the poster replied to
  have hsame : ∀ other ∈ system.server.posts, post.sendTo = other.id → asked = other := by
    intro other hmem hsendTo
    obtain ⟨place, hplace⟩ := List.getElem?_of_mem hmem
    obtain rfl := hsound.eq_of_id hasked hplace (hid.trans hsendTo)
    exact Option.some.inj (hasked.symm.trans hplace)
  cases h.origin post (List.mem_of_getElem? hpost) with
  | genesis _ _ hsendTo =>
      exact absurd (hid.trans hsendTo) (hsound.unreserved asked (List.mem_of_getElem? hasked))
  | offer _ hkind hgenesis hgenesisKind hsendTo =>
      rw [hsame _ hgenesis hsendTo, hgenesisKind, hkind]
      rfl
  | answer _ hkind hread hsendTo =>
      obtain ⟨offer, ⟨_, _, _, _, _, _, hplace⟩, hofferKind, rfl, _⟩ := hread
      rw [hsame offer (List.mem_of_getElem? hplace) hsendTo, hofferKind, hkind]
      rfl
  | ice _ hkind hread hsendTo =>
      obtain ⟨answer, ⟨_, _, _, _, _, _, hplace⟩, hanswerKind, rfl, _⟩ := hread
      rw [hsame answer (List.mem_of_getElem? hplace) hsendTo, hanswerKind, hkind]
      rfl

/-- A session receives at most one message of a kind. -/
theorem Wired.received_unique (h : Wired codecs log system)
    (hsound : Sound "genesis" (serverLog log) system.server) {party : Party} {one two : Post}
    (hone : Received log system party one) (htwo : Received log system party two)
    (hkind : one.body.kind = two.body.kind) : one = two := by
  obtain ⟨request, message, asked, hanswered, hasked, howner, hpost⟩ := hone
  obtain ⟨otherRequest, otherMessage, otherAsked, hotherAnswered, hotherAsked, hotherOwner,
    hotherPost⟩ := htwo
  have hanswers := (h.asked hsound hanswered hasked hpost).2
  have hotherAnswers := (h.asked hsound hotherAnswered hotherAsked hotherPost).2
  have haskedKind : asked.body.kind = otherAsked.body.kind := by
    rw [hkind, ← hotherAnswers] at hanswers
    cases hfirst : asked.body.kind <;> cases hsecond : otherAsked.body.kind <;>
      simp_all [answerKind]
  obtain rfl := h.unique _ _ asked otherAsked hasked hotherAsked
    (howner.trans hotherOwner.symm) haskedKind
  obtain rfl := hsound.once _ _ _ hanswered hotherAnswered
  exact Option.some.inj (hpost.symm.trans hotherPost)

/-- A peer-proxy session applies the description of one Offer, the one that it received. -/
theorem Wired.eq_of_peerApplied (h : Wired codecs log system)
    (hsound : Sound "genesis" (serverLog log) system.server) {peer : Nat} {offer : Post}
    {decoded : PeerProxy.OfferMessage} {description : SessionDescription}
    (hreceived : Received log system (.peer peer) offer) (hkind : offer.body.kind = .offer)
    (hdecode : codecs.peer.decodeOffer offer.body.payload = .ok decoded)
    (happlied : (.peer peer, description) ∈ applied log) : description = decoded.sdp := by
  obtain ⟨_, read, ⟨found, hfound, hfoundKind, _, hread⟩, rfl⟩ :=
    h.peerApplied peer description happlied
  obtain rfl := h.received_unique hsound hreceived hfound (hkind.trans hfoundKind.symm)
  rw [Except.ok.inj (hread.symm.trans hdecode)]

/-- A consumer session applies the description of one Answer, the one that it received. -/
theorem Wired.eq_of_consumerApplied (h : Wired codecs log system)
    (hsound : Sound "genesis" (serverLog log) system.server) {consumer : Nat} {answer : Post}
    {decoded description : SessionDescription}
    (hreceived : Received log system (.consumer consumer) answer)
    (hkind : answer.body.kind = .answer)
    (hdecode : codecs.consumer.decodeAnswer answer.body.payload = .ok decoded)
    (happlied : (.consumer consumer, description) ∈ applied log) : description = decoded := by
  obtain ⟨_, found, hfound, hfoundKind, _, hread⟩ :=
    h.consumerApplied consumer description happlied
  obtain rfl := h.received_unique hsound hreceived hfound (hkind.trans hfoundKind.symm)
  exact Except.ok.inj (hread.symm.trans hdecode)

/-- The Answer that an Ice message was sent to, and what came of it. -/
theorem Wired.answer_of_ice (h : Wired codecs log system)
    (hsound : Sound "genesis" (serverLog log) system.server) {peer : Nat} {ice : Post}
    (hreceived : Received log system (.peer peer) ice) (hkind : ice.body.kind = .ice) :
    ∃ consumer answer, ice.owner = .consumer consumer ∧
      Received log system (.consumer consumer) answer ∧ answer.body.kind = .answer ∧
      answer.owner = .peer peer ∧
      (∃ description, codecs.consumer.decodeAnswer answer.body.payload = .ok description ∧
        (.consumer consumer, description) ∈ applied log) ∧
      ∃ config candidates, configOf system consumer = some config ∧
        codecs.consumer.encodeIce ⟨candidates, config.consumerSessionId⟩ =
          .ok ice.body.payload := by
  obtain ⟨request, message, asked, hanswered, hasked, howner, hpost⟩ := hreceived
  have hid := (h.asked hsound hanswered hasked hpost).1
  cases h.origin ice (List.mem_of_getElem? hpost) with
  | ice hiceOwner _ hread hsendTo happlied hconfig hpayload =>
      obtain ⟨answer, hanswerReceived, hanswerKind, rfl, hdecode⟩ := hread
      refine ⟨_, answer, hiceOwner, hanswerReceived, hanswerKind, ?_, ⟨_, hdecode, happlied⟩,
        _, _, hconfig, hpayload⟩
      obtain ⟨_, _, _, _, _, _, hplace⟩ := hanswerReceived
      obtain rfl := hsound.eq_of_id hasked hplace (hid.trans hsendTo)
      obtain rfl := Option.some.inj (hasked.symm.trans hplace)
      exact howner
  | genesis _ hother => simp [hkind] at hother
  | offer _ hother => simp [hkind] at hother
  | answer _ hother => simp [hkind] at hother

/-- The Offer that an Answer was sent to, and what came of it. -/
theorem Wired.offer_of_answer (h : Wired codecs log system)
    (hsound : Sound "genesis" (serverLog log) system.server) {consumer peer : Nat} {answer : Post}
    (hreceived : Received log system (.consumer consumer) answer)
    (hkind : answer.body.kind = .answer) (hpeer : answer.owner = .peer peer) :
    ∃ offer, Received log system (.peer peer) offer ∧ offer.body.kind = .offer ∧
      offer.owner = .consumer consumer ∧
      (∃ decoded, codecs.peer.decodeOffer offer.body.payload = .ok decoded ∧
        (.peer peer, decoded.sdp) ∈ applied log) ∧
      ∃ description, (.peer peer, description) ∈ described log ∧
        codecs.peer.encodeAnswer description = .ok answer.body.payload := by
  obtain ⟨request, message, asked, hanswered, hasked, howner, hpost⟩ := hreceived
  have hid := (h.asked hsound hanswered hasked hpost).1
  cases h.origin answer (List.mem_of_getElem? hpost) with
  | answer hanswerOwner _ hread hsendTo happlied hdescribed hpayload =>
      obtain rfl := Party.peer.inj (hpeer.symm.trans hanswerOwner)
      obtain ⟨offer, hofferReceived, hofferKind, rfl, hdecode⟩ := hread
      refine ⟨offer, hofferReceived, hofferKind, ?_, ⟨_, hdecode, happlied⟩, _, hdescribed,
        hpayload⟩
      obtain ⟨_, _, _, _, _, _, hplace⟩ := hofferReceived
      obtain rfl := hsound.eq_of_id hasked hplace (hid.trans hsendTo)
      obtain rfl := Option.some.inj (hasked.symm.trans hplace)
      exact howner
  | genesis _ hother => simp [hkind] at hother
  | offer _ hother => simp [hkind] at hother
  | ice _ hother => simp [hkind] at hother

/-- The description in an Offer is one that the consumer made. -/
theorem Wired.described_of_offer (h : Wired codecs log system) {consumer : Nat} {offer : Post}
    (hmem : offer ∈ system.server.posts) (hkind : offer.body.kind = .offer)
    (howner : offer.owner = .consumer consumer) :
    ∃ description tag, (.consumer consumer, description) ∈ described log ∧
      codecs.consumer.encodeOffer ⟨description, tag⟩ = .ok offer.body.payload := by
  cases h.origin offer hmem with
  | offer hofferOwner _ _ _ _ hdescribed hpayload =>
      obtain rfl := Party.consumer.inj (howner.symm.trans hofferOwner)
      exact ⟨_, _, hdescribed, hpayload⟩
  | genesis _ hother => simp [hkind] at hother
  | answer _ hother => simp [hkind] at hother
  | ice _ hother => simp [hkind] at hother

/-- A peer-proxy session has received a message of a consumer attempt. -/
def Paired (log : Log) (system : Freddie) (consumer peer : Nat) : Prop :=
  ∃ post, Received log system (.peer peer) post ∧ post.owner = .consumer consumer

/-- The two ends of a connection: each has applied the description that the other one has made, and
no other one. -/
structure Agreed (log : Log) (consumer peer : Nat) (offer answer : SessionDescription) :
    Prop where
  offered : (.consumer consumer, offer) ∈ described log
  offerApplied : ∀ description, (.peer peer, description) ∈ applied log ↔ description = offer
  answered : (.peer peer, answer) ∈ described log
  answerApplied : ∀ description,
    (.consumer consumer, description) ∈ applied log ↔ description = answer

/-- A peer-proxy session that has received an Ice message agrees with the consumer that sent it. -/
theorem Wired.agreed (h : Wired codecs log system) (hcodecs : codecs.Compatible)
    (hsound : Sound "genesis" (serverLog log) system.server) {peer : Nat} {post : Post}
    (hreceived : Received log system (.peer peer) post) (hkind : post.body.kind = .ice) :
    ∃ consumer config candidates offer answer, post.owner = .consumer consumer ∧
      configOf system consumer = some config ∧
      codecs.consumer.encodeIce ⟨candidates, config.consumerSessionId⟩ = .ok post.body.payload ∧
      Agreed log consumer peer offer answer := by
  obtain ⟨consumer, answer, howner, hanswerReceived, hanswerKind, hanswerOwner,
    ⟨description, hdecode, happlied⟩, config, candidates, hconfig, hice⟩ :=
    h.answer_of_ice hsound hreceived hkind
  obtain ⟨offer, hofferReceived, hofferKind, hofferOwner, ⟨decoded, hofferDecode, hofferApplied⟩,
    made, hmade, hanswer⟩ := h.offer_of_answer hsound hanswerReceived hanswerKind hanswerOwner
  have hmem : offer ∈ system.server.posts := by
    obtain ⟨_, _, _, _, _, _, hplace⟩ := hofferReceived
    exact List.mem_of_getElem? hplace
  obtain ⟨offered, tag, hoffered, hoffer⟩ := h.described_of_offer hmem hofferKind hofferOwner
  have hsdp : decoded.sdp = offered := hcodecs.offer _ _ _ hoffer hofferDecode
  obtain rfl := hcodecs.answer _ _ _ hanswer hdecode
  refine ⟨consumer, config, candidates, offered, description, howner, hconfig, hice, hoffered, ?_,
    hmade, ?_⟩
  · refine fun other ↦ ⟨fun hother ↦ ?_, ?_⟩
    · rw [h.eq_of_peerApplied hsound hofferReceived hofferKind hofferDecode hother, hsdp]
    · rintro rfl
      exact hsdp ▸ hofferApplied
  · refine fun other ↦ ⟨fun hother ↦ ?_, ?_⟩
    · exact h.eq_of_consumerApplied hsound hanswerReceived hanswerKind hdecode hother
    · rintro rfl
      exact happlied

/-- Two paired sessions have exchanged an Offer. -/
theorem Wired.offer_of_paired (h : Wired codecs log system)
    (hsound : Sound "genesis" (serverLog log) system.server) {consumer peer : Nat}
    (hpaired : Paired log system consumer peer) :
    ∃ offer, Received log system (.peer peer) offer ∧ offer.body.kind = .offer ∧
      offer.owner = .consumer consumer := by
  obtain ⟨post, hreceived, howner⟩ := hpaired
  have hmem : post ∈ system.server.posts := by
    obtain ⟨_, _, _, _, _, _, hplace⟩ := hreceived
    exact List.mem_of_getElem? hplace
  cases h.origin post hmem with
  | genesis hother => simp [howner] at hother
  | answer hother => simp [howner] at hother
  | offer _ hkind => exact ⟨post, hreceived, hkind, howner⟩
  | ice _ hkind =>
      obtain ⟨other, answer, hother, hanswerReceived, hanswerKind, hanswerOwner, _⟩ :=
        h.answer_of_ice hsound hreceived hkind
      obtain rfl := Party.consumer.inj (howner.symm.trans hother)
      obtain ⟨offer, hofferReceived, hofferKind, hofferOwner, _⟩ :=
        h.offer_of_answer hsound hanswerReceived hanswerKind hanswerOwner
      exact ⟨offer, hofferReceived, hofferKind, hofferOwner⟩

/-- A consumer attempt is paired with one peer-proxy session only. -/
theorem Wired.paired_peer_unique (h : Wired codecs log system)
    (hsound : Sound "genesis" (serverLog log) system.server) {consumer peer other : Nat}
    (hpaired : Paired log system consumer peer) (hother : Paired log system consumer other) :
    peer = other := by
  obtain ⟨one, ⟨_, _, asked, hanswered, hasked, howner, hplace⟩, hkind, honeOwner⟩ :=
    h.offer_of_paired hsound hpaired
  obtain ⟨two, ⟨_, _, otherAsked, hotherAnswered, hotherAsked, hotherOwner, hotherPlace⟩,
    hotherKind, htwoOwner⟩ := h.offer_of_paired hsound hother
  -- the attempt posts one Offer, which is sent to one Genesis
  obtain rfl := h.unique _ _ one two hplace hotherPlace (honeOwner.trans htwoOwner.symm)
    (hkind.trans hotherKind.symm)
  obtain rfl := Option.some.inj (hplace.symm.trans hotherPlace)
  have hid := (h.asked hsound hanswered hasked hplace).1
  have hotherId := (h.asked hsound hotherAnswered hotherAsked hplace).1
  obtain rfl := hsound.eq_of_id hasked hotherAsked (hid.trans hotherId.symm)
  obtain rfl := Option.some.inj (hasked.symm.trans hotherAsked)
  exact Party.peer.inj (howner.symm.trans hotherOwner)

/-- A peer-proxy session is paired with one consumer attempt only. -/
theorem Wired.paired_consumer_unique (h : Wired codecs log system)
    (hsound : Sound "genesis" (serverLog log) system.server) {consumer other peer : Nat}
    (hpaired : Paired log system consumer peer) (hother : Paired log system other peer) :
    consumer = other := by
  obtain ⟨one, hone, hkind, honeOwner⟩ := h.offer_of_paired hsound hpaired
  obtain ⟨two, htwo, hotherKind, htwoOwner⟩ := h.offer_of_paired hsound hother
  obtain rfl := h.received_unique hsound hone htwo (hkind.trans hotherKind.symm)
  exact Party.consumer.inj (honeOwner.symm.trans htwoOwner)

/-- In every run of any number of consumer attempts and peer-proxy sessions that share a signaling
server: a session that reads an Ice message is the one end of a connection whose other end is the
attempt that sent it, and the session ID that it reads, and that it dials the egress with, is the
one of that attempt. An attempt is paired with at most one session and a session with at most one
attempt. -/
theorem pairing_agreement (hcodecs : codecs.Compatible) (h : Exec codecs .new log system) :
    (∀ peer post ice, ReadIce codecs log system peer post ice →
      ∃ consumer attempt offer answer, post.owner = .consumer consumer ∧
        system.consumers[consumer]? = some attempt ∧
        ice.consumerSessionId = attempt.config.consumerSessionId ∧
        Agreed log consumer peer offer answer) ∧
    (∀ peer id, (peer, id) ∈ dialed log →
      ∃ consumer attempt offer answer, Paired log system consumer peer ∧
        system.consumers[consumer]? = some attempt ∧ id = attempt.config.consumerSessionId ∧
        Agreed log consumer peer offer answer) ∧
    (∀ consumer peer other, Paired log system consumer peer → Paired log system consumer other →
      peer = other) ∧
    ∀ consumer other peer, Paired log system consumer peer → Paired log system other peer →
      consumer = other := by
  have hwired := Exec.wired h
  have hsound := Execution.Exchange.Exec.sound (Exec.server h)
  have hice : ∀ peer post ice, ReadIce codecs log system peer post ice →
      ∃ consumer attempt offer answer, post.owner = .consumer consumer ∧
        system.consumers[consumer]? = some attempt ∧
        ice.consumerSessionId = attempt.config.consumerSessionId ∧
        Agreed log consumer peer offer answer := by
    intro peer post ice ⟨hreceived, hkind, hdecode⟩
    obtain ⟨consumer, config, candidates, offer, answer, howner, hconfig, hpayload, hagreed⟩ :=
      hwired.agreed hcodecs hsound hreceived hkind
    obtain ⟨attempt, hattempt, rfl⟩ := Option.map_eq_some_iff.mp hconfig
    exact ⟨consumer, attempt, offer, answer, howner, hattempt,
      hcodecs.ice _ _ _ hpayload hdecode, hagreed⟩
  refine ⟨hice, ?_, fun _ _ _ ↦ hwired.paired_peer_unique hsound,
    fun _ _ _ ↦ hwired.paired_consumer_unique hsound⟩
  intro peer id hdialed
  obtain ⟨post, ice, hread, rfl⟩ := hwired.dialed peer id hdialed
  obtain ⟨consumer, attempt, offer, answer, howner, hattempt, hid, hagreed⟩ :=
    hice peer post ice hread
  exact ⟨consumer, attempt, offer, answer, ⟨post, hread.1, howner⟩, hattempt, hid, hagreed⟩

/-- One consumer and one peer proxy that find each other. -/
theorem pairing_agreement_of_first_pair : ∃ log system,
    Exec (Wire.jsonCodecs Wire.DescriptionWriter.plain) .new log system ∧
    (0, "csid") ∈ dialed log ∧
    ∃ consumer attempt offer answer, Paired log system consumer 0 ∧
      system.consumers[consumer]? = some attempt ∧
      "csid" = attempt.config.consumerSessionId ∧ Agreed log consumer 0 offer answer := by
  have hrun : (Execution.run (next (Wire.jsonCodecs Wire.DescriptionWriter.plain))
      [.joinConsumer ⟨"csid", "tag", 8⟩, .joinPeer, .peer 0 (.connected (.ok ())) "r0",
        .consumer 0 (.connected (.ok ())) "", .consumer 0 (.channelCreated (.ok ())) "",
        .consumer 0 (.subscribed (.ok ())) "", .advertise 0 0 "", .consumer 0 .patienceOver "",
        .consumer 0 (.chosen 0) "", .consumer 0 (.offerCreated (.ok ⟨.offer, "offer"⟩)) "r1",
        .answer (.peer 0) 1 "", .peer 0 (.remoteSet (.ok ())) "",
        .peer 0 (.answerCreated (.ok ⟨.answer, "answer"⟩)) "", .peer 0 .promised "",
        .peer 0 (.localSet (.ok ())) "", .peer 0 .gathered "",
        .peer 0 (.described (some ⟨.answer, "answer"⟩)) "r2", .answer (.consumer 0) 2 "",
        .consumer 0 .promised "", .consumer 0 (.localSet (.ok ())) "",
        .consumer 0 (.remoteSet (.ok ())) "", .consumer 0 (.gathered []) "r3",
        .answer (.peer 0) 3 "", .peer 0 (.waited .opened) ""] ([], .new)).any
          (fun reached ↦ (0, "csid") ∈ dialed reached.1) = true := by
    decide +kernel
  obtain ⟨⟨log, system⟩, hreached, htest⟩ := (Option.any_eq_true _ _).mp hrun
  have hexec := Execution.exec_of_run hreached
  have hdialed := of_decide_eq_true htest
  exact ⟨log, system, hexec, hdialed, (pairing_agreement
    (Wire.jsonCodecs_compatible Wire.DescriptionWriter.plain) hexec).2.1 0 "csid" hdialed⟩

end Unbounded.Signaling.Freddie
