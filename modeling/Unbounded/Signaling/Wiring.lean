import Unbounded.Signaling.Freddie

/-!
# How signaling messages are wired

A consumer attempt and a peer-proxy session find each other through four messages, each of which is
sent to the request ID of the one before. `Wired` connects every message that was posted with the
messages its poster had received (`Origin`) and every session with the messages it still uses
(`ConsumerView` and `PeerView`). It holds in every run (`Exec.wired`), whatever is lost, fails or is
cancelled.
-/

namespace Unbounded.Signaling.Freddie

open Execution (getElem?_append_cases getElem?_append_of_some getElem?_set_cases getElem?_set_slot)
open Execution.Exchange (Answered)
open Rtc (SessionDescription)

/-! ## What sessions have received -/

/-- A session received a message as the answer to a request of its own. -/
def Received (log : Log) (system : Freddie) (party : Party) (post : Post) : Prop :=
  ∃ request message asked, Answered (serverLog log) request message ∧
    system.server.posts[request]? = some asked ∧ asked.owner = party ∧
    system.server.posts[message]? = some post

/-- A peer-proxy session has read an Offer from a message. -/
def ReadOffer (codecs : Codecs) (log : Log) (system : Freddie) (peer : Nat)
    (message : SignalMessage) (offer : PeerProxy.OfferMessage) : Prop :=
  ∃ post, Received log system (.peer peer) post ∧ post.body.kind = .offer ∧
    message = signal post ∧ codecs.peer.decodeOffer post.body.payload = .ok offer

/-- A consumer session has read an Answer from a message. -/
def ReadAnswer (codecs : Codecs) (log : Log) (system : Freddie) (consumer : Nat)
    (message : SignalMessage) (answer : SessionDescription) : Prop :=
  ∃ post, Received log system (.consumer consumer) post ∧ post.body.kind = .answer ∧
    message = signal post ∧ codecs.consumer.decodeAnswer post.body.payload = .ok answer

/-- A peer-proxy session has read an Ice message that another session posted. -/
def ReadIce (codecs : Codecs) (log : Log) (system : Freddie) (peer : Nat) (post : Post)
    (ice : PeerProxy.IceMessage) : Prop :=
  Received log system (.peer peer) post ∧ post.body.kind = .ice ∧
    codecs.peer.decodeIce post.body.payload = .ok ice

/-- The configuration of a consumer attempt. -/
def configOf (system : Freddie) (consumer : Nat) : Option Consumer.ConsumerConfig :=
  system.consumers[consumer]?.map Attempt.config

/-- A session has not posted a message of a kind. -/
def Unposted (system : Freddie) (party : Party) (kind : SignalMessageType) : Prop :=
  ∀ post ∈ system.server.posts, post.owner = party → post.body.kind ≠ kind

variable {codecs : Codecs} {log newer : Log} {system following : Freddie}

/-- What only grows in a run. -/
structure Extends (log : Log) (system : Freddie) (newer : Log) (following : Freddie) : Prop where
  posts : ∀ (index : Nat) (post : Post), system.server.posts[index]? = some post →
    following.server.posts[index]? = some post
  answered : ∀ request message, Answered (serverLog log) request message →
    Answered (serverLog newer) request message
  applied : ∀ entry ∈ applied log, entry ∈ applied newer
  described : ∀ entry ∈ described log, entry ∈ described newer
  config : ∀ consumer config, configOf system consumer = some config →
    configOf following consumer = some config

/-- What was received stays received. -/
theorem Received.mono {party : Party} {post : Post} (h : Received log system party post)
    (hextends : Extends log system newer following) : Received newer following party post := by
  obtain ⟨request, message, asked, hanswered, hasked, howner, hpost⟩ := h
  exact ⟨request, message, asked, hextends.answered _ _ hanswered, hextends.posts _ _ hasked,
    howner, hextends.posts _ _ hpost⟩

/-- What was read stays read. -/
theorem ReadOffer.mono {peer : Nat} {message : SignalMessage} {offer : PeerProxy.OfferMessage}
    (h : ReadOffer codecs log system peer message offer)
    (hextends : Extends log system newer following) :
    ReadOffer codecs newer following peer message offer := by
  obtain ⟨post, hreceived, hrest⟩ := h
  exact ⟨post, hreceived.mono hextends, hrest⟩

@[inherit_doc ReadOffer.mono]
theorem ReadAnswer.mono {consumer : Nat} {message : SignalMessage} {answer : SessionDescription}
    (h : ReadAnswer codecs log system consumer message answer)
    (hextends : Extends log system newer following) :
    ReadAnswer codecs newer following consumer message answer := by
  obtain ⟨post, hreceived, hrest⟩ := h
  exact ⟨post, hreceived.mono hextends, hrest⟩

@[inherit_doc ReadOffer.mono]
theorem ReadIce.mono {peer : Nat} {post : Post} {ice : PeerProxy.IceMessage}
    (h : ReadIce codecs log system peer post ice)
    (hextends : Extends log system newer following) :
    ReadIce codecs newer following peer post ice :=
  ⟨h.1.mono hextends, h.2⟩

/-! ## Where messages come from -/

/-- Why a message was posted. -/
inductive Origin (codecs : Codecs) (log : Log) (system : Freddie) (post : Post) : Prop where
  | genesis {peer} (howner : post.owner = .peer peer) (hkind : post.body.kind = .genesis)
      (hsendTo : post.sendTo = "genesis")
  /-- An Offer is sent to a Genesis. -/
  | offer {consumer tag genesis offer} (howner : post.owner = .consumer consumer)
      (hkind : post.body.kind = .offer) (hgenesis : genesis ∈ system.server.posts)
      (hgenesisKind : genesis.body.kind = .genesis) (hsendTo : post.sendTo = genesis.id)
      (hdescribed : (.consumer consumer, offer) ∈ described log)
      (hpayload : codecs.consumer.encodeOffer ⟨offer, tag⟩ = .ok post.body.payload)
  /-- An Answer is sent to the Offer that was applied. -/
  | answer {peer message offer answer} (howner : post.owner = .peer peer)
      (hkind : post.body.kind = .answer) (hread : ReadOffer codecs log system peer message offer)
      (hsendTo : post.sendTo = message.replyTo) (happlied : (.peer peer, offer.sdp) ∈ applied log)
      (hdescribed : (.peer peer, answer) ∈ described log)
      (hpayload : codecs.peer.encodeAnswer answer = .ok post.body.payload)
  /-- An Ice message is sent to the Answer that was applied. -/
  | ice {consumer message answer config candidates} (howner : post.owner = .consumer consumer)
      (hkind : post.body.kind = .ice) (hread : ReadAnswer codecs log system consumer message answer)
      (hsendTo : post.sendTo = message.replyTo)
      (happlied : (.consumer consumer, answer) ∈ applied log)
      (hconfig : configOf system consumer = some config)
      (hpayload : codecs.consumer.encodeIce ⟨candidates, config.consumerSessionId⟩ =
        .ok post.body.payload)

/-- The origin of a message stays the same. -/
theorem Origin.mono {post : Post} (h : Origin codecs log system post)
    (hextends : Extends log system newer following) : Origin codecs newer following post := by
  cases h with
  | genesis howner hkind hsendTo => exact .genesis howner hkind hsendTo
  | offer howner hkind hgenesis hgenesisKind hsendTo hdescribed hpayload =>
      obtain ⟨index, hindex⟩ := List.getElem?_of_mem hgenesis
      exact .offer howner hkind (List.mem_of_getElem? (hextends.posts index _ hindex)) hgenesisKind
        hsendTo (hextends.described _ hdescribed) hpayload
  | answer howner hkind hread hsendTo happlied hdescribed hpayload =>
      exact .answer howner hkind (hread.mono hextends) hsendTo (hextends.applied _ happlied)
        (hextends.described _ hdescribed) hpayload
  | ice howner hkind hread hsendTo happlied hconfig hpayload =>
      exact .ice howner hkind (hread.mono hextends) hsendTo (hextends.applied _ happlied)
        (hextends.config _ _ hconfig) hpayload

/-- What a consumer attempt still uses, and what it has not posted yet. -/
inductive ConsumerView (codecs : Codecs) (log : Log) (system : Freddie) (consumer : Nat) :
    Consumer.Phase → Prop where
  | searching {candidates} (hknown : ∀ message ∈ candidates, ∃ post ∈ system.server.posts,
        post.body.kind = .genesis ∧ message.replyTo = post.id)
      (hoffer : Unposted system (.consumer consumer) .offer)
      (hice : Unposted system (.consumer consumer) .ice) :
      ConsumerView codecs log system consumer (.searching candidates)
  | awaitingAnswer (hice : Unposted system (.consumer consumer) .ice) :
      ConsumerView codecs log system consumer .awaitingAnswer
  | answered {message answer} (hread : ReadAnswer codecs log system consumer message answer)
      (hice : Unposted system (.consumer consumer) .ice) :
      ConsumerView codecs log system consumer (.answered message answer)
  | applied {message answer} (hread : ReadAnswer codecs log system consumer message answer)
      (happlied : (.consumer consumer, answer) ∈ applied log)
      (hice : Unposted system (.consumer consumer) .ice) :
      ConsumerView codecs log system consumer (.applied message)
  | past : ConsumerView codecs log system consumer .past

/-- What a peer-proxy session still uses, and what it has not posted yet. -/
inductive PeerView (codecs : Codecs) (log : Log) (system : Freddie) (peer : Nat) :
    PeerProxy.Phase → Prop where
  | connecting (hgenesis : Unposted system (.peer peer) .genesis)
      (hanswer : Unposted system (.peer peer) .answer) :
      PeerView codecs log system peer .connecting
  | awaitingOffer (hanswer : Unposted system (.peer peer) .answer) :
      PeerView codecs log system peer .awaitingOffer
  | offered {message offer} (hread : ReadOffer codecs log system peer message offer)
      (hanswer : Unposted system (.peer peer) .answer) :
      PeerView codecs log system peer (.offered message offer)
  | answering {message offer} (hread : ReadOffer codecs log system peer message offer)
      (happlied : (.peer peer, offer.sdp) ∈ applied log)
      (hanswer : Unposted system (.peer peer) .answer) :
      PeerView codecs log system peer (.answering message)
  | awaitingIce : PeerView codecs log system peer .awaitingIce
  | identified {post ice} (hread : ReadIce codecs log system peer post ice) :
      PeerView codecs log system peer (.identified ice.consumerSessionId)
  | ended : PeerView codecs log system peer .ended

/-- The view of an attempt stays when it posts nothing new. -/
theorem ConsumerView.mono {consumer : Nat} {phase : Consumer.Phase}
    (h : ConsumerView codecs log system consumer phase)
    (hextends : Extends log system newer following)
    (hposts : ∀ kind, Unposted system (.consumer consumer) kind →
      Unposted following (.consumer consumer) kind) :
    ConsumerView codecs newer following consumer phase := by
  cases h with
  | searching hknown hoffer hice =>
      refine .searching (fun message hmem ↦ ?_) (hposts _ hoffer) (hposts _ hice)
      obtain ⟨post, hpost, hgenesis⟩ := hknown message hmem
      obtain ⟨index, hindex⟩ := List.getElem?_of_mem hpost
      exact ⟨post, List.mem_of_getElem? (hextends.posts index _ hindex), hgenesis⟩
  | awaitingAnswer hice => exact .awaitingAnswer (hposts _ hice)
  | answered hread hice => exact .answered (hread.mono hextends) (hposts _ hice)
  | applied hread happlied hice =>
      exact .applied (hread.mono hextends) (hextends.applied _ happlied) (hposts _ hice)
  | past => exact .past

/-- The view of a peer-proxy session stays when it posts nothing new. -/
theorem PeerView.mono {peer : Nat} {phase : PeerProxy.Phase}
    (h : PeerView codecs log system peer phase) (hextends : Extends log system newer following)
    (hposts : ∀ kind, Unposted system (.peer peer) kind → Unposted following (.peer peer) kind) :
    PeerView codecs newer following peer phase := by
  cases h with
  | connecting hgenesis hanswer => exact .connecting (hposts _ hgenesis) (hposts _ hanswer)
  | awaitingOffer hanswer => exact .awaitingOffer (hposts _ hanswer)
  | offered hread hanswer => exact .offered (hread.mono hextends) (hposts _ hanswer)
  | answering hread happlied hanswer =>
      exact .answering (hread.mono hextends) (hextends.applied _ happlied) (hposts _ hanswer)
  | awaitingIce => exact .awaitingIce
  | identified hread => exact .identified (hread.mono hextends)
  | ended => exact .ended

/-! ## The invariant -/

/-- The session with an index exists. -/
def Joined (system : Freddie) : Party → Prop
  | .consumer index => index < system.consumers.length
  | .peer index => index < system.peers.length

/-- The request that a session waits for. -/
def Waits (system : Freddie) (request : Nat) : Party → Prop
  | .consumer index => ∃ attempt, system.consumers[index]? = some attempt ∧
      attempt.exchange = some request
  | .peer index => ∃ session, system.peers[index]? = some session ∧ session.exchange = some request

/-- Messages, sessions and the log fit together. -/
structure Wired (codecs : Codecs) (log : Log) (system : Freddie) : Prop where
  origin : ∀ post ∈ system.server.posts, Origin codecs log system post
  joined : ∀ post ∈ system.server.posts, Joined system post.owner
  /-- No session posts two messages of one kind. -/
  unique : ∀ (first second : Nat) (one two : Post), system.server.posts[first]? = some one →
    system.server.posts[second]? = some two → one.owner = two.owner →
    one.body.kind = two.body.kind → first = second
  waiting : ∀ party request, Waits system request party →
    ∃ post, system.server.posts[request]? = some post ∧ post.owner = party
  consumers : ∀ index attempt, system.consumers[index]? = some attempt →
    ConsumerView codecs log system index attempt.control.phase
  peers : ∀ index session, system.peers[index]? = some session →
    PeerView codecs log system index session.control.phase
  consumerApplied : ∀ consumer answer, (.consumer consumer, answer) ∈ applied log →
    ∃ message, ReadAnswer codecs log system consumer message answer
  peerApplied : ∀ peer description, (.peer peer, description) ∈ applied log →
    ∃ message offer, ReadOffer codecs log system peer message offer ∧ offer.sdp = description
  dialed : ∀ peer id, (peer, id) ∈ dialed log →
    ∃ post ice, ReadIce codecs log system peer post ice ∧ ice.consumerSessionId = id

/-! ## Steps -/

/-- A session acts: it may post a message, and nothing is forgotten. -/
structure Acts (log : Log) (system : Freddie) (newer : Log) (following : Freddie) (party : Party)
    (post : Option Post) : Prop where
  grows : Extends log system newer following
  posts : following.server.posts = system.server.posts ++ post.toList
  owner : ∀ new, post = some new → new.owner = party

section Acts

variable {party : Party} {post : Option Post}

/-- A message after the step was there before or is the new one. -/
theorem Acts.mem_posts (h : Acts log system newer following party post) {found : Post}
    (hmem : found ∈ following.server.posts) :
    found ∈ system.server.posts ∨ post = some found := by
  rw [h.posts] at hmem
  rcases List.mem_append.mp hmem with hold | hnew
  · exact .inl hold
  · exact .inr (Option.mem_toList.mp hnew)

/-- A kind that a session has not posted stays so, when the session does not post it now. -/
theorem Acts.unposted (h : Acts log system newer following party post) {other : Party}
    {kind : SignalMessageType} (hunposted : Unposted system other kind)
    (hnew : ∀ new, post = some new → other = party → new.body.kind ≠ kind) :
    Unposted following other kind := by
  intro found hmem howner
  rcases h.mem_posts hmem with hold | hposted
  · exact hunposted found hold howner
  · exact hnew found hposted (howner.symm.trans (h.owner found hposted))

/-- A place among the messages is an old one or that of the new message. -/
theorem Acts.getElem_posts (h : Acts log system newer following party post) {index : Nat}
    {found : Post} (hfound : following.server.posts[index]? = some found) :
    system.server.posts[index]? = some found ∨
      (index = system.server.posts.length ∧ post = some found) := by
  rw [h.posts] at hfound
  cases post with
  | none => exact .inl (by simpa using hfound)
  | some new =>
      rcases getElem?_append_cases hfound with ⟨hindex, rfl⟩ | ⟨_, hold⟩
      · exact .inr ⟨hindex, rfl⟩
      · exact .inl hold

/-- No session posts two messages of one kind, when it had not posted the kind of the new one. -/
theorem Acts.unique (h : Acts log system newer following party post)
    (hwired : Wired codecs log system)
    (hnew : ∀ new, post = some new → Unposted system party new.body.kind)
    {first second : Nat} {one two : Post} (hone : following.server.posts[first]? = some one)
    (htwo : following.server.posts[second]? = some two) (howner : one.owner = two.owner)
    (hkind : one.body.kind = two.body.kind) : first = second := by
  rcases h.getElem_posts hone with holdOne | ⟨hfirst, hpostOne⟩
  · rcases h.getElem_posts htwo with holdTwo | ⟨_, hpostTwo⟩
    · exact hwired.unique first second one two holdOne holdTwo howner hkind
    · have hfresh := hnew two hpostTwo one (List.mem_of_getElem? holdOne)
        (howner.trans (h.owner two hpostTwo))
      exact absurd hkind hfresh
  · rcases h.getElem_posts htwo with holdTwo | ⟨hsecond, _⟩
    · have hfresh := hnew one hpostOne two (List.mem_of_getElem? holdTwo)
        (howner.symm.trans (h.owner one hpostOne))
      exact absurd hkind.symm hfresh
    · exact hfirst.trans hsecond.symm

/-- A step keeps everything wired when it does so for the session that acts. -/
theorem Wired.act (h : Wired codecs log system) (hacts : Acts log system newer following party post)
    (hnew : ∀ new, post = some new →
      Origin codecs newer following new ∧ Unposted system party new.body.kind)
    (hjoined : ∀ other, Joined system other → Joined following other)
    (hparty : post.isSome = true → Joined following party)
    (hwaits : ∀ other request, Waits following request other → Waits system request other ∨
      (other = party ∧ post.isSome = true ∧ request = system.server.posts.length))
    (hconsumers : ∀ (index : Nat) (attempt : Attempt),
      following.consumers[index]? = some attempt →
      (.consumer index ≠ party ∧ ∃ old : Attempt, system.consumers[index]? = some old ∧
        old.control = attempt.control) ∨
      ConsumerView codecs newer following index attempt.control.phase)
    (hpeers : ∀ (index : Nat) (session : Session), following.peers[index]? = some session →
      (.peer index ≠ party ∧ ∃ old : Session, system.peers[index]? = some old ∧
        old.control = session.control) ∨
      PeerView codecs newer following index session.control.phase)
    (hconsumerApplied : ∀ consumer answer, (.consumer consumer, answer) ∈ applied newer →
      (.consumer consumer, answer) ∈ applied log ∨
      ∃ message, ReadAnswer codecs log system consumer message answer)
    (hpeerApplied : ∀ peer description, (.peer peer, description) ∈ applied newer →
      (.peer peer, description) ∈ applied log ∨
      ∃ message offer, ReadOffer codecs log system peer message offer ∧ offer.sdp = description)
    (hdialed : ∀ peer id, (peer, id) ∈ Freddie.dialed newer → (peer, id) ∈ Freddie.dialed log ∨
      ∃ post ice, ReadIce codecs log system peer post ice ∧ ice.consumerSessionId = id) :
    Wired codecs newer following where
  origin := by
    intro found hmem
    rcases hacts.mem_posts hmem with hold | hposted
    · exact (h.origin found hold).mono hacts.grows
    · exact (hnew found hposted).1
  joined := by
    intro found hmem
    rcases hacts.mem_posts hmem with hold | hposted
    · exact hjoined _ (h.joined found hold)
    · rw [hacts.owner found hposted]
      exact hparty (by simp [hposted])
  unique := fun first second one two ↦ hacts.unique h fun new hposted ↦ (hnew new hposted).2
  waiting := by
    intro other request hwaiting
    rcases hwaits other request hwaiting with hold | ⟨rfl, hsome, rfl⟩
    · obtain ⟨found, hfound, howner⟩ := h.waiting other request hold
      exact ⟨found, hacts.grows.posts _ _ hfound, howner⟩
    · obtain ⟨new, hposted⟩ := Option.isSome_iff_exists.mp hsome
      refine ⟨new, ?_, hacts.owner new hposted⟩
      rw [hacts.posts, hposted]
      simp
  consumers := by
    intro index attempt hattempt
    rcases hconsumers index attempt hattempt with ⟨hne, old, hold, hcontrol⟩ | hview
    · rw [← hcontrol]
      exact (h.consumers index old hold).mono hacts.grows fun kind hunposted ↦
        hacts.unposted hunposted fun _ _ heq ↦ absurd heq hne
    · exact hview
  peers := by
    intro index session hsession
    rcases hpeers index session hsession with ⟨hne, old, hold, hcontrol⟩ | hview
    · rw [← hcontrol]
      exact (h.peers index old hold).mono hacts.grows fun kind hunposted ↦
        hacts.unposted hunposted fun _ _ heq ↦ absurd heq hne
    · exact hview
  consumerApplied := by
    intro consumer answer hmem
    have hread : ∃ message, ReadAnswer codecs log system consumer message answer :=
      (hconsumerApplied consumer answer hmem).elim (h.consumerApplied consumer answer) id
    exact hread.imp fun _ hread ↦ hread.mono hacts.grows
  peerApplied := by
    intro peer description hmem
    obtain ⟨message, offer, hread, hsdp⟩ :=
      (hpeerApplied peer description hmem).elim (h.peerApplied peer description) id
    exact ⟨message, offer, hread.mono hacts.grows, hsdp⟩
  dialed := by
    intro peer id hmem
    obtain ⟨found, ice, hread, hid⟩ :=
      (hdialed peer id hmem).elim (h.dialed peer id) fun hread ↦ hread
    exact ⟨found, ice, hread.mono hacts.grows, hid⟩

end Acts

/-- The view of a consumer attempt after a step of its own. -/
theorem ConsumerView.move {index : Nat} {config : Consumer.ConsumerConfig}
    {control moved : Consumer.Control} {input : Consumer.Input} {effect : Consumer.Effect}
    {fresh : String} (h : ConsumerView codecs log system index control.phase)
    (hmove : Consumer.Move codecs.consumer config control input effect moved)
    (hacts : Acts log system newer following (.consumer index) (consumerPost index fresh effect))
    (hreply : ∀ message, consumerReply input = some message → ∃ post,
      Received newer following (.consumer index) post ∧ message = signal post)
    (hadvertised : ∀ message, consumerAdvertised input = some message →
      ∃ post ∈ system.server.posts, post.body.kind = .genesis ∧ message = signal post)
    (happlies : ∀ answer, consumerApplies control input = some answer →
      (.consumer index, answer) ∈ Freddie.applied newer) :
    ConsumerView codecs newer following index moved.phase := by
  have hquiet : consumerPost index fresh effect = none → ∀ kind,
      Unposted system (.consumer index) kind → Unposted following (.consumer index) kind :=
    fun hnone kind hunposted ↦ hacts.unposted hunposted (by simp [hnone])
  cases hmove with
  | search hcontrol hmoved hkept =>
      rw [hcontrol] at h
      rw [hmoved]
      cases h with
      | searching hknown hoffer hice =>
          refine ConsumerView.mono (.searching ?_ hoffer hice) hacts.grows (hquiet rfl)
          exact fun message hmem ↦ hknown message (hkept message hmem)
  | advertise hcontrol hmoved hkept =>
      rw [hcontrol] at h
      rw [hmoved]
      cases h with
      | searching hknown hoffer hice =>
          refine ConsumerView.mono (.searching ?_ hoffer hice) hacts.grows (hquiet rfl)
          intro message hmem
          rcases hkept message hmem with hold | ⟨rfl, _⟩
          · exact hknown message hold
          · obtain ⟨post, hpost, hkind, rfl⟩ := hadvertised message rfl
            exact ⟨post, hpost, hkind, rfl⟩
  | offer hpayload =>
      cases h with
      | searching hknown hoffer hice =>
          refine .awaitingAnswer (hacts.unposted hice ?_)
          rintro new ⟨rfl⟩ _
          simp
  | @answer offer message answer hkind hdecode =>
      cases h with
      | awaitingAnswer hice =>
          obtain ⟨post, hreceived, rfl⟩ := hreply message rfl
          exact .answered ⟨post, hreceived, hkind, rfl, hdecode⟩ (hquiet rfl _ hice)
  | prepare hcontrol hmoved =>
      rw [hcontrol] at h
      rw [hmoved]
      exact h.mono hacts.grows (hquiet rfl)
  | apply =>
      cases h with
      | answered hread hice =>
          exact .applied (hread.mono hacts.grows) (happlies _ rfl) (hquiet rfl _ hice)
  | ice => exact .past
  | past hmoved =>
      rw [hmoved]
      exact .past

/-- What a consumer attempt posts, it posts for the first time and with a reason. -/
theorem ConsumerView.post {index : Nat} {config : Consumer.ConsumerConfig}
    {control moved : Consumer.Control} {input : Consumer.Input} {effect : Consumer.Effect}
    {fresh : String} {new : Post} (h : ConsumerView codecs log system index control.phase)
    (hmove : Consumer.Move codecs.consumer config control input effect moved)
    (hgrows : Extends log system newer following)
    (hdescribes : ∀ offer, consumerDescribes input = some offer →
      (.consumer index, offer) ∈ described newer)
    (hconfig : configOf system index = some config)
    (hpost : consumerPost index fresh effect = some new) :
    Origin codecs newer following new ∧ Unposted system (.consumer index) new.body.kind := by
  cases hmove with
  | @offer genesis offer payload hpayload =>
      cases h with
      | searching hknown hoffer hice =>
          obtain rfl := Option.some.inj hpost
          obtain ⟨known, hmem, hkind, hid⟩ := hknown genesis (by simp)
          obtain ⟨place, hplace⟩ := List.getElem?_of_mem hmem
          exact ⟨.offer rfl rfl (List.mem_of_getElem? (hgrows.posts place _ hplace)) hkind hid
            (hdescribes offer rfl) hpayload, hoffer⟩
  | ice hpayload =>
      cases h with
      | applied hread happlied hice =>
          obtain rfl := Option.some.inj hpost
          exact ⟨.ice rfl rfl (hread.mono hgrows) rfl (hgrows.applied _ happlied)
            (hgrows.config _ _ hconfig) hpayload, hice⟩
  | _ => simp [consumerPost] at hpost

/-- What a consumer attempt applies is an Answer that it has read. -/
theorem ConsumerView.applies {index : Nat} {control : Consumer.Control} {input : Consumer.Input}
    {answer : SessionDescription} (h : ConsumerView codecs log system index control.phase)
    (happlies : consumerApplies control input = some answer) :
    ∃ message, ReadAnswer codecs log system index message answer := by
  unfold consumerApplies at happlies
  split at happlies
  · next message _ =>
    obtain rfl := Option.some.inj happlies
    cases h with
    | answered hread => exact ⟨message, hread⟩
  · simp at happlies

/-- The view of a peer-proxy session after a step of its own. -/
theorem PeerView.move {index : Nat} {control moved : PeerProxy.Control} {input : PeerProxy.Input}
    {effect : PeerProxy.Effect} {fresh : String}
    (h : PeerView codecs log system index control.phase)
    (hmove : PeerProxy.Move codecs.peer control input effect moved)
    (hacts : Acts log system newer following (.peer index) (peerPost index fresh effect))
    (hreply : ∀ message, peerReply input = some message → ∃ post,
      Received newer following (.peer index) post ∧ message = signal post)
    (happlies : ∀ description, peerApplies control input = some description →
      (.peer index, description) ∈ Freddie.applied newer) :
    PeerView codecs newer following index moved.phase := by
  have hquiet : peerPost index fresh effect = none → ∀ kind,
      Unposted system (.peer index) kind → Unposted following (.peer index) kind :=
    fun hnone kind hunposted ↦ hacts.unposted hunposted (by simp [hnone])
  cases hmove with
  | advertise hpayload =>
      cases h with
      | connecting hgenesis hanswer =>
          refine .awaitingOffer (hacts.unposted hanswer ?_)
          rintro new ⟨rfl⟩ _
          simp
  | @offer message offer hread =>
      cases h with
      | awaitingOffer hanswer =>
          obtain ⟨hkind, hdecode⟩ := PeerProxy.readSignal_ok hread
          obtain ⟨post, hreceived, rfl⟩ := hreply message rfl
          exact .offered ⟨post, hreceived, hkind, rfl, hdecode⟩ (hquiet rfl _ hanswer)
  | apply =>
      cases h with
      | offered hread hanswer =>
          exact .answering (hread.mono hacts.grows) (happlies _ rfl) (hquiet rfl _ hanswer)
  | prepare hcontrol hmoved =>
      rw [hcontrol] at h
      rw [hmoved]
      exact h.mono hacts.grows (hquiet rfl)
  | answer => exact .awaitingIce
  | @publish message ice hread hcheck =>
      obtain ⟨hkind, hdecode⟩ := PeerProxy.readSignal_ok hread
      obtain ⟨post, hreceived, rfl⟩ := hreply message rfl
      rw [PeerProxy.Control.withCandidates_phase]
      exact .identified ⟨hreceived, hkind, hdecode⟩
  | proceed hcontrol hmoved =>
      rw [hcontrol] at h
      rw [hmoved]
      exact h.mono hacts.grows (hquiet rfl)
  | dial => exact h.mono hacts.grows (hquiet rfl)
  | fail hmoved =>
      rw [hmoved]
      exact .ended

/-- What a peer-proxy session posts, it posts for the first time and with a reason. -/
theorem PeerView.post {index : Nat} {control moved : PeerProxy.Control} {input : PeerProxy.Input}
    {effect : PeerProxy.Effect} {fresh : String} {new : Post}
    (h : PeerView codecs log system index control.phase)
    (hmove : PeerProxy.Move codecs.peer control input effect moved)
    (hgrows : Extends log system newer following)
    (hdescribes : ∀ description, peerDescribes input = some description →
      (.peer index, description) ∈ described newer)
    (hpost : peerPost index fresh effect = some new) :
    Origin codecs newer following new ∧ Unposted system (.peer index) new.body.kind := by
  cases hmove with
  | advertise hpayload =>
      cases h with
      | connecting hgenesis hanswer =>
          obtain rfl := Option.some.inj hpost
          exact ⟨.genesis rfl rfl rfl, hgenesis⟩
  | answer hpayload =>
      cases h with
      | answering hread happlied hanswer =>
          obtain rfl := Option.some.inj hpost
          exact ⟨.answer rfl rfl (hread.mono hgrows) rfl (hgrows.applied _ happlied)
            (hdescribes _ rfl) hpayload, hanswer⟩
  | _ => simp [peerPost] at hpost

/-- What a peer-proxy session applies is an Offer that it has read. -/
theorem PeerView.applies {index : Nat} {control : PeerProxy.Control} {input : PeerProxy.Input}
    {description : SessionDescription} (h : PeerView codecs log system index control.phase)
    (happlies : peerApplies control input = some description) :
    ∃ message offer, ReadOffer codecs log system index message offer ∧
      offer.sdp = description := by
  unfold peerApplies at happlies
  split at happlies
  · next message offer =>
    obtain rfl := Option.some.inj happlies
    cases h with
    | offered hread => exact ⟨message, offer, hread, rfl⟩
  · simp at happlies

/-- A peer-proxy session dials with the ID of an Ice message that it has read. -/
theorem PeerView.dials {index : Nat} {control moved : PeerProxy.Control} {input : PeerProxy.Input}
    {effect : PeerProxy.Effect} {id : String} (h : PeerView codecs log system index control.phase)
    (hmove : PeerProxy.Move codecs.peer control input effect moved)
    (hdials : Freddie.dials effect = some id) :
    ∃ post ice, ReadIce codecs log system index post ice ∧ ice.consumerSessionId = id := by
  cases hmove with
  | dial =>
      obtain rfl := Option.some.inj hdials
      generalize hphase : (PeerProxy.Control.awaitingChannel _).phase = phase at h
      cases h with
      | @identified post ice hread =>
          simp only [PeerProxy.Control.phase, PeerProxy.Phase.identified.injEq] at hphase
          exact ⟨post, ice, hread, hphase.symm⟩
      | _ => simp [PeerProxy.Control.phase] at hphase
  | _ => simp [Freddie.dials] at hdials

/-- A step forgets nothing. -/
theorem acts_of_performed {op : Op} {out : Out} {party : Party} {reply : Option (Nat × Nat)}
    {post : Option Post}
    (hperformed : Performed system.server reply post out.performed following.server)
    (howner : ∀ new, post = some new → new.owner = party)
    (hconfig : ∀ consumer config, configOf system consumer = some config →
      configOf following consumer = some config) :
    Acts log system ((op, out) :: log) following party post where
  grows :=
    { posts := by
        intro index found hfound
        rw [hperformed.posts, List.getElem?_append_left (List.getElem?_eq_some_iff.mp hfound).1,
          hfound]
      answered := fun _ _ hanswered ↦ List.mem_append_right _ hanswered
      applied := fun _ hmem ↦ applied_cons ▸ List.mem_append_right _ hmem
      described := fun _ hmem ↦ described_cons ▸ List.mem_append_right _ hmem
      config := hconfig }
  posts := hperformed.posts
  owner := howner

/-- A message that is delivered to a session has been received by it. -/
theorem received_of_delivers {op : Op} {out : Out} {party : Party} {exchange : Option Nat}
    {reply : Option (Nat × Nat)} {post : Option Post} {message : Option SignalMessage}
    (h : Wired codecs log system)
    (hacts : Acts log system ((op, out) :: log) following party post)
    (hperformed : Performed system.server reply post out.performed following.server)
    (hdelivers : Delivers system exchange reply message)
    (hwaits : ∀ request, exchange = some request → Waits system request party)
    {received : SignalMessage} (hmessage : message = some received) :
    ∃ found, Received ((op, out) :: log) following party found ∧ received = signal found := by
  obtain ⟨request, index, found, hreply, hfound, hsignal⟩ := hdelivers.source received hmessage
  obtain ⟨asked, hasked, howner⟩ :=
    h.waiting party request (hwaits request (hdelivers.waiting request index hreply))
  have hanswered : Answered (serverLog ((op, out) :: log)) request index :=
    List.mem_append_left _ ((hperformed.answered request index).mpr hreply)
  exact ⟨found, ⟨request, index, asked, hanswered, hacts.grows.posts _ _ hasked, howner,
    hacts.grows.posts _ _ hfound⟩, hsignal⟩

/-- A consumer session posts for itself. -/
theorem owner_of_consumerPost {index : Nat} {fresh : String} {effect : Consumer.Effect}
    {new : Post} (h : consumerPost index fresh effect = some new) :
    new.owner = .consumer index := by
  cases effect with
  | none => simp [consumerPost] at h
  | post =>
      obtain rfl := Option.some.inj h
      rfl

/-- A peer-proxy session posts for itself. -/
theorem owner_of_peerPost {index : Nat} {fresh : String} {effect : PeerProxy.Effect} {new : Post}
    (h : peerPost index fresh effect = some new) : new.owner = .peer index := by
  cases effect with
  | post =>
      obtain rfl := Option.some.inj h
      rfl
  | _ => simp [peerPost] at h

/-- A step of a consumer session keeps everything wired. -/
theorem Wired.consumer {op : Op} {index : Nat} {attempt : Attempt} {input : Consumer.Input}
    {reply : Option (Nat × Nat)} {fresh : String} {effect : Consumer.Effect}
    {control : Consumer.Control} {performed : ServerLog}
    {server : Execution.Exchange.Server Party Body} (h : Wired codecs log system)
    (hattempt : system.consumers[index]? = some attempt)
    (hmove : Consumer.Move codecs.consumer attempt.config attempt.control input effect control)
    (hperformed : Performed system.server reply (consumerPost index fresh effect) performed server)
    (hdelivers : Delivers system attempt.exchange reply (consumerReply input))
    (hadvertised : ∀ message, consumerAdvertised input = some message →
      ∃ post ∈ system.server.posts, post.body.kind = .genesis ∧ message = signal post) :
    Wired codecs ((op, consumerOut index attempt input performed) :: log)
      (system.moveConsumer index attempt control (consumerPost index fresh effect) server) := by
  have hview := h.consumers index attempt hattempt
  have hslot := getElem?_set_slot hattempt
    ⟨attempt.config, control,
      (consumerPost index fresh effect).map fun _ ↦ system.server.posts.length⟩
  have hconfig : configOf system index = some attempt.config := by
    simp [configOf, hattempt]
  have hconfigs : ∀ other config, configOf system other = some config →
      configOf (system.moveConsumer index attempt control (consumerPost index fresh effect) server)
        other = some config := by
    intro other config hother
    rw [configOf, moveConsumer, hslot]
    split
    case isTrue heq =>
      subst heq
      exact hconfig.symm.trans hother
    case isFalse => exact hother
  have hacts : Acts log system ((op, consumerOut index attempt input performed) :: log)
      (system.moveConsumer index attempt control (consumerPost index fresh effect) server)
      (.consumer index) (consumerPost index fresh effect) :=
    acts_of_performed hperformed (fun _ ↦ owner_of_consumerPost) hconfigs
  have hlength : (system.moveConsumer index attempt control (consumerPost index fresh effect)
      server).consumers.length = system.consumers.length := List.length_set
  refine h.act hacts ?_ ?_ ?_ ?_ ?_ ?_ ?_ ?_ ?_
  · intro new hnew
    refine hview.post hmove hacts.grows (fun offer hoffer ↦ ?_) hconfig hnew
    rw [described_cons, consumerOut, hoffer]
    exact List.mem_append_left _ (by simp)
  · intro other hjoined
    cases other with
    | consumer other => exact Nat.lt_of_lt_of_eq hjoined hlength.symm
    | peer other => exact hjoined
  · intro _
    exact Nat.lt_of_lt_of_eq (List.getElem?_eq_some_iff.mp hattempt).1 hlength.symm
  · intro other request hwaits
    cases other with
    | peer other => exact .inl hwaits
    | consumer other =>
        obtain ⟨waiting, hwaiting, hexchange⟩ := hwaits
        rcases getElem?_set_cases hwaiting with ⟨rfl, rfl⟩ | ⟨_, hold⟩
        · obtain ⟨new, hnew, rfl⟩ := Option.map_eq_some_iff.mp hexchange
          exact .inr ⟨rfl, by simp [hnew], rfl⟩
        · exact .inl ⟨waiting, hold, hexchange⟩
  · intro other found hfound
    rcases getElem?_set_cases hfound with ⟨rfl, rfl⟩ | ⟨hne, hold⟩
    · refine .inr (hview.move hmove hacts ?_ hadvertised ?_)
      · intro message hmessage
        exact received_of_delivers h hacts hperformed hdelivers
          (fun request hrequest ↦ ⟨attempt, hattempt, hrequest⟩) hmessage
      · intro answer hanswer
        rw [applied_cons, consumerOut, hanswer]
        exact List.mem_append_left _ (by simp)
    · exact .inl ⟨fun heq ↦ hne (Party.consumer.inj heq).symm, found, hold, rfl⟩
  · intro other session hsession
    exact .inl ⟨by simp, session, hsession, rfl⟩
  · intro other answer hmem
    rw [applied_cons, consumerOut] at hmem
    rcases List.mem_append.mp hmem with hnew | hold
    · simp only [Option.mem_toList, Option.map_eq_some_iff, Prod.mk.injEq,
        Party.consumer.injEq] at hnew
      obtain ⟨description, happlies, rfl, rfl⟩ := hnew
      exact .inr (hview.applies happlies)
    · exact .inl hold
  · intro peer description hmem
    rw [applied_cons, consumerOut] at hmem
    rcases List.mem_append.mp hmem with hnew | hold
    · simp at hnew
    · exact .inl hold
  · intro peer id hmem
    rw [dialed_cons] at hmem
    exact .inl hmem

/-- A step of a peer-proxy session keeps everything wired. -/
theorem Wired.peer {op : Op} {index : Nat} {session : Session} {input : PeerProxy.Input}
    {reply : Option (Nat × Nat)} {fresh : String} {effect : PeerProxy.Effect}
    {control : PeerProxy.Control} {performed : ServerLog}
    {server : Execution.Exchange.Server Party Body} (h : Wired codecs log system)
    (hsession : system.peers[index]? = some session)
    (hmove : PeerProxy.Move codecs.peer session.control input effect control)
    (hperformed : Performed system.server reply (peerPost index fresh effect) performed server)
    (hdelivers : Delivers system session.exchange reply (peerReply input)) :
    Wired codecs ((op, peerOut index session input effect performed) :: log)
      (system.movePeer index control (peerPost index fresh effect) server) := by
  have hview := h.peers index session hsession
  have hacts : Acts log system ((op, peerOut index session input effect performed) :: log)
      (system.movePeer index control (peerPost index fresh effect) server)
      (.peer index) (peerPost index fresh effect) :=
    acts_of_performed hperformed (fun _ ↦ owner_of_peerPost) fun _ _ hconfig ↦ hconfig
  have hlength : (system.movePeer index control (peerPost index fresh effect)
      server).peers.length = system.peers.length := List.length_set
  refine h.act hacts ?_ ?_ ?_ ?_ ?_ ?_ ?_ ?_ ?_
  · intro new hnew
    refine hview.post hmove hacts.grows (fun description hdescribes ↦ ?_) hnew
    rw [described_cons, peerOut, hdescribes]
    exact List.mem_append_left _ (by simp)
  · intro other hjoined
    cases other with
    | consumer other => exact hjoined
    | peer other => exact Nat.lt_of_lt_of_eq hjoined hlength.symm
  · intro _
    exact Nat.lt_of_lt_of_eq (List.getElem?_eq_some_iff.mp hsession).1 hlength.symm
  · intro other request hwaits
    cases other with
    | consumer other => exact .inl hwaits
    | peer other =>
        obtain ⟨waiting, hwaiting, hexchange⟩ := hwaits
        rcases getElem?_set_cases hwaiting with ⟨rfl, rfl⟩ | ⟨_, hold⟩
        · obtain ⟨new, hnew, rfl⟩ := Option.map_eq_some_iff.mp hexchange
          exact .inr ⟨rfl, by simp [hnew], rfl⟩
        · exact .inl ⟨waiting, hold, hexchange⟩
  · intro other attempt hattempt
    exact .inl ⟨by simp, attempt, hattempt, rfl⟩
  · intro other found hfound
    rcases getElem?_set_cases hfound with ⟨rfl, rfl⟩ | ⟨hne, hold⟩
    · refine .inr (hview.move hmove hacts ?_ ?_)
      · intro message hmessage
        exact received_of_delivers h hacts hperformed hdelivers
          (fun request hrequest ↦ ⟨session, hsession, hrequest⟩) hmessage
      · intro description hdescription
        rw [applied_cons, peerOut, hdescription]
        exact List.mem_append_left _ (by simp)
    · exact .inl ⟨fun heq ↦ hne (Party.peer.inj heq).symm, found, hold, rfl⟩
  · intro consumer answer hmem
    rw [applied_cons, peerOut] at hmem
    rcases List.mem_append.mp hmem with hnew | hold
    · simp at hnew
    · exact .inl hold
  · intro other description hmem
    rw [applied_cons, peerOut] at hmem
    rcases List.mem_append.mp hmem with hnew | hold
    · simp only [Option.mem_toList, Option.map_eq_some_iff, Prod.mk.injEq,
        Party.peer.injEq] at hnew
      obtain ⟨found, happlies, rfl, rfl⟩ := hnew
      exact .inr (hview.applies happlies)
    · exact .inl hold
  · intro other id hmem
    rw [dialed_cons, peerOut] at hmem
    rcases List.mem_append.mp hmem with hnew | hold
    · simp only [Option.mem_toList, Option.map_eq_some_iff, Prod.mk.injEq] at hnew
      obtain ⟨found, hdials, rfl, rfl⟩ := hnew
      exact .inr (hview.dials hmove hdials)
    · exact .inl hold

/-- A session that nobody has heard of has posted nothing. -/
theorem Wired.unposted_new (h : Wired codecs log system) {party : Party}
    (hnew : ¬ Joined system party) (kind : SignalMessageType) : Unposted system party kind := by
  intro post hmem howner
  exact absurd (howner ▸ h.joined post hmem) hnew

/-- Everything stays wired when a session arrives. -/
theorem Wired.join {op : Op} (party : Party) (h : Wired codecs log system)
    (hnew : ¬ Joined system party) (hserver : following.server = system.server)
    (hconfig : ∀ consumer config, configOf system consumer = some config →
      configOf following consumer = some config)
    (hjoined : ∀ other, Joined system other → Joined following other)
    (hconsumers : ∀ (index : Nat) (attempt : Attempt),
      following.consumers[index]? = some attempt → system.consumers[index]? = some attempt ∨
      (.consumer index = party ∧ attempt.control = .connecting ∧ attempt.exchange = none))
    (hpeers : ∀ (index : Nat) (session : Session), following.peers[index]? = some session →
      system.peers[index]? = some session ∨
      (.peer index = party ∧ session.control = .connecting ∧ session.exchange = none)) :
    Wired codecs ((op, .quiet) :: log) following := by
  have hperformed : Performed system.server none none Out.quiet.performed following.server :=
    ⟨hserver ▸ .refl, by simp [hserver], by simp [Out.quiet, Answered]⟩
  have hacts : Acts log system ((op, .quiet) :: log) following party none :=
    acts_of_performed hperformed (by simp) hconfig
  have hunposted : ∀ kind, Unposted following party kind := fun kind ↦
    hacts.unposted (h.unposted_new hnew kind) (by simp)
  refine h.act hacts (by simp) hjoined (by simp) ?_ ?_ ?_ ?_ ?_ ?_
  · intro other request hwaits
    cases other with
    | consumer index =>
        obtain ⟨attempt, hattempt, hexchange⟩ := hwaits
        rcases hconsumers index attempt hattempt with hold | ⟨_, _, hnone⟩
        · exact .inl ⟨attempt, hold, hexchange⟩
        · simp [hnone] at hexchange
    | peer index =>
        obtain ⟨session, hsession, hexchange⟩ := hwaits
        rcases hpeers index session hsession with hold | ⟨_, _, hnone⟩
        · exact .inl ⟨session, hold, hexchange⟩
        · simp [hnone] at hexchange
  · intro index attempt hattempt
    rcases hconsumers index attempt hattempt with hold | ⟨rfl, hcontrol, _⟩
    · refine .inl ⟨fun heq ↦ hnew ?_, attempt, hold, rfl⟩
      exact heq ▸ (List.getElem?_eq_some_iff.mp hold).1
    · rw [hcontrol]
      exact .inr (.searching (by simp) (hunposted _) (hunposted _))
  · intro index session hsession
    rcases hpeers index session hsession with hold | ⟨rfl, hcontrol, _⟩
    · refine .inl ⟨fun heq ↦ hnew ?_, session, hold, rfl⟩
      exact heq ▸ (List.getElem?_eq_some_iff.mp hold).1
    · rw [hcontrol]
      exact .inr (.connecting (hunposted _) (hunposted _))
  · exact fun _ _ hmem ↦ .inl hmem
  · exact fun _ _ hmem ↦ .inl hmem
  · exact fun _ _ hmem ↦ .inl hmem

/-- Nothing is posted and nobody has arrived at the start. -/
theorem Wired.new : Wired codecs [] .new where
  origin := by simp [Freddie.new, Execution.Exchange.Server.new]
  joined := by simp [Freddie.new, Execution.Exchange.Server.new]
  unique := by simp [Freddie.new, Execution.Exchange.Server.new]
  waiting := by
    intro party request hwaits
    cases party <;> simp [Waits, Freddie.new] at hwaits
  consumers := by simp [Freddie.new]
  peers := by simp [Freddie.new]
  consumerApplied := by simp [applied]
  peerApplied := by simp [applied]
  dialed := by simp [Freddie.dialed]

/-- Every step keeps everything wired. -/
theorem Wired.step {op : Op} {out : Out} (h : Wired codecs log system)
    (hchange : Change codecs system out following) :
    Wired codecs ((op, out) :: log) following := by
  cases hchange with
  | @joinConsumer config =>
      refine h.join (.consumer system.consumers.length) (by simp [Joined]) rfl ?_ ?_ ?_ ?_
      · intro consumer found hfound
        obtain ⟨attempt, hattempt, rfl⟩ := Option.map_eq_some_iff.mp hfound
        exact congrArg (Option.map Attempt.config) (getElem?_append_of_some hattempt _)
      · intro other hother
        cases other with
        | consumer index =>
            simp only [Joined, List.length_append, List.length_singleton] at hother ⊢
            omega
        | peer index => exact hother
      · intro index attempt hattempt
        rcases getElem?_append_cases hattempt with ⟨rfl, rfl⟩ | ⟨_, hold⟩
        · exact .inr ⟨rfl, rfl, rfl⟩
        · exact .inl hold
      · exact fun _ _ hsession ↦ .inl hsession
  | joinPeer =>
      refine h.join (.peer system.peers.length) (by simp [Joined]) rfl
        (fun _ _ hconfig ↦ hconfig) ?_ ?_ ?_
      · intro other hother
        cases other with
        | consumer index => exact hother
        | peer index =>
            simp only [Joined, List.length_append, List.length_singleton] at hother ⊢
            omega
      · exact fun _ _ hattempt ↦ .inl hattempt
      · intro index session hsession
        rcases getElem?_append_cases hsession with ⟨rfl, rfl⟩ | ⟨_, hold⟩
        · exact .inr ⟨rfl, rfl, rfl⟩
        · exact .inl hold
  | consumer hattempt hmove hperformed hdelivers hadvertised =>
      exact h.consumer hattempt hmove hperformed hdelivers hadvertised
  | peer hsession hmove hperformed hdelivers =>
      exact h.peer hsession hmove hperformed hdelivers

/-- Everything is wired in every run. -/
theorem Exec.wired (h : Exec codecs .new log system) : Wired codecs log system := by
  induction h with
  | refl => exact .new
  | snoc _ hnext ih => exact ih.step (change_of_next hnext)

/-- The server has run from its beginning. -/
theorem Exec.server (h : Exec codecs .new log system) :
    Execution.Exchange.Exec "genesis" .new (serverLog log) system.server := by
  induction h with
  | refl => exact .refl
  | snoc _ hnext ih =>
      cases change_of_next hnext with
      | joinConsumer => exact ih
      | joinPeer => exact ih
      | consumer _ _ hperformed => exact ih.trans hperformed.exec
      | peer _ _ hperformed => exact ih.trans hperformed.exec

end Unbounded.Signaling.Freddie
