import Unbounded.Consumer.Moves
import Unbounded.Execution.Exchange
import Unbounded.PeerProxy.Session

/-!
# Consumers and peer proxies that share a signaling server

Any number of `run_consumer_session` and `run_peer_proxy_until_cancelled` runs that use one Freddie.
Freddie is a server of requests and replies: every `exchange` posts a message under a fresh request
ID, and may return a message that was sent to that ID. Genesis messages are also seen on the
advertisement streams of the consumers, any number of times. An exchange may as well fail or return
nothing, and a session may be cancelled or dropped while it waits: it is then gone from its
exchange, and nothing reaches it.
-/

namespace Unbounded.Signaling

open Execution (Next Exchange.Server Exchange.Answered)
open Rtc (SessionDescription)

/-- A run of `run_consumer_session` or of `run_peer_proxy_until_cancelled`. -/
inductive Party where
  | consumer (index : Nat)
  | peer (index : Nat)
  deriving DecidableEq, Repr

/-- A message without its addresses. -/
structure Body where
  kind : SignalMessageType
  payload : String
  deriving DecidableEq, Repr

/-- A message that a session has posted. -/
abbrev Post := Execution.Exchange.Post Party Body

/-- What the server does. -/
abbrev ServerOp := Execution.Exchange.Op Party Body

/-- A log of the server. -/
abbrev ServerLog := Execution.Log ServerOp Unit

/-- The message as its receiver gets it: it can be replied to under the request ID of its poster. -/
def signal (post : Post) : SignalMessage :=
  ⟨post.id, post.body.kind, post.body.payload⟩

/-- A run of `run_consumer_session`. -/
structure Attempt where
  config : Consumer.ConsumerConfig
  control : Consumer.Control
  /-- The request of the exchange that the session awaits. -/
  exchange : Option Nat

/-- A run of `run_peer_proxy_until_cancelled`. -/
structure Session where
  control : PeerProxy.Control
  exchange : Option Nat

/-- The codecs of the two sides. -/
structure Codecs where
  consumer : Consumer.Codec
  peer : PeerProxy.Codec

/-- What one side encodes and the other side decodes is the same, as far as the pairing goes. -/
structure Codecs.Compatible (codecs : Codecs) : Prop where
  offer : ∀ message payload decoded, codecs.consumer.encodeOffer message = .ok payload →
    codecs.peer.decodeOffer payload = .ok decoded → decoded.sdp = message.sdp
  answer : ∀ description payload decoded, codecs.peer.encodeAnswer description = .ok payload →
    codecs.consumer.decodeAnswer payload = .ok decoded → decoded = description
  ice : ∀ message payload decoded, codecs.consumer.encodeIce message = .ok payload →
    codecs.peer.decodeIce payload = .ok decoded →
    decoded.consumerSessionId = message.consumerSessionId

/-- The server and the runs that use it. -/
structure Freddie where
  server : Exchange.Server Party Body
  consumers : List Attempt
  peers : List Session

namespace Freddie

/-- Nobody has used the server yet. -/
def new : Freddie :=
  ⟨.new, [], []⟩

/-- What can happen. A step that posts a message uses `fresh` as its request ID. -/
inductive Op where
  | joinConsumer (config : Consumer.ConsumerConfig)
  | joinPeer
  /-- A consumer session goes on with what it awaited, other than a message. -/
  | consumer (index : Nat) (input : Consumer.Input) (fresh : String)
  /-- A peer-proxy session goes on with what it awaited, other than a message. -/
  | peer (index : Nat) (input : PeerProxy.Input) (fresh : String)
  /-- A consumer session sees a message on its advertisement stream. -/
  | advertise (index message : Nat) (fresh : String)
  /-- The exchange of a session returns a message. -/
  | answer (party : Party) (message : Nat) (fresh : String)

/-- What a step does: the server operations, the descriptions that a session has set as its remote
one or has made as its local one, and the session ID that the egress is dialed with. -/
structure Out where
  performed : ServerLog
  applied : Option (Party × SessionDescription)
  described : Option (Party × SessionDescription)
  dialed : Option (Nat × String)

/-- A step that does nothing to the outside. -/
def Out.quiet : Out :=
  ⟨[], none, none, none⟩

/-- The description that a step of a consumer session has set as the remote one. -/
def consumerApplies : Consumer.Control → Consumer.Input → Option SessionDescription
  | .settingRemote _ answer, .remoteSet (.ok ()) => some answer
  | _, _ => none

/-- The description that a step of a peer-proxy session has set as the remote one. -/
def peerApplies : PeerProxy.Control → PeerProxy.Input → Option SessionDescription
  | .settingRemote _ offer, .remoteSet (.ok ()) => some offer.sdp
  | _, _ => none

/-- The description that a consumer session offers. -/
def consumerDescribes : Consumer.Input → Option SessionDescription
  | .offerCreated (.ok offer) => some offer
  | _ => none

/-- The description that a peer-proxy session answers with. -/
def peerDescribes : PeerProxy.Input → Option SessionDescription
  | .described description => description
  | _ => none

/-- The session ID that a peer-proxy session dials with. -/
def dials : PeerProxy.Effect → Option String
  | .dial id => some id
  | _ => none

/-- The message that a consumer session posts. -/
def consumerPost (index : Nat) (fresh : String) : Consumer.Effect → Option Post
  | .post sendTo kind payload => some ⟨fresh, .consumer index, sendTo, ⟨kind, payload⟩⟩
  | .none => none

/-- The message that a peer-proxy session posts. -/
def peerPost (index : Nat) (fresh : String) : PeerProxy.Effect → Option Post
  | .post sendTo kind payload => some ⟨fresh, .peer index, sendTo, ⟨kind, payload⟩⟩
  | _ => none

/-- The operations of the server in a step: a request is answered, and a message is posted. -/
def serverOps (reply : Option (Nat × Nat)) (post : Option Post) : List ServerOp :=
  (reply.map fun (request, message) ↦ .answer request message).toList ++ (post.map .post).toList

/-- The server performs its part of a step. `genesis` is no request ID. -/
def perform (server : Exchange.Server Party Body) (reply : Option (Nat × Nat))
    (post : Option Post) : Option (ServerLog × Exchange.Server Party Body) :=
  Execution.run (Execution.Exchange.next "genesis") (serverOps reply post) ([], server)

/-- What a step of a consumer session does. -/
def consumerOut (index : Nat) (attempt : Attempt) (input : Consumer.Input)
    (performed : ServerLog) : Out where
  performed := performed
  applied := (consumerApplies attempt.control input).map (.consumer index, ·)
  described := (consumerDescribes input).map (.consumer index, ·)
  dialed := none

/-- A consumer session has come to a control point. If it posted a message on the way, it now waits
for the answer. -/
def moveConsumer (system : Freddie) (index : Nat) (attempt : Attempt) (control : Consumer.Control)
    (post : Option Post) (server : Exchange.Server Party Body) : Freddie :=
  { system with
    server := server
    consumers := system.consumers.set index
      ⟨attempt.config, control, post.map fun _ ↦ system.server.posts.length⟩ }

/-- A step of a consumer session. -/
def consumerStep (codecs : Codecs) (system : Freddie) (index : Nat) (input : Consumer.Input)
    (reply : Option (Nat × Nat)) (fresh : String) : Option (Out × Freddie) :=
  system.consumers[index]?.bind fun attempt ↦
    (attempt.control.next codecs.consumer attempt.config input).bind fun (effect, control) ↦
      (perform system.server reply (consumerPost index fresh effect)).map fun (performed, server) ↦
        (consumerOut index attempt input performed,
          system.moveConsumer index attempt control (consumerPost index fresh effect) server)

/-- What a step of a peer-proxy session does. -/
def peerOut (index : Nat) (session : Session) (input : PeerProxy.Input)
    (effect : PeerProxy.Effect) (performed : ServerLog) : Out where
  performed := performed
  applied := (peerApplies session.control input).map (.peer index, ·)
  described := (peerDescribes input).map (.peer index, ·)
  dialed := (dials effect).map (index, ·)

/-- A peer-proxy session has come to a control point. If it posted a message on the way, it now
waits for the answer. -/
def movePeer (system : Freddie) (index : Nat) (control : PeerProxy.Control) (post : Option Post)
    (server : Exchange.Server Party Body) : Freddie :=
  { system with
    server := server
    peers := system.peers.set index ⟨control, post.map fun _ ↦ system.server.posts.length⟩ }

/-- A step of a peer-proxy session. -/
def peerStep (codecs : Codecs) (system : Freddie) (index : Nat) (input : PeerProxy.Input)
    (reply : Option (Nat × Nat)) (fresh : String) : Option (Out × Freddie) :=
  system.peers[index]?.bind fun session ↦
    (session.control.next codecs.peer input).bind fun (effect, control) ↦
      (perform system.server reply (peerPost index fresh effect)).map fun (performed, server) ↦
        (peerOut index session input effect performed,
          system.movePeer index control (peerPost index fresh effect) server)

/-- The message that an exchange of a consumer session returns. -/
def consumerReply : Consumer.Input → Option SignalMessage
  | .replied (.ok message) => message
  | _ => none

/-- The message that a consumer session sees on its advertisement stream. -/
def consumerAdvertised : Consumer.Input → Option SignalMessage
  | .advertised (.ok message) => message
  | _ => none

/-- The message that an exchange of a peer-proxy session returns. -/
def peerReply : PeerProxy.Input → Option SignalMessage
  | .replied (.ok message) => message
  | _ => none

/-- One step of a session, or the arrival of one. -/
def next (codecs : Codecs) : Next Freddie Op Out
  | system, .joinConsumer config =>
      some (.quiet, { system with consumers := system.consumers ++ [⟨config, .connecting, none⟩] })
  | system, .joinPeer =>
      some (.quiet, { system with peers := system.peers ++ [⟨.connecting, none⟩] })
  | system, .consumer index input fresh =>
      if consumerReply input = none ∧ consumerAdvertised input = none then
        consumerStep codecs system index input none fresh
      else none
  | system, .peer index input fresh =>
      if peerReply input = none then peerStep codecs system index input none fresh else none
  | system, .advertise index message fresh =>
      system.server.posts[message]?.bind fun post ↦
        if post.body.kind = .genesis then
          consumerStep codecs system index (.advertised (.ok (some (signal post)))) none fresh
        else none
  | system, .answer (.consumer index) message fresh =>
      system.consumers[index]?.bind fun attempt ↦ attempt.exchange.bind fun request ↦
        system.server.posts[message]?.bind fun post ↦
          consumerStep codecs system index (.replied (.ok (some (signal post))))
            (some (request, message)) fresh
  | system, .answer (.peer index) message fresh =>
      system.peers[index]?.bind fun session ↦ session.exchange.bind fun request ↦
        system.server.posts[message]?.bind fun post ↦
          peerStep codecs system index (.replied (.ok (some (signal post))))
            (some (request, message)) fresh

/-- A log of the whole system. -/
abbrev Log := Execution.Log Op Out

/-- Executions of the whole system. -/
abbrev Exec (codecs : Codecs) := Execution.Exec (next codecs)

/-- The operations of the server in a log. -/
def serverLog (log : Log) : ServerLog :=
  log.flatMap fun entry ↦ entry.2.performed

/-- The remote descriptions that sessions have set. -/
def applied (log : Log) : List (Party × SessionDescription) :=
  log.filterMap fun entry ↦ entry.2.applied

/-- The descriptions that sessions have made and sent. -/
def described (log : Log) : List (Party × SessionDescription) :=
  log.filterMap fun entry ↦ entry.2.described

/-- The session IDs that peer-proxy sessions have dialed the egress with. -/
def dialed (log : Log) : List (Nat × String) :=
  log.filterMap fun entry ↦ entry.2.dialed

/-- The remote descriptions with one more step. -/
theorem applied_cons {op : Op} {out : Out} {log : Log} :
    applied ((op, out) :: log) = out.applied.toList ++ applied log := by
  cases happlied : out.applied <;> simp [applied, happlied]

/-- The local descriptions with one more step. -/
theorem described_cons {op : Op} {out : Out} {log : Log} :
    described ((op, out) :: log) = out.described.toList ++ described log := by
  cases hdescribed : out.described <;> simp [described, hdescribed]

/-- The dialed session IDs with one more step. -/
theorem dialed_cons {op : Op} {out : Out} {log : Log} :
    dialed ((op, out) :: log) = out.dialed.toList ++ dialed log := by
  cases hdialed : out.dialed <;> simp [dialed, hdialed]

/-! ## What a step can do -/

/-- What the server did in a step. -/
structure Performed (server : Exchange.Server Party Body) (reply : Option (Nat × Nat))
    (post : Option Post) (performed : ServerLog) (following : Exchange.Server Party Body) :
    Prop where
  exec : Execution.Exchange.Exec "genesis" server performed following
  posts : following.posts = server.posts ++ post.toList
  answered : ∀ request message,
    Exchange.Answered performed request message ↔ reply = some (request, message)

variable {codecs : Codecs} {system following : Freddie} {log : Log}

/-- The server performs what it is asked for. -/
theorem performed_of_perform {server moved : Exchange.Server Party Body}
    {reply : Option (Nat × Nat)} {post : Option Post} {performed : ServerLog}
    (h : perform server reply post = some (performed, moved)) :
    Performed server reply post performed moved := by
  refine ⟨Execution.exec_of_run h, ?_, ?_⟩
  · rw [Execution.Exchange.posts_of_run h]
    cases reply <;> cases post <;> rfl
  · intro request message
    rw [Execution.Exchange.answered_iff_mem_ops, Execution.inputs_of_run h]
    cases reply <;> cases post <;> simp [serverOps, eq_comm, Prod.ext_iff]

/-- Where the message in an input comes from: it is the one that answers the request which the
session waits for. -/
structure Delivers (system : Freddie) (exchange : Option Nat) (reply : Option (Nat × Nat))
    (message : Option SignalMessage) : Prop where
  waiting : ∀ request index, reply = some (request, index) → exchange = some request
  source : ∀ received, message = some received → ∃ request index post,
    reply = some (request, index) ∧ system.server.posts[index]? = some post ∧
      received = signal post

/-- Everything a step can be. -/
inductive Change (codecs : Codecs) (system : Freddie) : Out → Freddie → Prop where
  | joinConsumer {config} : Change codecs system .quiet
      { system with consumers := system.consumers ++ [⟨config, .connecting, none⟩] }
  | joinPeer : Change codecs system .quiet
      { system with peers := system.peers ++ [⟨.connecting, none⟩] }
  | consumer {index attempt input reply fresh effect control performed server}
      (hattempt : system.consumers[index]? = some attempt)
      (hmove : Consumer.Move codecs.consumer attempt.config attempt.control input effect control)
      (hperformed : Performed system.server reply (consumerPost index fresh effect) performed
        server)
      (hdelivers : Delivers system attempt.exchange reply (consumerReply input))
      (hadvertised : ∀ message, consumerAdvertised input = some message →
        ∃ post ∈ system.server.posts, post.body.kind = .genesis ∧ message = signal post) :
      Change codecs system (consumerOut index attempt input performed)
        (system.moveConsumer index attempt control (consumerPost index fresh effect) server)
  | peer {index session input reply fresh effect control performed server}
      (hsession : system.peers[index]? = some session)
      (hmove : PeerProxy.Move codecs.peer session.control input effect control)
      (hperformed : Performed system.server reply (peerPost index fresh effect) performed server)
      (hdelivers : Delivers system session.exchange reply (peerReply input)) :
      Change codecs system (peerOut index session input effect performed)
        (system.movePeer index control (peerPost index fresh effect) server)

/-- A step of a consumer session with what it got. -/
theorem change_of_consumerStep {index : Nat} {attempt : Attempt} {input : Consumer.Input}
    {reply : Option (Nat × Nat)} {fresh : String} {out : Out}
    (h : consumerStep codecs system index input reply fresh = some (out, following))
    (hattempt : system.consumers[index]? = some attempt)
    (hdelivers : Delivers system attempt.exchange reply (consumerReply input))
    (hadvertised : ∀ message, consumerAdvertised input = some message →
      ∃ post ∈ system.server.posts, post.body.kind = .genesis ∧ message = signal post) :
    Change codecs system out following := by
  simp only [consumerStep, hattempt, Option.bind_some, Option.bind_eq_some_iff,
    Option.map_eq_some_iff, Prod.mk.injEq] at h
  obtain ⟨⟨effect, control⟩, hnext, ⟨performed, server⟩, hperform, rfl, rfl⟩ := h
  exact .consumer hattempt (Consumer.move_of_next hnext) (performed_of_perform hperform) hdelivers
    hadvertised

/-- A step of a peer-proxy session with what it got. -/
theorem change_of_peerStep {index : Nat} {session : Session} {input : PeerProxy.Input}
    {reply : Option (Nat × Nat)} {fresh : String} {out : Out}
    (h : peerStep codecs system index input reply fresh = some (out, following))
    (hsession : system.peers[index]? = some session)
    (hdelivers : Delivers system session.exchange reply (peerReply input)) :
    Change codecs system out following := by
  simp only [peerStep, hsession, Option.bind_some, Option.bind_eq_some_iff,
    Option.map_eq_some_iff, Prod.mk.injEq] at h
  obtain ⟨⟨effect, control⟩, hnext, ⟨performed, server⟩, hperform, rfl, rfl⟩ := h
  exact .peer hsession (PeerProxy.move_of_next hnext) (performed_of_perform hperform) hdelivers

/-- An input without a message needs no source. -/
theorem Delivers.nothing (exchange : Option Nat) : Delivers system exchange none none :=
  ⟨by simp, by simp⟩

/-- The answer to the request that a session waits for is the source of an input. -/
theorem Delivers.answer {request index : Nat} {post : Post}
    (h : system.server.posts[index]? = some post) :
    Delivers system (some request) (some (request, index)) (some (signal post)) := by
  refine ⟨?_, ?_⟩
  · intro other place heq
    simp only [Option.some.injEq, Prod.mk.injEq] at heq
    rw [heq.1]
  · intro received heq
    exact ⟨request, index, post, rfl, h, (Option.some.inj heq).symm⟩

/-- Every step of the server and its sessions is a `Change`. -/
theorem change_of_next {op : Op} {out : Out} (h : next codecs system op = some (out, following)) :
    Change codecs system out following := by
  have hconsumer : ∀ index input reply fresh,
      consumerStep codecs system index input reply fresh = some (out, following) →
      ∃ attempt, system.consumers[index]? = some attempt := by
    intro index input reply fresh hstep
    obtain ⟨attempt, hattempt, _⟩ := Option.bind_eq_some_iff.mp hstep
    exact ⟨attempt, hattempt⟩
  cases op with
  | joinConsumer config =>
      simp only [next, Option.some.injEq, Prod.mk.injEq] at h
      obtain ⟨rfl, rfl⟩ := h
      exact .joinConsumer
  | joinPeer =>
      simp only [next, Option.some.injEq, Prod.mk.injEq] at h
      obtain ⟨rfl, rfl⟩ := h
      exact .joinPeer
  | consumer index input fresh =>
      simp only [next] at h
      split at h
      case isFalse => simp at h
      case isTrue hnothing =>
        obtain ⟨attempt, hattempt⟩ := hconsumer _ _ _ _ h
        refine change_of_consumerStep h hattempt ?_ (by simp [hnothing.2])
        rw [hnothing.1]
        exact .nothing _
  | peer index input fresh =>
      simp only [next] at h
      split at h
      case isFalse => simp at h
      case isTrue hnothing =>
        obtain ⟨session, hsession, _⟩ := Option.bind_eq_some_iff.mp h
        refine change_of_peerStep h hsession ?_
        rw [hnothing]
        exact .nothing _
  | advertise index message fresh =>
      simp only [next, Option.bind_eq_some_iff] at h
      obtain ⟨post, hpost, hstep⟩ := h
      split at hstep
      case isFalse => simp at hstep
      case isTrue hkind =>
        obtain ⟨attempt, hattempt⟩ := hconsumer _ _ _ _ hstep
        refine change_of_consumerStep hstep hattempt (.nothing _) fun received heq ↦ ?_
        exact ⟨post, List.mem_of_getElem? hpost, hkind, (Option.some.inj heq).symm⟩
  | answer party message fresh =>
      cases party with
      | consumer index =>
          simp only [next, Option.bind_eq_some_iff] at h
          obtain ⟨attempt, hattempt, request, hrequest, post, hpost, hstep⟩ := h
          refine change_of_consumerStep hstep hattempt ?_ (by simp [consumerAdvertised])
          rw [hrequest]
          exact .answer hpost
      | peer index =>
          simp only [next, Option.bind_eq_some_iff] at h
          obtain ⟨session, hsession, request, hrequest, post, hpost, hstep⟩ := h
          refine change_of_peerStep hstep hsession ?_
          rw [hrequest]
          exact .answer hpost

end Freddie

end Unbounded.Signaling
