import Unbounded.EndToEnd.System

/-!
# Whose traffic the egress carries

The egress knows a consumer by the session ID in the subprotocols of a WebSocket, which a peer proxy
puts there on the word of an Ice message. `egress_attribution` says that this ID is the right one,
over whole runs of any number of consumers and peer proxies: what the egress receives on a WebSocket
was sent by the program whose session ID the WebSocket was dialed with, and what a program receives
was sent by the egress on a WebSocket that was dialed with its session ID.

The signaling and the network of every program have runs of their own inside a run of the system,
and `Coupled` says how they fit together. The pairing of sessions comes from the first, the
integrity of datagrams from the second, and the descriptions that a DataChannel needs at both of its
ends join them. That a session has one DataChannel follows as well: a consumer session creates one,
and a peer-proxy session applies one offer, which one consumer session has made.
-/

namespace Unbounded.Signaling.Freddie

variable {codecs : Codecs} {log : Log} {system following : Freddie}

/-! ## The signaling -/

/-- A peer-proxy session that has come past its DataChannel has dialed the egress with its ID. -/
def Dialed (log : Log) (system : Freddie) : Prop :=
  ∀ (index : Nat) (session : Session) (id : String), system.peers[index]? = some session →
    session.control.opened = true → session.control.phase = .identified id →
      (index, id) ∈ dialed log

/-- Every step keeps the egress dialed for the sessions past their DataChannel. -/
theorem Dialed.step {op : Op} {out : Out} (h : Dialed log system)
    (hturn : Turn codecs system out following) : Dialed ((op, out) :: log) following := by
  have hkeep : ∀ (index : Nat) (session : Session) (id : String),
      system.peers[index]? = some session → session.control.opened = true →
      session.control.phase = .identified id → (index, id) ∈ dialed ((op, out) :: log) := by
    intro index session id hsession hopened hphase
    rw [dialed_cons]
    exact List.mem_append_right _ (h index session id hsession hopened hphase)
  cases hturn with
  | joinConsumer => exact hkeep
  | joinPeer =>
      intro index session id hsession hopened hphase
      rcases Execution.getElem?_append_cases hsession with ⟨_, rfl⟩ | ⟨_, hold⟩
      · cases hopened
      · exact hkeep index session id hold hopened hphase
  | consumer => exact hkeep
  | @peer acting session input reply fresh effect control performed server hsession hnext =>
      intro index found id hfound hopened hphase
      rcases Execution.getElem?_set_cases hfound with ⟨rfl, rfl⟩ | ⟨_, hold⟩
      · have hmove := PeerProxy.move_of_next hnext
        generalize hbefore : session.control = before at hmove
        cases hmove with
        | dial =>
            obtain rfl := PeerProxy.Phase.identified.inj hphase
            rw [dialed_cons]
            exact List.mem_append_left _ List.mem_cons_self
        | proceed hcontrol hfollowing _ hstays =>
            rw [hfollowing] at hphase
            subst hbefore
            exact hkeep _ session id hsession (hstays hopened) (hcontrol.trans hphase)
        | fail hended => rw [hended] at hphase; cases hphase
        | prepare _ hanswering => rw [hanswering] at hphase; cases hphase
        | publish => simp at hopened
        | advertise | offer | apply | answer => cases hphase
      · exact hkeep index found id hold hopened hphase

/-- Every peer-proxy session that relays has dialed the egress. -/
theorem Exec.dialed (h : Exec codecs .new log system) : Dialed log system := by
  induction h with
  | refl => exact fun index session id hsession ↦ by simp [Freddie.new] at hsession
  | snoc _ hnext ih => exact ih.step (turn_of_next hnext)

/-- A consumer session is past the creation of its DataChannel. -/
def Created (system : Freddie) (index : Nat) : Prop :=
  ∃ attempt, system.consumers[index]? = some attempt ∧ attempt.control.created = true

/-- A consumer session stays past the creation of its DataChannel. -/
theorem Created.next {index : Nat} {op : Op} {out : Out} (h : Created system index)
    (hnext : next codecs system op = some (out, following)) : Created following index := by
  obtain ⟨attempt, hattempt, hcreated⟩ := h
  cases turn_of_next hnext with
  | joinConsumer => exact ⟨attempt, Execution.getElem?_append_of_some hattempt _, hcreated⟩
  | joinPeer => exact ⟨attempt, hattempt, hcreated⟩
  | @consumer acting found input reply fresh effect control performed server hfound hmoves =>
      -- only the session that acts moves, and it does not go back
      by_cases heq : acting = index
      · subst heq
        obtain rfl := Option.some.inj (hattempt.symm.trans hfound)
        exact ⟨_, Execution.getElem?_set_slot_self hattempt _,
          Consumer.Control.created_of_next hmoves hcreated⟩
      · refine ⟨attempt, ?_, hcreated⟩
        exact (Execution.getElem?_set_slot hfound _ index).trans ((if_neg heq).trans hattempt)
  | peer => exact ⟨attempt, hattempt, hcreated⟩

/-- A consumer session is past the creation of its DataChannel after the step that creates it, and
not before. -/
theorem created_of_creates {index : Nat} {op : Op} {out : Out}
    (hop : EndToEnd.System.creates op = some index)
    (h : next codecs system op = some (out, following)) :
    ¬ Created system index ∧ Created following index := by
  unfold EndToEnd.System.creates at hop
  split at hop
  case h_2 => cases hop
  case h_1 =>
    obtain rfl := Option.some.inj hop
    simp only [next, consumerStep, Option.ite_none_right_eq_some, Option.bind_eq_some_iff,
      Option.map_eq_some_iff, Prod.mk.injEq] at h
    obtain ⟨_, attempt, hattempt, ⟨effect, control⟩, hmoves, ⟨performed, server⟩, _, _, rfl⟩ := h
    obtain ⟨hbefore, hafter⟩ := Consumer.Control.created_of_channelCreated hmoves
    constructor
    · rintro ⟨found, hfound, hcreated⟩
      obtain rfl := Option.some.inj (hattempt.symm.trans hfound)
      rw [hbefore] at hcreated
      cases hcreated
    · exact ⟨_, Execution.getElem?_set_slot_self hattempt _, hafter⟩

/-- The configurations of the consumer sessions change only when a session is started. -/
theorem configs_of_next {op : Op} {out : Out} (hop : ∀ config, op ≠ .joinConsumer config)
    (h : next codecs system op = some (out, following)) :
    following.consumers.map Attempt.config = system.consumers.map Attempt.config := by
  have hconsumer : ∀ {index input reply fresh},
      consumerStep codecs system index input reply fresh = some (out, following) →
      following.consumers.map Attempt.config = system.consumers.map Attempt.config := by
    intro index input reply fresh hstep
    simp only [consumerStep, Option.bind_eq_some_iff, Option.map_eq_some_iff,
      Prod.mk.injEq] at hstep
    obtain ⟨attempt, hattempt, _, _, _, _, _, rfl⟩ := hstep
    exact Execution.map_set_slot hattempt rfl
  have hpeer : ∀ {index input reply fresh},
      peerStep codecs system index input reply fresh = some (out, following) →
      following.consumers.map Attempt.config = system.consumers.map Attempt.config := by
    intro index input reply fresh hstep
    simp only [peerStep, Option.bind_eq_some_iff, Option.map_eq_some_iff, Prod.mk.injEq] at hstep
    obtain ⟨_, _, _, _, _, _, _, rfl⟩ := hstep
    rfl
  cases op with
  | joinConsumer config => exact absurd rfl (hop config)
  | joinPeer =>
      simp only [next, Option.some.injEq, Prod.mk.injEq] at h
      obtain ⟨rfl, rfl⟩ := h
      rfl
  | consumer index input fresh =>
      simp only [next, Option.ite_none_right_eq_some] at h
      exact hconsumer h.2
  | peer index input fresh =>
      simp only [next, Option.ite_none_right_eq_some] at h
      exact hpeer h.2
  | advertise index message fresh =>
      simp only [next, Option.bind_eq_some_iff, Option.ite_none_right_eq_some] at h
      obtain ⟨_, _, _, hstep⟩ := h
      exact hconsumer hstep
  | answer party message fresh =>
      cases party with
      | consumer index =>
          simp only [next, Option.bind_eq_some_iff] at h
          obtain ⟨_, _, _, _, _, _, hstep⟩ := h
          exact hconsumer hstep
      | peer index =>
          simp only [next, Option.bind_eq_some_iff] at h
          obtain ⟨_, _, _, _, _, _, hstep⟩ := h
          exact hpeer hstep

end Unbounded.Signaling.Freddie

namespace Unbounded.EndToEnd

variable {encode : UnboundedPacket → Bytes} {decode : Bytes → Except String UnboundedPacket}

/-! ## The networks -/

/-- Nothing has gone over the WebSocket of a link, and nothing is about to. -/
structure Link.Idle (log : Link.Log) (link : Link) : Prop where
  toEgress : link.toEgress = []
  received : Link.egressReceived log = 0
  sent : Link.envelopes log = 0

/-- A step that is not one of the relay keeps a link idle. -/
theorem Link.Idle.step {log : Link.Log} {link following : Link} {op : Link.Op} {out : Link.Out}
    (h : Link.Idle log link) (hop : System.ofRelay op = false)
    (hnext : Link.next encode decode link op = some (out, following)) :
    Link.Idle ((op, out) :: log) following := by
  obtain ⟨htoEgress, hreceived, hsent⟩ := h
  -- a step that reports nothing and leaves the WebSocket alone
  have hquiet : ∀ {op : Link.Op}, (∀ packet, op ≠ .envelope packet) →
      out.egressReceived = 0 → following.toEgress = [] →
      Link.Idle ((op, out) :: log) following := by
    intro op hop hout hfollowing
    refine ⟨hfollowing, ?_, ?_⟩
    · rw [Link.egressReceived, List.map_cons, List.sum_cons, hout, zero_add]
      exact hreceived
    · rw [← hsent]
      cases op with
      | envelope packet => exact absurd rfl (hop packet)
      | _ => rfl
  cases op with
  | relaySelect | relayTaken | relaySentToEgress | relaySentToPeer | envelope | egressItem =>
      cases hop
  | up op =>
      simp only [Link.next, Option.ite_none_right_eq_some, Option.map_eq_some_iff,
        Prod.mk.injEq] at hnext
      obtain ⟨_, _, _, rfl, rfl⟩ := hnext
      exact hquiet (by simp) rfl htoEgress
  | down op =>
      simp only [Link.next, Option.ite_none_right_eq_some, Option.map_eq_some_iff,
        Prod.mk.injEq] at hnext
      obtain ⟨_, _, _, rfl, rfl⟩ := hnext
      exact hquiet (by simp) rfl htoEgress
  | consumerTaken =>
      simp only [Link.next, Option.map_eq_some_iff, Prod.mk.injEq] at hnext
      obtain ⟨_, _, rfl, rfl⟩ := hnext
      exact hquiet (by simp) rfl htoEgress
  | consumerRecv | consumerSend | consumerSent | consumerLeft | relayDropped | egressLoss =>
      simp only [Link.next, Option.some.injEq, Prod.mk.injEq] at hnext
      obtain ⟨rfl, rfl⟩ := hnext
      exact hquiet (by simp) rfl (by first | exact htoEgress | rfl)
  | peerLeft =>
      simp only [Link.next] at hnext
      split at hnext <;> cases hnext <;> exact hquiet (by simp) rfl htoEgress
  | egressReceive =>
      simp only [Link.next, htoEgress] at hnext
      cases hnext

/-- A run without steps of the relay keeps a link idle. -/
theorem Link.Idle.exec {log ran : Link.Log} {link following : Link} (h : Link.Idle log link)
    (hops : ∀ entry ∈ ran, System.ofRelay entry.1 = false)
    (hexec : Link.Exec encode decode link ran following) : Link.Idle (ran ++ log) following := by
  induction hexec with
  | refl => exact h
  | snoc _ hnext ih =>
      have hbefore := ih fun entry hentry ↦ hops entry (List.mem_cons_of_mem _ hentry)
      exact hbefore.step (hops _ List.mem_cons_self) hnext

namespace Network

variable {network following : Network} {log : Log}

/-- Nothing has gone over the WebSocket of a connection, and nothing is about to. -/
structure Idle (log : Log) (network : Network) (index : Nat) : Prop where
  links : ∀ connection, network.connections[index]? = some connection →
    Link.Idle (linkLog log index) connection.link
  fresh : network.connections.length ≤ index → linkLog log index = []

/-- The step of a future is no step of the relay at the other end. -/
theorem not_ofRelay_of_linkOps {packet : Option Bytes} {op : ConsumerPath.Op} {linkOp : Link.Op}
    (h : linkOp ∈ linkOps packet op) : System.ofRelay linkOp = false := by
  unfold linkOps at h
  split at h
  · rcases List.mem_cons.mp h with rfl | hsend
    · rfl
    · obtain ⟨sent, _, rfl⟩ := Option.map_eq_some_iff.mp (Option.mem_toList.mp hsend)
      rfl
  · rw [List.mem_singleton.mp h]
    rfl
  · rw [List.mem_singleton.mp h]
    rfl
  · rw [List.mem_singleton.mp h]
    rfl
  · cases h

/-- A step of a relay is a step of its link. -/
theorem eq_link_of_ofRelay {op : Op} {out : Out} {entry : Link.Op × Link.Out}
    (h : next encode decode network op = some (out, following)) (hentry : entry ∈ out.link)
    (hrelay : System.ofRelay entry.1 = true) : op = .link out.connection entry.1 := by
  cases op with
  | allocate | embedder =>
      simp only [next, Option.map_eq_some_iff, Prod.mk.injEq] at h
      obtain ⟨_, _, rfl, _⟩ := h
      cases hentry
  | connect upCapacity downCapacity =>
      simp only [next, Option.map_eq_some_iff, Prod.mk.injEq] at h
      obtain ⟨_, _, rfl, _⟩ := h
      cases hentry
  | start index remote queueCapacity =>
      simp only [next] at h
      split at h
      case h_2 => cases h
      case h_1 =>
        simp only [Option.map_eq_some_iff, Prod.mk.injEq] at h
        obtain ⟨_, _, rfl, _⟩ := h
        cases hentry
  | path index op =>
      simp only [next] at h
      split at h
      case h_2 => cases h
      case h_1 link task hconnection =>
        simp only [Option.ite_none_right_eq_some, Option.bind_eq_some_iff, Option.map_eq_some_iff,
          Prod.mk.injEq] at h
        obtain ⟨_, ⟨_, endpoint⟩, _, ⟨ran, _⟩, hrun, rfl, _⟩ := h
        have hinputs := Execution.inputs_of_run hrun
        have hmem : entry.1 ∈ ran.map Prod.fst := List.mem_map_of_mem hentry
        rw [hinputs, List.map_nil, List.append_nil, List.mem_reverse] at hmem
        rw [not_ofRelay_of_linkOps hmem] at hrelay
        cases hrelay
  | link index op =>
      simp only [next] at h
      split at h
      case h_2 => cases h
      case h_1 link task hconnection =>
        simp only [Option.ite_none_right_eq_some, Option.map_eq_some_iff, Prod.mk.injEq] at h
        obtain ⟨_, _, _, rfl, _⟩ := h
        rw [List.mem_singleton.mp hentry]

/-- The number of connections grows only when one is made. -/
theorem length_of_next {op : Op} {out : Out}
    (h : next encode decode network op = some (out, following)) :
    following.connections.length = network.connections.length +
      match op with
      | .connect _ _ => 1
      | _ => 0 := by
  cases op with
  | allocate | embedder =>
      simp only [next, Option.map_eq_some_iff, Prod.mk.injEq] at h
      obtain ⟨_, _, _, rfl⟩ := h
      rfl
  | connect upCapacity downCapacity =>
      simp only [next, Option.map_eq_some_iff, Prod.mk.injEq] at h
      obtain ⟨_, _, _, rfl⟩ := h
      exact List.length_append
  | start index remote queueCapacity =>
      simp only [next] at h
      split at h
      case h_2 => cases h
      case h_1 =>
        simp only [Option.map_eq_some_iff, Prod.mk.injEq] at h
        obtain ⟨_, _, _, rfl⟩ := h
        exact List.length_set
  | path index op =>
      simp only [next] at h
      split at h
      case h_2 => cases h
      case h_1 =>
        simp only [Option.ite_none_right_eq_some, Option.bind_eq_some_iff, Option.map_eq_some_iff,
          Prod.mk.injEq] at h
        obtain ⟨_, _, _, _, _, _, rfl⟩ := h
        exact List.length_set
  | link index op =>
      simp only [next] at h
      split at h
      case h_2 => cases h
      case h_1 =>
        simp only [Option.ite_none_right_eq_some, Option.map_eq_some_iff, Prod.mk.injEq] at h
        obtain ⟨_, _, _, _, rfl⟩ := h
        exact List.length_set

/-- A new link has carried nothing. -/
theorem idle_new {upCapacity downCapacity : Nat} {link : Link}
    (h : Link.new upCapacity downCapacity = some link) : Link.Idle [] link := by
  simp only [Link.new, Option.bind_eq_some_iff, Option.map_eq_some_iff] at h
  obtain ⟨_, _, _, _, rfl⟩ := h
  exact ⟨rfl, rfl, rfl⟩

/-- A step on a link in which its relay takes no part keeps the connections idle. -/
theorem Idle.move {op : Op} {performed : ConsumerPath.Endpoint.Log} {index other : Nat}
    {connection moved : Connection} {ran : Link.Log} (h : Idle log network index)
    (hconnection : network.connections[other]? = some connection)
    (hran : Link.Exec encode decode connection.link ran moved.link)
    (hops : other = index → ∀ entry ∈ ran, System.ofRelay entry.1 = false)
    (hfollowing : following.connections = network.connections.set other moved) :
    Idle ((op, ⟨performed, other, ran⟩) :: log) following index := by
  refine ⟨fun found hfound ↦ ?_, fun hlength ↦ ?_⟩
  · rw [hfollowing] at hfound
    rw [linkLog_cons]
    rcases Execution.getElem?_set_cases hfound with ⟨rfl, rfl⟩ | ⟨hne, hold⟩
    · rw [if_pos rfl]
      exact (h.links connection hconnection).exec (hops rfl) hran
    · rw [if_neg hne]
      exact h.links found hold
  · rw [hfollowing, List.length_set] at hlength
    obtain ⟨hlt, _⟩ := List.getElem?_eq_some_iff.mp hconnection
    rw [linkLog_cons, if_neg (by show other ≠ index; omega), List.nil_append]
    exact h.fresh hlength

/-- A step in which no relay of a connection takes part keeps the connection idle. -/
theorem Idle.step {op : Op} {out : Out} {index : Nat} (h : Idle log network index)
    (hops : out.connection = index → ∀ entry ∈ out.link, System.ofRelay entry.1 = false)
    (hchange : Change encode decode network out following) :
    Idle ((op, out) :: log) following index := by
  have hsame : ∀ performed,
      linkLog ((op, ⟨performed, 0, []⟩) :: log) index = linkLog log index := by
    intro performed
    rw [linkLog_cons, ite_self, List.nil_append]
  cases hchange with
  | endpoint => exact ⟨hsame _ ▸ h.links, hsame _ ▸ h.fresh⟩
  | @connect upCapacity downCapacity link hnew =>
      refine ⟨fun connection hconnection ↦ ?_, fun hlength ↦ ?_⟩
      · rw [hsame]
        rcases Execution.getElem?_append_cases hconnection with ⟨rfl, rfl⟩ | ⟨_, hold⟩
        · rw [h.fresh le_rfl]
          exact idle_new hnew
        · exact h.links connection hold
      · rw [List.length_append, List.length_singleton] at hlength
        rw [hsame]
        exact h.fresh (by omega)
  | @start other link remote queueCapacity out endpoint hconnection _ =>
      refine ⟨fun connection hfound ↦ ?_, fun hlength ↦ ?_⟩
      · rw [hsame]
        rcases Execution.getElem?_set_cases hfound with ⟨rfl, rfl⟩ | ⟨_, hold⟩
        · exact h.links ⟨link, none⟩ hconnection
        · exact h.links connection hold
      · rw [List.length_set] at hlength
        rw [hsame]
        exact h.fresh hlength
  | path hconnection _ _ _ hrun =>
      exact h.move hconnection (Execution.exec_of_run hrun) hops rfl
  | link hconnection _ hnext => exact h.move hconnection (.snoc .refl hnext) hops rfl

end Network

/-! ## The runs of the parts -/

namespace System

open Rtc (SessionDescription)
open Signaling (Codecs Freddie Party)
open VirtualUdp (Socket deliveries polledFrom sentTo)

variable {codecs : Codecs} {system following : System} {log : Log}

/-- Two sessions hold each other's descriptions. -/
structure Matched (system : System) (attempt peer : Nat) : Prop where
  offer : ∃ offer, (.consumer attempt, offer) ∈ system.locals ∧ (.peer peer, offer) ∈ system.remotes
  answer : ∃ answer, (.peer peer, answer) ∈ system.locals ∧
    (.consumer attempt, answer) ∈ system.remotes

/-- The check before a DataChannel opens finds out whether two sessions hold each other's
descriptions. -/
theorem matched_iff (attempt peer : Nat) :
    system.matched attempt peer = true ↔ system.Matched attempt peer := by
  constructor
  · intro h
    simp only [matched, Bool.and_eq_true, List.any_eq_true, decide_eq_true_eq,
      List.contains_iff_mem] at h
    obtain ⟨⟨⟨_, offer⟩, hremote, rfl, hlocal⟩, ⟨_, answer⟩, happlied, rfl, hmade⟩ := h
    exact ⟨⟨offer, hlocal, hremote⟩, ⟨answer, hmade, happlied⟩⟩
  · rintro ⟨⟨offer, hlocal, hremote⟩, answer, hmade, happlied⟩
    simp only [matched, Bool.and_eq_true, List.any_eq_true, decide_eq_true_eq,
      List.contains_iff_mem]
    exact ⟨⟨_, hremote, rfl, hlocal⟩, _, happlied, rfl, hmade⟩

/-- The program at the end of a DataChannel. -/
def Owns (system : System) (channel : Channel) (index : Nat) : Prop :=
  system.owners[channel.attempt]? = some index

/-- The log of a network with one more step. -/
def push (networks : Nat → Network.Log) (index : Nat) (entry : Network.Op × Network.Out)
    (other : Nat) : Network.Log :=
  if index = other then entry :: networks other else networks other

/-- How the signaling and the networks fit together. -/
structure Coupled (codecs : Codecs) (encode : UnboundedPacket → Bytes)
    (decode : Bytes → Except String UnboundedPacket) (signals : Freddie.Log)
    (networks : Nat → Network.Log) (system : System) : Prop where
  signaling : Freddie.Exec codecs .new signals system.signaling
  locals : system.locals = Freddie.described signals
  remotes : system.remotes = Freddie.applied signals
  /-- No two sessions have made the same description. -/
  distinct : ∀ party other description, (party, description) ∈ system.locals →
    (other, description) ∈ system.locals → party = other
  runs : ∀ index embedder, system.embedders[index]? = some embedder →
    ∃ localAddr queueCapacity socket,
      Socket.withOptions localAddr embedder.mtu queueCapacity = some socket ∧
      Network.Exec encode decode (.new socket) (networks index) embedder.network
  fresh : ∀ index, system.embedders.length ≤ index → networks index = []
  /-- A consumer session uses the session ID of the program that runs it. -/
  owned : ∀ attempt config, Freddie.configOf system.signaling attempt = some config →
    ∃ owner embedder, system.owners[attempt]? = some owner ∧
      system.embedders[owner]? = some embedder ∧ config.consumerSessionId = embedder.sessionId
  counted : system.owners.length = system.signaling.consumers.length
  joined : ∀ channel ∈ system.channels, system.Matched channel.attempt channel.peer ∧
    ∃ owner embedder, system.Owns channel owner ∧ system.embedders[owner]? = some embedder ∧
      channel.connection < embedder.network.connections.length
  /-- A consumer session creates one DataChannel, and a DataChannel opens once. -/
  single : (system.created ++ system.channels.map Channel.attempt).Nodup
  past : ∀ attempt ∈ system.created ++ system.channels.map Channel.attempt,
    Freddie.Created system.signaling attempt
  /-- A WebSocket that carries anything was dialed. -/
  carried : ∀ index embedder connection, system.embedders[index]? = some embedder →
    Network.Idle (networks index) embedder.network connection ∨
      ∃ channel ∈ system.channels, system.Owns channel index ∧ channel.connection = connection ∧
        ∃ id, (channel.peer, id) ∈ Freddie.dialed signals

variable {signals : Freddie.Log} {networks : Nat → Network.Log}

/-- What a step of the signaling is. -/
theorem signal_spec {op : Freddie.Op} {out : Freddie.Out}
    (h : system.signal codecs op = some (out, following)) :
    ∃ signaling, Freddie.next codecs system.signaling op = some (out, signaling) ∧
      system.makes out = true ∧ following = { system with
        signaling := signaling
        locals := out.described.toList ++ system.locals
        remotes := out.applied.toList ++ system.remotes
        created := (creates op).toList ++ system.created } := by
  simp only [signal, Option.bind_eq_some_iff, Option.ite_none_right_eq_some, Option.some.injEq,
    Prod.mk.injEq] at h
  obtain ⟨⟨_, signaling⟩, hnext, hmakes, rfl, rfl⟩ := h
  exact ⟨signaling, hnext, hmakes, rfl⟩

/-- What a step in a network is. -/
theorem traffic_spec {index : Nat} {op : Network.Op} {out : Network.Out}
    (h : system.traffic encode decode index op = some (out, following)) :
    ∃ embedder network, system.embedders[index]? = some embedder ∧
      Network.next encode decode embedder.network op = some (out, network) ∧
      following = { system with
        embedders := system.embedders.set index { embedder with network := network } } := by
  simp only [traffic, Option.bind_eq_some_iff, Option.map_eq_some_iff, Prod.mk.injEq] at h
  obtain ⟨embedder, hembedder, ⟨_, network⟩, hnext, rfl, rfl⟩ := h
  exact ⟨embedder, network, hembedder, hnext, rfl⟩

/-- Descriptions that are held stay held. -/
theorem Matched.mono {attempt peer : Nat} (h : system.Matched attempt peer)
    (hlocals : system.locals ⊆ following.locals) (hremotes : system.remotes ⊆ following.remotes) :
    following.Matched attempt peer := by
  obtain ⟨⟨offer, hlocal, hremote⟩, answer, hmade, happlied⟩ := h
  exact ⟨⟨offer, hlocals hlocal, hremotes hremote⟩, answer, hlocals hmade, hremotes happlied⟩

/-- A new description keeps the descriptions distinct. -/
theorem Coupled.distinct_of_makes (h : Coupled codecs encode decode signals networks system)
    {out : Freddie.Out} (hmakes : system.makes out = true) {party other : Party}
    {description : SessionDescription}
    (hone : (party, description) ∈ out.described.toList ++ system.locals)
    (htwo : (other, description) ∈ out.described.toList ++ system.locals) : party = other := by
  have hnew : ∀ party description, (party, description) ∈ out.described.toList →
      ∀ other, (other, description) ∉ system.locals := by
    intro party description hmem other hlocal
    rw [makes, Option.mem_toList.mp hmem] at hmakes
    simp only [Option.all_some, Bool.not_eq_true', List.contains_eq_mem, decide_eq_false_iff_not]
      at hmakes
    exact hmakes (List.mem_map_of_mem hlocal)
  rcases List.mem_append.mp hone with hone | hone
  · rcases List.mem_append.mp htwo with htwo | htwo
    · have hboth := (Option.mem_toList.mp hone).symm.trans (Option.mem_toList.mp htwo)
      exact congrArg Prod.fst (Option.some.inj hboth)
    · exact absurd htwo (hnew party description hone other)
  · rcases List.mem_append.mp htwo with htwo | htwo
    · exact absurd hone (hnew other description htwo party)
    · exact h.distinct party other description hone htwo

/-- A step of the signaling that starts no consumer session keeps the parts together. -/
theorem Coupled.signal (h : Coupled codecs encode decode signals networks system)
    {op : Freddie.Op} {out : Freddie.Out} (hop : ∀ config, op ≠ .joinConsumer config)
    (hsignal : system.signal codecs op = some (out, following)) :
    Coupled codecs encode decode ((op, out) :: signals) networks following := by
  obtain ⟨signaling, hnext, hmakes, rfl⟩ := signal_spec hsignal
  have hconfigs := Freddie.configs_of_next hop hnext
  have hdialed : ∀ entry ∈ Freddie.dialed signals,
      entry ∈ Freddie.dialed ((op, out) :: signals) := by
    intro entry hentry
    rw [Freddie.dialed_cons]
    exact List.mem_append_right _ hentry
  refine {
    signaling := h.signaling.snoc hnext
    locals := by rw [Freddie.described_cons, ← h.locals]
    remotes := by rw [Freddie.applied_cons, ← h.remotes]
    distinct := fun _ _ _ ↦ h.distinct_of_makes hmakes
    runs := h.runs
    fresh := h.fresh
    owned := ?_
    counted := ?_
    joined := ?_
    single := ?_
    past := ?_
    carried := ?_ }
  · intro attempt config hconfig
    refine h.owned attempt config ?_
    rw [Freddie.configOf, ← List.getElem?_map] at hconfig ⊢
    rwa [← hconfigs]
  · have hlength := congrArg List.length hconfigs
    rw [List.length_map, List.length_map] at hlength
    exact h.counted.trans hlength.symm
  · intro channel hchannel
    obtain ⟨hmatched, howned⟩ := h.joined channel hchannel
    exact ⟨hmatched.mono (List.subset_append_right _ _) (List.subset_append_right _ _), howned⟩
  · rw [List.append_assoc]
    cases hcreates : creates op with
    | none => exact h.single
    | some attempt =>
        -- all sessions with a DataChannel are past its creation, and this one is not
        have hnot := (Freddie.created_of_creates hcreates hnext).1
        exact List.nodup_cons.mpr ⟨fun hmem ↦ hnot (h.past attempt hmem), h.single⟩
  · intro attempt hmem
    rw [List.append_assoc, List.mem_append] at hmem
    rcases hmem with hnew | hold
    · exact (Freddie.created_of_creates (Option.mem_toList.mp hnew) hnext).2
    · exact (h.past attempt hold).next hnext
  · intro index embedder connection hembedder
    rcases h.carried index embedder connection hembedder with hidle | hchannel
    · exact .inl hidle
    · obtain ⟨channel, hmem, howns, hconnection, id, hid⟩ := hchannel
      exact .inr ⟨channel, hmem, howns, hconnection, id, hdialed _ hid⟩

/-- The parts stay together when a program starts a consumer session. -/
theorem Coupled.attempt (h : Coupled codecs encode decode signals networks system) {index : Nat}
    {embedder : Embedder} {tag : String} {pathQueueCapacity : Nat} {out : Freddie.Out}
    (hembedder : system.embedders[index]? = some embedder)
    (hsignal : system.signal codecs
      (.joinConsumer ⟨embedder.sessionId, tag, pathQueueCapacity⟩) = some (out, following)) :
    Coupled codecs encode decode
      ((.joinConsumer ⟨embedder.sessionId, tag, pathQueueCapacity⟩, out) :: signals) networks
      { following with owners := following.owners ++ [index] } := by
  obtain ⟨signaling, hnext, hmakes, rfl⟩ := signal_spec hsignal
  have hexec := h.signaling.snoc hnext
  have hpast := fun attempt hmem ↦ (h.past attempt hmem).next hnext
  simp only [Freddie.next, Option.some.injEq, Prod.mk.injEq] at hnext
  obtain ⟨rfl, rfl⟩ := hnext
  -- the programs of the sessions that were there stay
  have howner : ∀ {attempt owner : Nat}, system.owners[attempt]? = some owner →
      (system.owners ++ [index])[attempt]? = some owner :=
    fun howner ↦ Execution.getElem?_append_of_some howner index
  refine {
    signaling := hexec
    locals := h.locals
    remotes := h.remotes
    distinct := h.distinct
    runs := h.runs
    fresh := h.fresh
    owned := ?_
    counted := ?_
    joined := ?_
    single := h.single
    past := hpast
    carried := ?_ }
  · intro attempt config hconfig
    obtain ⟨run, hrun, rfl⟩ := Option.map_eq_some_iff.mp hconfig
    rcases Execution.getElem?_append_cases hrun with ⟨rfl, rfl⟩ | ⟨_, hold⟩
    · refine ⟨index, embedder, ?_, hembedder, rfl⟩
      rw [← h.counted]
      exact List.getElem?_concat_length
    · obtain ⟨owner, found, hfound, hrest⟩ := h.owned attempt run.config (by
        rw [Freddie.configOf, hold, Option.map_some])
      exact ⟨owner, found, howner hfound, hrest⟩
  · rw [List.length_append, List.length_append, h.counted]
    rfl
  · intro channel hchannel
    obtain ⟨hmatched, owner, found, howns, hrest⟩ := h.joined channel hchannel
    exact ⟨⟨hmatched.offer, hmatched.answer⟩, owner, found, howner howns, hrest⟩
  · intro other found connection hfound
    rcases h.carried other found connection hfound with hidle | hchannel
    · exact .inl hidle
    · obtain ⟨channel, hmem, howns, hconnection, id, hid⟩ := hchannel
      refine .inr ⟨channel, hmem, howner howns, hconnection, id, ?_⟩
      rw [Freddie.dialed_cons]
      exact List.mem_append_right _ hid

/-- The parts stay together when a program makes a socket. -/
theorem Coupled.embed (h : Coupled codecs encode decode signals networks system)
    {sessionId : String} {localAddr : SocketAddr} {mtu queueCapacity : Nat} {socket : Socket}
    (hsocket : Socket.withOptions localAddr mtu queueCapacity = some socket) :
    Coupled codecs encode decode signals networks { system with
      embedders := system.embedders ++ [⟨sessionId, mtu, .new socket⟩] } := by
  have hkept : ∀ {index : Nat} {embedder : Embedder}, system.embedders[index]? = some embedder →
      (system.embedders ++ [⟨sessionId, mtu, .new socket⟩])[index]? = some embedder :=
    fun hembedder ↦ Execution.getElem?_append_of_some hembedder _
  refine { h with runs := ?_, fresh := ?_, owned := ?_, joined := ?_, carried := ?_ }
  · intro index embedder hembedder
    rcases Execution.getElem?_append_cases hembedder with ⟨rfl, rfl⟩ | ⟨_, hold⟩
    · refine ⟨localAddr, queueCapacity, socket, hsocket, ?_⟩
      rw [h.fresh _ le_rfl]
      exact .refl
    · exact h.runs index embedder hold
  · intro index hindex
    rw [List.length_append, List.length_singleton] at hindex
    exact h.fresh index (by omega)
  · intro attempt config hconfig
    obtain ⟨owner, embedder, howner, hembedder, hid⟩ := h.owned attempt config hconfig
    exact ⟨owner, embedder, howner, hkept hembedder, hid⟩
  · intro channel hchannel
    obtain ⟨hmatched, owner, embedder, howns, hembedder, hlt⟩ := h.joined channel hchannel
    exact ⟨⟨hmatched.offer, hmatched.answer⟩, owner, embedder, howns, hkept hembedder, hlt⟩
  · intro index embedder connection hembedder
    rcases Execution.getElem?_append_cases hembedder with ⟨rfl, rfl⟩ | ⟨_, hold⟩
    · left
      rw [h.fresh _ le_rfl]
      exact ⟨by simp [Network.new], fun _ ↦ rfl⟩
    · exact h.carried index embedder connection hold

/-- A step of a relay happens on a DataChannel of the program, while the session at the other end is
at its relay. -/
def Relays (system : System) (index : Nat) (op : Network.Op) : Prop :=
  ∀ connection linkOp, op = .link connection linkOp → ofRelay linkOp = true →
    ∃ channel ∈ system.channels, system.Owns channel index ∧ channel.connection = connection ∧
      system.relaying channel.peer = true

/-- A session that is at its relay has dialed the egress. -/
theorem Coupled.dialed_of_relaying (h : Coupled codecs encode decode signals networks system)
    {peer : Nat} (hrelaying : system.relaying peer = true) :
    ∃ id, (peer, id) ∈ Freddie.dialed signals := by
  unfold relaying at hrelaying
  split at hrelaying
  case h_1 id exchange hsession => exact ⟨id, h.signaling.dialed peer _ id hsession rfl rfl⟩
  case h_2 => cases hrelaying

/-- A program stays what it is while its network moves. -/
theorem embedder_of_set {index owner : Nat} {embedder found : Embedder} {network : Network}
    (hembedder : system.embedders[index]? = some embedder)
    (hlength : embedder.network.connections.length ≤ network.connections.length)
    (hfound : system.embedders[owner]? = some found) :
    ∃ moved, (system.embedders.set index { embedder with network := network })[owner]? =
        some moved ∧ moved.sessionId = found.sessionId ∧
      found.network.connections.length ≤ moved.network.connections.length := by
  rw [Execution.getElem?_set_slot hembedder]
  by_cases heq : index = owner
  · subst heq
    obtain rfl := Option.some.inj (hembedder.symm.trans hfound)
    exact ⟨_, if_pos rfl, rfl, hlength⟩
  · exact ⟨found, (if_neg heq).trans hfound, rfl, le_rfl⟩

/-- A step in the network of a program keeps the parts together. -/
theorem Coupled.traffic (h : Coupled codecs encode decode signals networks system) {index : Nat}
    {op : Network.Op} {out : Network.Out} (hrelays : system.Relays index op)
    (htraffic : system.traffic encode decode index op = some (out, following)) :
    Coupled codecs encode decode signals (push networks index (op, out)) following := by
  obtain ⟨embedder, network, hembedder, hnext, rfl⟩ := traffic_spec htraffic
  have hlength : embedder.network.connections.length ≤ network.connections.length := by
    rw [Network.length_of_next hnext]
    exact Nat.le_add_right _ _
  refine { h with runs := ?_, fresh := ?_, owned := ?_, joined := ?_, carried := ?_ }
  · intro other found hfound
    rcases Execution.getElem?_set_cases hfound with ⟨rfl, rfl⟩ | ⟨hne, hold⟩
    · obtain ⟨localAddr, queueCapacity, socket, hsocket, hexec⟩ := h.runs index embedder hembedder
      refine ⟨localAddr, queueCapacity, socket, hsocket, ?_⟩
      rw [push, if_pos rfl]
      exact hexec.snoc hnext
    · rw [push, if_neg hne]
      exact h.runs other found hold
  · intro other hother
    rw [List.length_set] at hother
    obtain ⟨hlt, _⟩ := List.getElem?_eq_some_iff.mp hembedder
    rw [push, if_neg (by omega)]
    exact h.fresh other hother
  · intro attempt config hconfig
    obtain ⟨owner, found, howner, hfound, hid⟩ := h.owned attempt config hconfig
    obtain ⟨moved, hmoved, hsame, _⟩ := embedder_of_set hembedder hlength hfound
    exact ⟨owner, moved, howner, hmoved, hid.trans hsame.symm⟩
  · intro channel hchannel
    obtain ⟨hmatched, owner, found, howns, hfound, hlt⟩ := h.joined channel hchannel
    obtain ⟨moved, hmoved, _, hle⟩ := embedder_of_set hembedder hlength hfound
    exact ⟨⟨hmatched.offer, hmatched.answer⟩, owner, moved, howns, hmoved, hlt.trans_le hle⟩
  · intro other found connection hfound
    rcases Execution.getElem?_set_cases hfound with ⟨rfl, rfl⟩ | ⟨hne, hold⟩
    · rcases h.carried index embedder connection hembedder with hidle | hchannel
      · rw [push, if_pos rfl]
        by_cases hrelay : out.connection = connection ∧ ∃ entry ∈ out.link, ofRelay entry.1 = true
        · -- the relay takes part, on a WebSocket that was dialed
          obtain ⟨rfl, entry, hentry, hrelay⟩ := hrelay
          have hop := Network.eq_link_of_ofRelay hnext hentry hrelay
          obtain ⟨channel, hmem, howns, hconnection, hrelaying⟩ := hrelays _ _ hop hrelay
          exact .inr ⟨channel, hmem, howns, hconnection, h.dialed_of_relaying hrelaying⟩
        · refine .inl (hidle.step (fun hconnection entry hentry ↦ ?_)
            (Network.change_of_next hnext))
          by_contra hnot
          exact hrelay ⟨hconnection, entry, hentry, by simpa using hnot⟩
      · exact .inr hchannel
    · rw [push, if_neg hne]
      exact h.carried other found connection hold

/-- The DataChannels that were created stay the same when one of them opens. -/
theorem perm_opened (channel : Channel) (hcreated : channel.attempt ∈ system.created) :
    (system.created.erase channel.attempt ++
        (system.channels ++ [channel]).map Channel.attempt).Perm
      (system.created ++ system.channels.map Channel.attempt) := by
  rw [List.map_append, List.map_singleton, ← List.append_assoc]
  refine (List.perm_append_singleton _ _).trans ?_
  exact (List.perm_cons_erase hcreated).symm.append_right _

/-- The parts stay together when a DataChannel opens. -/
theorem Coupled.connect (h : Coupled codecs encode decode signals networks system)
    {attempt peer upCapacity downCapacity owner : Nat} {embedder : Embedder} {out : Network.Out}
    (hmatched : system.Matched attempt peer) (hcreated : attempt ∈ system.created)
    (howner : system.owners[attempt]? = some owner)
    (hembedder : system.embedders[owner]? = some embedder)
    (htraffic : system.traffic encode decode owner (.connect upCapacity downCapacity) =
      some (out, following)) :
    Coupled codecs encode decode signals
      (push networks owner (.connect upCapacity downCapacity, out)) { following with
        created := following.created.erase attempt
        channels := following.channels ++
          [⟨attempt, peer, embedder.network.connections.length⟩] } := by
  have hafter := h.traffic (by rintro connection linkOp ⟨⟩) htraffic
  obtain ⟨_, network, hfound, hnext, rfl⟩ := traffic_spec htraffic
  obtain rfl := Option.some.inj (hembedder.symm.trans hfound)
  have hlength := Network.length_of_next hnext
  have hperm := perm_opened ⟨attempt, peer, embedder.network.connections.length⟩ hcreated
  refine { hafter with joined := ?_, single := ?_, past := ?_, carried := ?_ }
  · intro channel hchannel
    rcases List.mem_append.mp hchannel with hold | hnew
    · obtain ⟨hmatches, howns⟩ := hafter.joined channel hold
      exact ⟨⟨hmatches.offer, hmatches.answer⟩, howns⟩
    · obtain rfl := List.mem_singleton.mp hnew
      refine ⟨⟨hmatched.offer, hmatched.answer⟩, owner, _, howner,
        Execution.getElem?_set_slot_self hembedder _, ?_⟩
      show embedder.network.connections.length < network.connections.length
      rw [hlength]
      exact Nat.lt_succ_self _
  · exact hperm.nodup_iff.mpr h.single
  · intro created hmem
    exact h.past created (hperm.mem_iff.mp hmem)
  · intro index found connection hfound
    rcases hafter.carried index found connection hfound with hidle | hchannel
    · exact .inl hidle
    · obtain ⟨channel, hmem, hrest⟩ := hchannel
      exact .inr ⟨channel, List.mem_append_left _ hmem, hrest⟩

/-- The logs of the networks after a step in one of them. -/
theorem networkLog_cons (op : Op) (signaling : Option (Freddie.Op × Freddie.Out)) (index : Nat)
    (entry : Network.Op × Network.Out) (log : Log) :
    networkLog ((op, ⟨signaling, some (index, entry)⟩) :: log) =
      push (networkLog log) index entry := by
  funext other
  by_cases heq : index = other
  · rw [push, if_pos heq]
    refine List.filterMap_cons_some ?_
    exact if_pos heq
  · rw [push, if_neg heq]
    refine List.filterMap_cons_none ?_
    exact if_neg heq

/-- A step of the signaling alone keeps the parts together. -/
theorem Coupled.signalOnly {op : Op} {out : Out} {signalOp : Freddie.Op}
    (h : Coupled codecs encode decode (signalLog log) (networkLog log) system)
    (hop : ∀ config, signalOp ≠ .joinConsumer config)
    (hnext : system.signalOnly codecs signalOp = some (out, following)) :
    Coupled codecs encode decode (signalLog ((op, out) :: log)) (networkLog ((op, out) :: log))
      following := by
  simp only [System.signalOnly, Option.map_eq_some_iff, Prod.mk.injEq] at hnext
  obtain ⟨⟨signalOut, _⟩, hsignal, rfl, rfl⟩ := hnext
  exact h.signal hop hsignal

/-- A step in a network alone keeps the parts together. -/
theorem Coupled.trafficOnly {op : Op} {out : Out} {index : Nat} {networkOp : Network.Op}
    (h : Coupled codecs encode decode (signalLog log) (networkLog log) system)
    (hrelays : system.Relays index networkOp)
    (hnext : system.trafficOnly encode decode index networkOp = some (out, following)) :
    Coupled codecs encode decode (signalLog ((op, out) :: log)) (networkLog ((op, out) :: log))
      following := by
  simp only [System.trafficOnly, Option.map_eq_some_iff, Prod.mk.injEq] at hnext
  obtain ⟨⟨networkOut, _⟩, htraffic, rfl, rfl⟩ := hnext
  rw [networkLog_cons]
  exact h.traffic hrelays htraffic

/-- A step in a network and then one of the signaling keep the parts together. -/
theorem Coupled.trafficThen {op : Op} {out : Out} {index : Nat} {networkOp : Network.Op}
    {goOn : Network.Out → Option Freddie.Op}
    (h : Coupled codecs encode decode (signalLog log) (networkLog log) system)
    (hrelays : system.Relays index networkOp)
    (hop : ∀ networkOut signalOp, goOn networkOut = some signalOp →
      ∀ config, signalOp ≠ .joinConsumer config)
    (hnext : system.trafficThen codecs encode decode index networkOp goOn =
      some (out, following)) :
    Coupled codecs encode decode (signalLog ((op, out) :: log)) (networkLog ((op, out) :: log))
      following := by
  simp only [System.trafficThen, Option.bind_eq_some_iff, Option.map_eq_some_iff,
    Prod.mk.injEq] at hnext
  obtain ⟨⟨networkOut, middle⟩, htraffic, signalOp, hgoOn, ⟨signalOut, _⟩, hsignal, rfl, rfl⟩ :=
    hnext
  rw [networkLog_cons]
  exact (h.traffic hrelays htraffic).signal (hop _ _ hgoOn) hsignal

/-- Every step keeps the parts together. -/
theorem Coupled.step {op : Op} {out : Out}
    (h : Coupled codecs encode decode (signalLog log) (networkLog log) system)
    (hnext : next codecs encode decode system op = some (out, following)) :
    Coupled codecs encode decode (signalLog ((op, out) :: log)) (networkLog ((op, out) :: log))
      following := by
  cases op with
  | embed sessionId localAddr mtu queueCapacity =>
      simp only [next, Option.map_eq_some_iff, Prod.mk.injEq] at hnext
      obtain ⟨socket, hsocket, rfl, rfl⟩ := hnext
      exact h.embed hsocket
  | attempt index tag pathQueueCapacity =>
      simp only [next, System.signalOnly, Option.bind_eq_some_iff, Option.map_eq_some_iff,
        Option.map_map, Function.comp_apply, Prod.mk.injEq] at hnext
      obtain ⟨embedder, hembedder, ⟨_, _⟩, hsignal, rfl, rfl⟩ := hnext
      exact h.attempt hembedder hsignal
  | signal op =>
      simp only [next, Option.ite_none_right_eq_some] at hnext
      obtain ⟨hmay, hsignal⟩ := hnext
      refine h.signalOnly ?_ hsignal
      rintro config rfl
      cases hmay
  | connect attempt peer upCapacity downCapacity =>
      simp only [next, System.trafficOnly, Option.ite_none_right_eq_some, Option.bind_eq_some_iff,
        Option.map_eq_some_iff, Option.map_map, Function.comp_apply, Prod.mk.injEq] at hnext
      obtain ⟨⟨hmatched, hcreated⟩, owner, howner, embedder, hembedder, ⟨_, _⟩, htraffic, rfl,
        rfl⟩ := hnext
      rw [networkLog_cons]
      exact h.connect ((matched_iff attempt peer).mp hmatched) hcreated howner hembedder htraffic
  | allocate attempt =>
      simp only [next, Option.bind_eq_some_iff] at hnext
      obtain ⟨owner, _, hthen⟩ := hnext
      refine h.trafficThen (by rintro connection linkOp ⟨⟩) ?_ hthen
      intro networkOut signalOp hgoOn
      obtain ⟨result, _, rfl⟩ := Option.map_eq_some_iff.mp hgoOn
      simp
  | enter attempt =>
      simp only [next, Option.bind_eq_some_iff] at hnext
      obtain ⟨_, _, _, _, hthen⟩ := hnext
      refine h.trafficThen (by rintro connection linkOp ⟨⟩) ?_ hthen
      rintro networkOut signalOp ⟨⟩
      simp
  | pathEnded attempt =>
      simp only [next, Option.bind_eq_some_iff] at hnext
      obtain ⟨_, _, _, _, hsignal⟩ := hnext
      exact h.signalOnly (by simp) hsignal
  | embedder index op => exact h.trafficOnly (by rintro connection linkOp ⟨⟩) hnext
  | path index op =>
      simp only [next, Option.bind_eq_some_iff] at hnext
      obtain ⟨_, _, htraffic⟩ := hnext
      exact h.trafficOnly (by rintro connection linkOp ⟨⟩) htraffic
  | link index op =>
      simp only [next, channelOwner, Option.bind_eq_some_iff, Option.map_eq_some_iff,
        Option.ite_none_right_eq_some] at hnext
      obtain ⟨⟨channel, owner, _⟩, ⟨_, hchannel, _, howner, _, _, ⟨⟩⟩, hmay, htraffic⟩ := hnext
      refine h.trafficOnly ?_ htraffic
      rintro connection linkOp ⟨⟩ hrelay
      refine ⟨channel, List.mem_of_getElem? hchannel, howner, rfl, ?_⟩
      exact hmay.resolve_left (by simp [hrelay])
  | relayed index duration =>
      simp only [next, Option.bind_eq_some_iff] at hnext
      obtain ⟨_, _, _, _, hsignal⟩ := hnext
      exact h.signalOnly (by simp) hsignal

/-- The parts of every run fit together. -/
theorem Exec.coupled (h : Exec codecs encode decode .new log system) :
    Coupled codecs encode decode (signalLog log) (networkLog log) system := by
  induction h with
  | refl =>
      exact {
        signaling := .refl
        locals := rfl
        remotes := rfl
        distinct := nofun
        runs := nofun
        fresh := fun _ _ ↦ rfl
        owned := nofun
        counted := rfl
        joined := nofun
        single := .nil
        past := nofun
        carried := nofun }
  | snoc _ hnext ih => exact ih.step hnext

/-! ## Attribution -/

/-- The traffic of a connection goes over the WebSocket of a peer-proxy session that was dialed with
a session ID, and with no other. -/
def Carries (system : System) (log : Log) (index connection : Nat) (sessionId : String) : Prop :=
  ∃ channel ∈ system.channels, system.Owns channel index ∧ channel.connection = connection ∧
    (channel.peer, sessionId) ∈ Freddie.dialed (signalLog log) ∧
    ∀ id, (channel.peer, id) ∈ Freddie.dialed (signalLog log) → id = sessionId

/-- The egress is dialed with the session ID of the program at the other end of the DataChannel. -/
theorem Coupled.eq_sessionId (h : Coupled codecs encode decode signals networks system)
    (hcodecs : codecs.Compatible) {channel : Channel} {index : Nat} {embedder : Embedder}
    {id : String} (hchannel : channel ∈ system.channels) (howns : system.Owns channel index)
    (hembedder : system.embedders[index]? = some embedder)
    (hdialed : (channel.peer, id) ∈ Freddie.dialed signals) : id = embedder.sessionId := by
  have hwired := Freddie.Exec.wired h.signaling
  have hsound := Execution.Exchange.Exec.sound (Freddie.Exec.server h.signaling)
  obtain ⟨post, ice, ⟨hreceived, hkind, hdecode⟩, rfl⟩ := hwired.dialed channel.peer id hdialed
  obtain ⟨consumer, config, candidates, offer, answer, _, hconfig, hpayload, hagreed⟩ :=
    hwired.agreed hcodecs hsound hreceived hkind
  -- the peer proxy has applied one offer, which only one consumer session has made
  obtain ⟨⟨made, hlocal, hremote⟩, _⟩ := (h.joined channel hchannel).1
  rw [h.remotes] at hremote
  obtain rfl := (hagreed.offerApplied made).mp hremote
  have hoffered := hagreed.offered
  rw [← h.locals] at hoffered
  obtain rfl := Party.consumer.inj (h.distinct _ _ _ hlocal hoffered)
  obtain ⟨owner, found, howner, hfound, hid⟩ := h.owned _ config hconfig
  obtain rfl := Option.some.inj (howner.symm.trans howns)
  obtain rfl := Option.some.inj (hfound.symm.trans hembedder)
  exact (hcodecs.ice _ _ _ hpayload hdecode).trans hid

/-- The traffic of a connection that is not idle goes over a WebSocket that was dialed with the
session ID of the program. -/
theorem Coupled.carries (h : Coupled codecs encode decode (signalLog log) (networkLog log) system)
    (hcodecs : codecs.Compatible) {index connection : Nat} {embedder : Embedder}
    (hembedder : system.embedders[index]? = some embedder)
    (hbusy : ¬ Network.Idle (networkLog log index) embedder.network connection) :
    system.Carries log index connection embedder.sessionId := by
  obtain ⟨channel, hmem, howns, hconnection, id, hid⟩ :=
    (h.carried index embedder connection hembedder).resolve_left hbusy
  have hsession : ∀ id, (channel.peer, id) ∈ Freddie.dialed (signalLog log) →
      id = embedder.sessionId := fun _ ↦ h.eq_sessionId hcodecs hmem howns hembedder
  exact ⟨channel, hmem, howns, hconnection, hsession id hid ▸ hid, hsession⟩

/-- An idle connection has carried nothing. -/
theorem not_idle {networks : Network.Log} {network : Network} {connection : Nat}
    (hcarried : Link.egressReceived (Network.linkLog networks connection) ≠ 0 ∨
      Link.envelopes (Network.linkLog networks connection) ≠ 0) :
    ¬ Network.Idle networks network connection := by
  intro hidle
  cases hconnection : network.connections[connection]? with
  | none =>
      have hlog := hidle.fresh (List.getElem?_eq_none_iff.mp hconnection)
      rw [hlog] at hcarried
      exact hcarried.elim (· rfl) (· rfl)
  | some found =>
      have hlink := hidle.links found hconnection
      exact hcarried.elim (· hlink.received) (· hlink.sent)

/-- The DataChannels of a peer-proxy session lead to one consumer session. The peer-proxy session
has applied one offer, and one consumer session has made it. -/
theorem Coupled.attempt_eq_of_peer (h : Coupled codecs encode decode signals networks system)
    {one two : Channel} (hone : one ∈ system.channels) (htwo : two ∈ system.channels)
    (hpeer : one.peer = two.peer) : one.attempt = two.attempt := by
  have hwired := Freddie.Exec.wired h.signaling
  have hsound := Execution.Exchange.Exec.sound (Freddie.Exec.server h.signaling)
  obtain ⟨⟨offer, hmade, happlied⟩, _⟩ := (h.joined one hone).1
  obtain ⟨⟨other, hotherMade, hotherApplied⟩, _⟩ := (h.joined two htwo).1
  rw [h.remotes] at happlied hotherApplied
  rw [← hpeer] at hotherApplied
  -- the offer that was read is the only one that the peer-proxy session applies
  obtain ⟨_, decoded, ⟨post, hreceived, hkind, _, hdecode⟩, rfl⟩ :=
    hwired.peerApplied one.peer offer happlied
  obtain rfl := hwired.eq_of_peerApplied hsound hreceived hkind hdecode hotherApplied
  exact Party.consumer.inj (h.distinct _ _ _ hmade hotherMade)

/-- A consumer session has one DataChannel, as it creates one and this one opens once. -/
theorem Coupled.eq_of_attempt (h : Coupled codecs encode decode signals networks system)
    {one two : Channel} (hone : one ∈ system.channels) (htwo : two ∈ system.channels)
    (hattempt : one.attempt = two.attempt) : one = two :=
  List.inj_on_of_nodup_map h.single.of_append_right hone htwo hattempt

/-- In every run of any number of programs that embed a consumer, of any number of consumer sessions
that they start and of any number of peer-proxy sessions, where a DataChannel opens once and only
between connections that hold each other's descriptions: what the egress receives on a connection of
a program comes over a WebSocket that was dialed with the session ID of this program and no other,
and is part of what the program sent to the address of the path on that connection. If the buffers
of a program hold its MTU, what it polls with an address was sent by the egress on such a WebSocket.
A peer-proxy session and a consumer session have one DataChannel at most. -/
theorem egress_attribution (hcodecs : codecs.Compatible)
    (hcodec : ∀ packet, decode (encode packet) = .ok packet)
    (h : Exec codecs encode decode .new log system) {index : Nat} {embedder : Embedder}
    (hembedder : system.embedders[index]? = some embedder) :
    (∀ connection, Link.egressReceived (Network.linkLog (networkLog log index) connection) ≠ 0 →
      system.Carries log index connection embedder.sessionId ∧
      ∃ path, embedder.network.pathOf connection = some path ∧
        Link.egressReceived (Network.linkLog (networkLog log index) connection) ≤
          (sentTo (Network.socketLog (networkLog log index)) path.remote : Multiset Bytes)) ∧
    ((∀ delivery ∈ deliveries (Network.socketLog (networkLog log index)),
        embedder.mtu ≤ delivery.buf) →
      ∀ remote, polledFrom (Network.socketLog (networkLog log index)) remote ≠ [] →
        ∃ connection path, embedder.network.pathOf connection = some path ∧ path.remote = remote ∧
          system.Carries log index connection embedder.sessionId ∧
          (polledFrom (Network.socketLog (networkLog log index)) remote : Multiset Bytes) ≤
            (Link.envelopes (Network.linkLog (networkLog log index) connection)).map
              (·.payload)) ∧
    ∀ one ∈ system.channels, ∀ two ∈ system.channels,
      one.peer = two.peer ∨ one.attempt = two.attempt → one = two := by
  have hcoupled := Exec.coupled h
  obtain ⟨localAddr, queueCapacity, socket, hsocket, hexec⟩ :=
    hcoupled.runs index embedder hembedder
  refine ⟨?_, ?_, ?_⟩
  · intro connection hreceived
    obtain ⟨path, hpath⟩ := Network.Exec.exists_path_of_received hsocket hexec hreceived
    exact ⟨hcoupled.carries hcodecs hembedder (not_idle (.inl hreceived)), path, hpath,
      Network.Exec.received_le_sent hsocket hexec hpath⟩
  · intro hbufs remote hpolled
    obtain ⟨connection, path, hpath, rfl⟩ :=
      Network.Exec.exists_path_of_polled hsocket hexec hbufs hpolled
    have hle := Network.Exec.polled_le_envelopes hsocket hexec hcodec hbufs hpath
    have hsent : Link.envelopes (Network.linkLog (networkLog log index) connection) ≠ 0 := by
      intro hnone
      rw [hnone, Multiset.map_zero, Multiset.le_zero, Multiset.coe_eq_zero] at hle
      exact hpolled hle
    exact ⟨connection, path, hpath, rfl,
      hcoupled.carries hcodecs hembedder (not_idle (.inr hsent)), hle⟩
  · rintro one hone two htwo (hpeer | hattempt)
    · exact hcoupled.eq_of_attempt hone htwo (hcoupled.attempt_eq_of_peer hone htwo hpeer)
    · exact hcoupled.eq_of_attempt hone htwo hattempt

/-- A consumer and a peer proxy find each other, and a datagram goes each way. -/
def sampleRun : List Op :=
  [.embed "csid" (.v4 0 0) 1200 8, .attempt 0 "tag" 8, .signal .joinPeer,
    .signal (.peer 0 (.connected (.ok ())) "r0"), .signal (.consumer 0 (.connected (.ok ())) ""),
    .signal (.consumer 0 (.channelCreated (.ok ())) ""),
    .signal (.consumer 0 (.subscribed (.ok ())) ""), .signal (.advertise 0 0 ""),
    .signal (.consumer 0 .patienceOver ""), .signal (.consumer 0 (.chosen 0) ""),
    .signal (.consumer 0 (.offerCreated (.ok ⟨.offer, "offer"⟩)) "r1"),
    .signal (.answer (.peer 0) 1 ""), .signal (.peer 0 (.remoteSet (.ok ())) ""),
    .signal (.peer 0 (.answerCreated (.ok ⟨.answer, "answer"⟩)) ""), .signal (.peer 0 .promised ""),
    .signal (.peer 0 (.localSet (.ok ())) ""), .signal (.peer 0 .gathered ""),
    .signal (.peer 0 (.described (some ⟨.answer, "answer"⟩)) "r2"),
    .signal (.answer (.consumer 0) 2 ""), .signal (.consumer 0 .promised ""),
    .signal (.consumer 0 (.localSet (.ok ())) ""), .signal (.consumer 0 (.remoteSet (.ok ())) ""),
    .connect 0 0 4 4, .signal (.consumer 0 (.gathered []) "r3"), .signal (.answer (.peer 0) 3 ""),
    .signal (.consumer 0 (.replied (.ok none)) ""), .signal (.consumer 0 (.waited .opened) ""),
    .signal (.peer 0 (.waited .opened) ""), .signal (.peer 0 (.egressConnected (.ok ())) ""),
    .embedder 0 .cloneArc, .allocate 0, .enter 0, .link 0 (.envelope ⟨"egress", [7]⟩),
    .link 0 (.relaySelect true), .link 0 .relayTaken, .link 0 (.relaySentToPeer (.ok ())),
    .link 0 (.down (.arrive 0)),
    .path 0 (.poll 0 false (.ready (.ok (some (encodePacket ⟨"egress", [7]⟩))))),
    .embedder 0 (.pollRecv [1200] 1), .embedder 0 (.lookup ⟨ConsumerPath.pathAddress 2, 0⟩ [9]),
    .embedder 0 (.enqueue ⟨ConsumerPath.pathAddress 2, 0⟩), .path 0 (.poll 0 false .pending),
    .link 0 .consumerTaken, .link 0 (.up (.arrive 0)), .link 0 (.relaySelect false),
    .link 0 .relayTaken, .link 0 .egressReceive]

/-- Both datagrams go over a WebSocket that was dialed with the session ID of the program. -/
theorem egress_attribution_of_both_ways :
    ∃ log system embedder,
      Exec (Wire.jsonCodecs Wire.DescriptionWriter.plain) encodePacket decodePacket .new log
        system ∧
      system.embedders[0]? = some embedder ∧ embedder.sessionId = "csid" ∧
      polledFrom (Network.socketLog (networkLog log 0)) (ConsumerPath.pathAddress 2) = [[7]] ∧
      Link.egressReceived (Network.linkLog (networkLog log 0) 0) = {[9]} ∧
      system.Carries log 0 0 embedder.sessionId ∧
      ∃ connection path, embedder.network.pathOf connection = some path ∧
        path.remote = ConsumerPath.pathAddress 2 ∧
        system.Carries log 0 connection embedder.sessionId ∧
        (([[7]] : List Bytes) : Multiset Bytes) ≤
          (Link.envelopes (Network.linkLog (networkLog log 0) connection)).map (·.payload) := by
  have hrun : (Execution.run (next (Wire.jsonCodecs Wire.DescriptionWriter.plain) encodePacket
      decodePacket) sampleRun ([], .new)).any (fun (log, system) ↦
        system.embedders[0]?.any (fun embedder ↦ embedder.sessionId = "csid" && embedder.mtu = 1200)
          && (deliveries (Network.socketLog (networkLog log 0))).all (fun delivery ↦
            1200 ≤ delivery.buf)
          && polledFrom (Network.socketLog (networkLog log 0)) (ConsumerPath.pathAddress 2) = [[7]]
          && Link.egressReceived (Network.linkLog (networkLog log 0) 0) = {[9]}) = true := by
    decide +kernel
  obtain ⟨⟨log, system⟩, hreached, htest⟩ := (Option.any_eq_true _ _).mp hrun
  simp only [Bool.and_eq_true, decide_eq_true_eq, List.all_eq_true, Option.any_eq_true] at htest
  obtain ⟨⟨⟨⟨embedder, hembedder, hid, hmtu⟩, hbufs⟩, hpolled⟩, hreceived⟩ := htest
  have hexec := Execution.exec_of_run hreached
  obtain ⟨hup, hdown, _⟩ := egress_attribution
    (Wire.jsonCodecs_compatible Wire.DescriptionWriter.plain)
    (decodePacket_print Json.inverted_serdeQuote) hexec hembedder
  have hcarried := hdown (by rwa [hmtu]) (ConsumerPath.pathAddress 2) (by simp [hpolled])
  rw [hpolled] at hcarried
  refine ⟨log, system, embedder, hexec, hembedder, hid, hpolled, hreceived, ?_, hcarried⟩
  exact (hup 0 (by rw [hreceived]; exact Multiset.singleton_ne_zero _)).1

end System

end Unbounded.EndToEnd
