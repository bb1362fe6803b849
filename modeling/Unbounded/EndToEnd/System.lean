import Unbounded.EndToEnd.Integrity
import Unbounded.Signaling.Safety

/-!
# The whole system

Signaling and traffic together: any number of programs that embed a consumer, each with its socket
and its session ID, the consumer sessions that they start, any number of peer-proxy sessions, the
signaling server that they share, and the DataChannels and WebSockets between them.

A DataChannel that a consumer session has created opens once, and only between two connections that
hold each other's descriptions. Every connection makes a description of its own: that is what the
certificate fingerprints and the ICE credentials in the descriptions are for. A consumer session
allocates an address, enters its path and ends it on its own DataChannel, and the relay of a
peer-proxy session runs while the session is at its relay.

A step is a step of the signaling, a step in the network of one program, or both. Its output says
which, so that a run of the system is a run of the signaling and of every network
(`EndToEnd.Attribution`).
-/

namespace Unbounded.EndToEnd

open Execution (Next)
open Rtc (SessionDescription)
open Signaling (Codecs Freddie Party)
open VirtualUdp (Socket)

/-- A program that embeds a consumer. -/
structure Embedder where
  sessionId : String
  mtu : Nat
  network : Network

/-- An open DataChannel between a consumer session and a peer-proxy session. It is a connection in
the network of the program that runs the consumer session. -/
structure Channel where
  attempt : Nat
  peer : Nat
  connection : Nat
  deriving DecidableEq, Repr

/-- The DataChannel belongs to a session. -/
def Channel.joins (channel : Channel) : Party → Bool
  | .consumer index => channel.attempt == index
  | .peer index => channel.peer == index

/-- The state of the whole system. -/
structure System where
  signaling : Freddie
  embedders : List Embedder
  /-- The program that runs each consumer session. -/
  owners : List Nat
  /-- The descriptions that connections have made, and those that they were given. -/
  locals : List (Party × SessionDescription)
  remotes : List (Party × SessionDescription)
  /-- The consumer sessions that have created a DataChannel which has not opened, once for each. -/
  created : List Nat
  channels : List Channel

namespace System

/-- A system in which nothing has happened. -/
def new : System :=
  ⟨.new, [], [], [], [], [], []⟩

/-- What can happen. -/
inductive Op where
  /-- A program makes a socket for its consumer. -/
  | embed (sessionId : String) (localAddr : SocketAddr) (mtu queueCapacity : Nat)
  /-- A program starts a consumer session. -/
  | attempt (embedder : Nat) (tag : String) (pathQueueCapacity : Nat)
  /-- A step of the signaling, of WebRTC or of a timer. -/
  | signal (op : Freddie.Op)
  /-- A DataChannel opens. -/
  | connect (attempt peer upCapacity downCapacity : Nat)
  /-- A consumer session allocates an address, enters its path, or returns from it. -/
  | allocate (attempt : Nat)
  | enter (attempt : Nat)
  | pathEnded (attempt : Nat)
  /-- An operation of a program on its socket. -/
  | embedder (index : Nat) (op : VirtualUdp.Op)
  /-- A step of the path on a DataChannel. -/
  | path (channel : Nat) (op : ConsumerPath.Op)
  /-- A step of a DataChannel, of the relay at its end, or of the WebSocket of the relay. -/
  | link (channel : Nat) (op : Link.Op)
  /-- A peer-proxy session returns from its relay. -/
  | relayed (channel : Nat) (duration : Duration)

/-- The part of the signaling and the part of one network in a step. -/
structure Out where
  signaling : Option (Freddie.Op × Freddie.Out)
  network : Option (Nat × Network.Op × Network.Out)

/-- The DataChannel of a session. -/
def channelOf (system : System) (party : Party) : Option Channel :=
  system.channels.find? (·.joins party)

/-- The connections of two sessions hold each other's descriptions. -/
def matched (system : System) (attempt peer : Nat) : Bool :=
  (system.remotes.any fun (party, offer) ↦ party = .peer peer &&
      system.locals.contains (.consumer attempt, offer)) &&
    system.remotes.any fun (party, answer) ↦ party = .consumer attempt &&
      system.locals.contains (.peer peer, answer)

/-- The steps of the signaling that the traffic has no part in. -/
def mayDo (system : System) : Freddie.Op → Bool
  | .joinConsumer _ => false
  | .consumer index (.waited .opened) _ => (system.channelOf (.consumer index)).isSome
  | .consumer _ (.allocated _) _ | .consumer _ .entered _ | .consumer _ (.pathEnded _) _ => false
  | .peer index (.waited .opened) _ => (system.channelOf (.peer index)).isSome
  | .peer _ (.relayed _ _) _ => false
  | _ => true

/-- The description that a step makes is not one that was made before. -/
def makes (system : System) (out : Freddie.Out) : Bool :=
  out.described.all fun (_, description) ↦ !(system.locals.map Prod.snd).contains description

/-- The consumer session that creates a DataChannel in a step. -/
def creates : Freddie.Op → Option Nat
  | .consumer index (.channelCreated (.ok ())) _ => some index
  | _ => none

/-- The steps of a link that its relay and its WebSocket take while there is a WebSocket. -/
def ofRelay : Link.Op → Bool
  | .relaySelect _ | .relayTaken | .relaySentToEgress _ | .relaySentToPeer _ => true
  | .envelope _ | .egressItem _ => true
  | _ => false

/-- A peer-proxy session is at its relay. -/
def relaying (system : System) (peer : Nat) : Bool :=
  match system.signaling.peers[peer]? with
  | some ⟨.relaying _, _⟩ => true
  | _ => false

/-- The address that a session has allocated and has yet to use. -/
def entering (system : System) (attempt : Nat) : Option (SocketAddr × Nat) :=
  match system.signaling.consumers[attempt]? with
  | some ⟨config, .entering remote, _⟩ => some (remote, config.pathQueueCapacity)
  | _ => none

/-- What a call of `allocate` returned. -/
def allocated (out : Network.Out) : Option (Except ConsumerPath.PathError SocketAddr) :=
  match out.endpoint with
  | [(_, .allocated result)] => some result
  | _ => none

/-- What the path on a connection returned. -/
def pathResult (network : Network) (connection : Nat) : Option ConsumerPath.PathResult :=
  match network.connections[connection]? with
  | some ⟨_, some task⟩ =>
      match network.endpoint.paths.tasks[task]? with
      | some ⟨_, .left result⟩ => result
      | _ => none
  | _ => none

/-- What the relay on a connection returned. -/
def relayResult (network : Network) (connection : Nat) :
    Option (Except (Relay.RelayError String Egress.EgressError) Relay.RelayEnd) :=
  match network.connections[connection]? with
  | some ⟨link, _⟩ =>
      match link.relay with
      | .ended result => some result
      | _ => none
  | _ => none

variable (codecs : Codecs) (encode : UnboundedPacket → Bytes)
  (decode : Bytes → Except String UnboundedPacket)

/-- A step of the signaling. -/
def signal (system : System) (op : Freddie.Op) : Option (Freddie.Out × System) :=
  (Freddie.next codecs system.signaling op).bind fun (out, signaling) ↦
    if system.makes out then
      some (out, { system with
        signaling := signaling
        locals := out.described.toList ++ system.locals
        remotes := out.applied.toList ++ system.remotes
        created := (creates op).toList ++ system.created })
    else none

/-- A step in the network of a program. -/
def traffic (system : System) (index : Nat) (op : Network.Op) : Option (Network.Out × System) :=
  system.embedders[index]?.bind fun embedder ↦
    (Network.next encode decode embedder.network op).map fun (out, network) ↦
      (out, { system with
        embedders := system.embedders.set index { embedder with network := network } })

/-- A step in which only the signaling takes part. -/
def signalOnly (system : System) (op : Freddie.Op) : Option (Out × System) :=
  (system.signal codecs op).map fun (out, following) ↦ (⟨some (op, out), none⟩, following)

/-- A step in which only a network takes part. -/
def trafficOnly (system : System) (index : Nat) (op : Network.Op) : Option (Out × System) :=
  (system.traffic encode decode index op).map fun (out, following) ↦
    (⟨none, some (index, op, out)⟩, following)

/-- A step in the network of a program, and then one of the signaling that goes on with what the
first one returned. -/
def trafficThen (system : System) (index : Nat) (op : Network.Op)
    (goOn : Network.Out → Option Freddie.Op) : Option (Out × System) :=
  (system.traffic encode decode index op).bind fun (out, middle) ↦
    (goOn out).bind fun signalOp ↦
      (middle.signal codecs signalOp).map fun (signalOut, following) ↦
        (⟨some (signalOp, signalOut), some (index, op, out)⟩, following)

/-- The DataChannel of a consumer session with the program that runs the session. -/
def attemptChannel (system : System) (attempt : Nat) : Option (Channel × Nat × Embedder) :=
  (system.channelOf (.consumer attempt)).bind fun channel ↦
    system.owners[attempt]?.bind fun owner ↦
      system.embedders[owner]?.map fun embedder ↦ (channel, owner, embedder)

/-- The DataChannel with an index, and the program at its end. -/
def channelOwner (system : System) (index : Nat) : Option (Channel × Nat × Embedder) :=
  system.channels[index]?.bind fun channel ↦
    system.owners[channel.attempt]?.bind fun owner ↦
      system.embedders[owner]?.map fun embedder ↦ (channel, owner, embedder)

/-- One step of the system. -/
def next : Next System Op Out
  | system, .embed sessionId localAddr mtu queueCapacity =>
      (Socket.withOptions localAddr mtu queueCapacity).map fun socket ↦
        (⟨none, none⟩, { system with
          embedders := system.embedders ++ [⟨sessionId, mtu, .new socket⟩] })
  | system, .attempt index tag pathQueueCapacity =>
      system.embedders[index]?.bind fun embedder ↦
        (system.signalOnly codecs
          (.joinConsumer ⟨embedder.sessionId, tag, pathQueueCapacity⟩)).map
            fun (out, following) ↦
              (out, { following with owners := following.owners ++ [index] })
  | system, .signal op => if system.mayDo op then system.signalOnly codecs op else none
  | system, .connect attempt peer upCapacity downCapacity =>
      if system.matched attempt peer ∧ attempt ∈ system.created then
        system.owners[attempt]?.bind fun owner ↦
          system.embedders[owner]?.bind fun embedder ↦
            (system.trafficOnly encode decode owner (.connect upCapacity downCapacity)).map
              fun (out, following) ↦
                (out, { following with
                  created := following.created.erase attempt
                  channels := following.channels ++
                    [⟨attempt, peer, embedder.network.connections.length⟩] })
      else none
  | system, .allocate attempt =>
      system.owners[attempt]?.bind fun owner ↦
        system.trafficThen codecs encode decode owner .allocate fun out ↦
          (allocated out).map fun result ↦ .consumer attempt (.allocated result) ""
  | system, .enter attempt =>
      (system.attemptChannel attempt).bind fun (channel, owner, _) ↦
        (system.entering attempt).bind fun (remote, queueCapacity) ↦
          system.trafficThen codecs encode decode owner
            (.start channel.connection remote queueCapacity)
            fun _ ↦ some (.consumer attempt .entered "")
  | system, .pathEnded attempt =>
      (system.attemptChannel attempt).bind fun (channel, _, embedder) ↦
        (pathResult embedder.network channel.connection).bind fun result ↦
          system.signalOnly codecs (.consumer attempt (.pathEnded result) "")
  | system, .embedder index op => system.trafficOnly encode decode index (.embedder op)
  | system, .path index op =>
      (system.channelOwner index).bind fun (channel, owner, _) ↦
        system.trafficOnly encode decode owner (.path channel.connection op)
  | system, .link index op =>
      (system.channelOwner index).bind fun (channel, owner, _) ↦
        if ofRelay op = false ∨ system.relaying channel.peer then
          system.trafficOnly encode decode owner (.link channel.connection op)
        else none
  | system, .relayed index duration =>
      (system.channelOwner index).bind fun (channel, _, embedder) ↦
        (relayResult embedder.network channel.connection).bind fun result ↦
          system.signalOnly codecs (.peer channel.peer (.relayed result duration) "")

/-- A log of the system. -/
abbrev Log := Execution.Log Op Out

/-- Executions of the system. -/
abbrev Exec := Execution.Exec (next codecs encode decode)

/-- The steps of the signaling in a run. -/
def signalLog (log : Log) : Freddie.Log :=
  log.filterMap fun entry ↦ entry.2.signaling

/-- The steps in the network of a program in a run. -/
def networkLog (log : Log) (index : Nat) : Network.Log :=
  log.filterMap fun entry ↦ entry.2.network.bind fun (owner, op, out) ↦
    if owner = index then some (op, out) else none

end System

end Unbounded.EndToEnd
