import Unbounded.ConsumerPath.Addresses
import Unbounded.EndToEnd.Link

/-!
# Consumer paths joined to peer proxies

The whole way of a datagram: the socket of a consumer with its allocator and its path futures, and
for every connection to a peer proxy a link, on which at most one `run_consumer_path` runs. A future
polls `recv_packet` and calls `send_packet` on its own link. Every step reports what it did at the
endpoint and on a link, so that a run of the network is a run of the endpoint (`Exec.endpoint`) and
of every link (`Exec.links`).
-/

namespace Unbounded.EndToEnd

open ConsumerPath (Endpoint Paths)
open Execution (Next getElem?_append_cases getElem?_set_cases)
open VirtualUdp (Socket)

/-- A connection between the consumer and a peer proxy, with the future that runs on it. -/
structure Connection where
  link : Link
  task : Option Nat

/-- The consumer and all its connections. -/
structure Network where
  endpoint : Endpoint
  connections : List Connection

namespace Network

/-- A consumer with a new socket and no connection. -/
def new (socket : Socket) : Network :=
  ⟨.new socket, []⟩

/-- What can happen in the network. -/
inductive Op where
  | allocate
  /-- An operation of the embedder on the socket. -/
  | embedder (op : VirtualUdp.Op)
  /-- A peer proxy is connected, with datagram queues of the given capacities. -/
  | connect (upCapacity downCapacity : Nat)
  /-- Call `run_consumer_path` on a connection. -/
  | start (connection : Nat) (remote : SocketAddr) (queueCapacity : Nat)
  /-- A step of the future that runs on a connection. -/
  | path (connection : Nat) (op : ConsumerPath.Op)
  /-- A step of the DataChannel, the relay or the egress of a connection. -/
  | link (connection : Nat) (op : Link.Op)

/-- What a step did at the endpoint, and on the link of one connection, newest first. -/
structure Out where
  endpoint : Endpoint.Log
  connection : Nat
  link : Link.Log

/-- The steps of a link that are not made by the future that runs on it. -/
def external : Link.Op → Bool
  | .consumerRecv | .consumerSend _ | .consumerSent | .consumerLeft => false
  | _ => true

/-- A future that polls `recv_packet` sees what its own link returns. -/
def answers (link : Link) : ConsumerPath.Op → Bool
  | .poll _ false peer => decide (peer = link.down.recvPacket.1)
  | _ => true

/-- The packet that a future is sending. -/
def sending (paths : Paths) (task : Nat) : Option Bytes :=
  match paths.tasks[task]? with
  | some ⟨_, .sending _ packet⟩ => some packet
  | _ => none

/-- What the step of a future does on its link, when the future is now sending `packet`. -/
def linkOps (packet : Option Bytes) : ConsumerPath.Op → List Link.Op
  | .poll _ false _ => .consumerRecv :: (packet.map Link.Op.consumerSend).toList
  | .sent _ _ | .dropFuture _ => [.consumerSent]
  | .leave _ => [.consumerLeft]
  | _ => []

variable (encode : UnboundedPacket → Bytes) (decode : Bytes → Except String UnboundedPacket)

/-- One step of the network. -/
def next : Next Network Op Out
  | network, .allocate =>
      (Endpoint.next decode network.endpoint .allocate).map fun (out, endpoint) ↦
        (⟨[(.allocate, out)], 0, []⟩, { network with endpoint := endpoint })
  | network, .embedder op =>
      (Endpoint.next decode network.endpoint (.embedder op)).map fun (out, endpoint) ↦
        (⟨[(.embedder op, out)], 0, []⟩, { network with endpoint := endpoint })
  | network, .connect upCapacity downCapacity =>
      (Link.new upCapacity downCapacity).map fun link ↦
        (⟨[], 0, []⟩, { network with connections := network.connections ++ [⟨link, none⟩] })
  | network, .start index remote queueCapacity =>
      match network.connections[index]? with
      | some ⟨link, none⟩ =>
          (Endpoint.next decode network.endpoint (.start remote queueCapacity)).map
            fun (out, endpoint) ↦
              (⟨[(.start remote queueCapacity, out)], 0, []⟩,
                ⟨endpoint, network.connections.set index
                  ⟨link, some network.endpoint.paths.tasks.length⟩⟩)
      | _ => none
  | network, .path index op =>
      match network.connections[index]? with
      | some ⟨link, some task⟩ =>
          if op.task = some task ∧ answers link op then
            (Endpoint.next decode network.endpoint (.path op)).bind fun (out, endpoint) ↦
              (Execution.run (Link.next encode decode) (linkOps (sending endpoint.paths task) op)
                ([], link)).map fun (log, following) ↦
                  (⟨[(.path op, out)], index, log⟩,
                    ⟨endpoint, network.connections.set index ⟨following, some task⟩⟩)
          else none
      | _ => none
  | network, .link index op =>
      match network.connections[index]? with
      | some ⟨link, task⟩ =>
          if external op then
            (Link.next encode decode link op).map fun (out, following) ↦
              (⟨[], index, [(op, out)]⟩,
                { network with connections := network.connections.set index ⟨following, task⟩ })
          else none
      | none => none

/-- A log of the network. -/
abbrev Log := Execution.Log Op Out

/-- Executions of the network. -/
abbrev Exec := Execution.Exec (next encode decode)

/-- The steps at the endpoint in a run, newest first. -/
def endpointLog (log : Log) : Endpoint.Log :=
  log.flatMap fun entry ↦ entry.2.endpoint

/-- The operations on the socket in a run, newest first. -/
def socketLog (log : Log) : VirtualUdp.Log :=
  Endpoint.socketLog (endpointLog log)

/-- The steps on the link of a connection in a run, newest first. -/
def linkLog (log : Log) (index : Nat) : Link.Log :=
  log.flatMap fun entry ↦ if entry.2.connection = index then entry.2.link else []

/-- Everything a step of the network can be. -/
inductive Change (network : Network) : Out → Network → Prop where
  | endpoint {op out endpoint} (hop : op = .allocate ∨ ∃ embedded, op = .embedder embedded)
      (hnext : Endpoint.next decode network.endpoint op = some (out, endpoint)) :
      Change network ⟨[(op, out)], 0, []⟩ { network with endpoint := endpoint }
  | connect {upCapacity downCapacity link} (hnew : Link.new upCapacity downCapacity = some link) :
      Change network ⟨[], 0, []⟩
        { network with connections := network.connections ++ [⟨link, none⟩] }
  | start {index link remote queueCapacity out endpoint}
      (hconnection : network.connections[index]? = some ⟨link, none⟩)
      (hnext : Endpoint.next decode network.endpoint (.start remote queueCapacity) =
        some (out, endpoint)) :
      Change network ⟨[(.start remote queueCapacity, out)], 0, []⟩
        ⟨endpoint, network.connections.set index
          ⟨link, some network.endpoint.paths.tasks.length⟩⟩
  | path {index link task op out endpoint log following}
      (hconnection : network.connections[index]? = some ⟨link, some task⟩)
      (htask : op.task = some task) (hanswers : answers link op = true)
      (hnext : Endpoint.next decode network.endpoint (.path op) = some (out, endpoint))
      (hrun : Execution.run (Link.next encode decode)
        (linkOps (sending endpoint.paths task) op) ([], link) = some (log, following)) :
      Change network ⟨[(.path op, out)], index, log⟩
        ⟨endpoint, network.connections.set index ⟨following, some task⟩⟩
  | link {index link task op out following}
      (hconnection : network.connections[index]? = some ⟨link, task⟩)
      (hexternal : external op = true)
      (hnext : Link.next encode decode link op = some (out, following)) :
      Change network ⟨[], index, [(op, out)]⟩
        { network with connections := network.connections.set index ⟨following, task⟩ }

variable {encode decode} {network following : Network} {log : Log}

/-- Every step of the network is a `Change`. -/
theorem change_of_next {op : Op} {out : Out}
    (h : next encode decode network op = some (out, following)) :
    Change encode decode network out following := by
  cases op with
  | allocate =>
      simp only [next, Option.map_eq_some_iff, Prod.mk.injEq] at h
      obtain ⟨⟨result, endpoint⟩, hnext, rfl, rfl⟩ := h
      exact .endpoint (.inl rfl) hnext
  | embedder op =>
      simp only [next, Option.map_eq_some_iff, Prod.mk.injEq] at h
      obtain ⟨⟨result, endpoint⟩, hnext, rfl, rfl⟩ := h
      exact .endpoint (.inr ⟨op, rfl⟩) hnext
  | connect upCapacity downCapacity =>
      simp only [next, Option.map_eq_some_iff, Prod.mk.injEq] at h
      obtain ⟨link, hnew, rfl, rfl⟩ := h
      exact .connect hnew
  | start index remote queueCapacity =>
      simp only [next] at h
      split at h
      case h_2 => simp at h
      case h_1 link hconnection =>
        simp only [Option.map_eq_some_iff, Prod.mk.injEq] at h
        obtain ⟨⟨result, endpoint⟩, hnext, rfl, rfl⟩ := h
        exact .start hconnection hnext
  | path index op =>
      simp only [next] at h
      split at h
      case h_2 => simp at h
      case h_1 link task hconnection =>
        split at h
        case isFalse => simp at h
        case isTrue hop =>
          simp only [Option.bind_eq_some_iff, Option.map_eq_some_iff, Prod.mk.injEq] at h
          obtain ⟨⟨result, endpoint⟩, hnext, ⟨performed, moved⟩, hrun, rfl, rfl⟩ := h
          exact .path hconnection hop.1 hop.2 hnext hrun
  | link index op =>
      simp only [next] at h
      split at h
      case h_2 => simp at h
      case h_1 link task hconnection =>
        split at h
        case isFalse => simp at h
        case isTrue hexternal =>
          simp only [Option.map_eq_some_iff, Prod.mk.injEq] at h
          obtain ⟨⟨result, moved⟩, hnext, rfl, rfl⟩ := h
          exact .link hconnection hexternal hnext

/-! ## The runs of the parts -/

/-- A step of the network is a run at the endpoint. -/
theorem Change.endpoint_exec {out : Out} (h : Change encode decode network out following) :
    Endpoint.Exec decode network.endpoint out.endpoint following.endpoint := by
  cases h with
  | endpoint _ hnext => exact .snoc .refl hnext
  | connect => exact .refl
  | start _ hnext => exact .snoc .refl hnext
  | path _ _ _ hnext _ => exact .snoc .refl hnext
  | link => exact .refl

/-- A run of the network is a run at the endpoint. -/
theorem Exec.endpoint {start : Network} (h : Exec encode decode start log network) :
    Endpoint.Exec decode start.endpoint (endpointLog log) network.endpoint := by
  induction h with
  | refl => exact .refl
  | snoc _ hnext ih => exact ih.trans (change_of_next hnext).endpoint_exec

/-- Every link has run from its beginning, and a link that does not exist yet has not run. -/
structure Links (encode : UnboundedPacket → Bytes) (decode : Bytes → Except String UnboundedPacket)
    (log : Log) (network : Network) : Prop where
  exec : ∀ index connection, network.connections[index]? = some connection →
    ∃ upCapacity downCapacity start, Link.new upCapacity downCapacity = some start ∧
      Link.Exec encode decode start (linkLog log index) connection.link
  fresh : ∀ index, network.connections.length ≤ index → linkLog log index = []

/-- A step that leaves the links alone keeps their account. -/
theorem Links.frame (h : Links encode decode log network) {op : Op} {performed : Endpoint.Log}
    (hlength : following.connections.length = network.connections.length)
    (hlinks : ∀ (index : Nat) (connection : Connection),
      following.connections[index]? = some connection → ∃ old : Connection,
      network.connections[index]? = some old ∧ connection.link = old.link) :
    Links encode decode ((op, ⟨performed, 0, []⟩) :: log) following := by
  have hlog : ∀ index, linkLog ((op, ⟨performed, 0, []⟩) :: log) index = linkLog log index := by
    intro index
    simp [linkLog]
  refine ⟨fun index connection hconnection ↦ ?_, fun index hindex ↦ ?_⟩
  · obtain ⟨old, hold, hlink⟩ := hlinks index connection hconnection
    rw [hlog, hlink]
    exact h.exec index old hold
  · rw [hlog]
    exact h.fresh index (hlength ▸ hindex)

/-- A step that moves one link keeps the account of all of them. -/
theorem Links.move (h : Links encode decode log network) {op : Op} {performed : Endpoint.Log}
    {index : Nat} {connection moved : Connection} {ran : Link.Log}
    (hconnection : network.connections[index]? = some connection)
    (hran : Link.Exec encode decode connection.link ran moved.link)
    (hfollowing : following.connections = network.connections.set index moved) :
    Links encode decode ((op, ⟨performed, index, ran⟩) :: log) following := by
  have hlog : ∀ other, linkLog ((op, ⟨performed, index, ran⟩) :: log) other =
      (if index = other then ran else []) ++ linkLog log other := by
    intro other
    rfl
  refine ⟨fun other found hother ↦ ?_, fun other hother ↦ ?_⟩
  · rw [hfollowing] at hother
    rw [hlog]
    obtain ⟨rfl, rfl⟩ | ⟨hne, hold⟩ := getElem?_set_cases hother
    · obtain ⟨upCapacity, downCapacity, start, hnew, hexec⟩ := h.exec index connection hconnection
      rw [if_pos rfl]
      exact ⟨upCapacity, downCapacity, start, hnew, hexec.trans hran⟩
    · rw [if_neg hne]
      exact h.exec other found hold
  · rw [hfollowing, List.length_set] at hother
    obtain ⟨hlt, _⟩ := List.getElem?_eq_some_iff.mp hconnection
    rw [hlog, if_neg (by omega)]
    exact h.fresh other hother

/-- Every step keeps the account of the links. -/
theorem Links.step (h : Links encode decode log network) {op : Op} {out : Out}
    (hchange : Change encode decode network out following) :
    Links encode decode ((op, out) :: log) following := by
  cases hchange with
  | endpoint => exact h.frame rfl fun _ connection hconnection ↦ ⟨connection, hconnection, rfl⟩
  | @connect upCapacity downCapacity link hnew =>
      have hlog : ∀ index, linkLog ((op, ⟨[], 0, []⟩) :: log) index = linkLog log index := by
        intro index
        simp [linkLog]
      refine ⟨fun index connection hconnection ↦ ?_, fun index hindex ↦ ?_⟩
      · rw [hlog]
        obtain ⟨rfl, rfl⟩ | ⟨_, hold⟩ := getElem?_append_cases hconnection
        · rw [h.fresh _ (Nat.le_refl _)]
          exact ⟨upCapacity, downCapacity, link, hnew, .refl⟩
        · exact h.exec index connection hold
      · rw [hlog]
        rw [List.length_append, List.length_singleton] at hindex
        exact h.fresh index (by omega)
  | @start index link remote queueCapacity out endpoint hconnection _ =>
      refine h.frame (List.length_set) fun other found hother ↦ ?_
      obtain ⟨rfl, rfl⟩ | ⟨_, hold⟩ := getElem?_set_cases hother
      · exact ⟨_, hconnection, rfl⟩
      · exact ⟨found, hold, rfl⟩
  | path hconnection _ _ _ hrun =>
      exact h.move hconnection (Execution.exec_of_run hrun) rfl
  | link hconnection _ hnext => exact h.move hconnection (.snoc .refl hnext) rfl

/-- A run of the network is a run of every link. -/
theorem Exec.links {socket : Socket} (h : Exec encode decode (.new socket) log network) :
    Links encode decode log network := by
  induction h with
  | refl => exact ⟨by simp [Network.new], fun _ _ ↦ rfl⟩
  | snoc _ hnext ih => exact ih.step (change_of_next hnext)

end Network

end Unbounded.EndToEnd
