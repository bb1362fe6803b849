import Unbounded.Execution.Machine
import Unbounded.Execution.Tables
import Unbounded.Net
import Unbounded.Tokio.Mpsc

/-!
# The virtual UDP socket

`src/virtual_udp.rs` as a machine. A `Socket` is a `VirtualUdpSocket` together with everything
that is shared with it: the outgoing channel of every path ever added, the `try_send` calls that
have looked their route up but not yet used it, and the number of `Arc`s. The operations are the
public ones of the file, each atomic except `try_send`, which reads the route table under its lock
(`lookup`) and sends on the channel it found after the lock is released (`enqueue`).

Channels are compared by identity in the source (`same_channel`). Here the outgoing channel of a
path is named by the path, so two channels are the same exactly when their paths are. A `PathId`
carries the remote address of the `VirtualPath`, and a `CallId` the destination of the `Transmit`,
since both are fixed for the life of the value they name.

An operation is enabled only when its caller can exist: one on the socket needs an `Arc`, one on a
path needs the path not to have been dropped, and the last `Arc` cannot go away under a `try_send`
that borrows it.
-/

namespace Unbounded.VirtualUdp

open Execution (Next Table)
open Tokio (Channel Poll TrySend)

/-- A `VirtualPath`, named by its remote address and a serial number. -/
structure PathId where
  remote : SocketAddr
  serial : Nat
  deriving DecidableEq, Repr

/-- A call of `try_send`, named by the destination of its `Transmit` and a serial number. -/
structure CallId where
  destination : SocketAddr
  serial : Nat
  deriving DecidableEq, Repr

/-- A datagram from a path, tagged with the address of that path. -/
structure ReceivedDatagram where
  remote : SocketAddr
  payload : Bytes
  deriving DecidableEq, Repr

/-- Why `try_receive` refuses a datagram. -/
inductive PathReceiveError where
  | oversize (actual mtu : Nat)
  | queueFull
  | closed
  deriving DecidableEq, Repr

/-- The locals of a `try_send` between its two steps: the datagram and the cloned route. -/
structure Call where
  contents : Bytes
  route : Option PathId
  deriving DecidableEq, Repr

/-- The socket with the state it shares with its paths and with the calls in progress. -/
structure Socket where
  localAddr : SocketAddr
  mtu : Nat
  /-- Strong references to the socket; at zero the socket has been destroyed. -/
  arcs : Nat
  incoming : Channel ReceivedDatagram
  routes : Table SocketAddr PathId
  /-- The outgoing channel of every path ever added. -/
  outgoing : Table PathId (Channel Bytes)
  calls : Table CallId Call

/-- What `poll_recv` writes next to the bytes it returns. -/
structure RecvMeta where
  addr : SocketAddr
  len : Nat
  stride : Nat
  ecn : Option UInt8
  dstIp : Option IpAddr
  deriving DecidableEq, Repr

/-- What `poll_recv` reports: nothing was asked for, one datagram copied into the first buffer
with the first meta slot filled in, or the broken pipe of a closed receive queue. -/
inductive PollRecv where
  | empty
  | datagram (bytes : Bytes) (recvMeta : RecvMeta)
  | brokenPipe
  deriving DecidableEq, Repr

namespace Socket

/-- `VirtualUdpSocket::with_options`, which panics on a zero MTU or a zero queue capacity. -/
def withOptions (localAddr : SocketAddr) (mtu queueCapacity : Nat) : Option Socket :=
  if h : 0 < mtu ∧ 0 < queueCapacity then
    some {
      localAddr := localAddr
      mtu := mtu
      arcs := 1
      incoming := .new queueCapacity h.2
      routes := ∅
      outgoing := ∅
      calls := ∅ }
  else none

/-- Change the outgoing channel of one path. -/
def modifyOutgoing (socket : Socket) (path : PathId) (change : Channel Bytes → Channel Bytes) :
    Socket :=
  { socket with outgoing := socket.outgoing.modify path change }

/-- The path has been added and not dropped: its receiver still exists. -/
def live (socket : Socket) (path : PathId) : Bool :=
  (socket.outgoing.get path).any (·.receiver)

/-- `path_count`. -/
def pathCount (socket : Socket) : Nat :=
  socket.routes.size

/-- The route table loses the sender of the path it maps an address to. -/
def dropRouteSender (socket : Socket) (remote : SocketAddr) : Socket :=
  match socket.routes.get remote with
  | some current => socket.modifyOutgoing current .dropSender
  | none => socket

/-- `add_path`, which panics on a zero capacity. The map's `insert` drops the sender it
replaces. -/
def addPath (socket : Socket) (path : PathId) (queueCapacity : Nat) : Option Socket :=
  if h : 0 < queueCapacity ∧ 0 < socket.arcs ∧ socket.outgoing.get path = none then
    let replaced := socket.dropRouteSender path.remote
    some { replaced with
      incoming := socket.incoming.cloneSender
      routes := socket.routes.insert path.remote path
      outgoing := replaced.outgoing.insert path (Channel.new queueCapacity h.1).cloneSender }
  else none

/-- `Drop for VirtualPath` up to the end of its body: the route goes if it is this path's own. -/
def removeRoute (socket : Socket) (path : PathId) : Socket :=
  if 0 < socket.arcs ∧ socket.routes.get path.remote = some path then
    { socket.modifyOutgoing path .dropSender with
      routes := socket.routes.erase path.remote }
  else socket

/-- Dropping a `VirtualPath`: its `drop`, and then its fields. -/
def dropPath (socket : Socket) (path : PathId) : Option Socket :=
  if socket.live path then
    let removed := socket.removeRoute path
    some { removed.modifyOutgoing path (fun channel ↦ channel.dropSender.dropReceiver) with
      incoming := removed.incoming.dropSender }
  else none

/-- `try_receive`. -/
def tryReceive (socket : Socket) (path : PathId) (payload : Bytes) :
    Option (Except PathReceiveError Unit × Socket) :=
  if socket.live path then
    if socket.mtu < payload.length then
      some (.error (.oversize payload.length socket.mtu), socket)
    else
      let (result, incoming) := socket.incoming.trySend ⟨path.remote, payload⟩
      some (match result with
        | .sent => .ok ()
        | .full => .error .queueFull
        | .closed => .error .closed, { socket with incoming := incoming })
  else none

/-- One poll of `next_outgoing`. -/
def nextOutgoing (socket : Socket) (path : PathId) : Option (Poll (Option Bytes) × Socket) :=
  match socket.outgoing.get path with
  | some channel =>
      if channel.receiver then
        let (result, channel) := channel.recv
        some (result, socket.modifyOutgoing path fun _ ↦ channel)
      else none
  | none => none

/-- What the first step of `try_send` returns: the size error, or the route it looked up. -/
inductive Lookup where
  | oversize (actual mtu : Nat)
  | route (found : Option PathId)
  deriving DecidableEq, Repr

/-- The first step of `try_send`: the size check and the lookup under the read lock, which clones
the sender it finds. -/
def trySendLookup (socket : Socket) (call : CallId) (contents : Bytes) :
    Option (Lookup × Socket) :=
  if 0 < socket.arcs ∧ socket.calls.get call = none then
    if socket.mtu < contents.length then
      some (.oversize contents.length socket.mtu, socket)
    else
      let route := socket.routes.get call.destination
      let cloned := match route with
        | some path => socket.modifyOutgoing path .cloneSender
        | none => socket
      some (.route route, { cloned with calls := socket.calls.insert call ⟨contents, route⟩ })
  else none

/-- The second step of `try_send`: send on the cloned sender and drop it. The call returns `Ok`
whatever the channel says. -/
def trySendEnqueue (socket : Socket) (call : CallId) :
    Option (Option (PathId × TrySend) × Socket) :=
  match socket.calls.get call with
  | some ⟨contents, some path⟩ =>
      match socket.outgoing.get path with
      | some channel =>
          let (result, channel) := channel.trySend contents
          some (some (path, result), { socket.modifyOutgoing path (fun _ ↦ channel.dropSender) with
            calls := socket.calls.erase call })
      | none => none
  | some ⟨_, none⟩ => some (none, { socket with calls := socket.calls.erase call })
  | none => none

/-- `poll_recv` with buffers of the given lengths and the given number of meta slots. -/
def pollRecv (socket : Socket) (bufs : List Nat) (metas : Nat) :
    Option (Poll PollRecv × Socket) :=
  if 0 < socket.arcs then
    match bufs, metas with
    | [], _ => some (.ready .empty, socket)
    | _, 0 => some (.ready .empty, socket)
    | buf :: _, _ + 1 =>
        let (result, incoming) := socket.incoming.recv
        some (match result with
          | .ready (some datagram) =>
              let len := min datagram.payload.length buf
              .ready (.datagram (datagram.payload.take len) {
                addr := datagram.remote
                len := len
                stride := len
                ecn := none
                dstIp := some socket.localAddr.ip })
          | .ready none => .ready .brokenPipe
          | .pending => .pending, { socket with incoming := incoming })
  else none

/-- Clone an `Arc` of the socket. -/
def cloneArc (socket : Socket) : Option Socket :=
  if 0 < socket.arcs then some { socket with arcs := socket.arcs + 1 } else none

/-- Destroying the socket drops its own sender and receiver of the incoming channel and every
sender in the route table. -/
def destroy (socket : Socket) : Socket :=
  { socket with
    arcs := 0
    incoming := socket.incoming.dropSender.dropReceiver
    routes := ∅
    outgoing := socket.outgoing.mapValues fun path channel ↦
      if socket.routes.get path.remote = some path then channel.dropSender else channel }

/-- Drop an `Arc` of the socket. -/
def dropArc (socket : Socket) : Option Socket :=
  if 1 < socket.arcs then some { socket with arcs := socket.arcs - 1 }
  else if socket.arcs = 1 ∧ socket.calls.size = 0 then some socket.destroy
  else none

end Socket

/-- The operations on the socket and on its paths. -/
inductive Op where
  | cloneArc
  | dropArc
  | addPath (path : PathId) (queueCapacity : Nat)
  | dropPath (path : PathId)
  | lookup (call : CallId) (contents : Bytes)
  | enqueue (call : CallId)
  | nextOutgoing (path : PathId)
  | tryReceive (path : PathId) (payload : Bytes)
  | pollRecv (bufs : List Nat) (metas : Nat)
  deriving DecidableEq, Repr

/-- What an operation returns to its caller. `sendOk` is the `Ok(())` of `try_send`, with the path
whose channel was tried and how that ended. -/
inductive Out where
  | unit
  | lookup (result : Socket.Lookup)
  | sendOk (attempt : Option (PathId × TrySend))
  | outgoing (result : Poll (Option Bytes))
  | received (result : Except PathReceiveError Unit)
  | polled (result : Poll PollRecv)

/-- One operation. -/
def next : Next Socket Op Out
  | socket, .cloneArc => socket.cloneArc.map (.unit, ·)
  | socket, .dropArc => socket.dropArc.map (.unit, ·)
  | socket, .addPath path capacity => (socket.addPath path capacity).map (.unit, ·)
  | socket, .dropPath path => (socket.dropPath path).map (.unit, ·)
  | socket, .lookup call contents => (socket.trySendLookup call contents).map (.map .lookup id)
  | socket, .enqueue call => (socket.trySendEnqueue call).map (.map .sendOk id)
  | socket, .nextOutgoing path => (socket.nextOutgoing path).map (.map .outgoing id)
  | socket, .tryReceive path payload => (socket.tryReceive path payload).map (.map .received id)
  | socket, .pollRecv bufs metas => (socket.pollRecv bufs metas).map (.map .polled id)

/-- A log of socket operations. -/
abbrev Log := Execution.Log Op Out

/-- Executions of the socket. -/
abbrev Exec := Execution.Exec next

end Unbounded.VirtualUdp
