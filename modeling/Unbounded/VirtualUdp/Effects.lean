import Unbounded.VirtualUdp.Socket

/-!
# What each operation of the virtual socket changes

One statement per operation, which says when it is enabled and what every part of the socket is
afterwards. Later proofs use these statements and never unfold an operation.
-/

namespace Unbounded.VirtualUdp

open Execution (Table)
open Tokio (Channel Poll TrySend)

variable {socket following : Socket} {path : PathId}

/-- The number of paths that have not been dropped. -/
def Socket.liveCount (socket : Socket) : Nat :=
  socket.outgoing.count fun _ channel ↦ channel.receiver

/-- The number of calls in progress that hold a sender of the path. -/
def Socket.callCount (socket : Socket) (path : PathId) : Nat :=
  socket.calls.count fun _ call ↦ decide (call.route = some path)

/-- A path is live when it has an outgoing channel whose receiver exists. -/
theorem Socket.live_iff :
    socket.live path = true ↔
      ∃ channel, socket.outgoing.get path = some channel ∧ channel.receiver = true := by
  unfold live
  cases socket.outgoing.get path <;> simp

/-- A new socket has no routes. -/
theorem Socket.withOptions_routes {localAddr : SocketAddr} {mtu queueCapacity : Nat}
    (h : withOptions localAddr mtu queueCapacity = some socket) : socket.routes = ∅ := by
  unfold withOptions at h
  split at h
  case isFalse => simp at h
  case isTrue =>
    simp only [Option.some.injEq] at h
    rw [← h]

/-- A new socket has no calls in progress. -/
theorem Socket.withOptions_calls {localAddr : SocketAddr} {mtu queueCapacity : Nat}
    (h : withOptions localAddr mtu queueCapacity = some socket) (call : CallId) :
    socket.calls.get call = none := by
  unfold withOptions at h
  split at h
  case isFalse => simp at h
  case isTrue =>
    simp only [Option.some.injEq] at h
    rw [← h, Table.get_empty]

@[simp] theorem Socket.modifyOutgoing_outgoing (socket : Socket) (path : PathId)
    (change : Channel Bytes → Channel Bytes) :
    (socket.modifyOutgoing path change).outgoing = socket.outgoing.modify path change := rfl

@[simp] theorem Socket.modifyOutgoing_routes (socket : Socket) (path : PathId)
    (change : Channel Bytes → Channel Bytes) :
    (socket.modifyOutgoing path change).routes = socket.routes := rfl

@[simp] theorem Socket.modifyOutgoing_calls (socket : Socket) (path : PathId)
    (change : Channel Bytes → Channel Bytes) :
    (socket.modifyOutgoing path change).calls = socket.calls := rfl

@[simp] theorem Socket.modifyOutgoing_incoming (socket : Socket) (path : PathId)
    (change : Channel Bytes → Channel Bytes) :
    (socket.modifyOutgoing path change).incoming = socket.incoming := rfl

@[simp] theorem Socket.modifyOutgoing_arcs (socket : Socket) (path : PathId)
    (change : Channel Bytes → Channel Bytes) :
    (socket.modifyOutgoing path change).arcs = socket.arcs := rfl

@[simp] theorem Socket.modifyOutgoing_mtu (socket : Socket) (path : PathId)
    (change : Channel Bytes → Channel Bytes) :
    (socket.modifyOutgoing path change).mtu = socket.mtu := rfl

/-- Changing a channel without touching its receiver keeps the number of live paths. -/
theorem Socket.liveCount_modifyOutgoing {change : Channel Bytes → Channel Bytes}
    (h : ∀ channel, (change channel).receiver = channel.receiver) :
    (socket.modifyOutgoing path change).liveCount = socket.liveCount :=
  Table.count_modify_congr h

/-! ## Adding a path -/

/-- `add_path` was called with a new path, and these are its effects. -/
structure AddPathSpec (socket : Socket) (path : PathId) (capacity : Nat) (following : Socket) :
    Prop where
  capacity_pos : 0 < capacity
  alive : 0 < socket.arcs
  fresh : socket.outgoing.get path = none
  arcs : following.arcs = socket.arcs
  mtu : following.mtu = socket.mtu
  localAddr : following.localAddr = socket.localAddr
  incoming : following.incoming = socket.incoming.cloneSender
  calls : following.calls = socket.calls
  routes : following.routes = socket.routes.insert path.remote path
  added : ∃ channel, following.outgoing.get path = some channel ∧ channel.capacity = capacity ∧
    channel.queue = [] ∧ channel.senders = 2 ∧ channel.receiver = true
  others : ∀ other ≠ path, following.outgoing.get other =
    if socket.routes.get path.remote = some other
    then (socket.outgoing.get other).map .dropSender else socket.outgoing.get other
  liveCount : following.liveCount = socket.liveCount + 1

/-- The route table's sender of a path is the only thing `dropRouteSender` changes. -/
theorem Socket.dropRouteSender_get (socket : Socket) (remote : SocketAddr) (other : PathId) :
    (socket.dropRouteSender remote).outgoing.get other =
      if socket.routes.get remote = some other
      then (socket.outgoing.get other).map .dropSender else socket.outgoing.get other := by
  unfold dropRouteSender
  cases hroute : socket.routes.get remote with
  | none => simp
  | some current =>
      by_cases h : other = current
      · subst h
        simp
      · have hne : current ≠ other := fun heq ↦ h heq.symm
        simp [Table.get_modify, h, hne]

/-- Everything `add_path` does. -/
theorem Socket.addPath_spec {capacity : Nat} (h : socket.addPath path capacity = some following) :
    AddPathSpec socket path capacity following := by
  unfold addPath at h
  split at h
  case isFalse => simp at h
  case isTrue hguard =>
    obtain ⟨hcapacity, halive, hfresh⟩ := hguard
    simp only [Option.some.injEq] at h
    subst h
    have hreplaced : (socket.dropRouteSender path.remote).outgoing.get path = none := by
      rw [dropRouteSender_get, hfresh]
      simp
    have hlive : (socket.dropRouteSender path.remote).liveCount = socket.liveCount := by
      unfold dropRouteSender
      split
      · exact liveCount_modifyOutgoing fun channel ↦ channel.dropSender_receiver
      · rfl
    constructor
    case capacity_pos => exact hcapacity
    case alive => exact halive
    case fresh => exact hfresh
    case arcs => unfold dropRouteSender; split <;> rfl
    case mtu => unfold dropRouteSender; split <;> rfl
    case localAddr => unfold dropRouteSender; split <;> rfl
    case incoming => rfl
    case calls => unfold dropRouteSender; split <;> rfl
    case routes => rfl
    case added => exact ⟨_, Table.get_insert_same _ _ _, rfl, rfl, rfl, rfl⟩
    case others =>
      intro other hother
      show ((socket.dropRouteSender path.remote).outgoing.insert path _).get other = _
      rw [Table.get_insert, if_neg hother, dropRouteSender_get]
    case liveCount =>
      rw [← hlive]
      exact Table.count_insert _ hreplaced _

/-! ## Dropping a path -/

/-- A live path was dropped, and these are the effects. -/
structure DropPathSpec (socket : Socket) (path : PathId) (following : Socket) : Prop where
  live : socket.live path = true
  arcs : following.arcs = socket.arcs
  mtu : following.mtu = socket.mtu
  localAddr : following.localAddr = socket.localAddr
  incoming : following.incoming = socket.incoming.dropSender
  calls : following.calls = socket.calls
  routes : following.routes =
    if 0 < socket.arcs ∧ socket.routes.get path.remote = some path
    then socket.routes.erase path.remote else socket.routes
  dropped : ∀ channel, socket.outgoing.get path = some channel →
    ∃ closed, following.outgoing.get path = some closed ∧ closed.receiver = false ∧
      closed.senders = channel.senders - 1 -
        (decide (0 < socket.arcs ∧ socket.routes.get path.remote = some path)).toNat ∧
      closed.capacity = channel.capacity ∧ closed.queue = []
  others : ∀ other ≠ path, following.outgoing.get other = socket.outgoing.get other
  liveCount : following.liveCount + 1 = socket.liveCount

/-- Everything dropping a path does. -/
theorem Socket.dropPath_spec (h : socket.dropPath path = some following) :
    DropPathSpec socket path following := by
  unfold dropPath at h
  split at h
  case isFalse => simp at h
  case isTrue hlive =>
    simp only [Option.some.injEq] at h
    subst h
    obtain ⟨channel, hchannel, hreceiver⟩ := live_iff.mp hlive
    have hremoved : ∃ kept, (socket.removeRoute path).outgoing.get path = some kept ∧
        kept.receiver = true ∧ kept.capacity = channel.capacity ∧ kept.senders = channel.senders -
          (decide (0 < socket.arcs ∧ socket.routes.get path.remote = some path)).toNat := by
      unfold removeRoute
      split
      · exact ⟨channel.dropSender, by simp [hchannel], by simpa using hreceiver, rfl, by simp [*]⟩
      · exact ⟨channel, hchannel, hreceiver, rfl, by simp [*]⟩
    have hcount : (socket.removeRoute path).liveCount = socket.liveCount := by
      unfold removeRoute
      split
      · exact liveCount_modifyOutgoing fun channel ↦ channel.dropSender_receiver
      · rfl
    have hothers : ∀ other ≠ path,
        (socket.removeRoute path).outgoing.get other = socket.outgoing.get other := by
      intro other hother
      unfold removeRoute
      split
      · simp [Table.get_modify, hother]
      · rfl
    obtain ⟨kept, hkept, hkeptReceiver, hkeptCapacity, hkeptSenders⟩ := hremoved
    constructor
    case live => exact hlive
    case arcs => unfold removeRoute; split <;> rfl
    case mtu => unfold removeRoute; split <;> rfl
    case localAddr => unfold removeRoute; split <;> rfl
    case incoming => unfold removeRoute; split <;> rfl
    case calls => unfold removeRoute; split <;> rfl
    case routes => unfold removeRoute; split <;> rfl
    case dropped =>
      intro original horiginal
      rw [hchannel, Option.some.injEq] at horiginal
      subst horiginal
      refine ⟨kept.dropSender.dropReceiver, by simp [hkept], rfl, ?_, hkeptCapacity, rfl⟩
      simp only [Channel.dropReceiver_senders, Channel.dropSender_senders, hkeptSenders]
      omega
    case others =>
      intro other hother
      simp [Table.get_modify, hother, hothers other hother]
    case liveCount =>
      have hmodified := Table.count_modify hkept (fun channel ↦ channel.dropSender.dropReceiver)
        fun _ channel ↦ channel.receiver
      rw [← hcount]
      simpa [liveCount, hkeptReceiver] using hmodified

/-! ## Sending -/

/-- The first step of `try_send` found its route, and these are the effects. -/
structure LookupSpec (socket : Socket) (call : CallId) (contents : Bytes)
    (route : Option PathId) (following : Socket) : Prop where
  alive : 0 < socket.arcs
  fresh : socket.calls.get call = none
  fits : contents.length ≤ socket.mtu
  found : route = socket.routes.get call.destination
  arcs : following.arcs = socket.arcs
  mtu : following.mtu = socket.mtu
  localAddr : following.localAddr = socket.localAddr
  incoming : following.incoming = socket.incoming
  routes : following.routes = socket.routes
  calls : following.calls = socket.calls.insert call ⟨contents, route⟩
  outgoing : ∀ path, following.outgoing.get path =
    if route = some path then (socket.outgoing.get path).map .cloneSender
    else socket.outgoing.get path
  liveCount : following.liveCount = socket.liveCount

/-- The first step of `try_send` either refuses the datagram for its size and changes nothing, or
looks its route up. -/
theorem Socket.trySendLookup_spec {call : CallId} {contents : Bytes} {result : Lookup}
    (h : socket.trySendLookup call contents = some (result, following)) :
    (socket.mtu < contents.length ∧ result = .oversize contents.length socket.mtu ∧
      following = socket) ∨
    ∃ route, result = .route route ∧ LookupSpec socket call contents route following := by
  unfold trySendLookup at h
  split at h
  case isFalse => simp at h
  case isTrue hguard =>
    obtain ⟨halive, hfresh⟩ := hguard
    split at h
    case isTrue hsize =>
      simp only [Option.some.injEq, Prod.mk.injEq] at h
      exact .inl ⟨hsize, h.1.symm, h.2.symm⟩
    case isFalse hsize =>
      simp only [Option.some.injEq, Prod.mk.injEq] at h
      obtain ⟨rfl, rfl⟩ := h
      refine .inr ⟨_, rfl, ?_⟩
      cases hroute : socket.routes.get call.destination with
      | none =>
          exact ⟨halive, hfresh, by omega, hroute.symm, rfl, rfl, rfl, rfl, rfl, rfl, by simp, rfl⟩
      | some found =>
          refine ⟨halive, hfresh, by omega, hroute.symm, rfl, rfl, rfl, rfl, rfl, rfl, ?_, ?_⟩
          · intro path
            by_cases hpath : path = found
            · simp [hpath]
            · have hne : found ≠ path := fun heq ↦ hpath heq.symm
              simp [Table.get_modify, hpath, hne]
          · exact liveCount_modifyOutgoing fun channel ↦ channel.cloneSender_receiver

/-- The second step of `try_send` used the sender of a path, and these are the effects. -/
structure EnqueueSpec (socket : Socket) (call : CallId) (contents : Bytes) (path : PathId)
    (result : TrySend) (following : Socket) : Prop where
  pending : socket.calls.get call = some ⟨contents, some path⟩
  arcs : following.arcs = socket.arcs
  mtu : following.mtu = socket.mtu
  localAddr : following.localAddr = socket.localAddr
  incoming : following.incoming = socket.incoming
  routes : following.routes = socket.routes
  calls : following.calls = socket.calls.erase call
  tried : ∃ channel, socket.outgoing.get path = some channel ∧
    result = (channel.trySend contents).1 ∧
    following.outgoing.get path = some (channel.trySend contents).2.dropSender
  others : ∀ other ≠ path, following.outgoing.get other = socket.outgoing.get other
  liveCount : following.liveCount = socket.liveCount

/-- Everything the second step of `try_send` does: a call without a route is over, and a call with
one tries that path's channel. -/
theorem Socket.trySendEnqueue_spec {call : CallId} {attempt : Option (PathId × TrySend)}
    (h : socket.trySendEnqueue call = some (attempt, following)) :
    (∃ contents, socket.calls.get call = some ⟨contents, none⟩ ∧ attempt = none ∧
      following = { socket with calls := socket.calls.erase call }) ∨
    ∃ contents path result, attempt = some (path, result) ∧
      EnqueueSpec socket call contents path result following := by
  unfold trySendEnqueue at h
  split at h
  case h_1 contents path hcall =>
    split at h
    case h_2 => simp at h
    case h_1 channel hchannel =>
      simp only [Option.some.injEq, Prod.mk.injEq] at h
      obtain ⟨rfl, rfl⟩ := h
      refine .inr ⟨contents, path, _, rfl, hcall, rfl, rfl, rfl, rfl, rfl, rfl,
        ⟨channel, hchannel, rfl, by simp [hchannel]⟩, ?_, ?_⟩
      · intro other hother
        simp [Table.get_modify, hother]
      · have hcount := Table.count_modify hchannel
          (fun _ ↦ (channel.trySend contents).2.dropSender) fun _ channel ↦ channel.receiver
        simp only [Channel.dropSender_receiver, Channel.trySend_receiver] at hcount
        exact Nat.add_right_cancel hcount
  case h_2 contents hcall =>
    simp only [Option.some.injEq, Prod.mk.injEq] at h
    exact .inl ⟨contents, hcall, h.1.symm, h.2.symm⟩
  case h_3 => simp at h

/-! ## Receiving -/

/-- One poll of `next_outgoing`, and its effects. -/
structure NextOutgoingSpec (socket : Socket) (path : PathId) (result : Poll (Option Bytes))
    (following : Socket) : Prop where
  arcs : following.arcs = socket.arcs
  mtu : following.mtu = socket.mtu
  localAddr : following.localAddr = socket.localAddr
  incoming : following.incoming = socket.incoming
  routes : following.routes = socket.routes
  calls : following.calls = socket.calls
  polled : ∃ channel, socket.outgoing.get path = some channel ∧ channel.receiver = true ∧
    result = channel.recv.1 ∧ following.outgoing.get path = some channel.recv.2
  others : ∀ other ≠ path, following.outgoing.get other = socket.outgoing.get other
  liveCount : following.liveCount = socket.liveCount

/-- Everything a poll of `next_outgoing` does. -/
theorem Socket.nextOutgoing_spec {result : Poll (Option Bytes)}
    (h : socket.nextOutgoing path = some (result, following)) :
    NextOutgoingSpec socket path result following := by
  unfold nextOutgoing at h
  split at h
  case h_2 => simp at h
  case h_1 channel hchannel =>
    split at h
    case isFalse => simp at h
    case isTrue hreceiver =>
      simp only [Option.some.injEq, Prod.mk.injEq] at h
      obtain ⟨rfl, rfl⟩ := h
      refine ⟨rfl, rfl, rfl, rfl, rfl, rfl,
        ⟨channel, hchannel, hreceiver, rfl, by simp [hchannel]⟩,
        ?_, ?_⟩
      · intro other hother
        simp [Table.get_modify, hother]
      · have hcount := Table.count_modify hchannel
          (fun _ ↦ channel.recv.2) fun _ channel ↦ channel.receiver
        simp only [Channel.recv_receiver] at hcount
        exact Nat.add_right_cancel hcount

/-- Everything `try_receive` does: an oversize datagram changes nothing, and another is offered to
the incoming channel under the path's own address. -/
theorem Socket.tryReceive_spec {payload : Bytes} {result : Except PathReceiveError Unit}
    (h : socket.tryReceive path payload = some (result, following)) :
    socket.live path = true ∧
    ((socket.mtu < payload.length ∧ result = .error (.oversize payload.length socket.mtu) ∧
      following = socket) ∨
    (payload.length ≤ socket.mtu ∧
      following = { socket with
        incoming := (socket.incoming.trySend ⟨path.remote, payload⟩).2 } ∧
      result = match (socket.incoming.trySend ⟨path.remote, payload⟩).1 with
        | .sent => .ok ()
        | .full => .error .queueFull
        | .closed => .error .closed)) := by
  unfold tryReceive at h
  split at h
  case isFalse => simp at h
  case isTrue hlive =>
    refine ⟨hlive, ?_⟩
    split at h
    case isTrue hsize =>
      simp only [Option.some.injEq, Prod.mk.injEq] at h
      exact .inl ⟨hsize, h.1.symm, h.2.symm⟩
    case isFalse hsize =>
      simp only [Option.some.injEq, Prod.mk.injEq] at h
      exact .inr ⟨by omega, h.2.symm, h.1.symm⟩

/-- Everything `poll_recv` does: without a buffer or a meta slot it consumes nothing, and otherwise
it polls the incoming channel. -/
theorem Socket.pollRecv_spec {bufs : List Nat} {metas : Nat} {result : Poll PollRecv}
    (h : socket.pollRecv bufs metas = some (result, following)) :
    0 < socket.arcs ∧
    (((bufs = [] ∨ metas = 0) ∧ result = .ready .empty ∧ following = socket) ∨
    ∃ buf rest, bufs = buf :: rest ∧ 0 < metas ∧
      following = { socket with incoming := socket.incoming.recv.2 } ∧
      result = match socket.incoming.recv.1 with
        | .ready (some datagram) =>
            .ready (.datagram (datagram.payload.take (min datagram.payload.length buf)) {
              addr := datagram.remote
              len := min datagram.payload.length buf
              stride := min datagram.payload.length buf
              ecn := none
              dstIp := some socket.localAddr.ip })
        | .ready none => .ready .brokenPipe
        | .pending => .pending) := by
  unfold pollRecv at h
  split at h
  case isFalse => simp at h
  case isTrue halive =>
    refine ⟨halive, ?_⟩
    split at h
    case h_1 =>
      simp only [Option.some.injEq, Prod.mk.injEq] at h
      exact .inl ⟨.inl rfl, h.1.symm, h.2.symm⟩
    case h_2 =>
      simp only [Option.some.injEq, Prod.mk.injEq] at h
      exact .inl ⟨.inr rfl, h.1.symm, h.2.symm⟩
    case h_3 buf rest metas =>
      simp only [Option.some.injEq, Prod.mk.injEq] at h
      exact .inr ⟨buf, rest, rfl, Nat.succ_pos _, h.2.symm, h.1.symm⟩

/-! ## References to the socket -/

/-- Cloning an `Arc` changes the count alone. -/
theorem Socket.cloneArc_spec (h : socket.cloneArc = some following) :
    0 < socket.arcs ∧ following = { socket with arcs := socket.arcs + 1 } := by
  unfold cloneArc at h
  split at h
  case isFalse => simp at h
  case isTrue halive => exact ⟨halive, (Option.some.inj h).symm⟩

/-- Dropping an `Arc` changes the count alone, or destroys the socket when no call borrows it. -/
theorem Socket.dropArc_spec (h : socket.dropArc = some following) :
    (1 < socket.arcs ∧ following = { socket with arcs := socket.arcs - 1 }) ∨
    (socket.arcs = 1 ∧ socket.calls.size = 0 ∧ following = socket.destroy) := by
  unfold dropArc at h
  split at h
  case isTrue hmore => exact .inl ⟨hmore, (Option.some.inj h).symm⟩
  case isFalse =>
    split at h
    case isTrue hlast => exact .inr ⟨hlast.1, hlast.2, (Option.some.inj h).symm⟩
    case isFalse => simp at h

/-! ## One operation -/

/-- Everything one operation can be. -/
inductive Effect (socket : Socket) : Op → Out → Socket → Prop where
  | cloneArc {following : Socket} (h : socket.cloneArc = some following) :
      Effect socket .cloneArc .unit following
  | dropArc {following : Socket} (h : socket.dropArc = some following) :
      Effect socket .dropArc .unit following
  | addPath {path : PathId} {capacity : Nat} {following : Socket}
      (h : socket.addPath path capacity = some following) :
      Effect socket (.addPath path capacity) .unit following
  | dropPath {path : PathId} {following : Socket} (h : socket.dropPath path = some following) :
      Effect socket (.dropPath path) .unit following
  | lookup {call : CallId} {contents : Bytes} {result : Socket.Lookup} {following : Socket}
      (h : socket.trySendLookup call contents = some (result, following)) :
      Effect socket (.lookup call contents) (.lookup result) following
  | enqueue {call : CallId} {attempt : Option (PathId × TrySend)} {following : Socket}
      (h : socket.trySendEnqueue call = some (attempt, following)) :
      Effect socket (.enqueue call) (.sendOk attempt) following
  | nextOutgoing {path : PathId} {result : Poll (Option Bytes)} {following : Socket}
      (h : socket.nextOutgoing path = some (result, following)) :
      Effect socket (.nextOutgoing path) (.outgoing result) following
  | tryReceive {path : PathId} {payload : Bytes} {result : Except PathReceiveError Unit}
      {following : Socket}
      (h : socket.tryReceive path payload = some (result, following)) :
      Effect socket (.tryReceive path payload) (.received result) following
  | pollRecv {bufs : List Nat} {metas : Nat} {result : Poll PollRecv} {following : Socket}
      (h : socket.pollRecv bufs metas = some (result, following)) :
      Effect socket (.pollRecv bufs metas) (.polled result) following

/-- Every operation has one of the effects of `Effect`. -/
theorem effect_of_next {op : Op} {out : Out} (hnext : next socket op = some (out, following)) :
    Effect socket op out following := by
  cases op with
  | cloneArc =>
      obtain ⟨_, h, heq⟩ := Option.map_eq_some_iff.mp hnext
      cases heq
      exact .cloneArc h
  | dropArc =>
      obtain ⟨_, h, heq⟩ := Option.map_eq_some_iff.mp hnext
      cases heq
      exact .dropArc h
  | addPath path capacity =>
      obtain ⟨_, h, heq⟩ := Option.map_eq_some_iff.mp hnext
      cases heq
      exact .addPath h
  | dropPath path =>
      obtain ⟨_, h, heq⟩ := Option.map_eq_some_iff.mp hnext
      cases heq
      exact .dropPath h
  | lookup call contents =>
      obtain ⟨_, h, heq⟩ := Option.map_eq_some_iff.mp hnext
      cases heq
      exact .lookup h
  | enqueue call =>
      obtain ⟨_, h, heq⟩ := Option.map_eq_some_iff.mp hnext
      cases heq
      exact .enqueue h
  | nextOutgoing path =>
      obtain ⟨_, h, heq⟩ := Option.map_eq_some_iff.mp hnext
      cases heq
      exact .nextOutgoing h
  | tryReceive path payload =>
      obtain ⟨_, h, heq⟩ := Option.map_eq_some_iff.mp hnext
      cases heq
      exact .tryReceive h
  | pollRecv bufs metas =>
      obtain ⟨_, h, heq⟩ := Option.map_eq_some_iff.mp hnext
      cases heq
      exact .pollRecv h

/-- Every effect of `Effect` is that of an operation. -/
theorem Effect.next {op : Op} {out : Out} (h : Effect socket op out following) :
    VirtualUdp.next socket op = some (out, following) := by
  cases h with
  | cloneArc h => simp [VirtualUdp.next, h]
  | dropArc h => simp [VirtualUdp.next, h]
  | addPath h => simp [VirtualUdp.next, h]
  | dropPath h => simp [VirtualUdp.next, h]
  | lookup h => simp [VirtualUdp.next, h]
  | enqueue h => simp [VirtualUdp.next, h]
  | nextOutgoing h => simp [VirtualUdp.next, h]
  | tryReceive h => simp [VirtualUdp.next, h]
  | pollRecv h => simp [VirtualUdp.next, h]

/-! ## What an operation cannot do -/

/-- Only dropping a path makes it not live. -/
theorem live_of_next {op : Op} {out : Out} (hnext : next socket op = some (out, following))
    (hop : op ≠ .dropPath path) (hlive : socket.live path = true) :
    following.live path = true := by
  obtain ⟨channel, hchannel, hreceiver⟩ := Socket.live_iff.mp hlive
  cases effect_of_next hnext with
  | cloneArc hclone =>
      obtain ⟨_, rfl⟩ := Socket.cloneArc_spec hclone
      exact hlive
  | dropArc hdrop =>
      obtain ⟨_, rfl⟩ | ⟨_, _, rfl⟩ := Socket.dropArc_spec hdrop
      · exact hlive
      · refine Socket.live_iff.mpr ?_
        simp only [Socket.destroy, Table.get_mapValues, hchannel, Option.map_some]
        exact ⟨_, rfl, by split <;> simpa using hreceiver⟩
  | @addPath added _ _ hadd =>
      have spec := Socket.addPath_spec hadd
      have hne : path ≠ added := by
        rintro rfl
        rw [spec.fresh] at hchannel
        simp at hchannel
      refine Socket.live_iff.mpr ?_
      rw [spec.others path hne, hchannel]
      split
      · exact ⟨channel.dropSender, rfl, by simpa using hreceiver⟩
      · exact ⟨channel, rfl, hreceiver⟩
  | @dropPath droppedPath _ hdrop =>
      have hne : path ≠ droppedPath := fun heq ↦ hop (by rw [heq])
      refine Socket.live_iff.mpr ⟨channel, ?_, hreceiver⟩
      rw [(Socket.dropPath_spec hdrop).others path hne, hchannel]
  | lookup hlookup =>
      obtain ⟨_, _, rfl⟩ | ⟨route, _, spec⟩ := Socket.trySendLookup_spec hlookup
      · exact hlive
      · refine Socket.live_iff.mpr ?_
        simp only [spec.outgoing path, hchannel]
        split
        · exact ⟨channel.cloneSender, rfl, by simpa using hreceiver⟩
        · exact ⟨channel, rfl, hreceiver⟩
  | enqueue henqueue =>
      obtain ⟨_, _, _, rfl⟩ | ⟨contents, used, result, _, spec⟩ :=
        Socket.trySendEnqueue_spec henqueue
      · exact hlive
      · obtain ⟨old, hold, _, hnew⟩ := spec.tried
        by_cases hsame : path = used
        · subst hsame
          rw [hchannel, Option.some.injEq] at hold
          subst hold
          exact Socket.live_iff.mpr ⟨_, hnew, by simpa using hreceiver⟩
        · refine Socket.live_iff.mpr ⟨channel, ?_, hreceiver⟩
          simp only [spec.others path hsame, hchannel]
  | @nextOutgoing polled _ _ hpoll =>
      have spec := Socket.nextOutgoing_spec hpoll
      obtain ⟨old, hold, _, _, hnew⟩ := spec.polled
      by_cases hsame : path = polled
      · subst hsame
        rw [hchannel, Option.some.injEq] at hold
        subst hold
        exact Socket.live_iff.mpr ⟨_, hnew, by simpa using hreceiver⟩
      · refine Socket.live_iff.mpr ⟨channel, ?_, hreceiver⟩
        simp only [spec.others path hsame, hchannel]
  | tryReceive hreceive =>
      obtain ⟨_, ⟨_, _, rfl⟩ | ⟨_, rfl, _⟩⟩ := Socket.tryReceive_spec hreceive
      · exact hlive
      · exact hlive
  | pollRecv hpoll =>
      obtain ⟨_, ⟨_, _, rfl⟩ | ⟨_, _, _, _, rfl, _⟩⟩ := Socket.pollRecv_spec hpoll
      · exact hlive
      · exact hlive

/-- The number of `Arc`s after an operation. -/
def Op.arcsAfter (arcs : Nat) : Op → Nat
  | .cloneArc => arcs + 1
  | .dropArc => arcs - 1
  | _ => arcs

/-- Only cloning and dropping an `Arc` changes the number of `Arc`s. -/
theorem arcs_of_next {op : Op} {out : Out} (hnext : next socket op = some (out, following)) :
    following.arcs = op.arcsAfter socket.arcs := by
  cases effect_of_next hnext with
  | cloneArc hclone =>
      obtain ⟨_, rfl⟩ := Socket.cloneArc_spec hclone
      rfl
  | dropArc hdrop =>
      obtain ⟨_, rfl⟩ | ⟨hlast, _, rfl⟩ := Socket.dropArc_spec hdrop
      · rfl
      · simp only [Socket.destroy, Op.arcsAfter]
        omega
  | addPath hadd =>
      exact (Socket.addPath_spec hadd).arcs
  | dropPath hdrop =>
      exact (Socket.dropPath_spec hdrop).arcs
  | lookup hlookup =>
      obtain ⟨_, _, rfl⟩ | ⟨route, _, spec⟩ := Socket.trySendLookup_spec hlookup
      · rfl
      · exact spec.arcs
  | enqueue henqueue =>
      obtain ⟨_, _, _, rfl⟩ | ⟨_, _, _, _, spec⟩ := Socket.trySendEnqueue_spec henqueue
      · rfl
      · exact spec.arcs
  | nextOutgoing hpoll =>
      exact (Socket.nextOutgoing_spec hpoll).arcs
  | tryReceive hreceive =>
      obtain ⟨_, ⟨_, _, rfl⟩ | ⟨_, rfl, _⟩⟩ := Socket.tryReceive_spec hreceive
      · rfl
      · rfl
  | pollRecv hpoll =>
      obtain ⟨_, ⟨_, _, rfl⟩ | ⟨_, _, _, _, rfl, _⟩⟩ := Socket.pollRecv_spec hpoll
      · rfl
      · rfl

/-- Only the first step of a `try_send` makes it a call in progress. -/
theorem calls_of_next {op : Op} {out : Out} {call : CallId}
    (hnext : next socket op = some (out, following)) (hop : ∀ contents, op ≠ .lookup call contents)
    (hnone : socket.calls.get call = none) : following.calls.get call = none := by
  cases effect_of_next hnext with
  | cloneArc hclone =>
      obtain ⟨_, rfl⟩ := Socket.cloneArc_spec hclone
      exact hnone
  | dropArc hdrop =>
      obtain ⟨_, rfl⟩ | ⟨_, _, rfl⟩ := Socket.dropArc_spec hdrop
      · exact hnone
      · exact hnone
  | addPath hadd =>
      rw [(Socket.addPath_spec hadd).calls]
      exact hnone
  | dropPath hdrop =>
      rw [(Socket.dropPath_spec hdrop).calls]
      exact hnone
  | @lookup other contents _ _ hlookup =>
      have hne : call ≠ other := fun heq ↦ hop contents (by rw [heq])
      obtain ⟨_, _, rfl⟩ | ⟨route, _, spec⟩ := Socket.trySendLookup_spec hlookup
      · exact hnone
      · simp only [spec.calls, Table.get_insert, if_neg hne, hnone]
  | @enqueue other _ _ henqueue =>
      have herased : (socket.calls.erase other).get call = none := by
        simp [Table.get_erase, hnone]
      obtain ⟨_, _, _, rfl⟩ | ⟨_, _, _, _, spec⟩ := Socket.trySendEnqueue_spec henqueue
      · exact herased
      · simp only [spec.calls, herased]
  | nextOutgoing hpoll =>
      simp only [(Socket.nextOutgoing_spec hpoll).calls, hnone]
  | tryReceive hreceive =>
      obtain ⟨_, ⟨_, _, rfl⟩ | ⟨_, rfl, _⟩⟩ := Socket.tryReceive_spec hreceive
      · exact hnone
      · exact hnone
  | pollRecv hpoll =>
      obtain ⟨_, ⟨_, _, rfl⟩ | ⟨_, _, _, _, rfl, _⟩⟩ := Socket.pollRecv_spec hpoll
      · exact hnone
      · exact hnone

/-- Only adding and dropping a path changes the route table of a socket that stays alive, and
destroying the socket empties it. -/
theorem routes_of_next {op : Op} {out : Out} (hnext : next socket op = some (out, following))
    (hadd : ∀ path capacity, op ≠ .addPath path capacity) (hdrop : ∀ path, op ≠ .dropPath path) :
    following.routes = socket.routes ∨
      (op = .dropArc ∧ socket.arcs = 1 ∧ following.routes = ∅) := by
  cases effect_of_next hnext with
  | cloneArc hclone =>
      obtain ⟨_, rfl⟩ := Socket.cloneArc_spec hclone
      exact .inl rfl
  | dropArc hdrop =>
      obtain ⟨_, rfl⟩ | ⟨hlast, _, rfl⟩ := Socket.dropArc_spec hdrop
      · exact .inl rfl
      · exact .inr ⟨rfl, hlast, rfl⟩
  | addPath _ => exact absurd rfl (hadd _ _)
  | dropPath _ => exact absurd rfl (hdrop _)
  | lookup hlookup =>
      obtain ⟨_, _, rfl⟩ | ⟨route, _, spec⟩ := Socket.trySendLookup_spec hlookup
      · exact .inl rfl
      · exact .inl spec.routes
  | enqueue henqueue =>
      obtain ⟨_, _, _, rfl⟩ | ⟨_, _, _, _, spec⟩ := Socket.trySendEnqueue_spec henqueue
      · exact .inl rfl
      · exact .inl spec.routes
  | nextOutgoing hpoll =>
      exact .inl (Socket.nextOutgoing_spec hpoll).routes
  | tryReceive hreceive =>
      obtain ⟨_, ⟨_, _, rfl⟩ | ⟨_, rfl, _⟩⟩ := Socket.tryReceive_spec hreceive
      · exact .inl rfl
      · exact .inl rfl
  | pollRecv hpoll =>
      obtain ⟨_, ⟨_, _, rfl⟩ | ⟨_, _, _, _, rfl, _⟩⟩ := Socket.pollRecv_spec hpoll
      · exact .inl rfl
      · exact .inl rfl

end Unbounded.VirtualUdp
