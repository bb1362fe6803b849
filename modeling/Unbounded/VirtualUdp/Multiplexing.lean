import Unbounded.VirtualUdp.Traffic

/-!
# Many paths on one receive queue

The paths of a socket share the bounded queue that `poll_recv` reads. `ingress_multiplexing` says
for every run what is accepted, that `poll_recv` returns it in order with the address of the path
that accepted it, and that a receiver which splits what it was given by the stride sees one
datagram.
-/

namespace Unbounded.VirtualUdp

open Tokio (Channel)

/-- The datagrams in the first bytes of a buffer: their boundaries are at multiples of the stride,
and the last one may be smaller. The first argument bounds their number. -/
def splitByStride (stride : Nat) : Nat → Bytes → List Bytes
  | 0, data => [data]
  | bound + 1, data =>
      if data.length ≤ stride then [data]
      else data.take stride :: splitByStride stride bound (data.drop stride)

/-- What a receiver makes of a buffer and its `RecvMeta`. -/
def RecvMeta.datagrams (recvMeta : RecvMeta) (buffer : Bytes) : List Bytes :=
  splitByStride recvMeta.stride recvMeta.len (buffer.take recvMeta.len)

/-- Data that is not longer than the stride is one datagram. -/
theorem splitByStride_of_le {stride : Nat} {data : Bytes} (h : data.length ≤ stride) (bound : Nat) :
    splitByStride stride bound data = [data] := by
  cases bound with
  | zero => rfl
  | succ bound => exact if_pos h

variable {address : SocketAddr} {limit queueCapacity : Nat} {start socket following : Socket}
  {log : Log}

/-- The length that is returned is the stride, and it is that of the bytes. -/
theorem Delivers.length {delivery : Delivery} {datagram : ReceivedDatagram}
    (h : Delivers address delivery datagram) :
    delivery.recvMeta.addr = datagram.remote ∧ delivery.recvMeta.len = delivery.recvMeta.stride ∧
      delivery.bytes.length = delivery.recvMeta.len := by
  obtain ⟨hbytes, hmeta⟩ := h
  rw [hbytes, hmeta]
  refine ⟨rfl, rfl, ?_⟩
  simp only [List.length_take]
  omega

/-- A datagram that fits into the first buffer is returned whole, and is all that the receiver
sees. -/
theorem Delivers.whole {delivery : Delivery} {datagram : ReceivedDatagram}
    (h : Delivers address delivery datagram) (hfits : datagram.payload.length ≤ delivery.buf) :
    delivery.bytes = datagram.payload ∧
      delivery.recvMeta.datagrams delivery.bytes = [datagram.payload] := by
  have hlen : min datagram.payload.length delivery.buf = datagram.payload.length := by omega
  obtain ⟨hbytes, hmeta⟩ := h
  simp only [hlen, List.take_length] at hbytes hmeta
  refine ⟨hbytes, ?_⟩
  rw [hbytes, hmeta, RecvMeta.datagrams, List.take_length]
  exact splitByStride_of_le (Nat.le_refl _) _

/-- No operation changes the capacity of the receive queue. -/
theorem incoming_capacity_of_next {op : Op} {out : Out}
    (hnext : next socket op = some (out, following)) :
    following.incoming.capacity = socket.incoming.capacity := by
  cases effect_of_next hnext with
  | cloneArc hclone =>
      obtain ⟨_, rfl⟩ := Socket.cloneArc_spec hclone
      rfl
  | dropArc hdrop =>
      obtain ⟨_, rfl⟩ | ⟨_, _, rfl⟩ := Socket.dropArc_spec hdrop
      · rfl
      · rfl
  | addPath hadd => rw [(Socket.addPath_spec hadd).incoming, Channel.cloneSender_capacity]
  | dropPath hdrop => rw [(Socket.dropPath_spec hdrop).incoming, Channel.dropSender_capacity]
  | lookup hlookup =>
      obtain ⟨_, _, rfl⟩ | ⟨_, _, spec⟩ := Socket.trySendLookup_spec hlookup
      · rfl
      · rw [spec.incoming]
  | enqueue henqueue =>
      obtain ⟨_, _, _, rfl⟩ | ⟨_, _, _, _, spec⟩ := Socket.trySendEnqueue_spec henqueue
      · rfl
      · rw [spec.incoming]
  | nextOutgoing hpoll => rw [(Socket.nextOutgoing_spec hpoll).incoming]
  | tryReceive hreceive =>
      obtain ⟨_, ⟨_, _, rfl⟩ | ⟨_, rfl, _⟩⟩ := Socket.tryReceive_spec hreceive
      · rfl
      · exact Channel.trySend_capacity _ _
  | pollRecv hpoll =>
      obtain ⟨_, ⟨_, _, rfl⟩ | ⟨_, _, _, _, rfl, _⟩⟩ := Socket.pollRecv_spec hpoll
      · rfl
      · exact Channel.recv_capacity _

section Runs

variable (hstart : Socket.withOptions address limit queueCapacity = some start)
  (h : Exec start log socket)

include hstart h

/-- The receive queue has the capacity that the socket was made with. -/
theorem Exec.incoming_capacity : socket.incoming.capacity = queueCapacity := by
  induction h with
  | refl =>
      unfold Socket.withOptions at hstart
      split at hstart
      case isFalse => simp at hstart
      case isTrue =>
        simp only [Option.some.injEq] at hstart
        rw [← hstart]
        rfl
  | snoc _ hnext ih => rw [incoming_capacity_of_next hnext, ih]

/-- While the socket exists, the queue holds what was accepted and not yet returned. -/
theorem Exec.queue_length (halive : 0 < socket.arcs) :
    (accepted log).length = (deliveries log).length + socket.incoming.queue.length := by
  obtain ⟨taken, lost, heq, hlost, hdelivered⟩ := (Exec.ingress hstart h).taken
  rw [heq, hlost halive, hdelivered.length_eq]
  simp

/-- A datagram is accepted exactly when it is not too long and there is room, and one that is
refused changes nothing. -/
theorem Exec.tryReceive_iff (halive : 0 < socket.arcs) {path : PathId} {payload : Bytes}
    {result : Except PathReceiveError Unit}
    (hreceive : socket.tryReceive path payload = some (result, following)) :
    (result = .ok () ↔ payload.length ≤ limit ∧
      (accepted log).length < (deliveries log).length + queueCapacity) ∧
    (result ≠ .ok () → following = socket) := by
  have hmtu := (Exec.ingress hstart h).mtu
  have hcapacity := Exec.incoming_capacity hstart h
  have hlength := Exec.queue_length hstart h halive
  have hopen : socket.incoming.receiver = true := by
    simpa [halive] using (Exec.handles hstart h).incomingReceiver
  obtain ⟨_, ⟨hlong, rfl, rfl⟩ | ⟨hfits, rfl, rfl⟩⟩ := Socket.tryReceive_spec hreceive
  · refine ⟨?_, fun _ ↦ rfl⟩
    simp only [reduceCtorEq, false_iff]
    omega
  · obtain ⟨_, hroom, hsent, _⟩ | ⟨_, hfull, hrefused⟩ | ⟨hclosed, _⟩ :=
      socket.incoming.trySend_cases ⟨path.remote, payload⟩
    · rw [hsent]
      refine ⟨?_, fun hnot ↦ absurd rfl hnot⟩
      simp only [true_iff]
      omega
    · rw [hrefused]
      refine ⟨?_, fun _ ↦ rfl⟩
      simp only [reduceCtorEq, false_iff]
      omega
    · rw [hopen] at hclosed
      simp at hclosed

end Runs

/-- In every run of a socket with any number of paths, live and dropped: what `poll_recv` returns is
a prefix of what was accepted, in order, each datagram once, with the address of the path that
accepted it. While the socket exists, a datagram is accepted exactly when it is not longer than the
MTU and fewer than `queueCapacity` accepted ones are unread, and a refused one changes nothing. A
poll without a buffer or a meta slot changes nothing. The returned length is the stride, and with a
first buffer of at least the MTU the payload is returned whole and is the one datagram that the
receiver sees. -/
theorem ingress_multiplexing
    (hstart : Socket.withOptions address limit queueCapacity = some start)
    (h : Exec start log socket) :
    (∃ taken unread, accepted log = taken ++ unread ∧
      List.Forall₂ (fun delivery (datagram : ReceivedDatagram) ↦
        delivery.recvMeta.addr = datagram.remote ∧
        delivery.recvMeta.len = delivery.recvMeta.stride ∧
        delivery.bytes.length = delivery.recvMeta.len ∧
        delivery.bytes = datagram.payload.take delivery.buf ∧
        (limit ≤ delivery.buf → delivery.bytes = datagram.payload ∧
          delivery.recvMeta.datagrams delivery.bytes = [datagram.payload]))
        (deliveries log) taken) ∧
    (∀ path payload result following, 0 < socket.arcs →
      socket.tryReceive path payload = some (result, following) →
      (result = .ok () ↔ payload.length ≤ limit ∧
        (accepted log).length < (deliveries log).length + queueCapacity) ∧
      (result ≠ .ok () → following = socket)) ∧
    (∀ bufs metas result following, bufs = [] ∨ metas = 0 →
      socket.pollRecv bufs metas = some (result, following) →
      result = .ready .empty ∧ following = socket) := by
  have hingress := Exec.ingress hstart h
  refine ⟨?_, fun path payload result following halive hreceive ↦
    Exec.tryReceive_iff hstart h halive hreceive, fun bufs metas result following hnone hpoll ↦ ?_⟩
  · obtain ⟨taken, lost, heq, _, hdelivered⟩ := hingress.taken
    refine ⟨taken, socket.incoming.queue ++ lost, by rw [heq, List.append_assoc], ?_⟩
    have hsizes : ∀ datagram ∈ taken, datagram.payload.length ≤ limit := by
      intro datagram hmem
      refine hingress.sizes datagram ?_
      rw [heq, List.append_assoc]
      exact List.mem_append_left _ hmem
    clear heq
    generalize deliveries log = delivered at hdelivered
    induction hdelivered with
    | nil => exact .nil
    | @cons delivery datagram _ _ hdelivers _ ih =>
        have hsize := hsizes datagram List.mem_cons_self
        obtain ⟨haddr, hstride, hlen⟩ := hdelivers.length
        refine .cons ⟨haddr, hstride, hlen, ?_, fun hbuf ↦ ?_⟩
          (ih fun other hmem ↦ hsizes other (List.mem_cons_of_mem _ hmem))
        · rw [hdelivers.1, Nat.min_comm, ← List.take_take, List.take_length]
        · exact hdelivers.whole (Nat.le_trans hsize hbuf)
  · obtain ⟨_, ⟨_, rfl, rfl⟩ | ⟨buf, rest, rfl, hmetas, _⟩⟩ := Socket.pollRecv_spec hpoll
    · exact ⟨rfl, rfl⟩
    · rcases hnone with hbufs | hzero
      · simp at hbufs
      · omega

/-- Two paths on a queue for one datagram: the second path is refused, the first one is dropped, and
its datagram is still returned with its address. -/
theorem ingress_multiplexing_of_dropped_path : ∃ start log socket,
    Socket.withOptions (.v4 1 7000) 1452 1 = some start ∧ Exec start log socket ∧
    accepted log = [⟨.v4 2 443, [7, 8]⟩] ∧ (deliveries log).length = 1 ∧
    ∃ taken unread, accepted log = taken ++ unread ∧ taken.length = (deliveries log).length := by
  have hrun : Execution.run next
      [.addPath ⟨.v4 2 443, 0⟩ 4, .addPath ⟨.v4 3 443, 1⟩ 4,
        .tryReceive ⟨.v4 2 443, 0⟩ [7, 8], .tryReceive ⟨.v4 3 443, 1⟩ [9],
        .dropPath ⟨.v4 2 443, 0⟩, .pollRecv [] 1, .pollRecv [1500] 1]
      ([], (Socket.withOptions (.v4 1 7000) 1452 1).get rfl) = some (_, _) := rfl
  have hstart : Socket.withOptions (.v4 1 7000) 1452 1 = some _ := (Option.some_get rfl).symm
  have hexec : Exec _ _ _ := Execution.exec_of_run hrun
  obtain ⟨taken, unread, haccepted, hdelivered⟩ := (ingress_multiplexing hstart hexec).1
  exact ⟨_, _, _, hstart, hexec, rfl, rfl, taken, unread, haccepted, hdelivered.length_eq.symm⟩

end Unbounded.VirtualUdp
