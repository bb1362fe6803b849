import Unbounded.VirtualUdp.Routing
import Mathlib.Data.List.Forall2

/-!
# The datagrams that pass through the virtual socket

The two directions of a run in terms of its log. In the outgoing direction `sentTo log remote` is
what callers passed to `try_send` for an address, and `Sends` bounds what a path is given by it:
each call of `try_send` puts its datagram into at most one queue, at most once. In the incoming
direction `accepted log` is what paths handed over with success, each with the address of its path,
and `Ingress` says that `poll_recv` takes these datagrams in order, each once.
-/

namespace Unbounded.VirtualUdp

open Execution (Table)
open Tokio (Channel Poll TrySend)

/-! ## Outgoing datagrams -/

/-- The contents passed to `try_send` for an address, oldest first. -/
def sentTo : Log → SocketAddr → List Bytes
  | [], _ => []
  | (.lookup call contents, _) :: log, remote =>
      if call.destination = remote then sentTo log remote ++ [contents] else sentTo log remote
  | _ :: log, remote => sentTo log remote

/-- The contents of the calls for an address that have reached their second step, oldest first. -/
def enqueuedTo : Log → SocketAddr → List Bytes
  | [], _ => []
  | (.enqueue call, _) :: log, remote =>
      match lookedUp log call with
      | some pending =>
          if call.destination = remote then enqueuedTo log remote ++ [pending.contents]
          else enqueuedTo log remote
      | none => enqueuedTo log remote
  | _ :: log, remote => enqueuedTo log remote

/-- The calls in progress for an address with the given contents. -/
def Socket.pendingTo (socket : Socket) (remote : SocketAddr) (contents : Bytes) : Nat :=
  socket.calls.count fun call pending ↦
    decide (call.destination = remote ∧ pending.contents = contents)

variable {limit : Nat} {log : Log} {socket following : Socket}

/-- Every datagram that reaches a queue belongs to a call of its own. -/
structure Sends (log : Log) (socket : Socket) : Prop where
  calls : ∀ remote contents, (enqueuedTo log remote).count contents +
    socket.pendingTo remote contents ≤ (sentTo log remote).count contents
  admitted : ∀ (path : PathId) contents, (admitted log path).count contents ≤
    (enqueuedTo log path.remote).count contents

/-- A step that neither starts nor ends a call keeps the account of the calls. -/
theorem Sends.frame (h : Sends log socket) {op : Op} {out : Out}
    (hcalls : following.calls = socket.calls)
    (henqueued : ∀ remote, enqueuedTo ((op, out) :: log) remote = enqueuedTo log remote)
    (hsent : ∀ remote, sentTo ((op, out) :: log) remote = sentTo log remote)
    (hadmitted : ∀ path, VirtualUdp.admitted ((op, out) :: log) path =
      VirtualUdp.admitted log path) : Sends ((op, out) :: log) following where
  calls := by
    intro remote contents
    rw [henqueued, hsent, Socket.pendingTo, hcalls]
    exact h.calls remote contents
  admitted := by
    intro path contents
    rw [henqueued, hadmitted]
    exact h.admitted path contents

/-- The account of the calls is kept when a call starts with its lookup. -/
theorem Sends.lookup (h : Sends log socket) {call : CallId} {contents : Bytes}
    {result : Socket.Lookup}
    (hlookup : socket.trySendLookup call contents = some (result, following)) :
    Sends ((.lookup call contents, .lookup result) :: log) following := by
  have hsent : ∀ remote other, (sentTo log remote).count other +
      (decide (call.destination = remote ∧ contents = other)).toNat =
      (sentTo ((.lookup call contents, .lookup result) :: log) remote).count other := by
    intro remote other
    simp only [sentTo]
    by_cases hremote : call.destination = remote
    · by_cases hcontents : contents = other <;> simp [hremote, hcontents]
    · simp [hremote]
  refine ⟨fun remote other ↦ ?_, fun path other ↦ h.admitted path other⟩
  have hold := h.calls remote other
  rw [← hsent]
  show (enqueuedTo log remote).count other + _ ≤ _
  obtain ⟨_, _, rfl⟩ | ⟨route, _, spec⟩ := Socket.trySendLookup_spec hlookup
  · omega
  · have hpending : following.pendingTo remote other = socket.pendingTo remote other +
        (decide (call.destination = remote ∧ contents = other)).toNat := by
      simp only [Socket.pendingTo, spec.calls]
      exact Table.count_insert _ spec.fresh _
    omega

/-- The account of the calls is kept when a call ends with its second step. -/
theorem Sends.enqueue (h : Sends log socket) (hhandles : Handles socket)
    (hrouting : Routing limit log socket) {call : CallId} {attempt : Option (PathId × TrySend)}
    (henqueue : socket.trySendEnqueue call = some (attempt, following)) :
    Sends ((.enqueue call, .sendOk attempt) :: log) following := by
  have hpending : ∃ pending, socket.calls.get call = some pending ∧
      following.calls = socket.calls.erase call := by
    obtain ⟨contents, hcall, _, rfl⟩ | ⟨contents, path, _, _, spec⟩ :=
      Socket.trySendEnqueue_spec henqueue
    · exact ⟨_, hcall, rfl⟩
    · exact ⟨_, spec.pending, spec.calls⟩
  obtain ⟨pending, hcall, hcalls⟩ := hpending
  have hlooked := (hrouting.calls call pending hcall).1
  have henqueued : ∀ remote contents,
      (enqueuedTo ((.enqueue call, .sendOk attempt) :: log) remote).count contents =
      (enqueuedTo log remote).count contents +
        (decide (call.destination = remote ∧ pending.contents = contents)).toNat := by
    intro remote contents
    simp only [enqueuedTo, hlooked]
    by_cases hremote : call.destination = remote
    · by_cases hcontents : pending.contents = contents <;> simp [hremote, hcontents]
    · simp [hremote]
  constructor
  case calls =>
    intro remote contents
    have hold := h.calls remote contents
    have hcount : socket.pendingTo remote contents = following.pendingTo remote contents +
        (decide (call.destination = remote ∧ pending.contents = contents)).toNat := by
      simp only [Socket.pendingTo, hcalls]
      exact Table.count_erase hcall _
    rw [henqueued]
    show _ ≤ (sentTo log remote).count contents
    omega
  case admitted =>
    intro path contents
    have hold := h.admitted path contents
    rw [henqueued]
    simp only [VirtualUdp.admitted, hlooked]
    obtain ⟨sent, route⟩ := pending
    cases route with
    | none =>
        show (VirtualUdp.admitted log path).count contents ≤ _
        omega
    | some found =>
        show (if _ then _ else _ : List Bytes).count contents ≤ _
        split
        case isFalse => omega
        case isTrue hfound =>
          -- a call's route is a path at the call's own destination
          have hdestination : call.destination = path.remote := by
            rw [← hfound.1]
            exact (hhandles.calls call sent found hcall).1.symm
          rw [List.count_append, List.count_singleton]
          by_cases hcontents : sent = contents <;> simp [hcontents, hdestination] <;> omega

/-- Every operation keeps the account of the calls. -/
theorem Sends.step (h : Sends log socket) (hhandles : Handles socket)
    (hrouting : Routing limit log socket) {op : Op} {out : Out}
    (hnext : next socket op = some (out, following)) : Sends ((op, out) :: log) following := by
  have hframe : following.calls = socket.calls →
      (∀ remote, enqueuedTo ((op, out) :: log) remote = enqueuedTo log remote) →
      (∀ remote, sentTo ((op, out) :: log) remote = sentTo log remote) →
      (∀ path, VirtualUdp.admitted ((op, out) :: log) path = VirtualUdp.admitted log path) →
      Sends ((op, out) :: log) following := h.frame
  cases effect_of_next hnext with
  | cloneArc hclone =>
      obtain ⟨_, rfl⟩ := Socket.cloneArc_spec hclone
      exact hframe rfl (fun _ ↦ rfl) (fun _ ↦ rfl) (fun _ ↦ rfl)
  | dropArc hdrop =>
      obtain ⟨_, rfl⟩ | ⟨_, _, rfl⟩ := Socket.dropArc_spec hdrop
      · exact hframe rfl (fun _ ↦ rfl) (fun _ ↦ rfl) (fun _ ↦ rfl)
      · exact hframe rfl (fun _ ↦ rfl) (fun _ ↦ rfl) (fun _ ↦ rfl)
  | addPath hadd =>
      exact hframe (Socket.addPath_spec hadd).calls (fun _ ↦ rfl) (fun _ ↦ rfl) (fun _ ↦ rfl)
  | dropPath hdrop =>
      exact hframe (Socket.dropPath_spec hdrop).calls (fun _ ↦ rfl) (fun _ ↦ rfl) (fun _ ↦ rfl)
  | lookup hlookup => exact h.lookup hlookup
  | enqueue henqueue => exact h.enqueue hhandles hrouting henqueue
  | nextOutgoing hpoll =>
      exact hframe (Socket.nextOutgoing_spec hpoll).calls (fun _ ↦ rfl) (fun _ ↦ rfl) (fun _ ↦ rfl)
  | tryReceive hreceive =>
      obtain ⟨_, ⟨_, _, rfl⟩ | ⟨_, rfl, _⟩⟩ := Socket.tryReceive_spec hreceive
      · exact hframe rfl (fun _ ↦ rfl) (fun _ ↦ rfl) (fun _ ↦ rfl)
      · exact hframe rfl (fun _ ↦ rfl) (fun _ ↦ rfl) (fun _ ↦ rfl)
  | pollRecv hpoll =>
      obtain ⟨_, ⟨_, _, rfl⟩ | ⟨_, _, _, _, rfl, _⟩⟩ := Socket.pollRecv_spec hpoll
      · exact hframe rfl (fun _ ↦ rfl) (fun _ ↦ rfl) (fun _ ↦ rfl)
      · exact hframe rfl (fun _ ↦ rfl) (fun _ ↦ rfl) (fun _ ↦ rfl)

/-! ## Incoming datagrams -/

/-- A datagram that `poll_recv` returned, with the length of the buffer it was given. -/
structure Delivery where
  buf : Nat
  bytes : Bytes
  recvMeta : RecvMeta

/-- The datagrams that `poll_recv` returned, oldest first. -/
def deliveries : Log → List Delivery
  | [] => []
  | (.pollRecv (buf :: _) _, .polled (.ready (.datagram bytes recvMeta))) :: log =>
      deliveries log ++ [⟨buf, bytes, recvMeta⟩]
  | _ :: log => deliveries log

/-- The datagrams that `try_receive` accepted, oldest first. -/
def accepted : Log → List ReceivedDatagram
  | [] => []
  | (.tryReceive path payload, .received (.ok ())) :: log =>
      accepted log ++ [⟨path.remote, payload⟩]
  | _ :: log => accepted log

/-- The datagrams that `try_receive` put to the incoming channel, oldest first. An oversize payload
is refused before the channel is tried. -/
def submitted : Log → List ReceivedDatagram
  | [] => []
  | (.tryReceive _ _, .received (.error (.oversize _ _))) :: log => submitted log
  | (.tryReceive path payload, .received _) :: log => submitted log ++ [⟨path.remote, payload⟩]
  | _ :: log => submitted log

/-- The payloads passed to `try_receive` on a path, oldest first. -/
def offered : Log → PathId → List Bytes
  | [], _ => []
  | (.tryReceive receiver payload, _) :: log, path =>
      if receiver = path then offered log path ++ [payload] else offered log path
  | _ :: log, path => offered log path

/-- The datagrams that `poll_recv` returned with an address, oldest first. -/
def polledFrom (log : Log) (remote : SocketAddr) : List Bytes :=
  (deliveries log).filterMap fun delivery ↦
    if delivery.recvMeta.addr = remote then some delivery.bytes else none

/-- The datagrams that `try_receive` accepted at an address, oldest first. -/
def acceptedFrom (log : Log) (remote : SocketAddr) : List Bytes :=
  (accepted log).filterMap fun datagram ↦
    if datagram.remote = remote then some datagram.payload else none

/-- A delivery returns a datagram, cut to the buffer, with its address and its length. -/
def Delivers (address : SocketAddr) (delivery : Delivery) (datagram : ReceivedDatagram) : Prop :=
  let len := min datagram.payload.length delivery.buf
  delivery.bytes = datagram.payload.take len ∧
    delivery.recvMeta = ⟨datagram.remote, len, len, none, some address.ip⟩

/-- Deliveries take the accepted datagrams in order, each once. What a destroyed socket had queued
is lost. -/
structure Ingress (address : SocketAddr) (limit : Nat) (log : Log) (socket : Socket) : Prop where
  localAddr : socket.localAddr = address
  mtu : socket.mtu = limit
  taken : ∃ taken lost, accepted log = taken ++ socket.incoming.queue ++ lost ∧
    (0 < socket.arcs → lost = []) ∧ List.Forall₂ (Delivers address) (deliveries log) taken
  sizes : ∀ datagram ∈ accepted log, datagram.payload.length ≤ limit

variable {address : SocketAddr}

/-- Nothing has arrived at a new socket. -/
theorem Ingress.withOptions {queueCapacity : Nat}
    (h : Socket.withOptions address limit queueCapacity = some socket) :
    Ingress address limit [] socket := by
  unfold Socket.withOptions at h
  split at h
  case isFalse => simp at h
  case isTrue =>
    simp only [Option.some.injEq] at h
    subst h
    refine ⟨rfl, rfl, ⟨[], [], rfl, fun _ ↦ rfl, .nil⟩, ?_⟩
    simp [accepted]

/-- A step that leaves the incoming channel's queue alone keeps the account. -/
theorem Ingress.frame (h : Ingress address limit log socket) {op : Op} {out : Out}
    (hlocal : following.localAddr = socket.localAddr) (hmtu : following.mtu = socket.mtu)
    (harcs : 0 < following.arcs → 0 < socket.arcs)
    (hqueue : following.incoming.queue = socket.incoming.queue)
    (haccepted : accepted ((op, out) :: log) = accepted log)
    (hdeliveries : deliveries ((op, out) :: log) = deliveries log) :
    Ingress address limit ((op, out) :: log) following := by
  obtain ⟨taken, lost, heq, hlost, hdelivered⟩ := h.taken
  refine ⟨hlocal.trans h.localAddr, hmtu.trans h.mtu, ⟨taken, lost, ?_, ?_, ?_⟩, ?_⟩
  · rw [haccepted, hqueue, heq]
  · exact fun halive ↦ hlost (harcs halive)
  · rw [hdeliveries]
    exact hdelivered
  · rw [haccepted]
    exact h.sizes

/-- A datagram that a path hands over joins the queue, or is refused. -/
theorem Ingress.tryReceive (h : Ingress address limit log socket) (hhandles : Handles socket)
    {path : PathId} {payload : Bytes} {result : Except PathReceiveError Unit}
    (hreceive : socket.tryReceive path payload = some (result, following)) :
    Ingress address limit ((.tryReceive path payload, .received result) :: log) following := by
  obtain ⟨_, ⟨_, rfl, rfl⟩ | ⟨hfits, rfl, rfl⟩⟩ := Socket.tryReceive_spec hreceive
  · exact h.frame rfl rfl id rfl rfl rfl
  · obtain ⟨hopen, _, hsent, hqueue⟩ | ⟨_, _, hfull⟩ | ⟨_, hclosed⟩ :=
      socket.incoming.trySend_cases ⟨path.remote, payload⟩
    · obtain ⟨taken, lost, heq, hlost, hdelivered⟩ := h.taken
      have halive : 0 < socket.arcs := by
        simpa [hopen] using hhandles.incomingReceiver
      rw [hlost halive, List.append_nil] at heq
      refine ⟨h.localAddr, h.mtu, ⟨taken, [], ?_, fun _ ↦ rfl, ?_⟩, ?_⟩
      · simp only [hsent, accepted, hqueue, heq, List.append_assoc, List.append_nil]
      · simpa only [hsent, deliveries] using hdelivered
      · simp only [hsent, accepted]
        intro datagram hmem
        rw [List.mem_append, List.mem_singleton] at hmem
        rcases hmem with hold | rfl
        · exact h.sizes datagram hold
        · exact hfits.trans_eq h.mtu
    · exact h.frame rfl rfl id (by simp [hfull]) (by simp [hfull, accepted]) rfl
    · exact h.frame rfl rfl id (by simp [hclosed]) (by simp [hclosed, accepted]) rfl

/-- A poll takes the oldest datagram of the queue, or nothing. -/
theorem Ingress.pollRecv (h : Ingress address limit log socket) {bufs : List Nat} {metas : Nat}
    {result : Poll PollRecv} (hpoll : socket.pollRecv bufs metas = some (result, following)) :
    Ingress address limit ((.pollRecv bufs metas, .polled result) :: log) following := by
  obtain ⟨halive, ⟨_, rfl, rfl⟩ | ⟨buf, rest, rfl, _, rfl, rfl⟩⟩ := Socket.pollRecv_spec hpoll
  · exact h.frame rfl rfl id rfl rfl (by cases bufs <;> rfl)
  · obtain ⟨datagram, queued, hqueue, hready, hrest⟩ | ⟨_, _, hend⟩ | ⟨_, _, hpending⟩ :=
      socket.incoming.recv_cases
    · obtain ⟨taken, lost, heq, hlost, hdelivered⟩ := h.taken
      rw [hlost halive, List.append_nil, hqueue] at heq
      refine ⟨h.localAddr, h.mtu, ⟨taken ++ [datagram], [], ?_, fun _ ↦ rfl, ?_⟩, h.sizes⟩
      · simp only [accepted, heq, hrest, List.append_assoc, List.singleton_append, List.append_nil]
      · simp only [hready, deliveries]
        refine List.rel_append hdelivered (.cons ⟨rfl, ?_⟩ .nil)
        rw [← h.localAddr]
    · exact h.frame rfl rfl id (by simp [hend]) rfl (by simp [hend, deliveries])
    · exact h.frame rfl rfl id (by simp [hpending]) rfl (by simp [hpending, deliveries])

/-- Every operation keeps the account. -/
theorem Ingress.step (h : Ingress address limit log socket) (hhandles : Handles socket) {op : Op}
    {out : Out} (hnext : next socket op = some (out, following)) :
    Ingress address limit ((op, out) :: log) following := by
  cases effect_of_next hnext with
  | cloneArc hclone =>
      obtain ⟨halive, rfl⟩ := Socket.cloneArc_spec hclone
      exact h.frame rfl rfl (fun _ ↦ halive) rfl rfl rfl
  | dropArc hdrop =>
      obtain ⟨hmore, rfl⟩ | ⟨_, _, rfl⟩ := Socket.dropArc_spec hdrop
      · exact h.frame rfl rfl (fun _ ↦ by omega) rfl rfl rfl
      · -- the destroyed socket loses its queue
        obtain ⟨taken, lost, heq, _, hdelivered⟩ := h.taken
        refine ⟨h.localAddr, h.mtu, ⟨taken, socket.incoming.queue ++ lost, ?_, ?_, hdelivered⟩,
          h.sizes⟩
        · simp only [accepted, heq, Socket.destroy, Channel.dropReceiver_queue, List.append_nil,
            List.append_assoc]
        · simp [Socket.destroy]
  | addPath hadd =>
      have spec := Socket.addPath_spec hadd
      exact h.frame spec.localAddr spec.mtu (by rw [spec.arcs]; exact id)
        (by rw [spec.incoming, Channel.cloneSender_queue]) rfl rfl
  | dropPath hdrop =>
      have spec := Socket.dropPath_spec hdrop
      exact h.frame spec.localAddr spec.mtu (by rw [spec.arcs]; exact id)
        (by rw [spec.incoming, Channel.dropSender_queue]) rfl rfl
  | lookup hlookup =>
      obtain ⟨_, _, rfl⟩ | ⟨_, _, spec⟩ := Socket.trySendLookup_spec hlookup
      · exact h.frame rfl rfl id rfl rfl rfl
      · exact h.frame spec.localAddr spec.mtu (by rw [spec.arcs]; exact id) (by rw [spec.incoming])
          rfl rfl
  | enqueue henqueue =>
      obtain ⟨_, _, _, rfl⟩ | ⟨_, _, _, _, spec⟩ := Socket.trySendEnqueue_spec henqueue
      · exact h.frame rfl rfl id rfl rfl rfl
      · exact h.frame spec.localAddr spec.mtu (by rw [spec.arcs]; exact id) (by rw [spec.incoming])
          rfl rfl
  | nextOutgoing hpoll =>
      have spec := Socket.nextOutgoing_spec hpoll
      exact h.frame spec.localAddr spec.mtu (by rw [spec.arcs]; exact id) (by rw [spec.incoming])
        rfl rfl
  | tryReceive hreceive => exact h.tryReceive hhandles hreceive
  | pollRecv hpoll => exact h.pollRecv hpoll

section Runs

variable {queueCapacity : Nat} {start : Socket}
  (hstart : Socket.withOptions address limit queueCapacity = some start)
  (h : Exec start log socket)

include hstart h

/-- The outgoing datagrams are accounted for in every run of a new socket. -/
theorem Exec.sends : Sends log socket := by
  induction h with
  | refl =>
      have hcalls := Table.size_eq_zero_iff.mpr (Socket.withOptions_calls hstart)
      refine ⟨fun remote contents ↦ ?_, fun path contents ↦ Nat.le_refl _⟩
      have hnone : start.pendingTo remote contents = 0 :=
        Nat.eq_zero_of_le_zero (List.countP_le_length.trans_eq hcalls)
      simp [enqueuedTo, sentTo, hnone]
  | snoc hexec hnext ih =>
      exact ih.step (Exec.handles hstart hexec) (Exec.routing hstart hexec) hnext

/-- The incoming datagrams are accounted for in every run of a new socket. -/
theorem Exec.ingress : Ingress address limit log socket := by
  induction h with
  | refl => exact Ingress.withOptions hstart
  | snoc hexec hnext ih => exact ih.step (Exec.handles hstart hexec) hnext

/-- What a path yields was passed to `try_send` for its address, each datagram once. -/
theorem Exec.yielded_subperm (path : PathId) :
    (yielded log path).Subperm (sentTo log path.remote) := by
  have hsends := Exec.sends hstart h
  refine List.subperm_ext_iff.mpr fun contents _ ↦ ?_
  have hstream := ((Exec.routing hstart h).streams path).sublist.count_le contents
  have hadmitted := hsends.admitted path contents
  have hcalls := hsends.calls path.remote contents
  omega

/-- With buffers of at least the MTU, the datagrams that `poll_recv` returns with an address are the
first ones that were accepted there. -/
theorem Exec.polledFrom_prefix (hbufs : ∀ delivery ∈ deliveries log, limit ≤ delivery.buf)
    (remote : SocketAddr) : polledFrom log remote <+: acceptedFrom log remote := by
  have hingress := Exec.ingress hstart h
  obtain ⟨taken, lost, heq, _, hdelivered⟩ := hingress.taken
  have hsizes : ∀ datagram ∈ taken, datagram.payload.length ≤ limit := by
    intro datagram hmem
    refine hingress.sizes datagram ?_
    rw [heq, List.append_assoc]
    exact List.mem_append_left _ hmem
  have hsame : polledFrom log remote = taken.filterMap fun datagram ↦
      if datagram.remote = remote then some datagram.payload else none := by
    unfold polledFrom
    clear heq
    generalize deliveries log = delivered at hbufs hdelivered
    induction hdelivered with
    | nil => rfl
    | @cons delivery datagram deliveries taken hdelivers _ ih =>
        have hbuf := hbufs delivery List.mem_cons_self
        have hsize := hsizes datagram List.mem_cons_self
        have hlen : min datagram.payload.length delivery.buf = datagram.payload.length := by omega
        obtain ⟨hbytes, hmeta⟩ := hdelivers
        simp only [hlen, List.take_length] at hbytes hmeta
        simp only [List.filterMap_cons, hmeta, hbytes]
        rw [ih (fun other hmem ↦ hsizes other (List.mem_cons_of_mem _ hmem))
          (fun other hmem ↦ hbufs other (List.mem_cons_of_mem _ hmem))]
  rw [hsame, acceptedFrom, heq, List.append_assoc, List.filterMap_append]
  exact List.prefix_append _ _

end Runs

/-! ## What paths offer -/

/-- Later offers come after earlier ones. -/
theorem offered_append (later earlier : Log) (path : PathId) :
    offered (later ++ earlier) path = offered earlier path ++ offered later path := by
  induction later with
  | nil => simp [offered]
  | cons entry later ih =>
      obtain ⟨op, out⟩ := entry
      cases op with
      | tryReceive receiver payload =>
          simp only [List.cons_append, offered, ih]
          split <;> simp
      | _ => exact ih

/-- A datagram that is put forward later comes after the earlier ones. -/
theorem submitted_cons (entry : Op × Out) (log : Log) :
    submitted (entry :: log) = submitted log ++ submitted [entry] := by
  obtain ⟨op, out⟩ := entry
  cases op with
  | tryReceive path payload =>
      cases out with
      | received result =>
          rcases result with (_ | _ | _) | _ <;> simp [submitted]
      | _ => simp [submitted]
  | _ => simp [submitted]

/-- Datagrams that are put forward later come after the earlier ones. -/
theorem submitted_append (later earlier : Log) :
    submitted (later ++ earlier) = submitted earlier ++ submitted later := by
  induction later with
  | nil => simp [submitted]
  | cons entry later ih =>
      rw [List.cons_append, submitted_cons, submitted_cons entry later, ih, List.append_assoc]

/-- A later datagram comes after the earlier ones. -/
theorem yielded_cons (entry : Op × Out) (log : Log) (path : PathId) :
    yielded (entry :: log) path = yielded log path ++ yielded [entry] path := by
  obtain ⟨op, out⟩ := entry
  cases op with
  | nextOutgoing polled =>
      cases out with
      | outgoing result =>
          rcases result with _ | (_ | datagram)
          · simp [yielded]
          · simp [yielded]
          · simp only [yielded]
            split <;> simp
      | _ => simp [yielded]
  | _ => simp [yielded]

/-- Later datagrams come after earlier ones. -/
theorem yielded_append (later earlier : Log) (path : PathId) :
    yielded (later ++ earlier) path = yielded earlier path ++ yielded later path := by
  induction later with
  | nil => simp [yielded]
  | cons entry later ih =>
      rw [List.cons_append, yielded_cons, yielded_cons entry later, ih, List.append_assoc]

/-- A datagram is accepted on the path that offers it. When one path alone makes offers at an
address, what is accepted there is among its offers. -/
theorem acceptedFrom_sublist {path : PathId}
    (hpath : ∀ other, other.remote = path.remote → offered log other ≠ [] → other = path) :
    (acceptedFrom log path.remote).Sublist (offered log path) := by
  induction log with
  | nil => exact List.Sublist.refl _
  | cons entry log ih =>
      obtain ⟨op, out⟩ := entry
      have hold : ∀ other, other.remote = path.remote → offered log other ≠ [] → other = path := by
        intro other hremote hoffered
        refine hpath other hremote ?_
        rw [← List.singleton_append, offered_append]
        simp [hoffered]
      have hprevious := ih hold
      cases op with
      | tryReceive receiver payload =>
          have hgrows : (offered log path).Sublist
              (offered ((.tryReceive receiver payload, out) :: log) path) := by
            simp only [offered]
            split <;> simp
          cases out with
          | received result =>
              cases result with
              | error error => exact hprevious.trans hgrows
              | ok _ =>
                  simp only [acceptedFrom, accepted, List.filterMap_append, List.filterMap_cons,
                    List.filterMap_nil] at hprevious ⊢
                  by_cases hremote : receiver.remote = path.remote
                  · have hsame : receiver = path := hpath receiver hremote (by simp [offered])
                    simp only [offered, hsame, if_true]
                    exact hprevious.append (List.Sublist.refl _)
                  · simp only [hremote, if_false, List.append_nil]
                    exact hprevious.trans hgrows
          | _ => exact hprevious.trans hgrows
      | _ => exact hprevious

/-- A datagram that is accepted at an address was offered by a path there. -/
theorem exists_offered_of_accepted {datagram : ReceivedDatagram} (h : datagram ∈ accepted log) :
    ∃ path : PathId, path.remote = datagram.remote ∧ offered log path ≠ [] := by
  induction log with
  | nil => simp [accepted] at h
  | cons entry log ih =>
      have hmono : ∀ path, offered log path ≠ [] → offered (entry :: log) path ≠ [] := by
        intro path hoffered
        rw [← List.singleton_append, offered_append]
        simp [hoffered]
      unfold accepted at h
      split at h
      · simp at *
      · next receiver payload rest heq =>
        cases heq
        rw [List.mem_append, List.mem_singleton] at h
        rcases h with hold | rfl
        · obtain ⟨path, hremote, hoffered⟩ := ih hold
          exact ⟨path, hremote, hmono path hoffered⟩
        · exact ⟨receiver, rfl, by simp [offered]⟩
      · next heq =>
        cases heq
        obtain ⟨path, hremote, hoffered⟩ := ih h
        exact ⟨path, hremote, hmono path hoffered⟩

end Unbounded.VirtualUdp
