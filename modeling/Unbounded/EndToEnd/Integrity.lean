import Unbounded.EndToEnd.Network
import Unbounded.VirtualUdp.Traffic
import Unbounded.Wire.Packet
import Mathlib.Data.Multiset.Filter

/-!
# End-to-end integrity of datagrams

What `poll_recv` returns with an address is part of what the egress sent on the WebSocket of the
peer proxy that is connected to the path at this address, and what the egress receives on that
WebSocket is part of what was passed to `try_send` for the address. `Transfer` is what one step of a
future moves between the socket and its link, and `Pairing` is the account of a whole run. The
theorem joins it with the accounts of the links and of the socket.
-/

namespace Unbounded.EndToEnd

open ConsumerPath (Endpoint PathTask Paths)
open Execution (getElem?_set_slot getElem?_set_slot_self map_set_slot)
open VirtualUdp (PathId Socket offered yielded polledFrom acceptedFrom deliveries sentTo)

variable {encode : UnboundedPacket → Bytes} {decode : Bytes → Except String UnboundedPacket}

/-- The payload of a message that decodes. -/
def payload? (decode : Bytes → Except String UnboundedPacket) (raw : Bytes) : Option Bytes :=
  match decode raw with
  | .ok packet => some packet.payload
  | .error _ => none

/-- The payload of a single message. -/
theorem filterMap_singleton (raw : Bytes) : Multiset.filterMap (payload? decode) {raw} =
    ((payload? decode raw).toList : Multiset Bytes) := by
  cases hpayload : payload? decode raw with
  | none => exact Multiset.filterMap_cons_none _ _ hpayload
  | some payload => exact Multiset.filterMap_cons_some _ _ _ hpayload

/-! ## Envelopes -/

namespace Link

/-- The envelopes that the egress sent on a link. -/
def envelopes : Log → Multiset UnboundedPacket
  | [] => 0
  | (.envelope packet, _) :: log => packet ::ₘ envelopes log
  | _ :: log => envelopes log

/-- The packets that the egress received on a link. -/
def egressReceived (log : Log) : Multiset Bytes :=
  (log.map fun entry ↦ entry.2.egressReceived).sum

/-- Among the binary messages that the egress sends, exactly the envelopes decode. -/
theorem filterMap_entered (hcodec : ∀ packet, decode (encode packet) = .ok packet)
    {start link : Link} {log : Log} (h : Exec encode decode start log link) :
    ((downAccount encode decode).entered log).filterMap (payload? decode) =
      (envelopes log).map (·.payload) := by
  induction h with
  | refl => rfl
  | @snoc log link following op out _ hnext ih =>
      rw [Execution.Account.entered_cons, Multiset.filterMap_add, ih]
      cases op with
      | envelope packet =>
          simp only [downAccount, Op.egressSent, filterMap_singleton, payload?, hcodec, envelopes,
            Option.toList_some, Multiset.coe_singleton, Multiset.map_cons, Multiset.singleton_add]
      | egressItem item =>
          simp only [next] at hnext
          split at hnext
          case isTrue => simp at hnext
          case isFalse hnot =>
            simp only [isEnvelope] at hnot
            simp only [downAccount, Op.egressSent, envelopes]
            cases hitem : item.binary? with
            | none => simp
            | some raw =>
                cases hraw : decode raw with
                | ok packet => exact absurd (by simp [hitem, hraw, Except.isOk, Except.toBool]) hnot
                | error error => simp [filterMap_singleton, payload?, hraw]
      | _ => simp [downAccount, Op.egressSent, envelopes]

end Link

/-! ## One step of a future -/

/-- What a step of a future on a path moves between the socket and the link. -/
structure Transfer (encode : UnboundedPacket → Bytes)
    (decode : Bytes → Except String UnboundedPacket) (path : PathId) (performed : VirtualUdp.Log)
    (ran : Link.Log) : Prop where
  others : ∀ other, other ≠ path → offered performed other = [] ∧ yielded performed other = []
  downlink : (offered performed path : Multiset Bytes) ≤
    ((Link.downAccount encode decode).left ran).filterMap (payload? decode)
  uplink : (Link.upAccount encode decode).entered ran ≤ (yielded performed path : Multiset Bytes)

/-- A packet that passes the checks of a path was decoded. -/
theorem payload_of_inspect {source : Option String} {raw : Bytes} {packet : UnboundedPacket}
    (h : ConsumerPath.inspect decode source raw = .ok packet) :
    payload? decode raw = some packet.payload := by
  unfold ConsumerPath.inspect at h
  unfold payload?
  cases hdecode : decode raw with
  | error error => simp [hdecode] at h
  | ok decoded =>
      simp only [hdecode] at h
      split at h
      · simp at h
      · split at h
        · split at h
          · simp at h
          · rw [Except.ok.inj h]
        · rw [Except.ok.inj h]

/-- A step that uses neither the incoming channel nor a stream moves nothing. -/
theorem Transfer.of_quiet {path : PathId} {performed : VirtualUdp.Log} {ran : Link.Log}
    (hoffered : ∀ other, offered performed other = [])
    (hyielded : ∀ other, yielded performed other = [])
    (hgiven : (Link.upAccount encode decode).entered ran = 0) :
    Transfer encode decode path performed ran where
  others other _ := ⟨hoffered other, hyielded other⟩
  downlink := by rw [hoffered]; exact Multiset.zero_le _
  uplink := hgiven ▸ Multiset.zero_le _

namespace Network

variable {network following : Network} {log : Log}

/-- The packets that a future sends on its link in a step. -/
theorem entered_of_run {op : ConsumerPath.Op} {packet : Option Bytes} {link link' : Link}
    {ran : Link.Log} (hrun : Execution.run (Link.next encode decode) (linkOps packet op)
      ([], link) = some (ran, link')) :
    (Link.upAccount encode decode).entered ran = ((linkOps packet op).map Link.Op.given).sum := by
  have hinputs := Execution.inputs_of_run hrun
  have hentered : (Link.upAccount encode decode).entered ran =
      ((ran.map Prod.fst).map Link.Op.given).sum := by
    simp only [Execution.Account.entered, Link.upAccount, List.map_map]
    rfl
  rw [hentered, hinputs, List.map_nil, List.append_nil, List.map_reverse, List.sum_reverse]

/-- A future that does not send gives its link no packet. -/
theorem sum_given_none (op : ConsumerPath.Op) : ((linkOps none op).map Link.Op.given).sum = 0 := by
  cases op with
  | poll task cancelled peer => cases cancelled <;> rfl
  | _ => rfl

/-- The packet that a future is sending after it moved. -/
theorem sending_move {paths : Paths} {index : Nat} {task : PathTask}
    (htask : paths.tasks[index]? = some task) (socket : Socket) (path : PathId)
    (control : ConsumerPath.Control) :
    sending ({ paths with socket := socket }.move index path control) index =
      match control with
      | .sending _ packet => some packet
      | _ => none := by
  unfold sending
  have hslot : ({ paths with socket := socket }.move index path control).tasks[index]? =
      some ⟨path, control⟩ := getElem?_set_slot_self htask _
  rw [hslot]
  cases control <;> rfl

/-- What a step of a future moves between the socket and its link. -/
theorem transfer_of_change {paths paths' : Paths} {task : Nat} {op : ConsumerPath.Op}
    {performed : VirtualUdp.Log} {link link' : Link} {ran : Link.Log}
    (htask : op.task = some task) (hanswers : answers link op = true)
    (hchange : ConsumerPath.Change decode paths op performed paths')
    (hrun : Execution.run (Link.next encode decode) (linkOps (sending paths' task) op)
      ([], link) = some (ran, link')) :
    ∃ found : PathTask, paths.tasks[task]? = some found ∧
      Transfer encode decode found.path performed ran := by
  have hentered := entered_of_run hrun
  cases hchange with
  | embedder => simp [ConsumerPath.Op.task] at htask
  | start => simp [ConsumerPath.Op.task] at htask
  | @turn op index found control hop _ hfound _ hquiet =>
      obtain rfl : index = task := Option.some.inj (hop.symm.trans htask)
      have hsending : sending (paths.move index found.path control) index = none := by
        refine (sending_move hfound paths.socket found.path control).trans ?_
        cases control <;> first | rfl | exact absurd hquiet id
      rw [hsending, sum_given_none] at hentered
      exact ⟨found, hfound, .of_quiet (fun _ ↦ rfl) (fun _ ↦ rfl) hentered⟩
  | @received index path source raw packet result socket hfound hinspect _ =>
      obtain rfl : index = task := Option.some.inj htask
      have hsending : sending ({ paths with socket := socket }.move index path
          (.afterReceive packet.sourceAddr result)) index = none := by
        refine (sending_move hfound socket path _).trans ?_
        rcases result with (_ | _ | _) | _ <;> rfl
      simp only [answers, decide_eq_true_eq] at hanswers
      rw [hsending] at hentered hrun
      rw [sum_given_none] at hentered
      refine ⟨_, hfound, ?_, ?_, hentered ▸ Multiset.zero_le _⟩
      · intro other hother
        exact ⟨if_neg (Ne.symm hother), rfl⟩
      · -- the link returned the packet that the path offers to the socket
        simp only [linkOps, Option.map_none, Option.toList_none, Execution.run, Link.next,
          Option.bind_some, Option.some.injEq, Prod.mk.injEq] at hrun
        rw [← hrun.1]
        have hleft : (Link.downAccount encode decode).left
            [(.consumerRecv, .polled link.down.recvPacket.1)] = {raw} := by
          rw [← hanswers]
          rfl
        rw [hleft, filterMap_singleton, payload_of_inspect hinspect]
        simp [offered]
  | @outgoing index path source result socket hfound _ =>
      obtain rfl : index = task := Option.some.inj htask
      have hsending := sending_move hfound socket path (.afterOutgoing source result)
      rw [hsending] at hentered
      refine ⟨_, hfound, ?_, Multiset.zero_le _, ?_⟩
      · intro other hother
        refine ⟨rfl, ?_⟩
        rcases result with _ | (_ | packet)
        · rfl
        · rfl
        · exact if_neg (Ne.symm hother)
      · rw [hentered]
        rcases result with _ | (_ | packet)
        · exact Multiset.zero_le _
        · exact Multiset.zero_le _
        · refine le_of_eq ?_
          simp [linkOps, Link.Op.given, yielded, ConsumerPath.Control.afterOutgoing]
  | @leave index path result dropped socket hfound _ _ =>
      obtain rfl : index = task := Option.some.inj htask
      refine ⟨_, hfound, .of_quiet (fun _ ↦ rfl) (fun _ ↦ rfl) ?_⟩
      rw [hentered]
      rfl

/-! ## Whole runs -/

/-- The path of the future that runs on a connection. -/
def pathOf (network : Network) (index : Nat) : Option PathId :=
  (network.connections[index]?.bind Connection.task).bind fun task ↦
    network.endpoint.paths.tasks[task]?.map PathTask.path

/-- The account of the paths and of the connections they run on. -/
structure Pairing (encode : UnboundedPacket → Bytes)
    (decode : Bytes → Except String UnboundedPacket) (log : Log) (network : Network) : Prop where
  bound : ∀ (index task : Nat), network.connections[index]?.bind Connection.task = some task →
    task < network.endpoint.paths.tasks.length
  distinct : ∀ index other path, network.pathOf index = some path →
    network.pathOf other = some path → index = other
  /-- Only the paths of connections hand datagrams to the socket. -/
  users : ∀ path, offered (socketLog log) path ≠ [] → ∃ index, network.pathOf index = some path
  downlink : ∀ index path, network.pathOf index = some path →
    (offered (socketLog log) path : Multiset Bytes) ≤
      ((Link.downAccount encode decode).left (linkLog log index)).filterMap (payload? decode)
  uplink : ∀ index path, network.pathOf index = some path →
    (Link.upAccount encode decode).entered (linkLog log index) ≤
      (yielded (socketLog log) path : Multiset Bytes)
  unstarted : ∀ index, network.pathOf index = none →
    (Link.upAccount encode decode).entered (linkLog log index) = 0

/-- The operations on the socket after one more step. -/
theorem socketLog_cons (op : Op) (out : Out) (log : Log) :
    socketLog ((op, out) :: log) = Endpoint.socketLog out.endpoint ++ socketLog log :=
  Endpoint.socketLog_append _ _

/-- The steps on a link after one more step. -/
theorem linkLog_cons (op : Op) (out : Out) (log : Log) (index : Nat) :
    linkLog ((op, out) :: log) index =
      (if out.connection = index then out.link else []) ++ linkLog log index := rfl

/-- The connections of a network in which one link moved run the same futures. -/
theorem task_of_set {index : Nat} {connection : Connection} {link : Link}
    (hconnection : network.connections[index]? = some connection) (other : Nat) :
    (network.connections.set index ⟨link, connection.task⟩)[other]?.bind Connection.task =
      network.connections[other]?.bind Connection.task := by
  rw [getElem?_set_slot hconnection]
  split
  case isTrue heq =>
    subst heq
    rw [hconnection]
    rfl
  case isFalse => rfl

/-- The paths of the futures do not change while they run. -/
theorem path_of_change {paths paths' : Paths} {op : ConsumerPath.Op} {task : Nat}
    {performed : VirtualUdp.Log} (htask : op.task = some task)
    (h : ConsumerPath.Change decode paths op performed paths') :
    paths'.tasks.map PathTask.path = paths.tasks.map PathTask.path := by
  cases h with
  | embedder => rfl
  | start => simp [ConsumerPath.Op.task] at htask
  | turn _ _ hfound => exact map_set_slot hfound rfl
  | received hfound => exact map_set_slot hfound rfl
  | outgoing hfound => exact map_set_slot hfound rfl
  | leave hfound => exact map_set_slot hfound rfl

/-- The path of a connection depends on its future and on the paths of the futures. -/
theorem pathOf_congr
    (htasks : ∀ index : Nat, following.connections[index]?.bind Connection.task =
      network.connections[index]?.bind Connection.task)
    (hpaths : following.endpoint.paths.tasks.map PathTask.path =
      network.endpoint.paths.tasks.map PathTask.path) (index : Nat) :
    following.pathOf index = network.pathOf index := by
  unfold pathOf
  simp only [htasks, ← List.getElem?_map, hpaths]

/-- A step that moves something between the socket and one link, and leaves the futures where they
are, keeps the account of the paths. -/
theorem Pairing.move (h : Pairing encode decode log network) {op : Op} {out : Out}
    (htasks : ∀ index : Nat, following.connections[index]?.bind Connection.task =
      network.connections[index]?.bind Connection.task)
    (hpaths : following.endpoint.paths.tasks.map PathTask.path =
      network.endpoint.paths.tasks.map PathTask.path)
    (hothers : ∀ path, network.pathOf out.connection ≠ some path →
      offered (Endpoint.socketLog out.endpoint) path = [] ∧
        yielded (Endpoint.socketLog out.endpoint) path = [])
    (htransfer : ∀ path, network.pathOf out.connection = some path →
      Transfer encode decode path (Endpoint.socketLog out.endpoint) out.link)
    (hgiven : network.pathOf out.connection = none →
      (Link.upAccount encode decode).entered out.link = 0) :
    Pairing encode decode ((op, out) :: log) following := by
  have hpathOf := pathOf_congr htasks hpaths
  have hlength : following.endpoint.paths.tasks.length = network.endpoint.paths.tasks.length := by
    simpa using congrArg List.length hpaths
  -- what a connection moves is moved between its own path and its own link
  have hmoved : ∀ index path, network.pathOf index = some path →
      ((offered (Endpoint.socketLog out.endpoint) path : Multiset Bytes) ≤
        ((Link.downAccount encode decode).left
          (if out.connection = index then out.link else [])).filterMap (payload? decode)) ∧
      (Link.upAccount encode decode).entered (if out.connection = index then out.link else []) ≤
        (yielded (Endpoint.socketLog out.endpoint) path : Multiset Bytes) := by
    intro index path hpath
    by_cases hindex : out.connection = index
    · rw [if_pos hindex]
      have hmoves := htransfer path (hindex ▸ hpath)
      exact ⟨hmoves.downlink, hmoves.uplink⟩
    · obtain ⟨hoffered, _⟩ := hothers path fun hsame ↦ hindex (h.distinct _ _ path hsame hpath)
      rw [if_neg hindex, hoffered]
      exact ⟨Multiset.zero_le _, Multiset.zero_le _⟩
  constructor
  case bound =>
    intro index task htask
    rw [htasks] at htask
    rw [hlength]
    exact h.bound index task htask
  case distinct =>
    intro index other path hindex hother
    rw [hpathOf] at hindex hother
    exact h.distinct index other path hindex hother
  case users =>
    intro path hoffered
    simp only [hpathOf]
    by_cases hpath : network.pathOf out.connection = some path
    · exact ⟨_, hpath⟩
    · rw [socketLog_cons, VirtualUdp.offered_append, (hothers path hpath).1,
        List.append_nil] at hoffered
      exact h.users path hoffered
  case downlink =>
    intro index path hpath
    rw [hpathOf] at hpath
    rw [socketLog_cons, linkLog_cons, VirtualUdp.offered_append, ← Multiset.coe_add,
      Execution.Account.left_append, Multiset.filterMap_add, add_comm]
    exact add_le_add (hmoved index path hpath).1 (h.downlink index path hpath)
  case uplink =>
    intro index path hpath
    rw [hpathOf] at hpath
    rw [socketLog_cons, linkLog_cons, VirtualUdp.yielded_append, ← Multiset.coe_add,
      Execution.Account.entered_append, add_comm]
    exact add_le_add (h.uplink index path hpath) (hmoved index path hpath).2
  case unstarted =>
    intro index hnone
    rw [hpathOf] at hnone
    rw [linkLog_cons, Execution.Account.entered_append, h.unstarted index hnone, add_zero]
    by_cases hindex : out.connection = index
    · rw [if_pos hindex]
      exact hgiven (hindex ▸ hnone)
    · rw [if_neg hindex]
      rfl

/-- A step that moves nothing between the socket and a link keeps the account of the paths. -/
theorem Pairing.quiet (h : Pairing encode decode log network) {op : Op} {out : Out}
    (htasks : ∀ index : Nat, following.connections[index]?.bind Connection.task =
      network.connections[index]?.bind Connection.task)
    (hpaths : following.endpoint.paths.tasks.map PathTask.path =
      network.endpoint.paths.tasks.map PathTask.path)
    (hoffered : ∀ path, offered (Endpoint.socketLog out.endpoint) path = [])
    (hyielded : ∀ path, yielded (Endpoint.socketLog out.endpoint) path = [])
    (hgiven : (Link.upAccount encode decode).entered out.link = 0) :
    Pairing encode decode ((op, out) :: log) following :=
  h.move htasks hpaths (fun path _ ↦ ⟨hoffered path, hyielded path⟩)
    (fun _ _ ↦ .of_quiet hoffered hyielded hgiven) fun _ ↦ hgiven

/-- A future that is started on a connection, with a path that no future had, keeps the account of
the paths. -/
theorem Pairing.started (h : Pairing encode decode log network) {op : Op} {index : Nat}
    {link : Link} {remote : SocketAddr} {queueCapacity : Nat} {endpoint : Endpoint}
    {out : Endpoint.Out} {endpointLog : Endpoint.Log}
    (haddressing : Endpoint.Addressing endpointLog network.endpoint)
    (hconnection : network.connections[index]? = some ⟨link, none⟩)
    (hchange : Endpoint.Change decode network.endpoint (.start remote queueCapacity) out endpoint) :
    Pairing encode decode ((op, ⟨[(.start remote queueCapacity, out)], 0, []⟩) :: log)
      ⟨endpoint, network.connections.set index
        ⟨link, some network.endpoint.paths.tasks.length⟩⟩ := by
  cases hchange with
  | @started _ _ socket hgranted _ _ =>
      have hnone : network.pathOf index = none := by
        unfold pathOf
        rw [hconnection]
        rfl
      have hpath : ∀ other path, network.pathOf other = some path →
          path ≠ network.endpoint.newPath remote := by
        intro other path hother heq
        simp only [pathOf, Option.bind_eq_some_iff, Option.map_eq_some_iff] at hother
        obtain ⟨task, _, found, hfound, rfl⟩ := hother
        refine haddressing.remote_ne_of_granted hgranted ?_
        refine List.mem_map.mpr
          ⟨found.holder, List.mem_map_of_mem (List.mem_of_getElem? hfound), ?_⟩
        exact congrArg PathId.remote heq
      have hpathOf : ∀ other, pathOf ⟨{ network.endpoint with
          paths := ⟨socket, network.endpoint.paths.tasks ++
            [⟨network.endpoint.newPath remote, .selecting none⟩]⟩
          granted := network.endpoint.granted.erase remote }, network.connections.set index
            ⟨link, some network.endpoint.paths.tasks.length⟩⟩ other =
          if index = other then some (network.endpoint.newPath remote)
          else network.pathOf other := by
        intro other
        unfold pathOf
        simp only [getElem?_set_slot hconnection]
        split
        case isTrue => simp
        case isFalse =>
          cases htask : network.connections[other]?.bind Connection.task with
          | none => rfl
          | some task =>
              show Option.map _ (network.endpoint.paths.tasks ++ [_])[task]? = Option.map _ _
              rw [List.getElem?_append_left (h.bound other task htask)]
      have hlinkLog : ∀ (out : Endpoint.Out) (other : Nat),
          linkLog ((op, ⟨[(.start remote queueCapacity, out)], 0, []⟩) :: log) other =
          linkLog log other := by
        intro out other
        simp [linkLog]
      constructor
      case bound =>
        intro other task htask
        rw [getElem?_set_slot hconnection] at htask
        show task < (network.endpoint.paths.tasks ++ [_]).length
        rw [List.length_append, List.length_singleton]
        split at htask
        case isTrue =>
          have hlast : network.endpoint.paths.tasks.length = task := Option.some.inj htask
          omega
        case isFalse =>
          have hlt := h.bound other task htask
          omega
      case distinct =>
        intro first second path hfirst hsecond
        rw [hpathOf] at hfirst hsecond
        split at hfirst
        case isTrue heq =>
          split at hsecond
          case isTrue heq' => exact heq.symm.trans heq'
          case isFalse => exact absurd (Option.some.inj hfirst).symm (hpath second path hsecond)
        case isFalse =>
          split at hsecond
          case isTrue => exact absurd (Option.some.inj hsecond).symm (hpath first path hfirst)
          case isFalse => exact h.distinct first second path hfirst hsecond
      case users =>
        intro path hoffered
        obtain ⟨other, hother⟩ := h.users path hoffered
        refine ⟨other, ?_⟩
        rw [hpathOf, if_neg, hother]
        rintro rfl
        simp [hnone] at hother
      case downlink =>
        intro other path hother
        rw [hlinkLog]
        rw [hpathOf] at hother
        show (offered (socketLog log) path : Multiset Bytes) ≤ _
        split at hother
        case isTrue =>
          have hempty : offered (socketLog log) path = [] := by
            by_contra hoffered
            obtain ⟨user, huser⟩ := h.users path hoffered
            exact hpath user path huser (Option.some.inj hother).symm
          rw [hempty]
          exact Multiset.zero_le _
        case isFalse => exact h.downlink other path hother
      case uplink =>
        intro other path hother
        rw [hlinkLog]
        rw [hpathOf] at hother
        show _ ≤ (yielded (socketLog log) path : Multiset Bytes)
        split at hother
        case isTrue heq =>
          rw [← heq, h.unstarted index hnone]
          exact Multiset.zero_le _
        case isFalse => exact h.uplink other path hother
      case unstarted =>
        intro other hother
        rw [hlinkLog]
        rw [hpathOf] at hother
        split at hother
        case isTrue => simp at hother
        case isFalse => exact h.unstarted other hother

/-- Every step keeps the account of the paths. -/
theorem Pairing.step (h : Pairing encode decode log network) {op : Op} {out : Out}
    {endpointLog : Endpoint.Log}
    (haddressing : Endpoint.Addressing endpointLog network.endpoint)
    (hchange : Change encode decode network out following) :
    Pairing encode decode ((op, out) :: log) following := by
  cases hchange with
  | endpoint hop hnext =>
      cases Endpoint.change_of_next hnext with
      | allocated => exact h.quiet (fun _ ↦ rfl) rfl (fun _ ↦ rfl) (fun _ ↦ rfl) rfl
      | exhausted => exact h.quiet (fun _ ↦ rfl) rfl (fun _ ↦ rfl) (fun _ ↦ rfl) rfl
      | started => simp at hop
      | path => simp at hop
      | @embedder op out socket hembedder _ _ =>
          -- the embedder neither hands datagrams to the socket nor polls a path
          refine h.quiet (fun _ ↦ rfl) rfl (fun path ↦ ?_) (fun path ↦ ?_) rfl
          · cases op <;> first | rfl | simp [ConsumerPath.embedderOp] at hembedder
          · cases op <;> first | rfl | simp [ConsumerPath.embedderOp] at hembedder
  | @connect _ _ link _ =>
      refine h.quiet (fun index ↦ ?_) rfl (fun _ ↦ rfl) (fun _ ↦ rfl) rfl
      rcases Nat.lt_trichotomy index network.connections.length with hlt | rfl | hgt
      · rw [List.getElem?_append_left hlt]
      · simp
      · rw [List.getElem?_eq_none (by simp; omega), List.getElem?_eq_none (by omega)]
  | start hconnection hnext =>
      exact h.started haddressing hconnection (Endpoint.change_of_next hnext)
  | @path index link task op out endpoint ran moved hconnection htask hanswers hnext hrun =>
      cases Endpoint.change_of_next hnext with
      | @path _ _ performed paths _ hpaths =>
          obtain ⟨found, hfound, htransfer⟩ := transfer_of_change htask hanswers hpaths hrun
          have hpath : network.pathOf index = some found.path := by
            unfold pathOf
            rw [hconnection, Option.bind_some, Option.bind_some, hfound]
            rfl
          have hlog : Endpoint.socketLog [(.path op, .performed op performed)] = performed := by
            simp [Endpoint.socketLog, Endpoint.pathsLog, ConsumerPath.socketLog]
          refine h.move (task_of_set hconnection) (path_of_change htask hpaths) ?_ ?_ ?_
          · intro other hother
            rw [hlog]
            exact htransfer.others other fun heq ↦ hother (heq ▸ hpath)
          · intro other hother
            rw [hlog, ← Option.some.inj (hpath.symm.trans hother)]
            exact htransfer
          · intro hnone
            simp [hpath] at hnone
  | @link index link task op out moved hconnection hexternal _ =>
      refine h.quiet (task_of_set hconnection) rfl (fun _ ↦ rfl) (fun _ ↦ rfl) ?_
      have hgiven : op.given = 0 := by
        cases op <;> first | rfl | simp [external] at hexternal
      simp [Link.upAccount, hgiven]

/-- The operations on the socket in a run of the network are a run of the socket. -/
theorem Exec.socket {socket : Socket} (h : Exec encode decode (.new socket) log network) :
    VirtualUdp.Exec socket (socketLog log) network.endpoint.paths.socket :=
  ConsumerPath.Exec.socket (Endpoint.Exec.paths (Exec.endpoint h))

section Runs

variable {localAddr : SocketAddr} {mtu queueCapacity : Nat} {socket : Socket} {index : Nat}
  {path : PathId} (hstart : Socket.withOptions localAddr mtu queueCapacity = some socket)
  (h : Exec encode decode (.new socket) log network)

include h in
/-- What the egress receives on a link has entered it at the other end. -/
theorem Exec.received_le_entered (index : Nat) : Link.egressReceived (linkLog log index) ≤
    (Link.upAccount encode decode).entered (linkLog log index) := by
  have hlinks := Exec.links h
  cases hconnection : network.connections[index]? with
  | none =>
      rw [hlinks.fresh index (List.getElem?_eq_none_iff.mp hconnection)]
      exact le_rfl
  | some connection =>
      obtain ⟨_, _, start, hnew, hexec⟩ := hlinks.exec index connection hconnection
      exact (Link.upAccount encode decode).left_le_entered hexec (Link.holds_new hnew).1

include hstart h

/-- The account holds in every run of the network. -/
theorem Exec.pairing : Pairing encode decode log network := by
  induction h with
  | refl =>
      constructor <;> simp [Network.new, pathOf, socketLog, endpointLog, linkLog,
        Endpoint.socketLog, Endpoint.pathsLog, ConsumerPath.socketLog, offered]
  | snoc hexec hnext ih =>
      exact ih.step (Endpoint.Exec.addressing hstart (Exec.endpoint hexec)) (change_of_next hnext)

/-- Different connections run paths at different addresses. -/
theorem Exec.index_eq_of_remote {index other : Nat} {path otherPath : PathId}
    (hpath : network.pathOf index = some path) (hother : network.pathOf other = some otherPath)
    (hremote : path.remote = otherPath.remote) : index = other := by
  have haddressing := Endpoint.Exec.addressing hstart (Exec.endpoint h)
  have hsame : path = otherPath := by
    simp only [pathOf, Option.bind_eq_some_iff, Option.map_eq_some_iff] at hpath hother
    obtain ⟨task, _, found, hfound, rfl⟩ := hpath
    obtain ⟨otherTask, _, otherFound, hotherFound, rfl⟩ := hother
    obtain rfl := haddressing.index_eq_of_remote hfound hotherFound hremote
    rw [hfound] at hotherFound
    rw [Option.some.inj hotherFound]
  exact (Exec.pairing hstart h).distinct index other path hpath (hsame ▸ hother)

/-- What is polled with the address of a connection's path was offered by that path. -/
theorem Exec.polledFrom_le_offered
    (hbufs : ∀ delivery ∈ deliveries (socketLog log), mtu ≤ delivery.buf)
    (hpath : network.pathOf index = some path) :
    (polledFrom (socketLog log) path.remote : Multiset Bytes) ≤
      (offered (socketLog log) path : Multiset Bytes) := by
  have hpolled := VirtualUdp.Exec.polledFrom_prefix hstart (Exec.socket h) hbufs path.remote
  have haccepted : (acceptedFrom (socketLog log) path.remote).Sublist
      (offered (socketLog log) path) := by
    refine VirtualUdp.acceptedFrom_sublist fun other hremote hoffered ↦ ?_
    obtain ⟨user, huser⟩ := (Exec.pairing hstart h).users other hoffered
    obtain rfl := Exec.index_eq_of_remote hstart h huser hpath hremote
    exact Option.some.inj (huser.symm.trans hpath)
  exact Multiset.coe_le.mpr (hpolled.sublist.trans haccepted).subperm

/-- What is polled with the address of a connection's path was sent by the egress on the
connection. -/
theorem Exec.polled_le_envelopes (hcodec : ∀ packet, decode (encode packet) = .ok packet)
    (hbufs : ∀ delivery ∈ deliveries (socketLog log), mtu ≤ delivery.buf)
    (hpath : network.pathOf index = some path) :
    (polledFrom (socketLog log) path.remote : Multiset Bytes) ≤
      (Link.envelopes (linkLog log index)).map (·.payload) := by
  cases hconnection : network.connections[index]? with
  | none => simp [pathOf, hconnection] at hpath
  | some connection =>
      obtain ⟨_, _, start, hnew, hexec⟩ := (Exec.links h).exec index connection hconnection
      have hdown := (Link.downAccount encode decode).left_le_entered hexec (Link.holds_new hnew).2
      calc (polledFrom (socketLog log) path.remote : Multiset Bytes)
          ≤ (offered (socketLog log) path : Multiset Bytes) :=
            Exec.polledFrom_le_offered hstart h hbufs hpath
        _ ≤ ((Link.downAccount encode decode).left (linkLog log index)).filterMap
              (payload? decode) := (Exec.pairing hstart h).downlink index path hpath
        _ ≤ ((Link.downAccount encode decode).entered (linkLog log index)).filterMap
              (payload? decode) := Multiset.filterMap_le_filterMap _ hdown
        _ = (Link.envelopes (linkLog log index)).map (·.payload) :=
            Link.filterMap_entered hcodec hexec

/-- What the egress receives on a connection was sent to the address of its path. -/
theorem Exec.received_le_sent (hpath : network.pathOf index = some path) :
    Link.egressReceived (linkLog log index) ≤
      (sentTo (socketLog log) path.remote : Multiset Bytes) :=
  calc Link.egressReceived (linkLog log index)
      ≤ (Link.upAccount encode decode).entered (linkLog log index) :=
        Exec.received_le_entered h index
    _ ≤ (yielded (socketLog log) path : Multiset Bytes) :=
        (Exec.pairing hstart h).uplink index path hpath
    _ ≤ (sentTo (socketLog log) path.remote : Multiset Bytes) :=
        Multiset.coe_le.mpr (VirtualUdp.Exec.yielded_subperm hstart (Exec.socket h) path)

/-- An address that something is polled with is that of a connection's path. -/
theorem Exec.exists_path_of_polled
    (hbufs : ∀ delivery ∈ deliveries (socketLog log), mtu ≤ delivery.buf) {remote : SocketAddr}
    (hpolled : polledFrom (socketLog log) remote ≠ []) :
    ∃ index path, network.pathOf index = some path ∧ path.remote = remote := by
  have haccepted : acceptedFrom (socketLog log) remote ≠ [] := by
    have hprefix := VirtualUdp.Exec.polledFrom_prefix hstart (Exec.socket h) hbufs remote
    intro hempty
    rw [hempty, List.prefix_nil] at hprefix
    exact hpolled hprefix
  obtain ⟨payload, hmem⟩ := List.exists_mem_of_ne_nil _ haccepted
  simp only [acceptedFrom, List.mem_filterMap, Option.ite_none_right_eq_some] at hmem
  obtain ⟨datagram, hdatagram, hremote, _⟩ := hmem
  obtain ⟨path, hpath, hoffered⟩ := VirtualUdp.exists_offered_of_accepted hdatagram
  obtain ⟨index, hindex⟩ := (Exec.pairing hstart h).users path hoffered
  exact ⟨index, path, hindex, hpath.trans hremote⟩

/-- A connection on which the egress receives something has a path. -/
theorem Exec.exists_path_of_received (hreceived : Link.egressReceived (linkLog log index) ≠ 0) :
    ∃ path, network.pathOf index = some path := by
  cases hpath : network.pathOf index with
  | some path => exact ⟨path, rfl⟩
  | none =>
      have hentered := Exec.received_le_entered h index
      rw [(Exec.pairing hstart h).unstarted index hpath] at hentered
      exact absurd (Multiset.le_zero.mp hentered) hreceived

end Runs

/-- Let any number of paths come and go on connections to peer proxies, with addresses from one
allocator, buffers of at least the MTU and a decoder that inverts the encoder. Then what `poll_recv`
returned with the address of a path is a part of the payloads of the envelopes that the egress sent
on the WebSocket of the path's own peer proxy, and what the egress received on that WebSocket is a
part of what was passed to `try_send` for the address. Different connections have different
addresses, and nothing is polled with an address, or received on a WebSocket, that has no path. -/
theorem datagrams_intact {localAddr : SocketAddr} {mtu queueCapacity : Nat} {socket : Socket}
    (hcodec : ∀ packet, decode (encode packet) = .ok packet)
    (hstart : Socket.withOptions localAddr mtu queueCapacity = some socket)
    (h : Exec encode decode (.new socket) log network)
    (hbufs : ∀ delivery ∈ deliveries (socketLog log), mtu ≤ delivery.buf) :
    (∀ index path, network.pathOf index = some path →
      (polledFrom (socketLog log) path.remote : Multiset Bytes) ≤
        (Link.envelopes (linkLog log index)).map (·.payload) ∧
      Link.egressReceived (linkLog log index) ≤
        (sentTo (socketLog log) path.remote : Multiset Bytes)) ∧
    (∀ index other path otherPath, network.pathOf index = some path →
      network.pathOf other = some otherPath → path.remote = otherPath.remote → index = other) ∧
    (∀ remote, polledFrom (socketLog log) remote ≠ [] →
      ∃ index path, network.pathOf index = some path ∧ path.remote = remote) ∧
    (∀ index, Link.egressReceived (linkLog log index) ≠ 0 →
      ∃ path, network.pathOf index = some path) := by
  refine ⟨fun index path hpath ↦ ⟨?_, ?_⟩, ?_, ?_, ?_⟩
  · exact Exec.polled_le_envelopes hstart h hcodec hbufs hpath
  · exact Exec.received_le_sent hstart h hpath
  · intro index other path otherPath hpath hother hremote
    exact Exec.index_eq_of_remote hstart h hpath hother hremote
  · intro remote hpolled
    exact Exec.exists_path_of_polled hstart h hbufs hpolled
  · intro index hreceived
    exact Exec.exists_path_of_received hstart h hreceived

/-- A run in which a datagram comes down on the first path of a consumer and another one goes up. -/
def sampleRun : List Op :=
  [.connect 4 4, .embedder .cloneArc, .allocate, .start 0 (ConsumerPath.pathAddress 2) 8,
    .link 0 (.envelope ⟨"egress", [7]⟩), .link 0 (.relaySelect true), .link 0 .relayTaken,
    .link 0 (.relaySentToPeer (.ok ())), .link 0 (.down (.arrive 0)),
    .path 0 (.poll 0 false (.ready (.ok (some (encodePacket ⟨"egress", [7]⟩))))),
    .embedder (.pollRecv [1200] 1), .embedder (.lookup ⟨ConsumerPath.pathAddress 2, 0⟩ [9]),
    .embedder (.enqueue ⟨ConsumerPath.pathAddress 2, 0⟩), .path 0 (.poll 0 false .pending),
    .link 0 .consumerTaken, .link 0 (.up (.arrive 0)), .link 0 (.relaySelect false),
    .link 0 .relayTaken, .link 0 .egressReceive]

/-- What was polled on the first path was sent by the egress, and what the egress received was sent
to the path. -/
theorem datagrams_intact_on_first_path :
    ∃ start log network, Socket.withOptions (.v4 0 0) 1200 8 = some start ∧
      Exec encodePacket decodePacket (.new start) log network ∧
      (∀ delivery ∈ deliveries (socketLog log), 1200 ≤ delivery.buf) ∧
      polledFrom (socketLog log) (ConsumerPath.pathAddress 2) = [[7]] ∧
      Link.egressReceived (linkLog log 0) = {[9]} ∧
      (([[7]] : List Bytes) : Multiset Bytes) ≤
        (Link.envelopes (linkLog log 0)).map (·.payload) ∧
      ({[9]} : Multiset Bytes) ≤
        (sentTo (socketLog log) (ConsumerPath.pathAddress 2) : Multiset Bytes) := by
  have hrun : (Socket.withOptions (.v4 0 0) 1200 8).any (fun start ↦
      (Execution.run (next encodePacket decodePacket) sampleRun ([], .new start)).any
        (fun (log, network) ↦
          (deliveries (socketLog log)).all (fun delivery ↦ 1200 ≤ delivery.buf)
            && polledFrom (socketLog log) (ConsumerPath.pathAddress 2) = [[7]]
            && Link.egressReceived (linkLog log 0) = {[9]}
            && network.pathOf 0 = some ⟨ConsumerPath.pathAddress 2, 0⟩)) = true := by
    decide +kernel
  obtain ⟨start, hstart, hreaches⟩ := (Option.any_eq_true _ _).mp hrun
  obtain ⟨⟨log, network⟩, hreached, htest⟩ := (Option.any_eq_true _ _).mp hreaches
  simp only [Bool.and_eq_true, decide_eq_true_eq, List.all_eq_true] at htest
  obtain ⟨⟨⟨hbufs, hpolled⟩, hreceived⟩, hpath⟩ := htest
  have hexec := Execution.exec_of_run hreached
  have hintact := (datagrams_intact (decodePacket_print Json.inverted_serdeQuote) hstart hexec
    hbufs).1 0 _ hpath
  rw [hpolled, hreceived] at hintact
  exact ⟨start, log, network, hstart, hexec, hbufs, hpolled, hreceived, hintact⟩

end Network

end Unbounded.EndToEnd
