import Unbounded.ConsumerPath.Lifetime
import Unbounded.VirtualUdp.Traffic

/-!
# What a consumer path admits

One `run_consumer_path` future among any number of others. Its peer's packets are judged against
the first of them (`reject`): a packet must decode, name a source, name the source of packet 0, and
carry a payload that fits the MTU. The future puts the payloads of the packets before the first
rejected one to the receive queue, in order and with its own address, and ends with the error of the
rejected packet when it takes that one. Everything else that ends it is read off its last turn
(`Op.exit`). `admits_valid_packets` says so for every run of the paths.
-/

namespace Unbounded.ConsumerPath

open Execution (observe next_of_observe getElem?_set_cases getElem?_set_slot_self
  getElem?_append_cases)
open Tokio (Poll)
open VirtualUdp (Socket PathId PathReceiveError submitted yielded yielded_append)

/-! ## The judgement on a sequence of packets -/

section Judgement

variable (decode : Bytes → Except String UnboundedPacket) (mtu : Nat)

/-- The source that a packet names. -/
def sourceOf (raw : Bytes) : Option String :=
  match decode raw with
  | .ok packet => some packet.sourceAddr
  | .error _ => none

/-- The payload of a packet. -/
def payloadOf (raw : Bytes) : Bytes :=
  match decode raw with
  | .ok packet => packet.payload
  | .error _ => []

/-- The error of a packet of a peer whose packet 0 is `first`, in the order of the checks. -/
def reject (first raw : Bytes) : Option PathError :=
  match decode raw with
  | .error error => some (.decode error)
  | .ok packet =>
      if packet.sourceAddr = "" then some .emptySource
      else if sourceOf decode first ≠ some packet.sourceAddr then
        some (.sourceChanged ((sourceOf decode first).getD "") packet.sourceAddr)
      else if mtu < packet.payload.length then
        some (.receive (.oversize packet.payload.length mtu))
      else none

/-- The error of the packet at an index of the peer's sequence. -/
def rejection (packets : List Bytes) (index : Nat) : Option PathError :=
  (packets[index]?).bind (reject decode mtu (packets.headD []))

end Judgement

/-! ## The turns of one future -/

/-- What a step shows beside its socket operations. -/
structure View where
  /-- The datagram with which the future calls `send_packet`. -/
  handed : Option Bytes
  /-- The receive queue was full when the step was taken. -/
  full : Bool
  deriving DecidableEq

/-- The datagram whose `send_packet` a future waits for. -/
def Control.sends : Control → Option Bytes
  | .sending _ packet => some packet
  | _ => none

/-- The view of a step. A future that has just arrived at its `send_packet` called it. -/
def view (paths : Paths) (op : Op) (following : Paths) : View where
  handed := op.task.bind fun index ↦ (following.tasks[index]?).bind fun task ↦ task.control.sends
  full := decide (paths.socket.incoming.queue.length = paths.socket.incoming.capacity)

/-- A log of the paths with the view of every step. -/
abbrev ViewLog := Execution.Log Op (VirtualUdp.Log × View)

/-- Executions of the paths with the view of every step. -/
abbrev ViewExec (decode : Bytes → Except String UnboundedPacket) :=
  Execution.Exec (observe view (next decode))

/-- The steps that one future took, newest first. -/
def stepsOf (log : ViewLog) (index : Nat) : ViewLog :=
  log.filter fun entry ↦ decide (entry.1.task = some index)

/-- The socket operations of some steps, newest first. -/
def performed (steps : ViewLog) : VirtualUdp.Log :=
  steps.flatMap fun entry ↦ entry.2.1

/-- The packet of the peer that a poll takes. Cancellation is looked at first. -/
def Op.packet : Op → Option Bytes
  | .poll _ false (.ready (.ok (some raw))) => some raw
  | _ => none

/-- The packets of the peer that a future took, oldest first. -/
def packets : ViewLog → List Bytes
  | [] => []
  | entry :: steps => packets steps ++ entry.1.packet.toList

/-- The datagrams with which a future called `send_packet`, oldest first. -/
def handed : ViewLog → List Bytes
  | [] => []
  | entry :: steps => handed steps ++ entry.2.2.handed.toList

/-- How a turn ends a future by itself: with a result, or without one when its owner drops it. -/
def Op.exit : Op → Option (Option PathResult)
  | .poll _ true _ => some (some (.ok .cancelled))
  | .poll _ false (.ready (.ok none)) => some (some (.ok .peerClosed))
  | .poll _ false (.ready (.error error)) => some (some (.error (.transport error)))
  | .sent _ (.error error) => some (some (.error (.transport error)))
  | .dropFuture _ => some none
  | _ => none

/-- The last turn of a future before it drops what it holds. -/
def lastTurn : ViewLog → Option Op
  | [] => none
  | (.leave _, _) :: steps => lastTurn steps
  | (op, _) :: _ => some op

/-- The pinned source of a future that runs. -/
def Control.pinned : Control → Option (Option String)
  | .selecting source => some source
  | .sending source _ => some source
  | _ => none

/-- What a future that has ended returns, or that it was dropped. -/
def Control.ended : Control → Option (Option PathResult)
  | .leaving result => some result
  | .left result => some result
  | _ => none

/-- Everything a turn of one future can be, with the socket operations it performs. -/
inductive Turn (decode : Bytes → Except String UnboundedPacket) (socket : Socket) (index : Nat)
    (path : PathId) : Control → Op → VirtualUdp.Log → Control → Prop where
  | exit {control : Control} {source : Option String} {op : Op} {result : Option PathResult}
      (hpinned : control.pinned = some source) (hexit : op.exit = some result) :
      Turn decode socket index path control op [] (.leaving result)
  | refused {source : Option String} {raw : Bytes} {error : PathError}
      (hinspect : inspect decode source raw = .error error) :
      Turn decode socket index path (.selecting source)
        (.poll index false (.ready (.ok (some raw)))) [] (.leaving (some (.error error)))
  | received {source : Option String} {raw : Bytes} {packet : UnboundedPacket}
      {result : Except PathReceiveError Unit} {following : Socket}
      (hinspect : inspect decode source raw = .ok packet)
      (hreceive : socket.tryReceive path packet.payload = some (result, following)) :
      Turn decode socket index path (.selecting source)
        (.poll index false (.ready (.ok (some raw))))
        [(.tryReceive path packet.payload, .received result)]
        (.afterReceive packet.sourceAddr result)
  | outgoing {source : Option String} {result : Poll (Option Bytes)} {following : Socket}
      (houtgoing : socket.nextOutgoing path = some (result, following)) :
      Turn decode socket index path (.selecting source) (.poll index false .pending)
        [(.nextOutgoing path, .outgoing result)] (.afterOutgoing source result)
  | sent {source : Option String} {packet : Bytes} :
      Turn decode socket index path (.sending source packet) (.sent index (.ok ())) []
        (.selecting source)
  | leave {result : Option PathResult} :
      Turn decode socket index path (.leaving result) (.leave index)
        [(.dropArc, .unit), (.dropPath path, .unit)] (.left result)

variable {decode : Bytes → Except String UnboundedPacket} {paths following : Paths}

/-- The poll of a future is a `Turn`. -/
theorem turn_of_pollSelect {socket after : Socket} {path : PathId} {source : Option String}
    {cancelled : Bool} {peer : Poll (Except String (Option Bytes))} {log : VirtualUdp.Log}
    {control : Control} (index : Nat)
    (h : pollSelect decode socket path source cancelled peer = some (log, control, after)) :
    Turn decode socket index path (.selecting source) (.poll index cancelled peer) log
      control := by
  unfold pollSelect at h
  split at h
  case isTrue hcancelled =>
    simp only [Option.some.injEq, Prod.mk.injEq] at h
    obtain ⟨rfl, rfl, _⟩ := h
    subst hcancelled
    exact .exit rfl rfl
  case isFalse hrunning =>
    rw [Bool.not_eq_true] at hrunning
    subst hrunning
    split at h
    case h_1 error =>
      simp only [Option.some.injEq, Prod.mk.injEq] at h
      obtain ⟨rfl, rfl, _⟩ := h
      exact .exit rfl rfl
    case h_2 =>
      simp only [Option.some.injEq, Prod.mk.injEq] at h
      obtain ⟨rfl, rfl, _⟩ := h
      exact .exit rfl rfl
    case h_3 raw =>
      cases hinspect : inspect decode source raw with
      | error error =>
          simp only [hinspect, Option.some.injEq, Prod.mk.injEq] at h
          obtain ⟨rfl, rfl, _⟩ := h
          exact .refused hinspect
      | ok packet =>
          simp only [hinspect, Option.map_eq_some_iff, Prod.mk.injEq] at h
          obtain ⟨⟨result, received⟩, hreceive, rfl, rfl, _⟩ := h
          exact .received hinspect hreceive
    case h_4 =>
      simp only [Option.map_eq_some_iff, Prod.mk.injEq] at h
      obtain ⟨⟨result, polled⟩, houtgoing, rfl, rfl, _⟩ := h
      exact .outgoing houtgoing

/-- A step that a future takes is one of its turns, and moves no other future. -/
theorem turn_of_next {op : Op} {log : VirtualUdp.Log} {index : Nat} (hop : op.task = some index)
    (h : next decode paths op = some (log, following)) :
    ∃ path control after, paths.tasks[index]? = some ⟨path, control⟩ ∧
      following.tasks = paths.tasks.set index ⟨path, after⟩ ∧
      Turn decode paths.socket index path control op log after := by
  cases op with
  | embedder _ => simp [Op.task] at hop
  | start _ _ => simp [Op.task] at hop
  | poll task cancelled peer =>
      obtain rfl : task = index := by simpa [Op.task] using hop
      simp only [next] at h
      split at h
      case h_2 => simp at h
      case h_1 path source htask =>
        simp only [Option.map_eq_some_iff, Prod.mk.injEq] at h
        obtain ⟨⟨log, control, socket⟩, hpoll, rfl, rfl⟩ := h
        exact ⟨path, _, control, htask, rfl, turn_of_pollSelect task hpoll⟩
  | sent task result =>
      obtain rfl : task = index := by simpa [Op.task] using hop
      simp only [next] at h
      split at h
      case h_2 => simp at h
      case h_1 path source packet htask =>
        simp only [Option.some.injEq, Prod.mk.injEq] at h
        obtain ⟨rfl, rfl⟩ := h
        refine ⟨path, _, _, htask, rfl, ?_⟩
        cases result with
        | ok _ => exact .sent
        | error error => exact .exit rfl rfl
  | dropFuture task =>
      obtain rfl : task = index := by simpa [Op.task] using hop
      simp only [next] at h
      split at h
      case h_1 path source htask =>
        simp only [Option.some.injEq, Prod.mk.injEq] at h
        obtain ⟨rfl, rfl⟩ := h
        exact ⟨path, _, _, htask, rfl, .exit rfl rfl⟩
      case h_2 path source packet htask =>
        simp only [Option.some.injEq, Prod.mk.injEq] at h
        obtain ⟨rfl, rfl⟩ := h
        exact ⟨path, _, _, htask, rfl, .exit rfl rfl⟩
      case h_3 => simp at h
  | leave task =>
      obtain rfl : task = index := by simpa [Op.task] using hop
      simp only [next] at h
      split at h
      case h_2 => simp at h
      case h_1 path result htask =>
        simp only [Option.bind_eq_some_iff, Option.map_eq_some_iff, Prod.mk.injEq] at h
        obtain ⟨dropped, _, socket, _, rfl, rfl⟩ := h
        exact ⟨path, _, _, htask, rfl, .leave⟩

/-- A step that a future does not take leaves it where it is, or starts it. -/
theorem task_of_other {op : Op} {log : VirtualUdp.Log} {index : Nat} {task : PathTask}
    (hop : op.task ≠ some index) (h : next decode paths op = some (log, following))
    (htask : following.tasks[index]? = some task) :
    paths.tasks[index]? = some task ∨
      (paths.tasks[index]? = none ∧ task.control = .selecting none) := by
  -- the future that takes the step is another one
  have hother : ∀ other, op.task = some other → paths.tasks[index]? = some task := by
    intro other htaken
    obtain ⟨path, control, after, _, htasks, _⟩ := turn_of_next htaken h
    rw [htasks] at htask
    obtain ⟨rfl, _⟩ | ⟨_, hkept⟩ := getElem?_set_cases htask
    · exact absurd htaken hop
    · exact hkept
  cases change_of_next h with
  | embedder => exact .inl htask
  | start =>
      obtain ⟨rfl, rfl⟩ | ⟨_, hkept⟩ := getElem?_append_cases htask
      · exact .inr ⟨List.getElem?_eq_none (Nat.le_refl _), rfl⟩
      · exact .inl hkept
  | turn htaken => exact .inl (hother _ htaken)
  | received | outgoing | leave => exact .inl (hother _ rfl)

/-- No step removes a future. -/
theorem tasks_length_le {op : Op} {log : VirtualUdp.Log}
    (h : next decode paths op = some (log, following)) :
    paths.tasks.length ≤ following.tasks.length := by
  cases change_of_next h with
  | embedder => exact Nat.le_refl _
  | start => simp
  | turn | received | outgoing | leave => simp [Paths.move]

/-! ## The standing of a future -/

/-- A packet that passes `inspect` is judged by its size alone. -/
theorem reject_of_inspect_ok (mtu : Nat) {source : Option String} {first raw : Bytes}
    {packet : UnboundedPacket} (h : inspect decode source raw = .ok packet)
    (hsource : source = none ∧ first = raw ∨ source ≠ none ∧ source = sourceOf decode first) :
    decode raw = .ok packet ∧ sourceOf decode first = some packet.sourceAddr ∧
      reject decode mtu first raw = if mtu < packet.payload.length then
        some (.receive (.oversize packet.payload.length mtu)) else none := by
  unfold inspect at h
  split at h
  case h_1 => simp at h
  case h_2 decoded hdecode =>
    split at h
    case isTrue => simp at h
    case isFalse hnonempty =>
      rw [String.isEmpty_iff] at hnonempty
      have hjudge : sourceOf decode first = some decoded.sourceAddr →
          reject decode mtu first raw = if mtu < decoded.payload.length then
            some (.receive (.oversize decoded.payload.length mtu)) else none := by
        intro hfirst
        simp [reject, hdecode, hnonempty, hfirst]
      split at h
      case h_1 expected =>
        split at h
        case isTrue => simp at h
        case isFalse hsame =>
          rw [Except.ok.injEq] at h
          subst h
          obtain ⟨hnone, _⟩ | ⟨_, hpinned⟩ := hsource
          · simp at hnone
          · have hfirst : sourceOf decode first = some decoded.sourceAddr := by
              rw [← hpinned, not_not.mp hsame]
            exact ⟨hdecode, hfirst, hjudge hfirst⟩
      case h_2 =>
        rw [Except.ok.injEq] at h
        subst h
        obtain ⟨_, rfl⟩ | ⟨hsome, _⟩ := hsource
        · have hfirst : sourceOf decode first = some decoded.sourceAddr := by
            simp [sourceOf, hdecode]
          exact ⟨hdecode, hfirst, hjudge hfirst⟩
        · exact absurd rfl hsome

/-- A packet that fails `inspect` is rejected with that error. -/
theorem reject_of_inspect_error {mtu : Nat} {source : Option String} {first raw : Bytes}
    {error : PathError} (h : inspect decode source raw = .error error)
    (hsource : source = none ∧ first = raw ∨ source ≠ none ∧ source = sourceOf decode first) :
    reject decode mtu first raw = some error := by
  unfold inspect at h
  split at h
  case h_1 failure hdecode =>
    rw [Except.error.injEq] at h
    simp [reject, hdecode, h]
  case h_2 decoded hdecode =>
    split at h
    case isTrue hempty =>
      rw [String.isEmpty_iff] at hempty
      rw [Except.error.injEq] at h
      simp [reject, hdecode, hempty, h]
    case isFalse hnonempty =>
      rw [String.isEmpty_iff] at hnonempty
      split at h
      case h_2 => simp at h
      case h_1 expected =>
        split at h
        case isFalse => simp at h
        case isTrue hchanged =>
          rw [Except.error.injEq] at h
          obtain ⟨hnone, _⟩ | ⟨_, hpinned⟩ := hsource
          · simp at hnone
          · simp [reject, hdecode, hnonempty, ← hpinned, hchanged, h]

/-- No packet that the future took was rejected, and it put forward the payload of each. -/
structure Clean (decode : Bytes → Except String UnboundedPacket) (mtu : Nat) (path : PathId)
    (steps : ViewLog) : Prop where
  valid : ∀ raw ∈ packets steps, reject decode mtu ((packets steps).headD []) raw = none
  submitted : submitted (performed steps) =
    (packets steps).map fun raw ↦ ⟨path.remote, payloadOf decode raw⟩

/-- Where a future stands: it runs with the source of packet 0 pinned, it ended for a reason of its
last turn, or it ended with the error of the last packet it took. -/
inductive Standing (decode : Bytes → Except String UnboundedPacket) (mtu : Nat) (path : PathId)
    (steps : ViewLog) (control : Control) : Prop where
  | running (clean : Clean decode mtu path steps)
      (pinned : control.pinned = some ((packets steps).head?.bind (sourceOf decode)))
      (goesOn : (lastTurn steps).bind Op.exit = none)
  | ended {result : Option PathResult} (clean : Clean decode mtu path steps)
      (ended : control.ended = some result) (last : (lastTurn steps).bind Op.exit = some result)
  | rejected {good : List Bytes} {bad : Bytes} {error : PathError}
      (taken : packets steps = good ++ [bad])
      (valid : ∀ raw ∈ good, reject decode mtu ((packets steps).headD []) raw = none)
      (submitted : submitted (performed steps) =
        good.map fun raw ↦ ⟨path.remote, payloadOf decode raw⟩)
      (failed : reject decode mtu ((packets steps).headD []) bad = some error)
      (ended : control.ended = some (some (.error error)))

section Steps

variable {mtu : Nat} {path : PathId} {steps : ViewLog}

/-- The first packet of a longer sequence is the first packet, unless there was none. -/
theorem reject_concat {first : List Bytes} {raw other : Bytes} (hmem : other ∈ first) :
    reject decode mtu ((first ++ [raw]).headD []) other =
      reject decode mtu (first.headD []) other := by
  cases first with
  | nil => simp at hmem
  | cons _ _ => rfl

/-- While no packet was rejected, the next one is compared with packet 0. -/
theorem Clean.compare (h : Clean decode mtu path steps) (raw : Bytes) {source : Option String}
    (hsource : source = (packets steps).head?.bind (sourceOf decode)) :
    source = none ∧ (packets steps ++ [raw]).headD [] = raw ∨
      source ≠ none ∧ source = sourceOf decode ((packets steps ++ [raw]).headD []) := by
  have hvalid := h.valid
  cases hpackets : packets steps with
  | nil =>
      rw [hpackets] at hsource
      exact .inl ⟨hsource, rfl⟩
  | cons first rest =>
      rw [hpackets] at hsource hvalid
      refine .inr ⟨?_, hsource⟩
      have hfirst := hvalid first List.mem_cons_self
      intro hnone
      rw [hsource] at hnone
      cases hdecode : decode first with
      | error error => simp [reject, hdecode] at hfirst
      | ok packet => simp [sourceOf, hdecode] at hnone

/-- A packet that fails its check ends the future with the error. -/
theorem Clean.refused (h : Clean decode mtu path steps) {raw : Bytes} {source : Option String}
    {error : PathError} {entry : Op × VirtualUdp.Log × View}
    (hsource : source = (packets steps).head?.bind (sourceOf decode))
    (hinspect : inspect decode source raw = .error error) (hraw : entry.1.packet = some raw)
    (hquiet : entry.2.1 = []) :
    Standing decode mtu path (entry :: steps) (.leaving (some (.error error))) := by
  have htaken : packets (entry :: steps) = packets steps ++ [raw] := by simp [packets, hraw]
  refine .rejected htaken (fun other hmem ↦ ?_) ?_ ?_ rfl
  · rw [htaken, reject_concat hmem]
    exact h.valid other hmem
  · have hperformed : performed (entry :: steps) = performed steps := by simp [performed, hquiet]
    rw [hperformed, h.submitted]
  · rw [htaken]
    exact reject_of_inspect_error hinspect (h.compare raw hsource)

/-- A packet that passes its check is put forward, unless it is oversize. -/
theorem Clean.received (h : Clean decode mtu path steps) {socket following : Socket}
    {index : Nat} {raw : Bytes} {source : Option String} {packet : UnboundedPacket}
    {result : Except PathReceiveError Unit} {seen : View} (hmtu : socket.mtu = mtu)
    (hsource : source = (packets steps).head?.bind (sourceOf decode))
    (hinspect : inspect decode source raw = .ok packet)
    (hreceive : socket.tryReceive path packet.payload = some (result, following))
    (hopen : result ≠ .error .closed) :
    Standing decode mtu path
      ((.poll index false (.ready (.ok (some raw))),
        [(.tryReceive path packet.payload, .received result)], seen) :: steps)
      (.afterReceive packet.sourceAddr result) := by
  obtain ⟨hdecode, hfirst, hjudge⟩ :=
    reject_of_inspect_ok mtu hinspect (h.compare raw hsource)
  obtain ⟨_, ⟨hsize, rfl, _⟩ | ⟨hsize, _, hresult⟩⟩ := Socket.tryReceive_spec hreceive
  · rw [hmtu] at hsize
    rw [if_pos hsize] at hjudge
    refine .rejected rfl (fun other hmem ↦ ?_) ?_ hjudge ?_
    · exact (reject_concat hmem).trans (h.valid other hmem)
    · exact h.submitted
    · rw [hmtu]
      rfl
  · rw [hmtu] at hsize
    rw [if_neg (Nat.not_lt.mpr hsize)] at hjudge
    -- what the channel was tried with, whether it had room or not
    have hpassed : result = .ok () ∨ result = .error .queueFull := by
      split at hresult
      · exact .inl hresult
      · exact .inr hresult
      · exact absurd hresult hopen
    have hcontrol : Control.afterReceive packet.sourceAddr result =
        .selecting (some packet.sourceAddr) := by
      rcases hpassed with rfl | rfl <;> rfl
    refine .running ⟨fun other hmem ↦ ?_, ?_⟩ ?_ rfl
    · obtain hold | hnew := List.mem_append.mp hmem
      · exact (reject_concat hold).trans (h.valid other hold)
      · rw [Op.packet, Option.toList_some, List.mem_singleton] at hnew
        rw [hnew]
        exact hjudge
    · have hpayload : payloadOf decode raw = packet.payload := by simp [payloadOf, hdecode]
      rw [packets, List.map_append, ← h.submitted]
      rcases hpassed with rfl | rfl <;> simp [performed, VirtualUdp.submitted, Op.packet, hpayload]
    · rw [hcontrol, packets]
      have hhead : (packets steps ++ [raw]).head? =
          some ((packets steps ++ [raw]).headD []) := by
        cases packets steps <;> rfl
      rw [Op.packet, Option.toList_some, hhead]
      exact congrArg some hfirst.symm

/-- What became of a payload that `try_receive` was called with. -/
def Fate (mtu : Nat) (full : Bool) (payload : Bytes) (result : Except PathReceiveError Unit) :
    Prop :=
  payload.length ≤ mtu ∧ (result = .ok () ∨ result = .error .queueFull ∧ full = true) ∨
    mtu < payload.length ∧ result = .error (.oversize payload.length mtu)

/-- Everything that the steps of one future say about it. -/
structure Admission (decode : Bytes → Except String UnboundedPacket) (mtu : Nat)
    (steps : ViewLog) (task : PathTask) : Prop where
  standing : Standing decode mtu task.path steps task.control
  handed : handed steps = yielded (performed steps) task.path
  fates : ∀ entry ∈ steps, ∀ path payload result,
    (VirtualUdp.Op.tryReceive path payload, VirtualUdp.Out.received result) ∈ entry.2.1 →
    path = task.path ∧ Fate mtu entry.2.2.full payload result

/-- A turn that ends a future takes no packet and is not its leaving. -/
theorem lastTurn_of_exit {op : Op} {result : Option PathResult} (h : op.exit = some result)
    (steps : ViewLog) (rest : VirtualUdp.Log × View) :
    op.packet = none ∧ lastTurn ((op, rest) :: steps) = some op := by
  cases op with
  | poll task cancelled peer =>
      rcases cancelled with _ | _
      · rcases peer with _ | (_ | (_ | _)) <;> simp_all [Op.exit, Op.packet, lastTurn]
      · exact ⟨rfl, rfl⟩
  | leave _ => simp [Op.exit] at h
  | _ => exact ⟨rfl, rfl⟩

/-- A turn that takes no packet of the peer. -/
theorem Clean.frame (h : Clean decode mtu path steps) (entry : Op × VirtualUdp.Log × View)
    (hpacket : entry.1.packet = none) (hlog : VirtualUdp.submitted entry.2.1 = []) :
    Clean decode mtu path (entry :: steps) ∧ packets (entry :: steps) = packets steps := by
  have hpackets : packets (entry :: steps) = packets steps := by simp [packets, hpacket]
  refine ⟨⟨?_, ?_⟩, hpackets⟩
  · rw [hpackets]
    exact h.valid
  · rw [hpackets, ← h.submitted]
    exact (VirtualUdp.submitted_append entry.2.1 (performed steps)).trans (by simp [hlog])

/-- A turn keeps the standing of a future. -/
theorem Standing.turn {control after : Control} (h : Standing decode mtu path steps control)
    {socket : Socket} {index : Nat} {op : Op} {log : VirtualUdp.Log} (seen : View)
    (hturn : Turn decode socket index path control op log after) (hmtu : socket.mtu = mtu)
    (hclosed : after.ended ≠ some (some (.ok .socketClosed))) :
    Standing decode mtu path ((op, log, seen) :: steps) after := by
  -- a future that takes a packet or a datagram, or ends, was running
  have hrunning : ∀ source, control.pinned = some source → Clean decode mtu path steps ∧
      source = (packets steps).head?.bind (sourceOf decode) := by
    intro source hpinned
    cases h with
    | running clean pinned _ => exact ⟨clean, Option.some.inj (hpinned.symm.trans pinned)⟩
    | ended _ ended | rejected _ _ _ _ ended =>
        cases control <;> simp_all [Control.pinned, Control.ended]
  cases hturn with
  | exit hpinned hexit =>
      obtain ⟨hclean, _⟩ := hrunning _ hpinned
      obtain ⟨hpacket, hlast⟩ := lastTurn_of_exit hexit steps ([], seen)
      refine .ended (hclean.frame _ hpacket rfl).1 rfl ?_
      rw [hlast]
      exact hexit
  | refused hinspect =>
      obtain ⟨hclean, hsource⟩ := hrunning _ rfl
      exact hclean.refused hsource hinspect rfl rfl
  | received hinspect hreceive =>
      obtain ⟨hclean, hsource⟩ := hrunning _ rfl
      refine hclean.received hmtu hsource hinspect hreceive fun hresult ↦ ?_
      subst hresult
      exact hclosed rfl
  | @outgoing source result _ houtgoing =>
      obtain ⟨hclean, hsource⟩ := hrunning _ rfl
      obtain ⟨hafter, hpackets⟩ := hclean.frame
        (.poll index false .pending, [(.nextOutgoing path, .outgoing result)], seen) rfl rfl
      refine .running hafter ?_ rfl
      rw [hpackets, ← hsource]
      rcases result with _ | (_ | _)
      · rfl
      · exact absurd rfl hclosed
      · rfl
  | sent =>
      obtain ⟨hclean, hsource⟩ := hrunning _ rfl
      obtain ⟨hafter, hpackets⟩ := hclean.frame (.sent index (.ok ()), [], seen) rfl rfl
      refine .running hafter ?_ rfl
      rw [hpackets, ← hsource]
      rfl
  | leave =>
      cases h with
      | running _ pinned _ => simp [Control.pinned] at pinned
      | ended clean ended last => exact .ended (clean.frame _ rfl rfl).1 ended last
      | rejected taken valid submitted failed ended =>
          have hpackets : packets ((.leave index,
              [(.dropArc, .unit), (.dropPath path, .unit)], seen) :: steps) = packets steps := by
            simp [packets, Op.packet]
          refine .rejected (hpackets.trans taken) ?_ submitted ?_ ended
          · rw [hpackets]
            exact valid
          · rw [hpackets]
            exact failed

/-- What `try_receive` did with a payload, on a socket that is not closed. -/
theorem fate_of_tryReceive {socket following : Socket} {payload : Bytes}
    {result : Except PathReceiveError Unit} (hmtu : socket.mtu = mtu)
    (h : socket.tryReceive path payload = some (result, following))
    (hopen : result ≠ .error .closed) :
    Fate mtu (decide (socket.incoming.queue.length = socket.incoming.capacity)) payload
      result := by
  subst hmtu
  obtain ⟨_, ⟨hsize, hresult, _⟩ | ⟨hsize, _, hresult⟩⟩ := Socket.tryReceive_spec h
  · exact .inr ⟨hsize, hresult⟩
  · refine .inl ⟨hsize, ?_⟩
    split at hresult
    case h_1 => exact .inl hresult
    case h_2 hfull =>
      have hbound := ((socket.incoming.trySend_full_iff _).mp hfull).2
      exact .inr ⟨hresult, by simpa using Nat.le_antisymm socket.incoming.bounded hbound⟩
    case h_3 => exact absurd hresult hopen

/-- A turn keeps everything that the steps of a future say about it. -/
theorem Admission.turn {control after : Control} (h : Admission decode mtu steps ⟨path, control⟩)
    {socket : Socket} {index : Nat} {op : Op} {log : VirtualUdp.Log} {seen : View}
    (hturn : Turn decode socket index path control op log after) (hmtu : socket.mtu = mtu)
    (hclosed : after.ended ≠ some (some (.ok .socketClosed)))
    (hseen : seen = ⟨after.sends,
      decide (socket.incoming.queue.length = socket.incoming.capacity)⟩) :
    Admission decode mtu ((op, log, seen) :: steps) ⟨path, after⟩ := by
  subst hseen
  refine ⟨h.standing.turn _ hturn hmtu hclosed, ?_, ?_⟩
  · -- only a poll that dequeued a datagram goes on to send one
    have hstep : after.sends.toList = yielded log path := by
      cases hturn with
      | exit | refused | sent | leave => rfl
      | @received _ _ packet result =>
          rcases result with (_ | _ | _) | _ <;> rfl
      | @outgoing _ result =>
          rcases result with _ | (_ | packet)
          · rfl
          · rfl
          · simp [Control.afterOutgoing, Control.sends, yielded]
    rw [ConsumerPath.handed, h.handed, hstep]
    exact (yielded_append log (performed steps) path).symm
  · intro entry hmem other payload result hcall
    rcases List.mem_cons.mp hmem with rfl | hold
    · cases hturn with
      | @received _ _ packet _ _ _ hreceive =>
          simp only [List.mem_singleton, Prod.mk.injEq, VirtualUdp.Op.tryReceive.injEq,
            VirtualUdp.Out.received.injEq] at hcall
          obtain ⟨⟨rfl, rfl⟩, rfl⟩ := hcall
          refine ⟨rfl, fate_of_tryReceive hmtu hreceive fun hresult ↦ ?_⟩
          subst hresult
          exact hclosed rfl
      | _ => simp at hcall
    · exact h.fates entry hold other payload result hcall

end Steps

/-! ## Runs -/

/-- In every run, everything that the steps of a future say about it holds. -/
theorem ViewExec.admitted {localAddr : SocketAddr} {mtu queueCapacity : Nat} {socket : Socket}
    (hstart : Socket.withOptions localAddr mtu queueCapacity = some socket) {log : ViewLog}
    (h : ViewExec decode ⟨socket, []⟩ log paths) (index : Nat) :
    (paths.tasks[index]? = none → stepsOf log index = []) ∧
      ∀ task, paths.tasks[index]? = some task →
        Admission decode mtu (stepsOf log index) task := by
  induction h with
  | refl => exact ⟨fun _ ↦ rfl, fun task htask ↦ by simp at htask⟩
  | @snoc log paths following op out hexec hnext ih =>
      obtain ⟨operations, seen⟩ := out
      obtain ⟨hstep, hseen⟩ := next_of_observe hnext
      by_cases hop : op.task = some index
      · obtain ⟨path, control, after, htask, htasks, hturn⟩ := turn_of_next hop hstep
        have hsteps : stepsOf ((op, operations, seen) :: log) index =
            (op, operations, seen) :: stepsOf log index := by simp [stepsOf, hop]
        have hfollowing : following.tasks[index]? = some ⟨path, after⟩ := by
          rw [htasks]
          exact getElem?_set_slot_self htask _
        have hmtu : paths.socket.mtu = mtu :=
          (VirtualUdp.Exec.ingress hstart (Exec.socket (Execution.Exec.of_observe hexec))).mtu
        have hlifetime : Lifetime following :=
          Exec.lifetime hstart (Execution.Exec.of_observe (hexec.snoc hnext))
        have hclosed : after.ended ≠ some (some (.ok .socketClosed)) := by
          intro hended
          refine hlifetime.ends index _ hfollowing ?_
          cases after <;> simp_all [Control.ended, PathTask.result]
        refine ⟨fun hnone ↦ by simp [hfollowing] at hnone, fun task hfound ↦ ?_⟩
        obtain rfl : (⟨path, after⟩ : PathTask) = task :=
          Option.some.inj (hfollowing.symm.trans hfound)
        rw [hsteps]
        refine (ih.2 _ htask).turn hturn hmtu hclosed ?_
        rw [hseen, view, hop, Option.bind_some, hfollowing, Option.bind_some]
      · have hsteps : stepsOf ((op, operations, seen) :: log) index = stepsOf log index := by
          simp [stepsOf, hop]
        rw [hsteps]
        refine ⟨fun hnone ↦ ih.1 ?_, fun task hfound ↦ ?_⟩
        · rw [List.getElem?_eq_none_iff] at hnone ⊢
          exact Nat.le_trans (tasks_length_le hstep) hnone
        · obtain hkept | ⟨hnone, hcontrol⟩ := task_of_other hop hstep hfound
          · exact ih.2 task hkept
          · rw [ih.1 hnone]
            refine ⟨.running ⟨by simp [packets], rfl⟩ ?_ rfl, rfl, by simp⟩
            rw [hcontrol]
            rfl

/-- A packet is judged by the packets up to it. -/
theorem rejection_of_taken {mtu : Nat} {taken arrivals : List Bytes} (h : taken <+: arrivals)
    {index : Nat} (hindex : index < taken.length) :
    rejection decode mtu arrivals index =
      reject decode mtu (taken.headD []) (taken.get ⟨index, hindex⟩) := by
  obtain ⟨rest, rfl⟩ := h
  have hhead : (taken ++ rest).headD [] = taken.headD [] := by
    cases taken with
    | nil => simp at hindex
    | cons _ _ => rfl
  rw [rejection, hhead, List.getElem?_append_left hindex, List.getElem?_eq_getElem hindex]
  rfl

/-- A consumer path admits the valid packets of one source. Let `k` be the index of the first packet
of the peer that is rejected. A future puts the payloads of the packets before `k` that it took to
the receive queue, in order and with its own address, and loses only those that find the queue full.
It takes no packet after `k`. When it takes packet `k`, it ends with the error of that packet;
otherwise it ends exactly when its last turn ends it, and as that turn says. It calls `send_packet`
with the datagrams that it dequeued from its path, in order. -/
theorem admits_valid_packets {localAddr : SocketAddr} {mtu queueCapacity : Nat} {socket : Socket}
    (hstart : Socket.withOptions localAddr mtu queueCapacity = some socket) {log : ViewLog}
    (h : ViewExec decode ⟨socket, []⟩ log paths) (index : Nat) {task : PathTask}
    (htask : paths.tasks[index]? = some task) (arrivals : List Bytes)
    (harrivals : packets (stepsOf log index) <+: arrivals) (k : Nat)
    (hbefore : ∀ i < k, rejection decode mtu arrivals i = none)
    (hfirst : k < arrivals.length → rejection decode mtu arrivals k ≠ none) :
    submitted (performed (stepsOf log index)) =
      ((packets (stepsOf log index)).take k).map
        (fun raw ↦ ⟨task.path.remote, payloadOf decode raw⟩) ∧
    (packets (stepsOf log index)).length ≤ k + 1 ∧
    (k < (packets (stepsOf log index)).length → ∃ error,
      rejection decode mtu arrivals k = some error ∧
      task.control.ended = some (some (.error error))) ∧
    ((packets (stepsOf log index)).length ≤ k →
      task.control.ended = (lastTurn (stepsOf log index)).bind Op.exit) ∧
    (∀ entry ∈ stepsOf log index, ∀ path payload result,
      (VirtualUdp.Op.tryReceive path payload, VirtualUdp.Out.received result) ∈ entry.2.1 →
      path = task.path ∧ Fate mtu entry.2.2.full payload result) ∧
    handed (stepsOf log index) = yielded (performed (stepsOf log index)) task.path := by
  have hadmission := (ViewExec.admitted hstart h index).2 task htask
  -- a valid packet is not the first rejected one
  have hpast : ∀ count ≤ (packets (stepsOf log index)).length,
      (∀ raw ∈ (packets (stepsOf log index)).take count,
        reject decode mtu ((packets (stepsOf log index)).headD []) raw = none) → count ≤ k := by
    intro count hcount hvalid
    by_contra hlt
    have hindex : k < (packets (stepsOf log index)).length := by omega
    refine hfirst (Nat.lt_of_lt_of_le hindex harrivals.length_le) ?_
    rw [rejection_of_taken harrivals hindex]
    refine hvalid _ (List.mem_take_iff_getElem.mpr ⟨k, by omega, rfl⟩)
  refine and_assoc.mp (and_assoc.mp (and_assoc.mp
    ⟨?_, hadmission.fates, hadmission.handed⟩))
  have hclean : Clean decode mtu task.path (stepsOf log index) →
      (packets (stepsOf log index)).length ≤ k ∧
      submitted (performed (stepsOf log index)) =
        ((packets (stepsOf log index)).take k).map
          fun raw ↦ ⟨task.path.remote, payloadOf decode raw⟩ := by
    intro clean
    have hlength := hpast _ (Nat.le_refl _) (by simpa using clean.valid)
    refine ⟨hlength, ?_⟩
    rw [List.take_of_length_le hlength]
    exact clean.submitted
  cases hadmission.standing with
  | running clean pinned goesOn =>
      obtain ⟨hlength, hsubmitted⟩ := hclean clean
      refine ⟨⟨⟨hsubmitted, by omega⟩, fun hlt ↦ by omega⟩, fun _ ↦ ?_⟩
      rw [goesOn]
      cases hcontrol : task.control <;> simp_all [Control.pinned, Control.ended]
  | ended clean ended last =>
      obtain ⟨hlength, hsubmitted⟩ := hclean clean
      exact ⟨⟨⟨hsubmitted, by omega⟩, fun hlt ↦ by omega⟩, fun _ ↦ ended.trans last.symm⟩
  | @rejected good bad error taken valid submitted failed ended =>
      have hlength : (packets (stepsOf log index)).length = good.length + 1 := by simp [taken]
      have hgood : (packets (stepsOf log index)).take good.length = good := by simp [taken]
      have hle : good.length ≤ k :=
        hpast good.length (by omega) (by rw [hgood]; exact valid)
      have hbad : rejection decode mtu arrivals good.length = some error := by
        rw [rejection_of_taken harrivals (by omega), ← failed]
        congr 1
        simp [taken]
      have hk : k = good.length := by
        by_contra hne
        have hnone := hbefore good.length (by omega)
        simp [hbad] at hnone
      subst hk
      refine ⟨⟨⟨?_, by omega⟩, fun _ ↦ ⟨error, hbad, ended⟩⟩, fun hshort ↦ by omega⟩
      rw [hgood]
      exact submitted

/-- The first packet finds the queue full because of another path, a datagram goes out to the peer,
the second packet is accepted, and the third one names another source. -/
theorem admits_valid_packets_of_changed_source : ∃ start log paths task,
    Socket.withOptions (.v4 0 0) 4 1 = some start ∧
    ViewExec (fun raw ↦ .ok ⟨if raw.head? = some 1 then "a" else "b", raw.tail⟩) ⟨start, []⟩ log
      paths ∧ paths.tasks[0]? = some task ∧
    submitted (performed (stepsOf log 0)) = [⟨.v4 1 1, [7]⟩, ⟨.v4 1 1, [8]⟩] ∧
    task.control.ended = some (some (.error (.sourceChanged "a" "b"))) ∧
    handed (stepsOf log 0) = [[6]] := by
  have hrun : Execution.run (observe view (next fun raw ↦
        .ok ⟨if raw.head? = some 1 then "a" else "b", raw.tail⟩))
      [.embedder .cloneArc, .embedder .cloneArc, .start ⟨.v4 1 1, 0⟩ 1, .start ⟨.v4 2 1, 1⟩ 1,
        .poll 1 false (.ready (.ok (some [2, 9]))), .poll 0 false (.ready (.ok (some [1, 7]))),
        .embedder (.lookup ⟨.v4 1 1, 0⟩ [6]), .embedder (.enqueue ⟨.v4 1 1, 0⟩),
        .poll 0 false .pending, .embedder (.pollRecv [4] 1), .sent 0 (.ok ()),
        .poll 0 false (.ready (.ok (some [1, 8]))), .poll 0 false (.ready (.ok (some [2, 5]))),
        .leave 0]
      ([], ⟨(Socket.withOptions (.v4 0 0) 4 1).get rfl, []⟩) = some (_, _) := rfl
  have hstart : Socket.withOptions (.v4 0 0) 4 1 = some _ := (Option.some_get rfl).symm
  have hexec : ViewExec _ _ _ _ := Execution.exec_of_run hrun
  obtain ⟨hsubmitted, _, hrejected, _, _, hhanded⟩ :=
    admits_valid_packets hstart hexec 0 rfl [[1, 7], [1, 8], [2, 5]] (by decide) 2
      (by decide) (by decide)
  obtain ⟨error, herror, hended⟩ := hrejected (by decide)
  obtain rfl : error = .sourceChanged "a" "b" := Option.some.inj (herror.symm.trans rfl)
  exact ⟨_, _, _, _, hstart, hexec, rfl, hsubmitted, hended, hhanded⟩

end Unbounded.ConsumerPath
