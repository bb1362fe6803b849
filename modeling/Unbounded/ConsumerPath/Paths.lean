import Unbounded.ConsumerPath.Path
import Unbounded.VirtualUdp.Isolation

/-!
# Consumer paths on a shared socket

Any number of `run_consumer_path` futures share a virtual socket with an embedder that owns the
socket and may also add, use and drop paths of its own. A future takes over an `Arc` of the socket
and holds it with its own `VirtualPath` from its start until it has left. Every step reports the
socket operations it performed, so that a run of the paths is a run of the socket (`Exec.socket`).
-/

namespace Unbounded.ConsumerPath

open Execution (Next)
open Tokio (Poll)
open VirtualUdp (Socket PathId)

/-- A future of `run_consumer_path`. -/
structure PathTask where
  path : PathId
  control : Control
  deriving DecidableEq

/-- The future has not left: it holds its `Arc` and its path. -/
def PathTask.running (task : PathTask) : Bool :=
  match task.control with
  | .left _ => false
  | _ => true

/-- What the future returned, or is about to return. -/
def PathTask.result (task : PathTask) : Option PathResult :=
  match task.control with
  | .leaving result => result
  | .left result => result
  | _ => none

/-- The socket with all futures that ever ran on it. -/
structure Paths where
  socket : Socket
  tasks : List PathTask

namespace Paths

/-- The number of futures that have not left. -/
def running (paths : Paths) : Nat :=
  paths.tasks.countP PathTask.running

/-- A path that belongs to a future. -/
def owned (paths : Paths) (path : PathId) : Bool :=
  paths.tasks.any fun task ↦ task.running && decide (task.path = path)

/-- Move a future to another control point. -/
def move (paths : Paths) (index : Nat) (path : PathId) (control : Control) : Paths :=
  { paths with tasks := paths.tasks.set index ⟨path, control⟩ }

/-- The embedder has an `Arc` to give away: it keeps one for the calls of `try_send` in
progress. -/
def spare (paths : Paths) : Bool :=
  decide (paths.running + (if paths.socket.calls.size = 0 then 0 else 1) < paths.socket.arcs)

/-- The embedder may perform a socket operation through an `Arc` of its own, and an operation on a
path only when it owns the path. -/
def embedderMay (paths : Paths) : VirtualUdp.Op → Bool
  | .dropArc => paths.spare
  | .cloneArc | .addPath _ _ | .lookup _ _ | .pollRecv _ _ =>
      decide (paths.running < paths.socket.arcs)
  | .enqueue _ => true
  | .dropPath path | .nextOutgoing path | .tryReceive path _ => !paths.owned path

end Paths

/-- The steps of the paths. -/
inductive Op where
  /-- An operation of the embedder. -/
  | embedder (op : VirtualUdp.Op)
  /-- Call `run_consumer_path` with an `Arc` of the embedder, which moves into the future. -/
  | start (path : PathId) (queueCapacity : Nat)
  /-- Poll a future at its `select!`, with the state of its token and of `recv_packet`. -/
  | poll (task : Nat) (cancelled : Bool) (peer : Poll (Except String (Option Bytes)))
  /-- The pending `send_packet` of a future ends. -/
  | sent (task : Nat) (result : Except String Unit)
  /-- The owner drops a future at one of its await points. -/
  | dropFuture (task : Nat)
  /-- A future that ended drops its path and its `Arc`. -/
  | leave (task : Nat)
  deriving DecidableEq

/-- The poll of a future at its `select!`: the operation it performs on the socket, if any, and
where it goes. -/
def pollSelect (decode : Bytes → Except String UnboundedPacket) (socket : Socket) (path : PathId)
    (source : Option String) (cancelled : Bool) (peer : Poll (Except String (Option Bytes))) :
    Option (VirtualUdp.Log × Control × Socket) :=
  if cancelled then some ([], .leaving (some (.ok .cancelled)), socket)
  else match peer with
    | .ready (.error error) => some ([], .leaving (some (.error (.transport error))), socket)
    | .ready (.ok none) => some ([], .leaving (some (.ok .peerClosed)), socket)
    | .ready (.ok (some raw)) =>
        match inspect decode source raw with
        | .error error => some ([], .leaving (some (.error error)), socket)
        | .ok packet =>
            (socket.tryReceive path packet.payload).map fun (result, following) ↦
              ([(.tryReceive path packet.payload, .received result)],
                .afterReceive packet.sourceAddr result, following)
    | .pending =>
        (socket.nextOutgoing path).map fun (result, following) ↦
          ([(.nextOutgoing path, .outgoing result)], .afterOutgoing source result, following)

/-- One step of the paths, with the socket operations it performed, newest first. -/
def next (decode : Bytes → Except String UnboundedPacket) : Next Paths Op VirtualUdp.Log
  | paths, .embedder op =>
      if paths.embedderMay op then
        (VirtualUdp.next paths.socket op).map fun (out, following) ↦
          ([(op, out)], { paths with socket := following })
      else none
  | paths, .start path queueCapacity =>
      if paths.spare then
        (paths.socket.addPath path queueCapacity).map fun following ↦
          ([(.addPath path queueCapacity, .unit)],
            ⟨following, paths.tasks ++ [⟨path, .selecting none⟩]⟩)
      else none
  | paths, .poll task cancelled peer =>
      match paths.tasks[task]? with
      | some ⟨path, .selecting source⟩ =>
          (pollSelect decode paths.socket path source cancelled peer).map
            fun (log, control, following) ↦
              (log, { paths with socket := following }.move task path control)
      | _ => none
  | paths, .sent task result =>
      match paths.tasks[task]? with
      | some ⟨path, .sending source _⟩ =>
          some ([], paths.move task path (.afterSend source result))
      | _ => none
  | paths, .dropFuture task =>
      match paths.tasks[task]? with
      | some ⟨path, .selecting _⟩ => some ([], paths.move task path (.leaving none))
      | some ⟨path, .sending _ _⟩ => some ([], paths.move task path (.leaving none))
      | _ => none
  | paths, .leave task =>
      match paths.tasks[task]? with
      | some ⟨path, .leaving result⟩ =>
          (paths.socket.dropPath path).bind fun dropped ↦
            dropped.dropArc.map fun following ↦
              ([(.dropArc, .unit), (.dropPath path, .unit)],
                { paths with socket := following }.move task path (.left result))
      | _ => none

/-- A log of the paths. -/
abbrev Log := Execution.Log Op VirtualUdp.Log

/-- Executions of the paths. -/
abbrev Exec (decode : Bytes → Except String UnboundedPacket) := Execution.Exec (next decode)

/-- The socket operations of a run, newest first. -/
def socketLog (log : Log) : VirtualUdp.Log :=
  log.flatMap Prod.snd

/-- The future that takes a step. -/
def Op.task : Op → Option Nat
  | .embedder _ | .start _ _ => none
  | .poll task _ _ | .sent task _ | .dropFuture task | .leave task => some task

variable {decode : Bytes → Except String UnboundedPacket} {paths following : Paths}

/-- A future moves on without touching the socket: it goes back to its `select!`, or it ends for a
reason that has nothing to do with the socket. -/
def Control.Quiet : Control → Prop
  | .selecting _ => True
  | .leaving result => result ≠ some (.ok .socketClosed)
  | _ => False

/-- Everything a step of the paths can be. -/
inductive Change (decode : Bytes → Except String UnboundedPacket) (paths : Paths) :
    Op → VirtualUdp.Log → Paths → Prop where
  | embedder {op out socket} (hmay : paths.embedderMay op = true)
      (hnext : VirtualUdp.next paths.socket op = some (out, socket)) :
      Change decode paths (.embedder op) [(op, out)] { paths with socket := socket }
  | start {path queueCapacity socket} (hspare : paths.spare = true)
      (hadd : paths.socket.addPath path queueCapacity = some socket) :
      Change decode paths (.start path queueCapacity) [(.addPath path queueCapacity, .unit)]
        ⟨socket, paths.tasks ++ [⟨path, .selecting none⟩]⟩
  | turn {op index task control} (hop : op.task = some index) (hstays : op ≠ .leave index)
      (htask : paths.tasks[index]? = some task) (hrunning : task.running = true)
      (hquiet : control.Quiet) :
      Change decode paths op [] (paths.move index task.path control)
  | received {index path source raw packet result socket}
      (htask : paths.tasks[index]? = some ⟨path, .selecting source⟩)
      (hinspect : inspect decode source raw = .ok packet)
      (hreceive : paths.socket.tryReceive path packet.payload = some (result, socket)) :
      Change decode paths (.poll index false (.ready (.ok (some raw))))
        [(.tryReceive path packet.payload, .received result)]
        ({ paths with socket := socket }.move index path
          (.afterReceive packet.sourceAddr result))
  | outgoing {index path source result socket}
      (htask : paths.tasks[index]? = some ⟨path, .selecting source⟩)
      (houtgoing : paths.socket.nextOutgoing path = some (result, socket)) :
      Change decode paths (.poll index false .pending)
        [(.nextOutgoing path, .outgoing result)]
        ({ paths with socket := socket }.move index path (.afterOutgoing source result))
  | leave {index path result dropped socket}
      (htask : paths.tasks[index]? = some ⟨path, .leaving result⟩)
      (hdrop : paths.socket.dropPath path = some dropped)
      (harc : dropped.dropArc = some socket) :
      Change decode paths (.leave index) [(.dropArc, .unit), (.dropPath path, .unit)]
        ({ paths with socket := socket }.move index path (.left result))

/-- The poll of a future is a `Change`. -/
theorem change_of_pollSelect {index : Nat} {path : PathId} {source : Option String}
    {cancelled : Bool} {peer : Poll (Except String (Option Bytes))} {log : VirtualUdp.Log}
    {control : Control} {socket : Socket}
    (htask : paths.tasks[index]? = some ⟨path, .selecting source⟩)
    (h : pollSelect decode paths.socket path source cancelled peer =
      some (log, control, socket)) :
    Change decode paths (.poll index cancelled peer) log
      ({ paths with socket := socket }.move index path control) := by
  -- an exit taken before the socket is used
  have hexit : ∀ result : PathResult, result ≠ .ok .socketClosed →
      some (([] : VirtualUdp.Log), Control.leaving (some result), paths.socket) =
        some (log, control, socket) →
      Change decode paths (.poll index cancelled peer) log
        ({ paths with socket := socket }.move index path control) := by
    intro result hresult heq
    simp only [Option.some.injEq, Prod.mk.injEq] at heq
    obtain ⟨rfl, rfl, rfl⟩ := heq
    exact .turn rfl (by simp) htask rfl (by simpa [Control.Quiet] using hresult)
  unfold pollSelect at h
  cases cancelled with
  | true => exact hexit _ (by simp) h
  | false =>
      simp only [Bool.false_eq_true, if_false] at h
      cases peer with
      | pending =>
          simp only [Option.map_eq_some_iff, Prod.mk.injEq] at h
          obtain ⟨⟨result, polled⟩, houtgoing, rfl, rfl, rfl⟩ := h
          exact .outgoing htask houtgoing
      | ready arrived =>
          cases arrived with
          | error error => exact hexit _ (by simp) h
          | ok packet =>
              cases packet with
              | none => exact hexit _ (by simp) h
              | some raw =>
                  cases hinspect : inspect decode source raw with
                  | error error =>
                      simp only [hinspect] at h
                      exact hexit _ (by simp) h
                  | ok packet =>
                      simp only [hinspect, Option.map_eq_some_iff, Prod.mk.injEq] at h
                      obtain ⟨⟨result, received⟩, hreceive, rfl, rfl, rfl⟩ := h
                      exact .received htask hinspect hreceive

/-- Every step of the paths is one of the moves above. -/
theorem change_of_next {op : Op} {log : VirtualUdp.Log}
    (h : next decode paths op = some (log, following)) :
    Change decode paths op log following := by
  cases op with
  | embedder op =>
      simp only [next] at h
      split at h
      case isFalse => simp at h
      case isTrue hmay =>
        simp only [Option.map_eq_some_iff, Prod.mk.injEq] at h
        obtain ⟨⟨out, socket⟩, hnext, rfl, rfl⟩ := h
        exact .embedder hmay hnext
  | start path queueCapacity =>
      simp only [next] at h
      split at h
      case isFalse => simp at h
      case isTrue hspare =>
        simp only [Option.map_eq_some_iff, Prod.mk.injEq] at h
        obtain ⟨socket, hadd, rfl, rfl⟩ := h
        exact .start hspare hadd
  | poll index cancelled peer =>
      simp only [next] at h
      split at h
      case h_2 => simp at h
      case h_1 path source htask =>
        simp only [Option.map_eq_some_iff, Prod.mk.injEq] at h
        obtain ⟨⟨performed, control, socket⟩, hpoll, rfl, rfl⟩ := h
        exact change_of_pollSelect htask hpoll
  | sent index result =>
      simp only [next] at h
      split at h
      case h_2 => simp at h
      case h_1 path source packet htask =>
        simp only [Option.some.injEq, Prod.mk.injEq] at h
        obtain ⟨rfl, rfl⟩ := h
        cases result with
        | ok _ => exact .turn rfl (by simp) htask rfl trivial
        | error error =>
            exact .turn rfl (by simp) htask rfl (by simp [Control.afterSend, Control.Quiet])
  | dropFuture index =>
      simp only [next] at h
      split at h
      case h_1 path source htask =>
        simp only [Option.some.injEq, Prod.mk.injEq] at h
        obtain ⟨rfl, rfl⟩ := h
        exact .turn rfl (by simp) htask rfl (by simp [Control.Quiet])
      case h_2 path source packet htask =>
        simp only [Option.some.injEq, Prod.mk.injEq] at h
        obtain ⟨rfl, rfl⟩ := h
        exact .turn rfl (by simp) htask rfl (by simp [Control.Quiet])
      case h_3 => simp at h
  | leave index =>
      simp only [next] at h
      split at h
      case h_2 => simp at h
      case h_1 path result htask =>
        simp only [Option.bind_eq_some_iff, Option.map_eq_some_iff, Prod.mk.injEq] at h
        obtain ⟨dropped, hdrop, socket, harc, rfl, rfl⟩ := h
        exact .leave htask hdrop harc

/-! ## The run of the socket -/

/-- A step of the paths is a run of the socket. -/
theorem Change.socket {op : Op} {log : VirtualUdp.Log} (h : Change decode paths op log following) :
    VirtualUdp.Exec paths.socket log following.socket := by
  cases h with
  | embedder _ hnext => exact .snoc .refl hnext
  | start _ hadd => exact .snoc .refl (VirtualUdp.Effect.addPath hadd).next
  | turn => exact .refl
  | received _ _ hreceive => exact .snoc .refl (VirtualUdp.Effect.tryReceive hreceive).next
  | outgoing _ houtgoing => exact .snoc .refl (VirtualUdp.Effect.nextOutgoing houtgoing).next
  | leave _ hdrop harc =>
      exact .snoc (.snoc .refl (VirtualUdp.Effect.dropPath hdrop).next)
        (VirtualUdp.Effect.dropArc harc).next

/-- A run of the paths is a run of the socket. -/
theorem Exec.socket {start : Paths} {log : Log} (h : Exec decode start log paths) :
    VirtualUdp.Exec start.socket (socketLog log) paths.socket := by
  induction h with
  | refl => exact .refl
  | snoc _ hnext ih => exact ih.trans (change_of_next hnext).socket

end Unbounded.ConsumerPath
