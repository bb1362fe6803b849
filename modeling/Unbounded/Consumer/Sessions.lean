import Unbounded.Consumer.Session
import Unbounded.ConsumerPath.Addresses

/-!
# Consumer sessions that share a socket

Any number of consumer sessions, started one by one by embedders or by `maintain_consumer` loops,
share one virtual socket and one allocator. A session holds an `Arc` of the socket from its start,
and gives it to `run_consumer_path` when it enters it. Every step reports the steps it made at the
shared endpoint, so that a run of the sessions is a run of the endpoint (`Exec.endpoint`).
-/

namespace Unbounded.Consumer

open Execution (Next getElem?_set_slot getElem?_append_of_some)
open ConsumerPath (Endpoint PathTask)
open VirtualUdp (Socket)

/-- A session with the path future it is in, and the reason why that future is being dropped. -/
structure Session where
  config : ConsumerConfig
  control : Control
  task : Option Nat
  interruption : Option Input

/-- The session is inside `run_consumer_path`. -/
def Session.inside (session : Session) : Bool :=
  session.task.isSome

/-- The session holds an `Arc` of the socket outside `run_consumer_path`. -/
def Session.holdsArc (session : Session) : Bool :=
  match session.task, session.control with
  | some _, _ => false
  | none, .closing _ => false
  | none, .returned _ => false
  | none, .dropped => false
  | none, _ => true

/-- The endpoint with all sessions ever started on it. -/
structure Sessions where
  endpoint : Endpoint
  sessions : List Session

namespace Sessions

/-- No session runs on a new endpoint. -/
def new (socket : Socket) : Sessions :=
  ⟨.new socket, []⟩

/-- The embedder does not drop the `Arc` of a session. -/
def embedderMay (state : Sessions) : VirtualUdp.Op → Bool
  | .dropArc => decide (state.endpoint.paths.running + state.sessions.countP Session.holdsArc +
      (if state.endpoint.paths.socket.calls.size = 0 then 0 else 1) <
        state.endpoint.paths.socket.arcs)
  | _ => true

/-- The steps of the sessions. -/
inductive Op where
  | embedder (op : VirtualUdp.Op)
  | start (config : ConsumerConfig)
  /-- A step of a session outside `run_consumer_path`. -/
  | step (session : Nat) (input : Input)
  | allocate (session : Nat)
  /-- Call `run_consumer_path`. -/
  | enter (session : Nat)
  /-- A step of the path future that a session is in. -/
  | path (session : Nat) (op : ConsumerPath.Op)
  /-- Drop the path future that a session is in, since the session was cancelled or dropped. -/
  | interrupt (session : Nat) (input : Input)
  /-- The path future is gone and the session goes on. -/
  | leave (session : Nat)

/-- Inputs that come from WebRTC, the signaling server, the timers or the owner of the session. -/
def external : Input → Bool
  | .allocated _ | .entered | .pathEnded _ => false
  | _ => true

/-- Perform steps at the endpoint and replace a session. -/
def perform (decode : Bytes → Except String UnboundedPacket) (state : Sessions) (index : Nat)
    (session : Session) (ops : List Endpoint.Op) : Option (Endpoint.Log × Sessions) :=
  (Execution.run (Endpoint.next decode) ops ([], state.endpoint)).map fun (log, endpoint) ↦
    (log, ⟨endpoint, state.sessions.set index session⟩)

/-- A session that no longer needs its `Arc` drops it. -/
def release (old new : Session) : List Endpoint.Op :=
  if old.holdsArc && !new.holdsArc then [.embedder .dropArc] else []

/-- One step of the sessions, with the steps made at the endpoint, newest first. -/
def next (codec : Codec) (decode : Bytes → Except String UnboundedPacket) :
    Next Sessions Op Endpoint.Log
  | state, .embedder op =>
      if state.embedderMay op then
        (Execution.run (Endpoint.next decode) [.embedder op] ([], state.endpoint)).map
          fun (log, endpoint) ↦ (log, { state with endpoint := endpoint })
      else none
  | state, .start config =>
      (Execution.run (Endpoint.next decode) [.embedder .cloneArc] ([], state.endpoint)).map
        fun (log, endpoint) ↦
          (log, ⟨endpoint, state.sessions ++ [⟨config, .connecting, none, none⟩]⟩)
  | state, .step index input =>
      match state.sessions[index]? with
      | some ⟨config, control, none, none⟩ =>
          if external input then
            (control.next codec config input).bind fun (_, following) ↦
              state.perform decode index ⟨config, following, none, none⟩
                (release ⟨config, control, none, none⟩ ⟨config, following, none, none⟩)
          else none
      | _ => none
  | state, .allocate index =>
      match state.sessions[index]? with
      | some ⟨config, control, none, none⟩ =>
          (control.next codec config (.allocated state.endpoint.allocator.allocate.1)).bind
            fun (_, following) ↦
              state.perform decode index ⟨config, following, none, none⟩
                (.allocate ::
                  release ⟨config, control, none, none⟩ ⟨config, following, none, none⟩)
      | _ => none
  | state, .enter index =>
      match state.sessions[index]? with
      | some ⟨config, .entering remote, none, none⟩ =>
          ((Control.entering remote).next codec config .entered).bind fun (_, following) ↦
            state.perform decode index
              ⟨config, following, some state.endpoint.paths.tasks.length, none⟩
              [.start remote config.pathQueueCapacity]
      | _ => none
  | state, .path index op =>
      match state.sessions[index]? with
      | some ⟨config, control, some task, none⟩ =>
          if op.task = some task ∧ op ≠ .leave task ∧ op ≠ .dropFuture task then
            state.perform decode index ⟨config, control, some task, none⟩ [.path op]
          else none
      | _ => none
  | state, .interrupt index input =>
      match state.sessions[index]? with
      | some ⟨config, control, some task, none⟩ =>
          if input = .cancelled ∨ input = .dropped then
            state.perform decode index ⟨config, control, some task, some input⟩
              [.path (.dropFuture task)]
          else none
      | _ => none
  | state, .leave index =>
      match state.sessions[index]? with
      | some ⟨config, control, some task, interruption⟩ =>
          -- a future that was not dropped returns its result to the session
          let ended := (state.endpoint.paths.tasks[task]?.bind PathTask.result).map Input.pathEnded
          (interruption.or ended).bind fun input ↦
            (control.next codec config input).bind fun (_, following) ↦
              state.perform decode index ⟨config, following, none, none⟩ [.path (.leave task)]
      | _ => none

/-- A log of the sessions. -/
abbrev Log := Execution.Log Op Endpoint.Log

/-- Executions of the sessions. -/
abbrev Exec (codec : Codec) (decode : Bytes → Except String UnboundedPacket) :=
  Execution.Exec (next codec decode)

/-- The steps at the endpoint in a run, newest first. -/
def endpointLog (log : Log) : Endpoint.Log :=
  log.flatMap Prod.snd

variable {codec : Codec} {decode : Bytes → Except String UnboundedPacket}
  {state following : Sessions}

/-- The session that takes a step. -/
def Op.session : Op → Option Nat
  | .embedder _ | .start _ => none
  | .step session _ | .allocate session | .enter session | .path session _ | .interrupt session _
  | .leave session => some session

/-- What a future that was not dropped returns to its session. -/
def ended (state : Sessions) (task : Nat) : Option Input :=
  (state.endpoint.paths.tasks[task]?.bind PathTask.result).map Input.pathEnded

/-- Everything a session can do in a step, and the steps that it makes at the endpoint. -/
inductive Act (codec : Codec) (state : Sessions) (index : Nat) :
    Op → Session → Session → List Endpoint.Op → Prop where
  | step {config control input effect following}
      (hnext : control.next codec config input = some (effect, following)) :
      Act codec state index (.step index input) ⟨config, control, none, none⟩
        ⟨config, following, none, none⟩
        (release ⟨config, control, none, none⟩ ⟨config, following, none, none⟩)
  | allocate {config control effect following}
      (hnext : control.next codec config (.allocated state.endpoint.allocator.allocate.1) =
        some (effect, following)) :
      Act codec state index (.allocate index) ⟨config, control, none, none⟩
        ⟨config, following, none, none⟩
        (.allocate :: release ⟨config, control, none, none⟩ ⟨config, following, none, none⟩)
  | enter {config remote} :
      Act codec state index (.enter index) ⟨config, .entering remote, none, none⟩
        ⟨config, .inPath remote, some state.endpoint.paths.tasks.length, none⟩
        [.start remote config.pathQueueCapacity]
  | path {config control task op} (htask : op.task = some task) (hstays : op ≠ .leave task) :
      Act codec state index (.path index op) ⟨config, control, some task, none⟩
        ⟨config, control, some task, none⟩ [.path op]
  | interrupt {config control task input} (hinput : input = .cancelled ∨ input = .dropped) :
      Act codec state index (.interrupt index input) ⟨config, control, some task, none⟩
        ⟨config, control, some task, some input⟩ [.path (.dropFuture task)]
  | leave {config control task interruption input effect following}
      (hinput : interruption.or (state.ended task) = some input)
      (hnext : control.next codec config input = some (effect, following)) :
      Act codec state index (.leave index) ⟨config, control, some task, interruption⟩
        ⟨config, following, none, none⟩ [.path (.leave task)]

/-- A session that is replaced made its steps at the endpoint. -/
theorem perform_spec {index : Nat} {session : Session} {ops : List Endpoint.Op}
    {log : Endpoint.Log} (h : state.perform decode index session ops = some (log, following)) :
    ∃ endpoint, Execution.run (Endpoint.next decode) ops ([], state.endpoint) =
      some (log, endpoint) ∧ following = ⟨endpoint, state.sessions.set index session⟩ := by
  simp only [perform, Option.map_eq_some_iff, Prod.mk.injEq] at h
  obtain ⟨⟨_, endpoint⟩, hrun, rfl, rfl⟩ := h
  exact ⟨endpoint, hrun, rfl⟩

/-- Every step that a session takes is an `Act`. -/
theorem act_of_next {op : Op} {index : Nat} {log : Endpoint.Log}
    (h : next codec decode state op = some (log, following)) (hop : op.session = some index) :
    ∃ old new ops endpoint, state.sessions[index]? = some old ∧
      Act codec state index op old new ops ∧
      Execution.run (Endpoint.next decode) ops ([], state.endpoint) = some (log, endpoint) ∧
      following = ⟨endpoint, state.sessions.set index new⟩ := by
  cases op with
  | embedder _ => simp [Op.session] at hop
  | start _ => simp [Op.session] at hop
  | step index input =>
      obtain rfl := Option.some.inj hop
      simp only [next] at h
      split at h
      case h_2 => simp at h
      case h_1 config control hold =>
        split at h
        case isFalse => simp at h
        case isTrue =>
          simp only [Option.bind_eq_some_iff] at h
          obtain ⟨⟨effect, moved⟩, hnext, hperform⟩ := h
          obtain ⟨endpoint, hrun, hfollowing⟩ := perform_spec hperform
          exact ⟨_, _, _, endpoint, hold, .step hnext, hrun, hfollowing⟩
  | allocate index =>
      obtain rfl := Option.some.inj hop
      simp only [next] at h
      split at h
      case h_2 => simp at h
      case h_1 config control hold =>
        simp only [Option.bind_eq_some_iff] at h
        obtain ⟨⟨effect, moved⟩, hnext, hperform⟩ := h
        obtain ⟨endpoint, hrun, hfollowing⟩ := perform_spec hperform
        exact ⟨_, _, _, endpoint, hold, .allocate hnext, hrun, hfollowing⟩
  | enter index =>
      obtain rfl := Option.some.inj hop
      simp only [next] at h
      split at h
      case h_2 => simp at h
      case h_1 config remote hold =>
        obtain ⟨endpoint, hrun, hfollowing⟩ := perform_spec h
        exact ⟨_, _, _, endpoint, hold, .enter, hrun, hfollowing⟩
  | path index op =>
      obtain rfl := Option.some.inj hop
      simp only [next] at h
      split at h
      case h_2 => simp at h
      case h_1 config control task hold =>
        split at h
        case isFalse => simp at h
        case isTrue hpath =>
          obtain ⟨endpoint, hrun, hfollowing⟩ := perform_spec h
          exact ⟨_, _, _, endpoint, hold, .path hpath.1 hpath.2.1, hrun, hfollowing⟩
  | interrupt index input =>
      obtain rfl := Option.some.inj hop
      simp only [next] at h
      split at h
      case h_2 => simp at h
      case h_1 config control task hold =>
        split at h
        case isFalse => simp at h
        case isTrue hinput =>
          obtain ⟨endpoint, hrun, hfollowing⟩ := perform_spec h
          exact ⟨_, _, _, endpoint, hold, .interrupt hinput, hrun, hfollowing⟩
  | leave index =>
      obtain rfl := Option.some.inj hop
      simp only [next] at h
      split at h
      case h_2 => simp at h
      case h_1 config control task interruption hold =>
        simp only [Option.bind_eq_some_iff] at h
        obtain ⟨input, hinput, ⟨effect, moved⟩, hnext, hperform⟩ := h
        obtain ⟨endpoint, hrun, hfollowing⟩ := perform_spec hperform
        exact ⟨_, _, _, endpoint, hold, .leave hinput hnext, hrun, hfollowing⟩

/-- Everything a step of the sessions can be: steps at the endpoint, and possibly one session that
starts or moves. -/
inductive Change (decode : Bytes → Except String UnboundedPacket) (state : Sessions) :
    Endpoint.Log → Sessions → Prop where
  | embedder {op log endpoint}
      (hrun : Execution.run (Endpoint.next decode) [.embedder op] ([], state.endpoint) =
        some (log, endpoint)) :
      Change decode state log { state with endpoint := endpoint }
  | start {config log endpoint}
      (hrun : Execution.run (Endpoint.next decode) [.embedder .cloneArc] ([], state.endpoint) =
        some (log, endpoint)) :
      Change decode state log ⟨endpoint, state.sessions ++ [⟨config, .connecting, none, none⟩]⟩
  /-- A session moves while it stays outside or inside `run_consumer_path`. -/
  | move {index old new ops log endpoint} (hold : state.sessions[index]? = some old)
      (hinside : new.inside = old.inside) (hstarts : ∀ op ∈ ops, Endpoint.Op.starts op = 0)
      (hleaves : ∀ op ∈ ops, Endpoint.Op.leaves op = 0)
      (hrun : Execution.run (Endpoint.next decode) ops ([], state.endpoint) =
        some (log, endpoint)) :
      Change decode state log ⟨endpoint, state.sessions.set index new⟩
  | enter {index old new remote queueCapacity log endpoint}
      (hold : state.sessions[index]? = some old) (houtside : old.inside = false)
      (hinside : new.inside = true)
      (hrun : Execution.run (Endpoint.next decode) [.start remote queueCapacity]
        ([], state.endpoint) = some (log, endpoint)) :
      Change decode state log ⟨endpoint, state.sessions.set index new⟩
  | leave {index old new task log endpoint} (hold : state.sessions[index]? = some old)
      (hinside : old.inside = true) (houtside : new.inside = false)
      (hrun : Execution.run (Endpoint.next decode) [.path (.leave task)] ([], state.endpoint) =
        some (log, endpoint)) :
      Change decode state log ⟨endpoint, state.sessions.set index new⟩

/-- Dropping an `Arc` starts no future and ends none. -/
theorem release_quiet (old new : Session) :
    ∀ op ∈ release old new, Endpoint.Op.starts op = 0 ∧ Endpoint.Op.leaves op = 0 := by
  intro op hmem
  unfold release at hmem
  split at hmem
  · rw [List.mem_singleton] at hmem
    subst hmem
    exact ⟨rfl, rfl⟩
  · simp at hmem

/-- The steps at the endpoint of a session that neither enters nor leaves `run_consumer_path` start
no future and end none. -/
theorem Act.quiet {op : Op} {index : Nat} {old new : Session} {ops : List Endpoint.Op}
    (h : Act codec state index op old new ops) (hinside : new.inside = old.inside) :
    ∀ other ∈ ops, Endpoint.Op.starts other = 0 ∧ Endpoint.Op.leaves other = 0 := by
  cases h with
  | step => exact release_quiet _ _
  | allocate =>
      rintro other (_ | ⟨_, hmem⟩)
      · exact ⟨rfl, rfl⟩
      · exact release_quiet _ _ other hmem
  | enter => simp [Session.inside] at hinside
  | @path _ _ _ op htask hstays =>
      rintro other hmem
      rw [List.mem_singleton] at hmem
      subst hmem
      refine ⟨rfl, ?_⟩
      cases op with
      | leave leaving =>
          simp only [ConsumerPath.Op.task, Option.some.injEq] at htask
          exact absurd (congrArg ConsumerPath.Op.leave htask) hstays
      | _ => rfl
  | interrupt => simp [Endpoint.Op.starts, Endpoint.Op.leaves]
  | leave => simp [Session.inside] at hinside

/-- A step of the embedder is a step at the endpoint. -/
theorem embedder_of_next {op : VirtualUdp.Op} {log : Endpoint.Log}
    (h : next codec decode state (.embedder op) = some (log, following)) :
    ∃ endpoint, Execution.run (Endpoint.next decode) [.embedder op] ([], state.endpoint) =
      some (log, endpoint) ∧ following = { state with endpoint := endpoint } := by
  simp only [next] at h
  split at h
  case isFalse => simp at h
  case isTrue =>
    simp only [Option.map_eq_some_iff, Prod.mk.injEq] at h
    obtain ⟨⟨_, endpoint⟩, hrun, rfl, rfl⟩ := h
    exact ⟨endpoint, hrun, rfl⟩

/-- A session that starts takes an `Arc` and the next slot. -/
theorem start_of_next {config : ConsumerConfig} {log : Endpoint.Log}
    (h : next codec decode state (.start config) = some (log, following)) :
    ∃ endpoint, Execution.run (Endpoint.next decode) [.embedder .cloneArc] ([], state.endpoint) =
      some (log, endpoint) ∧
      following = ⟨endpoint, state.sessions ++ [⟨config, .connecting, none, none⟩]⟩ := by
  simp only [next, Option.map_eq_some_iff, Prod.mk.injEq] at h
  obtain ⟨⟨_, endpoint⟩, hrun, rfl, rfl⟩ := h
  exact ⟨endpoint, hrun, rfl⟩

/-- A step of another session, or of the embedder, leaves a session as it is. -/
theorem session_of_next {op : Op} {log : Endpoint.Log} {index : Nat} {session : Session}
    (h : next codec decode state op = some (log, following)) (hop : op.session ≠ some index)
    (hsession : state.sessions[index]? = some session) :
    following.sessions[index]? = some session := by
  cases hmoved : op.session with
  | none =>
      cases op with
      | embedder op =>
          obtain ⟨_, _, rfl⟩ := embedder_of_next h
          exact hsession
      | start config =>
          obtain ⟨_, _, rfl⟩ := start_of_next h
          exact getElem?_append_of_some hsession _
      | _ => simp [Op.session] at hmoved
  | some moved =>
      obtain ⟨old, new, _, _, hold, _, _, rfl⟩ := act_of_next h hmoved
      have hne : moved ≠ index := by
        rintro rfl
        exact hop hmoved
      show (state.sessions.set moved new)[index]? = some session
      rw [getElem?_set_slot hold, if_neg hne]
      exact hsession

/-- Every step of the sessions is a `Change`. -/
theorem change_of_next {op : Op} {log : Endpoint.Log}
    (h : next codec decode state op = some (log, following)) :
    Change decode state log following := by
  cases hop : op.session with
  | none =>
      cases op with
      | embedder op =>
          obtain ⟨_, hrun, rfl⟩ := embedder_of_next h
          exact .embedder hrun
      | start config =>
          obtain ⟨_, hrun, rfl⟩ := start_of_next h
          exact .start hrun
      | _ => simp [Op.session] at hop
  | some index =>
      obtain ⟨old, new, ops, endpoint, hold, hact, hrun, rfl⟩ := act_of_next h hop
      have hmove (hinside : new.inside = old.inside) :
          Change decode state log ⟨endpoint, state.sessions.set index new⟩ :=
        .move hold hinside (fun op hmem ↦ (hact.quiet hinside op hmem).1)
          (fun op hmem ↦ (hact.quiet hinside op hmem).2) hrun
      cases hact with
      | step => exact hmove rfl
      | allocate => exact hmove rfl
      | path => exact hmove rfl
      | interrupt => exact hmove rfl
      | enter => exact .enter hold rfl rfl hrun
      | leave => exact .leave hold rfl rfl hrun

/-- A step of the sessions is a run at the endpoint. -/
theorem Change.endpoint {log : Endpoint.Log} (h : Change decode state log following) :
    Endpoint.Exec decode state.endpoint log following.endpoint := by
  cases h with
  | embedder hrun => exact Execution.exec_of_run hrun
  | start hrun => exact Execution.exec_of_run hrun
  | move _ _ _ _ hrun => exact Execution.exec_of_run hrun
  | enter _ _ _ hrun => exact Execution.exec_of_run hrun
  | leave _ _ _ hrun => exact Execution.exec_of_run hrun

/-- A run of the sessions is a run at the endpoint. -/
theorem Exec.endpoint {start : Sessions} {log : Log} (h : Exec codec decode start log state) :
    Endpoint.Exec decode start.endpoint (endpointLog log) state.endpoint := by
  induction h with
  | refl => exact .refl
  | snoc _ hnext ih => exact ih.trans (change_of_next hnext).endpoint

end Sessions

end Unbounded.Consumer
