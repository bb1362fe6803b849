import Unbounded.PeerProxy.Peer
import Unbounded.Supervisor.Accounting

/-!
# A worker of the pool

One worker of `supervise_peer_proxy_pool` in `src/supervisor.rs`: a supervisor, the sessions that it
has run with their state callbacks, and the channel on which all of them send their events to the
worker. Callbacks outlive their sessions and keep sending. The worker forwards events while its
supervisor runs. When the supervisor returns, it drains the channel until it finds it empty, and
returns too. What is sent after that is lost.
-/

namespace Unbounded.Supervisor

open Execution (Next restrict)
open PeerProxy (Codec Peer PeerProxyError)

/-- Where a worker is. -/
inductive Stage where
  /-- In the `select!` loop. -/
  | looping
  /-- The supervisor has returned. -/
  | draining
  | finished
  deriving DecidableEq, Repr

/-- A worker with what it supervises. -/
structure Worker where
  supervision : Supervision
  /-- The sessions of its attempts, the last one at the end, each with its callbacks. -/
  sessions : List Peer
  /-- The events on its channel, oldest first. -/
  queue : List SupervisorEvent
  stage : Stage

namespace Worker

/-- A worker that has just been made. -/
def new (config : SupervisorConfig) (cancelled : Bool) : Worker :=
  ⟨.new config cancelled, [], [], .looping⟩

/-- What can happen to a worker. -/
inductive Op where
  | supervise (op : Supervisor.Op)
  /-- A step of a session or of one of its callbacks. -/
  | session (index : Nat) (op : Peer.Op)
  /-- `recv` has an event while the supervisor runs. -/
  | forward
  /-- The supervisor is ready. -/
  | finish
  /-- `try_recv` has an event. -/
  | drain
  /-- `try_recv` finds the channel empty. -/
  | complete

/-- What a step does: the step of the supervisor, an event that is put on the channel, and an event
that is forwarded. -/
structure Out where
  supervised : Supervision.Log
  enqueued : Option SupervisorEvent
  forwarded : Option SupervisorEvent

/-- `run_session` returns what the session of the attempt has returned. -/
def awaited (worker : Worker) : Supervisor.Op → Bool
  | .sessionReturned result _ => worker.sessions.getLast?.any (·.control = .returned result)
  | _ => true

/-- A session sees the cancellation of the worker's token. -/
def permits (worker : Worker) : Peer.Op → Bool
  | .session .cancelled => worker.supervision.cancelled
  | _ => true

/-- The session of an attempt that is started. -/
def started : Supervisor.Op → List Peer
  | .start => [.new true]
  | _ => []

/-- An event reaches the channel as long as the worker has its receiver. -/
def received (worker : Worker) (event : Option SupervisorEvent) : Option SupervisorEvent :=
  if worker.stage = .finished then none else event

/-- One step of a worker. -/
def next (codec : Codec) (display : PeerProxyError → String) : Next Worker Op Out
  | worker, .supervise op =>
      if (op = .cancel ∨ worker.stage = .looping) ∧ worker.awaited op then
        (Supervision.next display worker.supervision op).map fun (event, supervision) ↦
          (⟨[(op, event)], event, none⟩,
            { worker with
              supervision := supervision
              sessions := worker.sessions ++ started op
              queue := worker.queue ++ event.toList })
      else none
  | worker, .session index op =>
      if worker.permits op then
        worker.sessions[index]?.bind fun peer ↦
          (Peer.next codec peer op).map fun (out, moved) ↦
            (⟨[], worker.received out.event, none⟩,
              { worker with
                sessions := worker.sessions.set index moved
                queue := worker.queue ++ (worker.received out.event).toList })
      else none
  | ⟨supervision, sessions, event :: queue, .looping⟩, .forward =>
      if supervision.control = .returned then none
      else some (⟨[], none, some event⟩, ⟨supervision, sessions, queue, .looping⟩)
  | ⟨supervision, sessions, queue, .looping⟩, .finish =>
      if supervision.control = .returned then
        some (⟨[], none, none⟩, ⟨supervision, sessions, queue, .draining⟩)
      else none
  | ⟨supervision, sessions, event :: queue, .draining⟩, .drain =>
      some (⟨[], none, some event⟩, ⟨supervision, sessions, queue, .draining⟩)
  | ⟨supervision, sessions, [], .draining⟩, .complete =>
      some (⟨[], none, none⟩, ⟨supervision, sessions, [], .finished⟩)
  | _, _ => none

/-- A log of a worker. -/
abbrev Log := Execution.Log Op Out

/-- Executions of a worker. -/
abbrev Exec (codec : Codec) (display : PeerProxyError → String) :=
  Execution.Exec (next codec display)

/-- The log of the supervisor. -/
def supervised (log : Log) : Supervision.Log :=
  log.flatMap fun entry ↦ entry.2.supervised

/-- The events that were put on the channel, newest first. -/
def enqueued (log : Log) : List SupervisorEvent :=
  log.filterMap fun entry ↦ entry.2.enqueued

/-- The events that were forwarded, newest first. -/
def forwarded (log : Log) : List SupervisorEvent :=
  log.filterMap fun entry ↦ entry.2.forwarded

variable {codec : Codec} {display : PeerProxyError → String} {log : Log}
  {worker following : Worker}

/-- The events on the channel with one more step. -/
theorem enqueued_cons {op : Op} {out : Out} :
    enqueued ((op, out) :: log) = out.enqueued.toList ++ enqueued log := by
  cases henqueued : out.enqueued <;> simp [enqueued, henqueued]

/-- The forwarded events with one more step. -/
theorem forwarded_cons {op : Op} {out : Out} :
    forwarded ((op, out) :: log) = out.forwarded.toList ++ forwarded log := by
  cases hforwarded : out.forwarded <;> simp [forwarded, hforwarded]

/-- Everything a step can be. -/
inductive Change (codec : Codec) (display : PeerProxyError → String) :
    Worker → Op → Out → Worker → Prop where
  | supervise {worker op event supervision} (hstage : op = .cancel ∨ worker.stage = .looping)
      (hawaited : worker.awaited op = true)
      (hnext : Supervision.next display worker.supervision op = some (event, supervision)) :
      Change codec display worker (.supervise op) ⟨[(op, event)], event, none⟩
        { worker with
          supervision := supervision
          sessions := worker.sessions ++ started op
          queue := worker.queue ++ event.toList }
  | session {worker index op peer out moved} (hpermits : worker.permits op = true)
      (hpeer : worker.sessions[index]? = some peer)
      (hnext : Peer.next codec peer op = some (out, moved)) :
      Change codec display worker (.session index op) ⟨[], worker.received out.event, none⟩
        { worker with
          sessions := worker.sessions.set index moved
          queue := worker.queue ++ (worker.received out.event).toList }
  | forward {supervision sessions event queue} (hrunning : supervision.control ≠ .returned) :
      Change codec display ⟨supervision, sessions, event :: queue, .looping⟩ .forward
        ⟨[], none, some event⟩ ⟨supervision, sessions, queue, .looping⟩
  | finish {supervision sessions queue} (hreturned : supervision.control = .returned) :
      Change codec display ⟨supervision, sessions, queue, .looping⟩ .finish ⟨[], none, none⟩
        ⟨supervision, sessions, queue, .draining⟩
  | drain {supervision sessions event queue} :
      Change codec display ⟨supervision, sessions, event :: queue, .draining⟩ .drain
        ⟨[], none, some event⟩ ⟨supervision, sessions, queue, .draining⟩
  | complete {supervision sessions} :
      Change codec display ⟨supervision, sessions, [], .draining⟩ .complete ⟨[], none, none⟩
        ⟨supervision, sessions, [], .finished⟩

/-- Every step of a worker is a `Change`. -/
theorem change_of_next {op : Op} {out : Out}
    (h : next codec display worker op = some (out, following)) :
    Change codec display worker op out following := by
  unfold next at h
  split at h
  case h_1 op =>
    split at h
    case isFalse => simp at h
    case isTrue hguard =>
      simp only [Option.map_eq_some_iff, Prod.mk.injEq] at h
      obtain ⟨⟨event, supervision⟩, hnext, rfl, rfl⟩ := h
      exact .supervise hguard.1 hguard.2 hnext
  case h_2 index op =>
    split at h
    case isFalse => simp at h
    case isTrue hpermits =>
      simp only [Option.bind_eq_some_iff, Option.map_eq_some_iff, Prod.mk.injEq] at h
      obtain ⟨peer, hpeer, ⟨out, moved⟩, hnext, rfl, rfl⟩ := h
      exact .session hpermits hpeer hnext
  case h_3 =>
    split at h
    case isTrue => simp at h
    case isFalse hrunning =>
      simp only [Option.some.injEq, Prod.mk.injEq] at h
      obtain ⟨rfl, rfl⟩ := h
      exact .forward hrunning
  case h_4 =>
    split at h
    case isFalse => simp at h
    case isTrue hreturned =>
      simp only [Option.some.injEq, Prod.mk.injEq] at h
      obtain ⟨rfl, rfl⟩ := h
      exact .finish hreturned
  case h_5 =>
    simp only [Option.some.injEq, Prod.mk.injEq] at h
    obtain ⟨rfl, rfl⟩ := h
    exact .drain
  case h_6 =>
    simp only [Option.some.injEq, Prod.mk.injEq] at h
    obtain ⟨rfl, rfl⟩ := h
    exact .complete
  case h_7 => simp at h

/-! ## What a worker forwards -/

/-- The event is one of the supervisor, and not of a callback. -/
def isOwn : SupervisorEvent → Bool
  | .peerConnected _ _ | .peerDisconnected _ => false
  | _ => true

/-- A supervisor emits its own events. -/
theorem isOwn_of_change {supervision moved : Supervision} {op : Supervisor.Op}
    {event : SupervisorEvent}
    (h : Supervision.Change display supervision op (some event) moved) : isOwn event = true := by
  cases h with
  | start => rfl
  | @report _ _ _ _ result => cases result <;> rfl
  | stop => rfl

/-- The events that a summary counts are the supervisor's own. -/
theorem isOwn_of_counted (event : SupervisorEvent)
    (h : Supervision.isStart event || Supervision.isEnded event || Supervision.isFailed event ||
      Supervision.isStopped event) : isOwn event = true := by
  cases event with
  | peerConnected => exact h
  | peerDisconnected => exact h
  | _ => rfl

/-- A token stays cancelled. -/
theorem cancelled_of_change {supervision moved : Supervision} {op : Supervisor.Op}
    {event : Option SupervisorEvent}
    (h : Supervision.Change display supervision op event moved)
    (hcancelled : supervision.cancelled = true) : moved.cancelled = true := by
  cases h with
  | cancel => rfl
  | _ => exact hcancelled

/-- A session and its callbacks send no event of the supervisor. -/
theorem isOwn_of_peer {peer moved : Peer} {op : Peer.Op} {out : Peer.Out}
    (h : Peer.Change codec peer op out moved) : out.event.toList.filter isOwn = [] := by
  cases h with
  | session => rfl
  | call => rfl
  | dropBody => rfl
  | @body _ _ _ event _ _ _ hnext =>
      cases hevent : event with
      | none => rfl
      | some sent =>
          obtain ⟨id, _, ⟨remote, rfl⟩ | ⟨rfl, _⟩⟩ :=
            (PeerProxy.body_of_next hnext).advance.sends sent hevent
          · rfl
          · rfl

/-- A session is cancelled by its token only. -/
theorem cancelled_of_peer {peer moved : Peer} {op : Peer.Op} {out : Peer.Out}
    (h : Peer.Change codec peer op out moved) (hcancelled : moved.control.cancelled = true) :
    peer.control.cancelled = true ∨ op = .session .cancelled := by
  cases h with
  | session hnext =>
      rcases (PeerProxy.move_of_next hnext).cancelled hcancelled with hbefore | rfl
      · exact .inl hbefore
      · exact .inr rfl
  | call => exact .inl hcancelled
  | body => exact .inl hcancelled
  | dropBody => exact .inl hcancelled

/-- A worker against its log. -/
structure Carries (display : PeerProxyError → String) (config : SupervisorConfig) (before : Bool)
    (log : Log) (worker : Worker) : Prop where
  fifo : (enqueued log).reverse = (forwarded log).reverse ++ worker.queue
  supervised : Execution.Exec (restrict Supervision.honest (Supervision.next display))
    (.new config before) (supervised log) worker.supervision
  own : (enqueued log).filter isOwn = Supervision.events (Worker.supervised log)
  returned : worker.stage ≠ .looping → worker.supervision.control = .returned
  drained : worker.stage = .finished → worker.queue = []
  cancelled : ∀ peer ∈ worker.sessions, peer.control.cancelled = true →
    worker.supervision.cancelled = true

/-- Nothing has happened in a new worker. -/
theorem Carries.new {config : SupervisorConfig} {before : Bool} :
    Carries display config before [] (.new config before) :=
  ⟨rfl, .refl, rfl, by simp [Worker.new], by simp [Worker.new], by simp [Worker.new]⟩

/-- A worker's supervisor gets an honest result, as its sessions see no other token. -/
theorem Carries.honest {config : SupervisorConfig} {before : Bool} {op : Supervisor.Op}
    (h : Carries display config before log worker) (hawaited : worker.awaited op = true) :
    Supervision.honest worker.supervision op = true := by
  unfold Supervision.honest
  split
  case h_2 => rfl
  case h_1 duration =>
    simp only [awaited, Option.any_eq_true, decide_eq_true_eq] at hawaited
    obtain ⟨peer, hlast, hcontrol⟩ := hawaited
    refine h.cancelled peer (List.mem_of_getLast? hlast) ?_
    rw [hcontrol]
    rfl

/-- A step of the supervisor keeps a worker in line with its log. -/
theorem Carries.supervise {config : SupervisorConfig} {before : Bool} {op : Supervisor.Op}
    {event : Option SupervisorEvent} {supervision : Supervision}
    (h : Carries display config before log worker)
    (hstage : op = .cancel ∨ worker.stage = .looping) (hawaited : worker.awaited op = true)
    (hnext : Supervision.next display worker.supervision op = some (event, supervision)) :
    Carries display config before ((.supervise op, ⟨[(op, event)], event, none⟩) :: log)
      { worker with
        supervision := supervision
        sessions := worker.sessions ++ started op
        queue := worker.queue ++ event.toList } := by
  have hchange := Supervision.change_of_next hnext
  -- after the loop only the token can change
  have hidle : worker.stage ≠ .looping →
      event = none ∧ supervision.control = worker.supervision.control := by
    intro hnot
    rcases hstage with rfl | hlooping
    · simp only [Supervision.next, Option.some.injEq, Prod.mk.injEq] at hnext
      obtain ⟨rfl, rfl⟩ := hnext
      exact ⟨rfl, rfl⟩
    · exact absurd hlooping hnot
  refine ⟨?_, ?_, ?_, ?_, ?_, ?_⟩
  · rw [enqueued_cons, forwarded_cons, List.reverse_append, h.fifo]
    cases event <;> simp
  · have hstep : restrict Supervision.honest (Supervision.next display) worker.supervision op =
        some (event, supervision) := by
      rw [restrict, if_pos (h.honest hawaited)]
      exact hnext
    exact h.supervised.snoc hstep
  · rw [enqueued_cons, List.filter_append, h.own]
    cases event with
    | none => rfl
    | some sent =>
        rw [Option.toList_some, List.filter_cons_of_pos (isOwn_of_change hchange)]
        rfl
  · intro hnot
    rw [(hidle hnot).2]
    exact h.returned hnot
  · intro hfinished
    have hnot : worker.stage ≠ .looping := fun hlooping ↦ by simp [hlooping] at hfinished
    show worker.queue ++ event.toList = []
    rw [h.drained hfinished, (hidle hnot).1]
    rfl
  · intro peer hpeer hcancelled
    rcases List.mem_append.mp hpeer with hold | hnew
    · exact cancelled_of_change hchange (h.cancelled peer hold hcancelled)
    · cases op with
      | start =>
          rw [started, List.mem_singleton] at hnew
          subst hnew
          simp [Peer.new, PeerProxy.Control.cancelled] at hcancelled
      | _ => simp [started] at hnew

/-- A step of a session or of one of its callbacks keeps a worker in line with its log. -/
theorem Carries.session {config : SupervisorConfig} {before : Bool} {index : Nat} {op : Peer.Op}
    {peer moved : Peer} {out : Peer.Out} (h : Carries display config before log worker)
    (hpermits : worker.permits op = true) (hpeer : worker.sessions[index]? = some peer)
    (hnext : Peer.next codec peer op = some (out, moved)) :
    Carries display config before
      ((.session index op, ⟨[], worker.received out.event, none⟩) :: log)
      { worker with
        sessions := worker.sessions.set index moved
        queue := worker.queue ++ (worker.received out.event).toList } := by
  have hchange := Peer.change_of_next hnext
  refine ⟨?_, h.supervised, ?_, h.returned, ?_, ?_⟩
  · rw [enqueued_cons, forwarded_cons, List.reverse_append, h.fifo]
    cases worker.received out.event <;> simp
  · rw [enqueued_cons, List.filter_append, h.own]
    unfold received
    split
    case isTrue => rfl
    case isFalse => rw [isOwn_of_peer hchange]; rfl
  · intro hfinished
    show worker.queue ++ (worker.received out.event).toList = []
    rw [h.drained hfinished, received, if_pos hfinished]
    rfl
  · intro other hother hcancelled
    rcases List.mem_or_eq_of_mem_set hother with hold | rfl
    · exact h.cancelled other hold hcancelled
    · rcases cancelled_of_peer hchange hcancelled with hbefore | rfl
      · exact h.cancelled peer (List.mem_of_getElem? hpeer) hbefore
      · exact hpermits

/-- Every step keeps a worker in line with its log. -/
theorem Carries.step {config : SupervisorConfig} {before : Bool} {op : Op} {out : Out}
    (h : Carries display config before log worker)
    (hchange : Change codec display worker op out following) :
    Carries display config before ((op, out) :: log) following := by
  cases hchange with
  | supervise hstage hawaited hnext => exact h.supervise hstage hawaited hnext
  | session hpermits hpeer hnext => exact h.session hpermits hpeer hnext
  | forward =>
      refine ⟨?_, h.supervised, h.own, by simp, by simp, h.cancelled⟩
      rw [enqueued_cons, forwarded_cons, Option.toList_none, List.nil_append, h.fifo]
      simp
  | finish hreturned => exact ⟨h.fifo, h.supervised, h.own, fun _ ↦ hreturned, by simp, h.cancelled⟩
  | drain =>
      refine ⟨?_, h.supervised, h.own, fun _ ↦ h.returned (by simp), by simp, h.cancelled⟩
      rw [enqueued_cons, forwarded_cons, Option.toList_none, List.nil_append, h.fifo]
      simp
  | complete =>
      exact ⟨h.fifo, h.supervised, h.own, fun _ ↦ h.returned (by simp), fun _ ↦ rfl, h.cancelled⟩

/-- Every run of a worker is in line with its log. -/
theorem Exec.carries {config : SupervisorConfig} {before : Bool}
    (h : Exec codec display (.new config before) log worker) :
    Carries display config before log worker := by
  induction h with
  | refl => exact .new
  | snoc _ hnext ih => exact ih.step (change_of_next hnext)

/-- A finished worker has forwarded everything that was put on its channel, and the summary of its
supervisor counts what it has forwarded. -/
theorem Carries.reported {config : SupervisorConfig} {before : Bool}
    (h : Carries display config before log worker) (hfinished : worker.stage = .finished) :
    (enqueued log).reverse = (forwarded log).reverse ∧
      Supervision.Reported worker.supervision.summary (forwarded log).reverse := by
  have hall : (enqueued log).reverse = (forwarded log).reverse := by
    rw [h.fifo, h.drained hfinished, List.append_nil]
  refine ⟨hall, ?_⟩
  rw [← hall]
  have hreturned := h.returned (by simp [hfinished])
  have hown := (Supervision.Exec.accounts h.supervised).reported hreturned
  rw [← h.own] at hown
  exact (hown.of_filter isOwn_of_counted).reverse

/-! ## The end of a worker -/

/-- What a worker does by itself once its supervisor has returned. -/
def closing (worker : Worker) : List Op :=
  match worker.stage with
  | .looping => .finish :: (worker.queue.map (fun _ ↦ .drain) ++ [.complete])
  | .draining => worker.queue.map (fun _ ↦ .drain) ++ [.complete]
  | .finished => []

/-- A worker that drains finds its channel empty when nobody sends. -/
theorem run_drain (codec : Codec) (display : PeerProxyError → String) (supervision : Supervision)
    (sessions : List Peer) (queue : List SupervisorEvent) (log : Log) :
    ∃ later, Execution.run (next codec display) (queue.map (fun _ ↦ .drain) ++ [.complete])
      (log, ⟨supervision, sessions, queue, .draining⟩) =
        some (later, ⟨supervision, sessions, [], .finished⟩) := by
  induction queue generalizing log with
  | nil => exact ⟨_, rfl⟩
  | cons event queue ih => exact ih _

/-- A worker leaves its loop exactly when its supervisor has returned, whoever still holds a
sender. -/
theorem isSome_finish_iff :
    (next codec display worker .finish).isSome = true ↔
      worker.stage = .looping ∧ worker.supervision.control = .returned := by
  obtain ⟨supervision, sessions, queue, stage⟩ := worker
  cases stage with
  | looping => simp [next]
  | draining => simp [next]
  | finished => simp [next]

/-- Once its supervisor has returned, a worker finishes by steps of its own. -/
theorem Carries.completes (codec : Codec) {config : SupervisorConfig} {before : Bool}
    (h : Carries display config before log worker)
    (hreturned : worker.supervision.control = .returned) :
    ∃ later, Exec codec display worker later { worker with queue := [], stage := .finished } ∧
      later.map Prod.fst = worker.closing.reverse := by
  have hrun : ∃ later, Execution.run (next codec display) worker.closing ([], worker) =
      some (later, { worker with queue := [], stage := .finished }) := by
    have hdrained := h.drained
    obtain ⟨supervision, sessions, queue, stage⟩ := worker
    cases stage with
    | looping =>
        obtain ⟨later, hlater⟩ :=
          run_drain codec display supervision sessions queue [(.finish, ⟨[], none, none⟩)]
        refine ⟨later, ?_⟩
        rw [← hlater]
        simp only [closing, Execution.run, next]
        rw [if_pos hreturned]
        rfl
    | draining => exact run_drain codec display supervision sessions queue []
    | finished =>
        have hempty : queue = [] := hdrained rfl
        subst hempty
        exact ⟨[], rfl⟩
  obtain ⟨later, hlater⟩ := hrun
  refine ⟨later, Execution.exec_of_run hlater, ?_⟩
  rw [Execution.inputs_of_run hlater, List.map_nil, List.append_nil]

end Worker

end Unbounded.Supervisor
