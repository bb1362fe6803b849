import Unbounded.PeerProxy.Provenance
import Unbounded.Supervisor.Pool

/-!
# The session IDs in the events of a pool

The session IDs in events come from remote peers. A session checks the ID before it publishes it,
and here this is carried over to what a pool forwards: every ID in an event is a token.
-/

namespace Unbounded.Supervisor

open PeerProxy (Codec Peer PeerProxyError PeerProxyOutcome)

/-- The session ID of an event is a token. -/
def SupervisorEvent.isVetted : SupervisorEvent → Bool
  | .peerConnected sessionId _ | .peerDisconnected sessionId => isSubprotocolToken sessionId
  | .sessionEnded _ outcome _ _ => isSubprotocolToken outcome.consumerSessionId
  | _ => true

/-- The outcome that a supervisor is about to report. -/
def Control.outcome : Control → Option PeerProxyOutcome
  | .examining (.ok outcome) _ | .reporting (.ok outcome) _ => some outcome
  | _ => none

/-- A session mentions only tokens. -/
theorem token_of_mentions {codec : Codec} {reports : Bool} {log : Peer.Log} {peer : Peer}
    {id : String} (h : Peer.Exec codec (.new reports) log peer)
    (hmentions : Peer.mentions log peer id) : isSubprotocolToken id = true :=
  (Peer.token_of_accepted ((Peer.Exec.provenance h).accepted_of_visible
    (Peer.visible_of_mentions h hmentions))).1

namespace Worker

variable {codec : Codec} {display : PeerProxyError → String} {log : Log}
  {worker following : Worker}

/-- The sessions of a worker are runs of their own, and the IDs that it holds are tokens. -/
structure Vetted (codec : Codec) (log : Log) (worker : Worker) : Prop where
  sessions : ∀ peer ∈ worker.sessions, ∃ own, Peer.Exec codec (.new true) own peer
  outcome : ∀ outcome, worker.supervision.control.outcome = some outcome →
    isSubprotocolToken outcome.consumerSessionId = true
  events : ∀ event ∈ enqueued log, event.isVetted = true

/-- A new worker holds no IDs. -/
theorem Vetted.new (codec : Codec) (config : SupervisorConfig) (before : Bool) :
    Vetted codec [] (.new config before) :=
  ⟨by simp [Worker.new], by simp [Worker.new, Supervision.new, Control.outcome],
    by simp [enqueued]⟩

/-- A supervisor emits the outcome that it is about to report, and gets outcomes from the session
that it awaits. -/
theorem outcome_of_change {op : Supervisor.Op} {event : Option SupervisorEvent}
    {supervision moved : Supervision}
    (h : Supervision.Change display supervision op event moved) :
    (∀ outcome, moved.control.outcome = some outcome →
      supervision.control.outcome = some outcome ∨
        ∃ duration, op = .sessionReturned (.ok outcome) duration) ∧
    ∀ sent, event = some sent → sent.isVetted = true ∨ ∃ attempt outcome duration retryIn,
      sent = .sessionEnded attempt outcome duration retryIn ∧
        supervision.control.outcome = some outcome := by
  cases h with
  | cancel => exact ⟨fun _ houtcome ↦ .inl houtcome, by simp⟩
  | @sessionReturned _ _ _ _ result duration =>
      refine ⟨fun outcome houtcome ↦ ?_, by simp⟩
      cases result with
      | error error => simp [Control.outcome] at houtcome
      | ok returned =>
          simp only [Control.outcome, Option.some.injEq] at houtcome
          exact .inr ⟨duration, by rw [houtcome]⟩
  | @accept _ _ _ _ result =>
      refine ⟨fun outcome houtcome ↦ .inl ?_, by simp⟩
      cases result <;> exact houtcome
  | @report _ _ _ _ result =>
      refine ⟨by simp [Control.outcome], fun sent hsent ↦ ?_⟩
      obtain rfl := Option.some.inj hsent
      cases result with
      | ok outcome => exact .inr ⟨_, outcome, _, _, rfl, rfl⟩
      | error error => exact .inl rfl
  | start => exact ⟨by simp [Control.outcome], by rintro _ ⟨⟩; exact .inl rfl⟩
  | stop => exact ⟨by simp [Control.outcome], by rintro _ ⟨⟩; exact .inl rfl⟩
  | _ => exact ⟨by simp [Control.outcome], by simp⟩

/-- A step of the supervisor keeps the IDs of a worker vetted. -/
theorem Vetted.supervise {op : Supervisor.Op} {event : Option SupervisorEvent}
    {supervision : Supervision} (h : Vetted codec log worker) (hawaited : worker.awaited op = true)
    (hchange : Supervision.Change display worker.supervision op event supervision) :
    Vetted codec ((.supervise op, ⟨[(op, event)], event, none⟩) :: log)
      { worker with
        supervision := supervision
        sessions := worker.sessions ++ started op
        queue := worker.queue ++ event.toList } := by
  obtain ⟨houtcome, hevent⟩ := outcome_of_change hchange
  refine ⟨fun peer hpeer ↦ ?_, fun outcome hnew ↦ ?_, fun sent hsent ↦ ?_⟩
  · rcases List.mem_append.mp hpeer with hold | hstarted
    · exact h.sessions peer hold
    · cases op with
      | start =>
          rw [started, List.mem_singleton] at hstarted
          rw [hstarted]
          exact ⟨[], .refl⟩
      | _ => simp [started] at hstarted
  · rcases houtcome outcome hnew with hold | ⟨duration, rfl⟩
    · exact h.outcome outcome hold
    · -- the outcome is what the awaited session has returned
      simp only [awaited, Option.any_eq_true, decide_eq_true_eq] at hawaited
      obtain ⟨peer, hlast, hcontrol⟩ := hawaited
      obtain ⟨own, hown⟩ := h.sessions peer (List.mem_of_getLast? hlast)
      exact token_of_mentions hown (.inr (.inr (.inr ⟨outcome, hcontrol, rfl⟩)))
  · rw [enqueued_cons] at hsent
    rcases List.mem_append.mp hsent with hnew | hold
    · rcases hevent sent (Option.mem_toList.mp hnew) with
        hvetted | ⟨attempt, outcome, duration, retryIn, rfl, hreported⟩
      · exact hvetted
      · exact h.outcome outcome hreported
    · exact h.events sent hold

/-- A step of a session or of one of its callbacks keeps the IDs of a worker vetted. -/
theorem Vetted.session {index : Nat} {op : Peer.Op} {peer moved : Peer} {out : Peer.Out}
    (h : Vetted codec log worker) (hpeer : worker.sessions[index]? = some peer)
    (hnext : Peer.next codec peer op = some (out, moved)) :
    Vetted codec ((.session index op, ⟨[], worker.received out.event, none⟩) :: log)
      { worker with
        sessions := worker.sessions.set index moved
        queue := worker.queue ++ (worker.received out.event).toList } := by
  obtain ⟨own, hown⟩ := h.sessions peer (List.mem_of_getElem? hpeer)
  have hmoved := hown.snoc hnext
  refine ⟨fun other hother ↦ ?_, h.outcome, fun sent hsent ↦ ?_⟩
  · rcases List.mem_or_eq_of_mem_set hother with hold | rfl
    · exact h.sessions other hold
    · exact ⟨_, hmoved⟩
  · rw [enqueued_cons] at hsent
    rcases List.mem_append.mp hsent with hnew | hold
    · have hevent : out.event = some sent := by
        simp only [received] at hnew
        split at hnew
        · simp at hnew
        · exact Option.mem_toList.mp hnew
      have hmem : sent ∈ Peer.events ((op, out) :: own) := by
        rw [Peer.events_cons, hevent]
        exact List.mem_append_left _ (List.mem_singleton.mpr rfl)
      obtain ⟨id, _, ⟨remote, rfl⟩ | rfl⟩ := (Peer.Exec.reports hmoved).sent sent hmem
      · exact token_of_mentions hmoved (.inl ⟨remote, hmem⟩)
      · exact token_of_mentions hmoved (.inr (.inl hmem))
    · exact h.events sent hold

/-- Every step keeps the IDs of a worker vetted. -/
theorem Vetted.step {op : Op} {out : Out} (h : Vetted codec log worker)
    (hchange : Change codec display worker op out following) :
    Vetted codec ((op, out) :: log) following := by
  cases hchange with
  | supervise _ hawaited hnext => exact h.supervise hawaited (Supervision.change_of_next hnext)
  | session _ hpeer hnext => exact h.session hpeer hnext
  | forward => exact ⟨h.sessions, h.outcome, h.events⟩
  | finish => exact ⟨h.sessions, h.outcome, h.events⟩
  | drain => exact ⟨h.sessions, h.outcome, h.events⟩
  | complete => exact ⟨h.sessions, h.outcome, h.events⟩

/-- The IDs of a worker are vetted in every run. -/
theorem Exec.vetted {config : SupervisorConfig} {before : Bool}
    (h : Exec codec display (.new config before) log worker) : Vetted codec log worker := by
  induction h with
  | refl => exact .new codec config before
  | snoc _ hnext ih => exact ih.step (change_of_next hnext)

end Worker

/-- Every session ID in an event that a pool forwards is a token. -/
theorem Pool.Exec.isVetted_of_forwarded {codec : Codec} {display : PeerProxyError → String}
    {config : SupervisorConfig} {slots : Nat} {before : Bool} {log : Pool.Log} {pool : Pool}
    (h : Pool.Exec codec display (.new config slots before) log pool) :
    ∀ tagged ∈ Pool.forwarded log, tagged.event.isVetted = true := by
  intro tagged htagged
  have hlt := Pool.Exec.slot_lt h tagged htagged
  rw [← Pool.Exec.length h] at hlt
  have hworker := List.getElem?_eq_getElem hlt
  have hexec := Pool.Exec.worker h hworker
  have hslot : tagged.event ∈ Pool.ofSlot tagged.slot (Pool.forwarded log) :=
    List.mem_map.mpr ⟨tagged, List.mem_filter.mpr ⟨htagged, by simp⟩, rfl⟩
  rw [Pool.ofSlot_forwarded] at hslot
  -- what was forwarded was put on the channel before
  have hfifo := (Worker.Exec.carries hexec).fifo
  refine (Worker.Exec.vetted hexec).events _ (List.mem_reverse.mp ?_)
  rw [hfifo]
  exact List.mem_append_left _ hslot

end Unbounded.Supervisor
