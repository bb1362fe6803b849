import Unbounded.Execution.Progress
import Unbounded.Supervisor.Pool
import Mathlib.Algebra.Order.BigOperators.Group.List

/-!
# Shutdown of the pool

What happens to `supervise_peer_proxy_pool` of `src/supervisor.rs` once its token is cancelled. The
comments of the source fear two ways in which the shutdown could hang: a callback that outlives its
session and keeps a sender of events, and a session that nobody ends. `shutdown` says that neither
does: the workers have a bounded number of steps to take, to which a callback adds one for every
event that it still sends, and as long as the pool has not returned, a worker or a session on its
way out can take such a step.

A session may go on with what it awaits after the token is cancelled, as its `select!` may have
looked at the token just before. Such steps do not count, and they delay nothing, since they leave
the session no farther from its end. Nobody drops the future of a session while the pool is awaited.
-/

namespace Unbounded.PeerProxy

/-! ## Sessions -/

/-- How many steps a cancelled session has to take. One whose future was dropped never returns, and
has more to take than any other. -/
def Control.left : Control → Nat
  | .connecting => 3
  | .closing _ => 1
  | .returned _ => 0
  | .dropped => 4
  | _ => 2

/-- The steps that a cancelled session has to take. -/
def Input.closes : Input → Bool
  | .connected _ | .cancelled | .closed => true
  | _ => false

variable {codec : Codec} {control following : Control} {input : Input} {effect : Effect}

/-- A session that adds candidates is in the middle of its way. -/
theorem Control.left_withCandidates (id : String) (candidates : List PionIceCandidate) :
    (withCandidates id candidates).left = 2 := by
  cases candidates <;> rfl

/-- A session that fails has to be closed. -/
theorem Control.left_fail (error : PeerProxyError) : (fail error).2.left ≤ 2 :=
  Nat.le_succ 1

/-- A session that can be cancelled has two steps left. -/
theorem Control.left_of_cancellable (h : control.cancellable = true) : control.left = 2 := by
  cases control <;> simp_all [left, cancellable]

/-- The session starts on its way or fails. -/
theorem Control.left_advertise (codec : Codec) : (advertise codec).2.left ≤ 2 := by
  unfold advertise
  split
  case h_1 => exact Nat.le_refl 2
  case h_2 => exact left_fail _

/-- The session goes on or fails after an Offer. -/
theorem Control.left_afterOffer (codec : Codec) (reply : Signaling.Reply) :
    (afterOffer codec reply).2.left ≤ 2 := by
  unfold afterOffer
  split
  case h_1 => exact left_fail _
  case h_2 => exact left_fail _
  case h_3 =>
    split
    case h_1 => exact left_fail _
    case h_2 => exact Nat.le_refl 2

/-- The session goes on or fails with its Answer. -/
theorem Control.left_answer (codec : Codec) (signal : SignalMessage)
    (description : Option Rtc.SessionDescription) :
    (answer codec signal description).2.left ≤ 2 := by
  unfold answer
  split
  case h_1 => exact left_fail _
  case h_2 =>
    split
    case h_1 => exact left_fail _
    case h_2 => exact Nat.le_refl 2

/-- The session goes on or fails after an ICE message. -/
theorem Control.left_afterIce (codec : Codec) (reply : Signaling.Reply) :
    (afterIce codec reply).2.left ≤ 2 := by
  unfold afterIce
  split
  case h_1 => exact left_fail _
  case h_2 => exact left_fail _
  case h_3 =>
    split
    case h_1 => exact left_fail _
    case h_2 =>
      split
      case h_1 => exact left_fail _
      case h_2 => exact (left_withCandidates _ _).le

/-- The session goes on or fails after the wait for its DataChannel. -/
theorem Control.left_afterWait (id : String) (result : Rtc.ChannelWait) :
    (afterWait id result).2.left ≤ 2 := by
  cases result with
  | opened =>
      simp only [afterWait]
      split
      case isTrue => exact Nat.le_refl 2
      case isFalse => exact left_fail _
  | _ => exact left_fail _

/-- The session leaves its `select!` after the relay. -/
theorem Control.left_afterRelay (id : String) (duration : Duration)
    (result : Except (Relay.RelayError String Egress.EgressError) Relay.RelayEnd) :
    (afterRelay id duration result).2.left ≤ 2 := by
  cases result with
  | ok relayEnd => exact Nat.le_succ 1
  | error source => exact left_fail _

/-- Unless its future is dropped, no step takes a session farther from its end, and a step on the
way out takes it closer. -/
theorem Control.left_of_next (h : control.next codec input = some (effect, following))
    (hkept : input ≠ .dropped) : following.left + input.closes.toNat ≤ control.left := by
  have hsnd : ∀ {result : Effect × Control}, some result = some (effect, following) →
      result.2 = following := by
    rintro result ⟨⟩
    rfl
  unfold next at h
  split at h
  case h_1 =>
    rw [← hsnd h]
    exact Nat.succ_le_succ (left_advertise codec)
  case h_3 reply =>
    rw [← hsnd h]
    exact left_afterOffer codec reply
  case h_12 signal description =>
    rw [← hsnd h]
    exact left_answer codec signal description
  case h_13 reply =>
    rw [← hsnd h]
    exact left_afterIce codec reply
  case h_14 id _ candidates =>
    rw [← hsnd h]
    exact (left_withCandidates id candidates).le
  case h_17 id result =>
    rw [← hsnd h]
    exact left_afterWait id result
  case h_20 id result duration =>
    rw [← hsnd h]
    exact left_afterRelay id duration result
  case h_22 =>
    split at h
    case isTrue hcancellable =>
      rw [← hsnd h, left_of_cancellable hcancellable]
      exact Nat.le_refl 2
    case isFalse => simp at h
  case h_23 => exact absurd rfl hkept
  case h_24 => simp at h
  all_goals
    rw [← hsnd h]
    simp [Input.closes, left, fail]

/-- A session that has not returned can be taken closer to its end. -/
theorem Control.exists_closes (codec : Codec) (hleft : control.left ≤ 3) :
    (∃ result, control = .returned result) ∨
      ∃ input effect following, input.closes = true ∧ input ≠ .dropped ∧
        control.next codec input = some (effect, following) := by
  cases hcancellable : control.cancellable with
  | true =>
      have hcancel : control.next codec .cancelled = some (fail .cancelled) := by
        cases control <;> simp_all [next, cancellable]
      exact .inr ⟨.cancelled, _, _, rfl, by simp, hcancel⟩
  | false =>
      cases control with
      | connecting => exact .inr ⟨.connected (.ok ()), _, _, rfl, by simp, rfl⟩
      | closing result => exact .inr ⟨.closed, _, _, rfl, by simp, rfl⟩
      | returned result => exact .inl ⟨result, rfl⟩
      | dropped => exact absurd hleft (by decide)
      | _ => simp [cancellable] at hcancellable

end Unbounded.PeerProxy

namespace Unbounded.Supervisor

open Execution (Rank restrict next_of_restrict sum_map_set_slot)
open PeerProxy (Codec Peer PeerProxyError)

variable {codec : Codec} {display : PeerProxyError → String}

/-! ## Supervisors -/

/-- How many steps a cancelled supervisor has to take, without those of its session. A session that
is about to start counts. -/
def Control.left : Control → Nat
  | .checking => 2
  | .starting => 9
  | .running => 5
  | .examining _ _ => 4
  | .reporting _ _ => 3
  | .sleeping _ => 2
  | .stopping => 1
  | .returned => 0

/-- A step of the supervisor, and not of the owner of the token. -/
def Op.own : Op → Bool
  | .cancel => false
  | _ => true

/-- What the sessions have to do. -/
def sessionsLeft (sessions : List Peer) : Nat :=
  (sessions.map fun peer ↦ peer.control.left).sum

/-- What the sessions have to do when one more is there. -/
theorem sessionsLeft_append (sessions more : List Peer) :
    sessionsLeft (sessions ++ more) = sessionsLeft sessions + sessionsLeft more := by
  rw [sessionsLeft, List.map_append, List.sum_append]
  rfl

/-- A cancelled supervisor comes closer to its end with every step of its own, of which each emits
one event at most. -/
theorem Supervision.left_of_change {supervision following : Supervision} {op : Op}
    {event : Option SupervisorEvent} (hcancelled : supervision.cancelled = true)
    (h : Change display supervision op event following) :
    following.control.left + sessionsLeft (Worker.started op) + op.own.toNat ≤
        supervision.control.left ∧
      event.toList.length ≤ op.own.toNat ∧ following.cancelled = true := by
  cases h with
  | cancel => exact ⟨Nat.le_refl _, Nat.le_refl _, rfl⟩
  | go => simp at hcancelled
  | woke => simp at hcancelled
  | @accept _ _ _ _ result => exact ⟨Nat.le_refl _, Nat.zero_le _, hcancelled⟩
  | start => exact ⟨Nat.le_refl _, Nat.le_refl _, hcancelled⟩
  | report => exact ⟨Nat.le_refl _, Nat.le_refl _, hcancelled⟩
  | stop => exact ⟨Nat.le_refl _, Nat.le_refl _, hcancelled⟩
  | give => exact ⟨Nat.le_refl _, Nat.zero_le _, rfl⟩
  | interrupted => exact ⟨Nat.le_refl _, Nat.zero_le _, rfl⟩
  | sessionReturned => exact ⟨Nat.le_refl _, Nat.zero_le _, hcancelled⟩
  | abandon =>
      refine ⟨?_, Nat.zero_le _, rfl⟩
      show 1 + 0 + 1 ≤ 4
      omega

/-! ## Workers -/

/-- How many steps the loop and the drain of a worker have to take. -/
def Stage.left : Stage → Nat
  | .looping => 2
  | .draining => 1
  | .finished => 0

namespace Worker

variable {worker following : Worker} {op : Op} {out : Out}

/-- A step of the worker, of its supervisor, or of a session that is on its way out. -/
def Op.own : Op → Bool
  | .supervise op => op.own
  | .session _ (.session input) => input.closes
  | .session _ _ => false
  | .forward | .finish | .drain | .complete => true

/-- Nobody drops the future of a session. -/
def attends : Op → Bool
  | .session _ (.session .dropped) => false
  | _ => true

/-- The events that a step of a callback puts on the channel. -/
def late (out : Out) : Nat :=
  out.enqueued.toList.countP fun event ↦ !isOwn event

/-- How many steps a cancelled worker has to take. An event that is put on the channel has to be
forwarded. -/
def rank (worker : Worker) : Nat :=
  2 * (worker.supervision.control.left + sessionsLeft worker.sessions) + worker.queue.length +
    worker.stage.left

/-- All sessions of a worker have returned but the one that its supervisor awaits. -/
structure Attended (worker : Worker) : Prop where
  idle : worker.supervision.control ≠ .running → sessionsLeft worker.sessions = 0
  awaited : worker.supervision.control = .running → ∃ earlier last,
    worker.sessions = earlier ++ [last] ∧ sessionsLeft earlier = 0 ∧ last.control.left ≤ 3

/-- A new worker has no session. -/
theorem Attended.new (config : SupervisorConfig) (before : Bool) : Attended (.new config before) :=
  ⟨fun _ ↦ rfl, by simp [Worker.new, Supervision.new]⟩

/-- A cancelled worker has at most twenty steps to take besides the forwarding. -/
theorem Attended.rank_le (h : Attended worker) : worker.rank ≤ 20 + worker.queue.length := by
  have hstage : worker.stage.left ≤ 2 := by
    cases worker.stage <;> decide
  have hleft : worker.supervision.control.left + sessionsLeft worker.sessions ≤ 9 := by
    by_cases hrunning : worker.supervision.control = .running
    · obtain ⟨earlier, last, hsessions, hearlier, hlast⟩ := h.awaited hrunning
      rw [hrunning, hsessions, sessionsLeft_append, hearlier]
      show 5 + (0 + last.control.left) ≤ 9
      omega
    · rw [h.idle hrunning]
      cases worker.supervision.control <;> simp [Control.left]
  rw [rank]
  omega

/-- A step of a session or of a callback takes the session no farther from its end, and only a
callback sends events. -/
theorem left_of_peer {index : Nat} {peer moved : Peer} {op : Peer.Op} {out : Peer.Out}
    (h : Peer.Change codec peer op out moved) (hattends : attends (.session index op) = true) :
    moved.control.left + (Op.session index op).own.toNat ≤ peer.control.left := by
  cases h with
  | session hnext =>
      refine PeerProxy.Control.left_of_next hnext ?_
      rintro rfl
      simp [attends] at hattends
  | call => exact Nat.le_refl _
  | body => exact Nat.le_refl _
  | dropBody => exact Nat.le_refl _

/-- What a callback sends is counted. -/
theorem late_of_peer {peer moved : Peer} {op : Peer.Op} {out : Peer.Out} (worker : Worker)
    (h : Peer.Change codec peer op out moved) :
    (worker.received out.event).toList.length =
      late ⟨[], worker.received out.event, none⟩ := by
  have hforeign := isOwn_of_peer h
  unfold received
  split
  case isTrue => rfl
  case isFalse =>
    simp only [late]
    rw [eq_comm, List.countP_eq_length]
    intro event hevent
    by_contra hown
    have hmem : event ∈ out.event.toList.filter isOwn :=
      List.mem_filter.mpr ⟨hevent, by simpa using hown⟩
    rw [hforeign] at hmem
    simp at hmem

/-- A step of the supervisor leaves no session alone that has not returned. -/
theorem Attended.supervise {op : Supervisor.Op} {event : Option SupervisorEvent}
    {supervision : Supervision} (h : Attended worker) (hawaited : worker.awaited op = true)
    (hchange : Supervision.Change display worker.supervision op event supervision) :
    Attended { worker with
      supervision := supervision
      sessions := worker.sessions ++ started op
      queue := worker.queue ++ event.toList } := by
  obtain ⟨before, sessions, queue, stage⟩ := worker
  cases hchange with
  | cancel =>
      refine ⟨fun hcontrol ↦ ?_, fun hcontrol ↦ ?_⟩
      · rw [sessionsLeft_append, h.idle hcontrol]
        rfl
      · show ∃ earlier last, sessions ++ [] = _ ∧ _
        rw [List.append_nil]
        exact h.awaited hcontrol
  | start =>
      refine ⟨by simp, fun _ ↦ ?_⟩
      exact ⟨sessions, .new true, rfl, h.idle (by simp), Nat.le_refl 3⟩
  | @sessionReturned _ _ _ _ result duration =>
      refine ⟨fun _ ↦ ?_, by simp⟩
      obtain ⟨earlier, last, hsessions, hearlier, _⟩ := h.awaited rfl
      simp only at hsessions
      simp only [Worker.awaited, hsessions, List.getLast?_concat, Option.any_some,
        decide_eq_true_eq] at hawaited
      simp only [hsessions, sessionsLeft_append, hearlier]
      show 0 + last.control.left + 0 = 0
      rw [hawaited]
      rfl
  | _ =>
      refine ⟨fun _ ↦ ?_, by simp⟩
      rw [sessionsLeft_append, h.idle (by simp)]
      rfl

/-- A step of a session or of one of its callbacks leaves no session alone that has not returned. -/
theorem Attended.session {index : Nat} {op : Peer.Op} {peer moved : Peer} {out : Peer.Out}
    {queue : List SupervisorEvent} (h : Attended worker)
    (hattends : attends (.session index op) = true) (hpeer : worker.sessions[index]? = some peer)
    (hchange : Peer.Change codec peer op out moved) :
    Attended { worker with sessions := worker.sessions.set index moved, queue := queue } := by
  have hleft := left_of_peer hchange hattends
  refine ⟨fun hcontrol ↦ ?_, fun hcontrol ↦ ?_⟩
  · have hsum := sum_map_set_slot hpeer moved fun peer ↦ peer.control.left
    have hidle := h.idle hcontrol
    simp only [sessionsLeft] at hidle ⊢
    omega
  · obtain ⟨earlier, last, hsessions, hearlier, hlast⟩ := h.awaited hcontrol
    rw [hsessions] at hpeer
    rcases Nat.lt_or_ge index earlier.length with hlt | hge
    · rw [List.getElem?_append_left hlt] at hpeer
      have hsum := sum_map_set_slot hpeer moved fun peer ↦ peer.control.left
      refine ⟨earlier.set index moved, last, ?_, ?_, hlast⟩
      · show worker.sessions.set index moved = _
        rw [hsessions, List.set_append_left _ _ hlt]
      · simp only [sessionsLeft] at hearlier ⊢
        omega
    · rcases Execution.getElem?_append_cases hpeer with ⟨hindex, rfl⟩ | ⟨hlt, _⟩
      · refine ⟨earlier, moved, ?_, hearlier, by omega⟩
        show worker.sessions.set index moved = _
        rw [hsessions, hindex, List.set_append_right _ _ (Nat.le_refl _), Nat.sub_self]
        rfl
      · omega

/-- No step leaves a session alone that has not returned. -/
theorem Attended.step (h : Attended worker) (hattends : attends op = true)
    (hchange : Change codec display worker op out following) : Attended following := by
  cases hchange with
  | supervise _ hawaited hnext => exact h.supervise hawaited (Supervision.change_of_next hnext)
  | session _ hpeer hnext => exact h.session hattends hpeer (Peer.change_of_next hnext)
  | forward => exact ⟨h.idle, h.awaited⟩
  | finish => exact ⟨h.idle, h.awaited⟩
  | drain => exact ⟨h.idle, h.awaited⟩
  | complete => exact ⟨h.idle, h.awaited⟩

/-- A cancelled worker comes closer to its end with every step of its own, and only what callbacks
send takes it farther from it. -/
theorem rank_step (hcancelled : worker.supervision.cancelled = true)
    (hattends : attends op = true)
    (hchange : Change codec display worker op out following) :
    following.rank + op.own.toNat ≤ worker.rank + late out := by
  cases hchange with
  | @supervise _ op event supervision hstage hawaited hnext =>
      obtain ⟨hleft, hevent, _⟩ :=
        Supervision.left_of_change hcancelled (Supervision.change_of_next hnext)
      have hsessions := sessionsLeft_append worker.sessions (started op)
      simp only [rank, List.length_append, Op.own] at hsessions ⊢
      omega
  | @session _ index op peer out moved hpermits hpeer hnext =>
      have hpeerChange := Peer.change_of_next hnext
      have hleft := left_of_peer hpeerChange hattends
      have hlate := late_of_peer worker hpeerChange
      have hsum := sum_map_set_slot hpeer moved fun peer ↦ peer.control.left
      simp only [rank, sessionsLeft, List.length_append] at hsum ⊢
      omega
  | forward =>
      simp only [rank, List.length_cons, Op.own, Bool.toNat_true]
      omega
  | finish =>
      simp only [rank, Op.own, Bool.toNat_true, Stage.left]
      omega
  | drain =>
      simp only [rank, List.length_cons, Op.own, Bool.toNat_true]
      omega
  | complete =>
      simp only [rank, Op.own, Bool.toNat_true, Stage.left]
      omega

/-- The token of a worker stays cancelled. -/
theorem cancelled_of_step (hcancelled : worker.supervision.cancelled = true)
    (hchange : Change codec display worker op out following) :
    following.supervision.cancelled = true := by
  cases hchange with
  | supervise _ _ hnext => exact cancelled_of_change (Supervision.change_of_next hnext) hcancelled
  | _ => exact hcancelled

/-- The worker, its supervisor or a session on its way out can take a step that sends nothing. -/
def CanGoOn (codec : Codec) (display : PeerProxyError → String) (worker : Worker) : Prop :=
  ∃ op out following, attends op = true ∧ op.own = true ∧ late out = 0 ∧
    next codec display worker op = some (out, following)

/-- A worker can go on if its supervisor can. -/
theorem canGoOn_of_supervision {op : Supervisor.Op} {event : Option SupervisorEvent}
    {supervision : Supervision} (hlooping : worker.stage = .looping)
    (hawaited : worker.awaited op = true) (hop : op.own = true)
    (hnext : Supervision.next display worker.supervision op = some (event, supervision)) :
    CanGoOn codec display worker := by
  have hlate : late ⟨[(op, event)], event, none⟩ = 0 := by
    cases event with
    | none => rfl
    | some sent => simp [late, isOwn_of_change (Supervision.change_of_next hnext)]
  have hstep : ∃ following, next codec display worker (.supervise op) =
      some (⟨[(op, event)], event, none⟩, following) := by
    rw [next, if_pos ⟨.inr hlooping, hawaited⟩, hnext]
    exact ⟨_, rfl⟩
  obtain ⟨following, hfollowing⟩ := hstep
  exact ⟨.supervise op, _, following, rfl, hop, hlate, hfollowing⟩

/-- A worker can go on if one of its sessions can. -/
theorem canGoOn_of_session {index : Nat} {peer : Peer} {input : PeerProxy.Input}
    {effect : PeerProxy.Effect} {control : PeerProxy.Control}
    (hcancelled : worker.supervision.cancelled = true) (hpeer : worker.sessions[index]? = some peer)
    (hcloses : input.closes = true) (hkept : input ≠ .dropped)
    (hnext : peer.control.next codec input = some (effect, control)) :
    CanGoOn codec display worker := by
  have hpermits : worker.permits (.session input) = true := by
    cases input <;> simp [permits, hcancelled]
  have hattends : attends (.session index (.session input)) = true := by
    cases input <;> simp [attends] at hkept ⊢
  have hlate : late ⟨[], worker.received none, none⟩ = 0 := by
    simp [late, received]
  have hstep : ∃ following, next codec display worker (.session index (.session input)) =
      some (⟨[], worker.received none, none⟩, following) := by
    rw [next, if_pos hpermits, hpeer, Option.bind_some, Peer.next, hnext]
    exact ⟨_, rfl⟩
  obtain ⟨following, hfollowing⟩ := hstep
  exact ⟨_, _, following, hattends, hcloses, hlate, hfollowing⟩

/-- A cancelled supervisor that has not returned can go on, or its session can. -/
theorem Attended.canGoOn_of_looping (codec : Codec) (display : PeerProxyError → String)
    (h : Attended worker) (hcancelled : worker.supervision.cancelled = true)
    (hlooping : worker.stage = .looping) (hcontrol : worker.supervision.control ≠ .returned) :
    CanGoOn codec display worker := by
  -- what the supervisor does next, unless it awaits a session
  have hgoOn : ∀ op {event supervision}, worker.awaited op = true → op.own = true →
      Supervision.next display worker.supervision op = some (event, supervision) →
      CanGoOn codec display worker := fun op _ _ hawaited hop hnext ↦
    canGoOn_of_supervision hlooping hawaited hop hnext
  have hawaited := h.awaited
  obtain ⟨⟨config, cancelled, backoff, summary, control⟩, sessions, queue, stage⟩ := worker
  simp only at hcancelled hawaited hcontrol
  subst hcancelled
  cases control with
  | checking => exact hgoOn .check rfl rfl rfl
  | starting => exact hgoOn .start rfl rfl rfl
  | examining result duration => exact hgoOn .examine rfl rfl rfl
  | reporting result duration => exact hgoOn (.report 0) rfl rfl rfl
  | sleeping retryIn => exact hgoOn .interrupted rfl rfl rfl
  | stopping => exact hgoOn .stop rfl rfl rfl
  | returned => exact absurd rfl hcontrol
  | running =>
      obtain ⟨earlier, last, rfl, _, hlast⟩ := hawaited rfl
      rcases PeerProxy.Control.exists_closes codec hlast with
        ⟨result, hresult⟩ | ⟨input, effect, control, hcloses, hkept, hnext⟩
      · refine hgoOn (.sessionReturned result .zero) ?_ rfl rfl
        simp [Worker.awaited, hresult]
      · exact canGoOn_of_session rfl List.getElem?_concat_length hcloses hkept hnext

/-- A cancelled worker that has not finished can go on. -/
theorem Attended.canGoOn (codec : Codec) (display : PeerProxyError → String)
    (h : Attended worker) (hcancelled : worker.supervision.cancelled = true)
    (hstage : worker.stage ≠ .finished) : CanGoOn codec display worker := by
  by_cases hcontrol : worker.stage = .looping ∧ worker.supervision.control ≠ .returned
  · exact h.canGoOn_of_looping codec display hcancelled hcontrol.1 hcontrol.2
  · obtain ⟨supervision, sessions, queue, stage⟩ := worker
    cases stage with
    | looping =>
        have hreturned : supervision.control = .returned := by
          simpa using hcontrol
        exact ⟨.finish, _, _, rfl, rfl, rfl, by rw [next, if_pos hreturned]⟩
    | draining =>
        cases queue with
        | nil => exact ⟨.complete, _, _, rfl, rfl, rfl, rfl⟩
        | cons event queue => exact ⟨.drain, _, _, rfl, rfl, rfl, rfl⟩
    | finished => exact absurd rfl hstage

end Worker

/-! ## The pool -/

namespace Pool

variable {config : SupervisorConfig} {slots : Nat} {before : Bool} {log later : Log}
  {pool following : Pool}

/-- Nobody drops the future of a session. -/
def attends (_ : Pool) (op : Nat × Worker.Op) : Bool :=
  Worker.attends op.2

/-- Executions of a pool whose sessions are not dropped. -/
abbrev Attending (codec : Codec) (display : PeerProxyError → String) :=
  Execution.Exec (restrict attends (next codec display))

/-- The steps of workers, supervisors and sessions on their way out. -/
def ownSteps (log : Log) : Nat :=
  log.countP fun entry ↦ entry.1.2.own

/-- How many events the callbacks have put on the channels. -/
def late (log : Log) : Nat :=
  (log.map fun entry ↦ Worker.late entry.2).sum

/-- How many events wait on the channels of the workers. -/
def queued (pool : Pool) : Nat :=
  (pool.workers.map fun worker ↦ worker.queue.length).sum

/-- How many steps a cancelled pool has to take. -/
def rank (pool : Pool) : Nat :=
  (pool.workers.map Worker.rank).sum

/-- No worker has left a session alone. -/
def Attended (pool : Pool) : Prop :=
  ∀ worker ∈ pool.workers, worker.Attended

/-- The token of the pool is cancelled, and with it the tokens of the workers. -/
def Cancelled (pool : Pool) : Prop :=
  ∀ worker ∈ pool.workers, worker.supervision.cancelled = true

/-- A property of workers that their steps keep is kept by the pool. -/
theorem forall_workers_of_next {Inv : Worker → Prop} {slot : Nat} {op : Worker.Op}
    {out : Worker.Out}
    (hstep : ∀ {worker moved}, Inv worker → Worker.Change codec display worker op out moved →
      Inv moved)
    (h : ∀ worker ∈ pool.workers, Inv worker)
    (hnext : next codec display pool (slot, op) = some (out, following)) :
    ∀ worker ∈ following.workers, Inv worker := by
  obtain ⟨worker, moved, hworker, hmoved, rfl⟩ := worker_of_next hnext
  intro other hother
  rcases List.mem_or_eq_of_mem_set hother with hold | rfl
  · exact h other hold
  · exact hstep (h worker (List.mem_of_getElem? hworker)) (Worker.change_of_next hmoved)

/-- A pool that is awaited attends to its sessions. -/
theorem Attending.attended (h : Attending codec display (.new config slots before) log pool) :
    pool.Attended := by
  induction h with
  | refl =>
      intro worker hworker
      rw [List.eq_of_mem_replicate hworker]
      exact .new config before
  | @snoc _ _ _ input _ _ hnext ih =>
      obtain ⟨slot, op⟩ := input
      obtain ⟨hattends, hnext⟩ := next_of_restrict hnext
      exact forall_workers_of_next (fun hworker hchange ↦ hworker.step hattends hchange) ih hnext

/-- What a cancelled pool has still to do. -/
def progress (codec : Codec) (display : PeerProxyError → String) :
    Rank (restrict attends (next codec display)) fun pool ↦ pool.Attended ∧ pool.Cancelled where
  own := fun op ↦ op.2.own
  rank := rank
  credit := fun entry ↦ Worker.late entry.2
  keeps := by
    rintro pool following ⟨slot, op⟩ out ⟨hattended, hcancelled⟩ hnext
    obtain ⟨hattends, hnext⟩ := next_of_restrict hnext
    exact ⟨forall_workers_of_next (fun hworker hchange ↦ hworker.step hattends hchange) hattended
        hnext, forall_workers_of_next Worker.cancelled_of_step hcancelled hnext⟩
  spends := by
    rintro pool following ⟨slot, op⟩ out ⟨hattended, hcancelled⟩ hnext
    obtain ⟨hattends, hnext⟩ := next_of_restrict hnext
    obtain ⟨worker, moved, hworker, hmoved, rfl⟩ := worker_of_next hnext
    have hsum := sum_map_set_slot hworker moved Worker.rank
    have hstep : moved.rank + op.own.toNat ≤ worker.rank + Worker.late out :=
      Worker.rank_step (hcancelled worker (List.mem_of_getElem? hworker)) hattends
        (Worker.change_of_next hmoved)
    show ((pool.workers.set slot moved).map Worker.rank).sum + op.own.toNat ≤
      (pool.workers.map Worker.rank).sum + Worker.late out
    omega

/-- A cancelled pool that has not returned can go on. -/
theorem Attended.canGoOn (codec : Codec) (display : PeerProxyError → String) (h : pool.Attended)
    (hcancelled : pool.Cancelled) (hresult : pool.result = none) :
    ∃ slot op out following, op.own = true ∧ Worker.late out = 0 ∧
      restrict attends (next codec display) pool (slot, op) = some (out, following) := by
  have hunfinished : ∃ worker ∈ pool.workers, worker.stage ≠ .finished := by
    by_contra hall
    push Not at hall
    rw [result_eq, if_pos (by simpa using hall)] at hresult
    simp at hresult
  obtain ⟨worker, hmem, hstage⟩ := hunfinished
  obtain ⟨slot, hworker⟩ := List.mem_iff_getElem?.mp hmem
  obtain ⟨op, out, moved, hattends, hown, hlate, hnext⟩ :=
    (h worker hmem).canGoOn codec display (hcancelled worker hmem) hstage
  refine ⟨slot, op, out, ⟨pool.workers.set slot moved⟩, hown, hlate, ?_⟩
  have hallowed : pool.attends (slot, op) = true := hattends
  rw [restrict, if_pos hallowed]
  simp only [next, hworker, Option.bind_some, hnext, Option.map_some]

/-- Every worker has at most twenty steps to take besides the forwarding. -/
theorem Attended.rank_le (h : pool.Attended) :
    pool.rank ≤ 20 * pool.workers.length + pool.queued := by
  have hle : (pool.workers.map Worker.rank).sum ≤
      (pool.workers.map fun worker ↦ 20 + worker.queue.length).sum :=
    List.sum_le_sum fun worker hworker ↦ (h worker hworker).rank_le
  rw [List.sum_map_add, List.map_const', List.sum_replicate_nat, Nat.mul_comm] at hle
  exact hle

/-- The shutdown of a pool. From any point of a run at which the token is cancelled: in every way to
go on, the workers, the supervisors and the sessions on their way out take at most twenty steps for
each worker, one for each event that waits on a channel and one for each event that a callback still
sends. As long as the pool has not returned, one of them can take a step. Their steps alone make the
pool return. -/
theorem shutdown (h : Attending codec display (.new config slots before) log pool)
    (hcancelled : pool.Cancelled) (hlater : Attending codec display pool later following) :
    ownSteps later ≤ 20 * max slots 1 + pool.queued + late later ∧
    (following.result = none → ∃ slot op, op.own = true ∧
      (restrict attends (next codec display) following (slot, op)).isSome = true) ∧
    ∃ rest final, Attending codec display following rest final ∧
      (∀ entry ∈ rest, entry.1.2.own = true) ∧ final.result.isSome = true := by
  have hattended := Attending.attended h
  have hfollowing := (progress codec display).inv hlater ⟨hattended, hcancelled⟩
  refine ⟨?_, fun hresult ↦ ?_, ?_⟩
  · have hcount := (progress codec display).count_add_rank_le hlater ⟨hattended, hcancelled⟩
    have hrank := hattended.rank_le
    rw [Exec.length h.of_restrict] at hrank
    calc ownSteps later
        ≤ (progress codec display).count later + following.rank := Nat.le_add_right _ _
      _ ≤ pool.rank + late later := hcount
      _ ≤ 20 * max slots 1 + pool.queued + late later := Nat.add_le_add_right hrank _
  · obtain ⟨slot, op, out, moved, hown, _, hnext⟩ :=
      hfollowing.1.canGoOn codec display hfollowing.2 hresult
    exact ⟨slot, op, hown, by rw [hnext]; rfl⟩
  · have hstuck : ∀ pool : Pool, pool.Attended ∧ pool.Cancelled → ¬ pool.result.isSome = true →
        ∃ op out moved, restrict attends (next codec display) pool op = some (out, moved) ∧
          (progress codec display).own op = true ∧
          (progress codec display).credit (op, out) = 0 := by
      rintro pool ⟨hpool, hpoolCancelled⟩ hnot
      obtain ⟨slot, op, out, moved, hown, hlate, hnext⟩ :=
        hpool.canGoOn codec display hpoolCancelled (by simpa using hnot)
      exact ⟨(slot, op), out, moved, hnext, hown, hlate⟩
    obtain ⟨rest, final, hrest, hfinal, hall, _⟩ :=
      (progress codec display).finishes hstuck hfollowing
    exact ⟨rest, final, hrest, hall, hfinal⟩

/-- Two workers are cancelled, of which one has a session that awaits an Offer and the other is
about to start one. They finish, and in the middle of it a step is still possible. -/
theorem shutdown_of_two_workers : ∃ log pool later following,
    Attending .plain (fun _ ↦ "error") (.new ⟨.zero, .zero, .zero⟩ 2 false) log pool ∧
    pool.Cancelled ∧ Attending .plain (fun _ ↦ "error") pool later following ∧
    following.result = none ∧ ownSteps later = 10 ∧
    ownSteps later ≤ 20 * max 2 1 + pool.queued + late later ∧
    ∃ slot op, op.own = true ∧
      (restrict attends (next .plain fun _ ↦ "error") following (slot, op)).isSome = true := by
  have hrun : (Execution.run (restrict attends (next .plain fun _ ↦ "error"))
      [(0, .supervise .check), (0, .supervise .start), (0, .forward),
        (0, .session 0 (.session (.connected (.ok ())))), (1, .supervise .check),
        (0, .supervise .cancel), (1, .supervise .cancel)]
      ([], .new ⟨.zero, .zero, .zero⟩ 2 false)).any (fun reached ↦
        reached.2.workers.all (·.supervision.cancelled) &&
        (Execution.run (restrict attends (next .plain fun _ ↦ "error"))
          [(1, .supervise .start), (0, .session 0 (.session .cancelled)),
            (0, .session 0 (.session .closed)),
            (0, .supervise (.sessionReturned (.error .cancelled) .zero)), (0, .supervise .examine),
            (0, .supervise .stop), (0, .finish), (0, .drain), (0, .complete), (1, .forward)]
          ([], reached.2)).any fun ended ↦
            !ended.2.workers.all (·.stage = .finished) && ownSteps ended.1 = 10) = true := by
    decide +kernel
  obtain ⟨⟨log, pool⟩, hreached, htest⟩ := (Option.any_eq_true _ _).mp hrun
  rw [Bool.and_eq_true] at htest
  obtain ⟨⟨later, following⟩, hended, hstate⟩ := (Option.any_eq_true _ _).mp htest.2
  simp only [Bool.and_eq_true, Bool.not_eq_true', decide_eq_true_eq] at hstate
  have hcancelled : pool.Cancelled := by
    simpa [Cancelled] using htest.1
  have hresult : following.result = none := by
    rw [result_eq, if_neg (by simpa using hstate.1)]
  obtain ⟨hbound, hgoOn, _⟩ := shutdown (Execution.exec_of_run hreached) hcancelled
    (Execution.exec_of_run hended)
  exact ⟨log, pool, later, following, Execution.exec_of_run hreached, hcancelled,
    Execution.exec_of_run hended, hresult, hstate.2, hbound, hgoOn hresult⟩

end Pool

end Unbounded.Supervisor
