import Unbounded.Execution.Clock
import Unbounded.Supervisor.Backoff
import Unbounded.Supervisor.Pool
import Mathlib.Algebra.BigOperators.Ring.List
import Mathlib.Algebra.Group.Action.Defs
import Mathlib.Algebra.Order.BigOperators.Group.List

/-!
# Attempts in time

The pool with a clock. A supervisor sleeps for the delay that it has reported, and a sleep never
ends early, while the clock may run on for any time at any point. Each slot has a timer of its own.

`pacing` says for every run that an attempt starts no sooner than the delays reported before it in
its slot, that two attempts of a slot are a shortest delay apart, however long or short the sessions
are, and hence how many attempts a pool starts in a window of time.
-/

namespace Unbounded.Supervisor

open Execution (Clocked Pace Stamped Tick Timers countP_eq_sum_slots countP_mul_le
  getElem?_set_slot getElem?_set_slot_self stamped)
open PeerProxy (Codec PeerProxyError)

/-- The delay that an event reports. -/
def SupervisorEvent.retryIn : SupervisorEvent → Option Duration
  | .sessionEnded _ _ _ retryIn | .attemptFailed _ _ _ retryIn => some retryIn
  | _ => none

/-- No delay is shorter, in nanoseconds. -/
def SupervisorConfig.shortestRetry (config : SupervisorConfig) : Nat :=
  min (config.initialNanos * 80 / 100) (2 ^ 64 - 1)

/-! ## One supervisor -/

namespace Supervision

/-- Before this time no attempt can start, when it is `now` and the sleep ends at `due`. -/
def earliest (gap now due : Nat) : Control → Nat
  | .checking | .starting => now
  | .running | .examining _ _ | .reporting _ _ => now + gap
  | .sleeping _ => max now due
  | .stopping | .returned => max now due + gap

/-- How long after an event no attempt can start. -/
def distance (config : SupervisorConfig) (event : SupervisorEvent) : Nat :=
  if isStart event then config.shortestRetry else (event.retryIn.map Duration.nanos).getD 0

variable {display : PeerProxyError → String} {config : SupervisorConfig} {log : Log}
  {supervision following : Supervision} {gap now due : Nat} {control : Control}

/-- Nothing can happen in the past. -/
theorem now_le_earliest : now ≤ earliest gap now due control := by
  cases control <;> simp only [earliest] <;> omega

/-- Time does not make an attempt possible earlier. -/
theorem earliest_le_add (amount : Nat) :
    earliest gap now due control ≤ earliest gap (now + amount) due control := by
  cases control <;> simp only [earliest] <;> omega

/-- No delay is shorter than the shortest. -/
theorem Paced.shortestRetry_le (h : Paced config log supervision)
    (result : PeerProxy.SessionResult) (clock : UInt64) :
    config.shortestRetry ≤ (supervision.retryIn result clock).nanos := by
  obtain ⟨percent, hpercent, _, hclosed⟩ := h.retryIn result clock
  have hbase := (config.base_bounds result (results log)).1
  have hlargest := config.initialNanos_le
  have hproduct : config.initialNanos * 80 ≤ config.base result (results log) * percent :=
    Nat.mul_le_mul hbase hpercent
  rw [hclosed, SupervisorConfig.shortestRetry]
  omega

/-- The delay of a supervisor that has just reported a result. -/
def delay : Control → Option Nat
  | .sleeping retryIn => some retryIn.nanos
  | _ => none

/-- When the sleep of a supervisor ends after a step. -/
def dueAfter (now due : Nat) (op : Op) (control : Control) : Nat :=
  match op with
  | .report _ => ((delay control).map (now + ·)).getD due
  | _ => due

/-- A step does not make an attempt possible earlier, it keeps the next attempt away, and an attempt
starts only when it is possible. -/
theorem earliest_of_change {op : Op} {event : Option SupervisorEvent}
    (hpaced : Paced config log supervision)
    (h : Change display supervision op event following) (hwoke : op = .woke → due ≤ now) :
    earliest config.shortestRetry now due supervision.control ≤
        earliest config.shortestRetry now (dueAfter now due op following.control)
          following.control ∧
      now + (event.map (distance config)).getD 0 ≤
        earliest config.shortestRetry now (dueAfter now due op following.control)
          following.control ∧
      (event.any isStart = true →
        earliest config.shortestRetry now due supervision.control ≤ now) := by
  cases h with
  | cancel => exact ⟨Nat.le_refl _, now_le_earliest, by simp⟩
  | go => exact ⟨Nat.le_refl _, now_le_earliest, by simp⟩
  | give => exact ⟨by simp only [earliest, dueAfter]; omega, now_le_earliest, by simp⟩
  | start => exact ⟨Nat.le_add_right _ _, Nat.le_refl _, fun _ ↦ Nat.le_refl _⟩
  | sessionReturned => exact ⟨Nat.le_refl _, now_le_earliest, by simp⟩
  | abandon => exact ⟨by simp only [earliest, dueAfter]; omega, now_le_earliest, by simp⟩
  | accept => exact ⟨Nat.le_refl _, now_le_earliest, by simp⟩
  | @report _ _ _ _ result _ clock retryIn _ hretry _ =>
      have hshortest := hpaced.shortestRetry_le result clock
      rw [← hretry] at hshortest
      have hdistance : ∀ attempt duration, distance config
          (resultEvent display attempt result duration retryIn) = retryIn.nanos := by
        intro attempt duration
        cases result <;> rfl
      have hstart : ∀ attempt duration,
          isStart (resultEvent display attempt result duration retryIn) = false := by
        intro attempt duration
        cases result <;> rfl
      simp only [Option.map_some, Option.getD_some, hdistance, Option.any_some, hstart, earliest,
        dueAfter, delay, Bool.false_eq_true, false_implies, and_true]
      omega
  | woke =>
      have hdue := hwoke rfl
      exact ⟨by simp only [earliest]; omega, now_le_earliest, by simp⟩
  | interrupted => exact ⟨by simp only [earliest, dueAfter]; omega, now_le_earliest, by simp⟩
  | stop => exact ⟨Nat.le_refl _, now_le_earliest, by simp [isStart]⟩

/-- An event that is not the supervisor's own says nothing about attempts. -/
theorem earliest_of_not_own {event : Option SupervisorEvent}
    (h : ∀ sent ∈ event, Worker.isOwn sent = false) :
    now + (event.map (distance config)).getD 0 ≤ earliest gap now due control ∧
      (event.any isStart = true → earliest gap now due control ≤ now) := by
  cases event with
  | none => exact ⟨now_le_earliest, by simp⟩
  | some sent =>
      have hsent := h sent rfl
      cases sent with
      | peerConnected => exact ⟨now_le_earliest, by simp [isStart]⟩
      | peerDisconnected => exact ⟨now_le_earliest, by simp [isStart]⟩
      | _ => simp [Worker.isOwn] at hsent

end Supervision

/-- A session and its callbacks put no event of the supervisor on the channel. -/
theorem Worker.not_own_of_peer {codec : Codec} {worker : Worker} {peer moved : PeerProxy.Peer}
    {op : PeerProxy.Peer.Op} {out : PeerProxy.Peer.Out}
    (h : PeerProxy.Peer.Change codec peer op out moved) :
    ∀ sent ∈ worker.received out.event, isOwn sent = false := by
  intro sent hsent
  have hevent : sent ∈ out.event.toList := by
    unfold received at hsent
    split at hsent
    · simp at hsent
    · simpa using hsent
  have hnone := List.filter_eq_nil_iff.mp (isOwn_of_peer h) sent hevent
  simpa using hnone

/-! ## The pool -/

namespace Pool

/-- The sleeps of the supervisors, each with a timer in its slot. -/
def timers : Timers Pool (Nat × Worker.Op) Nat where
  sets := fun (slot, op) pool ↦ match op with
    | .supervise (.report _) => pool.workers[slot]?.bind fun worker ↦
        (Supervision.delay worker.supervision.control).map fun nanos ↦ (slot, nanos)
    | _ => none
  awaits := fun (slot, op) ↦ match op with
    | .supervise .woke => some slot
    | _ => none

/-- A pool with a clock. -/
abbrev Timed := Clocked Pool Nat

/-- A step of a pool with its stamp. -/
abbrev Step := Stamped (Nat × Worker.Op) Worker.Out

/-- The slot of a step. -/
def slotOf (step : Step) : Nat := step.entry.1.1

/-- The step starts an attempt. -/
def starts (step : Step) : Bool := step.entry.2.enqueued.any Supervision.isStart

variable {codec : Codec} {display : PeerProxyError → String} {config : SupervisorConfig}
  {slots : Nat} {before : Bool} {pool following : Pool} {timed : Timed}

/-- The timer of a slot after a step of its supervisor. -/
theorem reset_supervise {slot : Nat} {worker : Worker} (op : Supervisor.Op)
    (h : following.workers[slot]? = some worker) :
    timers.reset timed (slot, .supervise op) following slot =
      Supervision.dueAfter timed.now (timed.due slot) op worker.supervision.control := by
  cases op with
  | report clock =>
      simp only [Timers.reset, timers, h, Option.bind_some, Supervision.dueAfter]
      cases Supervision.delay worker.supervision.control <;> simp
  | _ => rfl

/-- A step of another slot leaves the timer of a slot alone. -/
theorem reset_of_ne {slot other : Nat} {op : Worker.Op} (h : other ≠ slot) :
    timers.reset timed (other, op) following slot = timed.due slot := by
  refine Timers.reset_of_not_sets fun amount hsets ↦ ?_
  simp only [timers] at hsets
  split at hsets
  case h_2 => simp at hsets
  case h_1 =>
    simp only [Option.bind_eq_some_iff, Option.map_eq_some_iff, Prod.mk.injEq] at hsets
    obtain ⟨_, _, _, _, hother, _⟩ := hsets
    exact h hother

/-- Before this time no attempt can start in a slot. -/
def earliest (config : SupervisorConfig) (slot : Nat) (timed : Timed) : Nat :=
  match timed.state.workers[slot]? with
  | some worker => Supervision.earliest config.shortestRetry timed.now (timed.due slot)
      worker.supervision.control
  | none => timed.now

/-- How long after a step of a slot no attempt can start in it. -/
def distance (config : SupervisorConfig) (slot : Nat)
    (entry : (Nat × Worker.Op) × Worker.Out) : Nat :=
  if entry.1.1 = slot then (entry.2.enqueued.map (Supervision.distance config)).getD 0 else 0

/-- A step of the worker in a slot, against the time of the next attempt in it. -/
theorem earliest_of_worker {slot : Nat} {worker moved : Worker} {op : Worker.Op} {out : Worker.Out}
    {log : Supervision.Log} (hpaced : Supervision.Paced config log worker.supervision)
    (hmoved : following.workers[slot]? = some moved)
    (h : Worker.Change codec display worker op out moved)
    (helapsed : timers.elapsed timed (slot, op) = true) :
    Supervision.earliest config.shortestRetry timed.now (timed.due slot)
        worker.supervision.control ≤
      Supervision.earliest config.shortestRetry timed.now
        (timers.reset timed (slot, op) following slot) moved.supervision.control ∧
      timed.now + (out.enqueued.map (Supervision.distance config)).getD 0 ≤
        Supervision.earliest config.shortestRetry timed.now
          (timers.reset timed (slot, op) following slot) moved.supervision.control ∧
      (out.enqueued.any Supervision.isStart = true →
        Supervision.earliest config.shortestRetry timed.now (timed.due slot)
          worker.supervision.control ≤ timed.now) := by
  cases h with
  | @supervise _ op event supervision _ _ hnext =>
      rw [reset_supervise op hmoved]
      refine Supervision.earliest_of_change hpaced (Supervision.change_of_next hnext) ?_
      rintro rfl
      simpa [Timers.elapsed, timers] using helapsed
  | session _ _ hnext =>
      exact ⟨Nat.le_refl _, Supervision.earliest_of_not_own
        (Worker.not_own_of_peer (PeerProxy.Peer.change_of_next hnext))⟩
  | forward => exact ⟨Nat.le_refl _, Supervision.earliest_of_not_own (by simp)⟩
  | finish => exact ⟨Nat.le_refl _, Supervision.earliest_of_not_own (by simp)⟩
  | drain => exact ⟨Nat.le_refl _, Supervision.earliest_of_not_own (by simp)⟩
  | complete => exact ⟨Nat.le_refl _, Supervision.earliest_of_not_own (by simp)⟩

/-- The state of a pool can be reached. -/
def Reached (codec : Codec) (display : PeerProxyError → String) (config : SupervisorConfig)
    (slots : Nat) (before : Bool) (pool : Pool) : Prop :=
  ∃ log, Exec codec display (.new config slots before) log pool

/-- The attempts of a slot in time. -/
def pace (codec : Codec) (display : PeerProxyError → String) (config : SupervisorConfig)
    (slots : Nat) (before : Bool) (slot : Nat) :
    Pace timers (next codec display) (Reached codec display config slots before) where
  marks := fun entry ↦ entry.1.1 = slot && entry.2.enqueued.any Supervision.isStart
  distance := distance config slot
  earliest := earliest config slot
  keeps := fun ⟨log, hexec⟩ hnext ↦ ⟨_, hexec.snoc hnext⟩
  waits := by
    intro timed amount
    simp only [earliest]
    cases timed.state.workers[slot]? with
    | none => exact Nat.le_add_right _ _
    | some worker => exact Supervision.earliest_le_add amount
  rises := by
    rintro timed following ⟨other, op⟩ out ⟨log, hexec⟩ helapsed hnext
    obtain ⟨worker, moved, hworker, hstep, rfl⟩ := worker_of_next hnext
    by_cases hslot : other = slot
    · subst hslot
      have hmoved := getElem?_set_slot_self hworker moved
      have hcarries := Worker.Exec.carries (Exec.worker hexec hworker)
      have hpaced := Supervision.Exec.paced hcarries.supervised.of_restrict
      simp only [earliest, hworker, hmoved, distance, if_true, decide_true, Bool.true_and]
      exact earliest_of_worker hpaced hmoved (Worker.change_of_next hstep) helapsed
    · have hkept : (timed.state.workers.set other moved)[slot]? = timed.state.workers[slot]? := by
        rw [getElem?_set_slot hworker, if_neg hslot]
      simp only [earliest, hkept, reset_of_ne hslot, distance, if_neg hslot, Nat.add_zero,
        decide_eq_false hslot, Bool.false_and, Bool.false_eq_true, false_implies, and_true,
        Nat.le_refl, true_and]
      cases timed.state.workers[slot]? with
      | none => exact Nat.le_refl _
      | some worker => exact Supervision.now_le_earliest

/-- Every step is taken in a slot of the pool. -/
theorem Exec.slot_lt_of_mem {log : Log}
    (h : Exec codec display (.new config slots before) log pool) :
    ∀ entry ∈ log, entry.1.1 < max slots 1 := by
  induction h with
  | refl => simp
  | @snoc log pool following input out hexec hnext ih =>
      intro entry hentry
      rcases List.mem_cons.mp hentry with rfl | hold
      · obtain ⟨worker, moved, hworker, _, _⟩ := worker_of_next hnext
        obtain ⟨hlt, _⟩ := List.getElem?_eq_some_iff.mp hworker
        rwa [Exec.length hexec] at hlt
      · exact ih entry hold

/-- A later step is not sooner after an earlier one of its slot than the events allow. -/
def Apart (config : SupervisorConfig) (later earlier : Step) : Prop :=
  slotOf later = slotOf earlier → starts later = true →
    (∀ event ∈ earlier.entry.2.enqueued, ∀ retryIn ∈ event.retryIn,
      earlier.time + retryIn.nanos ≤ later.time) ∧
    (starts earlier = true → earlier.time + config.shortestRetry ≤ later.time)

/-- The pace of a slot keeps its steps apart. -/
theorem apart_of_keeps {later earlier : Step}
    (h : (pace codec display config slots before (slotOf later)).Keeps later earlier) :
    Apart config later earlier := by
  intro hslot hstarts
  have hmarks :
      (pace codec display config slots before (slotOf later)).marks later.entry = true := by
    simp only [pace, slotOf, decide_true, Bool.true_and]
    exact hstarts
  have hdistance : earlier.time + (earlier.entry.2.enqueued.map
      (Supervision.distance config)).getD 0 ≤ later.time := by
    have hkept := h hmarks
    simp only [pace, distance, if_pos (show earlier.entry.1.1 = slotOf later from hslot.symm)]
      at hkept
    exact hkept
  refine ⟨fun event hevent retryIn hretry ↦ ?_, fun hstart ↦ ?_⟩
  · rw [Option.mem_def.mp hevent] at hdistance
    cases event with
    | sessionEnded =>
        obtain rfl : _ = retryIn := Option.some.inj hretry
        exact hdistance
    | attemptFailed =>
        obtain rfl : _ = retryIn := Option.some.inj hretry
        exact hdistance
    | _ => simp [SupervisorEvent.retryIn] at hretry
  · obtain ⟨event, hevent, hisStart⟩ := (Option.any_eq_true _ _).mp hstart
    rw [hevent, Option.map_some, Option.getD_some, Supervision.distance, if_pos hisStart]
      at hdistance
    exact hdistance

/-- The steps of a pool keep apart. -/
theorem apart_of_exec {now : Nat} {due : Nat → Nat}
    {log : Execution.Log (Tick (Nat × Worker.Op)) (Option (Nat × Worker.Out))}
    (h : Execution.Exec (timers.next (next codec display)) ⟨now, due, .new config slots before⟩ log
      timed) : (stamped log).Pairwise (Apart config) := by
  have hslots : ∀ slot, (stamped log).Pairwise
      (pace codec display config slots before slot).Keeps :=
    fun slot ↦ ((pace codec display config slots before slot).spaced ⟨[], .refl⟩ h).1
  refine List.pairwise_iff_getElem.mpr fun older newer holder hnewer hlt ↦ ?_
  exact apart_of_keeps (List.pairwise_iff_getElem.mp (hslots _) older newer holder hnewer hlt)

/-- The step starts an attempt in a window of time. -/
def startsWithin (first last : Nat) (step : Step) : Bool :=
  starts step && first ≤ step.time && step.time ≤ last

/-- A slot starts few attempts in a window. -/
theorem count_slot_le {steps : List Step} (h : steps.Pairwise (Apart config))
    (slot first last : Nat) :
    (steps.filter fun step ↦ slotOf step = slot).countP (startsWithin first last) *
      config.shortestRetry ≤ last - first + config.shortestRetry := by
  have hwindow : ∀ step, startsWithin first last step = true →
      starts step = true ∧ first ≤ step.time ∧ step.time ≤ last := by
    intro step hstep
    simp only [startsWithin, Bool.and_eq_true, decide_eq_true_eq] at hstep
    exact ⟨hstep.1.1, hstep.1.2, hstep.2⟩
  refine countP_mul_le ?_ fun step hstep ↦ (hwindow step hstep).2
  refine (h.filter _).imp_of_mem fun hlater hearlier hapart hstart hbefore ↦ ?_
  have hslot : ∀ step ∈ steps.filter fun step ↦ slotOf step = slot, slotOf step = slot := by
    simp
  exact (hapart ((hslot _ hlater).trans (hslot _ hearlier).symm) (hwindow _ hstart).1).2
    (hwindow _ hbefore).1

/-- In every run of a pool with a clock: an attempt starts no sooner after a session has ended or an
attempt has failed in its slot than the delay that was reported, two attempts of a slot start at
least 80 percent of the first backoff apart, and the attempts that all slots together start in a
window of time are as few as that allows. -/
theorem pacing {now : Nat} {due : Nat → Nat}
    {log : Execution.Log (Tick (Nat × Worker.Op)) (Option (Nat × Worker.Out))}
    (h : Execution.Exec (timers.next (next codec display)) ⟨now, due, .new config slots before⟩ log
      timed) :
    ((stamped log).Pairwise fun later earlier ↦
      slotOf later = slotOf earlier → starts later = true →
        (∀ event ∈ earlier.entry.2.enqueued, ∀ retryIn ∈ event.retryIn,
          earlier.time + retryIn.nanos ≤ later.time) ∧
        (starts earlier = true → earlier.time + config.shortestRetry ≤ later.time)) ∧
    ∀ since width, (stamped log).countP (startsWithin since (since + width)) *
      config.shortestRetry ≤ max slots 1 * (width + config.shortestRetry) := by
  have hapart := apart_of_exec h
  have hslots : ∀ step ∈ stamped log, slotOf step < max slots 1 := fun step hstep ↦
    Exec.slot_lt_of_mem h.untimed step.entry (List.mem_map_of_mem hstep)
  refine ⟨hapart, fun since width ↦ ?_⟩
  rw [countP_eq_sum_slots hslots, ← List.sum_map_mul_right]
  have hbound := List.sum_le_card_nsmul ((List.range (max slots 1)).map fun slot ↦
    ((stamped log).filter fun step ↦ slotOf step = slot).countP
      (startsWithin since (since + width)) * config.shortestRetry) (width + config.shortestRetry)
  simp only [List.mem_map, forall_exists_index, and_imp, List.length_map, List.length_range,
    smul_eq_mul] at hbound
  refine hbound ?_
  rintro _ slot - rfl
  have hslot := count_slot_le hapart slot since (since + width)
  rwa [Nat.add_sub_cancel_left] at hslot

/-- Two attempts of one slot, with a first backoff of a millisecond and a clock that runs for a
microsecond before the failure and then to the end of the sleep. -/
theorem pacing_of_two_attempts : ∃ log timed,
    Execution.Exec (timers.next (next .plain fun _ ↦ "error"))
      ⟨0, fun _ ↦ 0, .new ⟨.zero, .zero, .zero⟩ 1 false⟩ log timed ∧
    ((stamped log).filter starts).map Stamped.time = [1001000, 0] ∧
    (stamped log).countP (startsWithin 0 (0 + 1100000)) = 2 ∧
    (stamped log).countP (startsWithin 0 (0 + 1100000)) * 800000 ≤
      max 1 1 * (1100000 + 800000) := by
  have hrun : (Execution.run (timers.next (next .plain fun _ ↦ "error"))
      [.step (0, .supervise .check), .step (0, .supervise .start),
        .step (0, .session 0 (.session (.connected (.error "io")))),
        .elapse 1000, .step (0, .supervise (.sessionReturned (.error (.webRtc "io")) .zero)),
        .step (0, .supervise .examine), .step (0, .supervise (.report 0)), .elapse 1000000,
        .step (0, .supervise .woke), .step (0, .supervise .check), .step (0, .supervise .start)]
      ([], ⟨0, fun _ ↦ 0, .new ⟨.zero, .zero, .zero⟩ 1 false⟩)).any (fun reached ↦
        ((stamped reached.1).filter starts).map Stamped.time = [1001000, 0] &&
        (stamped reached.1).countP (startsWithin 0 (0 + 1100000)) = 2) = true := by
    decide +kernel
  obtain ⟨⟨log, timed⟩, hreached, htest⟩ := (Option.any_eq_true _ _).mp hrun
  simp only [Bool.and_eq_true, decide_eq_true_eq] at htest
  have hexec := Execution.exec_of_run hreached
  exact ⟨log, timed, hexec, htest.1, htest.2, (pacing hexec).2 0 1100000⟩

end Pool

end Unbounded.Supervisor
