import Unbounded.Consumer.Maintenance
import Unbounded.Execution.Clock

/-!
# The attempts of a consumer loop in time

`maintain_consumer` with a clock. The loop sleeps for `retry_delay` after an attempt that failed,
and a sleep never ends early; after a path that ended it starts the next attempt at once.

`retry_pacing` says for every run that nothing starts or fails within the delay after a failure, so
that failures are rare in a window of time, and that the attempts in a window are at most one more
than the paths that ended and the attempts that failed in it.
-/

namespace Unbounded.Consumer.Maintenance

open Execution (Clocked Pace Stamped Tick Timers countP_mul_le stamped)

/-- The sleep of the loop. -/
def timers : Timers Maintenance Op Unit where
  sets := fun op state ↦ match op, state.control with
    | .examine, .sleeping delay => some ((), delay.nanos)
    | _, _ => none
  awaits := fun
    | .woke => some ()
    | _ => none

/-- A loop with a clock. -/
abbrev Timed := Clocked Maintenance Unit

/-- A step of a loop with its stamp. -/
abbrev Step := Stamped Op Out

/-- Logs of a loop with a clock. -/
abbrev TimedLog := Execution.Log (Tick Op) (Option (Nat × Out))

/-- The event of a step passes a test. -/
def emits (test : ConsumerEvent → Bool) (step : Step) : Bool :=
  step.entry.2.event.any test

/-- The event of a step passes a test, in a window of time. -/
def emitsWithin (test : ConsumerEvent → Bool) (first last : Nat) (step : Step) : Bool :=
  emits test step && first ≤ step.time && step.time ≤ last

variable {display : ConsumerError → String} {codec : Codec}
  {decode : Bytes → Except String UnboundedPacket} {config : ConsumerSupervisorConfig}
  {state following : Maintenance} {timed : Timed} {log : TimedLog}

/-- Before this time nothing starts or fails. -/
def earliest (timed : Timed) : Nat :=
  match timed.state.control with
  | .sleeping _ | .stopping | .returned => max timed.now (timed.due ())
  | _ => timed.now

/-- Nothing happens in the past. -/
theorem now_le_earliest (timed : Timed) : timed.now ≤ earliest timed := by
  unfold earliest
  split <;> omega

/-- What a result leads to: a failure is followed by a sleep. -/
theorem event_of_settle {retryDelay : Duration} {cancelled : Bool}
    {summary counted : ConsumerSummary} {result : SessionResult} {event : Option ConsumerEvent}
    {control : Control}
    (h : settle display retryDelay cancelled summary result = (event, counted, control)) :
    (event = none ∧ control = .stopping) ∨
    (∃ attempt error, event = some (.attemptFailed attempt error) ∧
      control = .sleeping retryDelay) ∨
    ∃ attempt outcome, event = some (.pathEnded attempt outcome) ∧ control = .checking := by
  unfold settle at h
  split at h
  all_goals
    split at h
    all_goals simp only [Prod.mk.injEq] at h
  · exact .inl ⟨h.1.symm, h.2.2.symm⟩
  · exact .inr (.inl ⟨_, _, h.1.symm, h.2.2.symm⟩)
  · exact .inl ⟨h.1.symm, h.2.2.symm⟩
  · exact .inr (.inr ⟨_, _, h.1.symm, h.2.2.symm⟩)

/-- How long after a step nothing starts or fails. -/
def distance (config : ConsumerSupervisorConfig) (entry : Op × Out) : Nat :=
  if entry.2.event.any isFailed then config.retryDelay.nanos else 0

/-- A step against the time at which something may start or fail. -/
theorem earliest_of_change {op : Op} {out : Out}
    (h : Change display codec decode config timed.state op out following)
    (helapsed : timers.elapsed timed op = true) :
    earliest timed ≤ earliest ⟨timed.now, timers.reset timed op following, following⟩ ∧
      timed.now + distance config (op, out) ≤
        earliest ⟨timed.now, timers.reset timed op following, following⟩ ∧
      ((out.event.any isStart || out.event.any isFailed) = true → earliest timed ≤ timed.now) := by
  obtain ⟨now, due, state⟩ := timed
  have hpast := now_le_earliest ⟨now, timers.reset ⟨now, due, state⟩ op following, following⟩
  cases h with
  | cancel => exact ⟨Nat.le_refl _, hpast, by simp [Out.own]⟩
  | go => exact ⟨Nat.le_refl _, hpast, by simp [Out.own]⟩
  | give => exact ⟨hpast, hpast, by simp [Out.own]⟩
  | start => exact ⟨hpast, hpast, fun _ ↦ Nat.le_refl _⟩
  | session => exact ⟨hpast, hpast, by simp⟩
  | @settled sessions cancelled summary index _ _ counted _ _ hsettle =>
      rcases event_of_settle hsettle with ⟨rfl, rfl⟩ | ⟨attempt, error, rfl, rfl⟩ |
        ⟨attempt, outcome, rfl, rfl⟩
      · exact ⟨hpast, hpast, by simp [Out.own]⟩
      · refine ⟨hpast, ?_, fun _ ↦ Nat.le_refl _⟩
        have hdue : timers.reset ⟨now, due, ⟨sessions, cancelled, summary, .running index⟩⟩ .examine
            ⟨sessions, cancelled, counted, .sleeping config.retryDelay⟩ () =
              now + config.retryDelay.nanos :=
          Timers.reset_of_sets rfl
        exact Nat.le_trans (Nat.le_of_eq hdue.symm) (Nat.le_max_right _ _)
      · exact ⟨hpast, hpast, fun _ ↦ Nat.le_refl _⟩
  | woke =>
      have hdue : due () ≤ now := by simpa [Timers.elapsed, timers] using helapsed
      exact ⟨Nat.max_le.mpr ⟨Nat.le_refl _, hdue⟩, hpast, by simp [Out.own]⟩
  | interrupted => exact ⟨Nat.le_refl _, hpast, by simp [Out.own]⟩
  | stop => exact ⟨Nat.le_refl _, hpast, by simp [Out.own, isStart, isFailed]⟩
  | other => exact ⟨Nat.le_refl _, hpast, by simp⟩

/-- The starts and failures of a loop in time. -/
def pace (display : ConsumerError → String) (codec : Codec)
    (decode : Bytes → Except String UnboundedPacket) (config : ConsumerSupervisorConfig) :
    Pace timers (next display codec decode config) fun _ ↦ True where
  marks := fun entry ↦ entry.2.event.any isStart || entry.2.event.any isFailed
  distance := distance config
  earliest := earliest
  keeps := fun _ _ ↦ trivial
  waits := by
    intro timed amount
    simp only [earliest]
    split <;> omega
  rises := fun _ helapsed hnext ↦ earliest_of_change (change_of_next hnext) helapsed

/-! ## Attempts and results in a window -/

/-- The loop is between two attempts and may start another. -/
def Control.idle : Control → Bool
  | .checking | .starting | .sleeping _ => true
  | _ => false

/-- The steps of a run that emit an event in a window. -/
def count (test : ConsumerEvent → Bool) (first last : Nat) (log : TimedLog) : Nat :=
  (stamped log).countP (emitsWithin test first last)

variable {first last : Nat} {test : ConsumerEvent → Bool} {op : Op} {out : Out} {due : Unit → Nat}

/-- The steps of a window, counted with one more step. -/
theorem count_cons (time : Nat) :
    count test first last ((.step op, some (time, out)) :: log) =
      count test first last log + (emitsWithin test first last ⟨time, (op, out)⟩).toNat := by
  have hstamped : stamped ((.step op, some (time, out)) :: log) =
      ⟨time, (op, out)⟩ :: stamped log := rfl
  rw [count, hstamped, List.countP_cons, count]
  cases emitsWithin test first last ⟨time, (op, out)⟩ <;> rfl

/-- A step with another event is not counted. -/
theorem count_cons_of_not (time : Nat) (h : out.event.any test = false) :
    count test first last ((.step op, some (time, out)) :: log) = count test first last log := by
  have hnot : emitsWithin test first last ⟨time, (op, out)⟩ = false := by
    simp [emitsWithin, emits, h]
  rw [count_cons, hnot]
  rfl

/-- A step outside the window is not counted. -/
theorem count_cons_outside {time : Nat} (h : time < first ∨ last < time) :
    count test first last ((.step op, some (time, out)) :: log) = count test first last log := by
  have hnot : emitsWithin test first last ⟨time, (op, out)⟩ = false := by
    simp only [emitsWithin, Bool.and_eq_false_iff, decide_eq_false_iff_not]
    omega
  rw [count_cons, hnot]
  rfl

/-- A step in the window is counted. -/
theorem count_cons_within {time : Nat} (h : out.event.any test = true) (hfirst : first ≤ time)
    (hlast : time ≤ last) :
    count test first last ((.step op, some (time, out)) :: log) =
      count test first last log + 1 := by
  have hwithin : emitsWithin test first last ⟨time, (op, out)⟩ = true := by
    simp [emitsWithin, emits, h, hfirst, hlast]
  rw [count_cons, hwithin]
  rfl

/-- The attempts of a window against its results. -/
structure Balanced (first last : Nat) (log : TimedLog) (timed : Timed) : Prop where
  early : timed.now < first → count isStart first last log = 0
  idle : timed.now ≤ last → timed.state.control.idle = true →
    count isStart first last log ≤ count isEnded first last log + count isFailed first last log
  total : count isStart first last log ≤
    count isEnded first last log + count isFailed first last log + 1

/-- The attempts of a window stay balanced when time passes. -/
theorem Balanced.elapse (h : Balanced first last log timed) (amount : Nat) :
    Balanced first last ((.elapse amount, none) :: log)
      { timed with now := timed.now + amount } where
  early := fun hlt ↦ h.early (Nat.lt_of_le_of_lt (Nat.le_add_right _ _) hlt)
  idle := fun hle ↦ h.idle (Nat.le_trans (Nat.le_add_right _ _) hle)
  total := h.total

/-- A step that emits neither a start nor a result, and that does not end an attempt, keeps the
attempts of a window balanced. -/
theorem Balanced.quiet (h : Balanced first last log timed)
    (hevent : out.event.any isStart = false ∧ out.event.any isEnded = false ∧
      out.event.any isFailed = false)
    (hidle : following.control.idle = true → timed.state.control.idle = true) :
    Balanced first last ((.step op, some (timed.now, out)) :: log)
      ⟨timed.now, due, following⟩ := by
  obtain ⟨hstart, hended, hfailed⟩ := hevent
  refine ⟨fun hlt ↦ ?_, fun hle hfollowing ↦ ?_, ?_⟩
  · rw [count_cons_of_not _ hstart]
    exact h.early hlt
  · rw [count_cons_of_not _ hstart, count_cons_of_not _ hended, count_cons_of_not _ hfailed]
    exact h.idle hle (hidle hfollowing)
  · rw [count_cons_of_not _ hstart, count_cons_of_not _ hended, count_cons_of_not _ hfailed]
    exact h.total

/-- The attempts of a window stay balanced when a result ends one. -/
theorem Balanced.result (h : Balanced first last log timed)
    (hstart : out.event.any isStart = false)
    (hresult : out.event.any isEnded = true ∨ out.event.any isFailed = true) :
    Balanced first last ((.step op, some (timed.now, out)) :: log)
      ⟨timed.now, due, following⟩ := by
  have hsame : count isStart first last ((.step op, some (timed.now, out)) :: log) = _ :=
    count_cons_of_not _ hstart
  have hended : count isEnded first last ((.step op, some (timed.now, out)) :: log) = _ :=
    count_cons _
  have hfailed : count isFailed first last ((.step op, some (timed.now, out)) :: log) = _ :=
    count_cons _
  have htotal := h.total
  refine ⟨fun hlt ↦ hsame.trans (h.early hlt), fun hle _ ↦ ?_, by omega⟩
  rcases Nat.lt_or_ge timed.now first with hlt | hge
  · -- nothing of the window has started before it
    rw [hsame, h.early hlt]
    exact Nat.zero_le _
  · rcases hresult with hresult | hresult
    · have hone : count isEnded first last ((.step op, some (timed.now, out)) :: log) = _ :=
        count_cons_within hresult hge hle
      omega
    · have hone : count isFailed first last ((.step op, some (timed.now, out)) :: log) = _ :=
        count_cons_within hresult hge hle
      omega

/-- The attempts of a window stay balanced when one starts. -/
theorem Balanced.start (h : Balanced first last log timed)
    (hidle : timed.state.control.idle = true)
    (hresult : out.event.any isEnded = false ∧ out.event.any isFailed = false)
    (hfollowing : following.control.idle = false) :
    Balanced first last ((.step op, some (timed.now, out)) :: log)
      ⟨timed.now, due, following⟩ := by
  refine ⟨fun hlt ↦ (count_cons_outside (.inl hlt)).trans (h.early hlt), fun _ hnot ↦ ?_, ?_⟩
  · exact absurd hnot (by simp [hfollowing])
  · rw [count_cons_of_not _ hresult.1, count_cons_of_not _ hresult.2]
    rcases Nat.lt_or_ge last timed.now with hlt | hle
    · rw [count_cons_outside (.inr hlt)]
      exact h.total
    · have hbefore := h.idle hle hidle
      have hone := Bool.toNat_le (emitsWithin isStart first last ⟨timed.now, (op, out)⟩)
      rw [count_cons]
      omega

/-- A step of the loop keeps the balance. -/
theorem Balanced.step (h : Balanced first last log timed)
    (hchange : Change display codec decode config timed.state op out following) :
    Balanced first last ((.step op, some (timed.now, out)) :: log)
      ⟨timed.now, due, following⟩ := by
  obtain ⟨now, timers, state⟩ := timed
  cases hchange with
  | start => exact h.start rfl ⟨rfl, rfl⟩ rfl
  | settled _ hsettle =>
      rcases event_of_settle hsettle with ⟨rfl, rfl⟩ | ⟨attempt, error, rfl, rfl⟩ |
        ⟨attempt, outcome, rfl, rfl⟩
      · exact h.quiet ⟨rfl, rfl, rfl⟩ (fun hidle ↦ nomatch hidle)
      · exact h.result rfl (.inr rfl)
      · exact h.result rfl (.inl rfl)
  | cancel => exact h.quiet ⟨rfl, rfl, rfl⟩ id
  | go => exact h.quiet ⟨rfl, rfl, rfl⟩ (fun _ ↦ rfl)
  | give => exact h.quiet ⟨rfl, rfl, rfl⟩ (fun _ ↦ rfl)
  | session => exact h.quiet ⟨rfl, rfl, rfl⟩ id
  | woke => exact h.quiet ⟨rfl, rfl, rfl⟩ (fun _ ↦ rfl)
  | interrupted => exact h.quiet ⟨rfl, rfl, rfl⟩ (fun _ ↦ rfl)
  | stop => exact h.quiet ⟨rfl, rfl, rfl⟩ (fun hidle ↦ nomatch hidle)
  | other => exact h.quiet ⟨rfl, rfl, rfl⟩ id

/-- Every run is balanced. -/
theorem Exec.balanced {start : Timed}
    (h : Execution.Exec (timers.next (next display codec decode config)) start log timed)
    (first last : Nat) : Balanced first last log timed := by
  induction h with
  | refl => exact ⟨fun _ ↦ rfl, fun _ _ ↦ Nat.le_refl _, Nat.zero_le _⟩
  | snoc _ hnext ih =>
      rcases Timers.cases_of_next hnext with ⟨amount, rfl, rfl, rfl⟩ |
        ⟨op, out, moved, rfl, rfl, _, hmoved, rfl⟩
      · exact ih.elapse amount
      · exact ih.step (change_of_next hmoved)

/-! ## The pace of a loop -/

/-- Failures that keep apart are few in a window. -/
theorem count_isFailed_le {gap : Nat} (hspaced : (stamped log).Pairwise fun later earlier ↦
      emits isFailed earlier = true → (emits isStart later || emits isFailed later) = true →
        earlier.time + gap ≤ later.time) (since width : Nat) :
    count isFailed since (since + width) log * gap ≤ width + gap := by
  have hwindow : ∀ step, emitsWithin isFailed since (since + width) step = true →
      emits isFailed step = true ∧ since ≤ step.time ∧ step.time ≤ since + width := by
    intro step hstep
    simp only [emitsWithin, Bool.and_eq_true, decide_eq_true_eq] at hstep
    exact ⟨hstep.1.1, hstep.1.2, hstep.2⟩
  have hfew : count isFailed since (since + width) log * gap ≤ since + width - since + gap := by
    refine countP_mul_le (hspaced.imp fun hapart hlater hearlier ↦ ?_)
      fun step hstep ↦ (hwindow step hstep).2
    exact hapart (hwindow _ hearlier).1 (by rw [(hwindow _ hlater).1, Bool.or_true])
  rwa [Nat.add_sub_cancel_left] at hfew

/-- In every run of `maintain_consumer` with a clock, on a socket that others use: after a failed
attempt neither an attempt starts nor another fails within `retry_delay`, the attempts that fail in
a window of time are as few as that allows, and the attempts that start in it are at most one more
than those that fail and the paths that end in it. -/
theorem retry_pacing {sessions : Sessions} {cancelled : Bool} {now : Nat}
    (h : Execution.Exec (timers.next (next display codec decode config))
      ⟨now, due, .new sessions cancelled⟩ log timed) :
    ((stamped log).Pairwise fun later earlier ↦
      emits isFailed earlier = true → (emits isStart later || emits isFailed later) = true →
        earlier.time + config.retryDelay.nanos ≤ later.time) ∧
    ∀ since width,
      count isFailed since (since + width) log * config.retryDelay.nanos ≤
        width + config.retryDelay.nanos ∧
      count isStart since (since + width) log ≤
        count isEnded since (since + width) log + count isFailed since (since + width) log + 1 := by
  have hspaced : (stamped log).Pairwise fun later earlier ↦
      emits isFailed earlier = true → (emits isStart later || emits isFailed later) = true →
        earlier.time + config.retryDelay.nanos ≤ later.time := by
    have hpace := ((pace display codec decode config).spaced trivial h).1
    refine hpace.imp fun hkeeps hfailed hmarks ↦ ?_
    have hkept := hkeeps hmarks
    have hdistance : (pace display codec decode config).distance _ = config.retryDelay.nanos :=
      if_pos hfailed
    rwa [hdistance] at hkept
  exact ⟨hspaced, fun since width ↦
    ⟨count_isFailed_le hspaced since width, (Exec.balanced h since (since + width)).total⟩⟩

/-- Two attempts that fail at once, with a delay of a millisecond between them. -/
theorem retry_pacing_of_two_failures : ∃ socket log timed,
    VirtualUdp.Socket.withOptions (.v4 0 0) 1200 8 = some socket ∧
    Execution.Exec (timers.next (next (fun _ ↦ "failed") .plain (fun _ ↦ .error "")
      ⟨⟨"session", "", 8⟩, .oneMilli⟩)) ⟨0, fun _ ↦ 0, .new (.new socket) false⟩ log timed ∧
    ((stamped log).filter (emits isFailed)).map Stamped.time = [1000000, 0] ∧
    count isFailed 0 (0 + 1000000) log = 2 ∧
    count isFailed 0 (0 + 1000000) log * 1000000 ≤ 1000000 + 1000000 := by
  have hrun : (Execution.run (timers.next (next (fun _ ↦ "failed") .plain (fun _ ↦ .error "")
      ⟨⟨"session", "", 8⟩, .oneMilli⟩))
      [.step .check, .step .start, .step (.session (.step 0 (.connected (.error "refused")))),
        .step .examine, .elapse 1000000, .step .woke, .step .check, .step .start,
        .step (.session (.step 1 (.connected (.error "refused")))), .step .examine]
      ([], ⟨0, fun _ ↦ 0,
        .new (.new ((VirtualUdp.Socket.withOptions (.v4 0 0) 1200 8).get rfl)) false⟩)).any
      (fun reached ↦
        ((stamped reached.1).filter (emits isFailed)).map Stamped.time = [1000000, 0] &&
        count isFailed 0 (0 + 1000000) reached.1 = 2) = true := by
    decide +kernel
  obtain ⟨⟨log, timed⟩, hreached, htest⟩ := (Option.any_eq_true _ _).mp hrun
  simp only [Bool.and_eq_true, decide_eq_true_eq] at htest
  have hexec := Execution.exec_of_run hreached
  exact ⟨_, log, timed, (Option.some_get rfl).symm, hexec, htest.1, htest.2,
    ((retry_pacing hexec).2 0 1000000).1⟩

end Unbounded.Consumer.Maintenance
