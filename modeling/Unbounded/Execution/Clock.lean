import Unbounded.Execution.Machine

/-!
# Machines with a clock

A clock runs beside a machine, in any amounts between two of its steps. Some steps set a timer, and
some wait for one, which never goes off early. Every step is stamped with the time it was taken at.
A run with a clock is a run of the machine (`Exec.untimed`), so that the clock only rules runs out.

A `Pace` says of some steps how long after them the marked steps may not come. It is given by a
lower bound for the time of the next marked step, which no step lowers. Then every step of a run
keeps its distance to every later marked one (`Pace.spaced`). Marked steps that keep one distance
among themselves are rare: `countP_mul_le` bounds their number in a window of time.
-/

namespace Unbounded.Execution

universe u v w x

variable {State : Type u} {Input : Type v} {Output : Type w} {Timer : Type x}

/-- Which steps of a machine set a timer, and which wait for one. -/
structure Timers (State : Type u) (Input : Type v) (Timer : Type x) where
  /-- The timer that a step sets on its way to a state, and for how long. -/
  sets : Input → State → Option (Timer × Nat)
  awaits : Input → Option Timer

/-- A machine with a clock and timers. -/
structure Clocked (State : Type u) (Timer : Type x) where
  now : Nat
  /-- When the timers go off. -/
  due : Timer → Nat
  state : State

/-- Time passes, or the machine takes a step. -/
inductive Tick (Input : Type v) where
  | elapse (amount : Nat)
  | step (input : Input)

namespace Timers

variable (timers : Timers State Input Timer) [DecidableEq Timer]

/-- The timer that a step waits for has gone off. -/
def elapsed (clocked : Clocked State Timer) (input : Input) : Bool :=
  (timers.awaits input).all fun timer ↦ clocked.due timer ≤ clocked.now

/-- The timers after a step. -/
def reset (clocked : Clocked State Timer) (input : Input) (following : State) : Timer → Nat :=
  match timers.sets input following with
  | some (timer, amount) => Function.update clocked.due timer (clocked.now + amount)
  | none => clocked.due

/-- One step of the machine or of its clock. A step of the machine gets the time as a stamp. -/
def next (next : Next State Input Output) :
    Next (Clocked State Timer) (Tick Input) (Option (Nat × Output))
  | clocked, .elapse amount => some (none, { clocked with now := clocked.now + amount })
  | clocked, .step input =>
      if timers.elapsed clocked input then
        (next clocked.state input).map fun (output, following) ↦
          (some (clocked.now, output),
            ⟨clocked.now, timers.reset clocked input following, following⟩)
      else none

variable {timers} {clocked : Clocked State Timer} {input : Input} {following : State}
  {timer : Timer}

/-- A timer that a step sets goes off after the amount. -/
theorem reset_of_sets {amount : Nat} (h : timers.sets input following = some (timer, amount)) :
    timers.reset clocked input following timer = clocked.now + amount := by
  simp [reset, h]

/-- A timer that a step does not set stays as it is. -/
theorem reset_of_not_sets (h : ∀ amount, timers.sets input following ≠ some (timer, amount)) :
    timers.reset clocked input following timer = clocked.due timer := by
  unfold reset
  cases hsets : timers.sets input following with
  | none => rfl
  | some set =>
      obtain ⟨other, amount⟩ := set
      have hne : timer ≠ other := by
        rintro rfl
        exact h amount hsets
      exact Function.update_of_ne hne _ _

end Timers

/-- A step with its stamp. -/
structure Stamped (Input : Type v) (Output : Type w) where
  time : Nat
  entry : Input × Output

/-- The steps of the machine with their stamps, newest first. -/
def stamped (log : Log (Tick Input) (Option (Nat × Output))) : List (Stamped Input Output) :=
  log.filterMap fun
    | (.step input, some (time, output)) => some ⟨time, (input, output)⟩
    | _ => none

/-- The log of the machine. -/
def untimed (log : Log (Tick Input) (Option (Nat × Output))) : Log Input Output :=
  (stamped log).map Stamped.entry

section

variable {timers : Timers State Input Timer} [DecidableEq Timer] {next : Next State Input Output}
  {start clocked following : Clocked State Timer} {log : Log (Tick Input) (Option (Nat × Output))}

/-- Everything a step with a clock can be. -/
theorem Timers.cases_of_next {tick : Tick Input} {output : Option (Nat × Output)}
    (h : timers.next next clocked tick = some (output, following)) :
    (∃ amount, tick = .elapse amount ∧ output = none ∧
      following = { clocked with now := clocked.now + amount }) ∨
    ∃ input made moved, tick = .step input ∧ output = some (clocked.now, made) ∧
      timers.elapsed clocked input = true ∧ next clocked.state input = some (made, moved) ∧
      following = ⟨clocked.now, timers.reset clocked input moved, moved⟩ := by
  cases tick with
  | elapse amount =>
      simp only [Timers.next, Option.some.injEq, Prod.mk.injEq] at h
      exact .inl ⟨amount, rfl, h.1.symm, h.2.symm⟩
  | step input =>
      simp only [Timers.next] at h
      split at h
      case isFalse => simp at h
      case isTrue helapsed =>
        simp only [Option.map_eq_some_iff, Prod.mk.injEq] at h
        obtain ⟨⟨made, moved⟩, hnext, rfl, rfl⟩ := h
        exact .inr ⟨input, made, moved, rfl, rfl, helapsed, hnext, rfl⟩

/-- A run with a clock is a run of the machine. -/
theorem Exec.untimed (h : Exec (timers.next next) start log clocked) :
    Exec next start.state (untimed log) clocked.state := by
  induction h with
  | refl => exact .refl
  | snoc _ hnext ih =>
      rcases Timers.cases_of_next hnext with ⟨amount, rfl, rfl, rfl⟩ |
        ⟨input, made, moved, rfl, rfl, _, hmoved, rfl⟩
      · exact ih
      · exact ih.snoc hmoved

end

/-! ## Distances in time -/

/-- How long marked steps stay away from others, in the states that an invariant describes. -/
structure Pace [DecidableEq Timer] (timers : Timers State Input Timer)
    (next : Next State Input Output) (Inv : State → Prop) where
  marks : Input × Output → Bool
  /-- How long after a step no marked one may come. -/
  distance : Input × Output → Nat
  /-- No marked step can come before this time. -/
  earliest : Clocked State Timer → Nat
  keeps : ∀ {state following : State} {input : Input} {output : Output},
    Inv state → next state input = some (output, following) → Inv following
  waits : ∀ (clocked : Clocked State Timer) (amount : Nat),
    earliest clocked ≤ earliest { clocked with now := clocked.now + amount }
  rises : ∀ {clocked : Clocked State Timer} {following : State} {input : Input} {output : Output},
    Inv clocked.state → timers.elapsed clocked input = true →
    next clocked.state input = some (output, following) →
    earliest clocked ≤
        earliest ⟨clocked.now, timers.reset clocked input following, following⟩ ∧
      clocked.now + distance (input, output) ≤
        earliest ⟨clocked.now, timers.reset clocked input following, following⟩ ∧
      (marks (input, output) = true → earliest clocked ≤ clocked.now)

namespace Pace

variable {timers : Timers State Input Timer} [DecidableEq Timer] {next : Next State Input Output}
  {Inv : State → Prop} {start clocked : Clocked State Timer}
  {log : Log (Tick Input) (Option (Nat × Output))}

/-- A step keeps its distance to a later one, if that is marked. -/
def Keeps (pace : Pace timers next Inv) (later earlier : Stamped Input Output) : Prop :=
  pace.marks later.entry = true → earlier.time + pace.distance earlier.entry ≤ later.time

/-- Every step of a run keeps its distance to every later one. -/
theorem spaced (pace : Pace timers next Inv) (hstart : Inv start.state)
    (h : Exec (timers.next next) start log clocked) :
    (stamped log).Pairwise pace.Keeps ∧
      ∀ step ∈ stamped log, step.time + pace.distance step.entry ≤ pace.earliest clocked := by
  induction h with
  | refl => exact ⟨.nil, fun _ hstep ↦ nomatch hstep⟩
  | @snoc log clocked following tick output hexec hnext ih =>
      obtain ⟨hpairwise, hbound⟩ := ih
      rcases Timers.cases_of_next hnext with ⟨amount, rfl, rfl, rfl⟩ |
        ⟨input, made, moved, rfl, rfl, helapsed, hmoved, rfl⟩
      · exact ⟨hpairwise, fun step hstep ↦
          Nat.le_trans (hbound step hstep) (pace.waits clocked amount)⟩
      · have hinv : Inv clocked.state := hexec.untimed.invariant hstart pace.keeps
        obtain ⟨hrises, hown, hmarked⟩ := pace.rises hinv helapsed hmoved
        have hstamped : stamped ((.step input, some (clocked.now, made)) :: log) =
            ⟨clocked.now, (input, made)⟩ :: stamped log := rfl
        rw [hstamped]
        refine ⟨List.pairwise_cons.mpr ⟨fun step hstep hmarks ↦ ?_, hpairwise⟩, ?_⟩
        · exact Nat.le_trans (hbound step hstep) (hmarked hmarks)
        · intro step hstep
          rcases List.mem_cons.mp hstep with rfl | hold
          · exact hown
          · exact Nat.le_trans (hbound step hold) hrises

end Pace

/-- Times that keep a distance, newest first, are few in a window. -/
theorem length_mul_le {times : List Nat} {gap first last : Nat}
    (hspaced : times.Pairwise fun later earlier ↦ earlier + gap ≤ later)
    (hwindow : ∀ time ∈ times, first ≤ time ∧ time ≤ last) :
    times.length * gap ≤ last - first + gap := by
  induction times generalizing last with
  | nil => simp
  | cons newest times ih =>
      obtain ⟨hnewest, hrest⟩ := List.pairwise_cons.mp hspaced
      have hlast := (hwindow newest List.mem_cons_self).2
      cases times with
      | nil => simp
      | cons second times =>
          -- what comes before the newest is in a window that is shorter by the distance
          have hsecond := hnewest second List.mem_cons_self
          have hfirst := (hwindow second (by simp)).1
          have hbefore : ∀ time ∈ second :: times, first ≤ time ∧ time ≤ newest - gap := by
            intro time htime
            have hearlier := hnewest time htime
            exact ⟨(hwindow time (List.mem_cons_of_mem _ htime)).1, by omega⟩
          have hshorter := ih hrest hbefore
          rw [List.length_cons, Nat.add_mul]
          omega

/-- Steps that keep a distance among themselves are few in a window. -/
theorem countP_mul_le {steps : List (Stamped Input Output)} {test : Stamped Input Output → Bool}
    {gap first last : Nat}
    (hspaced : steps.Pairwise fun later earlier ↦
      test later = true → test earlier = true → earlier.time + gap ≤ later.time)
    (hwindow : ∀ step, test step = true → first ≤ step.time ∧ step.time ≤ last) :
    steps.countP test * gap ≤ last - first + gap := by
  have htest : ∀ step ∈ steps.filter test, test step = true := fun step hstep ↦
    (List.mem_filter.mp hstep).2
  rw [List.countP_eq_length_filter, ← List.length_map Stamped.time]
  refine length_mul_le ?_ ?_
  · rw [List.pairwise_map]
    exact (hspaced.filter test).imp_of_mem fun hlater hearlier hapart ↦
      hapart (htest _ hlater) (htest _ hearlier)
  · intro time htime
    obtain ⟨step, hstep, rfl⟩ := List.mem_map.mp htime
    exact hwindow step (htest step hstep)

end Unbounded.Execution
