import Mathlib.Data.List.Basic
import Mathlib.Data.Option.Basic

/-!
# Machines, logs and executions

A machine is a partial transition function with an output. An input that is not enabled in a
state has no transition, and all nondeterminism of a scheduler or of an environment is carried by
the inputs, so that the machine itself is a function and can be run.

`Exec next start log state` says that some finite sequence of inputs drives the machine from
`start` to `state`, and that `log` records every input with the output it produced. A log is kept
newest entry first, so that an induction on an execution and a recursion on its log take the same
steps. `Exec.invariant` and `Exec.log_invariant` are the two induction rules, `exec_of_run` turns
an evaluated run into an execution, `Exec.project` carries executions of one machine over to a
machine that performs only some of its steps, `restrict` keeps only the steps that an assumption
on the environment allows, and `observe` adds to every output a view of the transition.
-/

namespace Unbounded.Execution

universe u v w

variable {State : Type u} {Input : Type v} {Output : Type w}

/-- A transition function: `none` means that the input is not enabled in the state. -/
abbrev Next (State : Type u) (Input : Type v) (Output : Type w) :=
  State → Input → Option (Output × State)

/-- The inputs of an execution with the outputs they produced, newest first. -/
abbrev Log (Input : Type v) (Output : Type w) := List (Input × Output)

/-- `Exec next start log state` says the machine can go from `start` to `state` while producing
exactly `log`. -/
inductive Exec (next : Next State Input Output) (start : State) :
    Log Input Output → State → Prop where
  | refl : Exec next start [] start
  | snoc {log : Log Input Output} {state following : State} {input : Input} {output : Output} :
      Exec next start log state → next state input = some (output, following) →
      Exec next start ((input, output) :: log) following

/-- Feed the inputs, oldest first, to the machine, and collect the log. -/
def run (next : Next State Input Output) :
    List Input → Log Input Output × State → Option (Log Input Output × State)
  | [], reached => some reached
  | input :: inputs, (log, state) =>
      (next state input).bind fun (output, following) ↦
        run next inputs ((input, output) :: log, following)

variable {next : Next State Input Output} {start : State}

/-- An evaluated run extends an execution. -/
theorem exec_of_run_from {inputs : List Input} {log finalLog : Log Input Output}
    {state finalState : State} (h : Exec next start log state)
    (hrun : run next inputs (log, state) = some (finalLog, finalState)) :
    Exec next start finalLog finalState := by
  induction inputs generalizing log state with
  | nil =>
      simp only [run, Option.some.injEq, Prod.mk.injEq] at hrun
      obtain ⟨rfl, rfl⟩ := hrun
      exact h
  | cons input inputs ih =>
      simp only [run, Option.bind_eq_some_iff] at hrun
      obtain ⟨⟨output, following⟩, hnext, hrest⟩ := hrun
      exact ih (h.snoc hnext) hrest

/-- An evaluated run from the start is an execution. -/
theorem exec_of_run {inputs : List Input} {log : Log Input Output} {state : State}
    (hrun : run next inputs ([], start) = some (log, state)) : Exec next start log state :=
  exec_of_run_from .refl hrun

/-- A run logs the inputs it was fed. -/
theorem inputs_of_run {inputs : List Input} {log finalLog : Log Input Output}
    {state finalState : State}
    (hrun : run next inputs (log, state) = some (finalLog, finalState)) :
    finalLog.map Prod.fst = inputs.reverse ++ log.map Prod.fst := by
  induction inputs generalizing log state with
  | nil =>
      simp only [run, Option.some.injEq, Prod.mk.injEq] at hrun
      rw [hrun.1]
      rfl
  | cons input inputs ih =>
      simp only [run, Option.bind_eq_some_iff] at hrun
      obtain ⟨⟨output, following⟩, _, hrest⟩ := hrun
      rw [ih hrest, List.reverse_cons, List.append_assoc]
      rfl

/-- Executions compose; the later entries of a log come first. -/
theorem Exec.trans {middle finish : State} {log rest : Log Input Output}
    (h : Exec next start log middle) (hrest : Exec next middle rest finish) :
    Exec next start (rest ++ log) finish := by
  induction hrest with
  | refl => exact h
  | snoc _ hnext ih => exact ih.snoc hnext

/-- An execution passes through a state at every point of its log. -/
theorem Exec.split {later earlier : Log Input Output} {state : State}
    (h : Exec next start (later ++ earlier) state) :
    ∃ middle, Exec next start earlier middle ∧ Exec next middle later state := by
  induction later generalizing state with
  | nil => exact ⟨state, h, .refl⟩
  | cons entry later ih =>
      cases h with
      | snoc hbefore hnext =>
          obtain ⟨middle, hearlier, hlater⟩ := ih hbefore
          exact ⟨middle, hearlier, hlater.snoc hnext⟩

/-- A predicate of states that holds at the start and is kept by every transition holds in every
state reached. -/
theorem Exec.invariant {Inv : State → Prop} {log : Log Input Output} {state : State}
    (h : Exec next start log state) (hstart : Inv start)
    (hstep : ∀ {state input output following}, Inv state →
      next state input = some (output, following) → Inv following) : Inv state := by
  induction h with
  | refl => exact hstart
  | snoc _ hnext ih => exact hstep ih hnext

/-- A relation between the log and the state that holds at the start and is kept by every
transition holds of every execution. -/
theorem Exec.log_invariant {Inv : Log Input Output → State → Prop} {log : Log Input Output}
    {state : State} (h : Exec next start log state) (hstart : Inv [] start)
    (hstep : ∀ {log state input output following}, Exec next start log state → Inv log state →
      next state input = some (output, following) → Inv ((input, output) :: log) following) :
    Inv log state := by
  induction h with
  | refl => exact hstart
  | snoc hexec hnext ih => exact hstep hexec ih hnext

/-- The machine is deterministic: the inputs of an execution fix its log and its last state. -/
theorem Exec.unique {log other : Log Input Output} {state otherState : State}
    (h : Exec next start log state) (hother : Exec next start other otherState)
    (hinputs : log.map Prod.fst = other.map Prod.fst) : log = other ∧ state = otherState := by
  induction h generalizing other otherState with
  | refl =>
      cases hother with
      | refl => exact ⟨rfl, rfl⟩
      | snoc _ _ => simp at hinputs
  | snoc _ hnext ih =>
      cases hother with
      | refl => simp at hinputs
      | snoc hprevious hotherNext =>
          simp only [List.map_cons, List.cons.injEq] at hinputs
          obtain ⟨rfl, hrest⟩ := hinputs
          obtain ⟨rfl, rfl⟩ := ih hprevious hrest
          rw [hnext, Option.some.injEq, Prod.mk.injEq] at hotherNext
          obtain ⟨rfl, rfl⟩ := hotherNext
          exact ⟨rfl, rfl⟩

/-- Executions are closed under keeping some of their entries, when a relation to the smaller
execution's state survives both the kept and the discarded transitions. -/
theorem Exec.project {keep : Input × Output → Bool} {Rel : State → State → Prop}
    {log : Log Input Output} {state : State} (h : Exec next start log state)
    (hstart : Rel start start)
    (hkept : ∀ {state small input output following}, Rel state small →
      next state input = some (output, following) → keep (input, output) = true →
      ∃ smaller, next small input = some (output, smaller) ∧ Rel following smaller)
    (hdiscarded : ∀ {state small input output following}, Rel state small →
      next state input = some (output, following) → keep (input, output) = false →
      Rel following small) :
    ∃ small, Exec next start (log.filter keep) small ∧ Rel state small := by
  induction h with
  | refl => exact ⟨start, .refl, hstart⟩
  | @snoc log state following input output _ hnext ih =>
      obtain ⟨small, hsmall, hrel⟩ := ih
      cases hkeep : keep (input, output) with
      | true =>
          obtain ⟨smaller, hstep, hfollowing⟩ := hkept hrel hnext hkeep
          rw [List.filter_cons_of_pos hkeep]
          exact ⟨smaller, hsmall.snoc hstep, hfollowing⟩
      | false =>
          rw [List.filter_cons_of_neg (by simp [hkeep])]
          exact ⟨small, hsmall, hdiscarded hrel hnext hkeep⟩

/-- The machine takes only the steps that an assumption allows. -/
def restrict (allowed : State → Input → Bool) (next : Next State Input Output) :
    Next State Input Output :=
  fun state input ↦ if allowed state input then next state input else none

/-- A step under an assumption is a step that the assumption allows. -/
theorem next_of_restrict {allowed : State → Input → Bool} {state following : State}
    {input : Input} {output : Output}
    (h : restrict allowed next state input = some (output, following)) :
    allowed state input = true ∧ next state input = some (output, following) := by
  unfold restrict at h
  split at h
  case isTrue hallowed => exact ⟨hallowed, h⟩
  case isFalse => simp at h

/-- An execution under an assumption is an execution. -/
theorem Exec.of_restrict {allowed : State → Input → Bool} {log : Log Input Output}
    {state : State} (h : Exec (restrict allowed next) start log state) :
    Exec next start log state := by
  induction h with
  | refl => exact .refl
  | snoc _ hnext ih => exact ih.snoc (next_of_restrict hnext).2

variable {View : Type*} {view : State → Input → State → View}

/-- The machine with a view of each transition added to the output. -/
def observe (view : State → Input → State → View) (next : Next State Input Output) :
    Next State Input (Output × View) :=
  fun state input ↦ (next state input).map fun (output, following) ↦
    ((output, view state input following), following)

/-- An observed step is a step together with its view. -/
theorem next_of_observe {state following : State} {input : Input} {output : Output} {seen : View}
    (h : observe view next state input = some ((output, seen), following)) :
    next state input = some (output, following) ∧ seen = view state input following := by
  simp only [observe, Option.map_eq_some_iff, Prod.mk.injEq] at h
  obtain ⟨⟨output, following⟩, hnext, ⟨rfl, rfl⟩, rfl⟩ := h
  exact ⟨hnext, rfl⟩

/-- An observed execution is an execution. -/
theorem Exec.of_observe {log : Log Input (Output × View)} {state : State}
    (h : Exec (observe view next) start log state) :
    Exec next start (log.map fun entry ↦ (entry.1, entry.2.1)) state := by
  induction h with
  | refl => exact .refl
  | snoc _ hnext ih => exact ih.snoc (next_of_observe hnext).1

end Unbounded.Execution
