import Unbounded.Execution.Machine
import Mathlib.Algebra.Ring.Nat

/-!
# Progress

A machine takes steps of its own, and an environment takes others in between. A `Rank` counts what
the machine has still to do: a step of its own uses up one unit at least, and a step adds to the
rank no more than its credit. An execution has then at most as many steps of the machine as the rank
at its start and the credits of its steps allow (`Rank.count_add_rank_le`).

That says nothing about a machine that is stuck. `Rank.finishes` adds that case: a machine that can
always go on before it is done, without a credit, is finished by steps of its own.
-/

namespace Unbounded.Execution

universe u v w

variable {State : Type u} {Input : Type v} {Output : Type w}

/-- What a machine has still to do in the states that an invariant describes. -/
structure Rank (next : Next State Input Output) (Inv : State → Prop) where
  /-- The steps of the machine itself. -/
  own : Input → Bool
  rank : State → Nat
  /-- What a step may add to the rank. -/
  credit : Input × Output → Nat
  keeps : ∀ {state following : State} {input : Input} {output : Output},
    Inv state → next state input = some (output, following) → Inv following
  spends : ∀ {state following : State} {input : Input} {output : Output},
    Inv state → next state input = some (output, following) →
    rank following + (own input).toNat ≤ rank state + credit (input, output)

namespace Rank

variable {next : Next State Input Output} {Inv : State → Prop} (progress : Rank next Inv)
  {start state : State} {log : Log Input Output}

/-- The machine's own steps in an execution. -/
def count (log : Log Input Output) : Nat :=
  log.countP fun entry ↦ progress.own entry.1

/-- The credits of an execution. -/
def credits (log : Log Input Output) : Nat :=
  (log.map progress.credit).sum

/-- The machine's own steps with one more step. -/
@[simp] theorem count_cons (input : Input) (output : Output) (log : Log Input Output) :
    progress.count ((input, output) :: log) =
      progress.count log + (progress.own input).toNat := by
  rw [count, List.countP_cons, count]
  cases progress.own input <;> rfl

/-- The credits with one more step. -/
@[simp] theorem credits_cons (entry : Input × Output) (log : Log Input Output) :
    progress.credits (entry :: log) = progress.credit entry + progress.credits log := by
  simp [credits]

/-- The invariant holds along an execution. -/
theorem inv (progress : Rank next Inv) (h : Exec next start log state) (hstart : Inv start) :
    Inv state :=
  h.invariant hstart progress.keeps

/-- What the machine has done and what it has still to do came from the start or from credits. -/
theorem count_add_rank_le (h : Exec next start log state) (hstart : Inv start) :
    progress.count log + progress.rank state ≤ progress.rank start + progress.credits log := by
  induction h with
  | refl => simp [count, credits]
  | @snoc log state following input output hexec hnext ih =>
      have hspends := progress.spends (progress.inv hexec hstart) hnext
      rw [count_cons, credits_cons]
      omega

variable {Done : State → Prop}

/-- A machine that is not stuck before it is done gets done by its own steps, of which it takes no
more than its rank. -/
theorem finishes
    (henabled : ∀ state, Inv state → ¬ Done state → ∃ input output following,
      next state input = some (output, following) ∧ progress.own input = true ∧
        progress.credit (input, output) = 0)
    (hstart : Inv start) :
    ∃ log state, Exec next start log state ∧ Done state ∧
      (∀ entry ∈ log, progress.own entry.1 = true) ∧ log.length ≤ progress.rank start := by
  -- by induction on the rank, which the first step uses up
  induction hrank : progress.rank start using Nat.strong_induction_on generalizing start with
  | _ rank ih =>
      by_cases hdone : Done start
      · exact ⟨[], start, .refl, hdone, by simp, Nat.zero_le _⟩
      · obtain ⟨input, output, following, hnext, hown, hcredit⟩ := henabled start hstart hdone
        have hspends := progress.spends hstart hnext
        rw [hown, hcredit, hrank, Bool.toNat_true] at hspends
        have hlt : progress.rank following < rank := by omega
        have hkept : Inv following := progress.keeps hstart hnext
        obtain ⟨log, state, hexec, hstate, hall, hlength⟩ :=
          ih (progress.rank following) hlt hkept rfl
        refine ⟨log ++ [(input, output)], state, Exec.trans (.snoc .refl hnext) hexec, hstate, ?_,
          ?_⟩
        · intro entry hentry
          rcases List.mem_append.mp hentry with hlater | hfirst
          · exact hall entry hlater
          · rw [List.mem_singleton.mp hfirst]
            exact hown
        · rw [List.length_append, List.length_singleton]
          omega

end Rank

end Unbounded.Execution
