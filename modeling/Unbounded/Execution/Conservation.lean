import Unbounded.Execution.Machine
import Mathlib.Data.Multiset.AddSub
import Mathlib.Algebra.Order.Monoid.Unbundled.Basic
import Mathlib.Algebra.Order.Group.Multiset

/-!
# Goods that are never made or copied

An `Account` of a machine says which goods a state holds and which goods enter and leave with a
step, such that a step may lose goods but neither makes nor copies any. Over a whole execution
the goods that left are then a part of those that entered (`Account.left_le_entered`).
-/

namespace Unbounded.Execution

universe u v w x

variable {State : Type u} {Input : Type v} {Output : Type w} {Good : Type x}
  {next : Next State Input Output}

/-- Goods that a machine holds, takes in and gives out. -/
structure Account (next : Next State Input Output) (Good : Type x) where
  holds : State → Multiset Good
  enters : Input × Output → Multiset Good
  leaves : Input × Output → Multiset Good
  /-- A step only passes goods on. -/
  conserves : ∀ {state following : State} {input : Input} {output : Output},
    next state input = some (output, following) →
    holds following + leaves (input, output) ≤ holds state + enters (input, output)

namespace Account

variable (account : Account next Good)

/-- The goods that entered in an execution. -/
def entered (log : Log Input Output) : Multiset Good :=
  (log.map account.enters).sum

/-- The goods that left in an execution. -/
def left (log : Log Input Output) : Multiset Good :=
  (log.map account.leaves).sum

@[simp] theorem entered_nil : account.entered [] = 0 := rfl

@[simp] theorem left_nil : account.left [] = 0 := rfl

@[simp] theorem entered_cons (entry : Input × Output) (log : Log Input Output) :
    account.entered (entry :: log) = account.enters entry + account.entered log := by
  simp [entered]

@[simp] theorem left_cons (entry : Input × Output) (log : Log Input Output) :
    account.left (entry :: log) = account.leaves entry + account.left log := by
  simp [left]

@[simp] theorem entered_append (later earlier : Log Input Output) :
    account.entered (later ++ earlier) = account.entered later + account.entered earlier := by
  simp [entered]

@[simp] theorem left_append (later earlier : Log Input Output) :
    account.left (later ++ earlier) = account.left later + account.left earlier := by
  simp [left]

variable {start state : State} {log : Log Input Output}

/-- What a state holds and what has left came from the start or has entered. -/
theorem holds_add_left_le (h : Exec next start log state) :
    account.holds state + account.left log ≤ account.holds start + account.entered log := by
  induction h with
  | refl => simp
  | @snoc log state following input output _ hnext ih =>
      rw [left_cons, entered_cons]
      calc account.holds following + (account.leaves (input, output) + account.left log)
          = account.holds following + account.leaves (input, output) + account.left log := by
            rw [add_assoc]
        _ ≤ account.holds state + account.enters (input, output) + account.left log := by
            exact add_le_add (account.conserves hnext) le_rfl
        _ = account.enters (input, output) + (account.holds state + account.left log) := by
            ac_rfl
        _ ≤ account.enters (input, output) + (account.holds start + account.entered log) := by
            gcongr
        _ = account.holds start + (account.enters (input, output) + account.entered log) := by
            ac_rfl

/-- What has left a machine that started empty has entered it. -/
theorem left_le_entered (h : Exec next start log state) (hstart : account.holds start = 0) :
    account.left log ≤ account.entered log := by
  have hrun := account.holds_add_left_le h
  rw [hstart, zero_add] at hrun
  exact (Multiset.le_add_left _ _).trans hrun

end Account

end Unbounded.Execution
