import Mathlib.Algebra.Group.Nat.Defs
import Mathlib.Order.Lattice
import Mathlib.Order.Basic

/-!
# Durations

`std::time::Duration` as a number of nanoseconds. The largest duration has `u64::MAX` seconds and
999 999 999 nanoseconds, and the bound is part of the type.
-/

namespace Unbounded

/-- `std::time::Duration`. -/
@[ext] structure Duration where
  nanos : Nat
  valid : nanos < 2 ^ 64 * 10 ^ 9
  deriving DecidableEq, Repr

namespace Duration

/-- `Duration::ZERO`. -/
def zero : Duration where
  nanos := 0
  valid := by decide

/-- `Duration::from_millis(1)`. -/
def oneMilli : Duration where
  nanos := 10 ^ 6
  valid := by decide

/-- `Duration::from_nanos`, for a `u64`. -/
def fromNanos (nanos : Nat) (h : nanos < 2 ^ 64) : Duration where
  nanos := nanos
  valid := by omega

/-- `Duration::from_secs`. -/
def fromSecs (secs : UInt64) : Duration where
  nanos := secs.toNat * 10 ^ 9
  valid := Nat.mul_lt_mul_of_pos_right secs.toNat_lt (by decide)

/-- `Duration::saturating_mul`, which stops at `Duration::MAX`. -/
def saturatingMul (duration : Duration) (factor : Nat) : Duration where
  nanos := min (duration.nanos * factor) (2 ^ 64 * 10 ^ 9 - 1)
  valid := by omega

instance : LE Duration := ⟨fun first second ↦ first.nanos ≤ second.nanos⟩

instance : DecidableLE Duration := fun first second ↦ Nat.decLe first.nanos second.nanos

/-- `Ord::min`. -/
def min (first second : Duration) : Duration :=
  if first ≤ second then first else second

/-- `Ord::max`. -/
def max (first second : Duration) : Duration :=
  if first ≤ second then second else first

@[simp] theorem min_nanos (first second : Duration) :
    (first.min second).nanos = Nat.min first.nanos second.nanos := by
  unfold Duration.min
  split
  case isTrue hle => exact (Nat.min_eq_left hle).symm
  case isFalse hnot => exact (Nat.min_eq_right (Nat.le_of_not_le hnot)).symm

@[simp] theorem max_nanos (first second : Duration) :
    (first.max second).nanos = Nat.max first.nanos second.nanos := by
  unfold Duration.max
  split
  case isTrue hle => exact (Nat.max_eq_right hle).symm
  case isFalse hnot => exact (Nat.max_eq_left (Nat.le_of_not_le hnot)).symm

end Duration

end Unbounded
