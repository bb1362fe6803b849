import Mathlib.Algebra.Group.Nat.Defs
import Mathlib.Data.List.Basic

/-!
# Numbers in network byte order

A number of a fixed width as bytes, most significant byte first, and the number that bytes stand
for.
-/

namespace Unbounded.Net

/-- The lowest bytes of a number, most significant first. -/
def toBigEndian : Nat → Nat → List UInt8
  | 0, _ => []
  | width + 1, value => toBigEndian width (value / 256) ++ [UInt8.ofNat value]

/-- The number that bytes stand for. -/
def ofBigEndian (bytes : List UInt8) : Nat :=
  bytes.foldl (fun value byte ↦ value * 256 + byte.toNat) 0

@[simp] theorem length_toBigEndian (width value : Nat) :
    (toBigEndian width value).length = width := by
  induction width generalizing value with
  | zero => rfl
  | succ width ih => rw [toBigEndian, List.length_append, ih, List.length_singleton]

/-- A number is read back from its bytes when it fits in them. -/
theorem ofBigEndian_toBigEndian {width value : Nat} (h : value < 256 ^ width) :
    ofBigEndian (toBigEndian width value) = value := by
  induction width generalizing value with
  | zero =>
      have hzero : value = 0 := by simpa using h
      rw [hzero]
      rfl
  | succ width ih =>
      have hquotient : value / 256 < 256 ^ width := by
        rw [Nat.pow_succ] at h
        omega
      rw [toBigEndian, ofBigEndian, List.foldl_append]
      show ofBigEndian (toBigEndian width (value / 256)) * 256 + (UInt8.ofNat value).toNat = value
      rw [ih hquotient, UInt8.toNat_ofNat']
      omega

end Unbounded.Net
