import Unbounded.ConsumerPath.Path
import Mathlib.Logic.Function.Basic

/-!
# The allocator of synthetic path addresses

`SyntheticPathAllocator` hands out the hosts of 100.64.0.0/10 from the third on. The counter is an
`AtomicU32` that `allocate` advances in one atomic `fetch_update`, so concurrent calls take effect
one after the other. The counter only ever takes the values from `FIRST_PATH_HOST` to `CGNAT_HOSTS`,
which the structure carries with it.
-/

namespace Unbounded.ConsumerPath

/-- `u32::from_be_bytes`. -/
def fromBeBytes (first second third fourth : UInt8) : UInt32 :=
  first.toUInt32 <<< 24 ||| second.toUInt32 <<< 16 ||| third.toUInt32 <<< 8 ||| fourth.toUInt32

/-- `CGNAT_BASE`. -/
def cgnatBase : UInt32 := fromBeBytes 100 64 0 0

/-- `CGNAT_HOSTS`. -/
def cgnatHosts : UInt32 := (1 : UInt32) <<< 22

/-- `FIRST_PATH_HOST`. -/
def firstPathHost : UInt32 := 2

/-- `SYNTHETIC_PATH_PORT`. -/
def syntheticPathPort : UInt16 := 443

theorem cgnatBase_toNat : cgnatBase.toNat = 100 * 2 ^ 24 + 64 * 2 ^ 16 := by decide

theorem cgnatHosts_toNat : cgnatHosts.toNat = 2 ^ 22 := by decide

theorem firstPathHost_toNat : firstPathHost.toNat = 2 := by decide

/-- `SyntheticPathAllocator`. -/
structure SyntheticPathAllocator where
  nextHost : UInt32
  first_le : firstPathHost.toNat ≤ nextHost.toNat
  le_hosts : nextHost.toNat ≤ cgnatHosts.toNat

/-- The counter can be advanced without overflow while a host is left. -/
theorem toNat_succ_of_lt_hosts {host : UInt32} (h : host < cgnatHosts) :
    (host + 1).toNat = host.toNat + 1 := by
  have hlt := UInt32.lt_iff_toNat_lt.mp h
  rw [cgnatHosts_toNat] at hlt
  rw [UInt32.toNat_add, UInt32.toNat_one]
  omega

/-- The address of a host. -/
def pathAddress (host : UInt32) : SocketAddr :=
  .v4 (cgnatBase + host) syntheticPathPort

namespace SyntheticPathAllocator

/-- `SyntheticPathAllocator::new`. -/
def new : SyntheticPathAllocator :=
  ⟨firstPathHost, by decide, by decide⟩

/-- `SyntheticPathAllocator::allocate`. -/
def allocate (allocator : SyntheticPathAllocator) :
    Except PathError SocketAddr × SyntheticPathAllocator :=
  if h : allocator.nextHost < cgnatHosts then
    (.ok (pathAddress allocator.nextHost),
      { nextHost := allocator.nextHost + 1
        first_le := by
          rw [toNat_succ_of_lt_hosts h]
          exact Nat.le_succ_of_le allocator.first_le
        le_hosts := by
          rw [toNat_succ_of_lt_hosts h]
          exact UInt32.lt_iff_toNat_lt.mp h })
  else (.error .addressSpaceExhausted, allocator)

/-- The results of consecutive calls of `allocate`. -/
def allocateMany (allocator : SyntheticPathAllocator) :
    Nat → List (Except PathError SocketAddr)
  | 0 => []
  | calls + 1 => allocator.allocate.1 :: allocator.allocate.2.allocateMany calls

end SyntheticPathAllocator

/-- An `allocate` takes the next host, or the hosts have run out and nothing changes. -/
theorem allocate_cases (allocator : SyntheticPathAllocator) :
    (allocator.nextHost.toNat < 2 ^ 22 ∧
      allocator.allocate.1 = .ok (pathAddress allocator.nextHost) ∧
      allocator.allocate.2.nextHost.toNat = allocator.nextHost.toNat + 1) ∨
    (allocator.nextHost.toNat = 2 ^ 22 ∧
      allocator.allocate = (.error .addressSpaceExhausted, allocator)) := by
  have hle := allocator.le_hosts
  unfold SyntheticPathAllocator.allocate
  split
  case isTrue h =>
    have hlt := UInt32.lt_iff_toNat_lt.mp h
    rw [cgnatHosts_toNat] at hlt
    exact .inl ⟨hlt, rfl, toNat_succ_of_lt_hosts h⟩
  case isFalse h =>
    rw [UInt32.lt_iff_toNat_lt, cgnatHosts_toNat] at h
    rw [cgnatHosts_toNat] at hle
    exact .inr ⟨by omega, rfl⟩

/-- Neither the address of a host nor the next value of the counter overflows. -/
theorem allocator_no_overflow (allocator : SyntheticPathAllocator) :
    cgnatBase.toNat + allocator.nextHost.toNat < 2 ^ 32 ∧
      allocator.nextHost.toNat + 1 < 2 ^ 32 := by
  have hle := allocator.le_hosts
  rw [cgnatHosts_toNat] at hle
  rw [cgnatBase_toNat]
  omega

/-- Hosts below the end of the range have addresses in the range. -/
theorem cgnatBase_add_toNat {host : UInt32} (h : host.toNat < 2 ^ 22) :
    (cgnatBase + host).toNat = cgnatBase.toNat + host.toNat := by
  rw [UInt32.toNat_add, cgnatBase_toNat]
  omega

/-- Different hosts have different addresses. -/
theorem pathAddress_injective : Function.Injective pathAddress := by
  intro first second h
  simp only [pathAddress, SocketAddr.v4.injEq, and_true] at h
  exact UInt32.add_right_inj cgnatBase |>.mp h

/-- Of consecutive calls of `allocate`, the first succeed until the hosts run out, and the others
fail. -/
theorem countP_allocateMany (calls : Nat) (allocator : SyntheticPathAllocator) :
    (allocator.allocateMany calls).countP (·.isOk) =
      min calls (2 ^ 22 - allocator.nextHost.toNat) := by
  induction calls generalizing allocator with
  | zero => simp [SyntheticPathAllocator.allocateMany]
  | succ calls ih =>
      simp only [SyntheticPathAllocator.allocateMany, List.countP_cons, ih]
      obtain ⟨hlt, hok, hnext⟩ | ⟨hfull, hfail⟩ := allocate_cases allocator
      · rw [hok, hnext]
        simp only [Except.isOk, Except.toBool, if_true]
        omega
      · rw [hfail, hfull]
        simp [Except.isOk, Except.toBool]

end Unbounded.ConsumerPath
