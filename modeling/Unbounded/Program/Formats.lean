import Unbounded.Net.BigEndian
import Unbounded.Program.Lines

/-!
# Durations and addresses in the lines

How `core::time` and `core::net` write a `Duration` and an `Option<SocketAddr>` with `{:?}`, which
is what the program prints them with. A duration has the largest of four units that it reaches, and
the decimals after it up to the last one that is not zero. An IPv6 address leaves out its first
longest stretch of zero segments, unless it stands for an IPv4 address.

`Formats.std_printable` says that none of these texts has control characters.
-/

namespace Unbounded.Program

open Text (digitChar_printable hasControl hasControl_append_eq_false hasControl_digits
  hasControl_intercalate hasControl_repr isControl)

/-! ## Durations -/

/-- The decimals of a fraction with so many places, up to the last one that is not zero. This is the
loop of `fmt_decimal`, whose divisor is `10 ^ places` after each round. -/
def decimals : Nat → Nat → List Char
  | 0, _ => []
  | places + 1, fraction =>
      if fraction = 0 then []
      else (fraction / 10 ^ places).digitChar :: decimals places (fraction % 10 ^ places)

/-- `fmt_decimal` without a precision. -/
def fmtDecimal (integerPart fractionalPart places : Nat) (unit : String) : String :=
  match decimals places fractionalPart with
  | [] => integerPart.repr ++ unit
  | digits => integerPart.repr ++ "." ++ String.ofList digits ++ unit

/-- `Debug` of a `Duration`. -/
def debugDuration (duration : Duration) : String :=
  if 10 ^ 9 ≤ duration.nanos then
    fmtDecimal (duration.nanos / 10 ^ 9) (duration.nanos % 10 ^ 9) 9 "s"
  else if 10 ^ 6 ≤ duration.nanos then
    fmtDecimal (duration.nanos / 10 ^ 6) (duration.nanos % 10 ^ 6) 6 "ms"
  else if 10 ^ 3 ≤ duration.nanos then
    fmtDecimal (duration.nanos / 10 ^ 3) (duration.nanos % 10 ^ 3) 3 "µs"
  else fmtDecimal duration.nanos 0 0 "ns"

/-- Decimals are digits, for a fraction below one. -/
theorem decimals_printable {places fraction : Nat} (h : fraction < 10 ^ places) :
    (decimals places fraction).any isControl = false := by
  induction places generalizing fraction with
  | zero => rfl
  | succ places ih =>
      rw [decimals]
      split
      case isTrue => rfl
      case isFalse =>
        have hdigit : fraction / 10 ^ places < 10 :=
          Nat.div_lt_of_lt_mul (by rwa [← Nat.pow_succ])
        have hrest : fraction % 10 ^ places < 10 ^ places :=
          Nat.mod_lt _ (Nat.pow_pos (by decide))
        rw [List.any_cons, digitChar_printable (by omega), ih hrest]
        rfl

/-- A decimal number with a unit has no control characters. -/
theorem hasControl_fmtDecimal {integerPart fractionalPart places : Nat} {unit : String}
    (h : fractionalPart < 10 ^ places) (hunit : hasControl unit = false) :
    hasControl (fmtDecimal integerPart fractionalPart places unit) = false := by
  have hdecimals : hasControl (String.ofList (decimals places fractionalPart)) = false := by
    rw [hasControl, String.toList_ofList]
    exact decimals_printable h
  have hjoin := fun {text other : String} ↦ @hasControl_append_eq_false text other
  unfold fmtDecimal
  split
  case h_1 => exact hjoin (hasControl_repr _) hunit
  case h_2 => exact hjoin (hjoin (hjoin (hasControl_repr _) (by decide)) hdecimals) hunit

/-- A written duration has no control characters. -/
theorem hasControl_debugDuration (duration : Duration) :
    hasControl (debugDuration duration) = false := by
  unfold debugDuration
  split
  case isTrue => exact hasControl_fmtDecimal (Nat.mod_lt _ (by decide)) (by decide)
  case isFalse =>
    split
    case isTrue => exact hasControl_fmtDecimal (Nat.mod_lt _ (by decide)) (by decide)
    case isFalse =>
      split
      case isTrue => exact hasControl_fmtDecimal (Nat.mod_lt _ (by decide)) (by decide)
      case isFalse => exact hasControl_fmtDecimal (by decide) (by decide)

/-! ## Addresses -/

/-- `Display` of an `Ipv4Addr`. -/
def displayIpv4 (bits : UInt32) : String :=
  String.intercalate "." ((Net.toBigEndian 4 bits.toNat).map fun octet ↦ octet.toNat.repr)

/-- `Ipv6Addr::segments`. -/
def segments (bits : BitVec 128) : List Nat :=
  (List.range 8).map fun index ↦ bits.toNat / 2 ^ (112 - 16 * index) % 2 ^ 16

/-- A stretch of segments. -/
structure Span where
  start : Nat
  len : Nat

/-- The longest and the current stretch of zeros after one more segment. -/
def Span.advance : Span × Span → Nat × Nat → Span × Span
  | (longest, current), (segment, index) =>
      if segment = 0 then
        let current : Span := ⟨if current.len = 0 then index else current.start, current.len + 1⟩
        (if longest.len < current.len then current else longest, current)
      else (longest, ⟨0, 0⟩)

/-- The first longest stretch of zeros. -/
def zeroes (segments : List Nat) : Span :=
  (segments.zipIdx.foldl Span.advance (⟨0, 0⟩, ⟨0, 0⟩)).1

/-- `fmt_subslice`: segments in hexadecimal with colons between them. -/
def fmtSubslice (chunk : List Nat) : String :=
  String.intercalate ":" (chunk.map fun segment ↦ String.ofList (Nat.toDigits 16 segment))

/-- `Display` of an `Ipv6Addr`. -/
def displayIpv6 (bits : BitVec 128) : String :=
  if bits.toNat / 2 ^ 32 = 0xffff then
    -- the address stands for an IPv4 address
    "::ffff:" ++ displayIpv4 (UInt32.ofNat bits.toNat)
  else
    let span := zeroes (segments bits)
    if 1 < span.len then
      fmtSubslice ((segments bits).take span.start) ++ "::" ++
        fmtSubslice ((segments bits).drop (span.start + span.len))
    else fmtSubslice (segments bits)

/-- `Debug` of a `SocketAddr`, which is its `Display`. -/
def debugSocketAddr : SocketAddr → String
  | .v4 bits port => displayIpv4 bits ++ ":" ++ port.toNat.repr
  | .v6 bits port _ scopeId =>
      if scopeId = 0 then "[" ++ displayIpv6 bits ++ "]:" ++ port.toNat.repr
      else "[" ++ displayIpv6 bits ++ "%" ++ scopeId.toNat.repr ++ "]:" ++ port.toNat.repr

/-- `Debug` of an `Option<SocketAddr>`. -/
def debugRemote : Option SocketAddr → String
  | none => "None"
  | some remote => "Some(" ++ debugSocketAddr remote ++ ")"

/-- A written IPv4 address has no control characters. -/
theorem hasControl_displayIpv4 (bits : UInt32) : hasControl (displayIpv4 bits) = false := by
  refine hasControl_intercalate (by decide) fun part hpart ↦ ?_
  obtain ⟨octet, _, rfl⟩ := List.mem_map.mp hpart
  exact hasControl_repr _

/-- Written segments have no control characters. -/
theorem hasControl_fmtSubslice (chunk : List Nat) : hasControl (fmtSubslice chunk) = false := by
  refine hasControl_intercalate (by decide) fun part hpart ↦ ?_
  obtain ⟨segment, _, rfl⟩ := List.mem_map.mp hpart
  exact hasControl_digits (by decide) (by decide) segment

/-- A written IPv6 address has no control characters. -/
theorem hasControl_displayIpv6 (bits : BitVec 128) : hasControl (displayIpv6 bits) = false := by
  have hjoin := fun {text other : String} ↦ @hasControl_append_eq_false text other
  unfold displayIpv6
  split
  case isTrue => exact hjoin (by decide) (hasControl_displayIpv4 _)
  case isFalse =>
    dsimp only
    split
    case isTrue =>
      exact hjoin (hjoin (hasControl_fmtSubslice _) (by decide)) (hasControl_fmtSubslice _)
    case isFalse => exact hasControl_fmtSubslice _

/-- A written socket address has no control characters. -/
theorem hasControl_debugSocketAddr (remote : SocketAddr) :
    hasControl (debugSocketAddr remote) = false := by
  have hjoin := fun {text other : String} ↦ @hasControl_append_eq_false text other
  cases remote with
  | v4 bits port =>
      exact hjoin (hjoin (hasControl_displayIpv4 bits) (by decide)) (hasControl_repr _)
  | v6 bits port flowinfo scopeId =>
      have hopen := hjoin (by decide : hasControl "[" = false) (hasControl_displayIpv6 bits)
      rw [debugSocketAddr]
      split
      case isTrue => exact hjoin (hjoin hopen (by decide)) (hasControl_repr _)
      case isFalse =>
        exact hjoin (hjoin (hjoin (hjoin hopen (by decide)) (hasControl_repr _)) (by decide))
          (hasControl_repr _)

/-! ## The formats of the program -/

/-- The formats of the standard library. -/
def Formats.std : Formats where
  duration := debugDuration
  remote := debugRemote

/-- The standard library writes durations and addresses without control characters. -/
theorem Formats.std_printable : Formats.std.Printable where
  duration := hasControl_debugDuration
  remote := by
    intro remote
    cases remote with
    | none => decide
    | some remote =>
        exact hasControl_append_eq_false
          (hasControl_append_eq_false (by decide) (hasControl_debugSocketAddr remote)) (by decide)

example : Formats.std.duration ⟨1250 * 10 ^ 6, by decide⟩ = "1.25s" ∧
    Formats.std.duration ⟨1050, by decide⟩ = "1.05µs" ∧
    Formats.std.duration .zero = "0ns" := by
  decide +kernel

example : Formats.std.remote (some (.v4 0x7f000001 443)) = "Some(127.0.0.1:443)" ∧
    Formats.std.remote (some (.v6 (0x20010db8#128 <<< 96 ||| 1) 443 0 2)) =
      "Some([2001:db8::1%2]:443)" ∧
    Formats.std.remote (some (.v6 (0xffff7f000001#128) 443 0 0)) =
      "Some([::ffff:127.0.0.1]:443)" := by
  decide +kernel

end Unbounded.Program
