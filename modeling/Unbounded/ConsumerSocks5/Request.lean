import Unbounded.ConsumerSocks5.Handshake

/-!
# The CONNECT request

What the request of `socks5_connect` says. `parseConnect` reads a CONNECT request as SOCKS5 lays
it out, independently of how the client writes it. A request that the client writes is read back,
for any bytes that follow it, to the kind of address, the address or name, and the port of its
target.
-/

namespace Unbounded.ConsumerSocks5

open Net (ofBigEndian toBigEndian length_toBigEndian ofBigEndian_toBigEndian)
open Text (utf8 utf8_injective)
open Tokio (Duplex Ending)

/-- The destination of a CONNECT request, of one of the three address types. -/
inductive Destination where
  | v4 (bits : UInt32)
  | v6 (bits : BitVec 128)
  | domain (name : Bytes)
  deriving DecidableEq

/-- Split off a field of some length. -/
def field (count : Nat) (bytes : Bytes) : Option (Bytes × Bytes) :=
  if count ≤ bytes.length then some (bytes.take count, bytes.drop count) else none

/-- Read the address of a request. -/
def parseAddress (addressType : UInt8) (bytes : Bytes) : Option (Destination × Bytes) :=
  if addressType = 0x01 then do
    let (octets, rest) ← field 4 bytes
    some (.v4 (UInt32.ofNat (ofBigEndian octets)), rest)
  else if addressType = 0x03 then do
    let (length, rest) ← field 1 bytes
    let (name, rest) ← field (ofBigEndian length) rest
    some (.domain name, rest)
  else if addressType = 0x04 then do
    let (octets, rest) ← field 16 bytes
    some (.v6 (BitVec.ofNat 128 (ofBigEndian octets)), rest)
  else none

/-- Read a CONNECT request with its port, and leave the bytes that follow it. -/
def parseConnect : Bytes → Option ((Destination × UInt16) × Bytes)
  | version :: command :: reserved :: addressType :: bytes =>
      if version = 0x05 ∧ command = 0x01 ∧ reserved = 0x00 then do
        let (destination, rest) ← parseAddress addressType bytes
        let (port, rest) ← field 2 rest
        some ((destination, UInt16.ofNat (ofBigEndian port)), rest)
      else none
  | _ => none

/-- The destination and the port of a target. -/
def Socks5Target.destination : Socks5Target → Destination × UInt16
  | .ip (.v4 bits port) => (.v4 bits, port)
  | .ip (.v6 bits port _ _) => (.v6 bits, port)
  | .domain host port => (.domain (utf8 host), port)

/-- A target without the flow information and the scope of an IPv6 address. -/
def Socks5Target.plain : Socks5Target → Socks5Target
  | .ip (.v6 bits port _ _) => .ip (.v6 bits port 0 0)
  | target => target

/-! ## Reading a request back -/

/-- A field is split off from what follows it. -/
theorem field_append {count : Nat} {bytes : Bytes} (h : bytes.length = count) (rest : Bytes) :
    field count (bytes ++ rest) = some (bytes, rest) := by
  subst h
  rw [field, if_pos (by simp), List.take_left, List.drop_left]

/-- A port is read back. -/
theorem field_port (port : UInt16) (rest : Bytes) :
    ∃ bytes, field 2 (toBigEndian 2 port.toNat ++ rest) = some (bytes, rest) ∧
      UInt16.ofNat (ofBigEndian bytes) = port := by
  refine ⟨_, field_append (by simp) rest, ?_⟩
  rw [ofBigEndian_toBigEndian port.toNat_lt, UInt16.ofNat_toNat]

/-- An IPv4 address is read back. -/
theorem parseAddress_v4 (bits : UInt32) (rest : Bytes) :
    parseAddress 0x01 (toBigEndian 4 bits.toNat ++ rest) = some (.v4 bits, rest) := by
  have hfits : bits.toNat < 256 ^ 4 := bits.toNat_lt
  rw [parseAddress, if_pos rfl, field_append (length_toBigEndian _ _)]
  simp only [Option.bind_eq_bind, Option.bind_some, ofBigEndian_toBigEndian hfits,
    UInt32.ofNat_toNat]

/-- An IPv6 address is read back. -/
theorem parseAddress_v6 (bits : BitVec 128) (rest : Bytes) :
    parseAddress 0x04 (toBigEndian 16 bits.toNat ++ rest) = some (.v6 bits, rest) := by
  have hfits : bits.toNat < 256 ^ 16 := bits.isLt
  rw [parseAddress, if_neg (by decide), if_neg (by decide), if_pos rfl,
    field_append (length_toBigEndian _ _)]
  simp only [Option.bind_eq_bind, Option.bind_some, ofBigEndian_toBigEndian hfits,
    BitVec.ofNat_toNat, BitVec.setWidth_eq]

/-- A name that fits behind its length byte is read back. -/
theorem parseAddress_domain {name : Bytes} (h : name.length < 256) (rest : Bytes) :
    parseAddress 0x03 (UInt8.ofNat name.length :: name ++ rest) = some (.domain name, rest) := by
  have hlength : ofBigEndian [UInt8.ofNat name.length] = name.length := by
    have hfits : name.length < 256 ^ 1 := h
    exact ofBigEndian_toBigEndian hfits
  have hbyte : field 1 ([UInt8.ofNat name.length] ++ (name ++ rest)) =
      some ([UInt8.ofNat name.length], name ++ rest) :=
    field_append List.length_singleton _
  rw [parseAddress, if_neg (by decide), if_pos rfl]
  rw [show UInt8.ofNat name.length :: name ++ rest =
    [UInt8.ofNat name.length] ++ (name ++ rest) from rfl, hbyte]
  simp only [Option.bind_eq_bind, Option.bind_some, hlength, field_append rfl rest]

/-- A request whose address is read back is read back. -/
theorem parseConnect_of_address {addressType : UInt8} {address following : Bytes}
    {destination : Destination} {port : UInt16}
    (h : parseAddress addressType (address ++ (toBigEndian 2 port.toNat ++ following)) =
      some (destination, toBigEndian 2 port.toNat ++ following)) :
    parseConnect ([0x05, 0x01, 0x00] ++ [addressType] ++ address ++ toBigEndian 2 port.toNat ++
      following) = some ((destination, port), following) := by
  obtain ⟨bytes, hfield, hport⟩ := field_port port following
  have hbytes : [0x05, 0x01, 0x00] ++ [addressType] ++ address ++ toBigEndian 2 port.toNat ++
      following = 0x05 :: 0x01 :: 0x00 :: addressType ::
        (address ++ (toBigEndian 2 port.toNat ++ following)) := by
    simp only [List.cons_append, List.nil_append, List.append_assoc]
  rw [hbytes, parseConnect, if_pos ⟨rfl, rfl, rfl⟩, h]
  simp only [Option.bind_eq_bind, Option.bind_some, hfield, hport]

/-- The request for a target is read back. -/
theorem parseConnect_request {target : Socks5Target} {bytes : Bytes}
    (h : request target = .ok bytes) (following : Bytes) :
    parseConnect (bytes ++ following) = some (target.destination, following) := by
  match target with
  | .ip (.v4 bits port) =>
      simp only [request, Except.ok.injEq] at h
      subst h
      exact parseConnect_of_address (parseAddress_v4 bits _)
  | .ip (.v6 bits port _ _) =>
      simp only [request, Except.ok.injEq] at h
      subst h
      exact parseConnect_of_address (parseAddress_v6 bits _)
  | .domain host port =>
      simp only [request] at h
      split at h
      case isTrue => simp at h
      split at h
      case isFalse => simp at h
      case isTrue hlength =>
        simp only [Except.ok.injEq] at h
        subst h
        have hbytes : [0x05, 0x01, 0x00] ++ [0x03, UInt8.ofNat (utf8 host).length] ++ utf8 host =
            [0x05, 0x01, 0x00] ++ [0x03] ++ (UInt8.ofNat (utf8 host).length :: utf8 host) := rfl
        rw [hbytes]
        exact parseConnect_of_address (parseAddress_domain hlength _)

/-- The destination of a target says everything but the flow information and the scope. -/
theorem plain_eq_of_destination {target other : Socks5Target}
    (h : target.destination = other.destination) : target.plain = other.plain := by
  match target, other with
  | .ip (.v4 _ _), .ip (.v4 _ _) => simpa [Socks5Target.destination, Socks5Target.plain] using h
  | .ip (.v6 _ _ _ _), .ip (.v6 _ _ _ _) =>
      simpa [Socks5Target.destination, Socks5Target.plain] using h
  | .domain _ _, .domain _ _ =>
      simpa [Socks5Target.destination, Socks5Target.plain, utf8_injective.eq_iff] using h
  | .ip (.v4 _ _), .ip (.v6 _ _ _ _) | .ip (.v6 _ _ _ _), .ip (.v4 _ _)
  | .ip (.v4 _ _), .domain _ _ | .ip (.v6 _ _ _ _), .domain _ _
  | .domain _ _, .ip (.v4 _ _) | .domain _ _, .ip (.v6 _ _ _ _) =>
      simp [Socks5Target.destination] at h

/-- A request that starts another is that other one, and it names the same destination. -/
theorem request_of_isPrefix {target other : Socks5Target} {bytes otherBytes : Bytes}
    (h : request target = .ok bytes) (hother : request other = .ok otherBytes)
    (hstart : bytes <+: otherBytes) : bytes = otherBytes ∧ target.plain = other.plain := by
  obtain ⟨rest, rfl⟩ := hstart
  have hread := parseConnect_request h rest
  have hreadOther := parseConnect_request hother []
  rw [List.append_nil, hread, Option.some.injEq, Prod.mk.injEq] at hreadOther
  obtain ⟨hdestination, rfl⟩ := hreadOther
  exact ⟨(List.append_nil _).symm, plain_eq_of_destination hdestination⟩

/-! ## The requests that are written -/

/-- The greeting of a server is accepted. -/
theorem greetingChecks_eq_none {ending : Ending} {data : Bytes}
    (h : [0x05, 0x00] <+: data) : firstViolation (greetingChecks ending data) = none := by
  obtain ⟨rest, rfl⟩ := h
  rw [firstViolation_eq_none]
  simp [greetingChecks, whole_eq_none, expect_eq_none]

/-- A client whose domain cannot be encoded writes no request. Once the server's greeting has been
accepted, it reports the domain. -/
theorem run_of_not_encodable {host : String} (port : UInt16) (chunks : List Bytes)
    (ending : Ending) (h : utf8 host = [] ∨ 255 < (utf8 host).length) :
    let outcome := (socks5Connect (.domain host port)).run (Duplex.new chunks ending)
    outcome.2.written = [0x05, 0x01, 0x00] ∧
    ([0x05, 0x00] <+: chunks.flatten → outcome.1 = .error (.failed
      (if utf8 host = [] then .emptyDomain else .domainTooLong (utf8 host).length))) := by
  have hrequest : request (.domain host port) = .error
      (if utf8 host = [] then .emptyDomain else .domainTooLong (utf8 host).length) := by
    simp only [request]
    split
    case isTrue => rfl
    case isFalse hne =>
      have hlong : 255 < (utf8 host).length := h.resolve_left hne
      rw [if_neg (by omega)]
  intro outcome
  have hrun : outcome = settle
      ((Duplex.new chunks ending).write (sent (.domain host port) ending chunks.flatten))
      (handshakeLength chunks.flatten)
      (firstViolation (checks (.domain host port) ending chunks.flatten)) :=
    run_socks5Connect _ rfl
  constructor
  · rw [hrun, settle_written, sent_of_error hrequest]
    rfl
  · intro hgreeting
    rw [hrun, checks, firstViolation_append, greetingChecks_eq_none hgreeting, Option.none_or]
    rcases targetCheck_verdict (.domain host port) with ⟨error, herror, hverdict⟩ | ⟨_, hok, _⟩
    · rw [firstViolation_of_some hverdict]
      rw [hrequest, Except.error.injEq] at herror
      rw [herror]
      rfl
    · rw [hrequest] at hok
      cases hok

/-- A client whose target can be encoded has a request for it, which it writes once the server's
greeting has been accepted. -/
theorem run_of_encodable {target : Socks5Target} (h : target.Encodable) :
    ∃ bytes, request target = .ok bytes ∧ ∀ chunks ending, [0x05, 0x00] <+: chunks.flatten →
      ((socks5Connect target).run (Duplex.new chunks ending)).2.written =
        [0x05, 0x01, 0x00] ++ bytes := by
  rcases targetCheck_verdict target with ⟨_, _, hverdict⟩ | ⟨bytes, hrequest, hverdict⟩
  · rw [(targetCheck_eq_none target).mpr h] at hverdict
    cases hverdict
  · refine ⟨bytes, hrequest, fun chunks ending hgreeting ↦ ?_⟩
    have hnone : firstViolation (greetingChecks ending chunks.flatten ++ [targetCheck target]) =
        none := by
      rw [firstViolation_append, greetingChecks_eq_none hgreeting,
        firstViolation_of_none hverdict]
      rfl
    rw [run_socks5Connect target rfl, settle_written]
    show [] ++ sent target ending chunks.flatten = _
    rw [sent, hnone, hrequest]
    rfl

/-- For a domain that is empty or too long no request is written and the client reports the domain.
For every other target the request is read back to the target's kind of address, address or name and
port, whatever follows it. So no request starts another one, and only targets that agree up to flow
information and scope have the same request. -/
theorem connect_requests_faithful :
    (∀ host port chunks ending, utf8 host = [] ∨ 255 < (utf8 host).length →
      let outcome := (socks5Connect (.domain host port)).run (Duplex.new chunks ending)
      outcome.2.written = [0x05, 0x01, 0x00] ∧
      ([0x05, 0x00] <+: chunks.flatten → outcome.1 = .error (.failed
        (if utf8 host = [] then .emptyDomain else .domainTooLong (utf8 host).length)))) ∧
    (∀ target : Socks5Target, target.Encodable → ∃ bytes, request target = .ok bytes ∧
      (∀ chunks ending, [0x05, 0x00] <+: chunks.flatten →
        ((socks5Connect target).run (Duplex.new chunks ending)).2.written =
          [0x05, 0x01, 0x00] ++ bytes) ∧
      ∀ following, parseConnect (bytes ++ following) = some (target.destination, following)) ∧
    (∀ target other bytes otherBytes, request target = .ok bytes → request other = .ok otherBytes →
      (bytes <+: otherBytes → bytes = otherBytes) ∧
      (bytes = otherBytes → target.plain = other.plain)) := by
  refine ⟨fun host port chunks ending h ↦ run_of_not_encodable port chunks ending h,
    fun target h ↦ ?_, fun target other bytes otherBytes h hother ↦ ⟨fun hstart ↦ ?_, ?_⟩⟩
  · obtain ⟨bytes, hrequest, hwritten⟩ := run_of_encodable h
    exact ⟨bytes, hrequest, hwritten, parseConnect_request hrequest⟩
  · exact (request_of_isPrefix h hother hstart).1
  · rintro rfl
    exact (request_of_isPrefix h hother (List.prefix_refl bytes)).2

end Unbounded.ConsumerSocks5
