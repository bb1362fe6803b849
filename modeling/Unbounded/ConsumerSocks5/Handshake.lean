import Unbounded.Net
import Unbounded.Net.BigEndian
import Unbounded.Text.Utf8
import Unbounded.Tokio.Conversation
import Unbounded.Tokio.Duplex

/-!
# The SOCKS5 handshake

`socks5_connect` of `src/consumer_socks5.rs`, cut into its greeting, its request and the reading of
the reply. The stream is any duplex stream, and the bytes of the server may be split across reads in
any way.

`Handshake` is the grammar of a successful conversation and `checks` are the checks of the client in
their order, each with the number of bytes that have been read when it is made. `socks5Connect_eq`
says that the client does what the first violated check says and nothing else, and
`firstViolation_eq_none` that no check is violated exactly on the words of the grammar.

`socks5Script` is `socks5_connect` cut at its await points, and `toIo_socks5Script` says that run in
one go it is the function.
-/

namespace Unbounded.ConsumerSocks5

open Net (toBigEndian)
open Text (utf8)
open Tokio (Duplex Ending Halt Io Script)

/-- `Socks5Target`. -/
inductive Socks5Target where
  | ip (address : SocketAddr)
  | domain (host : String) (port : UInt16)
  deriving DecidableEq

/-- The errors of `ConsumerSocks5Error` that the handshake returns. An I/O error is kept as text. -/
inductive Socks5Error where
  | io (source : String)
  | domainTooLong (length : Nat)
  | emptyDomain
  | unsupportedAuth (method : UInt8)
  | invalidVersion (version : UInt8)
  | connectRejected (status : UInt8)
  | invalidReserved (reserved : UInt8)
  | invalidAddressType (addressType : UInt8)
  deriving DecidableEq, Repr

/-- Offer the one method without authentication, and read the server's choice. -/
def greet : Io Socks5Error Unit := do
  (Io.writeAll [0x05, 0x01, 0x00]).mapErr .io
  let greeting ← (Io.readExact 2).mapErr .io
  if greeting[0] ≠ 0x05 then
    Io.fail (.invalidVersion greeting[0])
  else if greeting[1] ≠ 0x00 then
    Io.fail (.unsupportedAuth greeting[1])

/-- The CONNECT request for a target. -/
def request : Socks5Target → Except Socks5Error Bytes
  | .ip (.v4 bits port) =>
      .ok ([0x05, 0x01, 0x00] ++ [0x01] ++ toBigEndian 4 bits.toNat ++ toBigEndian 2 port.toNat)
  | .ip (.v6 bits port _ _) =>
      .ok ([0x05, 0x01, 0x00] ++ [0x04] ++ toBigEndian 16 bits.toNat ++ toBigEndian 2 port.toNat)
  | .domain host port =>
      if utf8 host = [] then .error .emptyDomain
      else if (utf8 host).length < 256 then
        .ok ([0x05, 0x01, 0x00] ++ [0x03, UInt8.ofNat (utf8 host).length] ++ utf8 host ++
          toBigEndian 2 port.toNat)
      else .error (.domainTooLong (utf8 host).length)

/-- Read how long the bound address of a reply is. -/
def addressLength (addressType : UInt8) : Io Socks5Error Nat :=
  if addressType = 0x01 then pure 4
  else if addressType = 0x04 then pure 16
  else if addressType = 0x03 then do
    let length ← (Io.readExact 1).mapErr .io
    pure length[0].toNat
  else Io.fail (.invalidAddressType addressType)

/-- Read the reply to the request. -/
def readReply : Io Socks5Error Unit := do
  let reply ← (Io.readExact 4).mapErr .io
  if reply[0] ≠ 0x05 then
    Io.fail (.invalidVersion reply[0])
  else if reply[1] ≠ 0x00 then
    Io.fail (.connectRejected reply[1])
  else if reply[2] ≠ 0x00 then
    Io.fail (.invalidReserved reply[2])
  else
    let length ← addressLength reply[3]
    let _ ← (Io.readExact (length + 2)).mapErr .io

/-- `socks5_connect`. -/
def socks5Connect (target : Socks5Target) : Io Socks5Error Unit := do
  greet
  let request ← Io.ofExcept (request target)
  (Io.writeAll request).mapErr .io
  readReply

/-! ## What the handshake means -/

/-- What a server sends in a handshake that succeeds: its choice of method, and a reply with an
address of one of three forms. -/
inductive Handshake : Bytes → Prop where
  | v4 {bound : Bytes} (h : bound.length = 6) :
      Handshake ([0x05, 0x00] ++ [0x05, 0x00, 0x00, 0x01] ++ bound)
  | v6 {bound : Bytes} (h : bound.length = 18) :
      Handshake ([0x05, 0x00] ++ [0x05, 0x00, 0x00, 0x04] ++ bound)
  | domain {length : UInt8} {bound : Bytes} (h : bound.length = length.toNat + 2) :
      Handshake ([0x05, 0x00] ++ [0x05, 0x00, 0x00, 0x03, length] ++ bound)

/-- The target is no empty and no overlong domain. -/
def Socks5Target.Encodable : Socks5Target → Prop
  | .ip _ => True
  | .domain host _ => 0 < (utf8 host).length ∧ (utf8 host).length ≤ 255

/-- A check: how many bytes of the server have been read when it is made, and what is reported when
it is violated. -/
structure Check where
  reads : Nat
  verdict : Option (Halt Socks5Error)

/-- A part of the conversation is read whole before its bytes are looked at. -/
def whole (ending : Ending) (data : Bytes) (count : Nat) : Check :=
  ⟨count, if count ≤ data.length then none else some (ending.halt.mapErr .io)⟩

/-- A byte has its expected value. -/
def expect (data : Bytes) (reads position : Nat) (expected : UInt8)
    (report : UInt8 → Socks5Error) : Check :=
  ⟨reads, if data.getD position 0 = expected then none
    else some (.failed (report (data.getD position 0)))⟩

/-- The checks of the greeting. -/
def greetingChecks (ending : Ending) (data : Bytes) : List Check :=
  [whole ending data 2, expect data 2 0 0x05 .invalidVersion, expect data 2 1 0x00 .unsupportedAuth]

/-- The check of the target. -/
def targetCheck : Socks5Target → Check
  | .ip _ => ⟨2, none⟩
  | .domain host _ =>
      ⟨2, if (utf8 host).length = 0 then some (.failed .emptyDomain)
        else if 255 < (utf8 host).length then some (.failed (.domainTooLong (utf8 host).length))
        else none⟩

/-- The whole length of a handshake whose reply header and length byte have been read. -/
def handshakeLength (data : Bytes) : Nat :=
  if data.getD 5 0 = 0x01 then 12
  else if data.getD 5 0 = 0x04 then 24
  else 9 + (data.getD 6 0).toNat

/-- The checks of the reply. -/
def replyChecks (ending : Ending) (data : Bytes) : List Check :=
  [whole ending data 6, expect data 6 2 0x05 .invalidVersion, expect data 6 3 0x00 .connectRejected,
    expect data 6 4 0x00 .invalidReserved,
    ⟨6, if data.getD 5 0 ∈ [0x01, 0x03, 0x04] then none
      else some (.failed (.invalidAddressType (data.getD 5 0)))⟩,
    if data.getD 5 0 = 0x03 then whole ending data 7 else ⟨6, none⟩,
    whole ending data (handshakeLength data)]

/-- The first violated check: how much it has read, and its report. -/
def firstViolation (checks : List Check) : Option (Nat × Halt Socks5Error) :=
  checks.findSome? fun check ↦ check.verdict.map fun halt ↦ (check.reads, halt)

/-- All checks in their order. -/
def checks (target : Socks5Target) (ending : Ending) (data : Bytes) : List Check :=
  greetingChecks ending data ++ targetCheck target :: replyChecks ending data

/-! ## The client does what its checks say -/

/-- What a client returns and reads when it is done after some checks. -/
def settle (duplex : Duplex) (length : Nat) :
    Option (Nat × Halt Socks5Error) → Except (Halt Socks5Error) Unit × Duplex
  | some (reads, halt) => (.error halt, duplex.advance reads)
  | none => (.ok (), duplex.advance length)

/-- Checking writes nothing. -/
theorem settle_written (duplex : Duplex) (length : Nat)
    (violation : Option (Nat × Halt Socks5Error)) :
    (settle duplex length violation).2.written = duplex.written := by
  cases violation <;> rfl

variable {check : Check} {rest : List Check} {halt : Halt Socks5Error}

/-- A violated check is the first one. -/
theorem firstViolation_of_some (h : check.verdict = some halt) :
    firstViolation (check :: rest) = some (check.reads, halt) := by
  simp [firstViolation, h]

/-- A check that is met is passed over. -/
theorem firstViolation_of_none (h : check.verdict = none) :
    firstViolation (check :: rest) = firstViolation rest := by
  simp [firstViolation, h]

variable {target : Socks5Target} {duplex : Duplex} {reads length : Nat}

@[simp] theorem targetCheck_reads (target : Socks5Target) : (targetCheck target).reads = 2 := by
  cases target <;> rfl

/-- A byte of what follows some bytes. -/
theorem getD_drop (data : Bytes) (count index : Nat) :
    (data.drop count).getD index 0 = data.getD (count + index) 0 := by
  rw [List.getD_eq_getElem?_getD, List.getElem?_drop, List.getD_eq_getElem?_getD]

/-- A part of the conversation is read, and then the client goes on. -/
theorem run_whole {start : Duplex} (reads count : Nat)
    {following : Vector UInt8 count → Io Socks5Error Unit} (hstart : start = duplex.advance reads)
    (hcount : 0 < count)
    (h : ∀ hwhole : count ≤ (duplex.unread.drop reads).length,
      (following (Io.buffer count (duplex.unread.drop reads) hwhole)).run
        (duplex.advance (reads + count)) = settle duplex length (firstViolation rest)) :
    ((Io.readExact count).mapErr Socks5Error.io >>= following).run start =
      settle duplex length
        (firstViolation (whole duplex.ending duplex.unread (reads + count) :: rest)) := by
  subst hstart
  by_cases hwhole : reads + count ≤ duplex.unread.length
  case pos =>
    rw [Io.run_bind_of_ok (Io.run_readExact_at_of_le hwhole),
      firstViolation_of_none (if_pos hwhole)]
    exact h _
  case neg =>
    rw [Io.run_bind_of_error (Io.run_readExact_at_of_lt hcount (by omega)),
      firstViolation_of_some (if_neg hwhole)]
    rfl

/-- A byte is checked, and then the client goes on. -/
theorem run_expect {position : Nat} {expected : UInt8} {report : UInt8 → Socks5Error}
    {following : Io Socks5Error Unit}
    (h : following.run (duplex.advance reads) = settle duplex length (firstViolation rest)) :
    (if duplex.unread.getD position 0 ≠ expected then
        Io.fail (report (duplex.unread.getD position 0))
      else following).run (duplex.advance reads) =
      settle duplex length
        (firstViolation (expect duplex.unread reads position expected report :: rest)) := by
  by_cases hbyte : duplex.unread.getD position 0 = expected
  case pos =>
    rw [if_neg (not_not.mpr hbyte), firstViolation_of_none (if_pos hbyte), h]
  case neg =>
    rw [if_pos hbyte, firstViolation_of_some (if_neg hbyte)]
    rfl

/-- The greeting sends three bytes and makes its checks of the answer in order. -/
theorem run_greet (h : duplex.writeFault = none) :
    greet.run duplex = settle (duplex.write [0x05, 0x01, 0x00]) 2
      (firstViolation (greetingChecks duplex.ending duplex.unread)) := by
  rw [greet, Io.run_bind_of_ok (Io.run_writeAll_of_none h)]
  refine run_whole 0 2 (Duplex.advance_zero _).symm (by omega) fun hwhole ↦ ?_
  simp only [Io.getElem_buffer, getD_drop, Nat.zero_add]
  exact run_expect (run_expect rfl)

/-- Reading the address of a reply makes its checks in order. -/
theorem run_address (duplex : Duplex) :
    (do
      let length ← addressLength (duplex.unread.getD 5 0)
      let _ ← (Io.readExact (length + 2)).mapErr Socks5Error.io : Io Socks5Error Unit).run
        (duplex.advance 6) =
      settle duplex (handshakeLength duplex.unread)
        (firstViolation ((replyChecks duplex.ending duplex.unread).drop 4)) := by
  simp only [replyChecks, List.drop_succ_cons, List.drop_zero, handshakeLength, addressLength]
  generalize htype : duplex.unread.getD 5 0 = addressType
  by_cases hfour : addressType = 0x01
  case pos =>
    subst hfour
    exact run_whole 6 6 rfl (by omega) fun hwhole ↦ rfl
  by_cases hsix : addressType = 0x04
  case pos =>
    subst hsix
    exact run_whole 6 18 rfl (by omega) fun hwhole ↦ rfl
  by_cases hdomain : addressType = 0x03
  case neg =>
    rw [if_neg hfour, if_neg hsix, if_neg hdomain, Io.run_bind_of_error (Io.run_fail _ _),
      firstViolation_of_some (if_neg (by simp [hfour, hsix, hdomain]))]
    rfl
  simp only [if_neg hfour, if_neg hsix, if_pos hdomain]
  rw [Io.run_bind_bind, firstViolation_of_none (if_pos (by simp [hdomain]))]
  refine run_whole 6 1 rfl (by omega) fun hbyte ↦ ?_
  rw [Io.run_bind_of_ok (Io.run_pure _ _)]
  rw [Io.getElem_buffer, getD_drop, show 9 + (duplex.unread.getD 6 0).toNat =
    6 + 1 + ((duplex.unread.getD 6 0).toNat + 2) by omega]
  exact run_whole (6 + 1) ((duplex.unread.getD 6 0).toNat + 2) rfl (by omega) fun hwhole ↦ rfl

/-- Reading the reply makes its checks in order. -/
theorem run_readReply (duplex : Duplex) :
    readReply.run (duplex.advance 2) = settle duplex (handshakeLength duplex.unread)
      (firstViolation (replyChecks duplex.ending duplex.unread)) := by
  refine run_whole 2 4 rfl (by omega) fun hwhole ↦ ?_
  simp only [Io.getElem_buffer, getD_drop, Nat.reduceAdd]
  exact run_expect (run_expect (run_expect (run_address duplex)))

/-- The target is checked while its request is built. -/
theorem targetCheck_verdict (target : Socks5Target) :
    (∃ error, request target = .error error ∧ (targetCheck target).verdict = some (.failed error)) ∨
    (∃ bytes, request target = .ok bytes ∧ (targetCheck target).verdict = none) := by
  match target with
  | .ip (.v4 _ _) => exact .inr ⟨_, rfl, rfl⟩
  | .ip (.v6 _ _ _ _) => exact .inr ⟨_, rfl, rfl⟩
  | .domain host port =>
      simp only [request, targetCheck]
      by_cases hempty : utf8 host = []
      case pos => exact .inl ⟨.emptyDomain, if_pos hempty, if_pos (by simp [hempty])⟩
      have hlength : (utf8 host).length ≠ 0 := by simpa using hempty
      rw [if_neg hempty, if_neg hlength]
      by_cases hlong : (utf8 host).length < 256
      case pos => exact .inr ⟨_, if_pos hlong, if_neg (by omega)⟩
      case neg => exact .inl ⟨_, if_neg hlong, if_pos (by omega)⟩

/-- What a client has written when it is done: its greeting, and the request if it came to that. -/
def sent (target : Socks5Target) (ending : Ending) (data : Bytes) : Bytes :=
  match firstViolation (greetingChecks ending data ++ [targetCheck target]), request target with
  | none, .ok bytes => [0x05, 0x01, 0x00] ++ bytes
  | _, _ => [0x05, 0x01, 0x00]

/-- A client without a request writes only its greeting. -/
theorem sent_of_error {ending : Ending} {data : Bytes} {error : Socks5Error}
    (h : request target = .error error) : sent target ending data = [0x05, 0x01, 0x00] := by
  rw [sent, h]
  cases firstViolation (greetingChecks ending data ++ [targetCheck target]) <;> rfl

/-- The first violation of two groups of checks is that of the first group, if it has one. -/
theorem firstViolation_append (first second : List Check) :
    firstViolation (first ++ second) = (firstViolation first).or (firstViolation second) :=
  List.findSome?_append

/-- The client reads, returns and writes what its first violated check says. -/
theorem run_socks5Connect (target : Socks5Target) (h : duplex.writeFault = none) :
    (socks5Connect target).run duplex =
      settle (duplex.write (sent target duplex.ending duplex.unread))
        (handshakeLength duplex.unread)
        (firstViolation (checks target duplex.ending duplex.unread)) := by
  have hgreet := run_greet h
  have hchecks : checks target duplex.ending duplex.unread =
      (greetingChecks duplex.ending duplex.unread ++ [targetCheck target]) ++
        replyChecks duplex.ending duplex.unread := by
    rw [checks, List.append_assoc]
    rfl
  rw [hchecks, firstViolation_append, sent, socks5Connect]
  cases hgreeting : firstViolation (greetingChecks duplex.ending duplex.unread) with
  | some violation =>
      rw [hgreeting] at hgreet
      rw [Io.run_bind_of_error hgreet, firstViolation_append, hgreeting]
      rfl
  | none =>
      rw [hgreeting] at hgreet
      rw [Io.run_bind_of_ok hgreet, firstViolation_append, hgreeting, Option.none_or]
      rcases targetCheck_verdict target with
        ⟨error, hrequest, hverdict⟩ | ⟨bytes, hrequest, hverdict⟩
      case inl =>
        rw [hrequest, firstViolation_of_some hverdict, targetCheck_reads, Io.ofExcept,
          Io.run_bind_of_error (Io.run_fail _ _)]
        rfl
      case inr =>
        have hfault : ((duplex.write [0x05, 0x01, 0x00]).advance 2).writeFault = none := h
        rw [hrequest, firstViolation_of_none hverdict, Io.ofExcept,
          Io.run_bind_of_ok (Io.run_pure _ _), Io.run_bind_of_ok (Io.run_writeAll_of_none hfault),
          Duplex.write_advance, Duplex.write_write]
        exact run_readReply (duplex.write ([0x05, 0x01, 0x00] ++ bytes))

/-! ## The conversations that succeed -/

/-- There is no first violation exactly if no check is violated. -/
theorem firstViolation_eq_none {checks : List Check} :
    firstViolation checks = none ↔ ∀ check ∈ checks, check.verdict = none := by
  simp [firstViolation, List.findSome?_eq_none_iff]

/-- The check of a target is met exactly if the target can be encoded. -/
theorem targetCheck_eq_none (target : Socks5Target) :
    (targetCheck target).verdict = none ↔ target.Encodable := by
  cases target with
  | ip address => exact ⟨fun _ ↦ trivial, fun _ ↦ rfl⟩
  | domain host port =>
      simp only [targetCheck, Socks5Target.Encodable]
      split
      case isTrue hempty => simp [hempty]
      case isFalse hempty =>
        split
        case isTrue hlong =>
          refine ⟨fun h ↦ by simp at h, fun h ↦ ?_⟩
          omega
        case isFalse hlong => exact ⟨fun _ ↦ by omega, fun _ ↦ rfl⟩

/-- The bytes of a server violate no check. -/
structure Accepted (data : Bytes) : Prop where
  greeting : data.getD 0 0 = 0x05 ∧ data.getD 1 0 = 0x00
  header : data.getD 2 0 = 0x05 ∧ data.getD 3 0 = 0x00 ∧ data.getD 4 0 = 0x00
  addressType : data.getD 5 0 = 0x01 ∨ data.getD 5 0 = 0x03 ∨ data.getD 5 0 = 0x04
  whole : handshakeLength data ≤ data.length

/-- Every accepted handshake has a header, an address type and more. -/
theorem Accepted.nine_le {data : Bytes} (h : Accepted data) : 9 ≤ data.length := by
  have hwhole := h.whole
  unfold handshakeLength at hwhole
  split at hwhole
  · omega
  · split at hwhole <;> omega

/-- The check of a length is met exactly if enough bytes arrived. -/
theorem whole_eq_none {ending : Ending} {data : Bytes} {count : Nat} :
    (whole ending data count).verdict = none ↔ count ≤ data.length := by
  simp [whole]

/-- The check of a byte is met exactly if the byte is the expected one. -/
theorem expect_eq_none {data : Bytes} {reads position : Nat} {expected : UInt8}
    {report : UInt8 → Socks5Error} :
    (expect data reads position expected report).verdict = none ↔
      data.getD position 0 = expected := by
  simp only [expect, ite_eq_left_iff, reduceCtorEq, imp_false, not_not]

/-- The checks are met exactly by an encodable target and the right bytes. -/
theorem checks_eq_none (target : Socks5Target) (ending : Ending) (data : Bytes) :
    firstViolation (checks target ending data) = none ↔ target.Encodable ∧ Accepted data := by
  rw [firstViolation_eq_none]
  simp only [checks, greetingChecks, replyChecks, List.cons_append, List.nil_append,
    List.forall_mem_cons, List.not_mem_nil, whole_eq_none, expect_eq_none, targetCheck_eq_none]
  constructor
  · rintro ⟨_, hversion, hmethod, htarget, _, hreply, hstatus, hreserved, htype, _, hwhole, _⟩
    refine ⟨htarget, ⟨hversion, hmethod⟩, ⟨hreply, hstatus, hreserved⟩, ?_, hwhole⟩
    simpa only [ite_eq_left_iff, reduceCtorEq, imp_false, not_not, List.mem_cons,
      List.not_mem_nil, or_false] using htype
  · rintro ⟨htarget, haccepted⟩
    have hlength := haccepted.nine_le
    refine ⟨by omega, haccepted.greeting.1, haccepted.greeting.2, htarget, by omega,
      haccepted.header.1, haccepted.header.2.1, haccepted.header.2.2, if_pos ?_, ?_,
      haccepted.whole, by simp⟩
    · simpa only [List.mem_cons, List.not_mem_nil, or_false] using haccepted.addressType
    · split
      case isTrue => exact whole_eq_none.mpr (by omega)
      case isFalse => rfl

/-- What starts with the header of a reply. -/
theorem take_eq_header_append (data : Bytes) (h : 6 ≤ data.length) (count : Nat) :
    data.take (count + 6) = [data.getD 0 0, data.getD 1 0] ++
      [data.getD 2 0, data.getD 3 0, data.getD 4 0, data.getD 5 0] ++ (data.drop 6).take count := by
  match data, h with
  | _ :: _ :: _ :: _ :: _ :: _ :: _, _ => rfl

/-- Accepted bytes start with a handshake of the length that its header says. -/
theorem Accepted.handshake {data : Bytes} (h : Accepted data) :
    Handshake (data.take (handshakeLength data)) := by
  have hnine := h.nine_le
  have htake := take_eq_header_append data (by omega)
  have hwhole := h.whole
  rw [h.greeting.1, h.greeting.2, h.header.1, h.header.2.1, h.header.2.2] at htake
  rcases h.addressType with htype | htype | htype
  · have hlength : handshakeLength data = 6 + 6 := if_pos htype
    rw [hlength] at hwhole ⊢
    rw [htake, htype]
    exact .v4 (by rw [List.length_take, List.length_drop]; omega)
  · have hlength : handshakeLength data = (data.getD 6 0).toNat + 2 + 1 + 6 := by
      rw [handshakeLength, htype, if_neg (by decide), if_neg (by decide)]
      omega
    rw [hlength] at hwhole ⊢
    have hbyte : (data.drop 6).take ((data.getD 6 0).toNat + 2 + 1) =
        data.getD 6 0 :: (data.drop 7).take ((data.getD 6 0).toNat + 2) := by
      match data, hnine with
      | _ :: _ :: _ :: _ :: _ :: _ :: _ :: _, _ => rfl
    rw [htake, htype, hbyte]
    exact .domain (by rw [List.length_take, List.length_drop]; omega)
  · have hlength : handshakeLength data = 18 + 6 := by
      rw [handshakeLength, htype, if_neg (by decide), if_pos rfl]
    rw [hlength] at hwhole ⊢
    rw [htake, htype]
    exact .v6 (by rw [List.length_take, List.length_drop]; omega)

/-- A handshake is accepted, and its header says how long it is. -/
theorem Handshake.accepted {handshake : Bytes} (h : Handshake handshake) (rest : Bytes) :
    Accepted (handshake ++ rest) ∧ handshakeLength (handshake ++ rest) = handshake.length := by
  have hwhole (hlength : handshakeLength (handshake ++ rest) = handshake.length) :
      handshakeLength (handshake ++ rest) ≤ (handshake ++ rest).length := by
    rw [hlength, List.length_append]
    omega
  cases h with
  | @v4 bound hbound =>
      have hlength : handshakeLength ([0x05, 0x00] ++ [0x05, 0x00, 0x00, 0x01] ++ bound ++ rest) =
          ([0x05, 0x00] ++ [0x05, 0x00, 0x00, 0x01] ++ bound).length := by
        show 12 = _
        simp [hbound]
      exact ⟨⟨⟨rfl, rfl⟩, ⟨rfl, rfl, rfl⟩, .inl rfl, hwhole hlength⟩, hlength⟩
  | @v6 bound hbound =>
      have hlength : handshakeLength ([0x05, 0x00] ++ [0x05, 0x00, 0x00, 0x04] ++ bound ++ rest) =
          ([0x05, 0x00] ++ [0x05, 0x00, 0x00, 0x04] ++ bound).length := by
        show 24 = _
        simp [hbound]
      exact ⟨⟨⟨rfl, rfl⟩, ⟨rfl, rfl, rfl⟩, .inr (.inr rfl), hwhole hlength⟩, hlength⟩
  | @domain length bound hbound =>
      have hlength : handshakeLength
          ([0x05, 0x00] ++ [0x05, 0x00, 0x00, 0x03, length] ++ bound ++ rest) =
          ([0x05, 0x00] ++ [0x05, 0x00, 0x00, 0x03, length] ++ bound).length := by
        show 9 + length.toNat = _
        simp only [List.length_append, List.length_cons, List.length_nil, hbound]
        omega
      exact ⟨⟨⟨rfl, rfl⟩, ⟨rfl, rfl, rfl⟩, .inr (.inl rfl), hwhole hlength⟩, hlength⟩

/-- However the bytes of a server are split across reads, the client succeeds exactly when the
target is encodable and the bytes start with a handshake, and it has then read exactly the
handshake. Otherwise it returns what the first violated check reports and has read what that check
looks at; on a stream that stays open it may also wait for more. A client that fails before its
request has written only the greeting. -/
theorem socks5_connect_reads_handshake (target : Socks5Target) (chunks : List Bytes)
    (ending : Ending) :
    let data := chunks.flatten
    let outcome := (socks5Connect target).run (Duplex.new chunks ending)
    (outcome.1 = .ok () ↔
      target.Encodable ∧ ∃ handshake rest, Handshake handshake ∧ data = handshake ++ rest) ∧
    (outcome.1 = .ok () → ∃ handshake, Handshake handshake ∧ data = handshake ++ outcome.2.unread) ∧
    (∀ halt, outcome.1 = .error halt → ∃ reads,
      firstViolation (checks target ending data) = some (reads, halt) ∧
      outcome.2.unread = data.drop reads) ∧
    ((firstViolation (greetingChecks ending data ++ [targetCheck target])).isSome →
      outcome.2.written = [0x05, 0x01, 0x00]) := by
  intro data outcome
  have hrun : outcome = settle ((Duplex.new chunks ending).write (sent target ending data))
      (handshakeLength data) (firstViolation (checks target ending data)) :=
    run_socks5Connect target rfl
  have hnone := checks_eq_none target ending data
  have hok : outcome.1 = .ok () ↔ firstViolation (checks target ending data) = none := by
    rw [hrun]
    cases firstViolation (checks target ending data) <;> simp [settle]
  refine ⟨?_, fun hsuccess ↦ ?_, fun halt hfailure ↦ ?_, fun hearly ↦ ?_⟩
  · rw [hok, hnone]
    refine and_congr_right fun _ ↦ ⟨fun haccepted ↦ ?_, ?_⟩
    · exact ⟨_, data.drop (handshakeLength data), haccepted.handshake,
        (List.take_append_drop _ _).symm⟩
    · rintro ⟨handshake, rest, hhandshake, hdata⟩
      rw [hdata]
      exact (hhandshake.accepted rest).1
  · have hviolation := hok.mp hsuccess
    rw [hviolation] at hrun
    refine ⟨_, (hnone.mp hviolation).2.handshake, ?_⟩
    rw [hrun]
    simp only [settle, Duplex.unread_advance, Duplex.unread_write, Duplex.unread_new]
    exact (List.take_append_drop _ _).symm
  · cases hviolation : firstViolation (checks target ending data) with
    | none =>
        rw [hrun, hviolation] at hfailure
        simp [settle] at hfailure
    | some violation =>
        obtain ⟨reads, report⟩ := violation
        rw [hviolation] at hrun
        obtain rfl : report = halt := by simpa [hrun, settle] using hfailure
        exact ⟨reads, rfl, by simp [hrun, settle, data]⟩
  · obtain ⟨violation, hviolation⟩ := Option.isSome_iff_exists.mp hearly
    have hsent : sent target ending data = [0x05, 0x01, 0x00] := by
      rw [sent, hviolation]
    rw [hrun, settle_written, hsent]
    rfl

-- a reply that names a domain, cut in the middle of its parts, with one byte for the application
example : ((socks5Connect (.ip (.v6 1 53 0 0))).run (Duplex.new
    [[0x05], [0x00, 0x05, 0x00, 0x00], [0x03, 0x03, 101, 120], [116, 0, 80, 7]] .eof)).2.unread =
      [7] := rfl

/-! ## The handshake at its await points -/

/-- `greet` before the rest of the handshake. -/
def greetScript (following : Script Socks5Error Unit) : Script Socks5Error Unit :=
  .write [0x05, 0x01, 0x00] <| .read 2 fun greeting ↦
    if greeting[0] ≠ 0x05 then .done (.error (.invalidVersion greeting[0]))
    else if greeting[1] ≠ 0x00 then .done (.error (.unsupportedAuth greeting[1]))
    else following

/-- The bound address and the port, which are not looked at. -/
def boundScript (length : Nat) : Script Socks5Error Unit :=
  .read (length + 2) fun _ ↦ .done (.ok ())

/-- The address type of a reply, and what follows it. -/
def addressScript (addressType : UInt8) : Script Socks5Error Unit :=
  if addressType = 0x01 then boundScript 4
  else if addressType = 0x04 then boundScript 16
  else if addressType = 0x03 then .read 1 fun length ↦ boundScript length[0].toNat
  else .done (.error (.invalidAddressType addressType))

/-- `readReply`. -/
def replyScript : Script Socks5Error Unit :=
  .read 4 fun reply ↦
    if reply[0] ≠ 0x05 then .done (.error (.invalidVersion reply[0]))
    else if reply[1] ≠ 0x00 then .done (.error (.connectRejected reply[1]))
    else if reply[2] ≠ 0x00 then .done (.error (.invalidReserved reply[2]))
    else addressScript reply[3]

/-- `socks5_connect`. -/
def socks5Script (target : Socks5Target) : Script Socks5Error Unit :=
  greetScript <| match request target with
    | .ok bytes => .write bytes replyScript
    | .error error => .done (.error error)

/-- The greeting comes before the rest. -/
theorem toIo_greetScript (following : Script Socks5Error Unit) :
    (greetScript following).toIo .io = greet >>= fun _ ↦ following.toIo .io := by
  rw [greet, Io.bind_assoc]
  refine congrArg (_ >>= ·) (funext fun _ ↦ ?_)
  rw [Io.bind_assoc]
  refine congrArg (_ >>= ·) (funext fun greeting ↦ ?_)
  let rest (checked : Io Socks5Error Unit) := checked >>= fun _ ↦ following.toIo .io
  exact Script.toIo_ite rest rfl (Script.toIo_ite rest rfl rfl)

/-- The bound address is read whole. -/
theorem toIo_addressScript (addressType : UInt8) :
    (addressScript addressType).toIo .io = addressLength addressType >>= fun length ↦
      (Io.readExact (length + 2)).mapErr .io >>= fun _ ↦ pure () := by
  let bound (length : Io Socks5Error Nat) :=
    length >>= fun length ↦ (Io.readExact (length + 2)).mapErr .io >>= fun _ ↦ pure ()
  refine Script.toIo_ite bound rfl (Script.toIo_ite bound rfl (Script.toIo_ite bound ?_ rfl))
  dsimp only [bound]
  rw [Io.bind_assoc]
  rfl

/-- The reply is read and checked. -/
theorem toIo_replyScript : replyScript.toIo .io = readReply := by
  refine congrArg (_ >>= ·) (funext fun reply ↦ ?_)
  refine Script.toIo_ite id rfl (Script.toIo_ite id rfl (Script.toIo_ite id rfl ?_))
  exact toIo_addressScript reply[3]

/-- Run in one go, the handshake at its await points is `socks5_connect`. -/
theorem toIo_socks5Script (target : Socks5Target) :
    (socks5Script target).toIo .io = socks5Connect target := by
  rw [socks5Script, toIo_greetScript, socks5Connect]
  refine congrArg (greet >>= ·) (funext fun _ ↦ ?_)
  cases request target with
  | error error => rfl
  | ok bytes =>
      show ((Io.writeAll bytes).mapErr .io >>= fun _ ↦ replyScript.toIo .io) = _
      rw [toIo_replyScript]
      rfl

end Unbounded.ConsumerSocks5
