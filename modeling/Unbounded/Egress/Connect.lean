import Unbounded.Egress.Tunnel
import Unbounded.Protocol
import Unbounded.Text.Fields
import Unbounded.Text.Utf8

/-!
# Connecting to the egress

`EgressTunnel::connect_with_timeout` of `src/egress.rs`. The consumer session ID is the second of
three values in the `Sec-WebSocket-Protocol` header, which the egress reads by splitting at commas
and trimming spaces. `subprotocols_round_trip` says that an ID that passes the check cannot bring
another value into the header, and that no other ID gets that far.
-/

namespace Unbounded.Egress

open Text (utf8)

/-- A byte that `HeaderValue::to_str` takes for text: visible ASCII, a space or a tab. -/
def isVisibleAscii (byte : UInt8) : Bool :=
  (32 ≤ byte && byte < 127) || byte == 9

/-- `HeaderValue::from_str`. -/
def headerValue (value : String) : Except EgressError String :=
  if isHeaderValue (utf8 value) then .ok value
  else .error (.header "failed to parse header value")

/-- The value of the `Sec-WebSocket-Protocol` header. -/
def subprotocolHeader (csid version : String) : String :=
  ", ".intercalate (egressSubprotocols csid version)

/-- The values of a header as its receiver reads them: split at commas, without spaces around. -/
def headerValues (header : String) : List String :=
  (Text.fields ',' (· == ' ') header.toList).map String.ofList

/-- What came of `connect_async` and its timeout. `upgraded` has the subprotocol header of the
response. -/
inductive Dialed where
  | elapsed
  | failed (source : String)
  | upgraded (selected : Option Bytes)
  deriving DecidableEq, Repr

namespace EgressTunnel

/-- The header of the request that is sent, where `intoRequest` parses the URL. -/
def request (intoRequest : String → Except String Unit) (url csid : String) :
    Except EgressError String :=
  if !isSubprotocolToken csid then .error (.invalidConsumerSessionId csid)
  else match intoRequest url with
    | .error source => .error (.request source)
    | .ok () => headerValue (subprotocolHeader csid protocolVersion)

/-- The check of the response. -/
def negotiated : Dialed → Except EgressError EgressTunnel
  | .elapsed => .error .connectTimeout
  | .failed source => .error (.webSocket source)
  | .upgraded none => .error .missingSubprotocol
  | .upgraded (some selected) =>
      if selected.all isVisibleAscii then
        if selected ≠ utf8 subprotocolMagicCookie then
          .error (.unexpectedSubprotocol (String.ofList (selected.map fun byte ↦ .ofUInt8 byte)))
        else .ok ⟨[]⟩
      else .error (.unexpectedSubprotocol "non-ASCII")

/-- `connect_with_timeout`, where `dial` sends a request with a header. -/
def connectWithTimeout (intoRequest : String → Except String Unit) (dial : String → Dialed)
    (url csid : String) : Except EgressError EgressTunnel :=
  match request intoRequest url csid with
  | .error error => .error error
  | .ok header => negotiated (dial header)

end EgressTunnel

/-! ## Tokens -/

/-- The bytes of a token are visible, and none is a comma. -/
theorem byte_of_token {token : String} (h : isSubprotocolToken token = true) {byte : UInt8}
    (hbyte : byte ∈ utf8 token) : isAsciiGraphic byte = true ∧ byte ≠ 44 := by
  simp only [isSubprotocolToken, Bool.and_eq_true, List.all_eq_true, bne_iff_ne] at h
  exact h.2 byte hbyte

/-- A token has no comma and no space. -/
theorem char_of_token {token : String} (h : isSubprotocolToken token = true) {char : Char}
    (hchar : char ∈ token.toList) : char ≠ ',' ∧ char ≠ ' ' := by
  obtain ⟨byte, hbyte⟩ : ∃ byte, byte ∈ String.utf8EncodeChar char :=
    List.exists_mem_of_ne_nil _ (String.utf8EncodeChar_ne_nil)
  obtain ⟨hgraphic, hcomma⟩ := byte_of_token h (Text.mem_utf8 hchar hbyte)
  simp only [isAsciiGraphic, Bool.and_eq_true, decide_eq_true_eq, UInt8.le_iff_toNat_le] at hgraphic
  obtain ⟨_, rfl⟩ := Text.lt_of_mem_utf8EncodeChar hbyte (Nat.lt_of_le_of_lt hgraphic.2 (by decide))
  constructor
  · rintro rfl
    exact hcomma rfl
  · rintro rfl
    exact absurd hgraphic.1 (by decide)

/-- The cookie is a token. -/
theorem isSubprotocolToken_cookie : isSubprotocolToken subprotocolMagicCookie = true := by
  decide

/-- The version is a token. -/
theorem isSubprotocolToken_version : isSubprotocolToken protocolVersion = true := by
  decide

/-! ## The header -/

variable {csid version : String}

/-- Every value of the header is a token. -/
theorem token_of_mem (hcsid : isSubprotocolToken csid = true)
    (hversion : isSubprotocolToken version = true) {value : String}
    (hvalue : value ∈ egressSubprotocols csid version) : isSubprotocolToken value = true := by
  simp only [egressSubprotocols, List.mem_cons, List.not_mem_nil, or_false] at hvalue
  rcases hvalue with rfl | rfl | rfl
  · exact isSubprotocolToken_cookie
  · exact hcsid
  · exact hversion

/-- The receiver of the header reads the values that were joined. -/
theorem headerValues_subprotocolHeader (hcsid : isSubprotocolToken csid = true)
    (hversion : isSubprotocolToken version = true) :
    headerValues (subprotocolHeader csid version) = egressSubprotocols csid version := by
  have hfields : ∀ field ∈ (egressSubprotocols csid version).map String.toList,
      ',' ∉ field ∧ ∀ char ∈ field, (char == ' ') = false := by
    intro field hfield
    obtain ⟨value, hvalue, rfl⟩ := List.mem_map.mp hfield
    have htoken := token_of_mem hcsid hversion hvalue
    refine ⟨fun hcomma ↦ (char_of_token htoken hcomma).1 rfl, fun char hchar ↦ ?_⟩
    simp [(char_of_token htoken hchar).2]
  have hread := Text.fields_intercalate (· == ' ') [' '] (by simp [egressSubprotocols]) (by simp)
    (by simp) hfields
  have htext : (subprotocolHeader csid version).toList =
      [',', ' '].intercalate ((egressSubprotocols csid version).map String.toList) :=
    String.toList_intercalate
  rw [headerValues, htext, hread, List.map_map]
  conv_rhs => rw [← List.map_id (egressSubprotocols csid version)]
  exact List.map_congr_left fun value _ ↦ String.ofList_toList

/-- The header has visible bytes and spaces only. -/
theorem byte_of_header (hcsid : isSubprotocolToken csid = true)
    (hversion : isSubprotocolToken version = true) {byte : UInt8}
    (hbyte : byte ∈ utf8 (subprotocolHeader csid version)) :
    isAsciiGraphic byte = true ∨ byte = 32 := by
  have hvalue : ∀ {value}, value ∈ egressSubprotocols csid version → ∀ {char},
      char ∈ value.toList → byte ∈ String.utf8EncodeChar char → isAsciiGraphic byte = true := by
    intro value hvalue char hchar hbyte
    exact (byte_of_token (token_of_mem hcsid hversion hvalue) (Text.mem_utf8 hchar hbyte)).1
  have hcomma : ∀ {char}, char ∈ ", ".toList → byte ∈ String.utf8EncodeChar char →
      isAsciiGraphic byte = true ∨ byte = 32 := by
    intro char hchar hbyte
    have htwo : char = ',' ∨ char = ' ' := by simpa using hchar
    rcases htwo with rfl | rfl
    · have hbyte : byte = 44 := List.mem_singleton.mp hbyte
      exact .inl (by rw [hbyte]; rfl)
    · exact .inr (List.mem_singleton.mp hbyte)
  rw [Text.utf8_eq_flatMap, List.mem_flatMap] at hbyte
  obtain ⟨char, hchar, hbyte⟩ := hbyte
  simp only [subprotocolHeader, egressSubprotocols, String.intercalate_cons_cons,
    String.intercalate_singleton, String.toList_append, List.mem_append] at hchar
  rcases hchar with (hchar | hchar) | (hchar | hchar) | hchar
  · exact .inl (hvalue (by simp [egressSubprotocols]) hchar hbyte)
  · exact hcomma hchar hbyte
  · exact .inl (hvalue (by simp [egressSubprotocols]) hchar hbyte)
  · exact hcomma hchar hbyte
  · exact .inl (hvalue (by simp [egressSubprotocols]) hchar hbyte)

/-- Building the header does not fail. -/
theorem headerValue_subprotocolHeader (hcsid : isSubprotocolToken csid = true)
    (hversion : isSubprotocolToken version = true) :
    headerValue (subprotocolHeader csid version) = .ok (subprotocolHeader csid version) := by
  refine if_pos (List.all_eq_true.mpr fun byte hbyte ↦ ?_)
  rcases byte_of_header hcsid hversion hbyte with hgraphic | rfl
  · simp only [isAsciiGraphic, Bool.and_eq_true, decide_eq_true_eq, UInt8.le_iff_toNat_le,
      UInt8.reduceToNat] at hgraphic
    simp only [Bool.or_eq_true, Bool.and_eq_true, decide_eq_true_eq, bne_iff_ne, ne_eq,
      UInt8.le_iff_toNat_le, UInt8.reduceToNat, ← UInt8.toNat_inj]
    omega
  · rfl

/-- Two headers with the same values are of the same tokens. -/
theorem subprotocolHeader_inj {csid' version' : String} (hcsid : isSubprotocolToken csid = true)
    (hversion : isSubprotocolToken version = true) (hcsid' : isSubprotocolToken csid' = true)
    (hversion' : isSubprotocolToken version' = true)
    (h : subprotocolHeader csid version = subprotocolHeader csid' version') :
    csid = csid' ∧ version = version' := by
  have hvalues := congrArg headerValues h
  rw [headerValues_subprotocolHeader hcsid hversion,
    headerValues_subprotocolHeader hcsid' hversion'] at hvalues
  simp only [egressSubprotocols, List.cons.injEq, and_true, true_and] at hvalues
  exact hvalues

/-- What `connect` sends has the values of a token. -/
theorem EgressTunnel.request_eq_ok {intoRequest : String → Except String Unit} {url header : String}
    (h : request intoRequest url csid = .ok header) :
    isSubprotocolToken csid = true ∧ header = subprotocolHeader csid protocolVersion := by
  unfold request at h
  split at h
  case isTrue => simp at h
  case isFalse htoken =>
    have htoken : isSubprotocolToken csid = true := by simpa using htoken
    split at h
    case h_1 => simp at h
    case h_2 =>
      rw [headerValue_subprotocolHeader htoken isSubprotocolToken_version] at h
      exact ⟨htoken, (Except.ok.inj h).symm⟩

/-- For tokens, the header has visible bytes and spaces only, so that it can be built, and the
egress reads exactly three values from it, which give back the ID and the version. Different tokens
have different headers. Whatever the ID, `connect` sends no header with another number of values: a
request has three, and its outcome depends on what the server does with such headers only. -/
theorem subprotocols_round_trip :
    (∀ csid version, isSubprotocolToken csid = true → isSubprotocolToken version = true →
      (∀ byte ∈ utf8 (subprotocolHeader csid version), isAsciiGraphic byte = true ∨ byte = 32) ∧
      headerValue (subprotocolHeader csid version) = .ok (subprotocolHeader csid version) ∧
      (headerValues (subprotocolHeader csid version)).length = 3 ∧
      parseEgressSubprotocols (headerValues (subprotocolHeader csid version)) =
        some (csid, version)) ∧
    (∀ csid version csid' version', isSubprotocolToken csid = true →
      isSubprotocolToken version = true → isSubprotocolToken csid' = true →
      isSubprotocolToken version' = true →
      subprotocolHeader csid version = subprotocolHeader csid' version' →
      csid = csid' ∧ version = version') ∧
    (∀ intoRequest url csid header, EgressTunnel.request intoRequest url csid = .ok header →
      (headerValues header).length = 3) ∧
    ∀ intoRequest url csid (dial dial' : String → Dialed),
      (∀ header, (headerValues header).length = 3 → dial header = dial' header) →
      EgressTunnel.connectWithTimeout intoRequest dial url csid =
        EgressTunnel.connectWithTimeout intoRequest dial' url csid := by
  have hthree : ∀ intoRequest url csid header,
      EgressTunnel.request intoRequest url csid = .ok header →
      (headerValues header).length = 3 := by
    intro intoRequest url csid header h
    obtain ⟨htoken, rfl⟩ := EgressTunnel.request_eq_ok h
    rw [headerValues_subprotocolHeader htoken isSubprotocolToken_version]
    rfl
  refine ⟨fun csid version hcsid hversion ↦ ?_, fun _ _ _ _ hcsid hversion hcsid' hversion' h ↦ ?_,
    hthree, fun intoRequest url csid dial dial' hdial ↦ ?_⟩
  · refine ⟨fun byte hbyte ↦ byte_of_header hcsid hversion hbyte,
      headerValue_subprotocolHeader hcsid hversion, ?_, ?_⟩
    · rw [headerValues_subprotocolHeader hcsid hversion]
      rfl
    · rw [headerValues_subprotocolHeader hcsid hversion]
      rfl
  · exact subprotocolHeader_inj hcsid hversion hcsid' hversion' h
  · unfold EgressTunnel.connectWithTimeout
    cases hrequest : EgressTunnel.request intoRequest url csid with
    | error error => rfl
    | ok header =>
        exact congrArg EgressTunnel.negotiated
          (hdial header (hthree intoRequest url csid header hrequest))

/-- The header of a base64 ID. -/
theorem subprotocols_round_trip_of_base64 :
    subprotocolHeader "a1B2/c3+d4=" protocolVersion = "un80und3d, a1B2/c3+d4=, v2.3.0" ∧
    parseEgressSubprotocols (headerValues (subprotocolHeader "a1B2/c3+d4=" protocolVersion)) =
      some ("a1B2/c3+d4=", protocolVersion) := by
  refine ⟨by decide, ?_⟩
  exact (subprotocols_round_trip.1 "a1B2/c3+d4=" protocolVersion (by decide)
    isSubprotocolToken_version).2.2.2

end Unbounded.Egress
