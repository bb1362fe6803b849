import Unbounded.Json.Lines
import Unbounded.Signaling.Advertisements
import Unbounded.Text.FormUrlencoded
import Unbounded.Wire.Signals
import Mathlib.Data.List.ReduceOption

/-!
# The signaling server over HTTP

`FreddieClient` of `src/signaling.rs`: the requests that it builds and what it makes of the
responses. The HTTP client is a function from requests to final responses, which may fail. It keeps
interim responses to itself and follows redirections on its own.

A server that reads the form of a request, asks a handler and writes its answer stands for what
signaling is meant to be. `exchange_transparent` says that HTTP adds nothing and takes nothing away:
an exchange hands the handler exactly the recipient, the kind and the payload it was called with,
whatever characters they have, and returns exactly the answer. `frames_advertised` says that the
stream of advertisements means the messages that were written to it.
-/

namespace Unbounded.Signaling

open Json (Inverted OneLine)
open Text (decodeForm decodeForm_encodeForm decodeUtf8 decodeUtf8_utf8 encodeForm utf8)
open Wire (decodeSignal kindNumber kindOfNumber signalValue toText)

/-! ## The client -/

/-- The methods of the client. -/
inductive Method where
  | get
  | post
  deriving DecidableEq, Repr

/-- A request of the client. -/
structure Request where
  method : Method
  url : String
  headers : List (String × Bytes)
  body : Bytes
  deriving DecidableEq, Repr

/-- A final response: its status, the chunks of its body and the failure that cuts the body off. -/
structure Response where
  status : UInt16
  chunks : List Bytes
  failure : Option String
  deriving DecidableEq, Repr

/-- `VERSION_HEADER`. -/
def versionHeader : String := "X-BF-Version"

/-- `FreddieClient`. -/
structure FreddieClient where
  endpoint : String
  version : String
  deriving DecidableEq, Repr

namespace FreddieClient

/-- `FreddieClient::with_client`, where `parse` is `Url::parse`. -/
def withClient (parse : String → Except String String) (endpoint version : String) :
    Except SignalingError FreddieClient :=
  match parse endpoint with
  | .ok endpoint => .ok ⟨endpoint, version⟩
  | .error error => .error (.invalidEndpoint error)

/-- `FreddieClient::new`, where `built` says whether there is an HTTP client. -/
def new (built : Except String Unit) (parse : String → Except String String) (endpoint : String) :
    Except SignalingError FreddieClient :=
  match built with
  | .ok () => withClient parse endpoint protocolVersion
  | .error source => .error (.nativeTransport source)

/-- The version of the protocol can be sent in a header. -/
theorem isHeaderValue_of_new {built : Except String Unit} {parse : String → Except String String}
    {endpoint : String} {client : FreddieClient} (h : new built parse endpoint = .ok client) :
    isHeaderValue (utf8 client.version) = true := by
  unfold new at h
  split at h
  case h_2 => cases h
  case h_1 =>
    unfold withClient at h
    split at h
    case h_2 => cases h
    case h_1 =>
      obtain rfl := Except.ok.inj h
      show isHeaderValue (utf8 protocolVersion) = true
      decide

/-- `RequestBuilder::header` with the version. A value that is no header value makes the later
`send` fail. -/
def withVersion (client : FreddieClient) (request : Request) : Except String Request :=
  if isHeaderValue (utf8 client.version) then
    .ok { request with headers := (versionHeader, utf8 client.version) :: request.headers }
  else .error "builder error"

/-- The fields of a posted form. -/
def formFields (sendTo : String) (kind : SignalMessageType) (payload : String) :
    List Text.FormField :=
  [(utf8 "data", utf8 payload), (utf8 "send-to", utf8 sendTo),
    (utf8 "type", utf8 (kindNumber kind).repr)]

/-- The request of `exchange`. -/
def exchangeRequest (client : FreddieClient) (sendTo : String) (kind : SignalMessageType)
    (payload : String) : Except String Request :=
  client.withVersion {
    method := .post
    url := client.endpoint
    headers := [("Content-Type", utf8 "application/x-www-form-urlencoded")]
    body := encodeForm (formFields sendTo kind payload) }

/-- `RequestBuilder::send`. -/
def send (transport : Request → Except String Response) (request : Except String Request) :
    Except SignalingError Response :=
  match request with
  | .error source => .error (.nativeTransport source)
  | .ok request =>
      match transport request with
      | .error source => .error (.nativeTransport source)
      | .ok response => .ok response

/-- `Response::bytes`. -/
def bytes (response : Response) : Except SignalingError Bytes :=
  match response.failure with
  | none => .ok response.chunks.flatten
  | some source => .error (.nativeTransport source)

/-- `FreddieClient::exchange`, where `parse` is `serde_json::from_slice`. -/
def exchange (parse : Bytes → Except String SignalMessage)
    (transport : Request → Except String Response) (client : FreddieClient) (sendTo : String)
    (kind : SignalMessageType) (payload : String) : Reply := do
  let response ← send transport (client.exchangeRequest sendTo kind payload)
  if response.status = 200 then
    let body ← bytes response
    if body.all isAsciiWhitespace then .ok none
    else
      match parse body with
      | .ok message => .ok (some message)
      | .error error => .error (.decode error)
  else if response.status = 418 then .error (.protocolVersion client.version)
  else if response.status = 404 then .error .recipientGone
  else .error (.http response.status)

/-- `FreddieClient::exchange_json`, with the payload as a JSON value. -/
def exchangeJson (parse : Bytes → Except String SignalMessage)
    (transport : Request → Except String Response) (client : FreddieClient) (sendTo : String)
    (kind : SignalMessageType) (payload : Json.Value) : Reply :=
  match toText payload with
  | .ok payload => client.exchange parse transport sendTo kind payload
  | .error error => .error (.decode error)

/-- `FreddieClient::advertisements`. There is no recipient, so that a missing resource is a status
like any other. -/
def advertisements (transport : Request → Except String Response) (client : FreddieClient) :
    Except SignalingError AdvertisementStream := do
  let response ← send transport
    (client.withVersion ⟨.get, client.endpoint, [], []⟩)
  if response.status = 200 then .ok (.new response.chunks)
  else if response.status = 418 then .error (.protocolVersion client.version)
  else .error (.http response.status)

end FreddieClient

/-! ## What a server makes of a request -/

/-- What a request asks for. -/
structure Posting where
  sendTo : String
  kind : SignalMessageType
  payload : String
  deriving DecidableEq, Repr

/-- The text of a field of a form. -/
def formText (fields : List Text.FormField) (name : String) : Option String :=
  (fields.lookup (utf8 name)).bind decodeUtf8

/-- The version that a request names. -/
def requestVersion (request : Request) : Option String :=
  (request.headers.lookup versionHeader).bind decodeUtf8

/-- The posting of a request. -/
def readPosting (request : Request) : Option Posting := do
  let fields ← decodeForm request.body
  let payload ← formText fields "data"
  let sendTo ← formText fields "send-to"
  let number ← fields.lookup (utf8 "type")
  let kind ← (Json.naturalOf number).bind kindOfNumber
  some ⟨sendTo, kind, payload⟩

/-- The statuses of a refusal. A status below 200 is that of an interim response, and one beyond
999 is no status. -/
def isRefusal (status : UInt16) : Bool :=
  200 < status && status < 1000

/-- What a handler answers: a message, nothing in time, or a refusal. -/
inductive Answer where
  | message (signal : SignalMessage)
  | nothing
  | refused (status : UInt16) (hstatus : isRefusal status = true)

/-- What an answer means to a caller of `exchange`. -/
def Answer.reply (version : String) : Answer → Reply
  | .message signal => .ok (some signal)
  | .nothing => .ok none
  | .refused status _ =>
      if status = 418 then .error (.protocolVersion version)
      else if status = 404 then .error .recipientGone
      else .error (.http status)

/-- The body of an answer, with white space at its end. -/
def Answer.body (quote : Bytes → Bytes) (blanks : Bytes) : Answer → Bytes
  | .message signal => (signalValue signal).print quote ++ blanks
  | .nothing => blanks
  | .refused _ _ => []

/-- The status of an answer. -/
def Answer.status : Answer → UInt16
  | .message _ | .nothing => 200
  | .refused status _ => status

/-- The posting and the version of a request are handed to a handler, and its answer is sent in
chunks. The response has no `Location`, so a client returns it also if its status is that of a
redirection. -/
def serve (quote : Bytes → Bytes) (blanks : Bytes) (cut : Bytes → List Bytes)
    (handler : String → Posting → Answer) (request : Request) : Except String Response :=
  match requestVersion request, readPosting request with
  | some version, some posting =>
      let answer := handler version posting
      .ok ⟨answer.status, cut (answer.body quote blanks), none⟩
  | _, _ => .ok ⟨400, [], none⟩

/-! ## Exchanges -/

/-- White space of JSON is white space. -/
theorem isAsciiWhitespace_of_isSpace {byte : UInt8} (h : Json.isSpace byte = true) :
    isAsciiWhitespace byte = true := by
  simp only [Json.isSpace, Bool.or_eq_true, beq_iff_eq, or_assoc] at h
  rcases h with rfl | rfl | rfl | rfl <;> decide

/-- The text of a message is not blank. -/
theorem print_not_blank (quote : Bytes → Bytes) (message : SignalMessage) (blanks : Bytes) :
    ((signalValue message).print quote ++ blanks).all isAsciiWhitespace = false :=
  rfl

/-- A message is read back with white space after it. -/
theorem decodeSignal_append {quote : Bytes → Bytes} (h : Inverted quote) {blanks : Bytes}
    (hblanks : ∀ byte ∈ blanks, Json.isSpace byte = true) (message : SignalMessage) :
    decodeSignal ((signalValue message).print quote ++ blanks) = .ok message := by
  rw [decodeSignal, Json.parse_print_append h _ hblanks, Option.bind_some,
    Wire.readSignalMessage_signalValue]

/-- The number of a kind is read back. -/
theorem kindOfNumber_naturalOf (kind : SignalMessageType) :
    (Json.naturalOf (utf8 (kindNumber kind).repr)).bind kindOfNumber = some kind := by
  cases kind <;> decide

/-- The form of a request is read as the posting it was written for. -/
theorem readPosting_exchangeRequest {request : Request} {client : FreddieClient} {sendTo : String}
    {kind : SignalMessageType} {payload : String}
    (h : client.exchangeRequest sendTo kind payload = .ok request) :
    requestVersion request = some client.version ∧
      readPosting request = some ⟨sendTo, kind, payload⟩ := by
  unfold FreddieClient.exchangeRequest FreddieClient.withVersion at h
  split at h
  case isFalse => cases h
  case isTrue =>
    obtain rfl := Except.ok.inj h
    have hsend : (utf8 "send-to" == utf8 "data") = false := by decide
    have htype : (utf8 "type" == utf8 "data") = false := by decide
    have hkind : (utf8 "type" == utf8 "send-to") = false := by decide
    constructor
    · simp [requestVersion, decodeUtf8_utf8]
    · simp [readPosting, decodeForm_encodeForm, FreddieClient.formFields, formText,
        List.lookup_cons, hsend, htype, hkind, decodeUtf8_utf8, kindOfNumber_naturalOf]

variable {quote : Bytes → Bytes} {blanks : Bytes} {cut : Bytes → List Bytes}

/-- A refusal is not a success. -/
theorem ne_of_isRefusal {status : UInt16} (h : isRefusal status = true) : status ≠ 200 := by
  rintro rfl
  cases h

/-- An exchange with a server that asks a handler. -/
theorem exchange_serve (hquote : Inverted quote)
    (hblanks : ∀ byte ∈ blanks, Json.isSpace byte = true) (hcut : ∀ body, (cut body).flatten = body)
    (client : FreddieClient) (hversion : isHeaderValue (utf8 client.version) = true)
    (handler : String → Posting → Answer) (sendTo : String) (kind : SignalMessageType)
    (payload : String) :
    client.exchange decodeSignal (serve quote blanks cut handler) sendTo kind payload =
      (handler client.version ⟨sendTo, kind, payload⟩).reply client.version := by
  obtain ⟨request, hrequest⟩ : ∃ request,
      client.exchangeRequest sendTo kind payload = .ok request := by
    rw [FreddieClient.exchangeRequest, FreddieClient.withVersion, if_pos hversion]
    exact ⟨_, rfl⟩
  obtain ⟨hread, hposting⟩ := readPosting_exchangeRequest hrequest
  rw [FreddieClient.exchange, hrequest]
  simp only [FreddieClient.send, serve, hread, hposting]
  cases handler client.version ⟨sendTo, kind, payload⟩ with
  | message signal =>
      simp only [Bind.bind, Except.bind, Answer.status, Answer.body, Answer.reply, if_true,
        FreddieClient.bytes, hcut, print_not_blank, Bool.false_eq_true, if_false,
        decodeSignal_append hquote hblanks]
  | nothing =>
      have hblank : blanks.all isAsciiWhitespace = true :=
        List.all_eq_true.mpr fun byte hbyte ↦ isAsciiWhitespace_of_isSpace (hblanks byte hbyte)
      simp [Bind.bind, Except.bind, Answer.status, Answer.body, Answer.reply, FreddieClient.bytes,
        hcut, hblank]
  | refused status hstatus =>
      simp only [Bind.bind, Except.bind, Answer.reply]
      exact if_neg (ne_of_isRefusal hstatus)

/-- The body of a stream of advertisements: each message on a line, and empty lines between them to
keep the connection alive. -/
def advertised (quote : Bytes → Bytes) (entries : List (Option SignalMessage)) : Bytes :=
  entries.flatMap fun
    | some message => (signalValue message).print quote ++ [10]
    | none => [10]

/-- The stream means the messages that were written. -/
theorem frames_advertised (hquote : Inverted quote) (hline : OneLine quote)
    (entries : List (Option SignalMessage)) :
    AdvertisementStream.frames decodeSignal (advertised quote entries) =
      entries.reduceOption.map fun message ↦ .ok (some message) := by
  induction entries with
  | nil => rfl
  | cons entry entries ih =>
      rw [advertised, List.flatMap_cons]
      rw [advertised] at ih
      cases entry with
      | none =>
          rw [List.reduceOption_cons_of_none, ← ih]
          exact AdvertisementStream.frames_blank List.not_mem_nil rfl
      | some message =>
          have hblank := print_not_blank quote message []
          rw [List.append_nil] at hblank
          have hmessage : AdvertisementStream.message decodeSignal
              ((signalValue message).print quote) = .ok (some message) := by
            rw [AdvertisementStream.message, Wire.decodeSignal_print hquote]
          rw [List.reduceOption_cons_of_some, List.map_cons, ← ih, ← hmessage]
          show AdvertisementStream.frames _ ((_ ++ [10]) ++ _) = _
          rw [List.append_assoc, List.singleton_append]
          exact AdvertisementStream.frames_line (Json.Value.newline_notMem_print hline _) hblank

end Unbounded.Signaling
