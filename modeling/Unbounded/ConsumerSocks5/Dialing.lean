import Unbounded.ConsumerSocks5.Dialer

/-!
# What a SOCKS5 dialer does

The calls of `connect_socks5` beside a broker, over every interleaving: with the polls of the
broker, with other calls, with cancellation, and with any cut of the bytes into reads and writes. A
call is sound when what went over its stream is a conversation of the handshake for its target that
has brought it to where it stands. `dialing` reads off what callers rely on.
-/

namespace Unbounded.ConsumerSocks5

open Execution (getElem?_append_cases getElem?_set_cases map_set_slot)
open ConsumerQuic (Broker DialOp QuicError)
open Tokio (Conversation Duplex Ending)

/-! ## The calls of `open_bi` -/

namespace Dialer

variable {broker following : Broker} {event : Option ConsumerQuic.Event}

/-- A step moves no call of `open_bi` but its own. -/
theorem dials_of_next {op : ConsumerQuic.Op} {index : Nat}
    (h : ConsumerQuic.next broker op = some (event, following))
    (hindex : index < broker.dials.length) (hother : ∀ step, op ≠ .dial index step) :
    following.dials[index]? = broker.dials[index]? := by
  cases ConsumerQuic.move_of_next h with
  | run => rfl
  | openBi => exact List.getElem?_append_left hindex
  | @dial other step =>
      have hne : other ≠ index := fun heq ↦ hother step (by rw [heq])
      exact List.getElem?_set_ne hne

/-- No call of `open_bi` is removed. -/
theorem length_dials_of_next {op : ConsumerQuic.Op}
    (h : ConsumerQuic.next broker op = some (event, following)) :
    broker.dials.length ≤ following.dials.length := by
  cases ConsumerQuic.move_of_next h with
  | run => exact Nat.le_refl _
  | openBi => simp
  | dial => simp

/-- A call of `open_bi` is cancelled only when it sees the token cancelled. -/
theorem cancelled_of_next {op : DialOp} {index seen : Nat} {call : Call}
    (h : ConsumerQuic.next broker (.dial index op) = some (event, following))
    (hshows : call.shows op = true)
    (hafter : following.dials[index]? = some ⟨seen, .returned (.error .cancelled)⟩) :
    call.cancelled = true := by
  cases ConsumerQuic.move_of_next h with
  | @dial _ _ dial after hdial hstep =>
      rcases getElem?_set_cases hafter with ⟨_, hmoved⟩ | ⟨hne, _⟩
      · rw [← hmoved] at hstep
        cases ConsumerQuic.dialMove_of_step hstep with
        | cancelledOpening => exact (decide_eq_true_eq.mp hshows).symm
        | cancelledWaiting => exact (decide_eq_true_eq.mp hshows).symm
      · exact absurd rfl hne

/-- Why a call of `open_bi` fails. -/
def DialFailure (error : QuicError) : Prop :=
  error = .cancelled ∨ error = .brokerStopped ∨ ∃ source, error = .stream source

/-- A call of `open_bi` fails for one of three reasons. -/
theorem failure_of_exec {log : ConsumerQuic.Log} (h : ConsumerQuic.Exec .new log broker)
    {index seen : Nat} {error : QuicError}
    (hdial : broker.dials[index]? = some ⟨seen, .returned (.error error)⟩) :
    DialFailure error := by
  induction h generalizing seen with
  | refl => simp [Broker.new] at hdial
  | snoc _ hnext ih =>
      cases ConsumerQuic.move_of_next hnext with
      | run => exact ih hdial
      | openBi =>
          rcases getElem?_append_cases hdial with ⟨_, hnew⟩ | ⟨_, hold⟩
          · simp at hnew
          · exact ih hold
      | dial hbefore hstep =>
          rcases getElem?_set_cases hdial with ⟨_, hmoved⟩ | ⟨_, hold⟩
          · rw [← hmoved] at hstep
            cases ConsumerQuic.dialMove_of_step hstep with
            | failed => exact .inr (.inr ⟨_, rfl⟩)
            | cancelledOpening => exact .inl rfl
            | cancelledWaiting => exact .inl rfl
            | stopped => exact .inr (.inl rfl)
          · exact ih hold

end Dialer

/-! ## Sound calls -/

namespace Call

/-- Where a call stands against the calls of `open_bi` and the conversation on its stream. -/
inductive Stands (broker : Broker) (dial : Nat) (token : Bool) : CallControl →
    Execution.Log Conversation.Input Conversation.Transfer → Conversation Socks5Error Unit →
    Prop where
  | opening {conversation}
      (hcancelled : ∀ seen, broker.dials[dial]? = some ⟨seen, .returned (.error .cancelled)⟩ →
        token = true) :
      Stands broker dial token .opening [] conversation
  | handshaking {connection polled log conversation seen}
      (hdial : broker.dials[dial]? = some ⟨seen, .returned (.ok connection)⟩) :
      Stands broker dial token (.handshaking connection polled conversation) log conversation
  | connected {connection log seen}
      (hdial : broker.dials[dial]? = some ⟨seen, .returned (.ok connection)⟩) :
      Stands broker dial token (.returned (.ok connection)) log (.finished (.ok ()))
  | refused {error log conversation seen} (herror : error ≠ .cancelled)
      (hdial : broker.dials[dial]? = some ⟨seen, .returned (.error error)⟩) :
      Stands broker dial token (.returned (.error (.quic error))) log conversation
  | cancelled {log conversation} (htoken : token = true) :
      Stands broker dial token (.returned (.error .cancelled)) log conversation
  | failed {error log} :
      Stands broker dial token (.returned (.error (.handshake error))) log
        (.finished (.error error))
  | dropped {log conversation} : Stands broker dial token .dropped log conversation

/-- What went over the stream of a call is a conversation that has brought it to where it stands. -/
def Sound (broker : Broker) (moved : List Conversation.Transfer) (call : Call) : Prop :=
  ∃ log conversation,
    Execution.Exec (Conversation.next .io) (socks5Script call.target).start log conversation ∧
    Conversation.transfers log = moved ∧
    Stands broker call.dial call.cancelled call.control log conversation

variable {broker following : Broker} {moved : List Conversation.Transfer} {call : Call}

/-- A call does not notice a step of the broker that leaves its `open_bi` alone. -/
theorem Sound.frame (h : call.Sound broker moved)
    (hsame : following.dials[call.dial]? = broker.dials[call.dial]?) :
    call.Sound following moved := by
  obtain ⟨dial, target, token, control⟩ := call
  obtain ⟨log, conversation, hexec, hmoved, hstands⟩ := h
  refine ⟨log, conversation, hexec, hmoved, ?_⟩
  cases hstands with
  | opening hcancelled => exact .opening fun seen hdial ↦ hcancelled seen (hsame.symm.trans hdial)
  | handshaking hdial => exact .handshaking (hsame.trans hdial)
  | connected hdial => exact .connected (hsame.trans hdial)
  | refused herror hdial => exact .refused herror (hsame.trans hdial)
  | cancelled htoken => exact .cancelled htoken
  | failed => exact .failed
  | dropped => exact .dropped

/-- A new call has sent and received nothing. -/
theorem Sound.connect {dial : Nat} (target : Socks5Target) (token : Bool)
    (h : ∀ seen result, broker.dials[dial]? ≠ some ⟨seen, .returned result⟩) :
    Sound broker [] ⟨dial, target, token, .opening⟩ :=
  ⟨[], _, .refl, rfl, .opening fun seen hdial ↦ absurd hdial (h seen _)⟩

/-- Cancelling the token of a call moves nothing on its stream. -/
theorem Sound.cancel (h : call.Sound broker moved) :
    Sound broker moved { call with cancelled := true } := by
  obtain ⟨dial, target, token, control⟩ := call
  obtain ⟨log, conversation, hexec, hmoved, hstands⟩ := h
  refine ⟨log, conversation, hexec, hmoved, ?_⟩
  cases hstands with
  | opening => exact .opening fun _ _ ↦ rfl
  | handshaking hdial => exact .handshaking hdial
  | connected hdial => exact .connected hdial
  | refused herror hdial => exact .refused herror hdial
  | cancelled => exact .cancelled rfl
  | failed => exact .failed
  | dropped => exact .dropped

/-- A call stays sound in a step of its `open_bi`, which shows it the token. -/
theorem Sound.dial {op : DialOp} {event : Option ConsumerQuic.Event}
    (h : call.Sound broker moved) (hcontrol : call.control = .opening)
    (hshows : call.shows op = true)
    (hnext : ConsumerQuic.next broker (.dial call.dial op) = some (event, following)) :
    call.Sound following moved := by
  obtain ⟨log, conversation, hexec, hmoved, hstands⟩ := h
  refine ⟨log, conversation, hexec, hmoved, ?_⟩
  rw [hcontrol] at hstands ⊢
  cases hstands with
  | opening =>
      exact .opening fun _ hafter ↦ Dialer.cancelled_of_next hnext hshows hafter

/-- A conversation on a stream of a connection goes on or gives the call its result. -/
theorem stands_settle {token : Bool} {dial connection seen : Nat}
    {log : Execution.Log Conversation.Input Conversation.Transfer}
    (conversation : Conversation Socks5Error Unit)
    (hdial : broker.dials[dial]? = some ⟨seen, .returned (.ok connection)⟩) :
    Stands broker dial token (.settle connection conversation) log conversation := by
  match conversation with
  | .finished (.ok ()) => exact .connected hdial
  | .finished (.error error) => exact .failed
  | .reading .. => exact .handshaking hdial
  | .writing .. => exact .handshaking hdial

/-- A call stays sound when it goes on with the result of `open_bi`. -/
theorem Sound.opened {seen : Nat} {result : ConsumerQuic.OpenResult}
    (h : call.Sound broker moved) (hcontrol : call.control = .opening)
    (hdial : broker.dials[call.dial]? = some ⟨seen, .returned result⟩) :
    Sound broker moved { call with control := call.afterOpening result } := by
  obtain ⟨log, conversation, hexec, hmoved, hstands⟩ := h
  rw [hcontrol] at hstands
  cases hstands with
  | opening hcancelled =>
      refine ⟨[], _, .refl, hmoved, ?_⟩
      unfold afterOpening
      split
      case h_1 connection =>
        split
        case isTrue htoken => exact .cancelled htoken
        case isFalse => exact stands_settle (socks5Script call.target).start hdial
      case h_2 => exact .cancelled (hcancelled seen hdial)
      case h_3 error hne => exact .refused hne hdial

/-- A call stays sound when a poll begins, or ends, without a byte. -/
theorem Sound.poll {connection : Nat} {polled : Bool} {current : Conversation Socks5Error Unit}
    (h : call.Sound broker moved)
    (hcontrol : call.control = .handshaking connection polled current) (again : Bool) :
    Sound broker moved { call with control := .handshaking connection again current } := by
  obtain ⟨log, conversation, hexec, hmoved, hstands⟩ := h
  refine ⟨log, conversation, hexec, hmoved, ?_⟩
  rw [hcontrol] at hstands
  cases hstands with
  | handshaking hdial => exact .handshaking hdial

/-- A call stays sound when it ends without a step of its conversation. -/
theorem Sound.leave (h : call.Sound broker moved) {control : CallControl}
    (hcontrol : control = .returned (.error .cancelled) ∧ call.cancelled = true ∨
      control = .dropped) :
    Sound following moved { call with control := control } := by
  obtain ⟨log, conversation, hexec, hmoved, _⟩ := h
  refine ⟨log, conversation, hexec, hmoved, ?_⟩
  rcases hcontrol with ⟨rfl, htoken⟩ | rfl
  · exact .cancelled htoken
  · exact .dropped

/-- A call stays sound when its stream becomes ready. -/
theorem Sound.stream {connection : Nat} {polled : Bool} {input : Conversation.Input}
    {transfer : Conversation.Transfer} {current after : Conversation Socks5Error Unit}
    (h : call.Sound broker moved)
    (hcontrol : call.control = .handshaking connection polled current)
    (hnext : Conversation.next .io current input = some (transfer, after)) :
    Sound broker (transfer :: moved) { call with control := .settle connection after } := by
  obtain ⟨log, conversation, hexec, hmoved, hstands⟩ := h
  rw [hcontrol] at hstands
  cases hstands with
  | handshaking hdial =>
      refine ⟨(input, transfer) :: log, after, hexec.snoc hnext, ?_, stands_settle after hdial⟩
      rw [← hmoved]
      rfl

end Call

/-! ## Whole runs -/

namespace Dialer

/-- A broker and its callers against their log. -/
structure Dialed (log : Log) (dialer : Dialer) : Prop where
  broker : ConsumerQuic.Exec .new (brokerLog log) dialer.broker
  sound : ∀ (index : Nat) (call : Call), dialer.calls[index]? = some call →
    call.Sound dialer.broker (transfers index log)
  bound : ∀ call ∈ dialer.calls, call.dial < dialer.broker.dials.length
  distinct : (dialer.calls.map Call.dial).Nodup
  silent : ∀ index, dialer.calls.length ≤ index → transfers index log = []

variable {log : Log} {dialer following : Dialer}

/-- A dialer that has made no calls. -/
theorem Dialed.new : Dialed [] .new :=
  ⟨.refl, by simp [Dialer.new], by simp [Dialer.new], by simp [Dialer.new], fun _ _ ↦ rfl⟩

/-- A step without a transfer adds nothing to the transfers of a call. -/
theorem transfers_of_none {op : Op} {out : Out} (h : out.transfer = none) (index : Nat) :
    transfers index ((op, out) :: log) = transfers index log := by
  simp [transfers, h]

/-- A transfer on the stream of a call. -/
theorem transfers_self {op : Op} {index : Nat} {transfer : Conversation.Transfer}
    {performed : Option (ConsumerQuic.Op × Option ConsumerQuic.Event)} :
    transfers index ((op, ⟨performed, some (index, transfer)⟩) :: log) =
      transfer :: transfers index log := by
  simp [transfers]

/-- A transfer on the stream of another call. -/
theorem transfers_of_ne {op : Op} {index other : Nat} {transfer : Conversation.Transfer}
    {performed : Option (ConsumerQuic.Op × Option ConsumerQuic.Event)} (h : index ≠ other) :
    transfers other ((op, ⟨performed, some (index, transfer)⟩) :: log) =
      transfers other log := by
  simp [transfers, h]

/-- Two calls have calls of `open_bi` of their own. -/
theorem Dialed.dial_ne (h : Dialed log dialer) {index other : Nat} {call another : Call}
    (hcall : dialer.calls[index]? = some call) (hother : dialer.calls[other]? = some another)
    (hne : index ≠ other) : call.dial ≠ another.dial := by
  intro heq
  obtain ⟨hlt, _⟩ := List.getElem?_eq_some_iff.mp hcall
  refine hne ((List.getElem?_inj (by rwa [List.length_map]) h.distinct).mp ?_)
  rw [List.getElem?_map, List.getElem?_map, hcall, hother, Option.map_some, Option.map_some, heq]

/-- A step of one call, without the broker, keeps all calls in line with the log. -/
theorem Dialed.replace {op : Op} {out : Out} {index : Nat} {call moved : Call}
    (h : Dialed log dialer) (hcall : dialer.calls[index]? = some call)
    (hdial : moved.dial = call.dial) (hperformed : out.performed = none)
    (hsound : moved.Sound dialer.broker (transfers index ((op, out) :: log)))
    (hothers : ∀ other, index ≠ other → transfers other ((op, out) :: log) = transfers other log) :
    Dialed ((op, out) :: log) ⟨dialer.broker, dialer.calls.set index moved⟩ := by
  obtain ⟨hlt, _⟩ := List.getElem?_eq_some_iff.mp hcall
  refine ⟨?_, fun other another hother ↦ ?_, fun another hmem ↦ ?_, ?_, fun other hle ↦ ?_⟩
  · have hlog : brokerLog ((op, out) :: log) = brokerLog log :=
      List.filterMap_cons_none hperformed
    rw [hlog]
    exact h.broker
  · rcases getElem?_set_cases hother with ⟨rfl, rfl⟩ | ⟨hne, hsame⟩
    · exact hsound
    · rw [hothers other hne]
      exact h.sound other another hsame
  · rcases List.mem_or_eq_of_mem_set hmem with hold | rfl
    · exact h.bound another hold
    · rw [hdial]
      exact h.bound call (List.mem_of_getElem? hcall)
  · rw [map_set_slot hcall hdial]
    exact h.distinct
  · rw [List.length_set] at hle
    rw [hothers other (by omega)]
    exact h.silent other hle

/-- A step of the broker and its dialers, which may also move a call, keeps all calls in line with
the log. -/
theorem Dialed.perform {op : Op} {performed : ConsumerQuic.Op} {event : Option ConsumerQuic.Event}
    {broker : Broker} {calls : List Call} (h : Dialed log dialer)
    (hnext : ConsumerQuic.next dialer.broker performed = some (event, broker))
    (hdials : calls.map Call.dial = dialer.calls.map Call.dial)
    (hsound : ∀ (index : Nat) (call : Call), calls[index]? = some call →
      call.Sound broker (transfers index log)) :
    Dialed ((op, ⟨some (performed, event), none⟩) :: log) ⟨broker, calls⟩ := by
  refine ⟨h.broker.snoc hnext, fun index call hcall ↦ ?_, fun call hmem ↦ ?_, ?_,
    fun index hle ↦ ?_⟩
  · rw [transfers_of_none rfl]
    exact hsound index call hcall
  · have hdial : call.dial ∈ dialer.calls.map Call.dial := hdials ▸ List.mem_map_of_mem hmem
    obtain ⟨old, hold, heq⟩ := List.mem_map.mp hdial
    rw [← heq]
    exact Nat.lt_of_lt_of_le (h.bound old hold) (length_dials_of_next hnext)
  · show (calls.map Call.dial).Nodup
    rw [hdials]
    exact h.distinct
  · have hlength : calls.length = dialer.calls.length := by
      simpa using congrArg List.length hdials
    rw [transfers_of_none rfl]
    exact h.silent index (hlength ▸ hle)

/-- A step that belongs to no call leaves the calls alone. -/
theorem Dialed.foreign {performed : ConsumerQuic.Op} {event : Option ConsumerQuic.Event}
    {broker : Broker} (h : Dialed log dialer)
    (hnext : ConsumerQuic.next dialer.broker performed = some (event, broker))
    (hforeign : ∀ call ∈ dialer.calls, ∀ step, performed ≠ .dial call.dial step) (index : Nat)
    (call : Call) (hcall : dialer.calls[index]? = some call) :
    call.Sound broker (transfers index log) := by
  have hmem := List.mem_of_getElem? hcall
  exact (h.sound index call hcall).frame
    (dials_of_next hnext (h.bound call hmem) (hforeign call hmem))

/-- A step of a call's `open_bi` leaves the other calls alone. -/
theorem Dialed.others {index : Nat} {call : Call} {step : DialOp}
    {event : Option ConsumerQuic.Event} {broker : Broker} (h : Dialed log dialer)
    (hcall : dialer.calls[index]? = some call)
    (hnext : ConsumerQuic.next dialer.broker (.dial call.dial step) = some (event, broker))
    {other : Nat} {another : Call} (hother : dialer.calls[other]? = some another)
    (hne : index ≠ other) : another.Sound broker (transfers other log) := by
  refine (h.sound other another hother).frame
    (dials_of_next hnext (h.bound another (List.mem_of_getElem? hother)) fun other heq ↦ ?_)
  simp only [ConsumerQuic.Op.dial.injEq] at heq
  exact h.dial_ne hcall hother hne heq.1

/-- A call of `connect_socks5` begins with a call of `open_bi` of its own. -/
theorem Dialed.connect {seen : Nat} {event : Option ConsumerQuic.Event} {broker : Broker}
    (h : Dialed log dialer) (target : Socks5Target) (token : Bool)
    (hnext : ConsumerQuic.next dialer.broker (.openBi seen) = some (event, broker)) :
    Dialed ((.connect seen target token, ⟨some (.openBi seen, event), none⟩) :: log)
      ⟨broker, dialer.calls ++ [⟨dialer.broker.dials.length, target, token, .opening⟩]⟩ := by
  have hkept := h.foreign hnext (by simp)
  have hdials : broker.dials = dialer.broker.dials ++ [⟨seen, .reading⟩] := by
    cases ConsumerQuic.move_of_next hnext with
    | openBi => rfl
  refine ⟨h.broker.snoc hnext, fun index call hcall ↦ ?_, fun call hmem ↦ ?_, ?_,
    fun index hle ↦ ?_⟩
  · rw [transfers_of_none rfl]
    rcases getElem?_append_cases hcall with ⟨rfl, rfl⟩ | ⟨_, hold⟩
    · rw [h.silent _ (Nat.le_refl _)]
      refine .connect target token fun seen result hdial ↦ ?_
      rw [hdials, List.getElem?_concat_length] at hdial
      simp at hdial
    · exact hkept index call hold
  · rw [hdials, List.length_append, List.length_singleton]
    rcases List.mem_append.mp hmem with hold | hnew
    · exact Nat.lt_succ_of_lt (h.bound call hold)
    · rw [List.mem_singleton.mp hnew]
      exact Nat.lt_succ_self _
  · rw [List.map_append, List.map_singleton, List.nodup_append]
    refine ⟨h.distinct, by simp, fun dial hold other hnew ↦ ?_⟩
    obtain ⟨call, hcall, rfl⟩ := List.mem_map.mp hold
    rw [List.mem_singleton.mp hnew]
    exact Nat.ne_of_lt (h.bound call hcall)
  · rw [List.length_append, List.length_singleton] at hle
    rw [transfers_of_none rfl]
    exact h.silent index (by omega)

/-- Every step keeps a broker and its callers in line with their log. -/
theorem Dialed.step {op : Op} {out : Out} (h : Dialed log dialer)
    (hchange : Change dialer op out following) : Dialed ((op, out) :: log) following := by
  have hquiet : ∀ {index : Nat} {call moved : Call} {op : Op},
      dialer.calls[index]? = some call → moved.dial = call.dial →
      moved.Sound dialer.broker (transfers index log) →
      Dialed ((op, ⟨none, none⟩) :: log) ⟨dialer.broker, dialer.calls.set index moved⟩ :=
    fun hcall hdial hsound ↦ h.replace hcall hdial rfl (by rwa [transfers_of_none rfl])
      fun other _ ↦ transfers_of_none rfl other
  cases hchange with
  | @broker performed event broker hforeign hnext =>
      refine h.perform hnext rfl (h.foreign hnext fun call hmem step heq ↦ ?_)
      subst heq
      have hnot := List.all_eq_true.mp hforeign call hmem
      simp at hnot
  | connect hnext => exact h.connect _ _ hnext
  | cancel hcall => exact hquiet hcall rfl (h.sound _ _ hcall).cancel
  | @dial index step event broker call hcall hcontrol hshows hnext =>
      refine h.perform hnext rfl fun other another hother ↦ ?_
      by_cases hsame : index = other
      · subst hsame
        rw [hcall, Option.some.injEq] at hother
        subst hother
        exact (h.sound _ _ hcall).dial hcontrol hshows hnext
      · exact h.others hcall hnext hother hsame
  | opened hcall hcontrol hdial =>
      exact hquiet hcall rfl ((h.sound _ _ hcall).opened hcontrol hdial)
  | poll hcall hcontrol => exact hquiet hcall rfl ((h.sound _ _ hcall).poll hcontrol true)
  | interrupted hcall _ hcancelled =>
      exact hquiet hcall rfl ((h.sound _ _ hcall).leave (.inl ⟨rfl, hcancelled⟩))
  | stream hcall hcontrol hnext =>
      refine h.replace hcall rfl rfl ?_ fun other hne ↦ transfers_of_ne hne
      rw [transfers_self]
      exact (h.sound _ _ hcall).stream hcontrol hnext
  | pending hcall hcontrol => exact hquiet hcall rfl ((h.sound _ _ hcall).poll hcontrol false)
  | @dropOpening index event broker call hcall hcontrol hnext =>
      refine h.perform hnext (map_set_slot hcall rfl) fun other another hother ↦ ?_
      rcases getElem?_set_cases hother with ⟨rfl, rfl⟩ | ⟨hne, hsame⟩
      · exact (h.sound _ _ hcall).leave (.inr rfl)
      · exact h.others hcall hnext hsame hne
  | dropHandshaking hcall _ => exact hquiet hcall rfl ((h.sound _ _ hcall).leave (.inr rfl))

/-- Every run of a broker and its callers is in line with its log. -/
theorem Exec.dialed (h : Exec .new log dialer) : Dialed log dialer := by
  induction h with
  | refl => exact .new
  | snoc _ hnext ih => exact ih.step (change_of_next hnext)

/-! ## What callers rely on -/

/-- A client that has written a request has read that its method was accepted. -/
theorem prefix_sent {target : Socks5Target} {ending : Ending} {data bytes : Bytes}
    (h : bytes <+: sent target ending data) :
    bytes <+: [0x05, 0x01, 0x00] ∨
      ∃ encoded, request target = .ok encoded ∧ bytes <+: [0x05, 0x01, 0x00] ++ encoded ∧
        [0x05, 0x00] <+: data := by
  unfold sent at h
  split at h
  case h_2 => exact .inl h
  case h_1 encoded hviolation hrequest =>
    have hgreeting : ∀ check ∈ greetingChecks ending data, check.verdict = none :=
      fun check hcheck ↦ firstViolation_eq_none.mp hviolation check (List.mem_append_left _ hcheck)
    simp only [greetingChecks, List.forall_mem_cons, List.not_mem_nil, whole_eq_none,
      expect_eq_none] at hgreeting
    obtain ⟨hlength, hversion, hmethod, _⟩ := hgreeting
    obtain _ | ⟨version, _ | ⟨method, rest⟩⟩ := data
    · simp at hlength
    · simp at hlength
    · obtain rfl : version = 0x05 := hversion
      obtain rfl : method = 0x00 := hmethod
      exact .inr ⟨encoded, hrequest, h, ⟨rest, rfl⟩⟩

/-- A client whose bytes violate no check has written its request. -/
theorem sent_of_accepted {target : Socks5Target} {ending : Ending} {data : Bytes}
    (h : firstViolation (checks target ending data) = none) :
    ∃ encoded, request target = .ok encoded ∧
      sent target ending data = [0x05, 0x01, 0x00] ++ encoded := by
  have hchecks : checks target ending data =
      (greetingChecks ending data ++ [targetCheck target]) ++ replyChecks ending data := by
    rw [checks, List.append_assoc]
    rfl
  rw [hchecks, firstViolation_append, Option.or_eq_none_iff] at h
  have htarget := firstViolation_eq_none.mp h.1 (targetCheck target) (by simp)
  rcases targetCheck_verdict target with ⟨error, _, hverdict⟩ | ⟨encoded, hrequest, _⟩
  · simp [htarget] at hverdict
  · exact ⟨encoded, hrequest, by rw [sent, h.1, hrequest]⟩

/-- A handshake that succeeds on a stream has read exactly a handshake and has written its
request. -/
theorem handshake_of_run {target : Socks5Target} {chunks : List Bytes} {bytes : Bytes}
    (h : (socks5Connect target).run ⟨chunks, .silent, [], none⟩ =
      (.ok (), ⟨[], .silent, bytes, none⟩)) :
    target.Encodable ∧ Handshake chunks.flatten ∧
      ∃ encoded, request target = .ok encoded ∧ bytes = [0x05, 0x01, 0x00] ++ encoded := by
  have hfault : (⟨chunks, .silent, [], none⟩ : Duplex).writeFault = none := rfl
  have hrun := run_socks5Connect target hfault
  rw [h] at hrun
  cases hviolation : firstViolation (checks target .silent chunks.flatten) with
  | some violation =>
      simp only [Duplex.unread, hviolation, settle, Prod.mk.injEq, reduceCtorEq, false_and] at hrun
  | none =>
      simp only [Duplex.unread, hviolation, settle, Prod.mk.injEq, true_and] at hrun
      obtain ⟨hencodable, haccepted⟩ := (checks_eq_none target .silent chunks.flatten).mp hviolation
      obtain ⟨encoded, hrequest, hsent⟩ := sent_of_accepted hviolation
      have hrest : chunks.flatten.drop (handshakeLength chunks.flatten) = [] := by
        have hunread := congrArg Duplex.unread hrun
        rw [Duplex.unread_advance, Duplex.unread_write] at hunread
        exact hunread.symm
      have hbytes : bytes = sent target .silent chunks.flatten := congrArg Duplex.written hrun
      have hhandshake := haccepted.handshake
      rw [List.take_of_length_le (List.drop_eq_nil_iff.mp hrest)] at hhandshake
      exact ⟨hencodable, hhandshake, encoded, hrequest, hbytes.trans hsent⟩

/-- For every call of `connect_socks5` in every run of a broker and its callers, with any cut of the
bytes into reads and writes. A call returns a stream only on a connection that the broker had
published while the call was looking, and then it has read exactly one handshake of the server, and
has written its greeting and its request, and nothing else. A call that returns `Cancelled` has a
cancelled token, and a cancellation is never returned as an error of QUIC. A failed handshake has
the error that `socks5_connect` has on what was read, unless the stream itself failed. And wherever
a call stands, also when it was cancelled or dropped there, a request was written only after the
server accepted the method, and never more than the request for the call's own target. -/
theorem dialing (h : Exec .new log dialer) {index : Nat} {call : Call}
    (hcall : dialer.calls[index]? = some call) :
    (∀ connection, call.control = .returned (.ok connection) →
      call.target.Encodable ∧ Handshake (received index log).flatten ∧
      (∃ encoded, request call.target = .ok encoded ∧
        written index log = [0x05, 0x01, 0x00] ++ encoded) ∧
      ∃ earlier later middle, brokerLog log = later ++ earlier ∧
        ConsumerQuic.Exec .new earlier middle ∧ ConsumerQuic.Exec middle later dialer.broker ∧
        middle.publisher.watch.value = some connection ∧
        ∃ seen, middle.dials[call.dial]? = some ⟨seen, .reading⟩) ∧
    (call.control = .returned (.error .cancelled) → call.cancelled = true) ∧
    (∀ error, call.control = .returned (.error (.quic error)) →
      error = .brokerStopped ∨ ∃ source, error = .stream source) ∧
    (∀ error, call.control = .returned (.error (.handshake error)) →
      (∃ source, error = .io source) ∨ ∀ rest ending,
        (socks5Connect call.target).run ⟨received index log ++ rest, ending, [], none⟩ =
          (.error (.failed error), ⟨rest, ending, written index log, none⟩)) ∧
    (written index log <+: [0x05, 0x01, 0x00] ∨
      ∃ encoded, request call.target = .ok encoded ∧
        written index log <+: [0x05, 0x01, 0x00] ++ encoded ∧
        [0x05, 0x00] <+: (received index log).flatten) := by
  have hdialed := Exec.dialed h
  obtain ⟨dial, target, token, control⟩ := call
  obtain ⟨talk, conversation, hexec, hmoved, hstands⟩ := hdialed.sound index _ hcall
  refine ⟨?_, ?_, ?_, ?_, ?_⟩
  · rintro connection rfl
    cases hstands with
    | connected hdial =>
        rcases Conversation.intact_of_exec hexec with hintact | ⟨_, _, _, _, _, _, _, hbroken⟩
        · have hrun := Conversation.run_of_finished hexec hintact [] .silent
          rw [hmoved, List.append_nil, toIo_socks5Script] at hrun
          obtain ⟨hencodable, hhandshake, hrequest⟩ := handshake_of_run hrun
          exact ⟨hencodable, hhandshake, hrequest,
            ConsumerQuic.Exec.watched rfl hdialed.broker hdial rfl⟩
        · simp at hbroken
  · rintro rfl
    cases hstands with
    | cancelled htoken => exact htoken
  · rintro error rfl
    cases hstands with
    | refused herror hdial =>
        rcases failure_of_exec hdialed.broker hdial with hcancelled | hstopped | hstream
        · exact absurd hcancelled herror
        · exact .inl hstopped
        · exact .inr hstream
  · rintro error rfl
    cases hstands with
    | failed =>
        rcases Conversation.intact_of_exec hexec with hintact | ⟨_, _, _, source, _, _, _, hbroken⟩
        · refine .inr fun rest ending ↦ ?_
          have hrun := Conversation.run_of_finished hexec hintact rest ending
          rw [hmoved, toIo_socks5Script] at hrun
          exact hrun
        · simp only [Conversation.finished.injEq, Except.error.injEq] at hbroken
          exact .inl ⟨source, hbroken⟩
  · have hprefix := Conversation.writes_prefix hexec [] .silent
    have hfault : (⟨received index log, .silent, [], none⟩ : Duplex).writeFault = none := rfl
    rw [hmoved, List.append_nil, toIo_socks5Script] at hprefix
    have hsent : ((socks5Connect target).run
        ⟨received index log, .silent, [], none⟩).2.written =
          sent target .silent (received index log).flatten := by
      rw [run_socks5Connect target hfault, settle_written]
      rfl
    exact prefix_sent (hsent ▸ hprefix)

/-- The call has returned a stream on a connection. -/
def returnedOn (connection : Nat) (call : Call) : Bool :=
  match call.control with
  | .returned (.ok other) => other = connection
  | _ => false

/-- The test for a stream on a connection. -/
theorem control_of_returnedOn {connection : Nat} {call : Call}
    (h : returnedOn connection call = true) : call.control = .returned (.ok connection) := by
  unfold returnedOn at h
  split at h
  case h_1 hcontrol => rw [hcontrol, decide_eq_true_eq.mp h]
  case h_2 => simp at h

/-- A call whose greeting is written in two pieces, with a wait between them, and which succeeds. -/
theorem dialing_of_two_pieces : ∃ log dialer call,
    Exec .new log dialer ∧ dialer.calls[0]? = some call ∧
    call.control = .returned (.ok 0) ∧
    received 0 log = [[0x05], [0x00], [0x05, 0x00, 0x00, 0x01], [0, 0, 0, 0, 0, 80]] ∧
    Handshake (received 0 log).flatten ∧
    ∃ encoded, request (.ip (.v4 16777343 443)) = .ok encoded ∧
      written 0 log = [0x05, 0x01, 0x00] ++ encoded := by
  have hrun : (Execution.run next
      [.broker (.run (.pollIncoming false (.ready (some ())))),
        .broker (.run (.pollHandshake false (.ready (.ok ())))), .broker (.run .publish),
        .connect 0 (.ip (.v4 16777343 443)) false, .dial 0 .read,
        .dial 0 (.pollOpen false (.ready (.ok ())) false), .opened 0, .stream 0 (.accepts 2),
        .pending 0, .poll 0, .stream 0 (.accepts 1), .stream 0 (.delivers [0x05]),
        .stream 0 (.delivers [0x00]), .stream 0 (.accepts 10),
        .stream 0 (.delivers [0x05, 0x00, 0x00, 0x01]), .stream 0 (.delivers [0, 0, 0, 0, 0, 80])]
      ([], .new)).any (fun reached ↦
        reached.2.calls[0]?.any (fun call ↦ returnedOn 0 call && call.target =
          .ip (.v4 16777343 443)) &&
        received 0 reached.1 =
          [[0x05], [0x00], [0x05, 0x00, 0x00, 0x01], [0, 0, 0, 0, 0, 80]]) = true := by
    decide +kernel
  obtain ⟨⟨log, dialer⟩, hreached, htest⟩ := (Option.any_eq_true _ _).mp hrun
  simp only [Bool.and_eq_true, decide_eq_true_eq] at htest
  obtain ⟨call, hcall, hreturned⟩ := (Option.any_eq_true _ _).mp htest.1
  rw [Bool.and_eq_true, decide_eq_true_eq] at hreturned
  have hcontrol := control_of_returnedOn hreturned.1
  have hexec : Exec .new log dialer := Execution.exec_of_run hreached
  obtain ⟨_, hhandshake, hrequest, _⟩ := (dialing hexec hcall).1 0 hcontrol
  rw [hreturned.2] at hrequest
  exact ⟨log, dialer, call, hexec, hcall, hcontrol, htest.2, hhandshake, hrequest⟩

end Dialer

end Unbounded.ConsumerSocks5
