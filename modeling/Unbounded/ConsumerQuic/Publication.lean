import Unbounded.ConsumerQuic.Broker
import Mathlib.Data.List.Chain
import Mathlib.Data.List.Range

/-!
# What the broker publishes

Over every interleaving of the broker with its dialers, the watched value is the last publication,
and it is `None` or the connection accepted last. Every accepted connection is published once, the
publications of two connections are separated by a `None`, and a broker that has returned leaves
`None` behind and a closed endpoint (`Publication`). A call of `open_bi` opens streams only on a
connection that it read from the channel, so a call that begins after the broker has returned ends
with `BrokerStopped` or `Cancelled`. `broker_publication` puts this together.
-/

namespace Unbounded.ConsumerQuic

open Execution (getElem?_set_cases getElem?_append_cases)
open Tokio (Poll Watch)

variable {publisher following : Publisher} {log : Log} {broker : Broker}

/-! ## The steps of the broker -/

/-- The moves of `run` that touch nothing but its own control. -/
inductive Quiet : Control → Control → Prop where
  | pending {control : Control} : Quiet control control
  | incoming : Quiet .accepting .handshaking
  | failed : Quiet .handshaking .accepting
  | closed {connection : Nat} : Quiet (.serving connection) .withdrawing
  | stopAccepting {result : Except QuicError Unit} : Quiet .accepting (.closing result)
  | stopHandshaking {result : Except QuicError Unit} : Quiet .handshaking (.closing result)
  | stopServing {connection : Nat} {result : Except QuicError Unit} :
      Quiet (.serving connection) (.closing result)

/-- The future of `run` waits. -/
inductive Waits : Control → Prop where
  | accepting : Waits .accepting
  | handshaking : Waits .handshaking
  | serving {connection : Nat} : Waits (.serving connection)

/-- Everything a step of `run` can be. -/
inductive Change (publisher : Publisher) : Option Event → Publisher → Prop where
  | quiet {control : Control} (hquiet : Quiet publisher.control control) :
      Change publisher none { publisher with control := control }
  | accepted (hcontrol : publisher.control = .handshaking) :
      Change publisher (some (.accepted publisher.established)) { publisher with
        established := publisher.established + 1
        control := .publishing publisher.established }
  | published {connection : Nat} (hcontrol : publisher.control = .publishing connection) :
      Change publisher (some (.published (some connection))) { publisher with
        watch := publisher.watch.sendReplace (some connection)
        control := .serving connection }
  | withdrawn (hcontrol : publisher.control = .withdrawing) :
      Change publisher (some (.published none)) { publisher with
        watch := publisher.watch.sendReplace none
        control := .accepting }
  | closed {result : Except QuicError Unit} (hcontrol : publisher.control = .closing result) :
      Change publisher none { publisher with
        endpointClosed := true
        control := .clearing result }
  | cleared {result : Except QuicError Unit} (hcontrol : publisher.control = .clearing result) :
      Change publisher (some (.published none)) { publisher with
        watch := publisher.watch.sendReplace none
        control := .leaving result }
  | finished {result : Except QuicError Unit} (hcontrol : publisher.control = .leaving result) :
      Change publisher none { publisher with
        watch := publisher.watch.close
        control := .returned result }
  | dropped (hwaits : Waits publisher.control) :
      Change publisher none { publisher with
        watch := publisher.watch.close
        control := .dropped }
  | closedEndpoint : Change publisher none { publisher with endpointClosed := true }

/-- Polling the wait for an incoming connection moves the control alone. -/
theorem quiet_afterIncoming (cancelled : Bool) (incoming : Poll (Option Unit)) :
    Quiet .accepting (.afterIncoming cancelled incoming) := by
  cases cancelled with
  | true => exact .stopAccepting
  | false =>
      rcases incoming with _ | (_ | _)
      · exact .pending
      · exact .stopAccepting
      · exact .incoming

/-- Polling the wait for the connection to close moves the control alone. -/
theorem quiet_afterServing (connection : Nat) (cancelled closed : Bool) :
    Quiet (.serving connection) (.afterServing connection cancelled closed) := by
  cases cancelled with
  | true => exact .stopServing
  | false =>
      cases closed with
      | true => exact .closed
      | false => exact .pending

/-- Every step of `run` is a `Change`. -/
theorem change_of_next {op : RunOp} {event : Option Event}
    (h : publisher.next op = some (event, following)) : Change publisher event following := by
  cases op with
  | pollIncoming cancelled incoming =>
      simp only [Publisher.next] at h
      split at h
      case h_2 => simp at h
      case h_1 hcontrol =>
        simp only [Option.some.injEq, Prod.mk.injEq] at h
        obtain ⟨rfl, rfl⟩ := h
        exact .quiet (hcontrol ▸ quiet_afterIncoming cancelled incoming)
  | pollHandshake cancelled outcome =>
      simp only [Publisher.next] at h
      split at h
      case h_2 => simp at h
      case h_1 hcontrol =>
        split at h
        case isTrue =>
          simp only [Option.some.injEq, Prod.mk.injEq] at h
          obtain ⟨rfl, rfl⟩ := h
          exact .quiet (hcontrol ▸ .stopHandshaking)
        case isFalse =>
          rcases outcome with _ | (error | _)
          · simp only [Option.some.injEq, Prod.mk.injEq] at h
            obtain ⟨rfl, rfl⟩ := h
            exact .quiet .pending
          · simp only [Option.some.injEq, Prod.mk.injEq] at h
            obtain ⟨rfl, rfl⟩ := h
            exact .quiet (hcontrol ▸ .failed)
          · simp only [Option.some.injEq, Prod.mk.injEq] at h
            obtain ⟨rfl, rfl⟩ := h
            exact .accepted hcontrol
  | pollServing cancelled closed =>
      simp only [Publisher.next] at h
      split at h
      case h_2 => simp at h
      case h_1 connection hcontrol =>
        simp only [Option.some.injEq, Prod.mk.injEq] at h
        obtain ⟨rfl, rfl⟩ := h
        exact .quiet (hcontrol ▸ quiet_afterServing connection cancelled closed)
  | dropRun =>
      simp only [Publisher.next] at h
      split at h
      case h_4 => simp at h
      case h_1 hcontrol =>
        simp only [Option.some.injEq, Prod.mk.injEq] at h
        obtain ⟨rfl, rfl⟩ := h
        exact .dropped (hcontrol ▸ .accepting)
      case h_2 hcontrol =>
        simp only [Option.some.injEq, Prod.mk.injEq] at h
        obtain ⟨rfl, rfl⟩ := h
        exact .dropped (hcontrol ▸ .handshaking)
      case h_3 hcontrol =>
        simp only [Option.some.injEq, Prod.mk.injEq] at h
        obtain ⟨rfl, rfl⟩ := h
        exact .dropped (hcontrol ▸ .serving)
  | closeEndpoint =>
      simp only [Publisher.next, Option.some.injEq, Prod.mk.injEq] at h
      obtain ⟨rfl, rfl⟩ := h
      exact .closedEndpoint
  | publish | withdraw | close | clear | finish =>
      simp only [Publisher.next] at h
      split at h
      case h_2 => simp at h
      case h_1 hcontrol =>
        simp only [Option.some.injEq, Prod.mk.injEq] at h
        obtain ⟨rfl, rfl⟩ := h
        first
        | exact .published hcontrol
        | exact .withdrawn hcontrol
        | exact .closed hcontrol
        | exact .cleared hcontrol
        | exact .finished hcontrol

/-! ## Publications -/

/-- The connections that `accept` returned, oldest first. -/
def accepted : Log → List Nat
  | [] => []
  | (_, some (.accepted connection)) :: log => accepted log ++ [connection]
  | _ :: log => accepted log

/-- The values that `run` published, oldest first. -/
def published : Log → List (Option Nat)
  | [] => []
  | (_, some (.published value)) :: log => published log ++ [value]
  | _ :: log => published log

/-- The connection that was accepted and is not yet published. -/
def Control.accepted : Control → List Nat
  | .publishing connection => [connection]
  | _ => []

/-- A connection may be published at this point. -/
def Control.shows : Control → Bool
  | .accepting | .handshaking | .publishing _ | .leaving _ | .returned _ => false
  | .serving _ | .withdrawing | .closing _ | .clearing _ | .dropped => true

/-- The endpoint was closed by `run`. -/
def Control.shut : Control → Bool
  | .clearing _ | .leaving _ | .returned _ => true
  | _ => false

/-- The accepted connections, the publications and the watched value agree. -/
structure Publication (log : Log) (publisher : Publisher) : Prop where
  taken : accepted log = List.range publisher.established
  announced : (published log).filterMap id ++ publisher.control.accepted =
    List.range publisher.established
  separated : (published log).IsChain fun earlier later ↦ earlier = none ∨ later = none
  value : publisher.watch.value = (published log).getLast?.join
  hidden : publisher.control.shows = false → publisher.watch.value = none
  current : publisher.watch.value = none ∨
    publisher.watch.value = (List.range publisher.established).getLast?
  shut : publisher.control.shut = true → publisher.endpointClosed = true

/-- Nothing is published at first. -/
theorem Publication.new : Publication [] .new where
  taken := rfl
  announced := rfl
  separated := .nil
  value := rfl
  hidden := fun _ ↦ rfl
  current := .inl rfl
  shut := fun h ↦ by simp [Publisher.new, Control.shut] at h

/-- A step that shows nothing keeps the agreement. -/
theorem Publication.quiet (h : Publication log publisher) {op : Op} {control : Control}
    {endpointClosed : Bool} {watch : Watch (Option Nat)}
    (hwatch : watch.value = publisher.watch.value)
    (haccepted : control.accepted = publisher.control.accepted)
    (hshows : control.shows = false → publisher.control.shows = false)
    (hshut : control.shut = true → endpointClosed = true) :
    Publication ((op, none) :: log) { publisher with
      watch := watch
      endpointClosed := endpointClosed
      control := control } where
  taken := h.taken
  announced := haccepted ▸ h.announced
  separated := h.separated
  value := hwatch.trans h.value
  hidden := fun hhidden ↦ hwatch.trans (h.hidden (hshows hhidden))
  current := hwatch ▸ h.current
  shut := hshut

/-- Publishing `None` withdraws what was published. -/
theorem Publication.withdraw (h : Publication log publisher) {op : Op} {control : Control}
    (hbefore : publisher.control.accepted = []) (hafter : control.accepted = [])
    (hshut : control.shut = true → publisher.endpointClosed = true) :
    Publication ((op, some (.published none)) :: log) { publisher with
      watch := publisher.watch.sendReplace none
      control := control } where
  taken := h.taken
  announced := by
    have hpublished := h.announced
    rw [hbefore] at hpublished
    rw [hafter]
    simpa [published] using hpublished
  separated := List.isChain_append.mpr ⟨h.separated, .singleton _, by simp⟩
  value := by simp [published, Watch.sendReplace]
  hidden := fun _ ↦ rfl
  current := .inl rfl
  shut := hshut

/-- Publishing a connection, when none is published, keeps the agreement. -/
theorem Publication.publish (h : Publication log publisher) {op : Op} {connection : Nat}
    (hcontrol : publisher.control = .publishing connection) :
    Publication ((op, some (.published (some connection))) :: log) { publisher with
      watch := publisher.watch.sendReplace (some connection)
      control := .serving connection } where
  taken := h.taken
  announced := by
    have hpublished := h.announced
    rw [hcontrol] at hpublished
    simpa [published, Control.accepted] using hpublished
  separated := by
    refine List.isChain_append.mpr ⟨h.separated, .singleton _, fun last hlast _ _ ↦ .inl ?_⟩
    -- the last publication is the watched value, and nothing is shown while `run` publishes
    have hvalue := h.value
    rw [h.hidden (by rw [hcontrol]; rfl), Option.mem_def.mp hlast] at hvalue
    exact hvalue.symm
  value := by simp [published, Watch.sendReplace]
  hidden := fun hhidden ↦ by simp [Control.shows] at hhidden
  current := by
    have hpublished := h.announced
    rw [hcontrol] at hpublished
    refine .inr ?_
    show some connection = (List.range publisher.established).getLast?
    rw [← hpublished]
    simp [Control.accepted]
  shut := fun hshut ↦ by simp [Control.shut] at hshut

/-- Accepting a connection, when none is published, keeps the agreement. -/
theorem Publication.accept (h : Publication log publisher) {op : Op}
    (hcontrol : publisher.control = .handshaking) :
    Publication ((op, some (.accepted publisher.established)) :: log) { publisher with
      established := publisher.established + 1
      control := .publishing publisher.established } where
  taken := by
    show accepted log ++ [publisher.established] = _
    rw [h.taken, List.range_succ]
  announced := by
    have hpublished := h.announced
    rw [hcontrol] at hpublished
    simp only [Control.accepted, List.append_nil] at hpublished
    show (published log).filterMap id ++ [publisher.established] = _
    rw [hpublished, List.range_succ]
  separated := h.separated
  value := h.value
  hidden := fun _ ↦ h.hidden (by rw [hcontrol]; rfl)
  current := .inl (h.hidden (by rw [hcontrol]; rfl))
  shut := fun hshut ↦ by simp [Control.shut] at hshut

/-- Every step of `run` keeps the agreement. -/
theorem Publication.change (h : Publication log publisher) {op : Op} {event : Option Event}
    (hchange : Change publisher event following) :
    Publication ((op, event) :: log) following := by
  obtain ⟨watch, endpointClosed, established, control⟩ := publisher
  cases hchange with
  | quiet hquiet =>
      cases hquiet with
      | pending => exact h.quiet rfl rfl id h.shut
      | _ => exact h.quiet rfl rfl (by simp [Control.shows]) (by simp [Control.shut])
  | accepted hcontrol => exact h.accept hcontrol
  | published hcontrol => exact h.publish hcontrol
  | withdrawn hcontrol =>
      cases hcontrol
      exact h.withdraw rfl rfl (by simp [Control.shut])
  | cleared hcontrol =>
      cases hcontrol
      exact h.withdraw rfl rfl fun _ ↦ h.shut rfl
  | closed hcontrol =>
      cases hcontrol
      exact h.quiet rfl rfl (by simp [Control.shows]) fun _ ↦ rfl
  | finished hcontrol =>
      cases hcontrol
      exact h.quiet rfl rfl (by simp [Control.shows]) fun _ ↦ h.shut rfl
  | dropped hwaits =>
      cases hwaits with
      | _ => exact h.quiet rfl rfl (by simp [Control.shows]) (by simp [Control.shut])
  | closedEndpoint => exact h.quiet rfl rfl id fun _ ↦ rfl

/-! ## The calls of `open_bi` -/

/-- The connection that a call works with, or on which it opened its stream. -/
def DialControl.connection : DialControl → Option Nat
  | .opening connection => some connection
  | .returned (.ok connection) => some connection
  | _ => none

/-- The call has not found a connection: it reads, waits, or ended without a stream. -/
inductive DialControl.Idle : DialControl → Prop where
  | reading : Idle .reading
  | waiting : Idle .waiting
  | dropped : Idle .dropped
  | cancelled : Idle (.returned (.error .cancelled))
  | brokerStopped : Idle (.returned (.error .brokerStopped))

/-- Everything a step of a call can be. -/
inductive DialMove (watch : Watch (Option Nat)) : Dial → DialOp → Dial → Prop where
  | found {seen connection : Nat} (hvalue : watch.value = some connection) :
      DialMove watch ⟨seen, .reading⟩ .read ⟨seen, .opening connection⟩
  | empty {seen : Nat} (hvalue : watch.value = none) :
      DialMove watch ⟨seen, .reading⟩ .read ⟨seen, .waiting⟩
  | opening {seen connection : Nat} {closeReason : Bool} :
      DialMove watch ⟨seen, .opening connection⟩ (.pollOpen false .pending closeReason)
        ⟨seen, .opening connection⟩
  | opened {seen connection : Nat} {closeReason : Bool} :
      DialMove watch ⟨seen, .opening connection⟩ (.pollOpen false (.ready (.ok ())) closeReason)
        ⟨seen, .returned (.ok connection)⟩
  | closed {seen connection : Nat} {error : String} :
      DialMove watch ⟨seen, .opening connection⟩ (.pollOpen false (.ready (.error error)) true)
        ⟨seen, .waiting⟩
  | failed {seen connection : Nat} {error : String} :
      DialMove watch ⟨seen, .opening connection⟩ (.pollOpen false (.ready (.error error)) false)
        ⟨seen, .returned (.error (.stream error))⟩
  | cancelledOpening {seen connection : Nat} {opened : Poll (Except String Unit)}
      {closeReason : Bool} :
      DialMove watch ⟨seen, .opening connection⟩ (.pollOpen true opened closeReason)
        ⟨seen, .returned (.error .cancelled)⟩
  | changed {seen : Nat} (hseen : seen ≠ watch.version) :
      DialMove watch ⟨seen, .waiting⟩ (.pollChanged false) ⟨watch.version, .reading⟩
  | unchanged {seen : Nat} (hseen : seen = watch.version) :
      DialMove watch ⟨seen, .waiting⟩ (.pollChanged false) ⟨seen, .waiting⟩
  | stopped {seen : Nat} (hseen : seen = watch.version) (hclosed : watch.closed = true) :
      DialMove watch ⟨seen, .waiting⟩ (.pollChanged false)
        ⟨seen, .returned (.error .brokerStopped)⟩
  | cancelledWaiting {seen : Nat} :
      DialMove watch ⟨seen, .waiting⟩ (.pollChanged true) ⟨seen, .returned (.error .cancelled)⟩
  | dropped {seen : Nat} {control : DialControl} :
      DialMove watch ⟨seen, control⟩ .drop ⟨seen, .dropped⟩

/-- Every step of a call of `dial` is a `DialMove`. -/
theorem dialMove_of_step {watch : Watch (Option Nat)} {dial after : Dial} {op : DialOp}
    (h : dial.step watch op = some after) : DialMove watch dial op after := by
  unfold Dial.step at h
  split at h
  case h_1 seen =>
    rw [Option.some.injEq] at h
    subst h
    cases hvalue : watch.value with
    | none => exact .empty hvalue
    | some connection => exact .found hvalue
  case h_2 seen connection cancelled opened closeReason =>
    rw [Option.some.injEq] at h
    subst h
    cases cancelled with
    | true => exact .cancelledOpening
    | false =>
        rcases opened with _ | (_ | _)
        · exact .opening
        · cases closeReason with
          | true => exact .closed
          | false => exact .failed
        · exact .opened
  case h_3 seen cancelled =>
    cases cancelled with
    | true =>
        rw [if_pos rfl, Option.some.injEq] at h
        subst h
        exact .cancelledWaiting
    | false =>
        rw [if_neg (by simp), Option.some.injEq] at h
        subst h
        unfold Watch.changed
        split
        case isTrue hseen => exact .changed hseen
        case isFalse hseen =>
          split
          case isTrue hclosed => exact .stopped (not_not.mp hseen) hclosed
          case isFalse => exact .unchanged (not_not.mp hseen)
  case h_4 | h_5 =>
    rw [Option.some.injEq] at h
    subst h
    exact .dropped
  case h_6 => simp at h

/-- A call works with a connection that it read from the channel. -/
theorem Dial.connection_of_step {watch : Watch (Option Nat)} {dial after : Dial} {op : DialOp}
    {connection : Nat} (h : dial.step watch op = some after)
    (hconnection : after.control.connection = some connection) :
    dial.control.connection = some connection ∨
      dial.control = .reading ∧ watch.value = some connection := by
  cases dialMove_of_step h with
  | found hvalue => exact .inr ⟨rfl, hvalue.trans hconnection⟩
  | opening | opened => exact .inl hconnection
  | empty | closed | failed | cancelledOpening | changed | unchanged | stopped | cancelledWaiting
    | dropped => cases hconnection

/-- A call that finds nothing published stays without a connection. -/
theorem Dial.idle_of_step {watch : Watch (Option Nat)} {dial after : Dial} {op : DialOp}
    (hnone : watch.value = none) (hidle : dial.control.Idle)
    (h : dial.step watch op = some after) : after.control.Idle := by
  cases dialMove_of_step h with
  | found hvalue => simp [hnone] at hvalue
  | empty => exact .waiting
  | opening | opened | closed | failed | cancelledOpening => cases hidle
  | changed => exact .reading
  | unchanged => exact .waiting
  | stopped => exact .brokerStopped
  | cancelledWaiting => exact .cancelled
  | dropped => exact .dropped

/-! ## The broker among its dialers -/

/-- Everything a step of a broker and its dialers can be. -/
inductive Move (broker : Broker) : Op → Option Event → Broker → Prop where
  | run {op : RunOp} {event : Option Event} {publisher : Publisher}
      (hchange : Change broker.publisher event publisher) :
      Move broker (.run op) event { broker with publisher := publisher }
  | openBi {seen : Nat} :
      Move broker (.openBi seen) none
        { broker with dials := broker.dials ++ [⟨seen, .reading⟩] }
  | dial {index : Nat} {op : DialOp} {dial after : Dial}
      (hdial : broker.dials[index]? = some dial)
      (hstep : dial.step broker.publisher.watch op = some after) :
      Move broker (.dial index op) none { broker with dials := broker.dials.set index after }

/-- Every step of a broker and its dialers is one of the moves above. -/
theorem move_of_next {op : Op} {event : Option Event} {following : Broker}
    (h : next broker op = some (event, following)) : Move broker op event following := by
  cases op with
  | run op =>
      simp only [next, Option.map_eq_some_iff, Prod.mk.injEq] at h
      obtain ⟨⟨event, publisher⟩, hnext, rfl, rfl⟩ := h
      exact .run (change_of_next hnext)
  | openBi seen =>
      simp only [next] at h
      split at h
      case isFalse => simp at h
      case isTrue =>
        simp only [Option.some.injEq, Prod.mk.injEq] at h
        obtain ⟨rfl, rfl⟩ := h
        exact .openBi
  | dial index op =>
      simp only [next] at h
      split at h
      case h_2 => simp at h
      case h_1 dial hdial =>
        simp only [Option.map_eq_some_iff, Prod.mk.injEq] at h
        obtain ⟨after, hstep, rfl, rfl⟩ := h
        exact .dial hdial hstep

/-- In every run, the accepted connections, the publications and the watched value agree. -/
theorem Exec.publication (h : Exec .new log broker) : Publication log broker.publisher := by
  induction h with
  | refl => exact .new
  | snoc _ hnext ih =>
      cases move_of_next hnext with
      | run hchange => exact ih.change hchange
      | openBi | dial => exact ih.quiet rfl rfl id ih.shut

/-- The sender is gone once `run` has returned, and later steps keep the channel as it is. -/
theorem Change.of_returned {result : Except QuicError Unit} {event : Option Event}
    (hreturned : publisher.control = .returned result)
    (h : Change publisher event following) :
    following.control = .returned result ∧ following.watch = publisher.watch := by
  cases h with
  | quiet hquiet =>
      rw [hreturned] at hquiet
      cases hquiet
      exact ⟨rfl, rfl⟩
  | dropped hwaits =>
      rw [hreturned] at hwaits
      cases hwaits
  | closedEndpoint => exact ⟨hreturned, rfl⟩
  | accepted hcontrol | published hcontrol | withdrawn hcontrol | closed hcontrol
    | cleared hcontrol | finished hcontrol => simp [hreturned] at hcontrol

/-- The sender is dropped when `run` returns. -/
theorem Exec.closed_of_returned {start : Broker} (hstart : start = .new)
    (h : Exec start log broker) {result : Except QuicError Unit}
    (hreturned : broker.publisher.control = .returned result) :
    broker.publisher.watch.closed = true := by
  induction h generalizing result with
  | refl => simp [hstart, Broker.new, Publisher.new] at hreturned
  | @snoc _ broker _ _ _ _ hnext ih =>
      cases move_of_next hnext with
      | openBi | dial => exact ih hreturned
      | run hchange =>
          cases hchange with
          | finished => rfl
          | closedEndpoint => exact ih hreturned
          | @quiet control hquiet =>
              obtain rfl : control = .returned result := hreturned
              cases hbefore : broker.publisher.control with
              | returned => exact ih hbefore
              | _ =>
                  rw [hbefore] at hquiet
                  cases hquiet
          | _ => simp at hreturned

/-- A stream was opened on a connection that was the watched value at some instant of the call. -/
theorem Exec.watched {start : Broker} (hstart : start.dials = []) (h : Exec start log broker)
    {index : Nat} {dial : Dial} {connection : Nat} (hdial : broker.dials[index]? = some dial)
    (hconnection : dial.control.connection = some connection) :
    ∃ earlier later middle, log = later ++ earlier ∧ Exec start earlier middle ∧
      Exec middle later broker ∧ middle.publisher.watch.value = some connection ∧
      ∃ seen, middle.dials[index]? = some ⟨seen, .reading⟩ := by
  induction h generalizing dial with
  | refl => simp [hstart] at hdial
  | @snoc log broker following op event hexec hnext ih =>
      -- the instant of an earlier step is an instant of this run
      have hearlier : ∀ {dial}, broker.dials[index]? = some dial →
          dial.control.connection = some connection →
          ∃ earlier later middle, (op, event) :: log = later ++ earlier ∧
            Exec start earlier middle ∧ Exec middle later following ∧
            middle.publisher.watch.value = some connection ∧
            ∃ seen, middle.dials[index]? = some ⟨seen, .reading⟩ := by
        intro dial hbefore hconnection
        obtain ⟨earlier, later, middle, hlog, hfirst, hlast, hmiddle⟩ := ih hbefore hconnection
        exact ⟨earlier, (op, event) :: later, middle, by rw [hlog]; rfl, hfirst,
          hlast.snoc hnext, hmiddle⟩
      cases move_of_next hnext with
      | run => exact hearlier hdial hconnection
      | openBi =>
          obtain ⟨_, rfl⟩ | ⟨_, hkept⟩ := getElem?_append_cases hdial
          · simp [DialControl.connection] at hconnection
          · exact hearlier hkept hconnection
      | @dial other op before after hbefore hstep =>
          obtain ⟨rfl, rfl⟩ | ⟨_, hkept⟩ := getElem?_set_cases hdial
          · obtain hheld | ⟨hreading, hvalue⟩ := Dial.connection_of_step hstep hconnection
            · exact hearlier hbefore hheld
            · obtain ⟨seen, control⟩ := before
              obtain rfl : control = .reading := hreading
              exact ⟨log, [(.dial other op, none)], broker, rfl, hexec, .snoc .refl hnext,
                hvalue, seen, hbefore⟩
          · exact hearlier hkept hconnection

/-- A call that begins after `run` has returned finds nothing published. -/
theorem Exec.idle_of_returned {middle : Broker} {result : Except QuicError Unit}
    (hreturned : middle.publisher.control = .returned result)
    (hnone : middle.publisher.watch.value = none) (h : Exec middle log broker) :
    broker.publisher.control = .returned result ∧ broker.publisher.watch.value = none ∧
      ∀ index dial, middle.dials.length ≤ index → broker.dials[index]? = some dial →
        dial.control.Idle := by
  induction h with
  | refl =>
      refine ⟨hreturned, hnone, fun index dial hindex hdial ↦ ?_⟩
      rw [List.getElem?_eq_none hindex] at hdial
      simp at hdial
  | snoc _ hnext ih =>
      obtain ⟨hstill, hempty, hidle⟩ := ih
      cases move_of_next hnext with
      | run hchange =>
          obtain ⟨hafter, hwatch⟩ := hchange.of_returned hstill
          exact ⟨hafter, by rw [hwatch]; exact hempty, hidle⟩
      | openBi =>
          refine ⟨hstill, hempty, fun index dial hindex hdial ↦ ?_⟩
          obtain ⟨_, rfl⟩ | ⟨_, hkept⟩ := getElem?_append_cases hdial
          · exact .reading
          · exact hidle index dial hindex hkept
      | dial hbefore hstep =>
          refine ⟨hstill, hempty, fun index dial hindex hdial ↦ ?_⟩
          obtain ⟨rfl, rfl⟩ | ⟨_, hkept⟩ := getElem?_set_cases hdial
          · exact Dial.idle_of_step hempty (hidle _ _ hindex hbefore) hstep
          · exact hidle index dial hindex hkept

/-- The publications of a broker, over every interleaving with its dialers. The watched value is the
last publication, and it is `None` or the connection accepted last. The published connections are
the accepted ones, each once and in order, up to one that is about to be published, and `None` is
published between two of them. A failed handshake publishes nothing. Once `run` has returned, the
value is `None`, the endpoint is closed, and no dialer waits any more. A stream was opened on a
connection that was the watched value while the call was looking, and a call that begins after `run`
has returned ends with `BrokerStopped` or `Cancelled`. -/
theorem broker_publication (h : Exec .new log broker) :
    (broker.publisher.watch.value = (published log).getLast?.join ∧
      (broker.publisher.watch.value = none ∨
        broker.publisher.watch.value = (accepted log).getLast?)) ∧
    ((accepted log).Nodup ∧
      (published log).filterMap id ++ broker.publisher.control.accepted = accepted log ∧
      (published log).IsChain fun earlier later ↦ earlier = none ∨ later = none) ∧
    (∀ error event following,
      next broker (.run (.pollHandshake false (.ready (.error error)))) =
        some (event, following) →
      event = none ∧ following.publisher.watch = broker.publisher.watch ∧
        following.publisher.control = .accepting) ∧
    (∀ result, broker.publisher.control = .returned result →
      broker.publisher.watch.value = none ∧ broker.publisher.endpointClosed = true ∧
        ∀ seen, (broker.publisher.watch.changed seen).1 ≠ .pending) ∧
    (∀ (index seen connection : Nat),
      broker.dials[index]? = some ⟨seen, .returned (.ok connection)⟩ →
      ∃ earlier later middle, log = later ++ earlier ∧ Exec .new earlier middle ∧
        Exec middle later broker ∧ middle.publisher.watch.value = some connection ∧
        ∃ seen, middle.dials[index]? = some ⟨seen, .reading⟩) ∧
    (∀ earlier later middle returned, log = later ++ earlier → Exec .new earlier middle →
      Exec middle later broker → middle.publisher.control = .returned returned →
      ∀ (index seen : Nat) result, middle.dials.length ≤ index →
        broker.dials[index]? = some ⟨seen, .returned result⟩ →
        result = .error .brokerStopped ∨ result = .error .cancelled) := by
  have hpublication := Exec.publication h
  refine ⟨⟨hpublication.value, ?_⟩, ⟨?_, ?_, hpublication.separated⟩, ?_, ?_, ?_, ?_⟩
  · rw [hpublication.taken]
    exact hpublication.current
  · rw [hpublication.taken]
    exact List.nodup_range
  · rw [hpublication.taken]
    exact hpublication.announced
  · intro error event following hnext
    cases hcontrol : broker.publisher.control with
    | handshaking =>
        simp only [next, Publisher.next, hcontrol, Bool.false_eq_true, if_false, Option.map_some,
          Option.some.injEq, Prod.mk.injEq] at hnext
        obtain ⟨rfl, rfl⟩ := hnext
        exact ⟨rfl, rfl, rfl⟩
    | _ => simp [next, Publisher.next, hcontrol] at hnext
  · intro result hreturned
    have hclosed := Exec.closed_of_returned rfl h hreturned
    refine ⟨hpublication.hidden (by rw [hreturned]; rfl),
      hpublication.shut (by rw [hreturned]; rfl), fun seen ↦ ?_⟩
    simp only [Watch.changed, hclosed, if_true]
    split <;> simp
  · intro index seen connection hdial
    exact Exec.watched rfl h hdial rfl
  · intro earlier later middle returned _ hearlier hlater hreturned index seen result hindex hdial
    have hnone := (Exec.publication hearlier).hidden (by rw [hreturned]; rfl)
    obtain ⟨_, _, hidle⟩ := Exec.idle_of_returned hreturned hnone hlater
    cases hidle index _ hindex hdial with
    | cancelled => exact .inr rfl
    | brokerStopped => exact .inl rfl

/-- A dialer opens a stream on the first connection, which closes; a handshake fails, the broker is
cancelled, and a call that begins then finds the broker stopped. -/
theorem broker_publication_of_closed_connection : ∃ log broker, Exec .new log broker ∧
    published log = [some 0, none, none] ∧ accepted log = [0] ∧
    broker.publisher.watch.value = none ∧ broker.publisher.endpointClosed = true ∧
    broker.dials = [⟨0, .returned (.ok 0)⟩, ⟨3, .returned (.error .brokerStopped)⟩] := by
  have hrun : Execution.run next
      [.run (.pollIncoming false (.ready (some ()))), .openBi 0,
        .run (.pollHandshake false (.ready (.ok ()))), .run .publish, .dial 0 .read,
        .dial 0 (.pollOpen false (.ready (.ok ())) false), .run (.pollServing false true),
        .run .withdraw, .run (.pollIncoming false (.ready (some ()))),
        .run (.pollHandshake false (.ready (.error "timed out"))),
        .run (.pollIncoming true .pending), .run .close, .run .clear, .run .finish, .openBi 0,
        .dial 1 .read, .dial 1 (.pollChanged false), .dial 1 .read, .dial 1 (.pollChanged false)]
      ([], .new) = some (_, _) := rfl
  have hexec : Exec _ _ _ := Execution.exec_of_run hrun
  obtain ⟨hnone, hclosed, _⟩ := (broker_publication hexec).2.2.2.1 _ rfl
  exact ⟨_, _, hexec, rfl, rfl, hnone, hclosed, rfl⟩

end Unbounded.ConsumerQuic
