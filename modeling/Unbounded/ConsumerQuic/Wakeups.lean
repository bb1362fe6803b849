import Unbounded.ConsumerQuic.Publication

/-!
# Wakeups of a stream dialer

A call of `open_bi` among publications of any values on the watch channel, where the receiver that
the call clones may have missed any number of publications before. What the call has looked at is
the output of its steps: the value it read, and the connection whose close reason it saw after a
failed open.

A call parks only on a value that it has examined (`Stage`), and every iteration but the first two
uses up a publication (`Budget`). `open_bi_wakeups` puts this together, and `Exec.called` says that
every call in a run of a broker is such a call.
-/

namespace Unbounded.ConsumerQuic

open Execution (Next getElem?_set_cases getElem?_append_cases)
open Tokio (Watch)

/-! ## A call among publications -/

/-- What a step of a call looks at. -/
inductive Look where
  | nothing
  /-- The value that `borrow` returned. -/
  | read (value : Option Nat)
  /-- A connection on which no stream could be opened and that had a close reason. -/
  | closed (connection : Nat)
  deriving DecidableEq

/-- What a step of a call looks at. -/
def Dial.look (watch : Watch (Option Nat)) : Dial → DialOp → Look
  | ⟨_, .reading⟩, .read => .read watch.value
  | ⟨_, .opening connection⟩, .pollOpen false (.ready (.error _)) true => .closed connection
  | _, _ => .nothing

/-- The call has ended. -/
def DialControl.ended : DialControl → Bool
  | .returned _ | .dropped => true
  | .reading | .opening _ | .waiting => false

/-- A call of `open_bi` with the channel that it reads. -/
structure Call where
  watch : Watch (Option Nat)
  dial : Dial
  deriving DecidableEq

/-- What can happen to a call and its channel. -/
inductive CallOp where
  | publish (value : Option Nat)
  /-- The sender is dropped. -/
  | close
  | dial (op : DialOp)
  deriving DecidableEq

namespace Call

/-- A call whose receiver has seen a version and has missed some publications since. -/
def start (value : Option Nat) (seen missed : Nat) (closed : Bool) : Call :=
  ⟨⟨value, seen + missed, closed⟩, ⟨seen, .reading⟩⟩

/-- One step of a call or of its channel. -/
def next : Next Call CallOp Look
  | call, .publish value =>
      if call.watch.closed then none
      else some (.nothing, { call with watch := call.watch.sendReplace value })
  | call, .close => some (.nothing, { call with watch := call.watch.close })
  | call, .dial op =>
      (call.dial.step call.watch op).map fun after ↦
        (call.dial.look call.watch op, { call with dial := after })

/-- A log of a call. -/
abbrev Log := Execution.Log CallOp Look

/-- Executions of a call. -/
abbrev Exec := Execution.Exec next

/-- The call is parked in `changed`: the wait is not ready. -/
def Parked (call : Call) : Prop :=
  call.dial.control = .waiting ∧ (call.watch.changed call.dial.seen).1 = .pending

/-- How often the call has gone through its loop. Every iteration begins with a read. -/
def iterations : Log → Nat
  | [] => 0
  | (.dial .read, _) :: log => iterations log + 1
  | _ :: log => iterations log

/-- How many values were published. -/
def publications : Log → Nat
  | [] => 0
  | (.publish _, _) :: log => publications log + 1
  | _ :: log => publications log

variable {log later : Log} {call following origin : Call} {look : Look} {op : CallOp}

/-- Everything a step of a call or of its channel can be. -/
inductive Change (call : Call) : CallOp → Look → Call → Prop where
  | publish {value : Option Nat} :
      Change call (.publish value) .nothing { call with watch := call.watch.sendReplace value }
  | close : Change call .close .nothing { call with watch := call.watch.close }
  | dial {op : DialOp} {after : Dial} (hmove : DialMove call.watch call.dial op after) :
      Change call (.dial op) (call.dial.look call.watch op) { call with dial := after }

/-- Every step of a call or of its channel is a `Change`. -/
theorem change_of_next (h : next call op = some (look, following)) :
    Change call op look following := by
  cases op with
  | publish value =>
      simp only [next] at h
      split at h
      case isTrue => simp at h
      case isFalse =>
        simp only [Option.some.injEq, Prod.mk.injEq] at h
        obtain ⟨rfl, rfl⟩ := h
        exact .publish
  | close =>
      simp only [next, Option.some.injEq, Prod.mk.injEq] at h
      obtain ⟨rfl, rfl⟩ := h
      exact .close
  | dial op =>
      simp only [next, Option.map_eq_some_iff, Prod.mk.injEq] at h
      obtain ⟨after, hstep, rfl, rfl⟩ := h
      exact .dial (dialMove_of_step hstep)

/-! ## What a waiting call has examined -/

/-- The last value that the call read, with everything that happened since. -/
structure LastRead (log : Log) (call : Call) (value : Option Nat) (later : Log) : Prop where
  split : ∃ earlier, log = later ++ (.dial .read, .read value) :: earlier
  /-- The receiver has seen no publication that came after the read. -/
  unseen : call.dial.seen + publications later ≤ call.watch.version
  kept : publications later = 0 → call.watch.value = value

/-- Where a call is, and what it has examined. -/
inductive Stage (log : Log) (call : Call) : Prop where
  | reading (hcontrol : call.dial.control = .reading)
  | opening {connection : Nat} {later : Log} (hcontrol : call.dial.control = .opening connection)
      (hread : LastRead log call (some connection) later)
  | waiting {value : Option Nat} {later : Log} (hcontrol : call.dial.control = .waiting)
      (hread : LastRead log call value later)
      (hexamined : value = none ∨
        ∃ connection op, value = some connection ∧ (op, .closed connection) ∈ later)
  | ended (hended : call.dial.control.ended = true)

/-- A read is the last one when it is made. -/
theorem LastRead.new {value : Option Nat} (hvalue : call.watch.value = value)
    (hseen : call.dial.seen ≤ call.watch.version) {after : Dial}
    (hafter : after.seen = call.dial.seen) :
    LastRead ((.dial .read, .read call.watch.value) :: log) { call with dial := after } value
      [] where
  split := ⟨log, by rw [hvalue]; rfl⟩
  unseen := by
    show after.seen + 0 ≤ call.watch.version
    omega
  kept := fun _ ↦ hvalue

/-- A later step publishes at most one more value. -/
theorem publications_le_cons (entry : CallOp × Look) (later : Log) :
    publications later ≤ publications (entry :: later) := by
  obtain ⟨op, _⟩ := entry
  cases op with
  | publish => exact Nat.le_succ _
  | close | dial => exact Nat.le_refl _

/-- A step of the channel, or one of the call that reads nothing, keeps the last read. -/
theorem LastRead.cons {value : Option Nat} (h : LastRead log call value later)
    {entry : CallOp × Look} (hseen : following.dial.seen = call.dial.seen)
    (hversion : following.watch.version + publications later =
      call.watch.version + publications (entry :: later))
    (hvalue : publications (entry :: later) = publications later →
      following.watch.value = call.watch.value) :
    LastRead (entry :: log) following value (entry :: later) where
  split := by
    obtain ⟨earlier, hsplit⟩ := h.split
    exact ⟨earlier, by rw [hsplit]; rfl⟩
  unseen := by
    have hunseen := h.unseen
    omega
  kept := fun hnone ↦ by
    have hle := publications_le_cons entry later
    rw [hvalue (by omega)]
    exact h.kept (by omega)

/-- A step that leaves the call where it is keeps what is known of it. -/
theorem Stage.cons (h : Stage log call) {entry : CallOp × Look}
    (hdial : following.dial = call.dial)
    (hversion : ∀ later, following.watch.version + publications later =
      call.watch.version + publications (entry :: later))
    (hvalue : ∀ later, publications (entry :: later) = publications later →
      following.watch.value = call.watch.value) :
    Stage (entry :: log) following := by
  have hseen : following.dial.seen = call.dial.seen := by rw [hdial]
  cases h with
  | reading hcontrol => exact .reading (by rw [hdial, hcontrol])
  | opening hcontrol hread =>
      exact .opening (by rw [hdial, hcontrol]) (hread.cons hseen (hversion _) (hvalue _))
  | waiting hcontrol hread hexamined =>
      refine .waiting (by rw [hdial, hcontrol]) (hread.cons hseen (hversion _) (hvalue _))
        (hexamined.imp_right ?_)
      rintro ⟨connection, op, hsome, hmem⟩
      exact ⟨connection, op, hsome, List.mem_cons_of_mem _ hmem⟩
  | ended hended => exact .ended (by rw [hdial, hended])

/-- Every step keeps what is known of a call. -/
theorem Stage.step (h : Stage log call) (hseen : call.dial.seen ≤ call.watch.version)
    (hchange : Change call op look following) : Stage ((op, look) :: log) following := by
  cases hchange with
  | publish =>
      refine h.cons rfl (fun later ↦ ?_) fun later hnone ↦ ?_
      · show call.watch.version + 1 + publications later =
          call.watch.version + (publications later + 1)
        omega
      · have hone : publications later + 1 = publications later := hnone
        omega
  | close => exact h.cons rfl (fun _ ↦ rfl) fun _ _ ↦ rfl
  | dial hmove =>
      obtain ⟨watch, dial⟩ := call
      cases hmove with
      | found hvalue => exact .opening rfl (LastRead.new hvalue hseen rfl)
      | empty hvalue => exact .waiting rfl (LastRead.new hvalue hseen rfl) (.inl rfl)
      | opening | unchanged => exact h.cons rfl (fun _ ↦ rfl) fun _ _ ↦ rfl
      | @closed seen connection error =>
          -- the connection was the value read last, and its close reason is seen now
          cases h with
          | @opening current later hcontrol hread =>
              obtain rfl : connection = current := DialControl.opening.inj hcontrol
              exact .waiting rfl (hread.cons rfl rfl fun _ ↦ rfl)
                (.inr ⟨connection, _, rfl, List.mem_cons_self⟩)
          | reading hcontrol | waiting hcontrol => cases hcontrol
          | ended hended => cases hended
      | changed => exact .reading rfl
      | opened | failed | stopped | cancelledOpening | cancelledWaiting | dropped =>
          exact .ended rfl

/-! ## How often a call goes round -/

/-- Every iteration but the first two has seen a publication of its own. -/
structure Budget (origin : Call) (log : Log) (call : Call) : Prop where
  seen : call.dial.seen ≤ call.watch.version
  version : call.watch.version = origin.watch.version + publications log
  used : iterations log ≤ 1 ∨ origin.watch.version + iterations log ≤ call.dial.seen + 2
  reading : call.dial.control = .reading →
    iterations log = 0 ∨ origin.watch.version + iterations log ≤ call.dial.seen + 1

/-- Every step keeps the budget. -/
theorem Budget.step (h : Budget origin log call) (hchange : Change call op look following) :
    Budget origin ((op, look) :: log) following := by
  cases hchange with
  | publish =>
      exact {
        seen := Nat.le_succ_of_le h.seen
        version := by
          have hversion := h.version
          show call.watch.version + 1 = origin.watch.version + (publications log + 1)
          omega
        used := h.used
        reading := h.reading }
  | close => exact ⟨h.seen, h.version, h.used, h.reading⟩
  | dial hmove =>
      obtain ⟨watch, dial⟩ := call
      obtain ⟨hseen, hversion, hused, hreading⟩ := h
      cases hmove with
      | found | empty =>
          have hbefore := hreading rfl
          refine ⟨hseen, hversion, ?_, fun hcontrol ↦ by cases hcontrol⟩
          dsimp only [iterations] at hbefore ⊢
          omega
      | opening | closed | unchanged | opened | failed | stopped | cancelledOpening
        | cancelledWaiting | dropped =>
          exact ⟨hseen, hversion, hused, fun hcontrol ↦ by cases hcontrol⟩
      | changed hunseen =>
          dsimp only at hseen hversion hused hunseen
          refine ⟨Nat.le_refl _, hversion, ?_, fun _ ↦ ?_⟩
          · dsimp only [iterations]
            omega
          · dsimp only [iterations]
            omega

/-- Nothing was read and nothing was published at first. -/
theorem Budget.start (value : Option Nat) (seen missed : Nat) (closed : Bool) :
    Budget (start value seen missed closed) [] (start value seen missed closed) where
  seen := Nat.le_add_right seen missed
  version := rfl
  used := .inl (Nat.zero_le 1)
  reading := fun _ ↦ .inl rfl

/-- Every call keeps to its budget, and parks only on what it has examined. -/
theorem Exec.stage {value : Option Nat} {seen missed : Nat} {closed : Bool}
    (h : Exec (start value seen missed closed) log call) :
    Budget (start value seen missed closed) log call ∧ Stage log call := by
  induction h with
  | refl => exact ⟨.start value seen missed closed, .reading rfl⟩
  | snoc _ hnext ih =>
      obtain ⟨hbudget, hstage⟩ := ih
      have hchange := change_of_next hnext
      exact ⟨hbudget.step hchange, hstage.step hbudget.seen hchange⟩

/-- A call of `open_bi` on a receiver that may have missed any number of publications, in any
interleaving with publications, closing connections and failing opens. Whenever it is parked, it has
read the published value since the last publication, and that value is `None` or a connection whose
close reason it has seen. It has gone through its loop at most twice more often than something was
published. -/
theorem open_bi_wakeups {value : Option Nat} {seen missed : Nat} {closed : Bool}
    (h : Exec (start value seen missed closed) log call) :
    (call.Parked → ∃ later earlier,
      log = later ++ (.dial .read, .read call.watch.value) :: earlier ∧ publications later = 0 ∧
      (call.watch.value = none ∨ ∃ connection op, call.watch.value = some connection ∧
        (op, .closed connection) ∈ later)) ∧
    iterations log ≤ 2 + publications log := by
  obtain ⟨hbudget, hstage⟩ := Exec.stage h
  constructor
  · rintro ⟨hwaiting, hpending⟩
    have hseen : call.dial.seen = call.watch.version := by
      by_contra hne
      simp [Watch.changed, hne] at hpending
    cases hstage with
    | @waiting last later hcontrol hread hexamined =>
        have hnone : publications later = 0 := by
          have hunseen := hread.unseen
          omega
        obtain ⟨earlier, hsplit⟩ := hread.split
        rw [hread.kept hnone]
        exact ⟨later, earlier, hsplit, hnone, hexamined⟩
    | reading hcontrol => simp [hwaiting] at hcontrol
    | opening hcontrol => simp [hwaiting] at hcontrol
    | ended hended => simp [hwaiting, DialControl.ended] at hended
  · have hversion := hbudget.version
    have hseen := hbudget.seen
    rcases hbudget.used with hfirst | hlater
    · omega
    · omega

/-- A receiver that has missed a publication reads a connection that is closing, is woken by the
publication it has missed, reads the connection again, and parks after its close reason is seen
again. -/
theorem open_bi_wakeups_of_closed_connection : ∃ log call,
    Exec (start (some 0) 0 1 false) log call ∧ call.Parked ∧ iterations log = 2 ∧
    ∃ later earlier, log = later ++ (.dial .read, .read (some 0)) :: earlier ∧
      publications later = 0 := by
  have hrun : Execution.run next
      [.dial .read, .dial (.pollOpen false (.ready (.error "closed")) true),
        .dial (.pollChanged false), .dial .read,
        .dial (.pollOpen false (.ready (.error "closed")) true), .dial (.pollChanged false)]
      ([], start (some 0) 0 1 false) = some (_, _) := rfl
  have hexec : Exec _ _ _ := Execution.exec_of_run hrun
  obtain ⟨later, earlier, hsplit, hnone, _⟩ := (open_bi_wakeups hexec).1 ⟨rfl, rfl⟩
  exact ⟨_, _, hexec, ⟨rfl, rfl⟩, rfl, later, earlier, hsplit, hnone⟩

end Call

/-! ## The calls of a broker -/

/-- The broker drops the sender when it returns or is dropped, and does nothing more then. -/
theorem Exec.over_of_closed {start : Broker} {log : Log} {broker : Broker} (hstart : start = .new)
    (h : Exec start log broker) (hclosed : broker.publisher.watch.closed = true) :
    broker.publisher.control = .dropped ∨
      ∃ result, broker.publisher.control = .returned result := by
  induction h with
  | refl => simp [hstart, Broker.new, Publisher.new, Watch.new] at hclosed
  | @snoc _ broker _ _ _ _ hnext ih =>
      cases move_of_next hnext with
      | openBi | dial => exact ih hclosed
      | run hchange =>
          cases hchange with
          | finished => exact .inr ⟨_, rfl⟩
          | dropped => exact .inl rfl
          | closedEndpoint => exact ih hclosed
          | @quiet control hquiet =>
              rcases ih hclosed with hover | ⟨result, hover⟩
              · rw [hover] at hquiet
                cases hquiet
                exact .inl rfl
              · rw [hover] at hquiet
                cases hquiet
                exact .inr ⟨result, rfl⟩
          | accepted hcontrol | published hcontrol | withdrawn hcontrol | closed hcontrol
            | cleared hcontrol =>
              rcases ih hclosed with hover | ⟨result, hover⟩ <;> simp [hcontrol] at hover

/-- How often a call of a broker's dialers has gone through its loop. -/
def iterations (index : Nat) : Log → Nat
  | [] => 0
  | (.dial other .read, _) :: log => iterations index log + if other = index then 1 else 0
  | _ :: log => iterations index log

/-- A call that has not begun has gone through no loop. -/
theorem Exec.iterations_eq_zero {log : Log} {broker : Broker} (h : Exec .new log broker)
    {index : Nat} (hindex : broker.dials.length ≤ index) : iterations index log = 0 := by
  induction h with
  | refl => rfl
  | snoc _ hnext ih =>
      cases move_of_next hnext with
      | run => exact ih hindex
      | openBi =>
          refine ih ?_
          rw [List.length_append, List.length_singleton] at hindex
          omega
      | @dial other op before after hbefore hstep =>
          rw [List.length_set] at hindex
          obtain ⟨hlt, _⟩ := List.getElem?_eq_some_iff.mp hbefore
          cases op with
          | read =>
              rw [iterations, ih hindex, if_neg (by omega)]
          | pollOpen | pollChanged | drop => exact ih hindex

/-- A call of a broker's dialers is a call among publications with as many iterations, and all the
publications were made by the broker. -/
def Called (log : Log) (index : Nat) (call : Call) : Prop :=
  ∃ value seen missed closed callLog,
    Call.Exec (.start value seen missed closed) callLog call ∧
    Call.iterations callLog = iterations index log ∧
    Call.publications callLog ≤ (published log).length

/-- What a step of the broker does to its channel. -/
theorem Called.change {log : Log} {index : Nat} {publisher following : Publisher} {dial : Dial}
    {op : RunOp} {event : Option Event} (h : Called log index ⟨publisher.watch, dial⟩)
    (hover : publisher.watch.closed = true →
      publisher.control = .dropped ∨ ∃ result, publisher.control = .returned result)
    (hchange : Change publisher event following) :
    Called ((.run op, event) :: log) index ⟨following.watch, dial⟩ := by
  obtain ⟨value, seen, missed, closed, callLog, hexec, hiterations, hpublications⟩ := h
  -- a broker that publishes still has the sender
  have hpublish (hactive : ¬publisher.watch.closed = true) (current : Option Nat) :
      Called ((.run op, some (.published current)) :: log) index
        ⟨publisher.watch.sendReplace current, dial⟩ := by
    refine ⟨value, seen, missed, closed, (.publish current, .nothing) :: callLog,
      hexec.snoc (by simp [Call.next, hactive]), hiterations, ?_⟩
    rw [published, List.length_append]
    exact Nat.succ_le_succ hpublications
  have hclose : Called ((.run op, none) :: log) index ⟨publisher.watch.close, dial⟩ :=
    ⟨value, seen, missed, closed, (.close, .nothing) :: callLog, hexec.snoc rfl, hiterations,
      hpublications⟩
  cases hchange with
  | quiet | accepted | closed | closedEndpoint =>
      exact ⟨value, seen, missed, closed, callLog, hexec, hiterations, hpublications⟩
  | published hcontrol | withdrawn hcontrol | cleared hcontrol =>
      refine hpublish (fun hclosed ↦ ?_) _
      rcases hover hclosed with hdropped | ⟨result, hreturned⟩
      · simp [hcontrol] at hdropped
      · simp [hcontrol] at hreturned
  | finished | dropped => exact hclose

/-- Every call in a run of a broker is a call among publications, so that it parks and goes round as
such a call does. -/
theorem Exec.called {log : Log} {broker : Broker} (h : Exec .new log broker) {index : Nat}
    {dial : Dial} (hdial : broker.dials[index]? = some dial) :
    Called log index ⟨broker.publisher.watch, dial⟩ := by
  induction h generalizing dial with
  | refl => simp [Broker.new] at hdial
  | @snoc log broker following op event hexec hnext ih =>
      cases move_of_next hnext with
      | run hchange => exact (ih hdial).change (Exec.over_of_closed rfl hexec) hchange
      | @openBi fresh =>
          have hseen : fresh ≤ broker.publisher.watch.version := by
            by_contra hlt
            simp [next, hlt] at hnext
          obtain ⟨rfl, rfl⟩ | ⟨_, hkept⟩ := getElem?_append_cases hdial
          · refine ⟨broker.publisher.watch.value, fresh,
              broker.publisher.watch.version - fresh, broker.publisher.watch.closed, [], ?_,
              (Exec.iterations_eq_zero hexec (Nat.le_refl _)).symm, Nat.zero_le _⟩
            rw [Call.start, Nat.add_sub_cancel' hseen]
            exact .refl
          · exact ih hkept
      | @dial other op before after hbefore hstep =>
          obtain ⟨rfl, rfl⟩ | ⟨hne, hkept⟩ := getElem?_set_cases hdial
          · obtain ⟨value, seen, missed, closed, callLog, hcall, hiterations, hpublications⟩ :=
              ih hbefore
            have hlook : Call.next ⟨broker.publisher.watch, before⟩ (.dial op) =
                some (before.look broker.publisher.watch op, ⟨broker.publisher.watch, dial⟩) := by
              simp [Call.next, hstep]
            refine ⟨value, seen, missed, closed, _, hcall.snoc hlook, ?_, hpublications⟩
            cases op with
            | read => rw [Call.iterations, iterations, hiterations, if_pos rfl]
            | pollOpen | pollChanged | drop => exact hiterations
          · obtain ⟨value, seen, missed, closed, callLog, hcall, hiterations, hpublications⟩ :=
              ih hkept
            refine ⟨value, seen, missed, closed, callLog, hcall, ?_, hpublications⟩
            cases op with
            | read => rw [iterations, if_neg hne, hiterations, Nat.add_zero]
            | pollOpen | pollChanged | drop => exact hiterations

end Unbounded.ConsumerQuic
