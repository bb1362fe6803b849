import Unbounded.Execution.Machine
import Unbounded.Rtc.Datagrams

/-!
# The order of messages and closes

`WebRtcDatagrams` whose DataChannel keeps its callbacks, in every interleaving of the callbacks, the
detached sends and the polls of `recv_packet`. The queue is first in, first out: what was put into
it is what was taken from it, followed by what it holds (`Order.fifo`). Every close is taken, queued
or held by a detached send (`Order.closes`). `close_follows_messages` draws the conclusions: a close
never overtakes a message that was accepted before it, and it is never lost.
-/

namespace Unbounded.Rtc

open Execution (Next)
open Tokio (Poll)

namespace WebRtcDatagrams

/-- The detached sends that have yet to put their close into the queue. -/
def pending (datagrams : WebRtcDatagrams) : Nat :=
  datagrams.spawned + datagrams.waiting + datagrams.reserved

/-- What can happen to datagrams whose channel keeps its callbacks. -/
inductive Op where
  /-- The `on_message` callback runs. -/
  | message (isString : Bool) (data : Bytes)
  /-- The `on_close` callback runs. -/
  | close
  | pollSpawned
  | pollReserved
  | recvPacket
  deriving DecidableEq

/-- What a step reports. -/
inductive Report where
  /-- The event that was put into the queue, if there was room. -/
  | sent (event : Option ChannelEvent)
  | received (result : Poll (Except String (Option Bytes)))
  deriving DecidableEq

/-- The event that a step has put into the queue. -/
def appended (datagrams following : WebRtcDatagrams) : Option ChannelEvent :=
  following.queue[datagrams.queue.length]?

/-- One step of the datagrams. -/
def next : Next WebRtcDatagrams Op Report
  | datagrams, .message isString data =>
      let following := datagrams.onMessage isString data
      some (.sent (datagrams.appended following), following)
  | datagrams, .close => some (.sent (datagrams.appended datagrams.onClose), datagrams.onClose)
  | datagrams, .pollSpawned =>
      datagrams.pollSpawned.map fun following ↦
        (.sent (datagrams.appended following), following)
  | datagrams, .pollReserved =>
      datagrams.pollReserved.map fun following ↦
        (.sent (datagrams.appended following), following)
  | datagrams, .recvPacket => some (.received datagrams.recvPacket.1, datagrams.recvPacket.2)

/-- A log of the datagrams. -/
abbrev Log := Execution.Log Op Report

/-- Executions of the datagrams. -/
abbrev Exec := Execution.Exec next

/-! ## What a step can do -/

variable {datagrams following : WebRtcDatagrams}

/-- The step keeps both ends of the queue. -/
structure Kept (datagrams following : WebRtcDatagrams) : Prop where
  callbacks : following.callbacks = datagrams.callbacks
  receiver : following.receiver = datagrams.receiver

/-- An event was put into the queue, and as many detached sends as before are pending. -/
structure Sent (datagrams : WebRtcDatagrams) (event : ChannelEvent)
    (following : WebRtcDatagrams) : Prop extends Kept datagrams following where
  queue : following.queue = datagrams.queue ++ [event]
  pending : following.pending = datagrams.pending

/-- What a send that does not wait does when there is room. -/
theorem sent_of_trySend {event : ChannelEvent} (h : datagrams.trySend event = some following) :
    Sent datagrams event following := by
  unfold trySend at h
  split at h
  case isFalse => simp at h
  case isTrue =>
    split at h
    case isFalse => simp at h
    case isTrue =>
      simp only [Option.some.injEq] at h
      subst h
      exact ⟨⟨rfl, rfl⟩, rfl, rfl⟩

/-- A message is put into the queue, or lost. -/
theorem onMessage_cases (datagrams : WebRtcDatagrams) (isString : Bool) (data : Bytes) :
    Sent datagrams (if isString then .text else .packet data) (datagrams.onMessage isString data) ∨
      datagrams.onMessage isString data = datagrams := by
  unfold onMessage
  cases hsend : datagrams.trySend (if isString then .text else .packet data) with
  | none => exact .inr rfl
  | some following => exact .inl (sent_of_trySend hsend)

/-- A close is put into the queue, or handed to a detached send. -/
theorem onClose_cases (datagrams : WebRtcDatagrams) :
    Sent datagrams .closed datagrams.onClose ∨
      (Kept datagrams datagrams.onClose ∧ datagrams.onClose.queue = datagrams.queue ∧
        datagrams.onClose.pending = datagrams.pending + 1) := by
  unfold onClose
  cases hsend : datagrams.trySend .closed with
  | none =>
      refine .inr ⟨⟨rfl, rfl⟩, rfl, ?_⟩
      show datagrams.spawned + 1 + datagrams.waiting + datagrams.reserved =
        datagrams.spawned + datagrams.waiting + datagrams.reserved + 1
      omega
  | some following => exact .inl (sent_of_trySend hsend)

/-- A detached send that is polled first puts its close into the queue, or waits. -/
theorem pollSpawned_cases (hreceiver : datagrams.receiver = true)
    (h : datagrams.pollSpawned = some following) :
    Kept datagrams following ∧
    ((following.queue = datagrams.queue ++ [.closed] ∧ following.pending + 1 = datagrams.pending) ∨
      (following.queue = datagrams.queue ∧ following.pending = datagrams.pending)) := by
  unfold pollSpawned at h
  split at h
  case isFalse => simp at h
  case isTrue hspawned =>
    -- the split has found that the receiver is there
    rw [Option.some.injEq] at h
    subst h
    cases hsend : trySend { datagrams with spawned := datagrams.spawned - 1 } .closed with
    | none =>
        refine ⟨⟨rfl, rfl⟩, .inr ⟨rfl, ?_⟩⟩
        show datagrams.spawned - 1 + (datagrams.waiting + 1) + datagrams.reserved =
          datagrams.spawned + datagrams.waiting + datagrams.reserved
        omega
    | some following =>
        obtain ⟨⟨hcallbacks, hreceiver⟩, hqueue, hpending⟩ := sent_of_trySend hsend
        refine ⟨⟨hcallbacks, hreceiver⟩, .inl ⟨hqueue, ?_⟩⟩
        show following.pending + 1 = datagrams.spawned + datagrams.waiting + datagrams.reserved
        simp only [pending] at hpending ⊢
        omega

/-- A detached send that was given a permit puts its close into the queue. -/
theorem pollReserved_spec (h : datagrams.pollReserved = some following) :
    Kept datagrams following ∧ following.queue = datagrams.queue ++ [.closed] ∧
      following.pending + 1 = datagrams.pending := by
  unfold pollReserved at h
  split at h
  case isFalse => simp at h
  case isTrue hreserved =>
    simp only [Option.some.injEq] at h
    subst h
    refine ⟨⟨rfl, rfl⟩, rfl, ?_⟩
    simp only [pending]
    omega

/-- Taking an event frees a permit, which a detached send may be given. -/
theorem recvPacket_kept (datagrams : WebRtcDatagrams) :
    Kept datagrams datagrams.recvPacket.2 ∧
      datagrams.recvPacket.2.pending = datagrams.pending := by
  unfold recvPacket
  split
  case h_1 =>
    dsimp only
    split
    case isTrue hwaiting =>
      refine ⟨⟨rfl, rfl⟩, ?_⟩
      simp only [pending]
      omega
    case isFalse => exact ⟨⟨rfl, rfl⟩, rfl⟩
  case h_2 => exact ⟨⟨rfl, rfl⟩, rfl⟩

/-- An empty queue keeps `recv_packet` waiting while the callbacks have their senders. -/
theorem recvPacket_pending (hcallbacks : datagrams.callbacks = true)
    (hqueue : datagrams.queue = []) :
    datagrams.recvPacket.1 = .pending ∧ datagrams.recvPacket.2 = datagrams := by
  refine ⟨?_, (recvPacket_nil hqueue).2⟩
  unfold recvPacket
  split
  case h_1 event rest hcons => simp [hqueue] at hcons
  case h_2 => exact if_pos (.inl hcallbacks)

/-- Everything a step of the datagrams can be. -/
inductive Change (datagrams : WebRtcDatagrams) : Op → Report → WebRtcDatagrams → Prop where
  | accepted {isString : Bool} {data : Bytes} {following : WebRtcDatagrams}
      (hsent : Sent datagrams (if isString then .text else .packet data) following) :
      Change datagrams (.message isString data)
        (.sent (some (if isString then .text else .packet data))) following
  | lost {isString : Bool} {data : Bytes} :
      Change datagrams (.message isString data) (.sent none) datagrams
  | closed {following : WebRtcDatagrams} (hsent : Sent datagrams .closed following) :
      Change datagrams .close (.sent (some .closed)) following
  | detached {following : WebRtcDatagrams} (hkept : Kept datagrams following)
      (hqueue : following.queue = datagrams.queue)
      (hpending : following.pending = datagrams.pending + 1) :
      Change datagrams .close (.sent none) following
  | delivered {op : Op} {following : WebRtcDatagrams} (hop : op = .pollSpawned ∨ op = .pollReserved)
      (hkept : Kept datagrams following) (hqueue : following.queue = datagrams.queue ++ [.closed])
      (hpending : following.pending + 1 = datagrams.pending) :
      Change datagrams op (.sent (some .closed)) following
  | waits {following : WebRtcDatagrams} (hkept : Kept datagrams following)
      (hqueue : following.queue = datagrams.queue)
      (hpending : following.pending = datagrams.pending) :
      Change datagrams .pollSpawned (.sent none) following
  | received {event : ChannelEvent} {rest : List ChannelEvent} {following : WebRtcDatagrams}
      (hkept : Kept datagrams following) (hqueue : datagrams.queue = event :: rest)
      (hrest : following.queue = rest) (hpending : following.pending = datagrams.pending) :
      Change datagrams .recvPacket (.received (.ready event.received)) following
  | empty (hqueue : datagrams.queue = []) :
      Change datagrams .recvPacket (.received .pending) datagrams

/-- The event that a step puts at the end of the queue. -/
theorem appended_of_queue {event : ChannelEvent}
    (h : following.queue = datagrams.queue ++ [event]) :
    datagrams.appended following = some event := by
  rw [appended, h, List.getElem?_concat_length]

/-- A step that puts nothing into the queue. -/
theorem appended_of_same (h : following.queue = datagrams.queue) :
    datagrams.appended following = none := by
  rw [appended, h, List.getElem?_eq_none (Nat.le_refl _)]

/-- The steps of datagrams that are in use are the changes above. -/
theorem change_of_next {op : Op} {report : Report} (hcallbacks : datagrams.callbacks = true)
    (hreceiver : datagrams.receiver = true)
    (h : next datagrams op = some (report, following)) :
    Change datagrams op report following := by
  cases op with
  | message isString data =>
      simp only [next, Option.some.injEq, Prod.mk.injEq] at h
      obtain ⟨rfl, rfl⟩ := h
      rcases datagrams.onMessage_cases isString data with hsent | hlost
      · rw [appended_of_queue hsent.queue]
        exact .accepted hsent
      · rw [hlost, appended_of_same rfl]
        exact .lost
  | close =>
      simp only [next, Option.some.injEq, Prod.mk.injEq] at h
      obtain ⟨rfl, rfl⟩ := h
      rcases datagrams.onClose_cases with hsent | ⟨hkept, hqueue, hpending⟩
      · rw [appended_of_queue hsent.queue]
        exact .closed hsent
      · rw [appended_of_same hqueue]
        exact .detached hkept hqueue hpending
  | pollSpawned =>
      simp only [next, Option.map_eq_some_iff, Prod.mk.injEq] at h
      obtain ⟨following, hpoll, rfl, rfl⟩ := h
      obtain ⟨hkept, ⟨hqueue, hpending⟩ | ⟨hqueue, hpending⟩⟩ := pollSpawned_cases hreceiver hpoll
      · rw [appended_of_queue hqueue]
        exact .delivered (.inl rfl) hkept hqueue hpending
      · rw [appended_of_same hqueue]
        exact .waits hkept hqueue hpending
  | pollReserved =>
      simp only [next, Option.map_eq_some_iff, Prod.mk.injEq] at h
      obtain ⟨following, hpoll, rfl, rfl⟩ := h
      obtain ⟨hkept, hqueue, hpending⟩ := pollReserved_spec hpoll
      rw [appended_of_queue hqueue]
      exact .delivered (.inr rfl) hkept hqueue hpending
  | recvPacket =>
      simp only [next, Option.some.injEq, Prod.mk.injEq] at h
      obtain ⟨rfl, rfl⟩ := h
      obtain ⟨hkept, hpending⟩ := datagrams.recvPacket_kept
      cases hqueue : datagrams.queue with
      | nil =>
          obtain ⟨hresult, hsame⟩ := recvPacket_pending hcallbacks hqueue
          rw [hresult, hsame]
          exact .empty hqueue
      | cons event rest =>
          obtain ⟨hresult, hrest⟩ := recvPacket_cons hqueue
          rw [hresult]
          exact .received hkept hqueue hrest hpending

/-! ## What a log says -/

/-- The event that `recv_packet` reports by a result. -/
def taken : Except String (Option Bytes) → ChannelEvent
  | .ok (some data) => .packet data
  | .ok none => .closed
  | .error _ => .text

/-- The events put into the queue, oldest first. -/
def queued : Log → List ChannelEvent
  | [] => []
  | (_, .sent (some event)) :: log => queued log ++ [event]
  | _ :: log => queued log

/-- The messages for which there was room, oldest first. -/
def accepted : Log → List ChannelEvent
  | [] => []
  | (.message _ _, .sent (some event)) :: log => accepted log ++ [event]
  | _ :: log => accepted log

/-- What `recv_packet` has reported, oldest first. -/
def reported : Log → List ChannelEvent
  | [] => []
  | (_, .received (.ready result)) :: log => reported log ++ [taken result]
  | _ :: log => reported log

/-- How often the `on_close` callback ran. -/
def closes : Log → Nat
  | [] => 0
  | (.close, _) :: log => closes log + 1
  | _ :: log => closes log

/-- `recv_packet` reports the event that it takes. -/
theorem taken_received (event : ChannelEvent) : taken event.received = event := by
  cases event <;> rfl

/-- The order of the queue, and what became of every close. -/
structure Order (log : Log) (datagrams : WebRtcDatagrams) : Prop where
  callbacks : datagrams.callbacks = true
  receiver : datagrams.receiver = true
  fifo : queued log = reported log ++ datagrams.queue
  messages : (queued log).filter (· ≠ .closed) = accepted log
  balance : closes log = (queued log).count .closed + datagrams.pending

/-- Nothing has happened at first. -/
theorem Order.new {capacity : Nat} {start : WebRtcDatagrams}
    (h : withCapacity capacity = some start) : Order [] start := by
  unfold withCapacity at h
  split at h
  case isFalse => simp at h
  case isTrue =>
    simp only [Option.some.injEq] at h
    subst h
    exact ⟨rfl, rfl, rfl, rfl, rfl⟩

/-- Every step keeps the order. -/
theorem Order.step {log : Log} {op : Op} {report : Report} (h : Order log datagrams)
    (hchange : Change datagrams op report following) :
    Order ((op, report) :: log) following := by
  obtain ⟨hcallbacks, hreceiver, hfifo, hmessages, hbalance⟩ := h
  -- an event that is put into the queue is the newest of it
  have hput {event : ChannelEvent} (hqueue : following.queue = datagrams.queue ++ [event]) :
      queued log ++ [event] = reported log ++ following.queue := by
    rw [hqueue, hfifo, List.append_assoc]
  have hclosed : (queued log ++ [ChannelEvent.closed]).filter (· ≠ .closed) = accepted log := by
    rw [List.filter_append, hmessages]
    exact List.append_nil _
  have hcount : (queued log ++ [ChannelEvent.closed]).count .closed =
      (queued log).count .closed + 1 := by
    rw [List.count_append, List.count_singleton_self]
  cases hchange with
  | @accepted isString data _ hsent =>
      have hevent : (if isString then ChannelEvent.text else .packet data) ≠ .closed := by
        split <;> simp
      refine ⟨hsent.callbacks.trans hcallbacks, hsent.receiver.trans hreceiver,
        hput hsent.queue, ?_, ?_⟩
      · show (queued log ++ [if isString then ChannelEvent.text else .packet data]).filter
          (· ≠ .closed) = accepted log ++ [if isString then ChannelEvent.text else .packet data]
        rw [List.filter_append, hmessages, List.filter_cons_of_pos (by simpa using hevent)]
        rfl
      · show closes log =
          (queued log ++ [if isString then ChannelEvent.text else .packet data]).count .closed +
            following.pending
        rw [List.count_append, List.count_singleton, if_neg (by simpa using hevent),
          hsent.pending, hbalance]
        rfl
  | lost => exact ⟨hcallbacks, hreceiver, hfifo, hmessages, hbalance⟩
  | closed hsent =>
      refine ⟨hsent.callbacks.trans hcallbacks, hsent.receiver.trans hreceiver, hput hsent.queue,
        hclosed, ?_⟩
      show closes log + 1 = (queued log ++ [ChannelEvent.closed]).count .closed + following.pending
      rw [hcount, hsent.pending]
      omega
  | detached hkept hqueue hpending =>
      refine ⟨hkept.callbacks.trans hcallbacks, hkept.receiver.trans hreceiver,
        by rw [hqueue]; exact hfifo, hmessages, ?_⟩
      show closes log + 1 = (queued log).count .closed + following.pending
      omega
  | @delivered _ _ hop hkept hqueue hpending =>
      have hcloses : closes log =
          (queued log ++ [ChannelEvent.closed]).count .closed + following.pending := by
        rw [hcount]
        omega
      rcases hop with rfl | rfl
      · exact ⟨hkept.callbacks.trans hcallbacks, hkept.receiver.trans hreceiver, hput hqueue,
          hclosed, hcloses⟩
      · exact ⟨hkept.callbacks.trans hcallbacks, hkept.receiver.trans hreceiver, hput hqueue,
          hclosed, hcloses⟩
  | waits hkept hqueue hpending =>
      refine ⟨hkept.callbacks.trans hcallbacks, hkept.receiver.trans hreceiver,
        by rw [hqueue]; exact hfifo, hmessages, ?_⟩
      rw [hpending]
      exact hbalance
  | @received event rest _ hkept hqueue hrest hpending =>
      refine ⟨hkept.callbacks.trans hcallbacks, hkept.receiver.trans hreceiver, ?_, hmessages, ?_⟩
      · show queued log = reported log ++ [taken event.received] ++ following.queue
        rw [hfifo, hqueue, hrest, taken_received, List.append_assoc]
        rfl
      · rw [hpending]
        exact hbalance
  | empty => exact ⟨hcallbacks, hreceiver, hfifo, hmessages, hbalance⟩

/-- The order holds in every run. -/
theorem Exec.order {capacity : Nat} {start : WebRtcDatagrams} {log : Log}
    (hstart : withCapacity capacity = some start) (h : Exec start log datagrams) :
    Order log datagrams := by
  induction h with
  | refl => exact .new hstart
  | snoc _ hnext ih => exact ih.step (change_of_next ih.callbacks ih.receiver hnext)

/-- What was put into the queue earlier was put into it. -/
theorem queued_isPrefix (later earlier : Log) : queued earlier <+: queued (later ++ earlier) := by
  induction later with
  | nil => exact List.prefix_refl _
  | cons entry later ih =>
      obtain ⟨op, report⟩ := entry
      rcases report with (_ | event) | result
      · exact ih
      · exact ih.trans (List.prefix_append _ _)
      · exact ih

/-- A `None` is reported by taking a close from the queue. -/
theorem closed_of_received_none {report : Report} {log : Log} (h : Order log datagrams)
    (hnext : next datagrams .recvPacket = some (report, following))
    (hreport : report = .received (.ready (.ok none))) :
    ∃ rest, datagrams.queue = .closed :: rest ∧ following.queue = rest := by
  cases change_of_next h.callbacks h.receiver hnext with
  | delivered hop => simp at hop
  | @received event rest _ _ hqueue hrest =>
      cases event with
      | closed => exact ⟨rest, hqueue, hrest⟩
      | packet | text => simp [ChannelEvent.received] at hreport
  | empty => simp at hreport

/-- Before the first close, only messages are put into the queue. -/
theorem Order.queued_eq_accepted {log : Log} (h : Order log datagrams) (hcloses : closes log = 0) :
    queued log = accepted log ∧ .closed ∉ queued log := by
  have hbalance := h.balance
  have hnone : .closed ∉ queued log := List.count_eq_zero.mp (by omega)
  refine ⟨?_, hnone⟩
  rw [← h.messages, List.filter_eq_self.mpr]
  intro event hmem
  simpa using fun hclosed : event = .closed ↦ hnone (hclosed ▸ hmem)

/-- The packets put into the queue are those of the accepted messages. -/
theorem Order.packets_accepted {log : Log} (h : Order log datagrams) :
    (accepted log).filterMap ChannelEvent.data? = (queued log).filterMap ChannelEvent.data? := by
  rw [← h.messages, List.filterMap_filter]
  refine List.filterMap_congr fun event _ ↦ ?_
  cases event <;> rfl

/-- What comes before a marker does not reach beyond it. -/
theorem isPrefix_of_not_mem {first second rest : List ChannelEvent} {marker : ChannelEvent}
    (h : first <+: second ++ marker :: rest) (hmarker : marker ∉ first) : first <+: second := by
  rcases List.prefix_or_prefix_of_prefix h (List.prefix_append second _) with hle | ⟨more, rfl⟩
  · exact hle
  · rw [List.prefix_append_right_inj] at h
    rcases List.prefix_cons_iff.mp h with rfl | ⟨tail, rfl, _⟩
    · simp
    · exact absurd (by simp) hmarker

/-- Datagrams of any capacity whose channel keeps its callbacks, in every interleaving of the
callbacks, the detached sends and the polls of `recv_packet`. The packets that were returned are the
first of the binary messages for which there was room. `None` is returned only by taking a close
from the queue. Before any `None`, everything that was accepted before the first close has been
reported. Every close was taken, is queued or is held by a detached send. -/
theorem close_follows_messages {capacity : Nat} {start : WebRtcDatagrams} {log : Log}
    (hstart : withCapacity capacity = some start) (h : Exec start log datagrams) :
    (reported log).filterMap ChannelEvent.data? <+: (accepted log).filterMap ChannelEvent.data? ∧
    (datagrams.recvPacket.1 = .ready (.ok none) →
      ∃ rest, datagrams.queue = .closed :: rest ∧ datagrams.recvPacket.2.queue = rest) ∧
    (∀ later middle before,
      log = later ++ (.recvPacket, .received (.ready (.ok none))) :: (middle ++ before) →
      closes before = 0 → accepted before <+: reported (middle ++ before)) ∧
    closes log = (reported log).count .closed + datagrams.queue.count .closed + datagrams.pending ∧
    (0 < closes log → .closed ∉ reported log →
      .closed ∈ datagrams.queue ∨ 0 < datagrams.pending) := by
  have horder := Exec.order hstart h
  have hbalance : closes log =
      (reported log).count .closed + datagrams.queue.count .closed + datagrams.pending := by
    rw [horder.balance, horder.fifo, List.count_append]
  refine ⟨?_, fun hnone ↦ ?_, fun later middle before hlog hcloses ↦ ?_, hbalance,
    fun hpos hnot ↦ ?_⟩
  · rw [horder.packets_accepted, horder.fifo, List.filterMap_append]
    exact List.prefix_append _ _
  · exact closed_of_received_none horder rfl (by rw [hnone])
  · subst hlog
    obtain ⟨_, hnone, _⟩ := Execution.Exec.split h
    cases hnone with
    | @snoc _ current _ _ _ hearlier hnext =>
        obtain ⟨_, hbefore, _⟩ := Execution.Exec.split hearlier
        have hcurrent := Exec.order hstart hearlier
        obtain ⟨rest, hqueue, _⟩ := closed_of_received_none hcurrent hnext rfl
        obtain ⟨haccepted, hnot⟩ := (Exec.order hstart hbefore).queued_eq_accepted hcloses
        have hqueued := queued_isPrefix middle before
        rw [hcurrent.fifo, hqueue] at hqueued
        rw [← haccepted]
        exact isPrefix_of_not_mem hqueued hnot
  · rw [List.count_eq_zero.mpr hnot] at hbalance
    by_cases hqueue : .closed ∈ datagrams.queue
    · exact .inl hqueue
    · rw [List.count_eq_zero.mpr hqueue] at hbalance
      exact .inr (by omega)

/-- A close that finds the queue full is handed to a detached send. The next two messages are lost,
since there is no room and then the freed permit belongs to the detached send, and the close follows
the one packet that was accepted. -/
theorem close_follows_messages_of_full_queue : ∃ start log datagrams,
    withCapacity 1 = some start ∧ Exec start log datagrams ∧ accepted log = [.packet [1]] ∧
    reported log = [.packet [1], .closed] ∧ datagrams.queue = [] ∧
    closes log = (reported log).count .closed + datagrams.queue.count .closed +
      datagrams.pending := by
  have hrun : Execution.run next
      [.message false [1], .close, .message false [2], .pollSpawned, .recvPacket, .message true [3],
        .pollReserved, .recvPacket] ([], (withCapacity 1).get rfl) = some (_, _) := rfl
  have hstart : withCapacity 1 = some ((withCapacity 1).get rfl) := (Option.some_get rfl).symm
  have hexec : Exec _ _ _ := Execution.exec_of_run hrun
  exact ⟨_, _, _, hstart, hexec, rfl, rfl, rfl, (close_follows_messages hstart hexec).2.2.2.1⟩

end WebRtcDatagrams

end Unbounded.Rtc
