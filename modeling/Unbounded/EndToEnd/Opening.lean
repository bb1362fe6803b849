import Unbounded.PeerProxy.Opening

/-!
# Both waits for the DataChannel

The consumer creates its one channel itself, so that its `on_open` handler has no cell of datagrams:
it takes the sender and sends, under one lock. `data_channel_wait_decided_once` puts the wait of the
peer proxy and the wait of the consumer next to each other. Both give what the first deciding event
decides.
-/

namespace Unbounded.Consumer.Opening

open Execution (Next)
open Rtc (PeerConnectionState DataChannelWait Event Opening dataChannelLabel decision events)

/-- The wait of a consumer with its callbacks. -/
structure State where
  wait : DataChannelWait
  /-- The connection was not dropped, and neither were its callbacks. -/
  callbacks : Bool
  deriving DecidableEq, Repr

/-- A session that has set its callbacks. -/
def State.new : State :=
  ⟨.new, true⟩

/-- What can happen. -/
inductive Op where
  | opened
  | stateChanged (state : PeerConnectionState)
  /-- The connection is dropped. -/
  | released
  deriving DecidableEq, Repr

/-- The name of the consumer's channel. -/
def channel : Nat := 0

/-- One step, with the event that a callback is called for. -/
def next : Next State Op (Option Event)
  | state, .opened =>
      if state.callbacks then
        some (some (.opened channel dataChannelLabel),
          { state with wait := state.wait.takeAndSend (.ok channel) })
      else none
  | state, .stateChanged connection =>
      if state.callbacks then
        some (some (.state connection),
          { state with wait := state.wait.failDataChannelWait connection })
      else none
  | state, .released =>
      if state.callbacks then
        some (none, { state with wait := state.wait.release, callbacks := false })
      else none

/-- A log of the callbacks. -/
abbrev Log := Execution.Log Op (Option Event)

/-- Executions of the callbacks. -/
abbrev Exec := Execution.Exec next .new

variable {state following : State} {op : Op} {event : Option Event} {log : Log}
  {result : Opening}

/-- Everything a step can be. -/
inductive Change (state : State) : Op → Option Event → State → Prop where
  | opened : Change state .opened (some (.opened channel dataChannelLabel))
      { state with wait := state.wait.takeAndSend (.ok channel) }
  | stateChanged (connection : PeerConnectionState) :
      Change state (.stateChanged connection) (some (.state connection))
        { state with wait := state.wait.failDataChannelWait connection }
  | release : Change state .released none
      { state with wait := state.wait.release, callbacks := false }

/-- A step is one of the changes, and there are none once the connection was dropped. -/
theorem change_of_next (h : next state op = some (event, following)) :
    state.callbacks = true ∧ Change state op event following := by
  cases op with
  | opened =>
      simp only [next, Option.ite_none_right_eq_some, Option.some.injEq, Prod.mk.injEq] at h
      obtain ⟨hcallbacks, rfl, rfl⟩ := h
      exact ⟨hcallbacks, .opened⟩
  | stateChanged connection =>
      simp only [next, Option.ite_none_right_eq_some, Option.some.injEq, Prod.mk.injEq] at h
      obtain ⟨hcallbacks, rfl, rfl⟩ := h
      exact ⟨hcallbacks, .stateChanged connection⟩
  | released =>
      simp only [next, Option.ite_none_right_eq_some, Option.some.injEq, Prod.mk.injEq] at h
      obtain ⟨hcallbacks, rfl, rfl⟩ := h
      exact ⟨hcallbacks, .release⟩

/-- What must have happened for the sender to be where it is. -/
inductive Story (log : Log) (state : State) : Prop where
  | waiting (hdecision : decision (events log) = none) (hwait : state.wait = .new)
  | settled {result : Opening} (hdecision : decision (events log) = some result)
      (hwait : state.wait = .settled result)
  | released (hdecision : decision (events log) = none)
      (hwait : state.wait = DataChannelWait.new.take.abandon) (hcallbacks : state.callbacks = false)

/-- A settled wait stays as it is. -/
theorem settled_of_change (hwait : state.wait = .settled result)
    (h : Change state op event following) : following.wait = .settled result := by
  cases h with
  | opened =>
      show state.wait.takeAndSend (.ok channel) = _
      rw [hwait]
      rfl
  | stateChanged connection =>
      show state.wait.failDataChannelWait connection = _
      rw [hwait]
      exact DataChannelWait.failDataChannelWait_of_sender rfl connection
  | release =>
      show state.wait.release = _
      rw [hwait]
      rfl

/-- The first step that decides anything is an open or a terminal state. -/
theorem story_of_waiting (hdecision : decision (events log) = none) (hwait : state.wait = .new)
    (h : Change state op event following) : Story ((op, event) :: log) following := by
  cases h with
  | opened =>
      have hafter := Rtc.decision_cons_of_none hdecision Op.opened
        (.opened channel dataChannelLabel)
      refine .settled (hafter.trans (Event.decides_data_channel channel)) ?_
      show state.wait.takeAndSend (.ok channel) = _
      rw [hwait]
      rfl
  | stateChanged connection =>
      have hafter := Rtc.decision_cons_of_none hdecision (Op.stateChanged connection)
        (.state connection)
      by_cases hterminal : Rtc.isTerminalPeerState connection = true
      · refine .settled (hafter.trans (Event.decides_terminal hterminal)) ?_
        show state.wait.failDataChannelWait connection = _
        rw [hwait]
        exact DataChannelWait.failDataChannelWait_new_of_terminal hterminal
      · refine .waiting (hafter.trans (Event.decides_not_terminal hterminal)) ?_
        show state.wait.failDataChannelWait connection = _
        rw [hwait]
        exact DataChannelWait.failDataChannelWait_new_of_not_terminal hterminal
  | release =>
      refine .released hdecision ?_ rfl
      show state.wait.release = _
      rw [hwait]
      rfl

/-- Every execution has its story. -/
theorem Exec.story (h : Exec log state) : Story log state := by
  induction h with
  | refl => exact .waiting rfl rfl
  | snoc _ hnext ih =>
      obtain ⟨halive, hchange⟩ := change_of_next hnext
      cases ih with
      | waiting hdecision hwait => exact story_of_waiting hdecision hwait hchange
      | settled hdecision hwait =>
          exact .settled (Rtc.decision_cons_of_some hdecision _ _)
            (settled_of_change hwait hchange)
      | released _ _ hcallbacks =>
          rw [hcallbacks] at halive
          cases halive

/-- The wait is decided once, by the first event that decides. -/
structure DecidedOnce (log : Log) (state : State) : Prop where
  results : state.wait.results = (decision (events log)).toList
  /-- Nothing that happens later changes what was sent. -/
  kept : state.wait.results ≠ [] → ∀ later final, Execution.Exec next state later final →
    final.wait = state.wait
  /-- The sender is not dropped unsent while there are callbacks. -/
  alive : state.callbacks = true →
    state.wait.dropped = false ∧ state.wait.outcome ≠ some .closed

/-- The story decides what the session receives. -/
theorem Story.decidedOnce (h : Story log state) : DecidedOnce log state := by
  cases h with
  | waiting hdecision hwait =>
      refine ⟨?_, ?_, ?_⟩ <;> simp [hdecision, hwait, DataChannelWait.new, DataChannelWait.outcome]
  | @settled result hdecision hwait =>
      refine ⟨?_, ?_, ?_⟩
      · rw [hdecision, hwait]
        rfl
      · intro _ later final hlater
        rw [hwait]
        exact hlater.invariant hwait fun hbefore hnext ↦
          settled_of_change hbefore (change_of_next hnext).2
      · intro _
        rw [hwait]
        exact ⟨rfl, DataChannelWait.outcome_settled result⟩
  | released hdecision hwait hcallbacks =>
      refine ⟨?_, ?_, ?_⟩ <;> simp [hdecision, hwait, hcallbacks, DataChannelWait.new,
        DataChannelWait.take, DataChannelWait.abandon]

end Unbounded.Consumer.Opening

namespace Unbounded

open Rtc (DataChannelWait Event dataChannelLabel events)

/-- An event of a connection whose one channel is the consumer's. -/
def SingleChannel (event : Event) : Prop :=
  ∀ index label, event = .opened index label →
    index = Consumer.Opening.channel ∧ label = dataChannelLabel

/-- The peer proxy and the consumer after the same events of one channel. -/
structure SameWait (peer : PeerProxy.Opening.State) (consumer : Consumer.Opening.State) : Prop where
  peerAlive : peer.callbacks = true
  consumerAlive : consumer.callbacks = true
  wait : peer.wait = consumer.wait
  /-- The one channel has its datagrams as long as the sender is in its cell. -/
  channel : ∃ datagrams, peer.channels = [⟨dataChannelLabel, datagrams, .idle⟩] ∧
    (peer.wait.sender = true → datagrams = true)

/-- Both sides handle an open of the channel. The handler of the peer proxy runs through, and finds
the datagrams if it finds the sender. -/
theorem SameWait.opened {wait : DataChannelWait} {datagrams : Bool}
    (hdatagrams : wait.sender = true → datagrams = true) :
    ∃ middle after,
      PeerProxy.Opening.next ⟨wait, [⟨dataChannelLabel, datagrams, .idle⟩], true⟩ (.opened 0) =
        some (some (.opened 0 dataChannelLabel), middle) ∧
      PeerProxy.Opening.next middle (.handedOver 0) =
        some (none, ⟨after, [⟨dataChannelLabel, false, .idle⟩], true⟩) ∧
      after = wait.takeAndSend (.ok 0) ∧ after.sender = false := by
  obtain ⟨sender, results, dropped⟩ := wait
  cases sender with
  | true =>
      obtain rfl := hdatagrams rfl
      exact ⟨_, _, rfl, rfl, rfl, rfl⟩
  | false => exact ⟨_, _, rfl, rfl, rfl, rfl⟩

/-- Both sides handle one event. -/
theorem SameWait.step {peer : PeerProxy.Opening.State} {consumer : Consumer.Opening.State}
    {log : PeerProxy.Opening.Log} {consumerLog : Consumer.Opening.Log} {event : Event}
    (hsame : SameWait peer consumer) (hpeer : PeerProxy.Opening.Exec log peer)
    (hconsumer : Consumer.Opening.Exec consumerLog consumer) (hsingle : SingleChannel event) :
    ∃ newLog newPeer newConsumerLog newConsumer, PeerProxy.Opening.Exec newLog newPeer ∧
      Consumer.Opening.Exec newConsumerLog newConsumer ∧ events newLog = events log ++ [event] ∧
      events newConsumerLog = events consumerLog ++ [event] ∧ SameWait newPeer newConsumer := by
  obtain ⟨wait, channels, _⟩ := peer
  obtain ⟨_, _⟩ := consumer
  obtain ⟨rfl, rfl, rfl, datagrams, rfl, hdatagrams⟩ := hsame
  cases event with
  | state connection =>
      have hpeerStep : PeerProxy.Opening.next
          ⟨wait, [⟨dataChannelLabel, datagrams, .idle⟩], true⟩ (.stateChanged connection) =
          some (some (.state connection), _) := rfl
      have hconsumerStep : Consumer.Opening.next ⟨wait, true⟩ (.stateChanged connection) =
          some (some (.state connection), _) := rfl
      refine ⟨_, _, _, _, hpeer.snoc hpeerStep, hconsumer.snoc hconsumerStep,
        Rtc.events_cons_some _ _ _, Rtc.events_cons_some _ _ _, rfl, rfl, rfl, datagrams, rfl, ?_⟩
      exact fun hsender ↦ hdatagrams (DataChannelWait.sender_of_failDataChannelWait hsender)
  | opened index label =>
      obtain ⟨rfl, rfl⟩ := hsingle index label rfl
      obtain ⟨middle, after, htake, hhand, hafter, hsender⟩ := SameWait.opened hdatagrams
      have hconsumerStep : Consumer.Opening.next ⟨wait, true⟩ .opened =
          some (some (.opened 0 dataChannelLabel), _) := rfl
      have hevents := Rtc.events_cons_some (PeerProxy.Opening.Op.opened 0)
        (.opened 0 dataChannelLabel) log
      refine ⟨_, _, _, _, (hpeer.snoc htake).snoc hhand, hconsumer.snoc hconsumerStep, hevents,
        Rtc.events_cons_some _ _ _, rfl, rfl, hafter, false, rfl, ?_⟩
      intro hstill
      rw [hsender] at hstill
      cases hstill

/-- Both sides can handle any events of one channel, and then have the same wait. -/
theorem exists_sameWait (trace : List Event) (hsingle : ∀ event ∈ trace, SingleChannel event) :
    ∃ log peer consumerLog consumer, PeerProxy.Opening.Exec log peer ∧
      Consumer.Opening.Exec consumerLog consumer ∧ events log = trace ∧
      events consumerLog = trace ∧ SameWait peer consumer := by
  induction trace using List.reverseRecOn with
  | nil =>
      have hincoming : PeerProxy.Opening.next .new (.incoming dataChannelLabel) = some (none, _) :=
        rfl
      exact ⟨_, _, [], .new, Execution.Exec.refl.snoc hincoming, .refl, rfl, rfl, rfl, rfl, rfl,
        true, rfl, fun _ ↦ rfl⟩
  | append_singleton trace event ih =>
      obtain ⟨log, peer, consumerLog, consumer, hpeer, hconsumer, htrace, hconsumerTrace, hsame⟩ :=
        ih fun other hother ↦ hsingle other (List.mem_append_left _ hother)
      have hstep := hsame.step hpeer hconsumer
        (hsingle event (List.mem_append_right _ (List.mem_singleton_self event)))
      rwa [htrace, hconsumerTrace] at hstep

/-- Whatever channels the consumer creates and however the callbacks interleave, the wait of the
peer proxy is decided once, by the first open of a data channel or by the first terminal state,
whichever comes first, and the sender is not dropped unsent before the connection is. The wait of
the consumer is decided in the same way. On the same events both give the same result, and every
trace of events of one channel is one that both can have. -/
theorem data_channel_wait_decided_once {log : PeerProxy.Opening.Log}
    {peer : PeerProxy.Opening.State} {consumerLog : Consumer.Opening.Log}
    {consumer : Consumer.Opening.State} (hpeer : PeerProxy.Opening.Exec log peer)
    (hconsumer : Consumer.Opening.Exec consumerLog consumer) :
    PeerProxy.Opening.DecidedOnce log peer ∧
      Consumer.Opening.DecidedOnce consumerLog consumer ∧
      (events consumerLog = events log → (∀ channel ∈ peer.channels, channel.handler = .idle) →
        consumer.wait.results = peer.wait.results) ∧
      ∀ trace : List Event, (∀ event ∈ trace, SingleChannel event) →
        ∃ log peer consumerLog consumer, PeerProxy.Opening.Exec log peer ∧
          Consumer.Opening.Exec consumerLog consumer ∧ events log = trace ∧
          events consumerLog = trace ∧ peer.wait = consumer.wait := by
  refine ⟨hpeer.story.decidedOnce, hconsumer.story.decidedOnce, ?_, ?_⟩
  · intro hevents hidle
    rw [hconsumer.story.decidedOnce.results, hpeer.story.results_of_idle hidle, hevents]
  · intro trace hsingle
    obtain ⟨log, peer, consumerLog, consumer, hpeer, hconsumer, htrace, hconsumerTrace, hsame⟩ :=
      exists_sameWait trace hsingle
    exact ⟨log, peer, consumerLog, consumer, hpeer, hconsumer, htrace, hconsumerTrace, hsame.wait⟩

/-- A channel with another label opens, the data channel opens, and the connection fails while the
handler of the data channel is between its two locks. -/
theorem data_channel_wait_decided_by_open :
    ∃ log peer consumerLog consumer, PeerProxy.Opening.Exec log peer ∧
      Consumer.Opening.Exec consumerLog consumer ∧ peer.wait.results = [.ok 1] ∧
      consumer.wait.results = [.ok 0] ∧ PeerProxy.Opening.DecidedOnce log peer ∧
      Consumer.Opening.DecidedOnce consumerLog consumer := by
  have hrun : Execution.run PeerProxy.Opening.next
      [.incoming "control", .incoming "data", .opened 0, .opened 1, .stateChanged .failed,
       .handedOver 1, .opened 1, .handedOver 1, .released] ([], .new) = some (_, _) := rfl
  have hconsumerRun : Execution.run Consumer.Opening.next
      [.opened, .stateChanged .failed, .opened, .released] ([], .new) = some (_, _) := rfl
  have hpeer : PeerProxy.Opening.Exec _ _ := Execution.exec_of_run hrun
  have hconsumer : Consumer.Opening.Exec _ _ := Execution.exec_of_run hconsumerRun
  obtain ⟨hdecided, hconsumerDecided, _⟩ := data_channel_wait_decided_once hpeer hconsumer
  exact ⟨_, _, _, _, hpeer, hconsumer, rfl, rfl, hdecided, hconsumerDecided⟩

end Unbounded
