import Unbounded.Execution.Slots
import Unbounded.Rtc.Opening

/-!
# The DataChannel of a peer proxy

The consumer creates the channels, so that the peer proxy learns of them from `on_data_channel`, of
as many and with such labels as the consumer likes. For a channel with the right label it sets an
`on_open` handler, which takes the sender of the wait first and the datagrams of its own channel
then. Each of the two is under a lock of its own, so that the handlers of other channels and the
state handler may come in between. `Op.opened` is the first half of a handler's call and
`Op.handedOver` the second. WebRTC does not call the handler of a channel while a call of that same
handler runs: a boxed handler is called through a unique reference to it.

`Story` says who has the sender. `Exec.story` is the invariant over every interleaving.
-/

namespace Unbounded.PeerProxy.Opening

open Execution (Next)
open Rtc (PeerConnectionState DataChannelWait Event Opening dataChannelLabel decision events)

/-- Where the `on_open` handler of a channel is. -/
inductive Handler where
  | idle
  /-- Between the two locks, with what it found in the first cell. -/
  | running (sender : Bool)
  deriving DecidableEq, Repr

/-- A channel that the consumer created. -/
structure Channel where
  label : String
  /-- The channel's own cell still has the datagrams. -/
  datagrams : Bool
  handler : Handler
  deriving DecidableEq, Repr

/-- `on_data_channel`: datagrams and a handler are made for a channel with the right label. -/
def Channel.incoming (label : String) : Channel :=
  ⟨label, label == dataChannelLabel, .idle⟩

/-- The wait of a session with everything that its callbacks own. -/
structure State where
  wait : DataChannelWait
  channels : List Channel
  /-- The connection was not dropped, and neither were its callbacks. -/
  callbacks : Bool
  deriving DecidableEq, Repr

/-- A session that has set its callbacks. -/
def State.new : State :=
  ⟨.new, [], true⟩

/-- What can happen. -/
inductive Op where
  | incoming (label : String)
  /-- `on_open` is called, up to the end of its first statement. -/
  | opened (channel : Nat)
  /-- The rest of that call. -/
  | handedOver (channel : Nat)
  | stateChanged (state : PeerConnectionState)
  /-- The connection is dropped. -/
  | released
  deriving DecidableEq, Repr

/-- `data_channel_tx.lock().unwrap().take()` in the handler of a channel. -/
def State.takeSender (state : State) (index : Nat) (channel : Channel) : State :=
  { state with
    wait := state.wait.take
    channels := state.channels.set index { channel with handler := .running state.wait.sender } }

/-- The rest of the handler: it sends if it has both the sender and the datagrams, and drops what it
has if it has only one. -/
def State.handOver (state : State) (index : Nat) (channel : Channel) (sender : Bool) : State :=
  { state with
    wait := match sender, channel.datagrams with
      | true, true => state.wait.send (.ok index)
      | true, false => state.wait.abandon
      | false, _ => state.wait
    channels := state.channels.set index { channel with datagrams := false, handler := .idle } }

/-- One step, with the event that a callback is called for. -/
def next : Next State Op (Option Event)
  | state, .incoming label =>
      if state.callbacks then
        some (none, { state with channels := state.channels ++ [.incoming label] })
      else none
  | state, .opened index =>
      if state.callbacks then
        match state.channels[index]? with
        | some ⟨label, datagrams, .idle⟩ =>
            some (some (.opened index label),
              -- there is no handler for any other label
              if label = dataChannelLabel then state.takeSender index ⟨label, datagrams, .idle⟩
              else state)
        | _ => none
      else none
  | state, .handedOver index =>
      match state.channels[index]? with
      | some ⟨label, datagrams, .running sender⟩ =>
          some (none, state.handOver index ⟨label, datagrams, .running sender⟩ sender)
      | _ => none
  | state, .stateChanged connection =>
      if state.callbacks then
        some (some (.state connection),
          { state with wait := state.wait.failDataChannelWait connection })
      else none
  | state, .released =>
      if state.callbacks then
        some (none, { state with wait := state.wait.release, callbacks := false })
      else none

/-- A log of the callbacks. -/
abbrev Log := Execution.Log Op (Option Event)

/-- Executions of the callbacks. -/
abbrev Exec := Execution.Exec next .new

/-! ## What a step can do -/

variable {state following : State} {op : Op} {event : Option Event} {log : Log}
  {index : Nat} {result : Opening}

/-- Everything a step can be. -/
inductive Change (state : State) : Op → Option Event → State → Prop where
  | incoming (hcallbacks : state.callbacks = true) (label : String) :
      Change state (.incoming label) none
        { state with channels := state.channels ++ [.incoming label] }
  | takeSender (hcallbacks : state.callbacks = true) {index : Nat} {datagrams : Bool}
      (hchannel : state.channels[index]? = some ⟨dataChannelLabel, datagrams, .idle⟩) :
      Change state (.opened index) (some (.opened index dataChannelLabel))
        (state.takeSender index ⟨dataChannelLabel, datagrams, .idle⟩)
  | ignore (hcallbacks : state.callbacks = true) {index : Nat} {label : String}
      (hlabel : label ≠ dataChannelLabel) :
      Change state (.opened index) (some (.opened index label)) state
  | handOver {index : Nat} {label : String} {datagrams sender : Bool}
      (hchannel : state.channels[index]? = some ⟨label, datagrams, .running sender⟩) :
      Change state (.handedOver index) none
        (state.handOver index ⟨label, datagrams, .running sender⟩ sender)
  | stateChanged (hcallbacks : state.callbacks = true) (connection : PeerConnectionState) :
      Change state (.stateChanged connection) (some (.state connection))
        { state with wait := state.wait.failDataChannelWait connection }
  | release (hcallbacks : state.callbacks = true) :
      Change state .released none
        { state with wait := state.wait.release, callbacks := false }

/-- Every step of the callbacks and the wait is a `Change`. -/
theorem change_of_next (h : next state op = some (event, following)) :
    Change state op event following := by
  cases op with
  | incoming label =>
      simp only [next, Option.ite_none_right_eq_some, Option.some.injEq, Prod.mk.injEq] at h
      obtain ⟨hcallbacks, rfl, rfl⟩ := h
      exact .incoming hcallbacks label
  | opened index =>
      simp only [next, Option.ite_none_right_eq_some] at h
      obtain ⟨hcallbacks, h⟩ := h
      split at h
      · rename_i label datagrams hchannel
        simp only [Option.some.injEq, Prod.mk.injEq] at h
        obtain ⟨rfl, rfl⟩ := h
        by_cases hlabel : label = dataChannelLabel
        · subst hlabel
          rw [if_pos rfl]
          exact .takeSender hcallbacks hchannel
        · rw [if_neg hlabel]
          exact .ignore hcallbacks hlabel
      · cases h
  | handedOver index =>
      simp only [next] at h
      split at h
      · rename_i label datagrams sender hchannel
        simp only [Option.some.injEq, Prod.mk.injEq] at h
        obtain ⟨rfl, rfl⟩ := h
        exact .handOver hchannel
      · cases h
  | stateChanged connection =>
      simp only [next, Option.ite_none_right_eq_some, Option.some.injEq, Prod.mk.injEq] at h
      obtain ⟨hcallbacks, rfl, rfl⟩ := h
      exact .stateChanged hcallbacks connection
  | released =>
      simp only [next, Option.ite_none_right_eq_some, Option.some.injEq, Prod.mk.injEq] at h
      obtain ⟨hcallbacks, rfl, rfl⟩ := h
      exact .release hcallbacks

/-! ## Who has the sender -/

/-- No handler has the sender, apart from the one of a channel. -/
def NoHolderBut (index : Nat) (channels : List Channel) : Prop :=
  ∀ (other : Nat) (channel : Channel), channels[other]? = some channel → other ≠ index →
    channel.handler ≠ .running true

/-- No handler has the sender. -/
def NoHolder (channels : List Channel) : Prop :=
  ∀ (index : Nat) (channel : Channel), channels[index]? = some channel →
    channel.handler ≠ .running true

/-- No handler was called, and every channel with the right label has its datagrams. -/
def Untouched (channels : List Channel) : Prop :=
  ∀ (index : Nat) (channel : Channel), channels[index]? = some channel →
    channel.handler = .idle ∧ (channel.label = dataChannelLabel → channel.datagrams = true)

variable {channels : List Channel} {channel : Channel}

/-- A new channel has no sender. -/
theorem NoHolder.append (h : NoHolder channels) (label : String) :
    NoHolder (channels ++ [.incoming label]) := by
  intro other channel hchannel
  rcases Execution.getElem?_append_cases hchannel with ⟨_, rfl⟩ | ⟨_, hbefore⟩
  · exact Handler.noConfusion
  · exact h other channel hbefore

/-- A handler that moves without the sender gets none. -/
theorem NoHolder.set (h : NoHolder channels) (hchannel : channel.handler ≠ .running true) :
    NoHolder (channels.set index channel) := by
  intro other found hfound
  rcases Execution.getElem?_set_cases hfound with ⟨_, rfl⟩ | ⟨_, hbefore⟩
  · exact hchannel
  · exact h other found hbefore

/-- A new channel has no sender. -/
theorem NoHolderBut.append (h : NoHolderBut index channels) (label : String) :
    NoHolderBut index (channels ++ [.incoming label]) := by
  intro other channel hchannel hother
  rcases Execution.getElem?_append_cases hchannel with ⟨_, rfl⟩ | ⟨_, hbefore⟩
  · exact Handler.noConfusion
  · exact h other channel hbefore hother

/-- A handler that moves without the sender gets none. -/
theorem NoHolderBut.set {moved : Nat} (h : NoHolderBut index channels)
    (hchannel : channel.handler ≠ .running true) :
    NoHolderBut index (channels.set moved channel) := by
  intro other found hfound hother
  rcases Execution.getElem?_set_cases hfound with ⟨_, rfl⟩ | ⟨_, hbefore⟩
  · exact hchannel
  · exact h other found hbefore hother

/-- When the one handler that has the sender gives it away, none has it. -/
theorem NoHolderBut.noHolder_set (h : NoHolderBut index channels)
    (hchannel : channel.handler ≠ .running true) : NoHolder (channels.set index channel) := by
  intro other found hfound
  rcases Execution.getElem?_set_cases hfound with ⟨_, rfl⟩ | ⟨hne, hbefore⟩
  · exact hchannel
  · exact h other found hbefore hne.symm

/-- Where no handler was called, none has the sender. -/
theorem Untouched.noHolder (h : Untouched channels) : NoHolder channels := by
  intro index channel hchannel hrunning
  rw [(h index channel hchannel).1] at hrunning
  cases hrunning

/-- A channel comes with its datagrams. -/
theorem Untouched.append (h : Untouched channels) (label : String) :
    Untouched (channels ++ [.incoming label]) := by
  intro other channel hchannel
  rcases Execution.getElem?_append_cases hchannel with ⟨_, rfl⟩ | ⟨_, hbefore⟩
  · exact ⟨rfl, fun hlabel ↦ beq_iff_eq.2 hlabel⟩
  · exact h other channel hbefore

/-- The first handler to be called is then the only one. -/
theorem Untouched.noHolderBut_set (h : Untouched channels) (channel : Channel) :
    NoHolderBut index (channels.set index channel) := by
  intro other found hfound hother
  rcases Execution.getElem?_set_cases hfound with ⟨rfl, _⟩ | ⟨_, hbefore⟩
  · exact absurd rfl hother
  · exact h.noHolder other found hbefore

/-- What must have happened for the sender to be where it is. -/
inductive Story (log : Log) (state : State) : Prop where
  /-- Nothing was decided, and the sender is in its cell. -/
  | waiting (hdecision : decision (events log) = none) (hwait : state.wait = .new)
      (huntouched : Untouched state.channels)
  /-- The channel that opened first has it, and has the datagrams to send. -/
  | handingOver {index : Nat} (hdecision : decision (events log) = some (.ok index))
      (hwait : state.wait = DataChannelWait.new.take)
      (hchannel : state.channels[index]? = some ⟨dataChannelLabel, true, .running true⟩)
      (hothers : NoHolderBut index state.channels)
  /-- It has sent what was decided. -/
  | settled {result : Opening} (hdecision : decision (events log) = some result)
      (hwait : state.wait = .settled result) (hholder : NoHolder state.channels)
  /-- The callbacks were dropped before anything was decided. -/
  | released (hdecision : decision (events log) = none)
      (hwait : state.wait = DataChannelWait.new.take.abandon) (hcallbacks : state.callbacks = false)
      (huntouched : Untouched state.channels)

/-- A settled wait stays as it is. -/
theorem settled_of_change (hwait : state.wait = .settled result) (hholder : NoHolder state.channels)
    (h : Change state op event following) :
    following.wait = .settled result ∧ NoHolder following.channels := by
  cases h with
  | incoming _ label => exact ⟨hwait, hholder.append label⟩
  | takeSender _ hchannel =>
      refine ⟨congrArg DataChannelWait.take hwait, hholder.set ?_⟩
      rw [hwait]
      exact fun hrunning ↦ nomatch hrunning
  | ignore => exact ⟨hwait, hholder⟩
  | @handOver index label datagrams sender hchannel =>
      have hsender : sender = false := by
        cases sender with
        | false => rfl
        | true => exact absurd rfl (hholder index _ hchannel)
      subst hsender
      exact ⟨hwait, hholder.set Handler.noConfusion⟩
  | stateChanged _ connection =>
      refine ⟨?_, hholder⟩
      show state.wait.failDataChannelWait connection = _
      rw [hwait]
      exact DataChannelWait.failDataChannelWait_of_sender rfl connection
  | release =>
      refine ⟨?_, hholder⟩
      show state.wait.release = _
      rw [hwait]
      rfl

/-- The first step that decides anything is an open or a terminal state. -/
theorem story_of_waiting (hdecision : decision (events log) = none) (hwait : state.wait = .new)
    (huntouched : Untouched state.channels) (h : Change state op event following) :
    Story ((op, event) :: log) following := by
  cases h with
  | incoming _ label => exact .waiting hdecision hwait (huntouched.append label)
  | @takeSender _ index datagrams hchannel =>
      have hdatagrams : datagrams = true := (huntouched index _ hchannel).2 rfl
      subst hdatagrams
      refine .handingOver ?_ (congrArg DataChannelWait.take hwait) ?_
        (huntouched.noHolderBut_set _)
      · rw [Rtc.decision_cons_of_none hdecision]
        exact Event.decides_data_channel index
      · rw [← show state.wait.sender = true by rw [hwait]; rfl]
        exact Execution.getElem?_set_slot_self hchannel _
  | ignore _ hlabel =>
      refine .waiting ?_ hwait huntouched
      rw [Rtc.decision_cons_of_none hdecision]
      exact Event.decides_other_channel hlabel
  | @handOver index _ _ _ hchannel => cases (huntouched index _ hchannel).1
  | stateChanged _ connection =>
      have hafter := Rtc.decision_cons_of_none hdecision (.stateChanged connection)
        (Event.state connection)
      by_cases hterminal : Rtc.isTerminalPeerState connection = true
      · refine .settled (hafter.trans (Event.decides_terminal hterminal)) ?_ huntouched.noHolder
        show state.wait.failDataChannelWait connection = _
        rw [hwait]
        exact DataChannelWait.failDataChannelWait_new_of_terminal hterminal
      · refine .waiting (hafter.trans (Event.decides_not_terminal hterminal)) ?_ huntouched
        show state.wait.failDataChannelWait connection = _
        rw [hwait]
        exact DataChannelWait.failDataChannelWait_new_of_not_terminal hterminal
  | release =>
      refine .released hdecision ?_ rfl huntouched
      show state.wait.release = _
      rw [hwait]
      rfl

/-- While the first handler has the sender, nothing but the rest of that handler uses it. -/
theorem story_of_handingOver (hdecision : decision (events log) = some (.ok index))
    (hwait : state.wait = DataChannelWait.new.take)
    (hchannel : state.channels[index]? = some ⟨dataChannelLabel, true, .running true⟩)
    (hothers : NoHolderBut index state.channels) (h : Change state op event following) :
    Story ((op, event) :: log) following := by
  have hafter := Rtc.decision_cons_of_some hdecision op event
  cases h with
  | incoming _ label =>
      exact .handingOver hafter hwait (Execution.getElem?_append_of_some hchannel _)
        (hothers.append label)
  | @takeSender _ opened datagrams hopened =>
      have hne : opened ≠ index := by
        rintro rfl
        rw [hchannel] at hopened
        cases hopened
      refine .handingOver hafter ?_ ?_ (hothers.set ?_)
      · show state.wait.take = _
        rw [hwait]
        rfl
      · exact (List.getElem?_set_ne hne).trans hchannel
      · rw [hwait]
        exact fun hrunning ↦ nomatch hrunning
  | ignore => exact .handingOver hafter hwait hchannel hothers
  | @handOver moved label datagrams sender hmoved =>
      by_cases hsame : moved = index
      · subst hsame
        rw [hchannel] at hmoved
        cases hmoved
        refine .settled hafter ?_ (hothers.noHolder_set Handler.noConfusion)
        show state.wait.send (.ok moved) = _
        rw [hwait]
        rfl
      · have hsender : sender = false := by
          cases sender with
          | false => rfl
          | true => exact absurd rfl (hothers moved _ hmoved hsame)
        subst hsender
        exact .handingOver hafter hwait ((List.getElem?_set_ne hsame).trans hchannel)
          (hothers.set Handler.noConfusion)
  | stateChanged _ connection =>
      refine .handingOver hafter ?_ hchannel hothers
      show state.wait.failDataChannelWait connection = _
      rw [hwait]
      exact DataChannelWait.failDataChannelWait_of_sender rfl connection
  | release =>
      refine .handingOver hafter ?_ hchannel hothers
      show state.wait.release = _
      rw [hwait]
      rfl

/-- One step keeps the story. -/
theorem Story.step (hstory : Story log state) (h : Change state op event following) :
    Story ((op, event) :: log) following := by
  cases hstory with
  | waiting hdecision hwait huntouched => exact story_of_waiting hdecision hwait huntouched h
  | handingOver hdecision hwait hchannel hothers =>
      exact story_of_handingOver hdecision hwait hchannel hothers h
  | settled hdecision hwait hholder =>
      obtain ⟨hafter, hnone⟩ := settled_of_change hwait hholder h
      exact .settled (Rtc.decision_cons_of_some hdecision op event) hafter hnone
  | released hdecision hwait hcallbacks huntouched =>
      cases h with
      | @handOver index _ _ _ hchannel => cases (huntouched index _ hchannel).1
      | incoming halive | takeSender halive | ignore halive | stateChanged halive
      | release halive =>
          rw [hcallbacks] at halive
          cases halive

/-- Every execution has its story. -/
theorem Exec.story (h : Exec log state) : Story log state := by
  induction h with
  | refl => exact .waiting rfl rfl fun _ _ hchannel ↦ nomatch hchannel
  | snoc _ hnext ih => exact ih.step (change_of_next hnext)

/-! ## What the session receives -/

/-- The wait is decided once, by the first event that decides. -/
structure DecidedOnce (log : Log) (state : State) : Prop where
  atMostOne : state.wait.results.length ≤ 1
  undecided : decision (events log) = none → state.wait.results = []
  /-- A terminal state came first. -/
  ended : ∀ connection, decision (events log) = some (.error connection) →
    state.wait.results = [.error connection]
  /-- A data channel opened first. Its datagrams were sent, or the handler that sends them is still
  between its two locks and will find both. -/
  opened : ∀ index, decision (events log) = some (.ok index) →
    state.wait.results = [.ok index] ∨
      (state.wait.results = [] ∧ ∃ following,
        next state (.handedOver index) = some (none, following) ∧
          following.wait.results = [.ok index])
  /-- Nothing that happens later changes what was sent. -/
  kept : state.wait.results ≠ [] → ∀ later final, Execution.Exec next state later final →
    final.wait = state.wait
  /-- The sender is not dropped unsent while there are callbacks. -/
  alive : state.callbacks = true →
    state.wait.dropped = false ∧ state.wait.outcome ≠ some .closed

/-- A settled wait stays settled over whole executions. -/
theorem settled_of_exec {later : Log} {final : State} (h : Execution.Exec next state later final)
    (hwait : state.wait = .settled result) (hholder : NoHolder state.channels) :
    final.wait = .settled result := by
  have hsettled : final.wait = .settled result ∧ NoHolder final.channels :=
    h.invariant ⟨hwait, hholder⟩ fun hbefore hnext ↦
      settled_of_change hbefore.1 hbefore.2 (change_of_next hnext)
  exact hsettled.1

/-- The handler that has the sender sends the datagrams of its channel. -/
theorem next_handedOver
    (hwait : state.wait = DataChannelWait.new.take)
    (hchannel : state.channels[index]? = some ⟨dataChannelLabel, true, .running true⟩) :
    ∃ following, next state (.handedOver index) = some (none, following) ∧
      following.wait = .settled (.ok index) := by
  refine ⟨state.handOver index ⟨dataChannelLabel, true, .running true⟩ true, ?_, ?_⟩
  · simp only [next, hchannel]
  · show state.wait.send (.ok index) = _
    rw [hwait]
    rfl

/-- The story decides what the session receives. -/
theorem Story.decidedOnce (h : Story log state) : DecidedOnce log state := by
  cases h with
  | waiting hdecision hwait _ =>
      refine ⟨?_, ?_, ?_, ?_, ?_, ?_⟩ <;> simp [hdecision, hwait, DataChannelWait.new,
        DataChannelWait.outcome]
  | @handingOver index hdecision hwait hchannel _ =>
      refine ⟨?_, ?_, ?_, ?_, ?_, ?_⟩
      · simp [hwait, DataChannelWait.take, DataChannelWait.new]
      · simp [hdecision]
      · simp [hdecision]
      · intro opened hopened
        rw [hdecision, Option.some.injEq, Except.ok.injEq] at hopened
        subst hopened
        obtain ⟨following, hnext, hsettled⟩ := next_handedOver hwait hchannel
        refine .inr ⟨by rw [hwait]; rfl, following, hnext, ?_⟩
        rw [hsettled]
        rfl
      · intro hsome
        exact absurd (by rw [hwait]; rfl) hsome
      · intro _
        rw [hwait]
        exact ⟨rfl, fun hclosed ↦ nomatch hclosed⟩
  | @settled result hdecision hwait hholder =>
      refine ⟨?_, ?_, ?_, ?_, ?_, ?_⟩
      · simp [hwait, DataChannelWait.settled]
      · simp [hdecision]
      · intro connection hended
        rw [hdecision, Option.some.injEq] at hended
        rw [hwait, hended]
        rfl
      · intro index hopened
        rw [hdecision, Option.some.injEq] at hopened
        rw [hwait, hopened]
        exact .inl rfl
      · intro _ later final hlater
        rw [hwait]
        exact settled_of_exec hlater hwait hholder
      · intro _
        rw [hwait]
        exact ⟨rfl, DataChannelWait.outcome_settled result⟩
  | released hdecision hwait hcallbacks _ =>
      refine ⟨?_, ?_, ?_, ?_, ?_, ?_⟩ <;> simp [hdecision, hwait, hcallbacks, DataChannelWait.new,
        DataChannelWait.take, DataChannelWait.abandon]

/-- When no handler is running, the session has what was decided. -/
theorem Story.results_of_idle (h : Story log state)
    (hidle : ∀ channel ∈ state.channels, channel.handler = .idle) :
    state.wait.results = (decision (events log)).toList := by
  cases h with
  | waiting hdecision hwait _ | released hdecision hwait _ _ | settled hdecision hwait _ =>
      rw [hdecision, hwait]
      rfl
  | handingOver _ _ hchannel _ => cases hidle _ (List.mem_of_getElem? hchannel)

end Unbounded.PeerProxy.Opening
