import Unbounded.PeerProxy.Provenance

/-!
# Which sessions are announced

A session that relays should have been announced with a `PeerConnected`. The body that sends it
reads the session ID when it starts, and a body that finds no ID returns without leaving a trace.
Nothing orders the `Connected` callback after the Ice message: the connection may come up on the
candidates of the Offer and the Answer alone. `unannounced_relay` is a session that relays, and
returns, and was never announced. `relay_announced` is what holds when every `Connected` body starts
after the ID is published.
-/

namespace Unbounded.PeerProxy

/-- A body that was called for `Connected` and has run to its end. -/
def Callback.completed (callback : Callback) : Bool :=
  callback.state = .connected && callback.stage = .done

namespace Peer

open Execution (restrict)
open Rtc (PeerConnectionState)
open Supervisor (SupervisorEvent)

/-- The assumption on WebRTC: the DataChannel opens after a `Connected` callback has run to its
end. -/
def opensConnected (peer : Peer) : Op → Bool
  | .session (.waited .opened) => peer.callbacks.any Callback.completed
  | _ => true

/-- A body that was called for `Connected` starts once the session ID is published. -/
def startsPublished (peer : Peer) : Op → Bool
  | .body index _ =>
      match peer.callbacks[index]? with
      | some ⟨.connected, _, .entered⟩ => peer.shared.sessionId.isSome
      | _ => true
  | _ => true

/-- The session has reached the relay, and has not been cancelled since. -/
def relays (peer : Peer) : Bool :=
  match peer.control with
  | .relaying _ => true
  | .closing result | .returned result => SessionResult.relayed result
  | _ => false

/-- The `PeerConnected` of the ID that the callbacks can see was sent. -/
def announced (log : Log) (peer : Peer) : Prop :=
  ∃ id remote, peer.shared.sessionId = some id ∧ .peerConnected id remote ∈ events log

/-- Every `Connected` body that has ended has announced the session, and the DataChannel opened
after one. -/
structure Announced (log : Log) (peer : Peer) : Prop where
  reports : peer.shared.events = true
  terminal : ∀ callback ∈ peer.callbacks,
    callback.stage = .loading ∨ callback.stage = .swapping ∨ callback.stage = .sending →
      callback.state ≠ .connected
  completed : ∀ callback ∈ peer.callbacks, callback.completed = true → announced log peer
  opened : peer.control.opened = true → ∃ callback ∈ peer.callbacks, callback.completed = true

variable {codec : Codec} {log : Log} {peer following : Peer}

/-- The DataChannel is not open while the Answer is prepared. -/
theorem opened_of_answering {control : Control} {signal : SignalMessage}
    (h : control.phase = .answering signal) : control.opened = false := by
  cases control with
  | closing result => cases result <;> simp [Control.phase] at h
  | returned result => cases result <;> simp [Control.phase] at h
  | _ => simp_all [Control.phase, Control.opened]

/-- A step of the session keeps what is announced in line with the bodies. -/
theorem Announced.session {input : Input} {effect : Effect} {control : Control}
    (h : Announced log peer)
    (hprovenance : Provenance codec log peer.control.phase peer.shared.sessionId)
    (hallowed : opensConnected peer (.session input) = true)
    (hmove : Move codec peer.control input effect control) :
    Announced ((.session input, ⟨effect, none⟩) :: log)
      { peer with control := control, shared := peer.shared.after effect } where
  reports := h.reports
  terminal := h.terminal
  completed := by
    intro callback hmem hcompleted
    obtain ⟨id, remote, hid, hsent⟩ := h.completed callback hmem hcompleted
    exact ⟨id, remote, (hprovenance.kept hmove).1 id hid, hsent⟩
  opened := by
    intro hopened
    generalize hcontrol : peer.control = before at hmove
    cases hmove with
    | dial => exact List.any_eq_true.mp hallowed
    | proceed _ _ _ hbefore => exact h.opened (hcontrol ▸ hbefore hopened)
    | fail _ _ hbefore => exact h.opened (hcontrol ▸ hbefore hopened)
    | publish => simp at hopened
    | prepare _ hphase => simp [opened_of_answering hphase] at hopened
    | _ => simp [Control.opened] at hopened

/-- A call of the handler by WebRTC keeps what is announced in line with the bodies. -/
theorem Announced.call {state : PeerConnectionState} (h : Announced log peer) :
    Announced ((.call state, ⟨.none, none⟩) :: log)
      { peer with callbacks := peer.callbacks ++ [.enter state] } where
  reports := h.reports
  terminal := by
    intro callback hmem
    rcases List.mem_append.mp hmem with hold | hnew
    · exact h.terminal callback hold
    · simp_all [Callback.enter]
  completed := by
    intro callback hmem hcompleted
    rcases List.mem_append.mp hmem with hold | hnew
    · exact h.completed callback hold hcompleted
    · simp_all [Callback.enter, Callback.completed]
  opened := by
    intro hopened
    obtain ⟨callback, hmem, hcompleted⟩ := h.opened hopened
    exact ⟨callback, List.mem_append_left _ hmem, hcompleted⟩

/-- A body that goes on or is dropped keeps what is announced in line with the bodies. A body that
has ended is not replaced. -/
theorem Announced.replace {index : Nat} {callback moved : Callback} {shared : Shared} {op : Op}
    {event : Option SupervisorEvent} (h : Announced log peer)
    (hcallback : peer.callbacks[index]? = some callback) (hrunning : callback.stage ≠ .done)
    (hreports : shared.events = peer.shared.events)
    (hid : shared.sessionId = peer.shared.sessionId)
    (hterminal : moved.stage = .loading ∨ moved.stage = .swapping ∨ moved.stage = .sending →
      moved.state ≠ .connected)
    (hcompleted : moved.completed = true → ∃ id remote, peer.shared.sessionId = some id ∧
      event = some (.peerConnected id remote)) :
    Announced ((op, ⟨.none, event⟩) :: log)
      { peer with shared := shared, callbacks := peer.callbacks.set index moved } where
  reports := hreports.trans h.reports
  terminal := by
    intro other hother
    rcases List.mem_or_eq_of_mem_set hother with hold | rfl
    · exact h.terminal other hold
    · exact hterminal
  completed := by
    intro other hother hended
    rcases List.mem_or_eq_of_mem_set hother with hold | rfl
    · obtain ⟨id, remote, hvisible, hsent⟩ := h.completed other hold hended
      exact ⟨id, remote, hid.trans hvisible, events_cons ▸ List.mem_append_right _ hsent⟩
    · obtain ⟨id, remote, hvisible, rfl⟩ := hcompleted hended
      exact ⟨id, remote, hid.trans hvisible, events_cons ▸ List.mem_append_left _ (by simp)⟩
  opened := by
    intro hopened
    obtain ⟨other, hother, hended⟩ := h.opened hopened
    obtain ⟨slot, hslot⟩ := List.getElem?_of_mem hother
    have hne : index ≠ slot := by
      rintro rfl
      obtain rfl := Option.some.inj (hcallback.symm.trans hslot)
      simp [Callback.completed, hrunning] at hended
    refine ⟨other, List.mem_of_getElem? (i := slot) ?_, hended⟩
    rw [Execution.getElem?_set_slot hcallback, if_neg hne]
    exact hslot

/-- A step of a body that starts with the ID published, if it is one for `Connected`, keeps what is
announced in line with the bodies. -/
theorem Announced.body {index : Nat} {remote : Option SocketAddr} {callback moved : Callback}
    {shared : Shared} {event : Option SupervisorEvent} (h : Announced log peer)
    (hsaw : Reports log peer) (hcallback : peer.callbacks[index]? = some callback)
    (hallowed : startsPublished peer (.body index remote) = true)
    (hbody : Body peer.shared remote callback event shared moved) :
    Announced ((.body index remote, ⟨.none, event⟩) :: log)
      { peer with shared := shared, callbacks := peer.callbacks.set index moved } := by
  have hmem := List.mem_of_getElem? hcallback
  have hterminal := h.terminal callback hmem
  have hread := hsaw.read callback hmem
  have hreports := h.reports
  simp only [startsPublished, hcallback] at hallowed
  cases hbody with
  | @unreported state seen hshared =>
      refine h.replace hcallback (by simp) rfl rfl (by simp) fun hended ↦ ?_
      -- a `Connected` body finds the ID, which is published by now
      have hstate : state = .connected := by simpa [Callback.completed] using hended
      subst hstate
      rcases hshared with hnone | hnone
      · simp [hreports] at hnone
      · simp [hnone] at hallowed
  | ignored hid hstate =>
      exact h.replace hcallback (by simp) rfl rfl (by simp) (by simp [Callback.completed, hstate])
  | begin => exact h.replace hcallback (by simp) rfl rfl (by simp) (by simp [Callback.completed])
  | terminal hid hstate =>
      exact h.replace hcallback (by simp) rfl rfl (fun _ ↦ hstate) (by simp [Callback.completed])
  | store => exact h.replace hcallback (by simp) rfl rfl (by simp) (by simp [Callback.completed])
  | @connect state id =>
      exact h.replace hcallback (by simp) rfl rfl (by simp)
        fun _ ↦ ⟨id, remote, hread id rfl, rfl⟩
  | load =>
      exact h.replace hcallback (by simp) rfl rfl (fun _ ↦ hterminal (.inl rfl))
        (by simp [Callback.completed])
  | unconnected =>
      have hstate := hterminal (.inl rfl)
      exact h.replace hcallback (by simp) rfl rfl (by simp) (by simp_all [Callback.completed])
  | swap =>
      exact h.replace hcallback (by simp) rfl rfl (fun _ ↦ hterminal (.inr (.inl rfl)))
        (by simp [Callback.completed])
  | repeated =>
      have hstate := hterminal (.inr (.inl rfl))
      exact h.replace hcallback (by simp) rfl rfl (by simp) (by simp_all [Callback.completed])
  | disconnect =>
      have hstate := hterminal (.inr (.inr rfl))
      exact h.replace hcallback (by simp) rfl rfl (by simp) (by simp_all [Callback.completed])

/-- A run in which every step meets the assumption on WebRTC and every `Connected` body starts with
the ID published. -/
theorem Exec.announced
    (h : Execution.Exec (restrict (fun peer op ↦ opensConnected peer op && startsPublished peer op)
      (next codec)) (.new true) log peer) : Announced log peer := by
  induction h with
  | refl => exact ⟨rfl, by simp [Peer.new], by simp [Peer.new], by simp [Peer.new, Control.opened]⟩
  | snoc hexec hnext ih =>
      obtain ⟨hallowed, hstep⟩ := Execution.next_of_restrict hnext
      obtain ⟨hopens, hstarts⟩ := (Bool.and_eq_true _ _).mp hallowed
      have hexec := hexec.of_restrict
      cases change_of_next hstep with
      | session hmove => exact ih.session (Exec.provenance hexec) hopens (move_of_next hmove)
      | call => exact ih.call
      | body hcallback hbody =>
          exact ih.body (Exec.reports hexec) hcallback hstarts (body_of_next hbody)
      | dropBody hcallback hstage =>
          refine ih.replace hcallback ?_ rfl rfl (by simp) (by simp [Callback.completed])
          rcases hstage with hstage | hstage <;> simp [hstage]

/-- In every run in which the DataChannel opens after a `Connected` callback has ended, and in which
every `Connected` body starts with the session ID published, a session that has reached the relay
was announced with its ID. -/
theorem relay_announced
    (h : Execution.Exec (restrict (fun peer op ↦ opensConnected peer op && startsPublished peer op)
      (next codec)) (.new true) log peer) (hrelays : relays peer = true) :
    ∃ id remote, accepted codec log = some id ∧ .peerConnected id remote ∈ events log := by
  have hannounced := Exec.announced h
  have hopened : peer.control.opened = true := by
    revert hrelays
    unfold relays
    cases peer.control <;> simp [Control.opened]
  obtain ⟨callback, hmem, hcompleted⟩ := hannounced.opened hopened
  obtain ⟨id, remote, hid, hsent⟩ := hannounced.completed callback hmem hcompleted
  exact ⟨id, remote, (Exec.provenance h.of_restrict).accepted_of_visible hid, hsent⟩

/-- A session whose `Connected` callback starts after the Ice message is announced. -/
theorem relay_announced_of_late_callback : ∃ log peer,
    Execution.Exec (restrict (fun peer op ↦ opensConnected peer op && startsPublished peer op)
      (next .plain)) (.new true) log peer ∧ relays peer = true ∧
    ∃ id remote, accepted .plain log = some id ∧ .peerConnected id remote ∈ events log := by
  have hrun : Execution.run (restrict (fun peer op ↦ opensConnected peer op &&
        startsPublished peer op) (next .plain))
      [.session (.connected (.ok ())), .session (.replied (.ok (some ⟨"r1", .offer, "sdp"⟩))),
        .session (.remoteSet (.ok ())), .session (.answerCreated (.ok ⟨.answer, "sdp"⟩)),
        .session .promised, .session (.localSet (.ok ())), .session .gathered,
        .session (.described (some ⟨.answer, "sdp"⟩)), .call .connected,
        .session (.replied (.ok (some ⟨"r2", .ice, "csid"⟩))),
        .body 0 none, .body 0 none, .body 0 none, .session (.waited .opened),
        .session (.egressConnected (.ok ()))] ([], .new true) = some (_, _) := rfl
  have hexec := Execution.exec_of_run hrun
  exact ⟨_, _, hexec, rfl, relay_announced hexec rfl⟩

/-- A `Connected` callback may run to its end while the session still awaits the Ice message. The
DataChannel then opens, the session relays and returns, and no event was sent. -/
theorem unannounced_relay : ∃ log peer,
    Execution.Exec (restrict opensConnected (next .plain)) (.new true) log peer ∧
    peer.control = .returned (.ok ⟨"csid", .peerClosed, .zero⟩) ∧ relays peer = true ∧
    accepted .plain log = some "csid" ∧ events log = [] := by
  have hrun : Execution.run (restrict opensConnected (next .plain))
      [.session (.connected (.ok ())), .session (.replied (.ok (some ⟨"r1", .offer, "sdp"⟩))),
        .session (.remoteSet (.ok ())), .session (.answerCreated (.ok ⟨.answer, "sdp"⟩)),
        .session .promised, .session (.localSet (.ok ())), .session .gathered,
        .session (.described (some ⟨.answer, "sdp"⟩)), .call .connected, .body 0 none,
        .session (.replied (.ok (some ⟨"r2", .ice, "csid"⟩))), .session (.waited .opened),
        .session (.egressConnected (.ok ())), .session (.relayed (.ok .peerClosed) .zero),
        .session .closed] ([], .new true) = some (_, _) := rfl
  exact ⟨_, _, Execution.exec_of_run hrun, rfl, rfl, rfl, rfl⟩

end Peer

end Unbounded.PeerProxy
