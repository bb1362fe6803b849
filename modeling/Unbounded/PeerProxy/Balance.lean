import Unbounded.PeerProxy.Callbacks
import Mathlib.Data.Int.Basic

/-!
# When connect and disconnect events balance

The handler of the connection state keeps two flags that are never reset, so it reports every
`Connected` but only the first disconnect after one. With the session ID published, the events of a
connection that is called back one state at a time and is closed at the end are therefore some
`PeerConnected`, one `PeerDisconnected`, and then one more `PeerConnected` for every recovery
(`handleAll_shape`). They balance exactly when the connection was connected at most once.
-/

namespace Unbounded.PeerProxy

open Rtc (PeerConnectionState)
open Supervisor (SupervisorEvent)

/-- The events alternate, start with `PeerConnected` and end with `PeerDisconnected`. -/
def alternates : List SupervisorEvent → Bool
  | [] => true
  | .peerConnected _ _ :: .peerDisconnected _ :: rest => alternates rest
  | _ => false

/-- An observer adds one for every `PeerConnected` and subtracts one for every
`PeerDisconnected`. -/
def tally : List SupervisorEvent → Int
  | [] => 0
  | .peerConnected _ _ :: rest => tally rest + 1
  | .peerDisconnected _ :: rest => tally rest - 1
  | _ :: rest => tally rest

/-- A call of the handler: a connection state, and the address of the candidate pair that is
selected when the body awaits it. -/
abbrev Call := PeerConnectionState × Option SocketAddr

/-- The connection was connected at least once. -/
def reached (calls : List Call) : Bool :=
  calls.any fun call ↦ call.1 = .connected

/-- The number of times the connection was connected. -/
def connections (calls : List Call) : Nat :=
  calls.countP fun call ↦ call.1 = .connected

/-- What the callbacks share once the session ID is published. -/
def published (id : String) (connectEmitted disconnectEmitted : Bool) : Shared :=
  ⟨true, some id, connectEmitted, disconnectEmitted⟩

/-- The events of a session balance: they alternate, the observer is back at zero, and there are
none exactly when the connection was never connected. -/
structure Balanced (calls : List Call) (events : List SupervisorEvent) : Prop where
  alternates : alternates events = true
  settled : tally events = 0
  silent : events = [] ↔ reached calls = false

/-- The `PeerConnected` events of some calls. -/
def connects (id : String) (calls : List Call) : List SupervisorEvent :=
  calls.filterMap fun call ↦
    if call.1 = .connected then some (.peerConnected id call.2) else none

/-- There is one for every time the connection was connected. -/
theorem length_connects (id : String) (calls : List Call) :
    (connects id calls).length = connections calls := by
  induction calls with
  | nil => rfl
  | cons call calls ih =>
      by_cases hcall : call.1 = .connected
      · simpa [connects, connections, hcall] using ih
      · simpa [connects, connections, hcall] using ih

/-- The observer adds one for each connection that calls report. -/
theorem tally_connects_append (id : String) (calls : List Call) (events : List SupervisorEvent) :
    tally (connects id calls ++ events) = connections calls + tally events := by
  induction calls with
  | nil => simp [connects, connections]
  | cons call calls ih =>
      by_cases hcall : call.1 = .connected
      · have hevents : connects id (call :: calls) =
            .peerConnected id call.2 :: connects id calls := by
          simp [connects, hcall]
        have hcount : connections (call :: calls) = connections calls + 1 := by
          simp [connections, hcall]
        rw [hevents, hcount, List.cons_append, tally, ih]
        omega
      · have hevents : connects id (call :: calls) = connects id calls := by
          simp [connects, hcall]
        have hcount : connections (call :: calls) = connections calls := by
          simp [connections, hcall]
        rw [hevents, hcount, ih]

variable (id : String)

/-- After the first disconnect only `Connected` is reported. -/
theorem handleAll_disconnected (calls : List Call) :
    (handleAll (published id true true) calls).1 = connects id calls := by
  induction calls with
  | nil => rfl
  | cons call calls ih =>
      obtain ⟨state, remote⟩ := call
      cases state with
      | connected => exact congrArg (SupervisorEvent.peerConnected id remote :: ·) ih
      | _ => exact ih

/-- While the connection is up, every `Connected` is reported, and so is the disconnect that comes
at the latest with the close. -/
theorem handleAll_connected (calls : List Call) (remote : Option SocketAddr) :
    ∃ before after, (handleAll (published id true false) (calls ++ [(.closed, remote)])).1 =
      connects id before ++ .peerDisconnected id :: connects id after ∧
      connections before + connections after = connections calls := by
  induction calls with
  | nil => exact ⟨[], [], rfl, rfl⟩
  | cons call calls ih =>
      obtain ⟨state, selected⟩ := call
      obtain ⟨before, after, hevents, hcount⟩ := ih
      -- a terminal state is reported, and the flag that says so is never reset
      have hfirst : ∀ terminal, isDisconnectState terminal = true → terminal ≠ .connected →
          ∃ before after, (handleAll (published id true false)
            ((terminal, selected) :: calls ++ [(.closed, remote)])).1 =
            connects id before ++ .peerDisconnected id :: connects id after ∧
            connections before + connections after =
              connections ((terminal, selected) :: calls) := by
        intro terminal hterminal hne
        have hreported : handle (published id true false) terminal selected =
            ([.peerDisconnected id], published id true true) := by
          simp [handle, published, hterminal, hne]
        refine ⟨[], calls ++ [(.closed, remote)], ?_, ?_⟩
        · simp only [List.cons_append, handleAll, hreported, handleAll_disconnected]
          rfl
        · simp [connections, hne]
      cases state with
      | connected =>
          refine ⟨(.connected, selected) :: before, after, ?_, ?_⟩
          · exact congrArg (SupervisorEvent.peerConnected id selected :: ·) hevents
          · simp only [connections, List.countP_cons] at hcount ⊢
            simp only [decide_true, if_true]
            omega
      | disconnected => exact hfirst _ rfl (by simp)
      | failed => exact hfirst _ rfl (by simp)
      | closed => exact hfirst _ rfl (by simp)
      | unspecified => exact ⟨before, after, hevents, by simpa [connections] using hcount⟩
      | new => exact ⟨before, after, hevents, by simpa [connections] using hcount⟩
      | connecting => exact ⟨before, after, hevents, by simpa [connections] using hcount⟩

/-- The events of a connection that is closed at the end. -/
theorem handleAll_shape (calls : List Call) (remote : Option SocketAddr) :
    (reached calls = false ∧
      (handleAll (published id false false) (calls ++ [(.closed, remote)])).1 = []) ∨
    ∃ selected before after,
      (handleAll (published id false false) (calls ++ [(.closed, remote)])).1 =
        .peerConnected id selected ::
          (connects id before ++ .peerDisconnected id :: connects id after) ∧
      connections before + connections after + 1 = connections calls := by
  induction calls with
  | nil => exact .inl ⟨rfl, rfl⟩
  | cons call calls ih =>
      obtain ⟨state, selected⟩ := call
      -- before the first `Connected` nothing is reported
      have hlater : state ≠ .connected →
          (handleAll (published id false false) ((state, selected) :: calls ++
            [(.closed, remote)])).1 =
          (handleAll (published id false false) (calls ++ [(.closed, remote)])).1 := by
        intro hne
        cases state <;> first | rfl | exact absurd rfl hne
      by_cases hstate : state = .connected
      · subst hstate
        obtain ⟨before, after, hevents, hcount⟩ := handleAll_connected id calls remote
        refine .inr ⟨selected, before, after, ?_, ?_⟩
        · exact congrArg (SupervisorEvent.peerConnected id selected :: ·) hevents
        · simp only [connections, List.countP_cons] at hcount ⊢
          simp only [decide_true, if_true]
          omega
      · obtain ⟨hreached, hevents⟩ | ⟨first, before, after, hevents, hcount⟩ := ih
        · refine .inl ⟨?_, (hlater hstate).trans hevents⟩
          simpa [reached, hstate] using hreached
        · refine .inr ⟨first, before, after, (hlater hstate).trans hevents, ?_⟩
          simpa [connections, hstate] using hcount

/-- A connection that was connected is counted. -/
theorem reached_iff (calls : List Call) : reached calls = true ↔ 0 < connections calls := by
  simp [reached, connections, List.countP_pos_iff]

/-- An observer of alternating events is back at zero at their end. -/
theorem tally_of_alternates {events : List SupervisorEvent} (h : alternates events = true) :
    tally events = 0 := by
  fun_induction alternates events with
  | case1 => rfl
  | case2 _ _ _ rest ih =>
      simp only [tally, ih h]
      rfl
  | case3 => simp at h

/-- Let the handler be called with any states, one after the other, after the session ID was
published, and at last with `Closed`. Then the events it sends balance exactly when the connection
was connected at most once. -/
theorem balanced_iff_connected_once (id : String) (calls : List Call)
    (remote : Option SocketAddr) :
    Balanced calls (handleAll (published id false false) (calls ++ [(.closed, remote)])).1 ↔
      connections calls ≤ 1 := by
  have hreached := reached_iff calls
  obtain ⟨hnever, hevents⟩ | ⟨selected, before, after, hevents, hcount⟩ :=
    handleAll_shape id calls remote
  · rw [hevents]
    refine ⟨fun _ ↦ ?_, fun _ ↦ ⟨rfl, rfl, by simp [hnever]⟩⟩
    rw [hnever] at hreached
    simp at hreached
    omega
  · rw [hevents]
    have htally : tally (.peerConnected id selected ::
        (connects id before ++ .peerDisconnected id :: connects id after)) =
        connections before + connections after := by
      have hafter := tally_connects_append id after []
      rw [List.append_nil] at hafter
      simp only [tally, tally_connects_append, hafter]
      omega
    constructor
    · intro hbalanced
      have hsettled := hbalanced.settled
      rw [htally] at hsettled
      omega
    · intro honce
      have hempty : ∀ calls : List Call, connections calls = 0 → connects id calls = [] := by
        intro calls hzero
        exact List.eq_nil_of_length_eq_zero ((length_connects id calls).trans hzero)
      have halternates : alternates (.peerConnected id selected ::
          (connects id before ++ .peerDisconnected id :: connects id after)) = true := by
        rw [hempty before (by omega), hempty after (by omega)]
        rfl
      refine ⟨halternates, tally_of_alternates halternates, ?_⟩
      have hpositive : reached calls = true := hreached.mpr (by omega)
      simp [hpositive]

/-- A connection that recovers once is reported as connected twice and as disconnected once, so that
the observer still counts one connection when the session is closed. -/
theorem recovery_unbalances :
    (handleAll (published "session" false false)
      [(.connected, none), (.disconnected, none), (.connected, none), (.closed, none)]).1 =
      [.peerConnected "session" none, .peerDisconnected "session",
        .peerConnected "session" none] ∧
    tally (handleAll (published "session" false false)
      [(.connected, none), (.disconnected, none), (.connected, none), (.closed, none)]).1 = 1 ∧
    ¬ Balanced [(.connected, none), (.disconnected, none), (.connected, none)]
      (handleAll (published "session" false false)
        [(.connected, none), (.disconnected, none), (.connected, none), (.closed, none)]).1 :=
  ⟨rfl, rfl, fun hbalanced ↦ absurd hbalanced.settled (by decide)⟩

end Unbounded.PeerProxy
