import Unbounded.VirtualUdp.Effects

/-!
# The handle accounting of the virtual socket

Who holds the sender handles of each channel. The outgoing channel of a path has one sender in the
`VirtualPath` until it is dropped, one in the route table while the address maps to that very path,
and one in every `try_send` between its two steps. The incoming channel has one sender in the socket
until it is destroyed and one in every path that has not been dropped. `Handles.step` says that
every operation keeps this account, in whatever order paths are added, replaced and dropped.
-/

namespace Unbounded.VirtualUdp

open Execution (Table)
open Tokio (Channel Poll TrySend)

/-- The route table holds a sender of the path. -/
def Socket.routed (socket : Socket) (path : PathId) : Bool :=
  decide (socket.routes.get path.remote = some path)

/-- The account of all handles of a socket. -/
structure Handles (socket : Socket) : Prop where
  /-- A destroyed socket has no routes and no calls. -/
  destroyed : socket.arcs = 0 →
    (∀ remote, socket.routes.get remote = none) ∧ ∀ call, socket.calls.get call = none
  /-- An address is mapped to a live path at that address. -/
  routes : ∀ remote path, socket.routes.get remote = some path →
    path.remote = remote ∧ socket.live path = true
  /-- A call in progress holds a path at its own destination. -/
  calls : ∀ call contents path, socket.calls.get call = some ⟨contents, some path⟩ →
    path.remote = call.destination ∧ (socket.outgoing.get path).isSome = true
  /-- The sender handles of an outgoing channel. -/
  senders : ∀ path channel, socket.outgoing.get path = some channel →
    channel.senders =
      channel.receiver.toNat + (socket.routed path).toNat + socket.callCount path
  /-- The receiver of the incoming channel lives in the socket. -/
  incomingReceiver : socket.incoming.receiver = decide (0 < socket.arcs)
  /-- The sender handles of the incoming channel. -/
  incomingSenders : socket.incoming.senders =
    (decide (0 < socket.arcs)).toNat + socket.liveCount

variable {socket following : Socket} {path : PathId}

/-- A new socket starts with a balanced account. -/
theorem Handles.withOptions {localAddr : SocketAddr} {mtu queueCapacity : Nat}
    (h : Socket.withOptions localAddr mtu queueCapacity = some socket) : Handles socket := by
  unfold Socket.withOptions at h
  split at h
  case isFalse => simp at h
  case isTrue =>
    simp only [Option.some.injEq] at h
    subst h
    constructor <;> simp [Socket.liveCount]

/-- A path that was never added is held by no call. -/
theorem Handles.callCount_fresh (h : Handles socket) (hfresh : socket.outgoing.get path = none) :
    socket.callCount path = 0 := by
  by_contra hne
  have hpos : 0 < socket.callCount path := Nat.pos_of_ne_zero hne
  obtain ⟨⟨call, contents, route⟩, hmem, htest⟩ := List.countP_pos_iff.mp hpos
  simp only [decide_eq_true_eq] at htest
  subst htest
  have hget : socket.calls.get call = some ⟨contents, some path⟩ :=
    List.mem_dlookup socket.calls.nodupKeys hmem
  have hsome := (h.calls call contents path hget).2
  rw [hfresh] at hsome
  simp at hsome

/-- The account of the handles is kept by `add_path`. -/
theorem Handles.addPath (h : Handles socket) {capacity : Nat}
    (hadd : socket.addPath path capacity = some following) : Handles following := by
  have spec := Socket.addPath_spec hadd
  obtain ⟨added, hadded, _, _, haddedSenders, haddedReceiver⟩ := spec.added
  have hcallCount : ∀ other, following.callCount other = socket.callCount other := fun other ↦ by
    simp [Socket.callCount, spec.calls]
  have hlive : ∀ other, socket.live other = true → following.live other = true := by
    intro other hother
    obtain ⟨channel, hchannel, hreceiver⟩ := Socket.live_iff.mp hother
    by_cases hnew : other = path
    · subst hnew
      exact Socket.live_iff.mpr ⟨added, hadded, haddedReceiver⟩
    · rw [Socket.live_iff, spec.others other hnew, hchannel]
      split
      · exact ⟨channel.dropSender, rfl, hreceiver⟩
      · exact ⟨channel, rfl, hreceiver⟩
  constructor
  case destroyed =>
    intro hzero
    have halive := spec.alive
    rw [← spec.arcs] at halive
    omega
  case routes =>
    intro remote found hfound
    rw [spec.routes, Table.get_insert] at hfound
    split at hfound
    · next hremote =>
      simp only [Option.some.injEq] at hfound
      subst hfound
      exact ⟨hremote.symm, Socket.live_iff.mpr ⟨added, hadded, haddedReceiver⟩⟩
    · obtain ⟨hremote, hold⟩ := h.routes remote found hfound
      exact ⟨hremote, hlive found hold⟩
  case calls =>
    intro call contents found hcall
    rw [spec.calls] at hcall
    obtain ⟨hremote, hsome⟩ := h.calls call contents found hcall
    refine ⟨hremote, ?_⟩
    have hne : found ≠ path := by
      intro heq
      rw [heq, spec.fresh] at hsome
      simp at hsome
    rw [spec.others found hne]
    split <;> simpa using hsome
  case senders =>
    intro other channel hchannel
    rw [hcallCount]
    by_cases hnew : other = path
    · -- the new path: one sender in the `VirtualPath`, one in the route table
      subst hnew
      rw [hadded, Option.some.injEq] at hchannel
      subst hchannel
      rw [h.callCount_fresh spec.fresh, haddedSenders, haddedReceiver]
      simp [Socket.routed, spec.routes]
    · rw [spec.others other hnew] at hchannel
      by_cases hreplaced : socket.routes.get path.remote = some other
      · -- the replaced path loses the sender that the route table held
        rw [if_pos hreplaced, Option.map_eq_some_iff] at hchannel
        obtain ⟨old, hold, rfl⟩ := hchannel
        have hremote := (h.routes _ _ hreplaced).1
        have hcount := h.senders other old hold
        have hbefore : socket.routed other = true := by simp [Socket.routed, hremote, hreplaced]
        have hafter : following.routed other = false := by
          simp [Socket.routed, spec.routes, hremote, Ne.symm hnew]
        rw [hbefore] at hcount
        rw [hafter, Channel.dropSender_senders, Channel.dropSender_receiver, hcount]
        simp only [Bool.toNat_true, Bool.toNat_false]
        omega
      · rw [if_neg hreplaced] at hchannel
        have hrouted : following.routed other = socket.routed other := by
          simp only [Socket.routed, spec.routes, Table.get_insert]
          by_cases hremote : other.remote = path.remote
          · simp [hremote, hreplaced, Ne.symm hnew]
          · simp [hremote]
        rw [hrouted]
        exact h.senders other channel hchannel
  case incomingReceiver => simpa [spec.incoming, spec.arcs] using h.incomingReceiver
  case incomingSenders =>
    rw [spec.incoming, spec.arcs, spec.liveCount, Channel.cloneSender_senders, h.incomingSenders]
    omega

/-- The account of the handles is kept when a path is dropped. -/
theorem Handles.dropPath (h : Handles socket) (hdrop : socket.dropPath path = some following) :
    Handles following := by
  have spec := Socket.dropPath_spec hdrop
  obtain ⟨channel, hchannel, hreceiver⟩ := Socket.live_iff.mp spec.live
  obtain ⟨closed, hclosed, hclosedReceiver, hclosedSenders, _, _⟩ := spec.dropped channel hchannel
  have hcallCount : ∀ other, following.callCount other = socket.callCount other := fun other ↦ by
    simp [Socket.callCount, spec.calls]
  have hget : ∀ remote found, following.routes.get remote = some found →
      socket.routes.get remote = some found ∧ found ≠ path := by
    intro remote found hfound
    rw [spec.routes] at hfound
    split at hfound
    · next hown =>
      rw [Table.get_erase] at hfound
      split at hfound
      · simp at hfound
      · next hremote =>
        refine ⟨hfound, fun heq ↦ hremote ?_⟩
        rw [← (h.routes remote found hfound).1, heq]
    · next hother =>
      refine ⟨hfound, fun heq ↦ hother ?_⟩
      subst heq
      have hremote := (h.routes remote found hfound).1
      refine ⟨Nat.pos_of_ne_zero fun hzero ↦ ?_, by rw [hremote]; exact hfound⟩
      rw [(h.destroyed hzero).1] at hfound
      simp at hfound
  constructor
  case destroyed =>
    intro hzero
    rw [spec.arcs] at hzero
    obtain ⟨hroutes, hcalls⟩ := h.destroyed hzero
    refine ⟨fun remote ↦ ?_, fun call ↦ by rw [spec.calls]; exact hcalls call⟩
    rw [spec.routes, if_neg (by omega)]
    exact hroutes remote
  case routes =>
    intro remote found hfound
    obtain ⟨hold, hne⟩ := hget remote found hfound
    obtain ⟨hremote, hlive⟩ := h.routes remote found hold
    refine ⟨hremote, ?_⟩
    rw [Socket.live_iff] at hlive ⊢
    rw [spec.others found hne]
    exact hlive
  case calls =>
    intro call contents found hcall
    rw [spec.calls] at hcall
    obtain ⟨hremote, hsome⟩ := h.calls call contents found hcall
    refine ⟨hremote, ?_⟩
    by_cases hne : found = path
    · rw [hne, hclosed]
      rfl
    · rw [spec.others found hne]
      exact hsome
  case senders =>
    intro other kept hkept
    rw [hcallCount]
    by_cases hsame : other = path
    · -- the dropped path gives up its own sender and the route table's
      subst hsame
      rw [hclosed, Option.some.injEq] at hkept
      subst hkept
      have hcount := h.senders other channel hchannel
      have hafter : following.routed other = false := by
        simp only [Socket.routed, decide_eq_false_iff_not]
        exact fun hroute ↦ (hget _ _ hroute).2 rfl
      have hrouted : socket.routed other =
          decide (0 < socket.arcs ∧ socket.routes.get other.remote = some other) := by
        simp only [Socket.routed, decide_eq_decide]
        refine ⟨fun hroute ↦ ⟨Nat.pos_of_ne_zero fun hzero ↦ ?_, hroute⟩, fun hroute ↦ hroute.2⟩
        rw [(h.destroyed hzero).1] at hroute
        simp at hroute
      rw [hafter, hclosedReceiver, hclosedSenders, hcount, hreceiver, hrouted]
      simp only [Bool.toNat_true, Bool.toNat_false]
      omega
    · rw [spec.others other hsame] at hkept
      have hrouted : following.routed other = socket.routed other := by
        simp only [Socket.routed, decide_eq_decide]
        refine ⟨fun hroute ↦ (hget _ _ hroute).1, fun hroute ↦ ?_⟩
        rw [spec.routes]
        split
        · next hown =>
          rw [Table.get_erase, if_neg]
          · exact hroute
          · intro hremote
            rw [hremote, hown.2, Option.some.injEq] at hroute
            exact hsame hroute.symm
        · exact hroute
      rw [hrouted]
      exact h.senders other kept hkept
  case incomingReceiver => simpa [spec.incoming, spec.arcs] using h.incomingReceiver
  case incomingSenders =>
    have hlive := spec.liveCount
    rw [spec.incoming, spec.arcs, Channel.dropSender_senders, h.incomingSenders]
    omega

/-- The account of the handles is kept by the first step of `try_send`. -/
theorem Handles.lookup (h : Handles socket) {call : CallId} {contents : Bytes}
    {result : Socket.Lookup}
    (hlookup : socket.trySendLookup call contents = some (result, following)) :
    Handles following := by
  obtain ⟨_, _, rfl⟩ | ⟨route, _, spec⟩ := Socket.trySendLookup_spec hlookup
  · exact h
  have hrouted : ∀ other, following.routed other = socket.routed other := fun other ↦ by
    simp [Socket.routed, spec.routes]
  have hcallCount : ∀ other, following.callCount other =
      socket.callCount other + (decide (route = some other)).toNat := fun other ↦ by
    rw [Socket.callCount, spec.calls]
    exact Table.count_insert _ spec.fresh _
  have hsome : ∀ other, (following.outgoing.get other).isSome =
      (socket.outgoing.get other).isSome := fun other ↦ by
    rw [spec.outgoing other]
    split <;> simp
  constructor
  case destroyed =>
    intro hzero
    have halive := spec.alive
    rw [spec.arcs] at hzero
    omega
  case routes =>
    intro remote found hfound
    rw [spec.routes] at hfound
    obtain ⟨hremote, hlive⟩ := h.routes remote found hfound
    refine ⟨hremote, ?_⟩
    obtain ⟨channel, hchannel, hreceiver⟩ := Socket.live_iff.mp hlive
    rw [Socket.live_iff, spec.outgoing found, hchannel]
    split
    · exact ⟨channel.cloneSender, rfl, hreceiver⟩
    · exact ⟨channel, rfl, hreceiver⟩
  case calls =>
    intro other sent found hcall
    rw [spec.calls, Table.get_insert] at hcall
    rw [hsome]
    split at hcall
    · next hsame =>
      simp only [Option.some.injEq, Call.mk.injEq] at hcall
      have hroute : socket.routes.get call.destination = some found := by
        rw [← spec.found, hcall.2]
      obtain ⟨hremote, hlive⟩ := h.routes _ _ hroute
      obtain ⟨channel, hchannel, _⟩ := Socket.live_iff.mp hlive
      exact ⟨by rw [hremote, hsame], by rw [hchannel]; rfl⟩
    · exact h.calls other sent found hcall
  case senders =>
    intro other channel hchannel
    rw [hrouted, hcallCount]
    rw [spec.outgoing other] at hchannel
    split at hchannel
    · next hroute =>
      obtain ⟨old, hold, rfl⟩ := Option.map_eq_some_iff.mp hchannel
      simp [hroute, h.senders other old hold, Nat.add_assoc]
    · next hroute => simpa [hroute] using h.senders other channel hchannel
  case incomingReceiver => simpa [spec.incoming, spec.arcs] using h.incomingReceiver
  case incomingSenders =>
    rw [spec.incoming, spec.arcs, spec.liveCount]
    exact h.incomingSenders

/-- Ending a call removes it from the account of every path it does not hold. -/
theorem Socket.callCount_erase {call : CallId} {contents : Bytes} {route : Option PathId}
    (h : socket.calls.get call = some ⟨contents, route⟩) (other : PathId) :
    socket.callCount other = ((socket.calls.erase call).count fun _ call ↦
      decide (call.route = some other)) + (decide (route = some other)).toNat :=
  Table.count_erase h _

/-- The account of the handles is kept by the second step of `try_send`. -/
theorem Handles.enqueue (h : Handles socket) {call : CallId}
    {attempt : Option (PathId × TrySend)}
    (henqueue : socket.trySendEnqueue call = some (attempt, following)) : Handles following := by
  have hcalls : ∀ other sent found, (socket.calls.erase call).get other = some ⟨sent, some found⟩ →
      socket.calls.get other = some ⟨sent, some found⟩ := by
    intro other sent found hfound
    rw [Table.get_erase] at hfound
    split at hfound
    · simp at hfound
    · exact hfound
  have hnone : (∀ other, socket.calls.get other = none) →
      ∀ other, (socket.calls.erase call).get other = none := by
    intro hempty other
    rw [Table.get_erase, hempty]
    simp
  obtain ⟨contents, hcall, _, rfl⟩ | ⟨contents, path, result, _, spec⟩ :=
    Socket.trySendEnqueue_spec henqueue
  · constructor
    case destroyed => exact fun hzero ↦ ⟨(h.destroyed hzero).1, hnone (h.destroyed hzero).2⟩
    case routes => exact h.routes
    case calls => exact fun other sent found hfound ↦ h.calls other sent found (hcalls _ _ _ hfound)
    case senders =>
      intro other channel hchannel
      have hcount := h.senders other channel hchannel
      rw [Socket.callCount_erase hcall other] at hcount
      exact hcount
    case incomingReceiver => exact h.incomingReceiver
    case incomingSenders => exact h.incomingSenders
  · obtain ⟨channel, hchannel, _, hsent⟩ := spec.tried
    have hget : ∀ other, (following.outgoing.get other).isSome =
        (socket.outgoing.get other).isSome := by
      intro other
      by_cases hother : other = path
      · simp [hother, hchannel, hsent]
      · rw [spec.others other hother]
    constructor
    case destroyed =>
      intro hzero
      rw [spec.arcs] at hzero
      rw [spec.routes, spec.calls]
      exact ⟨(h.destroyed hzero).1, hnone (h.destroyed hzero).2⟩
    case routes =>
      intro remote found hfound
      rw [spec.routes] at hfound
      obtain ⟨hremote, hlive⟩ := h.routes remote found hfound
      refine ⟨hremote, ?_⟩
      obtain ⟨old, hold, hreceiver⟩ := Socket.live_iff.mp hlive
      rw [Socket.live_iff]
      by_cases hother : found = path
      · subst hother
        rw [hchannel, Option.some.injEq] at hold
        subst hold
        exact ⟨_, hsent, by simpa using hreceiver⟩
      · exact ⟨old, by rw [spec.others found hother]; exact hold, hreceiver⟩
    case calls =>
      intro other sent found hfound
      rw [spec.calls] at hfound
      rw [hget]
      exact h.calls other sent found (hcalls _ _ _ hfound)
    case senders =>
      intro other kept hkept
      have hrouted : following.routed other = socket.routed other := by
        simp [Socket.routed, spec.routes]
      have hcount := Socket.callCount_erase spec.pending other
      rw [← spec.calls] at hcount
      by_cases hother : other = path
      · -- the sender that the call had cloned is dropped with the call
        subst hother
        rw [hsent, Option.some.injEq] at hkept
        subst hkept
        have hold := h.senders other channel hchannel
        simp only [Channel.dropSender_senders, Channel.trySend_senders,
          Channel.dropSender_receiver, Channel.trySend_receiver, hrouted]
        simp only [decide_true, Bool.toNat_true] at hcount
        change socket.callCount other = following.callCount other + 1 at hcount
        omega
      · rw [spec.others other hother] at hkept
        have hold := h.senders other kept hkept
        have hne : path ≠ other := fun heq ↦ hother heq.symm
        simp only [Option.some.injEq, hne, decide_false, Bool.toNat_false, Nat.add_zero] at hcount
        change socket.callCount other = following.callCount other at hcount
        rw [hrouted, ← hcount]
        exact hold
    case incomingReceiver => simpa [spec.incoming, spec.arcs] using h.incomingReceiver
    case incomingSenders =>
      rw [spec.incoming, spec.arcs, spec.liveCount]
      exact h.incomingSenders

/-- The account of the handles is kept by a poll of `next_outgoing`. -/
theorem Handles.nextOutgoing (h : Handles socket) {result : Poll (Option Bytes)}
    (hnext : socket.nextOutgoing path = some (result, following)) : Handles following := by
  have spec := Socket.nextOutgoing_spec hnext
  obtain ⟨channel, hchannel, hreceiver, _, hpolled⟩ := spec.polled
  -- the channel of the path keeps its handles, and no other channel is touched
  have hget : ∀ other kept, following.outgoing.get other = some kept →
      ∃ old, socket.outgoing.get other = some old ∧ kept.senders = old.senders ∧
        kept.receiver = old.receiver := by
    intro other kept hkept
    by_cases hother : other = path
    · subst hother
      rw [hpolled, Option.some.injEq] at hkept
      subst hkept
      exact ⟨channel, hchannel, by simp, by simp⟩
    · rw [spec.others other hother] at hkept
      exact ⟨kept, hkept, rfl, rfl⟩
  have hsome : ∀ other, (socket.outgoing.get other).isSome = true →
      ∃ kept, following.outgoing.get other = some kept := by
    intro other hold
    by_cases hother : other = path
    · exact ⟨_, by rw [hother]; exact hpolled⟩
    · rw [spec.others other hother]
      exact Option.isSome_iff_exists.mp hold
  have hcallCount : ∀ other, following.callCount other = socket.callCount other := fun other ↦ by
    simp [Socket.callCount, spec.calls]
  constructor
  case destroyed =>
    rw [spec.arcs, spec.routes, spec.calls]
    exact h.destroyed
  case routes =>
    intro remote found hfound
    rw [spec.routes] at hfound
    obtain ⟨hremote, hlive⟩ := h.routes remote found hfound
    obtain ⟨old, hold, holdReceiver⟩ := Socket.live_iff.mp hlive
    obtain ⟨kept, hkept⟩ := hsome found (by rw [hold]; rfl)
    obtain ⟨same, hsame, _, hkeptReceiver⟩ := hget found kept hkept
    rw [hold, Option.some.injEq] at hsame
    subst hsame
    exact ⟨hremote, Socket.live_iff.mpr ⟨kept, hkept, by rw [hkeptReceiver, holdReceiver]⟩⟩
  case calls =>
    intro call contents found hcall
    rw [spec.calls] at hcall
    obtain ⟨hremote, hold⟩ := h.calls call contents found hcall
    exact ⟨hremote, Option.isSome_iff_exists.mpr (hsome found hold)⟩
  case senders =>
    intro other kept hkept
    obtain ⟨old, hold, hsenders, hkeptReceiver⟩ := hget other kept hkept
    rw [hcallCount, hsenders, hkeptReceiver, Socket.routed, spec.routes]
    exact h.senders other old hold
  case incomingReceiver => simpa [spec.incoming, spec.arcs] using h.incomingReceiver
  case incomingSenders =>
    rw [spec.incoming, spec.arcs, spec.liveCount]
    exact h.incomingSenders

/-- The account of the handles does not depend on what is queued in the incoming channel. -/
theorem Handles.withIncoming (h : Handles socket) {incoming : Channel ReceivedDatagram}
    (hsenders : incoming.senders = socket.incoming.senders)
    (hreceiver : incoming.receiver = socket.incoming.receiver) :
    Handles { socket with incoming := incoming } :=
  ⟨h.destroyed, h.routes, h.calls, h.senders, hreceiver.trans h.incomingReceiver,
    hsenders.trans h.incomingSenders⟩

/-- The account of the handles is kept when an `Arc` is cloned, or dropped while another is left. -/
theorem Handles.withArcs (h : Handles socket) {arcs : Nat} (hold : 0 < socket.arcs)
    (hnew : 0 < arcs) : Handles { socket with arcs := arcs } := by
  constructor
  case destroyed => exact fun hzero ↦ absurd hzero (by simp; omega)
  case routes => exact h.routes
  case calls => exact h.calls
  case senders => exact h.senders
  case incomingReceiver => simpa [hold, hnew] using h.incomingReceiver
  case incomingSenders =>
    have hcount := h.incomingSenders
    simp only [hold, hnew, decide_true] at hcount ⊢
    exact hcount

/-- The account of the handles is kept when the socket is destroyed. -/
theorem Handles.destroy (h : Handles socket) (hlast : socket.arcs = 1)
    (hcalls : socket.calls.size = 0) : Handles socket.destroy := by
  have hempty := Table.size_eq_zero_iff.mp hcalls
  have hreceiver : ∀ path (channel : Channel Bytes),
      (if socket.routes.get path.remote = some path then channel.dropSender
        else channel).receiver = channel.receiver := by
    intro path channel
    split <;> rfl
  constructor
  case destroyed => exact fun _ ↦ ⟨fun _ ↦ rfl, fun call ↦ by simp [Socket.destroy, hempty]⟩
  case routes => exact fun _ _ hroute ↦ absurd hroute (by simp [Socket.destroy])
  case calls => exact fun _ _ _ hcall ↦ absurd hcall (by simp [Socket.destroy, hempty])
  case senders =>
    intro other channel hchannel
    simp only [Socket.destroy, Table.get_mapValues, Option.map_eq_some_iff] at hchannel
    obtain ⟨old, hold, rfl⟩ := hchannel
    have hcount := h.senders other old hold
    rw [hreceiver]
    have hrouted : socket.destroy.routed other = false := by simp [Socket.routed, Socket.destroy]
    have hcallCount : socket.destroy.callCount other = socket.callCount other := rfl
    rw [hrouted, hcallCount]
    by_cases hroute : socket.routes.get other.remote = some other
    · rw [if_pos hroute, Channel.dropSender_senders, hcount]
      simp only [Socket.routed, hroute, decide_true, Bool.toNat_true, Bool.toNat_false]
      omega
    · rw [if_neg hroute, hcount]
      simp [Socket.routed, hroute]
  case incomingReceiver => rfl
  case incomingSenders =>
    have hlive : socket.destroy.liveCount = socket.liveCount :=
      Table.count_mapValues_congr hreceiver
    rw [hlive]
    have hcount := h.incomingSenders
    rw [hlast] at hcount
    simp only [Socket.destroy, Channel.dropReceiver_senders, Channel.dropSender_senders, hcount]
    simp

/-- Every operation keeps the account of the handles. -/
theorem Handles.step (h : Handles socket) {op : Op} {out : Out}
    (hnext : next socket op = some (out, following)) : Handles following := by
  cases effect_of_next hnext with
  | cloneArc hclone =>
      obtain ⟨halive, rfl⟩ := Socket.cloneArc_spec hclone
      exact h.withArcs halive (Nat.succ_pos _)
  | dropArc hdrop =>
      obtain ⟨hmore, rfl⟩ | ⟨hlast, hcalls, rfl⟩ := Socket.dropArc_spec hdrop
      · exact h.withArcs (by omega) (by omega)
      · exact h.destroy hlast hcalls
  | addPath hadd =>
      exact h.addPath hadd
  | dropPath hdrop =>
      exact h.dropPath hdrop
  | lookup hlookup =>
      exact h.lookup hlookup
  | enqueue henqueue =>
      exact h.enqueue henqueue
  | nextOutgoing hpoll =>
      exact h.nextOutgoing hpoll
  | tryReceive hreceive =>
      obtain ⟨_, ⟨_, _, rfl⟩ | ⟨_, rfl, _⟩⟩ := Socket.tryReceive_spec hreceive
      · exact h
      · exact h.withIncoming (by simp) (by simp)
  | pollRecv hpoll =>
      obtain ⟨_, ⟨_, _, rfl⟩ | ⟨_, _, _, _, rfl, _⟩⟩ := Socket.pollRecv_spec hpoll
      · exact h
      · exact h.withIncoming (by simp) (by simp)

/-- The account holds in every state a new socket reaches. -/
theorem Exec.handles {localAddr : SocketAddr} {mtu queueCapacity : Nat} {start : Socket}
    (hstart : Socket.withOptions localAddr mtu queueCapacity = some start)
    {log : Log} (h : Exec start log socket) : Handles socket :=
  h.invariant (Handles.withOptions hstart) fun hstate hnext ↦ hstate.step hnext

/-! ## What a caller never sees -/

/-- Polling a path never reports the end of its channel, since the path itself keeps a sender. -/
theorem Handles.nextOutgoing_ne_end (h : Handles socket) {result : Poll (Option Bytes)}
    (hpoll : socket.nextOutgoing path = some (result, following)) : result ≠ .ready none := by
  obtain ⟨channel, hchannel, hreceiver, rfl, _⟩ := (Socket.nextOutgoing_spec hpoll).polled
  have hsenders := h.senders path channel hchannel
  rw [hreceiver, Bool.toNat_true] at hsenders
  exact Channel.recv_ne_end (by omega)

/-- A live path of a live socket is never told that the socket is closed. -/
theorem Handles.tryReceive_ne_closed (h : Handles socket) (halive : 0 < socket.arcs)
    {payload : Bytes} {result : Except PathReceiveError Unit}
    (hreceive : socket.tryReceive path payload = some (result, following)) :
    result ≠ .error .closed := by
  obtain ⟨_, ⟨_, rfl, _⟩ | ⟨_, _, rfl⟩⟩ := Socket.tryReceive_spec hreceive
  · simp
  · have hopen : socket.incoming.receiver = true := by simpa [halive] using h.incomingReceiver
    have hne : (socket.incoming.trySend ⟨path.remote, payload⟩).1 ≠ .closed := fun hclosed ↦ by
      rw [Channel.trySend_closed_iff, hopen] at hclosed
      simp at hclosed
    split
    · simp
    · simp
    · contradiction

/-- `poll_recv` never fails. -/
theorem Handles.pollRecv_ne_brokenPipe (h : Handles socket) {bufs : List Nat} {metas : Nat}
    {result : Poll PollRecv} (hpoll : socket.pollRecv bufs metas = some (result, following)) :
    result ≠ .ready .brokenPipe := by
  obtain ⟨halive, ⟨_, rfl, _⟩ | ⟨_, _, _, _, _, rfl⟩⟩ := Socket.pollRecv_spec hpoll
  · simp
  · have hsenders := h.incomingSenders
    rw [decide_eq_true halive, Bool.toNat_true] at hsenders
    have hne : socket.incoming.recv.1 ≠ .ready none := Channel.recv_ne_end (by omega)
    split
    · simp
    · contradiction
    · simp

/-- `try_send` fails exactly on contents over the MTU, and then changes nothing. -/
theorem Socket.trySendLookup_oversize_iff {call : CallId} {contents : Bytes} {result : Lookup}
    (h : socket.trySendLookup call contents = some (result, following)) :
    ((∃ actual mtu, result = .oversize actual mtu) ↔ socket.mtu < contents.length) ∧
      (socket.mtu < contents.length → following = socket) := by
  obtain ⟨hsize, rfl, rfl⟩ | ⟨route, rfl, spec⟩ := Socket.trySendLookup_spec h
  · exact ⟨⟨fun _ ↦ hsize, fun _ ↦ ⟨_, _, rfl⟩⟩, fun _ ↦ rfl⟩
  · have hfits := spec.fits
    refine ⟨⟨?_, fun hsize ↦ ?_⟩, fun hsize ↦ ?_⟩
    · rintro ⟨_, _, heq⟩
      simp at heq
    · omega
    · omega

end Unbounded.VirtualUdp
