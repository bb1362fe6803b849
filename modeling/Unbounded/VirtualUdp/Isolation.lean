import Unbounded.VirtualUdp.Routing

/-!
# Paths at different addresses do not interfere

The operations at one address can be cut out of any run of the socket: what remains is again a run,
in which every operation returns what it returned before (`Exec.at_address`). A path's stream is
therefore a function of the operations at its own address.
-/

namespace Unbounded.VirtualUdp

open Execution (Table)
open Tokio (Channel Poll TrySend)

/-- The operation is one at this address, or one on the references to the socket. Receiving from
the paths goes through a queue that all addresses share, and does not concern outgoing streams. -/
def concerns (remote : SocketAddr) : Op × Out → Bool
  | (.cloneArc, _) | (.dropArc, _) => true
  | (.addPath path _, _) | (.dropPath path, _) | (.nextOutgoing path, _) =>
      decide (path.remote = remote)
  | (.lookup call _, _) | (.enqueue call, _) => decide (call.destination = remote)
  | (.tryReceive _ _, _) | (.pollRecv _ _, _) => false

/-- The inputs of a run that concern an address. -/
def inputsAt (remote : SocketAddr) (log : Log) : List Op :=
  (log.filter (concerns remote)).map Prod.fst

/-- Two sockets agree on one address, and the second has nothing in progress elsewhere. -/
structure Agree (remote : SocketAddr) (socket small : Socket) : Prop where
  handles : Handles socket
  arcs : small.arcs = socket.arcs
  mtu : small.mtu = socket.mtu
  routes : small.routes.get remote = socket.routes.get remote
  outgoing : ∀ path, path.remote = remote → small.outgoing.get path = socket.outgoing.get path
  calls : ∀ call, call.destination = remote → small.calls.get call = socket.calls.get call
  only : ∀ call, call.destination ≠ remote → small.calls.get call = none

variable {remote : SocketAddr} {socket small following : Socket} {path : PathId}

/-- Liveness of a path is decided at its own address. -/
theorem Agree.live (h : Agree remote socket small) (hpath : path.remote = remote) :
    small.live path = socket.live path := by
  rw [Socket.live, Socket.live, h.outgoing path hpath]

/-- Adding a path at the address keeps the agreement. -/
theorem Agree.addPath (h : Agree remote socket small) {capacity : Nat}
    (hpath : path.remote = remote) (hadd : socket.addPath path capacity = some following) :
    ∃ smaller, small.addPath path capacity = some smaller ∧ Agree remote following smaller := by
  have spec := Socket.addPath_spec hadd
  obtain ⟨smaller, hsmaller⟩ : ∃ smaller, small.addPath path capacity = some smaller := by
    unfold Socket.addPath
    rw [dif_pos ⟨spec.capacity_pos, h.arcs ▸ spec.alive, (h.outgoing path hpath).trans spec.fresh⟩]
    exact ⟨_, rfl⟩
  have specSmall := Socket.addPath_spec hsmaller
  refine ⟨smaller, hsmaller, h.handles.addPath hadd, ?_, ?_, ?_, ?_, ?_, ?_⟩
  · rw [specSmall.arcs, spec.arcs, h.arcs]
  · rw [specSmall.mtu, spec.mtu, h.mtu]
  · rw [specSmall.routes, spec.routes, hpath]
    simp
  · intro other hother
    by_cases hnew : other = path
    · subst hnew
      obtain ⟨first, hfirst, hcapacity, hqueue, hsenders, hreceiver⟩ := spec.added
      obtain ⟨second, hsecond, hcapacity', hqueue', hsenders', hreceiver'⟩ := specSmall.added
      rw [hfirst, hsecond]
      exact congrArg some (Channel.ext_parts (hcapacity'.trans hcapacity.symm)
        (hqueue'.trans hqueue.symm) (hsenders'.trans hsenders.symm)
        (hreceiver'.trans hreceiver.symm))
    · rw [specSmall.others other hnew, spec.others other hnew, h.outgoing other hother, hpath,
        h.routes]
  · intro call hcall
    rw [specSmall.calls, spec.calls]
    exact h.calls call hcall
  · intro call hcall
    rw [specSmall.calls]
    exact h.only call hcall

/-- Dropping a path at the address keeps the agreement. -/
theorem Agree.dropPath (h : Agree remote socket small) (hpath : path.remote = remote)
    (hdrop : socket.dropPath path = some following) :
    ∃ smaller, small.dropPath path = some smaller ∧ Agree remote following smaller := by
  have spec := Socket.dropPath_spec hdrop
  obtain ⟨channel, hchannel, _⟩ := Socket.live_iff.mp spec.live
  obtain ⟨smaller, hsmaller⟩ : ∃ smaller, small.dropPath path = some smaller := by
    rw [Socket.dropPath, if_pos ((h.live hpath).trans spec.live)]
    exact ⟨_, rfl⟩
  have specSmall := Socket.dropPath_spec hsmaller
  have hown : (0 < small.arcs ∧ small.routes.get path.remote = some path) =
      (0 < socket.arcs ∧ socket.routes.get path.remote = some path) := by
    rw [h.arcs, hpath, h.routes]
  refine ⟨smaller, hsmaller, h.handles.dropPath hdrop, ?_, ?_, ?_, ?_, ?_, ?_⟩
  · rw [specSmall.arcs, spec.arcs, h.arcs]
  · rw [specSmall.mtu, spec.mtu, h.mtu]
  · rw [specSmall.routes, spec.routes]
    simp only [hown]
    split
    · rw [Table.get_erase, Table.get_erase, h.routes]
    · exact h.routes
  · intro other hother
    by_cases hsame : other = path
    · subst hsame
      obtain ⟨first, hfirst, hreceiver, hsenders, hcapacity, hqueue⟩ :=
        spec.dropped channel hchannel
      obtain ⟨second, hsecond, hreceiver', hsenders', hcapacity', hqueue'⟩ :=
        specSmall.dropped channel ((h.outgoing other hpath).trans hchannel)
      simp only [hown] at hsenders'
      rw [hfirst, hsecond]
      exact congrArg some (Channel.ext_parts (hcapacity'.trans hcapacity.symm)
        (hqueue'.trans hqueue.symm) (hsenders'.trans hsenders.symm)
        (hreceiver'.trans hreceiver.symm))
    · rw [specSmall.others other hsame, spec.others other hsame]
      exact h.outgoing other hother
  · intro call hcall
    rw [specSmall.calls, spec.calls]
    exact h.calls call hcall
  · intro call hcall
    rw [specSmall.calls]
    exact h.only call hcall

/-- The first step of a send to the address keeps the agreement. -/
theorem Agree.lookup (h : Agree remote socket small) {call : CallId} {contents : Bytes}
    {result : Socket.Lookup} (hcall : call.destination = remote)
    (hlookup : socket.trySendLookup call contents = some (result, following)) :
    ∃ smaller, small.trySendLookup call contents = some (result, smaller) ∧
      Agree remote following smaller := by
  have hfollowing := h.handles.lookup hlookup
  have hguard : 0 < socket.arcs ∧ socket.calls.get call = none := by
    unfold Socket.trySendLookup at hlookup
    split at hlookup
    · assumption
    · simp at hlookup
  have hguardSmall : 0 < small.arcs ∧ small.calls.get call = none := by
    rw [h.arcs, h.calls call hcall]
    exact hguard
  obtain ⟨other, smaller, hsmaller⟩ :
      ∃ other smaller, small.trySendLookup call contents = some (other, smaller) := by
    rw [Socket.trySendLookup, if_pos hguardSmall]
    split
    · exact ⟨_, _, rfl⟩
    · exact ⟨_, _, rfl⟩
  obtain ⟨hsize, rfl, rfl⟩ | ⟨route, rfl, spec⟩ := Socket.trySendLookup_spec hlookup
  · obtain ⟨_, rfl, rfl⟩ | ⟨_, _, specSmall⟩ := Socket.trySendLookup_spec hsmaller
    · exact ⟨_, by rw [hsmaller, h.mtu], h⟩
    · have hfits := specSmall.fits
      rw [h.mtu] at hfits
      omega
  · obtain ⟨hsize, _, _⟩ | ⟨found, rfl, specSmall⟩ := Socket.trySendLookup_spec hsmaller
    · have hfits := spec.fits
      rw [h.mtu] at hsize
      omega
    · have hroute : found = route := by
        rw [specSmall.found, spec.found, hcall, h.routes]
      subst hroute
      refine ⟨smaller, hsmaller, hfollowing, ?_, ?_, ?_, ?_, ?_, ?_⟩
      · rw [specSmall.arcs, spec.arcs, h.arcs]
      · rw [specSmall.mtu, spec.mtu, h.mtu]
      · rw [specSmall.routes, spec.routes, h.routes]
      · intro other hother
        rw [specSmall.outgoing, spec.outgoing, h.outgoing other hother]
      · intro other hother
        rw [specSmall.calls, spec.calls, Table.get_insert, Table.get_insert, h.calls other hother]
      · intro other hother
        rw [specSmall.calls, Table.get_insert, if_neg (by rintro rfl; exact hother hcall)]
        exact h.only other hother

/-- The second step of a send to the address keeps the agreement. -/
theorem Agree.enqueue (h : Agree remote socket small) {call : CallId}
    {attempt : Option (PathId × TrySend)} (hcall : call.destination = remote)
    (henqueue : socket.trySendEnqueue call = some (attempt, following)) :
    ∃ smaller, small.trySendEnqueue call = some (attempt, smaller) ∧
      Agree remote following smaller := by
  have hfollowing := h.handles.enqueue henqueue
  have hcalls : ∀ other, other.destination = remote →
      (small.calls.erase call).get other = (socket.calls.erase call).get other := by
    intro other hother
    rw [Table.get_erase, Table.get_erase, h.calls other hother]
  have honly : ∀ other, other.destination ≠ remote → (small.calls.erase call).get other = none := by
    intro other hother
    rw [Table.get_erase, h.only other hother]
    simp
  obtain ⟨contents, hpending, rfl, rfl⟩ | ⟨contents, path, result, rfl, spec⟩ :=
    Socket.trySendEnqueue_spec henqueue
  · refine ⟨{ small with calls := small.calls.erase call }, ?_, hfollowing, h.arcs, h.mtu, h.routes,
      h.outgoing, hcalls, honly⟩
    rw [Socket.trySendEnqueue, h.calls call hcall, hpending]
  · obtain ⟨channel, hchannel, hresult, hsent⟩ := spec.tried
    have hpath : path.remote = remote := by
      rw [(h.handles.calls call contents path spec.pending).1, hcall]
    have hsmallChannel : small.outgoing.get path = some channel :=
      (h.outgoing path hpath).trans hchannel
    obtain ⟨smaller, hsmaller⟩ :
        ∃ smaller, small.trySendEnqueue call = some (some (path, result), smaller) := by
      rw [Socket.trySendEnqueue, h.calls call hcall, spec.pending]
      simp only [hsmallChannel, hresult]
      exact ⟨_, rfl⟩
    obtain ⟨_, _, hfalse, _⟩ | ⟨other, found, _, heq, specSmall⟩ :=
      Socket.trySendEnqueue_spec hsmaller
    · simp at hfalse
    · simp only [Option.some.injEq, Prod.mk.injEq] at heq
      obtain ⟨rfl, rfl⟩ := heq
      obtain ⟨second, hsecond, _, hsentSmall⟩ := specSmall.tried
      rw [hsmallChannel, Option.some.injEq] at hsecond
      subst hsecond
      have hcontents : contents = other := by
        have hpending := specSmall.pending
        rw [h.calls call hcall, spec.pending] at hpending
        simpa using hpending
      subst hcontents
      refine ⟨smaller, hsmaller, hfollowing, ?_, ?_, ?_, ?_, ?_, ?_⟩
      · rw [specSmall.arcs, spec.arcs, h.arcs]
      · rw [specSmall.mtu, spec.mtu, h.mtu]
      · rw [specSmall.routes, spec.routes, h.routes]
      · intro other hother
        by_cases hsame : other = path
        · rw [hsame, hsentSmall, hsent]
        · rw [specSmall.others other hsame, spec.others other hsame, h.outgoing other hother]
      · rw [specSmall.calls, spec.calls]
        exact hcalls
      · rw [specSmall.calls]
        exact honly

/-- A poll of a path at the address keeps the agreement. -/
theorem Agree.nextOutgoing (h : Agree remote socket small) {result : Poll (Option Bytes)}
    (hpath : path.remote = remote)
    (hnext : socket.nextOutgoing path = some (result, following)) :
    ∃ smaller, small.nextOutgoing path = some (result, smaller) ∧
      Agree remote following smaller := by
  have spec := Socket.nextOutgoing_spec hnext
  obtain ⟨channel, hchannel, hreceiver, hresult, hpolled⟩ := spec.polled
  have hsmallChannel : small.outgoing.get path = some channel :=
    (h.outgoing path hpath).trans hchannel
  obtain ⟨smaller, hsmaller⟩ : ∃ smaller, small.nextOutgoing path = some (result, smaller) := by
    simp only [Socket.nextOutgoing, hsmallChannel, hreceiver, hresult, if_true]
    exact ⟨_, rfl⟩
  have specSmall := Socket.nextOutgoing_spec hsmaller
  obtain ⟨second, hsecond, _, _, hpolledSmall⟩ := specSmall.polled
  rw [hsmallChannel, Option.some.injEq] at hsecond
  subst hsecond
  refine ⟨smaller, hsmaller, h.handles.nextOutgoing hnext, ?_, ?_, ?_, ?_, ?_, ?_⟩
  · rw [specSmall.arcs, spec.arcs, h.arcs]
  · rw [specSmall.mtu, spec.mtu, h.mtu]
  · rw [specSmall.routes, spec.routes, h.routes]
  · intro other hother
    by_cases hsame : other = path
    · rw [hsame, hpolledSmall, hpolled]
    · rw [specSmall.others other hsame, spec.others other hsame, h.outgoing other hother]
  · rw [specSmall.calls, spec.calls]
    exact h.calls
  · rw [specSmall.calls]
    exact h.only

/-- Dropping a reference to the socket keeps the agreement. -/
theorem Agree.dropArc (h : Agree remote socket small)
    (hdrop : socket.dropArc = some following) (hfollowing : Handles following) :
    ∃ smaller, small.dropArc = some smaller ∧ Agree remote following smaller := by
  obtain ⟨hmore, rfl⟩ | ⟨hlast, hcalls, rfl⟩ := Socket.dropArc_spec hdrop
  · refine ⟨{ small with arcs := small.arcs - 1 }, ?_, hfollowing, ?_, h.mtu, h.routes,
      h.outgoing, h.calls, h.only⟩
    · rw [Socket.dropArc, if_pos (h.arcs ▸ hmore)]
    · rw [h.arcs]
  · have hsmallCalls : small.calls.size = 0 := by
      rw [Table.size_eq_zero_iff] at hcalls ⊢
      intro call
      by_cases hcall : call.destination = remote
      · rw [h.calls call hcall, hcalls]
      · exact h.only call hcall
    have hsmallLast : small.arcs = 1 := h.arcs.trans hlast
    refine ⟨small.destroy, ?_, hfollowing, rfl, h.mtu, rfl, ?_, h.calls, h.only⟩
    · rw [Socket.dropArc, if_neg (by omega), if_pos ⟨hsmallLast, hsmallCalls⟩]
    · intro path hpath
      simp only [Socket.destroy, Table.get_mapValues, h.outgoing path hpath, hpath, h.routes]

/-- An operation that concerns the address returns the same in the smaller socket, and keeps the
agreement. -/
theorem Agree.kept (h : Agree remote socket small) {op : Op} {out : Out}
    (hnext : next socket op = some (out, following))
    (hconcerns : concerns remote (op, out) = true) :
    ∃ smaller, next small op = some (out, smaller) ∧ Agree remote following smaller := by
  have hfollowing := h.handles.step hnext
  cases effect_of_next hnext with
  | cloneArc hclone =>
      obtain ⟨halive, rfl⟩ := Socket.cloneArc_spec hclone
      refine ⟨{ small with arcs := small.arcs + 1 }, ?_, hfollowing, ?_, h.mtu, h.routes,
        h.outgoing, h.calls, h.only⟩
      · refine Effect.next (.cloneArc ?_)
        rw [Socket.cloneArc, if_pos (h.arcs ▸ halive)]
      · rw [h.arcs]
  | dropArc hdrop =>
      obtain ⟨smaller, hsmaller, hagree⟩ := h.dropArc hdrop hfollowing
      exact ⟨smaller, (Effect.dropArc hsmaller).next, hagree⟩
  | addPath hadd =>
      obtain ⟨smaller, hsmaller, hagree⟩ := h.addPath (by simpa [concerns] using hconcerns) hadd
      exact ⟨smaller, (Effect.addPath hsmaller).next, hagree⟩
  | dropPath hdrop =>
      obtain ⟨smaller, hsmaller, hagree⟩ := h.dropPath (by simpa [concerns] using hconcerns) hdrop
      exact ⟨smaller, (Effect.dropPath hsmaller).next, hagree⟩
  | lookup hlookup =>
      obtain ⟨smaller, hsmaller, hagree⟩ := h.lookup (by simpa [concerns] using hconcerns) hlookup
      exact ⟨smaller, (Effect.lookup hsmaller).next, hagree⟩
  | enqueue henqueue =>
      obtain ⟨smaller, hsmaller, hagree⟩ := h.enqueue (by simpa [concerns] using hconcerns) henqueue
      exact ⟨smaller, (Effect.enqueue hsmaller).next, hagree⟩
  | nextOutgoing hpoll =>
      obtain ⟨smaller, hsmaller, hagree⟩ :=
        h.nextOutgoing (by simpa [concerns] using hconcerns) hpoll
      exact ⟨smaller, (Effect.nextOutgoing hsmaller).next, hagree⟩
  | tryReceive => simp [concerns] at hconcerns
  | pollRecv => simp [concerns] at hconcerns

/-- An operation that does not concern the address leaves everything there as it was. -/
theorem Agree.discarded (h : Agree remote socket small) {op : Op} {out : Out}
    (hnext : next socket op = some (out, following))
    (hconcerns : concerns remote (op, out) = false) : Agree remote following small := by
  have hfollowing := h.handles.step hnext
  cases effect_of_next hnext with
  | cloneArc => simp [concerns] at hconcerns
  | dropArc => simp [concerns] at hconcerns
  | @addPath path _ _ hadd =>
      have spec := Socket.addPath_spec hadd
      have hpath : path.remote ≠ remote := by simpa [concerns] using hconcerns
      refine ⟨hfollowing, by rw [spec.arcs, h.arcs], by rw [spec.mtu, h.mtu], ?_, ?_,
        by rw [spec.calls]; exact h.calls, h.only⟩
      · rw [spec.routes, Table.get_insert, if_neg (Ne.symm hpath), h.routes]
      · intro other hother
        have hne : other ≠ path := by
          rintro rfl
          exact hpath hother
        rw [spec.others other hne, if_neg, h.outgoing other hother]
        intro hreplaced
        rw [← (h.handles.routes _ _ hreplaced).1] at hpath
        exact hpath hother
  | @dropPath path _ hdrop =>
      have spec := Socket.dropPath_spec hdrop
      have hpath : path.remote ≠ remote := by simpa [concerns] using hconcerns
      refine ⟨hfollowing, by rw [spec.arcs, h.arcs], by rw [spec.mtu, h.mtu], ?_, ?_,
        by rw [spec.calls]; exact h.calls, h.only⟩
      · rw [spec.routes]
        split
        · rw [Table.get_erase, if_neg (Ne.symm hpath), h.routes]
        · exact h.routes
      · intro other hother
        rw [spec.others other (by rintro rfl; exact hpath hother), h.outgoing other hother]
  | @lookup call _ _ _ hlookup =>
      have hcall : call.destination ≠ remote := by simpa [concerns] using hconcerns
      obtain ⟨_, _, rfl⟩ | ⟨route, _, spec⟩ := Socket.trySendLookup_spec hlookup
      · exact h
      · refine ⟨hfollowing, by rw [spec.arcs, h.arcs], by rw [spec.mtu, h.mtu],
          by rw [spec.routes, h.routes], ?_, ?_, h.only⟩
        · intro other hother
          rw [spec.outgoing, if_neg, h.outgoing other hother]
          rintro rfl
          rw [← (h.handles.routes _ _ spec.found.symm).1] at hcall
          exact hcall hother
        · intro other hother
          rw [spec.calls, Table.get_insert, if_neg, h.calls other hother]
          rintro rfl
          exact hcall hother
  | @enqueue call _ _ henqueue =>
      have hcall : call.destination ≠ remote := by simpa [concerns] using hconcerns
      have hcalls : ∀ other, other.destination = remote →
          small.calls.get other = (socket.calls.erase call).get other := by
        intro other hother
        rw [Table.get_erase, if_neg (by rintro rfl; exact hcall hother), h.calls other hother]
      obtain ⟨_, _, _, rfl⟩ | ⟨contents, path, _, _, spec⟩ := Socket.trySendEnqueue_spec henqueue
      · exact ⟨hfollowing, h.arcs, h.mtu, h.routes, h.outgoing, hcalls, h.only⟩
      · refine ⟨hfollowing, by rw [spec.arcs, h.arcs], by rw [spec.mtu, h.mtu],
          by rw [spec.routes, h.routes], ?_, by rw [spec.calls]; exact hcalls, h.only⟩
        intro other hother
        rw [spec.others other, h.outgoing other hother]
        rintro rfl
        rw [← (h.handles.calls call contents other spec.pending).1] at hcall
        exact hcall hother
  | @nextOutgoing path _ _ hpoll =>
      have spec := Socket.nextOutgoing_spec hpoll
      have hpath : path.remote ≠ remote := by simpa [concerns] using hconcerns
      refine ⟨hfollowing, by rw [spec.arcs, h.arcs], by rw [spec.mtu, h.mtu],
        by rw [spec.routes, h.routes], ?_, by rw [spec.calls]; exact h.calls, h.only⟩
      intro other hother
      rw [spec.others other (by rintro rfl; exact hpath hother), h.outgoing other hother]
  | tryReceive hreceive =>
      obtain ⟨_, ⟨_, _, rfl⟩ | ⟨_, rfl, _⟩⟩ := Socket.tryReceive_spec hreceive
      · exact h
      · exact ⟨hfollowing, h.arcs, h.mtu, h.routes, h.outgoing, h.calls, h.only⟩
  | pollRecv hpoll =>
      obtain ⟨_, ⟨_, _, rfl⟩ | ⟨_, _, _, _, rfl, _⟩⟩ := Socket.pollRecv_spec hpoll
      · exact h
      · exact ⟨hfollowing, h.arcs, h.mtu, h.routes, h.outgoing, h.calls, h.only⟩

variable {start : Socket} {log : Log}

/-- A new socket agrees with itself on every address. -/
theorem Agree.withOptions {localAddr : SocketAddr} {mtu queueCapacity : Nat}
    (hstart : Socket.withOptions localAddr mtu queueCapacity = some start)
    (remote : SocketAddr) : Agree remote start start := by
  have hcalls : ∀ call, start.calls.get call = none := by
    unfold Socket.withOptions at hstart
    split at hstart
    · rw [← Option.some.inj hstart]
      exact fun _ ↦ rfl
    · simp at hstart
  exact ⟨.withOptions hstart, rfl, rfl, rfl, fun _ _ ↦ rfl, fun _ _ ↦ rfl, fun call _ ↦ hcalls call⟩

/-- The operations that concern one address are by themselves a run with the same results. -/
theorem Exec.at_address {localAddr : SocketAddr} {mtu queueCapacity : Nat}
    (hstart : Socket.withOptions localAddr mtu queueCapacity = some start)
    (h : Exec start log socket) (remote : SocketAddr) :
    ∃ small, Exec start (log.filter (concerns remote)) small := by
  obtain ⟨small, hsmall, _⟩ := h.project (Agree.withOptions hstart remote)
    (fun hagree hnext hkeep ↦ hagree.kept hnext hkeep)
    (fun hagree hnext hkeep ↦ hagree.discarded hnext hkeep)
  exact ⟨small, hsmall⟩

/-- A path's stream can be read off the operations at its own address. -/
theorem yielded_filter (log : Log) (path : PathId) :
    yielded (log.filter (concerns path.remote)) path = yielded log path := by
  induction log with
  | nil => rfl
  | cons entry log ih =>
      obtain ⟨op, out⟩ := entry
      cases hconcerns : concerns path.remote (op, out) with
      | true =>
          rw [List.filter_cons_of_pos hconcerns]
          unfold yielded
          split
          · simp at *
          · next heq =>
            cases heq
            rw [ih]
          · next heq =>
            cases heq
            rw [ih]
            split <;> simp_all
      | false =>
          rw [List.filter_cons_of_neg (by simp [hconcerns]), ih]
          cases op <;> try rfl
          next polled =>
            have hne : polled ≠ path := by
              rintro rfl
              simp [concerns] at hconcerns
            cases out <;> try rfl
            next result =>
              rcases result with _ | _ | datagram
              · rfl
              · rfl
              · rw [yielded, if_neg hne]

/-- In every run, in whatever order paths are added, replaced, dropped and polled and however sends
are split by other operations: while the socket exists, an address is routed to a path exactly when
that path is the one most recently added there and has not been dropped, so that the table has one
entry for each address whose latest path is alive and dropping a superseded path leaves its
replacement's route in place; a path yields a prefix of the datagrams that looked it up and found
room in its own queue; and its stream is determined by the operations at its own address. -/
theorem routes_and_streams {localAddr : SocketAddr} {mtu queueCapacity : Nat}
    (hstart : Socket.withOptions localAddr mtu queueCapacity = some start)
    (h : Exec start log socket) :
    (0 < socket.arcs →
      (∀ remote path, socket.routes.get remote = some path ↔
        lastAdded log remote = some path ∧ dropped log path = false) ∧
      socket.pathCount =
        {remote | ∃ path, lastAdded log remote = some path ∧ dropped log path = false}.ncard ∧
      ∀ path following, socket.dropPath path = some following →
        ∀ remote replacement, lastAdded log remote = some replacement →
          dropped log replacement = false → replacement ≠ path →
          following.routes.get remote = some replacement) ∧
    (∀ path, yielded log path <+: admitted log path ∧
      ∀ datagram ∈ admitted log path, datagram.length ≤ mtu) ∧
    ∀ otherLog other, Exec start otherLog other → ∀ path : PathId,
      inputsAt path.remote otherLog = inputsAt path.remote log →
      yielded otherLog path = yielded log path := by
  have hrouting := Exec.routing hstart h
  refine ⟨fun halive ↦ ⟨hrouting.routes halive, ?_, ?_⟩,
    fun path ↦ ⟨hrouting.streams path, hrouting.sizes path⟩, ?_⟩
  · rw [Socket.pathCount, Table.size_eq_ncard]
    congr 1
    ext remote
    simp only [Set.mem_ofPred_eq, Option.isSome_iff_exists, hrouting.routes halive]
  · intro path following hdrop remote replacement hlast hkept hne
    have hafter : Routing mtu ((.dropPath path, .unit) :: log) following := hrouting.dropPath hdrop
    have harcs := (Socket.dropPath_spec hdrop).arcs
    refine (hafter.routes (harcs ▸ halive) remote replacement).mpr ⟨hlast, ?_⟩
    simp [dropped_cons, hkept, Ne.symm hne]
  · -- both runs project to the same run at the address
    intro otherLog other hother path hinputs
    obtain ⟨small, hsmall⟩ := Exec.at_address hstart h path.remote
    obtain ⟨otherSmall, hotherSmall⟩ := Exec.at_address hstart hother path.remote
    have hlogs := (hotherSmall.unique hsmall hinputs).1
    rw [← yielded_filter otherLog, ← yielded_filter log, hlogs]

/-- A path is replaced between the two steps of a send that found it: the datagram still reaches
the replaced path, and dropping that path leaves the replacement's route. -/
theorem routes_and_streams_of_replaced_path :
    ∃ start log socket, Socket.withOptions (.v4 0 0) 4 2 = some start ∧ Exec start log socket ∧
      0 < socket.arcs ∧ socket.routes.get (.v4 1 1) = some ⟨.v4 1 1, 1⟩ ∧
      yielded log ⟨.v4 1 1, 0⟩ = [[7, 8]] := by
  have hrun : Execution.run next
      [.addPath ⟨.v4 1 1, 0⟩ 1, .lookup ⟨.v4 1 1, 0⟩ [7, 8], .addPath ⟨.v4 1 1, 1⟩ 1,
        .enqueue ⟨.v4 1 1, 0⟩, .nextOutgoing ⟨.v4 1 1, 0⟩, .dropPath ⟨.v4 1 1, 0⟩]
      ([], (Socket.withOptions (.v4 0 0) 4 2).get rfl) = some (_, _) := rfl
  have hstart : Socket.withOptions (.v4 0 0) 4 2 = some _ := (Option.some_get rfl).symm
  have hexec : Exec _ _ _ := Execution.exec_of_run hrun
  exact ⟨_, _, _, hstart, hexec, by decide,
    (((routes_and_streams hstart hexec).1 (by decide)).1 _ _).mpr ⟨rfl, rfl⟩, rfl⟩

end Unbounded.VirtualUdp
