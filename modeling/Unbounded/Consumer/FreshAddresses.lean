import Unbounded.Consumer.Sessions

/-!
# A fresh address for every path

Over whole runs of sessions on one socket and one allocator, no synthetic address is handed out
twice, so no path takes the route of another, and the route table has one entry for every session
inside `run_consumer_path`.
-/

namespace Unbounded.Consumer

open Execution (countP_set_slot)
open ConsumerPath (Endpoint SyntheticPathAllocator)
open VirtualUdp (Socket)

namespace Sessions

variable {codec : Codec} {decode : Bytes → Except String UnboundedPacket}
  {state following : Sessions} {localAddr : SocketAddr} {mtu queueCapacity : Nat} {socket : Socket}

/-- The sessions inside `run_consumer_path` are as many as the futures of it. -/
def Matched (state : Sessions) : Prop :=
  state.sessions.countP Session.inside = state.endpoint.paths.running

/-- Every step keeps the sessions matched with the futures. -/
theorem Matched.step {log : Endpoint.Log} {endpointLog : Endpoint.Log} (h : state.Matched)
    (hstart : Socket.withOptions localAddr mtu queueCapacity = some socket)
    (hexec : Endpoint.Exec decode (.new socket) endpointLog state.endpoint)
    (hchange : Change decode state log following) : following.Matched := by
  have hzero : ∀ {ops : List Endpoint.Op} {count : Endpoint.Op → Nat},
      (∀ op ∈ ops, count op = 0) → (ops.map count).sum = 0 := by
    intro ops count hops
    exact List.sum_eq_zero fun value hmem ↦ by
      obtain ⟨op, hop, rfl⟩ := List.mem_map.mp hmem
      exact hops op hop
  unfold Matched at h ⊢
  cases hchange with
  | @embedder _ _ endpoint hrun =>
      have hrunning := Endpoint.Exec.running_of_run hstart hexec hrun
      rw [hzero (by simp [Endpoint.Op.leaves]), hzero (by simp [Endpoint.Op.starts])] at hrunning
      show List.countP Session.inside state.sessions = endpoint.paths.running
      omega
  | @start config _ endpoint hrun =>
      have hrunning := Endpoint.Exec.running_of_run hstart hexec hrun
      rw [hzero (by simp [Endpoint.Op.leaves]), hzero (by simp [Endpoint.Op.starts])] at hrunning
      have hcount : (state.sessions ++ [Session.mk config .connecting none none]).countP
          Session.inside = state.sessions.countP Session.inside := by
        simp [Session.inside]
      show List.countP Session.inside (state.sessions ++ _) = endpoint.paths.running
      omega
  | @move index old new ops _ endpoint hold hinside hstarts hleaves hrun =>
      have hrunning := Endpoint.Exec.running_of_run hstart hexec hrun
      rw [hzero hstarts, hzero hleaves] at hrunning
      have hcount := countP_set_slot hold new Session.inside
      rw [hinside] at hcount
      show List.countP Session.inside (state.sessions.set index new) = endpoint.paths.running
      omega
  | @enter index old new _ _ _ endpoint hold houtside hinside hrun =>
      have hrunning := Endpoint.Exec.running_of_run hstart hexec hrun
      simp only [List.map_cons, List.map_nil, Endpoint.Op.leaves, Endpoint.Op.starts,
        List.sum_cons, List.sum_nil] at hrunning
      have hcount := countP_set_slot hold new Session.inside
      rw [houtside, hinside, Bool.toNat_false, Bool.toNat_true] at hcount
      show List.countP Session.inside (state.sessions.set index new) = endpoint.paths.running
      omega
  | @leave index old new _ _ endpoint hold hinside houtside hrun =>
      have hrunning := Endpoint.Exec.running_of_run hstart hexec hrun
      simp only [List.map_cons, List.map_nil, Endpoint.Op.leaves, Endpoint.Op.starts,
        List.sum_cons, List.sum_nil] at hrunning
      have hcount := countP_set_slot hold new Session.inside
      rw [houtside, hinside, Bool.toNat_false, Bool.toNat_true] at hcount
      show List.countP Session.inside (state.sessions.set index new) = endpoint.paths.running
      omega

/-- The sessions are matched with the futures in every run. -/
theorem Exec.matched (hstart : Socket.withOptions localAddr mtu queueCapacity = some socket)
    {log : Log} (h : Exec codec decode (.new socket) log state) : state.Matched := by
  induction h with
  | refl => rfl
  | snoc hexec hnext ih => exact ih.step hstart (Exec.endpoint hexec) (change_of_next hnext)

/-- A step that adds a path adds it at an address without a route. -/
theorem Change.no_route_at_added {log endpointLog : Endpoint.Log}
    (h : Change decode state log following)
    (hstart : Socket.withOptions localAddr mtu queueCapacity = some socket)
    (hexec : Endpoint.Exec decode (.new socket) endpointLog state.endpoint)
    {path : VirtualUdp.PathId} {capacity : Nat} {result : VirtualUdp.Out}
    (hmem : (.addPath path capacity, result) ∈ Endpoint.socketLog log) :
    state.endpoint.paths.socket.routes.get path.remote = none := by
  have hnil : (.addPath path capacity, result) ∉ Endpoint.socketLog [] := List.not_mem_nil
  cases h with
  | embedder hrun =>
      exact absurd hmem (Endpoint.addPath_notMem_of_run (by simp [Endpoint.Op.starts]) hnil hrun)
  | start hrun =>
      exact absurd hmem (Endpoint.addPath_notMem_of_run (by simp [Endpoint.Op.starts]) hnil hrun)
  | move _ _ hstarts _ hrun =>
      exact absurd hmem (Endpoint.addPath_notMem_of_run hstarts hnil hrun)
  | leave _ _ _ hrun =>
      exact absurd hmem (Endpoint.addPath_notMem_of_run (by simp [Endpoint.Op.starts]) hnil hrun)
  | enter _ _ _ hrun =>
      simp only [Execution.run, Option.bind_eq_some_iff, Option.some.injEq, Prod.mk.injEq] at hrun
      obtain ⟨⟨out, endpoint⟩, hnext, rfl, _⟩ := hrun
      cases Endpoint.change_of_next hnext with
      | started hgranted _ _ =>
          simp only [Endpoint.socketLog, Endpoint.pathsLog, ConsumerPath.socketLog,
            List.filterMap_cons, List.filterMap_nil, List.flatMap_cons, List.flatMap_nil,
            List.append_nil, List.mem_singleton, Prod.mk.injEq,
            VirtualUdp.Op.addPath.injEq] at hmem
          obtain ⟨⟨rfl, _⟩, _⟩ := hmem
          exact (Endpoint.Exec.addressing hstart hexec).no_route_of_granted
            (Endpoint.Exec.handles hstart hexec) hgranted

/-- Dropping an `Arc` of a session leaves the allocator alone. -/
theorem allocator_of_release {old new : Session} {before after : Endpoint.Log}
    {endpoint final : Endpoint}
    (h : Execution.run (Endpoint.next decode) (release old new) (before, endpoint) =
      some (after, final)) : final.allocator = endpoint.allocator := by
  unfold release at h
  split at h
  case isFalse =>
    simp only [Execution.run, Option.some.injEq, Prod.mk.injEq] at h
    rw [h.2]
  case isTrue =>
    simp only [Execution.run, Option.bind_eq_some_iff, Option.some.injEq, Prod.mk.injEq] at h
    obtain ⟨⟨_, released⟩, hdrop, _, rfl⟩ := h
    cases Endpoint.change_of_next hdrop with
    | embedder => rfl

/-- An allocation that fails changes neither the counter nor a route. -/
theorem routes_of_exhausted {log endpointLog : Endpoint.Log} {index : Nat}
    (hstart : Socket.withOptions localAddr mtu queueCapacity = some socket)
    (hexec : Endpoint.Exec decode (.new socket) endpointLog state.endpoint)
    (hfull : state.endpoint.allocator.nextHost.toNat = 2 ^ 22)
    (h : next codec decode state (.allocate index) = some (log, following)) :
    following.endpoint.allocator = state.endpoint.allocator ∧
      ∀ remote, following.endpoint.paths.socket.routes.get remote =
        state.endpoint.paths.socket.routes.get remote := by
  obtain ⟨old, new, ops, endpoint, _, hact, hrun, rfl⟩ := act_of_next h rfl
  have hinside : new.inside = old.inside := by
    cases hact with
    | allocate => rfl
  have hquiet := hact.quiet hinside
  refine ⟨?_, (Endpoint.Exec.routes_of_run hstart hexec hrun (fun op hmem ↦ (hquiet op hmem).1)
    fun op hmem ↦ (hquiet op hmem).2).2⟩
  cases hact with
  | allocate =>
      simp only [Execution.run, Option.bind_eq_some_iff] at hrun
      obtain ⟨⟨_, middle⟩, hallocate, hrelease⟩ := hrun
      rw [allocator_of_release hrelease]
      cases Endpoint.change_of_next hallocate with
      | allocated hleft => omega
      | exhausted => rfl

/-- For any interleaving of sessions that share a new socket and a new allocator: the addresses
that `allocate` ever returned are pairwise distinct, have port 443 and lie from 100.64.0.2 to
100.127.255.255, and neither the counter nor an address overflows; every path is added at an address
without a route, and the route table has one entry for every session inside `run_consumer_path`; an
`allocate` succeeds exactly while fewer than `2 ^ 22 - 2` have succeeded, and a failing one leaves
the counter and every route unchanged. -/
theorem fresh_address_per_path
    (hstart : Socket.withOptions localAddr mtu queueCapacity = some socket) {log : Log}
    (h : Exec codec decode (.new socket) log state) :
    (Endpoint.allocations (endpointLog log)).Nodup ∧
    (∀ remote ∈ Endpoint.allocations (endpointLog log), ∃ bits : UInt32, remote = .v4 bits 443 ∧
      (ConsumerPath.fromBeBytes 100 64 0 2).toNat ≤ bits.toNat ∧
      bits.toNat ≤ (ConsumerPath.fromBeBytes 100 127 255 255).toNat) ∧
    (ConsumerPath.cgnatBase.toNat + state.endpoint.allocator.nextHost.toNat < 2 ^ 32 ∧
      state.endpoint.allocator.nextHost.toNat + 1 < 2 ^ 32) ∧
    (∀ op performed following path capacity result,
      next codec decode state op = some (performed, following) →
      (.addPath path capacity, result) ∈ Endpoint.socketLog performed →
      state.endpoint.paths.socket.routes.get path.remote = none) ∧
    state.endpoint.paths.socket.pathCount = state.sessions.countP Session.inside ∧
    ((∃ remote, state.endpoint.allocator.allocate.1 = .ok remote) ↔
      (Endpoint.allocations (endpointLog log)).length < 2 ^ 22 - 2) ∧
    (Endpoint.allocations (endpointLog log)).length ≤ 2 ^ 22 - 2 ∧
    (∀ calls, (SyntheticPathAllocator.new.allocateMany calls).countP (·.isOk) =
      min calls (2 ^ 22 - 2)) ∧
    ((Endpoint.allocations (endpointLog log)).length = 2 ^ 22 - 2 →
      state.endpoint.allocator.allocate.1 = .error .addressSpaceExhausted ∧
      ∀ index performed following,
        next codec decode state (.allocate index) = some (performed, following) →
        following.endpoint.allocator = state.endpoint.allocator ∧
        ∀ remote, following.endpoint.paths.socket.routes.get remote =
          state.endpoint.paths.socket.routes.get remote) := by
  have hexec := Exec.endpoint h
  have haddressing := Endpoint.Exec.addressing hstart hexec
  have hcount := haddressing.count
  refine ⟨haddressing.distinct, ?_, ConsumerPath.allocator_no_overflow _, ?_, ?_, ?_, ?_, ?_, ?_⟩
  · intro remote hmem
    obtain ⟨host, rfl, hlow, hhigh⟩ := haddressing.hosts remote hmem
    have hle := state.endpoint.allocator.le_hosts
    rw [ConsumerPath.cgnatHosts_toNat] at hle
    have hbits := ConsumerPath.cgnatBase_add_toNat (show host.toNat < 2 ^ 22 by omega)
    refine ⟨_, rfl, ?_⟩
    rw [hbits, ConsumerPath.cgnatBase_toNat]
    have hfirst : (ConsumerPath.fromBeBytes 100 64 0 2).toNat = 100 * 2 ^ 24 + 64 * 2 ^ 16 + 2 := by
      decide
    have hlast : (ConsumerPath.fromBeBytes 100 127 255 255).toNat =
        100 * 2 ^ 24 + 64 * 2 ^ 16 + (2 ^ 22 - 1) := by
      decide
    omega
  · intro op performed following path capacity result hnext hmem
    exact (change_of_next hnext).no_route_at_added hstart hexec hmem
  · rw [haddressing.pathCount]
    exact (Exec.matched hstart h).symm
  · obtain ⟨hlt, hok, _⟩ | ⟨hfull, hfail⟩ :=
      ConsumerPath.allocate_cases state.endpoint.allocator
    · exact ⟨fun _ ↦ by omega, fun _ ↦ ⟨_, hok⟩⟩
    · rw [hfail]
      exact ⟨fun ⟨_, heq⟩ ↦ by simp at heq, fun hlt ↦ by omega⟩
  · have hle := state.endpoint.allocator.le_hosts
    rw [ConsumerPath.cgnatHosts_toNat] at hle
    omega
  · intro calls
    rw [ConsumerPath.countP_allocateMany]
    rfl
  · intro hall
    have hfull : state.endpoint.allocator.nextHost.toNat = 2 ^ 22 := by omega
    refine ⟨?_, fun index performed following hnext ↦
      routes_of_exhausted hstart hexec hfull hnext⟩
    obtain ⟨hlt, _, _⟩ | ⟨_, hfail⟩ := ConsumerPath.allocate_cases state.endpoint.allocator
    · omega
    · rw [hfail]

/-- A session that goes through its signaling, allocates the first address and enters
`run_consumer_path` has the only route. -/
theorem fresh_address_of_first_path :
    ∃ start log state, Socket.withOptions (.v4 0 0) 1200 8 = some start ∧
      Exec ⟨fun _ ↦ .ok "", fun _ ↦ .ok ⟨.answer, ""⟩, fun _ ↦ .ok ""⟩ (fun _ ↦ .error "")
        (.new start) log state ∧
      Endpoint.allocations (endpointLog log) =
        [.v4 (ConsumerPath.fromBeBytes 100 64 0 2) 443] ∧
      state.endpoint.paths.socket.pathCount = 1 := by
  have hrun : Execution.run
      (next ⟨fun _ ↦ .ok "", fun _ ↦ .ok ⟨.answer, ""⟩, fun _ ↦ .ok ""⟩ fun _ ↦ .error "")
      [.start ⟨"session", "", 8⟩, .step 0 (.connected (.ok ())),
        .step 0 (.channelCreated (.ok ())), .step 0 (.subscribed (.ok ())),
        .step 0 (.advertised (.ok (some ⟨"peer", .genesis, ""⟩))), .step 0 .patienceOver,
        .step 0 (.chosen 0), .step 0 (.offerCreated (.ok ⟨.offer, ""⟩)),
        .step 0 (.replied (.ok (some ⟨"peer", .answer, ""⟩))), .step 0 .promised,
        .step 0 (.localSet (.ok ())), .step 0 (.remoteSet (.ok ())), .step 0 (.gathered []),
        .step 0 (.replied (.ok none)), .step 0 (.waited .opened), .allocate 0, .enter 0]
      ([], .new ((Socket.withOptions (.v4 0 0) 1200 8).get rfl)) = some (_, _) := rfl
  have hstart : Socket.withOptions (.v4 0 0) 1200 8 = some _ := (Option.some_get rfl).symm
  have hexec : Exec _ _ _ _ _ := Execution.exec_of_run hrun
  have hfresh := fresh_address_per_path hstart hexec
  exact ⟨_, _, _, hstart, hexec, rfl, hfresh.2.2.2.2.1.trans rfl⟩

end Sessions

end Unbounded.Consumer
