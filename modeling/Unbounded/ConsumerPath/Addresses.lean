import Unbounded.ConsumerPath.Allocator
import Unbounded.ConsumerPath.Lifetime

/-!
# Paths at synthetic addresses

The socket, its path futures and the allocator of one consumer, where every path is started at an
address that `allocate` returned, and where the embedder adds no path of its own. `Addressing` says
that the addresses never repeat, so that a new path never takes the route of another, and that the
route table has exactly one entry for every future inside `run_consumer_path`.
-/

namespace Unbounded.ConsumerPath

open Execution (Next Table getElem?_set_cases getElem?_set_slot countP_set_slot countP_slot_pos
  map_set_slot)
open VirtualUdp (Socket PathId Handles)

/-- A consumer's socket and path futures with its allocator, and the addresses that were allocated
but not yet used. -/
structure Endpoint where
  paths : Paths
  allocator : SyntheticPathAllocator
  granted : List SocketAddr

/-- The operations of an embedder that owns no path. -/
def embedderOp : VirtualUdp.Op → Bool
  | .cloneArc | .dropArc | .lookup _ _ | .enqueue _ | .pollRecv _ _ => true
  | .addPath _ _ | .dropPath _ | .nextOutgoing _ | .tryReceive _ _ => false

namespace Endpoint

/-- A consumer with a new socket and a new allocator. -/
def new (socket : Socket) : Endpoint :=
  ⟨⟨socket, []⟩, .new, []⟩

/-- The steps at an endpoint. -/
inductive Op where
  /-- A call of `allocate`. -/
  | allocate
  /-- A call of `run_consumer_path` with an allocated address. -/
  | start (remote : SocketAddr) (queueCapacity : Nat)
  /-- A step of a path future. -/
  | path (op : ConsumerPath.Op)
  /-- An operation of the embedder on the socket. -/
  | embedder (op : VirtualUdp.Op)

/-- What a step reports. -/
inductive Out where
  | allocated (result : Except PathError SocketAddr)
  | performed (op : ConsumerPath.Op) (log : VirtualUdp.Log)

/-- Perform a step of the paths. -/
def perform (decode : Bytes → Except String UnboundedPacket) (endpoint : Endpoint)
    (op : ConsumerPath.Op) : Option (Out × Endpoint) :=
  (ConsumerPath.next decode endpoint.paths op).map fun (log, paths) ↦
    (.performed op log, { endpoint with paths := paths })

/-- The path that a call of `run_consumer_path` adds at an address. -/
def newPath (endpoint : Endpoint) (remote : SocketAddr) : PathId :=
  ⟨remote, endpoint.paths.tasks.length⟩

/-- One step at an endpoint. -/
def next (decode : Bytes → Except String UnboundedPacket) : Next Endpoint Op Out
  | endpoint, .allocate =>
      let (result, allocator) := endpoint.allocator.allocate
      some (.allocated result, { endpoint with
        allocator := allocator
        granted := match result with
          | .ok remote => remote :: endpoint.granted
          | .error _ => endpoint.granted })
  | endpoint, .start remote queueCapacity =>
      if remote ∈ endpoint.granted then
        { endpoint with granted := endpoint.granted.erase remote }.perform decode
          (.start (endpoint.newPath remote) queueCapacity)
      else none
  | endpoint, .path op => if op.task.isSome then endpoint.perform decode op else none
  | endpoint, .embedder op =>
      if embedderOp op then endpoint.perform decode (.embedder op) else none

/-- A log of an endpoint. -/
abbrev Log := Execution.Log Op Out

/-- Executions of an endpoint. -/
abbrev Exec (decode : Bytes → Except String UnboundedPacket) := Execution.Exec (next decode)

/-- The steps of the paths in a run, newest first. -/
def pathsLog (log : Log) : ConsumerPath.Log :=
  log.filterMap fun entry ↦ match entry.2 with
    | .allocated _ => none
    | .performed op performed => some (op, performed)

/-- The addresses that `allocate` returned in a run, newest first. -/
def allocations (log : Log) : List SocketAddr :=
  log.filterMap fun entry ↦ match entry.2 with
    | .allocated (.ok remote) => some remote
    | _ => none

/-- The addresses in use: allocated ones and those of all futures ever started. -/
def used (endpoint : Endpoint) : List SocketAddr :=
  endpoint.granted ++ endpoint.paths.holders.map (·.1.remote)

variable {decode : Bytes → Except String UnboundedPacket} {endpoint following : Endpoint}

/-- Everything a step at an endpoint can be. -/
inductive Change (decode : Bytes → Except String UnboundedPacket) (endpoint : Endpoint) :
    Op → Out → Endpoint → Prop where
  | allocated (hleft : endpoint.allocator.nextHost.toNat < 2 ^ 22)
      (hnext : endpoint.allocator.allocate.2.nextHost.toNat =
        endpoint.allocator.nextHost.toNat + 1) :
      Change decode endpoint .allocate (.allocated (.ok (pathAddress endpoint.allocator.nextHost)))
        { endpoint with
          allocator := endpoint.allocator.allocate.2
          granted := pathAddress endpoint.allocator.nextHost :: endpoint.granted }
  | exhausted (hfull : endpoint.allocator.nextHost.toNat = 2 ^ 22) :
      Change decode endpoint .allocate (.allocated (.error .addressSpaceExhausted)) endpoint
  | started {remote queueCapacity socket} (hgranted : remote ∈ endpoint.granted)
      (hspare : endpoint.paths.spare = true)
      (hadd : endpoint.paths.socket.addPath (endpoint.newPath remote) queueCapacity =
        some socket) :
      Change decode endpoint (.start remote queueCapacity)
        (.performed (.start (endpoint.newPath remote) queueCapacity)
          [(.addPath (endpoint.newPath remote) queueCapacity, .unit)])
        { endpoint with
          paths := ⟨socket, endpoint.paths.tasks ++ [⟨endpoint.newPath remote, .selecting none⟩]⟩
          granted := endpoint.granted.erase remote }
  | path {op index log paths} (hop : op.task = some index)
      (hchange : ConsumerPath.Change decode endpoint.paths op log paths) :
      Change decode endpoint (.path op) (.performed op log) { endpoint with paths := paths }
  | embedder {op out socket} (hop : embedderOp op = true)
      (hmay : endpoint.paths.embedderMay op = true)
      (hnext : VirtualUdp.next endpoint.paths.socket op = some (out, socket)) :
      Change decode endpoint (.embedder op) (.performed (.embedder op) [(op, out)])
        { endpoint with paths := { endpoint.paths with socket := socket } }

/-- Every step of an endpoint is a `Change`. -/
theorem change_of_next {op : Op} {out : Out} (h : next decode endpoint op = some (out, following)) :
    Change decode endpoint op out following := by
  cases op with
  | allocate =>
      simp only [next, Option.some.injEq, Prod.mk.injEq] at h
      obtain ⟨rfl, rfl⟩ := h
      obtain ⟨hlt, hok, hnext⟩ | ⟨hfull, hfail⟩ := allocate_cases endpoint.allocator
      · rw [hok]
        exact .allocated hlt hnext
      · rw [hfail]
        exact .exhausted hfull
  | start remote queueCapacity =>
      simp only [next] at h
      split at h
      case isFalse => simp at h
      case isTrue hgranted =>
        simp only [perform, Option.map_eq_some_iff, Prod.mk.injEq] at h
        obtain ⟨⟨log, paths⟩, hpaths, rfl, rfl⟩ := h
        cases ConsumerPath.change_of_next hpaths with
        | start hspare hadd => exact .started hgranted hspare hadd
        | turn hop => simp [ConsumerPath.Op.task] at hop
  | path op =>
      simp only [next] at h
      split at h
      case isFalse => simp at h
      case isTrue hop =>
        simp only [perform, Option.map_eq_some_iff, Prod.mk.injEq] at h
        obtain ⟨⟨log, paths⟩, hpaths, rfl, rfl⟩ := h
        obtain ⟨index, hindex⟩ := Option.isSome_iff_exists.mp hop
        exact .path hindex (ConsumerPath.change_of_next hpaths)
  | embedder op =>
      simp only [next] at h
      split at h
      case isFalse => simp at h
      case isTrue hop =>
        simp only [perform, Option.map_eq_some_iff, Prod.mk.injEq] at h
        obtain ⟨⟨log, paths⟩, hpaths, rfl, rfl⟩ := h
        cases ConsumerPath.change_of_next hpaths with
        | embedder hmay hnext => exact .embedder hop hmay hnext
        | turn hop => simp [ConsumerPath.Op.task] at hop

/-- A step that performs a step of the paths, and what it reports. -/
theorem perform_spec {op : ConsumerPath.Op} {out : Out}
    (h : endpoint.perform decode op = some (out, following)) :
    ∃ log, out = .performed op log ∧
      ConsumerPath.next decode endpoint.paths op = some (log, following.paths) := by
  simp only [perform, Option.map_eq_some_iff, Prod.mk.injEq] at h
  obtain ⟨⟨log, paths⟩, hpaths, rfl, rfl⟩ := h
  exact ⟨log, rfl, hpaths⟩

/-- A step either leaves the paths alone or reports the step of the paths it performed. -/
theorem paths_of_next {op : Op} {out : Out} (h : next decode endpoint op = some (out, following)) :
    (∃ result, out = .allocated result ∧ following.paths = endpoint.paths) ∨
      ∃ performed log, out = .performed performed log ∧
        ConsumerPath.next decode endpoint.paths performed = some (log, following.paths) := by
  cases op with
  | allocate =>
      simp only [next, Option.some.injEq, Prod.mk.injEq] at h
      obtain ⟨rfl, rfl⟩ := h
      exact .inl ⟨_, rfl, rfl⟩
  | start remote queueCapacity =>
      simp only [next] at h
      split at h
      case isFalse => simp at h
      case isTrue =>
        obtain ⟨log, hout, hpaths⟩ := perform_spec h
        exact .inr ⟨_, log, hout, hpaths⟩
  | path op =>
      simp only [next] at h
      split at h
      case isFalse => simp at h
      case isTrue => exact .inr ⟨_, perform_spec h⟩
  | embedder op =>
      simp only [next] at h
      split at h
      case isFalse => simp at h
      case isTrue => exact .inr ⟨_, perform_spec h⟩

/-- A run at an endpoint is a run of its paths. -/
theorem Exec.paths {start : Endpoint} {log : Log} (h : Exec decode start log endpoint) :
    ConsumerPath.Exec decode start.paths (pathsLog log) endpoint.paths := by
  induction h with
  | refl => exact .refl
  | snoc _ hnext ih =>
      obtain ⟨result, rfl, hsame⟩ | ⟨performed, log, rfl, hpaths⟩ := paths_of_next hnext
      · rw [hsame]
        exact ih
      · exact ih.snoc hpaths

/-! ## Addresses and routes -/

/-- The addresses of a run, and the routes of the futures that use them. -/
structure Addressing (log : Log) (endpoint : Endpoint) : Prop where
  /-- The counter has advanced once for every address returned. -/
  count : (allocations log).length + 2 = endpoint.allocator.nextHost.toNat
  /-- Every address returned belongs to a host the counter has passed. -/
  hosts : ∀ remote ∈ allocations log, ∃ host : UInt32, remote = pathAddress host ∧
    2 ≤ host.toNat ∧ host.toNat < endpoint.allocator.nextHost.toNat
  distinct : (allocations log).Nodup
  /-- Every address returned is used by one caller. -/
  used : endpoint.used.Perm (allocations log)
  /-- A route leads to a future inside `run_consumer_path`. -/
  routes : ∀ remote path, endpoint.paths.socket.routes.get remote = some path →
    (path, true) ∈ endpoint.paths.holders
  /-- A future inside `run_consumer_path` has its route. -/
  routed : ∀ path, (path, true) ∈ endpoint.paths.holders →
    endpoint.paths.socket.routes.get path.remote = some path
  pathCount : endpoint.paths.socket.pathCount = endpoint.paths.running

/-- Nothing is allocated at a new endpoint. -/
theorem Addressing.new {socket : Socket} (hroutes : socket.routes = ∅) :
    Addressing [] (Endpoint.new socket) := by
  constructor
  case pathCount =>
    show socket.routes.size = 0
    rw [hroutes]
    rfl
  all_goals simp [Endpoint.new, allocations, Endpoint.used, Paths.holders, hroutes,
    SyntheticPathAllocator.new, firstPathHost_toNat]

variable {log : Log}

/-- A step that does not allocate keeps the account of the addresses. -/
theorem Addressing.frame (h : Addressing log endpoint) {op : Op} {out : Out}
    (hout : allocations ((op, out) :: log) = allocations log)
    (hallocator : following.allocator = endpoint.allocator)
    (hused : following.used.Perm endpoint.used)
    (hroutes : ∀ remote path, following.paths.socket.routes.get remote = some path →
      (path, true) ∈ following.paths.holders)
    (hrouted : ∀ path, (path, true) ∈ following.paths.holders →
      following.paths.socket.routes.get path.remote = some path)
    (hpathCount : following.paths.socket.pathCount = following.paths.running) :
    Addressing ((op, out) :: log) following where
  count := by rw [hout, hallocator]; exact h.count
  hosts := by rw [hout, hallocator]; exact h.hosts
  distinct := by rw [hout]; exact h.distinct
  used := by rw [hout]; exact hused.trans h.used
  routes := hroutes
  routed := hrouted
  pathCount := hpathCount

/-- A host that the counter reaches is new. -/
theorem Addressing.allocated (h : Addressing log endpoint)
    (hnext : endpoint.allocator.allocate.2.nextHost.toNat =
      endpoint.allocator.nextHost.toNat + 1) :
    Addressing
      ((.allocate, .allocated (.ok (pathAddress endpoint.allocator.nextHost))) :: log)
      { endpoint with
        allocator := endpoint.allocator.allocate.2
        granted := pathAddress endpoint.allocator.nextHost :: endpoint.granted } := by
  have hlog : allocations
      ((.allocate, .allocated (.ok (pathAddress endpoint.allocator.nextHost))) :: log) =
      pathAddress endpoint.allocator.nextHost :: allocations log := rfl
  constructor
  case count =>
    rw [hlog, List.length_cons, hnext, ← h.count]
  case hosts =>
    intro remote hmem
    simp only [hnext]
    rw [hlog, List.mem_cons] at hmem
    rcases hmem with rfl | hmem
    · have hlow := endpoint.allocator.first_le
      rw [firstPathHost_toNat] at hlow
      exact ⟨endpoint.allocator.nextHost, rfl, hlow, by omega⟩
    · obtain ⟨host, hremote, hlow, hhigh⟩ := h.hosts remote hmem
      exact ⟨host, hremote, hlow, by omega⟩
  case distinct =>
    rw [hlog, List.nodup_cons]
    refine ⟨fun hmem ↦ ?_, h.distinct⟩
    obtain ⟨host, heq, _, hhigh⟩ := h.hosts _ hmem
    rw [pathAddress_injective heq] at hhigh
    omega
  case used =>
    rw [hlog]
    exact h.used.cons _
  case routes => exact h.routes
  case routed => exact h.routed
  case pathCount => exact h.pathCount

/-- A route of an address belongs to a future that was started there. -/
theorem Addressing.remote_mem_used (h : Addressing log endpoint) (hhandles : Handles
    endpoint.paths.socket) {remote : SocketAddr} {path : PathId}
    (hroute : endpoint.paths.socket.routes.get remote = some path) :
    remote ∈ endpoint.paths.holders.map (·.1.remote) := by
  refine List.mem_map.mpr ⟨(path, true), h.routes remote path hroute, ?_⟩
  exact (hhandles.routes remote path hroute).1

/-- An address that was allocated and not yet used is not the address of a future. -/
theorem Addressing.remote_ne_of_granted (h : Addressing log endpoint) {remote : SocketAddr}
    (hgranted : remote ∈ endpoint.granted) :
    remote ∉ endpoint.paths.holders.map (·.1.remote) := by
  have hnodup : endpoint.used.Nodup := h.used.nodup_iff.mpr h.distinct
  have hdisjoint := (List.nodup_append.mp hnodup).2.2
  exact fun hmem ↦ absurd rfl (hdisjoint remote hgranted remote hmem)

/-- Different futures have different addresses. -/
theorem Addressing.index_eq_of_remote (h : Addressing log endpoint) {first second : Nat}
    {task other : PathTask} (hfirst : endpoint.paths.tasks[first]? = some task)
    (hsecond : endpoint.paths.tasks[second]? = some other)
    (hremote : task.path.remote = other.path.remote) : first = second := by
  have hnodup : endpoint.used.Nodup := h.used.nodup_iff.mpr h.distinct
  have hremotes := (List.nodup_append.mp hnodup).2.1
  simp only [Paths.holders, List.map_map] at hremotes
  obtain ⟨hlt, _⟩ := List.getElem?_eq_some_iff.mp hfirst
  refine (List.getElem?_inj (by simpa using hlt) hremotes).mp ?_
  simp only [List.getElem?_map, hfirst, hsecond, Option.map_some]
  exact congrArg some hremote

/-- An address that was allocated and not yet used has no route. -/
theorem Addressing.no_route_of_granted (h : Addressing log endpoint)
    (hhandles : Handles endpoint.paths.socket) {remote : SocketAddr}
    (hgranted : remote ∈ endpoint.granted) :
    endpoint.paths.socket.routes.get remote = none := by
  cases hroute : endpoint.paths.socket.routes.get remote with
  | none => rfl
  | some path =>
      exact absurd (h.remote_mem_used hhandles hroute) (h.remote_ne_of_granted hgranted)

/-- A path started at an allocated address gets a route of its own. -/
theorem Addressing.started (h : Addressing log endpoint) (hhandles : Handles endpoint.paths.socket)
    {remote : SocketAddr} {queueCapacity : Nat} {socket : Socket} {performed : VirtualUdp.Log}
    (hgranted : remote ∈ endpoint.granted)
    (hadd : endpoint.paths.socket.addPath (endpoint.newPath remote) queueCapacity = some socket) :
    Addressing ((.start remote queueCapacity,
        .performed (.start (endpoint.newPath remote) queueCapacity) performed) :: log)
      { endpoint with
        paths := ⟨socket, endpoint.paths.tasks ++ [⟨endpoint.newPath remote, .selecting none⟩]⟩
        granted := endpoint.granted.erase remote } := by
  have spec := Socket.addPath_spec hadd
  have hnone := h.no_route_of_granted hhandles hgranted
  have hholders : (Paths.mk socket
      (endpoint.paths.tasks ++ [⟨endpoint.newPath remote, .selecting none⟩])).holders =
      endpoint.paths.holders ++ [(endpoint.newPath remote, true)] := by
    simp [Paths.holders, PathTask.holder, PathTask.running]
  have hget : ∀ other, socket.routes.get other =
      if other = remote then some (endpoint.newPath remote)
      else endpoint.paths.socket.routes.get other := by
    intro other
    rw [spec.routes, Table.get_insert]
    rfl
  refine h.frame rfl rfl ?_ ?_ ?_ ?_
  · show (endpoint.granted.erase remote ++ List.map _ (Paths.holders _)).Perm
      (endpoint.granted ++ endpoint.paths.holders.map _)
    rw [hholders, List.map_append, ← List.append_assoc]
    refine (List.perm_append_comm.trans ?_)
    show (remote :: (endpoint.granted.erase remote ++ endpoint.paths.holders.map _)).Perm _
    exact ((List.perm_cons_erase hgranted).symm.append_right _)
  · intro other path hroute
    rw [hholders]
    change socket.routes.get other = some path at hroute
    rw [hget] at hroute
    split at hroute
    case isTrue =>
      rw [← Option.some.inj hroute]
      simp
    case isFalse => exact List.mem_append_left _ (h.routes other path hroute)
  · intro path hmem
    rw [hholders, List.mem_append, List.mem_singleton, Prod.mk.injEq] at hmem
    show socket.routes.get path.remote = some path
    rw [hget]
    rcases hmem with hold | ⟨rfl, _⟩
    · have hroute := h.routed path hold
      rw [if_neg, hroute]
      rintro rfl
      rw [hnone] at hroute
      simp at hroute
    · exact if_pos rfl
  · have hsize : socket.routes.size = endpoint.paths.socket.routes.size + 1 := by
      rw [spec.routes]
      exact Table.size_insert _ hnone
    show socket.routes.size = Paths.running _
    rw [hsize, Paths.running_eq_countP_holders, hholders, List.countP_append,
      ← Paths.running_eq_countP_holders]
    exact congrArg (· + 1) h.pathCount

/-- A socket that is destroyed has no future on it, and loses no route of one. -/
theorem Addressing.destroyed (h : Addressing log endpoint) {op : Op} {out : Out}
    (hout : allocations ((op, out) :: log) = allocations log)
    (hallocator : following.allocator = endpoint.allocator)
    (hused : following.used.Perm endpoint.used)
    (hroutes : following.paths.socket.routes = ∅) (hrunning : following.paths.running = 0) :
    Addressing ((op, out) :: log) following := by
  refine h.frame hout hallocator hused ?_ ?_ ?_
  · intro remote path hroute
    rw [hroutes] at hroute
    simp at hroute
  · intro path hmem
    rw [Paths.running_eq_countP_holders, List.countP_eq_zero] at hrunning
    exact absurd rfl (hrunning _ hmem)
  · rw [hrunning]
    show following.paths.socket.routes.size = 0
    rw [hroutes]
    rfl

/-- An operation of the embedder keeps the routes. -/
theorem Addressing.embedder (h : Addressing log endpoint) {op : VirtualUdp.Op}
    {out : VirtualUdp.Out} {socket : Socket} (hop : embedderOp op = true)
    (hmay : endpoint.paths.embedderMay op = true)
    (hnext : VirtualUdp.next endpoint.paths.socket op = some (out, socket)) :
    Addressing ((.embedder op, .performed (.embedder op) [(op, out)]) :: log)
      { endpoint with paths := { endpoint.paths with socket := socket } } := by
  have hroutes := VirtualUdp.routes_of_next hnext
    (by rintro _ _ rfl; simp [embedderOp] at hop) (by rintro _ rfl; simp [embedderOp] at hop)
  obtain hsame | ⟨rfl, hlast, hempty⟩ := hroutes
  · refine h.frame rfl rfl (.refl _) ?_ ?_ ?_
    · intro remote path hroute
      change socket.routes.get remote = some path at hroute
      rw [hsame] at hroute
      exact h.routes remote path hroute
    · intro path hmem
      show socket.routes.get path.remote = some path
      rw [hsame]
      exact h.routed path hmem
    · show socket.routes.size = _
      rw [hsame]
      exact h.pathCount
  · refine h.destroyed rfl rfl (.refl _) hempty ?_
    simp only [Paths.embedderMay, Paths.spare, decide_eq_true_eq] at hmay
    show endpoint.paths.running = 0
    omega

/-- A future that leaves takes its own route with it. -/
theorem Addressing.leave (h : Addressing log endpoint) (hhandles : Handles endpoint.paths.socket)
    (hlifetime : Lifetime endpoint.paths) {index : Nat} {path : PathId}
    {result : Option PathResult} {dropped socket : Socket} {performed : VirtualUdp.Log}
    (htask : endpoint.paths.tasks[index]? = some ⟨path, .leaving result⟩)
    (hdrop : endpoint.paths.socket.dropPath path = some dropped)
    (harc : dropped.dropArc = some socket) :
    Addressing ((.path (.leave index), .performed (.leave index) performed) :: log)
      { endpoint with
        paths := { endpoint.paths with socket := socket }.move index path (.left result) } := by
  have spec := Socket.dropPath_spec hdrop
  have hheld : (path, true) ∈ endpoint.paths.holders :=
    List.mem_map.mpr ⟨_, List.mem_of_getElem? htask, rfl⟩
  have hroute := h.routed path hheld
  have halive : 0 < endpoint.paths.socket.arcs :=
    Nat.lt_of_lt_of_le (countP_slot_pos htask rfl) hlifetime.arcs
  have hcount : ({ endpoint.paths with socket := socket }.move index path
      (.left result)).running + 1 = endpoint.paths.running :=
    countP_set_slot htask ⟨path, .left result⟩ PathTask.running
  have hdropped : dropped.routes = endpoint.paths.socket.routes.erase path.remote := by
    rw [spec.routes, if_pos ⟨halive, hroute⟩]
  have hused : ({ endpoint with
      paths := { endpoint.paths with socket := socket }.move index path (.left result) } :
      Endpoint).used.Perm endpoint.used := by
    have hremotes : (endpoint.paths.tasks.set index ⟨path, .left result⟩).map
        ((·.1.remote) ∘ PathTask.holder) =
        endpoint.paths.tasks.map ((·.1.remote) ∘ PathTask.holder) :=
      map_set_slot htask rfl
    simp only [Endpoint.used, Paths.holders, Paths.move, List.map_map, hremotes]
    exact .refl _
  obtain ⟨_, rfl⟩ | ⟨hlast, _, rfl⟩ := Socket.dropArc_spec harc
  · refine h.frame rfl rfl hused ?_ ?_ ?_
    · intro remote other hother
      change dropped.routes.get remote = some other at hother
      rw [hdropped, Table.get_erase] at hother
      split at hother
      case isTrue => simp at hother
      case isFalse hremote =>
        -- the route is of another address, so its future is in another slot
        obtain ⟨task, hmem, hholder⟩ := List.mem_map.mp (h.routes remote other hother)
        obtain ⟨slot, hslot⟩ := List.getElem?_of_mem hmem
        have hne : index ≠ slot := by
          rintro rfl
          rw [htask, Option.some.injEq] at hslot
          subst hslot
          simp only [PathTask.holder, Prod.mk.injEq] at hholder
          rw [← hholder.1] at hother
          exact hremote (hhandles.routes remote path hother).1.symm
        refine List.mem_map.mpr ⟨task, List.mem_of_getElem? (i := slot) ?_, hholder⟩
        show (endpoint.paths.tasks.set index _)[slot]? = some task
        rw [getElem?_set_slot htask, if_neg hne]
        exact hslot
    · intro other hmem
      obtain ⟨task, htaskMem, hholder⟩ := List.mem_map.mp hmem
      obtain ⟨slot, hslot⟩ := List.getElem?_of_mem htaskMem
      simp only [PathTask.holder, Prod.mk.injEq] at hholder
      obtain ⟨rfl, hrunning⟩ := hholder
      obtain ⟨_, rfl⟩ | ⟨hne, hold⟩ := getElem?_set_cases hslot
      · simp [PathTask.running] at hrunning
      · have hother : (task.path, true) ∈ endpoint.paths.holders :=
          List.mem_map.mpr ⟨task, List.mem_of_getElem? hold, by simp [PathTask.holder, hrunning]⟩
        have hotherRoute := h.routed task.path hother
        show dropped.routes.get task.path.remote = some task.path
        rw [hdropped, Table.get_erase, if_neg, hotherRoute]
        intro hremote
        rw [hremote, hroute, Option.some.injEq] at hotherRoute
        exact hne (hlifetime.distinct index slot _ task htask hold rfl hrunning hotherRoute)
    · have hsize := Table.size_erase hroute
      have hold : endpoint.paths.socket.routes.size = endpoint.paths.running := h.pathCount
      show dropped.routes.size = _
      rw [hdropped]
      exact Nat.succ.inj (hsize.trans (hold.trans hcount.symm))
  · refine h.destroyed rfl rfl hused rfl ?_
    have hone := hlifetime.arcs
    rw [spec.arcs] at hlast
    have hrunning : endpoint.paths.running = 0 + 1 := by omega
    exact Nat.succ.inj (hcount.trans hrunning)

/-- Every step keeps the account of the addresses. -/
theorem Addressing.step (h : Addressing log endpoint) (hhandles : Handles endpoint.paths.socket)
    (hlifetime : Lifetime endpoint.paths) {op : Op} {out : Out}
    (hchange : Change decode endpoint op out following) :
    Addressing ((op, out) :: log) following := by
  cases hchange with
  | allocated _ hnext => exact h.allocated hnext
  | exhausted => exact h.frame rfl rfl (.refl _) h.routes h.routed h.pathCount
  | started hgranted _ hadd => exact h.started hhandles hgranted hadd
  | embedder hop hmay hnext => exact h.embedder hop hmay hnext
  | @path op index performed paths hop hpaths =>
      by_cases hleave : op = .leave index
      · subst hleave
        cases hpaths with
        | leave htask hdrop harc => exact h.leave hhandles hlifetime htask hdrop harc
        | turn hturn hstays =>
            simp only [ConsumerPath.Op.task, Option.some.injEq] at hturn
            exact absurd (congrArg ConsumerPath.Op.leave hturn) hstays
      · obtain ⟨hholders, hroutes⟩ := hpaths.holders hhandles hlifetime hop hleave
        refine h.frame rfl rfl ?_ ?_ ?_ ?_
        · show (endpoint.granted ++ paths.holders.map _).Perm endpoint.used
          rw [hholders]
          exact .refl _
        · show ∀ remote path, paths.socket.routes.get remote = some path →
            (path, true) ∈ paths.holders
          rw [hholders, hroutes]
          exact h.routes
        · show ∀ path, (path, true) ∈ paths.holders →
            paths.socket.routes.get path.remote = some path
          rw [hholders, hroutes]
          exact h.routed
        · rw [Paths.running_eq_countP_holders, hholders, ← Paths.running_eq_countP_holders]
          show paths.socket.routes.size = _
          rw [hroutes]
          exact h.pathCount

/-- The futures that a step starts. -/
def Op.starts : Op → Nat
  | .start _ _ => 1
  | _ => 0

/-- The futures that leave in a step. -/
def Op.leaves : Op → Nat
  | .path (.leave _) => 1
  | _ => 0

/-- A step changes the number of futures inside `run_consumer_path` by the one that starts or
leaves. -/
theorem Change.running {op : Op} {out : Out} (h : Change decode endpoint op out following)
    (hhandles : Handles endpoint.paths.socket) (hlifetime : Lifetime endpoint.paths) :
    following.paths.running + op.leaves = endpoint.paths.running + op.starts := by
  cases h with
  | allocated => rfl
  | exhausted => rfl
  | started => simp [Op.leaves, Op.starts, Paths.running, PathTask.running]
  | embedder => rfl
  | @path op index performed paths hop hpaths =>
      by_cases hleave : op = .leave index
      · subst hleave
        cases hpaths with
        | leave htask _ _ => exact countP_set_slot htask _ PathTask.running
        | turn hturn hstays =>
            simp only [ConsumerPath.Op.task, Option.some.injEq] at hturn
            exact absurd (congrArg ConsumerPath.Op.leave hturn) hstays
      · have hholders := (hpaths.holders hhandles hlifetime hop hleave).1
        have hleaves : Op.leaves (.path op) = 0 := by
          cases op with
          | leave other =>
              simp only [ConsumerPath.Op.task, Option.some.injEq] at hop
              exact absurd (congrArg ConsumerPath.Op.leave hop) hleave
          | _ => rfl
        rw [hleaves]
        show paths.running = endpoint.paths.running
        rw [Paths.running_eq_countP_holders, hholders, ← Paths.running_eq_countP_holders]

/-! ## The routes after a step -/

/-- An operation of the embedder changes no route: a socket that it destroys has none. -/
theorem Addressing.routes_of_embedder (h : Addressing log endpoint) {op : VirtualUdp.Op}
    {out : VirtualUdp.Out} {socket : Socket} (hop : embedderOp op = true)
    (hmay : endpoint.paths.embedderMay op = true)
    (hnext : VirtualUdp.next endpoint.paths.socket op = some (out, socket)) (remote : SocketAddr) :
    socket.routes.get remote = endpoint.paths.socket.routes.get remote := by
  have hroutes := VirtualUdp.routes_of_next hnext
    (by rintro _ _ rfl; simp [embedderOp] at hop) (by rintro _ rfl; simp [embedderOp] at hop)
  obtain hsame | ⟨rfl, hlast, hempty⟩ := hroutes
  · rw [hsame]
  · simp only [Paths.embedderMay, Paths.spare, decide_eq_true_eq] at hmay
    have hrunning : endpoint.paths.running = 0 := by omega
    have hcount := h.pathCount
    rw [hrunning] at hcount
    rw [hempty, Table.size_eq_zero_iff.mp hcount remote]
    rfl

/-- A step that starts no future and lets none leave keeps what the futures hold and every route. -/
theorem Change.routes_of_quiet {op : Op} {out : Out} (h : Change decode endpoint op out following)
    (haddressing : Addressing log endpoint) (hhandles : Handles endpoint.paths.socket)
    (hlifetime : Lifetime endpoint.paths) (hstarts : op.starts = 0) (hleaves : op.leaves = 0) :
    following.paths.holders = endpoint.paths.holders ∧
      ∀ remote, following.paths.socket.routes.get remote =
        endpoint.paths.socket.routes.get remote := by
  cases h with
  | allocated => exact ⟨rfl, fun _ ↦ rfl⟩
  | exhausted => exact ⟨rfl, fun _ ↦ rfl⟩
  | started => simp [Op.starts] at hstarts
  | embedder hop hmay hnext => exact ⟨rfl, haddressing.routes_of_embedder hop hmay hnext⟩
  | @path op index _ paths hop hpaths =>
      have hleave : op ≠ .leave index := by
        rintro rfl
        simp [Op.leaves] at hleaves
      obtain ⟨hholders, hroutes⟩ := hpaths.holders hhandles hlifetime hop hleave
      refine ⟨hholders, fun remote ↦ ?_⟩
      show paths.socket.routes.get remote = _
      rw [hroutes]

/-- A future that starts takes an address that had no route. -/
theorem Change.routes_of_start {remote : SocketAddr} {queueCapacity : Nat} {out : Out}
    (h : Change decode endpoint (.start remote queueCapacity) out following)
    (haddressing : Addressing log endpoint) (hhandles : Handles endpoint.paths.socket) :
    endpoint.paths.socket.routes.get remote = none ∧
      following.paths.holders = endpoint.paths.holders ++ [(endpoint.newPath remote, true)] ∧
      ∀ other, following.paths.socket.routes.get other =
        if other = remote then some (endpoint.newPath remote)
        else endpoint.paths.socket.routes.get other := by
  cases h with
  | @started _ _ socket hgranted _ hadd =>
      refine ⟨haddressing.no_route_of_granted hhandles hgranted, ?_, fun other ↦ ?_⟩
      · simp [Paths.holders, PathTask.holder, PathTask.running]
      · show socket.routes.get other = _
        rw [(Socket.addPath_spec hadd).routes, Table.get_insert]
        rfl

/-- A future that leaves takes its own route away and no other. -/
theorem Change.routes_of_leave {index : Nat} {out : Out}
    (h : Change decode endpoint (.path (.leave index)) out following)
    (haddressing : Addressing log endpoint) (hlifetime : Lifetime endpoint.paths) :
    ∃ path, endpoint.paths.holders[index]? = some (path, true) ∧
      ∀ other, following.paths.socket.routes.get other =
        if other = path.remote then none else endpoint.paths.socket.routes.get other := by
  cases h with
  | path hop hpaths =>
      cases hpaths with
      | turn hturn hstays =>
          simp only [ConsumerPath.Op.task, Option.some.injEq] at hturn
          exact absurd (congrArg ConsumerPath.Op.leave hturn) hstays
      | @leave _ path _ dropped socket htask hdrop harc =>
          have hheld : endpoint.paths.holders[index]? = some (path, true) := by
            rw [Paths.holders, List.getElem?_map, htask]
            rfl
          have hroute := haddressing.routed path (List.mem_of_getElem? hheld)
          have hpositive : 0 < endpoint.paths.running := countP_slot_pos htask rfl
          have halive := Nat.lt_of_lt_of_le hpositive hlifetime.arcs
          have spec := Socket.dropPath_spec hdrop
          have hdropped : dropped.routes = endpoint.paths.socket.routes.erase path.remote := by
            rw [spec.routes, if_pos ⟨halive, hroute⟩]
          refine ⟨path, hheld, fun other ↦ ?_⟩
          show socket.routes.get other = _
          rw [← Table.get_erase]
          obtain ⟨_, rfl⟩ | ⟨hlast, _, rfl⟩ := Socket.dropArc_spec harc
          · exact congrArg (Table.get · other) hdropped
          · -- the last `Arc` went with the last future, whose route was the only one
            have hsize := Table.size_erase hroute
            have hcount : endpoint.paths.socket.routes.size = endpoint.paths.running :=
              haddressing.pathCount
            have hone := hlifetime.arcs
            rw [spec.arcs] at hlast
            have hempty : (endpoint.paths.socket.routes.erase path.remote).size = 0 := by omega
            rw [Table.size_eq_zero_iff.mp hempty other]
            rfl

/-- The step is a call of `allocate`. -/
def Op.isAllocate : Op → Bool
  | .allocate => true
  | _ => false

/-- A run of steps allocates at most one address for every call of `allocate`. -/
theorem allocations_of_run {ops : List Op} {before after : Log}
    (hrun : Execution.run (next decode) ops (before, endpoint) = some (after, following)) :
    (allocations after).length ≤ (allocations before).length + ops.countP Op.isAllocate := by
  induction ops generalizing before endpoint with
  | nil =>
      simp only [Execution.run, Option.some.injEq, Prod.mk.injEq] at hrun
      obtain ⟨rfl, _⟩ := hrun
      exact Nat.le_refl _
  | cons op ops ih =>
      simp only [Execution.run, Option.bind_eq_some_iff] at hrun
      obtain ⟨⟨out, middle⟩, hnext, hrest⟩ := hrun
      refine (ih hrest).trans ?_
      rw [List.countP_cons]
      cases change_of_next hnext with
      | allocated =>
          simp only [allocations, Op.isAllocate, List.filterMap_cons, List.length_cons, if_true]
          omega
      | exhausted =>
          simp only [allocations, List.filterMap_cons]
          omega
      | started => exact Nat.le_refl _
      | path => exact Nat.le_refl _
      | embedder => exact Nat.le_refl _

/-- The operations on the socket in a run, newest first. -/
def socketLog (log : Log) : VirtualUdp.Log :=
  ConsumerPath.socketLog (pathsLog log)

/-- The operations of two runs, one after the other. -/
theorem socketLog_append (later earlier : Log) :
    socketLog (later ++ earlier) = socketLog later ++ socketLog earlier := by
  simp only [socketLog, pathsLog, ConsumerPath.socketLog, List.filterMap_append,
    List.flatMap_append]

/-- A step that starts no future adds no path. -/
theorem Change.addPath_notMem {op : Op} {out : Out} (h : Change decode endpoint op out following)
    (hop : op.starts = 0) {path : PathId} {queueCapacity : Nat} {result : VirtualUdp.Out} :
    (.addPath path queueCapacity, result) ∉ socketLog [(op, out)] := by
  cases h with
  | allocated => simp [socketLog, pathsLog, ConsumerPath.socketLog]
  | exhausted => simp [socketLog, pathsLog, ConsumerPath.socketLog]
  | started => simp [Op.starts] at hop
  | embedder hembedder _ _ =>
      simp only [socketLog, pathsLog, ConsumerPath.socketLog]
      rintro hmem
      simp only [List.filterMap_cons, List.filterMap_nil, List.flatMap_cons, List.flatMap_nil,
        List.append_nil, List.mem_singleton, Prod.mk.injEq] at hmem
      rw [← hmem.1] at hembedder
      simp [embedderOp] at hembedder
  | path htask hpaths =>
      cases hpaths with
      | embedder => simp [ConsumerPath.Op.task] at htask
      | start => simp [ConsumerPath.Op.task] at htask
      | turn => simp [socketLog, pathsLog, ConsumerPath.socketLog]
      | received => simp [socketLog, pathsLog, ConsumerPath.socketLog]
      | outgoing => simp [socketLog, pathsLog, ConsumerPath.socketLog]
      | leave => simp [socketLog, pathsLog, ConsumerPath.socketLog]

/-- A run of steps that start no future adds no path. -/
theorem addPath_notMem_of_run {ops : List Op} (hops : ∀ op ∈ ops, op.starts = 0)
    {before after : Log} {path : PathId} {queueCapacity : Nat} {result : VirtualUdp.Out}
    (hbefore : (.addPath path queueCapacity, result) ∉ socketLog before)
    (hrun : Execution.run (next decode) ops (before, endpoint) = some (after, following)) :
    (.addPath path queueCapacity, result) ∉ socketLog after := by
  induction ops generalizing before endpoint with
  | nil =>
      simp only [Execution.run, Option.some.injEq, Prod.mk.injEq] at hrun
      obtain ⟨rfl, _⟩ := hrun
      exact hbefore
  | cons op ops ih =>
      simp only [Execution.run, Option.bind_eq_some_iff] at hrun
      obtain ⟨⟨out, middle⟩, hnext, hrest⟩ := hrun
      refine ih (fun other hother ↦ hops other (List.mem_cons_of_mem _ hother)) ?_ hrest
      have hfirst : (.addPath path queueCapacity, result) ∉ socketLog [(op, out)] :=
        (change_of_next hnext).addPath_notMem (hops op List.mem_cons_self)
      rw [← List.singleton_append, socketLog_append, List.mem_append, not_or]
      exact ⟨hfirst, hbefore⟩

section Runs

variable {localAddr : SocketAddr} {mtu queueCapacity : Nat} {socket : Socket}
  (hstart : Socket.withOptions localAddr mtu queueCapacity = some socket)
  (h : Exec decode (Endpoint.new socket) log endpoint)

include hstart h

/-- The handles of the socket are accounted for in every run at a new endpoint. -/
theorem Exec.handles : Handles endpoint.paths.socket :=
  VirtualUdp.Exec.handles hstart (ConsumerPath.Exec.socket (Exec.paths h))

/-- The futures hold their `Arc`s and paths in every run at a new endpoint. -/
theorem Exec.lifetime : Lifetime endpoint.paths :=
  ConsumerPath.Exec.lifetime hstart (Exec.paths h)

/-- The addresses and routes are accounted for in every run at a new endpoint. -/
theorem Exec.addressing : Addressing log endpoint := by
  induction h with
  | refl => exact Addressing.new (Socket.withOptions_routes hstart)
  | snoc hexec hnext ih =>
      exact ih.step (Exec.handles hstart hexec) (Exec.lifetime hstart hexec)
        (change_of_next hnext)

/-- A run of steps from a reachable state changes the number of futures inside `run_consumer_path`
by those that start and those that leave. -/
theorem Exec.running_of_run {ops : List Op} {before after : Log} {final : Endpoint}
    (hrun : Execution.run (next decode) ops (before, endpoint) = some (after, final)) :
    final.paths.running + (ops.map Op.leaves).sum =
      endpoint.paths.running + (ops.map Op.starts).sum := by
  induction ops generalizing log before endpoint with
  | nil =>
      simp only [Execution.run, Option.some.injEq, Prod.mk.injEq] at hrun
      obtain ⟨_, rfl⟩ := hrun
      rfl
  | cons op ops ih =>
      simp only [Execution.run, Option.bind_eq_some_iff] at hrun
      obtain ⟨⟨out, middle⟩, hnext, hrest⟩ := hrun
      have hfirst := (change_of_next hnext).running (Exec.handles hstart h)
        (Exec.lifetime hstart h)
      have hothers := ih (h.snoc hnext) hrest
      simp only [List.map_cons, List.sum_cons]
      omega

/-- A run of steps from a reachable state in which no future starts or leaves keeps what the futures
hold and every route. -/
theorem Exec.routes_of_run {ops : List Op} {before after : Log} {final : Endpoint}
    (hrun : Execution.run (next decode) ops (before, endpoint) = some (after, final))
    (hstarts : ∀ op ∈ ops, Op.starts op = 0) (hleaves : ∀ op ∈ ops, Op.leaves op = 0) :
    final.paths.holders = endpoint.paths.holders ∧
      ∀ remote, final.paths.socket.routes.get remote =
        endpoint.paths.socket.routes.get remote := by
  induction ops generalizing log before endpoint with
  | nil =>
      simp only [Execution.run, Option.some.injEq, Prod.mk.injEq] at hrun
      obtain ⟨_, rfl⟩ := hrun
      exact ⟨rfl, fun _ ↦ rfl⟩
  | cons op ops ih =>
      simp only [Execution.run, Option.bind_eq_some_iff] at hrun
      obtain ⟨⟨out, middle⟩, hnext, hrest⟩ := hrun
      have hfirst := (change_of_next hnext).routes_of_quiet (Exec.addressing hstart h)
        (Exec.handles hstart h) (Exec.lifetime hstart h) (hstarts op List.mem_cons_self)
        (hleaves op List.mem_cons_self)
      have hothers := ih (h.snoc hnext) hrest
        (fun other hother ↦ hstarts other (List.mem_cons_of_mem _ hother))
        (fun other hother ↦ hleaves other (List.mem_cons_of_mem _ hother))
      exact ⟨hothers.1.trans hfirst.1, fun remote ↦ (hothers.2 remote).trans (hfirst.2 remote)⟩

end Runs

end Endpoint

end Unbounded.ConsumerPath
