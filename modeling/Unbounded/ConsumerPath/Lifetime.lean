import Unbounded.ConsumerPath.Paths
import Unbounded.Execution.Slots

/-!
# The socket outlives its peers

While an `Arc` of the socket exists, no order of adding, replacing and dropping paths surfaces as an
error of the socket: the socket keeps the receiver of the incoming channel, and every path keeps a
sender of its own outgoing channel. A `run_consumer_path` future holds an `Arc` and its path until
it leaves (`Lifetime`), so it never sees the socket closed, and `socket_outlives_paths` puts the two
levels together.
-/

namespace Unbounded.ConsumerPath

open Execution (Table getElem?_set_cases getElem?_append_cases countP_set_slot countP_slot_pos
  map_set_slot)
open Tokio (Poll)
open VirtualUdp (Socket PathId Handles)

variable {decode : Bytes → Except String UnboundedPacket} {paths following : Paths}

/-- Every future that has not left holds an `Arc` and a live path of its own. -/
structure Lifetime (paths : Paths) : Prop where
  owned : ∀ (index : Nat) (task : PathTask), paths.tasks[index]? = some task → task.running = true →
    paths.socket.live task.path = true
  distinct : ∀ (index other : Nat) (task otherTask : PathTask),
    paths.tasks[index]? = some task → paths.tasks[other]? = some otherTask →
    task.running = true → otherTask.running = true →
    task.path = otherTask.path → index = other
  arcs : paths.running ≤ paths.socket.arcs
  /-- The calls of `try_send` in progress are covered by an `Arc` of the embedder. -/
  calls : paths.running = paths.socket.arcs → ∀ call, paths.socket.calls.get call = none
  /-- No future found the socket closed. -/
  ends : ∀ (index : Nat) (task : PathTask), paths.tasks[index]? = some task →
    task.result ≠ some (.ok .socketClosed)

/-- No future runs on a new socket. -/
theorem Lifetime.start {socket : Socket} (hcalls : ∀ call, socket.calls.get call = none) :
    Lifetime ⟨socket, []⟩ := by
  constructor
  case calls => exact fun _ ↦ hcalls
  all_goals simp [Paths.running]

/-- A future moves on and keeps what it holds, on a socket that keeps its paths and `Arc`s. -/
theorem Lifetime.turn (h : Lifetime paths) {index : Nat} {task : PathTask} {control : Control}
    {socket : Socket} (htask : paths.tasks[index]? = some task) (hrunning : task.running = true)
    (hstays : (PathTask.mk task.path control).running = true)
    (hends : (PathTask.mk task.path control).result ≠ some (.ok .socketClosed))
    (hlive : ∀ path, paths.socket.live path = true → socket.live path = true)
    (harcs : socket.arcs = paths.socket.arcs) (hcalls : socket.calls = paths.socket.calls) :
    Lifetime ({ paths with socket := socket }.move index task.path control) := by
  have hcount : ({ paths with socket := socket }.move index task.path control).running =
      paths.running := by
    have hset := countP_set_slot htask ⟨task.path, control⟩ PathTask.running
    rw [hrunning, hstays] at hset
    exact Nat.add_right_cancel hset
  -- every slot holds a future with the path it had, running only if it ran
  have hslots : ∀ {other : Nat} {found : PathTask},
      (paths.tasks.set index ⟨task.path, control⟩)[other]? = some found →
      found.running = true →
      ∃ old, paths.tasks[other]? = some old ∧ old.running = true ∧ old.path = found.path := by
    intro other found hfound hrun
    obtain ⟨rfl, rfl⟩ | ⟨_, hold⟩ := getElem?_set_cases hfound
    · exact ⟨task, htask, hrunning, rfl⟩
    · exact ⟨found, hold, hrun, rfl⟩
  constructor
  case owned =>
    intro other found hfound hrun
    obtain ⟨old, hold, holdRun, hpath⟩ := hslots hfound hrun
    exact hlive _ (hpath ▸ h.owned other old hold holdRun)
  case distinct =>
    intro first second found otherFound hfound hother hrun hotherRun hpath
    obtain ⟨old, hold, holdRun, holdPath⟩ := hslots hfound hrun
    obtain ⟨otherOld, hotherOld, hotherOldRun, hotherPath⟩ := hslots hother hotherRun
    exact h.distinct first second old otherOld hold hotherOld holdRun hotherOldRun
      (holdPath.trans (hpath.trans hotherPath.symm))
  case arcs =>
    rw [hcount]
    exact h.arcs.trans_eq harcs.symm
  case calls =>
    intro hall call
    rw [hcount] at hall
    show socket.calls.get call = none
    rw [hcalls]
    exact h.calls (hall.trans harcs) call
  case ends =>
    intro other found hfound
    obtain ⟨rfl, rfl⟩ | ⟨_, hold⟩ := getElem?_set_cases hfound
    · exact hends
    · exact h.ends other found hold

/-- An embedder's operation on the socket keeps what the futures hold. -/
theorem Lifetime.embedder (h : Lifetime paths) {op : VirtualUdp.Op} {out : VirtualUdp.Out}
    {socket : Socket} (hmay : paths.embedderMay op = true)
    (hnext : VirtualUdp.next paths.socket op = some (out, socket)) :
    Lifetime { paths with socket := socket } := by
  have harcs := VirtualUdp.arcs_of_next hnext
  have hold := h.arcs
  constructor
  case owned =>
    intro index task htask hrunning
    refine VirtualUdp.live_of_next hnext ?_ (h.owned index task htask hrunning)
    rintro rfl
    have howned : paths.owned task.path = true :=
      List.any_eq_true.mpr ⟨task, List.mem_of_getElem? htask, by simp [hrunning]⟩
    simp [Paths.embedderMay, howned] at hmay
  case distinct => exact h.distinct
  case arcs =>
    show paths.running ≤ socket.arcs
    rw [harcs]
    cases op with
    | dropArc =>
        simp only [Paths.embedderMay, Paths.spare, decide_eq_true_eq] at hmay
        show paths.running ≤ paths.socket.arcs - 1
        omega
    | cloneArc => exact Nat.le_succ_of_le hold
    | _ => exact hold
  case calls =>
    intro hall call
    change paths.running = socket.arcs at hall
    rw [harcs] at hall
    -- the embedder had no `Arc` to spare, so it could not start a call
    have hnone : paths.socket.calls.get call = none := by
      cases op with
      | dropArc =>
          simp only [Paths.embedderMay, Paths.spare, decide_eq_true_eq] at hmay
          have hsize : paths.socket.calls.size = 0 := by
            by_contra hne
            rw [if_neg hne] at hmay
            simp only [VirtualUdp.Op.arcsAfter] at hall
            omega
          exact Table.size_eq_zero_iff.mp hsize call
      | cloneArc => exact absurd hall (by show _ ≠ paths.socket.arcs + 1; omega)
      | _ => exact h.calls hall call
    refine VirtualUdp.calls_of_next hnext ?_ hnone
    rintro contents rfl
    simp only [Paths.embedderMay, decide_eq_true_eq] at hmay
    exact absurd hall (Nat.ne_of_lt hmay)
  case ends => exact h.ends

/-- A future starts on a path of its own. -/
theorem Lifetime.started (h : Lifetime paths) {path : PathId} {queueCapacity : Nat}
    {socket : Socket} (hspare : paths.spare = true)
    (hadd : paths.socket.addPath path queueCapacity = some socket) :
    Lifetime ⟨socket, paths.tasks ++ [⟨path, .selecting none⟩]⟩ := by
  have spec := Socket.addPath_spec hadd
  have hnext := (VirtualUdp.Effect.addPath hadd).next
  simp only [Paths.spare, decide_eq_true_eq] at hspare
  have hfresh : ∀ (index : Nat) (task : PathTask), paths.tasks[index]? = some task →
      task.running = true → task.path ≠ path := by
    rintro index task htask hrunning rfl
    obtain ⟨channel, hchannel, _⟩ := Socket.live_iff.mp (h.owned index task htask hrunning)
    have hnone : paths.socket.outgoing.get task.path = none := spec.fresh
    rw [hchannel] at hnone
    simp at hnone
  have hcount : (Paths.mk socket (paths.tasks ++ [⟨path, .selecting none⟩])).running =
      paths.running + 1 := by
    simp [Paths.running, PathTask.running]
  constructor
  case owned =>
    intro index task htask hrunning
    obtain ⟨rfl, rfl⟩ | ⟨_, hold⟩ := getElem?_append_cases htask
    · obtain ⟨channel, hchannel, _, _, _, hreceiver⟩ := spec.added
      exact Socket.live_iff.mpr ⟨channel, hchannel, hreceiver⟩
    · exact VirtualUdp.live_of_next hnext (by simp) (h.owned index task hold hrunning)
  case distinct =>
    intro index other task otherTask htask hother hrunning hotherRunning hpath
    obtain ⟨rfl, rfl⟩ | ⟨_, hold⟩ := getElem?_append_cases htask
    · obtain ⟨rfl, rfl⟩ | ⟨_, hotherOld⟩ := getElem?_append_cases hother
      · rfl
      · exact absurd hpath.symm (hfresh other otherTask hotherOld hotherRunning)
    · obtain ⟨rfl, rfl⟩ | ⟨_, hotherOld⟩ := getElem?_append_cases hother
      · exact absurd hpath (hfresh index task hold hrunning)
      · exact h.distinct index other task otherTask hold hotherOld hrunning hotherRunning hpath
  case arcs =>
    rw [hcount, spec.arcs]
    omega
  case calls =>
    intro hall call
    rw [hcount, spec.arcs] at hall
    have hsize : paths.socket.calls.size = 0 := by
      by_contra hne
      rw [if_neg hne] at hspare
      omega
    show socket.calls.get call = none
    rw [spec.calls]
    exact Table.size_eq_zero_iff.mp hsize call
  case ends =>
    intro index task htask
    obtain ⟨_, rfl⟩ | ⟨_, hold⟩ := getElem?_append_cases htask
    · simp [PathTask.result]
    · exact h.ends index task hold

/-- A future that ended gives its path and its `Arc` back, and the other futures keep theirs. -/
theorem Lifetime.leave (h : Lifetime paths) {index : Nat} {path : PathId}
    {result : Option PathResult} {dropped socket : Socket}
    (htask : paths.tasks[index]? = some ⟨path, .leaving result⟩)
    (hdrop : paths.socket.dropPath path = some dropped) (harc : dropped.dropArc = some socket) :
    Lifetime ({ paths with socket := socket }.move index path (.left result)) := by
  have hfirst := (VirtualUdp.Effect.dropPath hdrop).next
  have hsecond := (VirtualUdp.Effect.dropArc harc).next
  have hcount : ({ paths with socket := socket }.move index path (.left result)).running + 1 =
      paths.running :=
    countP_set_slot htask ⟨path, .left result⟩ PathTask.running
  have harcs : socket.arcs = paths.socket.arcs - 1 := by
    rw [VirtualUdp.arcs_of_next hsecond, VirtualUdp.arcs_of_next hfirst]
    rfl
  have hold := h.arcs
  -- a future that still runs is another one
  have hslots : ∀ {other : Nat} {found : PathTask},
      (paths.tasks.set index ⟨path, .left result⟩)[other]? = some found →
      found.running = true → index ≠ other ∧ paths.tasks[other]? = some found := by
    intro other found hfound hrun
    obtain ⟨rfl, rfl⟩ | hother := getElem?_set_cases hfound
    · simp [PathTask.running] at hrun
    · exact hother
  constructor
  case owned =>
    intro other found hfound hrun
    obtain ⟨hne, hother⟩ := hslots hfound hrun
    have hpath : path ≠ found.path := fun heq ↦
      hne (h.distinct index other _ found htask hother rfl hrun heq)
    refine VirtualUdp.live_of_next hsecond (by simp) ?_
    exact VirtualUdp.live_of_next hfirst (by simpa using hpath) (h.owned other found hother hrun)
  case distinct =>
    intro first second found otherFound hfound hother hrun hotherRun hpath
    exact h.distinct first second found otherFound (hslots hfound hrun).2
      (hslots hother hotherRun).2 hrun hotherRun hpath
  case arcs =>
    show _ ≤ socket.arcs
    omega
  case calls =>
    intro hall call
    change _ = socket.arcs at hall
    refine VirtualUdp.calls_of_next hsecond (by simp) ?_
    exact VirtualUdp.calls_of_next hfirst (by simp) (h.calls (by omega) call)
  case ends =>
    intro other found hfound
    obtain ⟨rfl, rfl⟩ | ⟨_, hother⟩ := getElem?_set_cases hfound
    · exact h.ends index ⟨path, .leaving result⟩ htask
    · exact h.ends other found hother

/-- After a `try_receive` that did not find the socket closed, the future runs on or ends for
another reason. -/
theorem Control.afterReceive_holds (source : String)
    {result : Except VirtualUdp.PathReceiveError Unit} (h : result ≠ .error .closed)
    (path : PathId) :
    (PathTask.mk path (.afterReceive source result)).running = true ∧
      (PathTask.mk path (.afterReceive source result)).result ≠ some (.ok .socketClosed) := by
  cases result with
  | ok _ => simp [Control.afterReceive, PathTask.running, PathTask.result]
  | error error =>
      cases error with
      | oversize _ _ => simp [Control.afterReceive, PathTask.running, PathTask.result]
      | queueFull => simp [Control.afterReceive, PathTask.running, PathTask.result]
      | closed => contradiction

/-- After a poll of `next_outgoing` that did not report the end, the future runs on. -/
theorem Control.afterOutgoing_holds (source : Option String) {result : Poll (Option Bytes)}
    (h : result ≠ .ready none) (path : PathId) :
    (PathTask.mk path (.afterOutgoing source result)).running = true ∧
      (PathTask.mk path (.afterOutgoing source result)).result ≠ some (.ok .socketClosed) := by
  cases result with
  | pending => simp [Control.afterOutgoing, PathTask.running, PathTask.result]
  | ready packet =>
      cases packet with
      | none => contradiction
      | some packet => simp [Control.afterOutgoing, PathTask.running, PathTask.result]

/-- Every step keeps what the futures hold. -/
theorem Lifetime.step (h : Lifetime paths) (hhandles : Handles paths.socket) {op : Op}
    {log : VirtualUdp.Log} (hchange : Change decode paths op log following) :
    Lifetime following := by
  cases hchange with
  | embedder hmay hnext => exact h.embedder hmay hnext
  | start hspare hadd => exact h.started hspare hadd
  | @turn _ _ task control _ _ htask hrunning hquiet =>
      have hstays : (PathTask.mk task.path control).running = true := by
        cases control <;> simp_all [Control.Quiet, PathTask.running]
      have hends : (PathTask.mk task.path control).result ≠ some (.ok .socketClosed) := by
        cases control <;> simp_all [Control.Quiet, PathTask.result]
      exact h.turn htask hrunning hstays hends (fun _ hlive ↦ hlive) rfl rfl
  | @received _ path _ _ packet result socket htask _ hreceive =>
      have halive : 0 < paths.socket.arcs :=
        Nat.lt_of_lt_of_le (countP_slot_pos htask rfl) h.arcs
      have hclosed := hhandles.tryReceive_ne_closed halive hreceive
      have hnext := (VirtualUdp.Effect.tryReceive hreceive).next
      have hcalls : socket.calls = paths.socket.calls := by
        obtain ⟨_, ⟨_, _, rfl⟩ | ⟨_, rfl, _⟩⟩ := Socket.tryReceive_spec hreceive <;> rfl
      have hafter := Control.afterReceive_holds packet.sourceAddr hclosed
      exact h.turn htask rfl (hafter path).1 (hafter path).2
        (fun _ hlive ↦ VirtualUdp.live_of_next hnext (by simp) hlive)
        (VirtualUdp.arcs_of_next hnext) hcalls
  | @outgoing _ path source result socket htask houtgoing =>
      have hend := hhandles.nextOutgoing_ne_end houtgoing
      have hnext := (VirtualUdp.Effect.nextOutgoing houtgoing).next
      have hafter := Control.afterOutgoing_holds source hend
      exact h.turn htask rfl (hafter path).1 (hafter path).2
        (fun _ hlive ↦ VirtualUdp.live_of_next hnext (by simp) hlive)
        (VirtualUdp.arcs_of_next hnext) (Socket.nextOutgoing_spec houtgoing).calls
  | leave htask hdrop harc => exact h.leave htask hdrop harc

/-- The futures hold their `Arc`s and paths in every run on a new socket. -/
theorem Exec.lifetime {localAddr : SocketAddr} {mtu queueCapacity : Nat} {socket : Socket}
    (hstart : Socket.withOptions localAddr mtu queueCapacity = some socket) {log : Log}
    (h : Exec decode ⟨socket, []⟩ log paths) : Lifetime paths := by
  have hinitial : Lifetime ⟨socket, []⟩ := by
    refine Lifetime.start fun call ↦ ?_
    unfold Socket.withOptions at hstart
    split at hstart
    case isFalse => simp at hstart
    case isTrue =>
      simp only [Option.some.injEq] at hstart
      subst hstart
      simp
  induction h with
  | refl => exact hinitial
  | snoc hexec hnext ih =>
      exact ih.step (VirtualUdp.Exec.handles hstart (Exec.socket hexec)) (change_of_next hnext)

/-- What a future holds: its path, and whether it still holds it. -/
def PathTask.holder (task : PathTask) : PathId × Bool :=
  (task.path, task.running)

/-- What all futures hold. -/
def Paths.holders (paths : Paths) : List (PathId × Bool) :=
  paths.tasks.map PathTask.holder

/-- The futures that have not left are those that hold their path. -/
theorem Paths.running_eq_countP_holders (paths : Paths) :
    paths.running = paths.holders.countP Prod.snd := by
  simp only [running, holders, List.countP_map]
  rfl

/-- A future that moves on without leaving holds what it held. -/
theorem Paths.holders_move {index : Nat} {task : PathTask} {control : Control} {socket : Socket}
    (htask : paths.tasks[index]? = some task)
    (hrunning : (PathTask.mk task.path control).running = task.running) :
    ({ paths with socket := socket }.move index task.path control).holders = paths.holders := by
  refine map_set_slot htask ?_
  simp only [PathTask.holder, hrunning]

/-- A step of a future that is not its last keeps what every future holds and every route. -/
theorem Change.holders {op : Op} {log : VirtualUdp.Log} (h : Change decode paths op log following)
    (hhandles : Handles paths.socket) (hlifetime : Lifetime paths) {index : Nat}
    (hop : op.task = some index) (hleave : op ≠ .leave index) :
    following.holders = paths.holders ∧ following.socket.routes = paths.socket.routes := by
  cases h with
  | embedder => simp [Op.task] at hop
  | start => simp [Op.task] at hop
  | @turn _ _ task control _ _ htask hrunning hquiet =>
      refine ⟨Paths.holders_move htask ?_, rfl⟩
      rw [hrunning]
      cases control <;> simp_all [Control.Quiet, PathTask.running]
  | @received _ path _ _ packet result socket htask _ hreceive =>
      have halive : 0 < paths.socket.arcs :=
        Nat.lt_of_lt_of_le (countP_slot_pos htask rfl) hlifetime.arcs
      have hclosed := hhandles.tryReceive_ne_closed halive hreceive
      refine ⟨Paths.holders_move htask (Control.afterReceive_holds _ hclosed path).1, ?_⟩
      obtain ⟨_, ⟨_, _, rfl⟩ | ⟨_, rfl, _⟩⟩ := Socket.tryReceive_spec hreceive <;> rfl
  | @outgoing _ path source result socket htask houtgoing =>
      have hend := hhandles.nextOutgoing_ne_end houtgoing
      exact ⟨Paths.holders_move htask (Control.afterOutgoing_holds source hend path).1,
        (Socket.nextOutgoing_spec houtgoing).routes⟩
  | leave =>
      simp only [Op.task, Option.some.injEq] at hop
      exact absurd (congrArg Op.leave hop) hleave

/-- A future touches no route but its own, and that one it can only remove. -/
theorem Change.routes {op : Op} {log : VirtualUdp.Log} (h : Change decode paths op log following)
    {index : Nat} {task : PathTask} (hop : op.task = some index)
    (htask : paths.tasks[index]? = some task) (halive : 0 < following.socket.arcs)
    (remote : SocketAddr) :
    following.socket.routes.get remote = paths.socket.routes.get remote ∨
      (paths.socket.routes.get remote = some task.path ∧
        following.socket.routes.get remote = none) := by
  cases h with
  | embedder => simp [Op.task] at hop
  | start => simp [Op.task] at hop
  | turn => exact .inl rfl
  | received _ _ hreceive =>
      obtain ⟨_, ⟨_, _, rfl⟩ | ⟨_, rfl, _⟩⟩ := Socket.tryReceive_spec hreceive
      · exact .inl rfl
      · exact .inl rfl
  | @outgoing _ _ _ _ socket _ houtgoing =>
      refine .inl ?_
      show socket.routes.get remote = _
      rw [(Socket.nextOutgoing_spec houtgoing).routes]
  | @leave _ path _ dropped socket hleaving hdrop harc =>
      simp only [Op.task, Option.some.injEq] at hop
      subst hop
      rw [hleaving, Option.some.injEq] at htask
      subst htask
      have spec := Socket.dropPath_spec hdrop
      have hroutes : socket.routes = dropped.routes := by
        obtain ⟨_, rfl⟩ | ⟨_, _, rfl⟩ := Socket.dropArc_spec harc
        · rfl
        · exact absurd halive (Nat.lt_irrefl 0)
      show socket.routes.get remote = _ ∨ _ ∧ socket.routes.get remote = none
      rw [hroutes, spec.routes]
      split
      case isFalse => exact .inl rfl
      case isTrue hown =>
        rw [Table.get_erase]
        split
        case isTrue heq =>
          subst heq
          exact .inr ⟨hown.2, rfl⟩
        case isFalse => exact .inl rfl

/-- While an `Arc` of the socket is alive, in any interleaving of an embedder and of consumer paths
on one new socket: `poll_recv` returns no error, `try_receive` never reports the socket closed,
`try_send` fails exactly on contents over the MTU and then changes nothing, and `next_outgoing`
never reports an end. Therefore no `run_consumer_path` ends because of the socket, and a step of a
path, its last one included, changes no route but its own, which it can only remove. -/
theorem socket_outlives_paths {localAddr : SocketAddr} {mtu queueCapacity : Nat} {socket : Socket}
    (hstart : Socket.withOptions localAddr mtu queueCapacity = some socket) {log : Log}
    (h : Exec decode ⟨socket, []⟩ log paths) :
    (0 < paths.socket.arcs →
      (∀ bufs metas result following,
        paths.socket.pollRecv bufs metas = some (result, following) →
        result ≠ .ready .brokenPipe) ∧
      (∀ path payload result following,
        paths.socket.tryReceive path payload = some (result, following) →
        result ≠ .error .closed) ∧
      (∀ call contents result following,
        paths.socket.trySendLookup call contents = some (result, following) →
        ((∃ actual limit, result = .oversize actual limit) ↔
          paths.socket.mtu < contents.length) ∧
        (paths.socket.mtu < contents.length → following = paths.socket)) ∧
      (∀ path result following,
        paths.socket.nextOutgoing path = some (result, following) → result ≠ .ready none)) ∧
    (∀ task ∈ paths.tasks, task.result ≠ some (.ok .socketClosed)) ∧
    (∀ index task op performed following, paths.tasks[index]? = some task →
      op.task = some index → next decode paths op = some (performed, following) →
      0 < following.socket.arcs → ∀ remote,
        following.socket.routes.get remote = paths.socket.routes.get remote ∨
          (paths.socket.routes.get remote = some task.path ∧
            following.socket.routes.get remote = none)) := by
  have hhandles : Handles paths.socket := VirtualUdp.Exec.handles hstart (Exec.socket h)
  have hlifetime : Lifetime paths := Exec.lifetime hstart h
  refine ⟨fun halive ↦ ⟨?_, ?_, ?_, ?_⟩, ?_, ?_⟩
  · intro bufs metas result following hpoll
    exact hhandles.pollRecv_ne_brokenPipe hpoll
  · intro path payload result following hreceive
    exact hhandles.tryReceive_ne_closed halive hreceive
  · intro call contents result following hlookup
    exact Socket.trySendLookup_oversize_iff hlookup
  · intro path result following hpoll
    exact hhandles.nextOutgoing_ne_end hpoll
  · intro task hmem
    obtain ⟨index, htask⟩ := List.getElem?_of_mem hmem
    exact hlifetime.ends index task htask
  · intro index task op performed following htask hop hnext halive remote
    exact (change_of_next hnext).routes hop htask halive remote

/-- A path that was replaced at its own address receives a datagram, its peer closes, and it leaves
without the replacement losing its route. -/
theorem socket_outlives_replaced_path :
    ∃ start log paths, Socket.withOptions (.v4 0 0) 4 2 = some start ∧
      Exec (fun raw ↦ .ok ⟨"egress", raw⟩) ⟨start, []⟩ log paths ∧ 0 < paths.socket.arcs ∧
      paths.tasks = [⟨⟨.v4 1 1, 0⟩, .left (some (.ok .peerClosed))⟩] ∧
      paths.socket.routes.get (.v4 1 1) = some ⟨.v4 1 1, 1⟩ ∧
      (∀ result following, paths.socket.pollRecv [4] 1 = some (result, following) →
        result ≠ .ready .brokenPipe) := by
  have hrun : Execution.run (next fun raw ↦ .ok ⟨"egress", raw⟩)
      [.embedder .cloneArc, .start ⟨.v4 1 1, 0⟩ 1, .embedder (.addPath ⟨.v4 1 1, 1⟩ 1),
        .poll 0 false (.ready (.ok (some [7]))), .poll 0 false (.ready (.ok none)), .leave 0]
      ([], ⟨(Socket.withOptions (.v4 0 0) 4 2).get rfl, []⟩) = some (_, _) := rfl
  have hstart : Socket.withOptions (.v4 0 0) 4 2 = some _ := (Option.some_get rfl).symm
  have hexec : Exec _ _ _ _ := Execution.exec_of_run hrun
  exact ⟨_, _, _, hstart, hexec, by decide, rfl, rfl,
    ((socket_outlives_paths hstart hexec).1 (by decide)).1 [4] 1⟩

end Unbounded.ConsumerPath
