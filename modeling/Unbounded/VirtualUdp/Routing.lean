import Unbounded.VirtualUdp.Handles

/-!
# Routes and streams of the virtual socket

What the route table and the paths' streams are for, said in terms of the log alone.
`lastAdded log remote` is the path most recently added at an address and `dropped log path` says
that a path has been dropped. `lookedUp log call` is what the most recent lookup of a call found,
`yielded log path` is what `next_outgoing` has returned on a path, and `admitted log path` lists the
datagrams whose `try_send` looked this path up and found its queue below its capacity, counting what
is queued as the admitted datagrams that were not yielded.

`Routing` connects this account with the state of the socket, and `routes_and_streams` collects
what follows for every run.
-/

namespace Unbounded.VirtualUdp

open Execution (Table)
open Tokio (Channel Poll TrySend)

/-! ## The account of a log -/

/-- The path most recently added at an address. -/
def lastAdded : Log → SocketAddr → Option PathId
  | [], _ => none
  | (.addPath path _, _) :: log, remote =>
      if path.remote = remote then some path else lastAdded log remote
  | _ :: log, remote => lastAdded log remote

/-- The path has been dropped. -/
def dropped (log : Log) (path : PathId) : Bool :=
  log.any fun entry ↦ decide (entry.1 = .dropPath path)

/-- The queue capacity a path was added with. -/
def capacityOf : Log → PathId → Nat
  | [], _ => 0
  | (.addPath added capacity, _) :: log, path =>
      if added = path then capacity else capacityOf log path
  | _ :: log, path => capacityOf log path

/-- The datagram and the route of the most recent lookup of a call. -/
def lookedUp : Log → CallId → Option Call
  | [], _ => none
  | (.lookup caller contents, .lookup (.route route)) :: log, call =>
      if caller = call then some ⟨contents, route⟩ else lookedUp log call
  | _ :: log, call => lookedUp log call

/-- What `next_outgoing` has returned on a path, oldest first. -/
def yielded : Log → PathId → List Bytes
  | [], _ => []
  | (.nextOutgoing polled, .outgoing (.ready (some datagram))) :: log, path =>
      if polled = path then yielded log path ++ [datagram] else yielded log path
  | _ :: log, path => yielded log path

/-- The datagrams whose `try_send` looked the path's channel up and found the path alive and its
queue below its capacity, oldest first. -/
def admitted : Log → PathId → List Bytes
  | [], _ => []
  | (.enqueue call, _) :: log, path =>
      match lookedUp log call with
      | some ⟨contents, some found⟩ =>
          if found = path ∧ dropped log path = false ∧
            (admitted log path).length < (yielded log path).length + capacityOf log path
          then admitted log path ++ [contents] else admitted log path
      | _ => admitted log path
  | _ :: log, path => admitted log path

/-- The path most recently added at an address has that address. -/
theorem lastAdded_remote {log : Log} {remote : SocketAddr} {path : PathId}
    (h : lastAdded log remote = some path) : path.remote = remote := by
  induction log with
  | nil => simp [lastAdded] at h
  | cons entry log ih =>
      unfold lastAdded at h
      split at h
      · simp at *
      · next heq =>
        cases heq
        split at h
        · next hremote => simpa [← Option.some.inj h] using hremote
        · exact ih h
      · next heq =>
        cases heq
        exact ih h

@[simp] theorem dropped_nil (path : PathId) : dropped [] path = false := rfl

theorem dropped_cons (op : Op) (out : Out) (log : Log) (path : PathId) :
    dropped ((op, out) :: log) path = (decide (op = .dropPath path) || dropped log path) := rfl

/-! ## The account and the state -/

/-- The account of a log describes the state it leads to. -/
structure Routing (limit : Nat) (log : Log) (socket : Socket) : Prop where
  mtu : socket.mtu = limit
  routes : 0 < socket.arcs → ∀ remote path, socket.routes.get remote = some path ↔
    lastAdded log remote = some path ∧ dropped log path = false
  /-- A path that was dropped had been added. -/
  added : ∀ path, dropped log path = true → (socket.outgoing.get path).isSome = true
  calls : ∀ call pending, socket.calls.get call = some pending →
    lookedUp log call = some pending ∧ pending.contents.length ≤ limit
  fresh : ∀ path, socket.outgoing.get path = none →
    yielded log path = [] ∧ admitted log path = []
  receiver : ∀ path channel, socket.outgoing.get path = some channel →
    channel.receiver = !dropped log path
  capacity : ∀ path channel, socket.outgoing.get path = some channel → channel.receiver = true →
    channel.capacity = capacityOf log path
  /-- While a path is alive, what was admitted is what was yielded and then what is queued. -/
  queued : ∀ path channel, socket.outgoing.get path = some channel → channel.receiver = true →
    yielded log path ++ channel.queue = admitted log path
  streams : ∀ path, yielded log path <+: admitted log path
  sizes : ∀ path, ∀ datagram ∈ admitted log path, datagram.length ≤ limit

/-- A new socket is in line with the account of an empty log. -/
theorem Routing.withOptions {localAddr : SocketAddr} {mtu queueCapacity : Nat} {socket : Socket}
    (h : Socket.withOptions localAddr mtu queueCapacity = some socket) : Routing mtu [] socket := by
  unfold Socket.withOptions at h
  split at h
  case isFalse => simp at h
  case isTrue =>
    simp only [Option.some.injEq] at h
    subst h
    constructor <;> simp [lastAdded, yielded, admitted]

variable {mtu : Nat} {log : Log} {socket following : Socket} {path : PathId}

/-- An operation that is neither an addition, a drop, a send nor a successful poll of a path, and
that leaves routes, channels and calls alone, keeps the account. -/
theorem Routing.frame (h : Routing mtu log socket) {op : Op} {out : Out}
    (hmtu : following.mtu = socket.mtu) (harcs : 0 < following.arcs → 0 < socket.arcs)
    (hroutes : following.routes = socket.routes ∨ following.arcs = 0)
    (hget : ∀ path channel, following.outgoing.get path = some channel →
      ∃ old, socket.outgoing.get path = some old ∧ channel.receiver = old.receiver ∧
        channel.capacity = old.capacity ∧ channel.queue = old.queue)
    (hsome : ∀ path, (socket.outgoing.get path).isSome = (following.outgoing.get path).isSome)
    (hcalls : ∀ call pending, following.calls.get call = some pending →
      lookedUp ((op, out) :: log) call = some pending ∧ pending.contents.length ≤ mtu)
    (hlastAdded : lastAdded ((op, out) :: log) = lastAdded log)
    (hdropped : dropped ((op, out) :: log) = dropped log)
    (hcapacity : capacityOf ((op, out) :: log) = capacityOf log)
    (hyielded : yielded ((op, out) :: log) = yielded log)
    (hadmitted : admitted ((op, out) :: log) = admitted log) :
    Routing mtu ((op, out) :: log) following := by
  constructor
  case mtu => rw [hmtu, h.mtu]
  case routes =>
    intro halive remote path
    have heq : following.routes = socket.routes := by
      rcases hroutes with heq | hzero
      · exact heq
      · omega
    rw [hlastAdded, hdropped, heq]
    exact h.routes (harcs halive) remote path
  case added =>
    intro path hpath
    rw [hdropped] at hpath
    rw [← hsome]
    exact h.added path hpath
  case calls => exact hcalls
  case fresh =>
    intro path hpath
    rw [hyielded, hadmitted]
    apply h.fresh path
    have hnone := hsome path
    rw [hpath] at hnone
    simpa using hnone
  case receiver =>
    intro path channel hchannel
    obtain ⟨old, hold, hreceiver, _, _⟩ := hget path channel hchannel
    rw [hdropped, hreceiver]
    exact h.receiver path old hold
  case capacity =>
    intro path channel hchannel hreceiver
    obtain ⟨old, hold, hsame, hcap, _⟩ := hget path channel hchannel
    rw [hcapacity, hcap]
    exact h.capacity path old hold (hsame ▸ hreceiver)
  case queued =>
    intro path channel hchannel hreceiver
    obtain ⟨old, hold, hsame, _, hqueue⟩ := hget path channel hchannel
    rw [hyielded, hadmitted, hqueue]
    exact h.queued path old hold (hsame ▸ hreceiver)
  case streams =>
    rw [hyielded, hadmitted]
    exact h.streams
  case sizes =>
    rw [hadmitted]
    exact h.sizes

/-- The account of the routes is kept by `add_path`. -/
theorem Routing.addPath (h : Routing mtu log socket) {capacity : Nat} {out : Out}
    (hadd : socket.addPath path capacity = some following) :
    Routing mtu ((.addPath path capacity, out) :: log) following := by
  have spec := Socket.addPath_spec hadd
  obtain ⟨added, hadded, haddedCapacity, haddedQueue, _, haddedReceiver⟩ := spec.added
  have hdropped : ∀ other, dropped ((.addPath path capacity, out) :: log) other =
      dropped log other := fun other ↦ by simp [dropped_cons]
  have hfresh : dropped log path = false := by
    by_contra hdrop
    have hsome := h.added path (by simpa using hdrop)
    rw [spec.fresh] at hsome
    simp at hsome
  -- another path's channel keeps everything but its count of senders
  have hget : ∀ other channel, other ≠ path → following.outgoing.get other = some channel →
      ∃ old, socket.outgoing.get other = some old ∧ channel.receiver = old.receiver ∧
        channel.capacity = old.capacity ∧ channel.queue = old.queue := by
    intro other channel hother hchannel
    rw [spec.others other hother] at hchannel
    split at hchannel
    · obtain ⟨old, hold, rfl⟩ := Option.map_eq_some_iff.mp hchannel
      exact ⟨old, hold, rfl, rfl, rfl⟩
    · exact ⟨channel, hchannel, rfl, rfl, rfl⟩
  have hnone : ∀ other, following.outgoing.get other = none → socket.outgoing.get other = none := by
    intro other hother
    have hne : other ≠ path := by
      rintro rfl
      rw [hadded] at hother
      simp at hother
    rw [spec.others other hne] at hother
    split at hother
    · exact Option.map_eq_none_iff.mp hother
    · exact hother
  constructor
  case mtu => rw [spec.mtu, h.mtu]
  case routes =>
    intro _ remote found
    rw [hdropped, spec.routes, Table.get_insert, lastAdded]
    by_cases hremote : remote = path.remote
    · subst hremote
      simp only [if_pos]
      refine ⟨fun heq ↦ ⟨heq, ?_⟩, fun heq ↦ heq.1⟩
      rw [← Option.some.inj heq]
      exact hfresh
    · rw [if_neg hremote, if_neg (Ne.symm hremote)]
      exact h.routes spec.alive remote found
  case added =>
    intro other hother
    rw [hdropped] at hother
    by_contra hnot
    have hold := h.added other hother
    rw [hnone other (by simpa using hnot)] at hold
    simp at hold
  case calls =>
    intro call pending hcall
    rw [spec.calls] at hcall
    exact h.calls call pending hcall
  case fresh => exact fun other hother ↦ h.fresh other (hnone other hother)
  case receiver =>
    intro other channel hchannel
    rw [hdropped]
    by_cases hother : other = path
    · subst hother
      rw [hadded, Option.some.injEq] at hchannel
      rw [← hchannel, haddedReceiver, hfresh]
      rfl
    · obtain ⟨old, hold, hreceiver, _, _⟩ := hget other channel hother hchannel
      rw [hreceiver]
      exact h.receiver other old hold
  case capacity =>
    intro other channel hchannel hreceiver
    by_cases hother : other = path
    · subst hother
      rw [hadded, Option.some.injEq] at hchannel
      simp [capacityOf, ← hchannel, haddedCapacity]
    · obtain ⟨old, hold, hsame, hcapacity, _⟩ := hget other channel hother hchannel
      rw [hcapacity, capacityOf, if_neg (Ne.symm hother)]
      exact h.capacity other old hold (hsame ▸ hreceiver)
  case queued =>
    intro other channel hchannel hreceiver
    by_cases hother : other = path
    · subst hother
      rw [hadded, Option.some.injEq] at hchannel
      obtain ⟨hyielded, hadmitted⟩ := h.fresh other spec.fresh
      simp [yielded, admitted, hyielded, hadmitted, ← hchannel, haddedQueue]
    · obtain ⟨old, hold, hsame, _, hqueue⟩ := hget other channel hother hchannel
      rw [hqueue]
      exact h.queued other old hold (hsame ▸ hreceiver)
  case streams => exact h.streams
  case sizes => exact h.sizes

/-- The account of the routes is kept when a path is dropped. -/
theorem Routing.dropPath (h : Routing mtu log socket) {out : Out}
    (hdrop : socket.dropPath path = some following) :
    Routing mtu ((.dropPath path, out) :: log) following := by
  have spec := Socket.dropPath_spec hdrop
  obtain ⟨channel, hchannel, hreceiver⟩ := Socket.live_iff.mp spec.live
  obtain ⟨closed, hclosed, hclosedReceiver, _⟩ := spec.dropped channel hchannel
  constructor
  case mtu => rw [spec.mtu, h.mtu]
  case routes =>
    intro halive remote found
    rw [spec.arcs] at halive
    have hlast : lastAdded ((.dropPath path, out) :: log) = lastAdded log := rfl
    rw [hlast, dropped_cons, spec.routes]
    have hold := h.routes halive
    by_cases hown : socket.routes.get path.remote = some path
    · -- the path's own route is removed
      rw [if_pos ⟨halive, hown⟩, Table.get_erase]
      by_cases hremote : remote = path.remote
      · subst hremote
        rw [if_pos rfl]
        refine ⟨fun hfalse ↦ by simp at hfalse, fun ⟨hfound, hkept⟩ ↦ ?_⟩
        rw [((hold _ _).mp hown).1, Option.some.injEq] at hfound
        simp [hfound] at hkept
      · rw [if_neg hremote, hold]
        constructor
        · rintro ⟨hfound, hkept⟩
          refine ⟨hfound, ?_⟩
          have hne : path ≠ found := by
            rintro rfl
            exact hremote (lastAdded_remote hfound).symm
          simp [hne, hkept]
        · rintro ⟨hfound, hkept⟩
          simp only [Bool.or_eq_false_iff] at hkept
          exact ⟨hfound, hkept.2⟩
    · -- a superseded path leaves the table as it is
      rw [if_neg (fun hboth ↦ hown hboth.2), hold]
      constructor
      · rintro ⟨hfound, hkept⟩
        refine ⟨hfound, ?_⟩
        have hne : path ≠ found := by
          rintro rfl
          have hremote := lastAdded_remote hfound
          exact hown ((hold _ _).mpr ⟨by rw [hremote]; exact hfound, hkept⟩)
        simp [hne, hkept]
      · rintro ⟨hfound, hkept⟩
        simp only [Bool.or_eq_false_iff] at hkept
        exact ⟨hfound, hkept.2⟩
  case added =>
    intro other hother
    by_cases hsame : other = path
    · rw [hsame, hclosed]
      rfl
    · rw [spec.others other hsame]
      apply h.added
      simpa [dropped_cons, Ne.symm hsame] using hother
  case calls =>
    intro call pending hcall
    rw [spec.calls] at hcall
    exact h.calls call pending hcall
  case fresh =>
    intro other hother
    have hne : other ≠ path := by
      rintro rfl
      rw [hclosed] at hother
      simp at hother
    rw [spec.others other hne] at hother
    exact h.fresh other hother
  case receiver =>
    intro other kept hkept
    rw [dropped_cons]
    by_cases hsame : other = path
    · subst hsame
      rw [hclosed, Option.some.injEq] at hkept
      simp [← hkept, hclosedReceiver]
    · rw [spec.others other hsame] at hkept
      simpa [Ne.symm hsame] using h.receiver other kept hkept
  case capacity =>
    intro other kept hkept hkeptReceiver
    by_cases hsame : other = path
    · subst hsame
      rw [hclosed, Option.some.injEq] at hkept
      simp [← hkept, hclosedReceiver] at hkeptReceiver
    · rw [spec.others other hsame] at hkept
      exact h.capacity other kept hkept hkeptReceiver
  case queued =>
    intro other kept hkept hkeptReceiver
    by_cases hsame : other = path
    · subst hsame
      rw [hclosed, Option.some.injEq] at hkept
      simp [← hkept, hclosedReceiver] at hkeptReceiver
    · rw [spec.others other hsame] at hkept
      exact h.queued other kept hkept hkeptReceiver
  case streams => exact h.streams
  case sizes => exact h.sizes

/-- The account of the routes is kept by the first step of `try_send`. -/
theorem Routing.lookup (h : Routing mtu log socket) {call : CallId} {contents : Bytes}
    {result : Socket.Lookup}
    (hlookup : socket.trySendLookup call contents = some (result, following)) :
    Routing mtu ((.lookup call contents, .lookup result) :: log) following := by
  obtain ⟨_, rfl, rfl⟩ | ⟨route, rfl, spec⟩ := Socket.trySendLookup_spec hlookup
  · exact h.frame rfl id (.inl rfl) (fun _ channel hchannel ↦ ⟨channel, hchannel, rfl, rfl, rfl⟩)
      (fun _ ↦ rfl) h.calls rfl rfl rfl rfl rfl
  · apply h.frame spec.mtu (by rw [spec.arcs]; exact id) (.inl spec.routes)
    case hget =>
      intro other channel hchannel
      rw [spec.outgoing other] at hchannel
      split at hchannel
      · obtain ⟨old, hold, rfl⟩ := Option.map_eq_some_iff.mp hchannel
        exact ⟨old, hold, rfl, rfl, rfl⟩
      · exact ⟨channel, hchannel, rfl, rfl, rfl⟩
    case hsome =>
      intro other
      rw [spec.outgoing other]
      split <;> simp
    case hcalls =>
      intro other pending hpending
      rw [spec.calls, Table.get_insert] at hpending
      rw [lookedUp]
      by_cases hsame : other = call
      · rw [if_pos hsame] at hpending
        rw [if_pos hsame.symm, ← Option.some.inj hpending]
        exact ⟨rfl, h.mtu ▸ spec.fits⟩
      · rw [if_neg hsame] at hpending
        rw [if_neg (Ne.symm hsame)]
        exact h.calls other pending hpending
    all_goals rfl

/-- An enqueue on one path leaves the streams of the others alone. -/
theorem admitted_enqueue_other {call : CallId} {contents : Bytes} {out : Out} {other : PathId}
    (h : lookedUp log call = some ⟨contents, some path⟩) (hne : path ≠ other) :
    admitted ((.enqueue call, out) :: log) other = admitted log other := by
  simp [admitted, h, hne]

/-- The account of the routes is kept by the second step of `try_send`. -/
theorem Routing.enqueue (h : Routing mtu log socket) {call : CallId}
    {attempt : Option (PathId × TrySend)}
    (henqueue : socket.trySendEnqueue call = some (attempt, following)) :
    Routing mtu ((.enqueue call, .sendOk attempt) :: log) following := by
  have hcalls : ∀ other pending, (socket.calls.erase call).get other = some pending →
      lookedUp log other = some pending ∧ pending.contents.length ≤ mtu := by
    intro other pending hpending
    rw [Table.get_erase] at hpending
    split at hpending
    · simp at hpending
    · exact h.calls other pending hpending
  obtain ⟨contents, hcall, rfl, rfl⟩ | ⟨contents, path, result, rfl, spec⟩ :=
    Socket.trySendEnqueue_spec henqueue
  · have hlooked := (h.calls call _ hcall).1
    refine h.frame rfl id (.inl rfl)
      (fun _ channel hchannel ↦ ⟨channel, hchannel, rfl, rfl, rfl⟩)
      (fun _ ↦ rfl) hcalls rfl rfl rfl rfl ?_
    funext other
    simp [admitted, hlooked]
  · obtain ⟨channel, hchannel, hresult, hsent⟩ := spec.tried
    obtain ⟨hlooked, hfits⟩ := h.calls call _ spec.pending
    have hstep : admitted ((.enqueue call, .sendOk (some (path, result))) :: log) path =
        if dropped log path = false ∧
          (admitted log path).length < (yielded log path).length + capacityOf log path
        then admitted log path ++ [contents] else admitted log path := by
      simp [admitted, hlooked]
    -- an alive path has room exactly when the log's account of its queue says so
    have hroom : channel.receiver = true →
        (channel.queue.length < channel.capacity ↔
          (admitted log path).length < (yielded log path).length + capacityOf log path) := by
      intro hreceiver
      rw [← h.queued path channel hchannel hreceiver, h.capacity path channel hchannel hreceiver,
        List.length_append]
      omega
    constructor
    case mtu => rw [spec.mtu, h.mtu]
    case routes =>
      rw [spec.arcs, spec.routes]
      exact h.routes
    case added =>
      intro other hother
      have hold := h.added other hother
      by_cases hsame : other = path
      · rw [hsame, hsent]
        rfl
      · rw [spec.others other hsame]
        exact hold
    case calls =>
      intro other pending hpending
      rw [spec.calls] at hpending
      exact hcalls other pending hpending
    case fresh =>
      intro other hother
      have hne : path ≠ other := by
        rintro rfl
        rw [hsent] at hother
        simp at hother
      rw [spec.others other (Ne.symm hne)] at hother
      rw [admitted_enqueue_other hlooked hne]
      exact h.fresh other hother
    case receiver =>
      intro other kept hkept
      by_cases hsame : other = path
      · subst hsame
        rw [hsent, Option.some.injEq] at hkept
        rw [← hkept, Channel.dropSender_receiver, Channel.trySend_receiver]
        exact h.receiver other channel hchannel
      · rw [spec.others other hsame] at hkept
        exact h.receiver other kept hkept
    case capacity =>
      intro other kept hkept hreceiver
      by_cases hsame : other = path
      · subst hsame
        rw [hsent, Option.some.injEq] at hkept
        subst hkept
        rw [Channel.dropSender_capacity, Channel.trySend_capacity]
        exact h.capacity other channel hchannel (by simpa using hreceiver)
      · rw [spec.others other hsame] at hkept
        exact h.capacity other kept hkept hreceiver
    case queued =>
      intro other kept hkept hreceiver
      by_cases hsame : other = path
      · subst hsame
        rw [hsent, Option.some.injEq] at hkept
        subst hkept
        have halive : channel.receiver = true := by simpa using hreceiver
        have hkeep : dropped log other = false := by
          simpa [halive] using (h.receiver other channel hchannel).symm
        have hqueued := h.queued other channel hchannel halive
        rw [hstep]
        rcases channel.trySend_cases contents with
          ⟨_, hlt, _, hqueue⟩ | ⟨_, heq, hfull⟩ | ⟨hfalse, _⟩
        · rw [if_pos ⟨hkeep, (hroom halive).mp hlt⟩, Channel.dropSender_queue, hqueue,
            ← List.append_assoc]
          exact congrArg (· ++ [contents]) hqueued
        · rw [if_neg (fun hboth ↦ by have := (hroom halive).mpr hboth.2; omega)]
          rw [Channel.dropSender_queue, hfull]
          exact hqueued
        · simp [halive] at hfalse
      · rw [spec.others other hsame] at hkept
        rw [admitted_enqueue_other hlooked (Ne.symm hsame)]
        exact h.queued other kept hkept hreceiver
    case streams =>
      intro other
      by_cases hsame : other = path
      · subst hsame
        rw [hstep]
        split
        · exact (h.streams other).trans (List.prefix_append _ _)
        · exact h.streams other
      · rw [admitted_enqueue_other hlooked (Ne.symm hsame)]
        exact h.streams other
    case sizes =>
      intro other datagram hmem
      by_cases hsame : other = path
      · subst hsame
        rw [hstep] at hmem
        split at hmem
        · rcases List.mem_append.mp hmem with hold | hnew
          · exact h.sizes other datagram hold
          · rw [List.mem_singleton.mp hnew]
            exact hfits
        · exact h.sizes other datagram hmem
      · rw [admitted_enqueue_other hlooked (Ne.symm hsame)] at hmem
        exact h.sizes other datagram hmem

/-- The account of the routes is kept by a poll of `next_outgoing`. -/
theorem Routing.nextOutgoing (h : Routing mtu log socket) {result : Poll (Option Bytes)}
    (hnext : socket.nextOutgoing path = some (result, following)) :
    Routing mtu ((.nextOutgoing path, .outgoing result) :: log) following := by
  have spec := Socket.nextOutgoing_spec hnext
  obtain ⟨channel, hchannel, halive, hresult, hpolled⟩ := spec.polled
  have hcases := channel.recv_cases
  have hqueued := h.queued path channel hchannel halive
  -- the polled path moves one datagram from its queue to its stream, or nothing happens
  have hyielded : yielded ((.nextOutgoing path, .outgoing result) :: log) path ++
      channel.recv.2.queue = admitted log path := by
    rcases hcases with ⟨datagram, rest, hqueue, hready, hrest⟩ | ⟨_, _, hend⟩ | ⟨_, _, hpending⟩
    · rw [hresult, hready, hrest, yielded, if_pos rfl, List.append_assoc, ← hqueued, hqueue]
      rfl
    · rw [hresult, hend]
      exact hqueued
    · rw [hresult, hpending]
      exact hqueued
  have hothers : ∀ other ≠ path,
      yielded ((.nextOutgoing path, .outgoing result) :: log) other = yielded log other := by
    intro other hother
    rcases result with _ | _ | datagram
    · rfl
    · rfl
    · rw [yielded, if_neg (Ne.symm hother)]
  constructor
  case mtu => rw [spec.mtu, h.mtu]
  case routes =>
    rw [spec.arcs, spec.routes]
    exact h.routes
  case added =>
    intro other hother
    have hold := h.added other hother
    by_cases hsame : other = path
    · rw [hsame, hpolled]
      rfl
    · rw [spec.others other hsame]
      exact hold
  case calls =>
    rw [spec.calls]
    exact h.calls
  case fresh =>
    intro other hother
    have hne : other ≠ path := by
      rintro rfl
      rw [hpolled] at hother
      simp at hother
    rw [spec.others other hne] at hother
    rw [hothers other hne]
    exact h.fresh other hother
  case receiver =>
    intro other kept hkept
    by_cases hsame : other = path
    · subst hsame
      rw [hpolled, Option.some.injEq] at hkept
      rw [← hkept, Channel.recv_receiver]
      exact h.receiver other channel hchannel
    · rw [spec.others other hsame] at hkept
      exact h.receiver other kept hkept
  case capacity =>
    intro other kept hkept hreceiver
    by_cases hsame : other = path
    · subst hsame
      rw [hpolled, Option.some.injEq] at hkept
      rw [← hkept, Channel.recv_capacity]
      exact h.capacity other channel hchannel halive
    · rw [spec.others other hsame] at hkept
      exact h.capacity other kept hkept hreceiver
  case queued =>
    intro other kept hkept hreceiver
    by_cases hsame : other = path
    · subst hsame
      rw [hpolled, Option.some.injEq] at hkept
      subst hkept
      exact hyielded
    · rw [spec.others other hsame] at hkept
      rw [hothers other hsame]
      exact h.queued other kept hkept hreceiver
  case streams =>
    intro other
    by_cases hsame : other = path
    · subst hsame
      exact ⟨_, hyielded⟩
    · rw [hothers other hsame]
      exact h.streams other
  case sizes => exact h.sizes

/-- Every operation keeps the account of the routes. -/
theorem Routing.step (h : Routing mtu log socket) {op : Op} {out : Out}
    (hnext : next socket op = some (out, following)) :
    Routing mtu ((op, out) :: log) following := by
  have hsame : ∀ path (channel : Channel Bytes), socket.outgoing.get path = some channel →
      ∃ old, socket.outgoing.get path = some old ∧ channel.receiver = old.receiver ∧
        channel.capacity = old.capacity ∧ channel.queue = old.queue :=
    fun _ channel hchannel ↦ ⟨channel, hchannel, rfl, rfl, rfl⟩
  cases effect_of_next hnext with
  | cloneArc hclone =>
      obtain ⟨halive, rfl⟩ := Socket.cloneArc_spec hclone
      exact h.frame rfl (fun _ ↦ halive) (.inl rfl) hsame (fun _ ↦ rfl) h.calls rfl rfl rfl rfl rfl
  | dropArc hdrop =>
      obtain ⟨hmore, rfl⟩ | ⟨hlast, hcalls, rfl⟩ := Socket.dropArc_spec hdrop
      · exact h.frame rfl (fun _ ↦ by omega) (.inl rfl) hsame (fun _ ↦ rfl) h.calls
          rfl rfl rfl rfl rfl
      · refine h.frame rfl (fun _ ↦ by omega) (.inr rfl) ?_ ?_ h.calls rfl rfl rfl rfl rfl
        · intro path channel hchannel
          simp only [Socket.destroy, Table.get_mapValues, Option.map_eq_some_iff] at hchannel
          obtain ⟨old, hold, rfl⟩ := hchannel
          refine ⟨old, hold, ?_⟩
          split <;> exact ⟨rfl, rfl, rfl⟩
        · intro path
          simp [Socket.destroy]
  | addPath hadd =>
      exact h.addPath hadd
  | dropPath hdrop =>
      exact h.dropPath hdrop
  | lookup hlookup =>
      exact h.lookup hlookup
  | enqueue henqueue =>
      exact h.enqueue henqueue
  | nextOutgoing hpoll =>
      exact h.nextOutgoing hpoll
  | tryReceive hreceive =>
      obtain ⟨_, ⟨_, _, rfl⟩ | ⟨_, rfl, _⟩⟩ := Socket.tryReceive_spec hreceive
      · exact h.frame rfl id (.inl rfl) hsame (fun _ ↦ rfl) h.calls rfl rfl rfl rfl rfl
      · exact h.frame rfl id (.inl rfl) hsame (fun _ ↦ rfl) h.calls rfl rfl rfl rfl rfl
  | pollRecv hpoll =>
      obtain ⟨_, ⟨_, _, rfl⟩ | ⟨_, _, _, _, rfl, _⟩⟩ := Socket.pollRecv_spec hpoll
      · exact h.frame rfl id (.inl rfl) hsame (fun _ ↦ rfl) h.calls rfl rfl rfl rfl rfl
      · exact h.frame rfl id (.inl rfl) hsame (fun _ ↦ rfl) h.calls rfl rfl rfl rfl rfl

/-- The account holds of every run of a new socket. -/
theorem Exec.routing {localAddr : SocketAddr} {queueCapacity : Nat} {start : Socket}
    (hstart : Socket.withOptions localAddr mtu queueCapacity = some start)
    (h : Exec start log socket) : Routing mtu log socket :=
  h.log_invariant (Routing.withOptions hstart) fun _ hstate hnext ↦ hstate.step hnext

end Unbounded.VirtualUdp
