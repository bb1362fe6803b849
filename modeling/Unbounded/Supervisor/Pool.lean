import Unbounded.Supervisor.Worker

/-!
# The pool of workers

`supervise_peer_proxy_pool` of `src/supervisor.rs`: workers in slots, of which each takes its steps
in any interleaving with the others and tags what it forwards with its slot. `forwarding` says for
every run that a slot's events are forwarded in the order in which they were put on its channel, and
all of them once the worker has finished, and that the returned summary counts what was forwarded.
-/

namespace Unbounded.Supervisor

open Execution (Next getElem?_set_cases getElem?_set_slot_self countP_eq_sum_slots)
open PeerProxy (Codec PeerProxyError)

/-- `PoolEvent`. -/
structure PoolEvent where
  slot : Nat
  event : SupervisorEvent

/-- `SupervisorPoolSummary`. -/
structure SupervisorPoolSummary where
  workers : List SupervisorSummary

namespace SupervisorPoolSummary

/-- `attempts`, where the sum stays in range. -/
def attempts (summary : SupervisorPoolSummary) : Nat :=
  (summary.workers.map SupervisorSummary.attempts).sum

/-- `completed_sessions`. -/
def completedSessions (summary : SupervisorPoolSummary) : Nat :=
  (summary.workers.map SupervisorSummary.completedSessions).sum

/-- `failed_attempts`. -/
def failedAttempts (summary : SupervisorPoolSummary) : Nat :=
  (summary.workers.map SupervisorSummary.failedAttempts).sum

end SupervisorPoolSummary

/-- The workers of a pool, each in its slot. -/
structure Pool where
  workers : List Worker

namespace Pool

/-- A pool that has just been started. There is at least one worker. -/
def new (config : SupervisorConfig) (slots : Nat) (cancelled : Bool) : Pool :=
  ⟨List.replicate (max slots 1) (.new config cancelled)⟩

/-- One step of the worker in a slot. -/
def next (codec : Codec) (display : PeerProxyError → String) :
    Next Pool (Nat × Worker.Op) Worker.Out
  | pool, (slot, op) =>
      pool.workers[slot]?.bind fun worker ↦
        (Worker.next codec display worker op).map fun (out, moved) ↦
          (out, ⟨pool.workers.set slot moved⟩)

/-- What the pool returns once all of its workers have, sorted by slot. -/
def result (pool : Pool) : Option SupervisorPoolSummary :=
  if pool.workers.all (·.stage = .finished) then
    let workers := pool.workers.zipIdx.map fun (worker, slot) ↦ (slot, worker.supervision.summary)
    some ⟨(workers.mergeSort fun one other ↦ one.1 ≤ other.1).map Prod.snd⟩
  else none

/-- A log of a pool. -/
abbrev Log := Execution.Log (Nat × Worker.Op) Worker.Out

/-- Executions of a pool. -/
abbrev Exec (codec : Codec) (display : PeerProxyError → String) :=
  Execution.Exec (next codec display)

/-- The events that the pool has sent to the embedder, oldest first. -/
def forwarded (log : Log) : List PoolEvent :=
  (log.filterMap fun entry ↦ entry.2.forwarded.map (PoolEvent.mk entry.1.1)).reverse

/-- The events with the tag of a slot. -/
def ofSlot (slot : Nat) (events : List PoolEvent) : List SupervisorEvent :=
  (events.filter fun tagged ↦ tagged.slot = slot).map PoolEvent.event

/-- The log of the worker in a slot. -/
def workerLog (slot : Nat) (log : Log) : Worker.Log :=
  log.filterMap fun entry ↦ if entry.1.1 = slot then some (entry.1.2, entry.2) else none

/-- The events that were put on the channel of a slot's worker before its final drain found the
channel empty, oldest first. -/
def enqueued (slot : Nat) (log : Log) : List SupervisorEvent :=
  (Worker.enqueued (workerLog slot log)).reverse

variable {codec : Codec} {display : PeerProxyError → String} {config : SupervisorConfig}
  {slots : Nat} {before : Bool} {log : Log} {pool following : Pool}

/-- The worker in a slot takes a step. -/
theorem worker_of_next {slot : Nat} {op : Worker.Op} {out : Worker.Out}
    (h : next codec display pool (slot, op) = some (out, following)) :
    ∃ worker moved, pool.workers[slot]? = some worker ∧
      Worker.next codec display worker op = some (out, moved) ∧
      following = ⟨pool.workers.set slot moved⟩ := by
  simp only [next, Option.bind_eq_some_iff, Option.map_eq_some_iff, Prod.mk.injEq] at h
  obtain ⟨worker, hworker, ⟨out, moved⟩, hnext, rfl, rfl⟩ := h
  exact ⟨worker, moved, hworker, hnext, rfl⟩

/-- A step of a slot is in the log of its worker. -/
theorem workerLog_cons_self {slot : Nat} {op : Worker.Op} {out : Worker.Out} :
    workerLog slot (((slot, op), out) :: log) = (op, out) :: workerLog slot log := by
  simp [workerLog]

/-- A step of another slot is not in the log of a worker. -/
theorem workerLog_cons_of_ne {slot other : Nat} {op : Worker.Op} {out : Worker.Out}
    (h : other ≠ slot) : workerLog slot (((other, op), out) :: log) = workerLog slot log := by
  simp [workerLog, h]

/-! ## Workers of a pool -/

/-- No worker is added or removed. -/
theorem Exec.length (h : Exec codec display (.new config slots before) log pool) :
    pool.workers.length = max slots 1 := by
  induction h with
  | refl => exact List.length_replicate
  | @snoc _ _ _ input _ _ hnext ih =>
      obtain ⟨slot, op⟩ := input
      obtain ⟨worker, moved, _, _, rfl⟩ := worker_of_next hnext
      rw [List.length_set, ih]

/-- The steps of a slot are a run of its worker. -/
theorem Exec.worker (h : Exec codec display (.new config slots before) log pool) {slot : Nat}
    {worker : Worker} (hworker : pool.workers[slot]? = some worker) :
    Worker.Exec codec display (.new config before) (workerLog slot log) worker := by
  induction h generalizing worker with
  | refl =>
      have hnew := List.eq_of_mem_replicate (List.mem_of_getElem? hworker)
      rw [hnew]
      exact .refl
  | @snoc log pool following input out _ hnext ih =>
      obtain ⟨other, op⟩ := input
      obtain ⟨old, moved, hold, hstep, rfl⟩ := worker_of_next hnext
      rcases getElem?_set_cases hworker with ⟨rfl, rfl⟩ | ⟨hne, hsame⟩
      · rw [workerLog_cons_self]
        exact (ih hold).snoc hstep
      · rw [workerLog_cons_of_ne hne]
        exact ih hsame

/-- A run of the worker in a slot is a run of the pool. -/
theorem exec_of_worker {slot : Nat} {worker moved : Worker} {later : Worker.Log}
    (hworker : pool.workers[slot]? = some worker)
    (h : Worker.Exec codec display worker later moved) :
    Exec codec display pool (later.map fun entry ↦ ((slot, entry.1), entry.2))
      ⟨pool.workers.set slot moved⟩ := by
  induction h with
  | refl =>
      obtain ⟨hlt, hget⟩ := List.getElem?_eq_some_iff.mp hworker
      rw [← hget, List.set_getElem_self]
      exact .refl
  | @snoc later state last op out _ hnext ih =>
      refine ih.snoc ?_
      have hset := getElem?_set_slot_self hworker state
      simp only [next, hset, Option.bind_some, hnext, Option.map_some, List.set_set]

/-! ## Events by slot -/

/-- Every event has the tag of a worker. -/
theorem Exec.slot_lt (h : Exec codec display (.new config slots before) log pool) :
    ∀ tagged ∈ forwarded log, tagged.slot < max slots 1 := by
  induction h with
  | refl => simp [forwarded]
  | @snoc log state following input out hexec hnext ih =>
      intro tagged htagged
      obtain ⟨slot, op⟩ := input
      obtain ⟨worker, moved, hworker, _, _⟩ := worker_of_next hnext
      obtain ⟨hlt, _⟩ := List.getElem?_eq_some_iff.mp hworker
      rw [Exec.length hexec] at hlt
      simp only [forwarded, List.mem_reverse, List.mem_filterMap, List.mem_cons] at htagged ih
      obtain ⟨entry, rfl | hentry, hevent⟩ := htagged
      · obtain ⟨event, _, rfl⟩ := Option.map_eq_some_iff.mp hevent
        exact hlt
      · exact ih tagged ⟨entry, hentry, hevent⟩

/-- The events of a slot are those that its worker forwarded. -/
theorem ofSlot_forwarded (slot : Nat) (log : Log) :
    ofSlot slot (forwarded log) = (Worker.forwarded (workerLog slot log)).reverse := by
  rw [ofSlot, forwarded, List.filter_reverse, List.map_reverse]
  congr 1
  induction log with
  | nil => rfl
  | cons entry log ih =>
      obtain ⟨⟨other, op⟩, out⟩ := entry
      by_cases hslot : other = slot
      · subst hslot
        rw [workerLog_cons_self, Worker.forwarded_cons]
        cases hforwarded : out.forwarded with
        | none => simpa [hforwarded] using ih
        | some event => simpa [hforwarded] using ih
      · rw [workerLog_cons_of_ne hslot]
        cases hforwarded : out.forwarded with
        | none => simpa [hforwarded] using ih
        | some event => simpa [hforwarded, hslot] using ih

/-- Events are counted slot by slot. -/
theorem Exec.countP_forwarded (h : Exec codec display (.new config slots before) log pool)
    (test : SupervisorEvent → Bool) :
    (forwarded log).countP (fun tagged ↦ test tagged.event) =
      ((List.range (max slots 1)).map fun slot ↦
        (ofSlot slot (forwarded log)).countP test).sum := by
  rw [countP_eq_sum_slots (Exec.slot_lt h)]
  simp only [ofSlot, List.countP_map]
  rfl

/-! ## The summary of a pool -/

/-- The workers are sorted already. -/
theorem result_eq (pool : Pool) :
    pool.result = if pool.workers.all (·.stage = .finished) then
      some ⟨pool.workers.map fun worker ↦ worker.supervision.summary⟩ else none := by
  have hsorted : (pool.workers.zipIdx.map fun (worker, slot) ↦
      (slot, worker.supervision.summary)).Pairwise fun one other ↦
        decide (one.1 ≤ other.1) = true := by
    have hslots : (pool.workers.zipIdx.map Prod.snd).Pairwise (· < ·) := by
      rw [List.zipIdx_map_snd]
      exact List.pairwise_lt_range'
    rw [List.pairwise_map] at hslots ⊢
    exact hslots.imp fun hlt ↦ decide_eq_true (Nat.le_of_lt hlt)
  have hworkers : (pool.workers.zipIdx.map fun (worker, slot) ↦
      (slot, worker.supervision.summary)).map Prod.snd =
        pool.workers.map fun worker ↦ worker.supervision.summary := by
    conv_rhs => rw [← List.zipIdx_map_fst 0 pool.workers]
    rw [List.map_map, List.map_map]
    rfl
  simp only [result, List.mergeSort_of_pairwise hsorted, hworkers]

/-- A pool returns when all of its workers have finished. -/
theorem result_eq_some {summary : SupervisorPoolSummary} (h : pool.result = some summary) :
    (∀ worker ∈ pool.workers, worker.stage = .finished) ∧
      summary.workers = pool.workers.map fun worker ↦ worker.supervision.summary := by
  rw [result_eq] at h
  split at h
  case isFalse => simp at h
  case isTrue hall =>
    simp only [Option.some.injEq] at h
    rw [← h]
    exact ⟨by simpa using hall, rfl⟩

/-- What a finished worker has forwarded and what it returns. -/
theorem Exec.reported (h : Exec codec display (.new config slots before) log pool) {slot : Nat}
    {worker : Worker} (hworker : pool.workers[slot]? = some worker)
    (hfinished : worker.stage = .finished) :
    enqueued slot log = ofSlot slot (forwarded log) ∧
      Supervision.Reported worker.supervision.summary (ofSlot slot (forwarded log)) := by
  rw [ofSlot_forwarded]
  exact (Worker.Exec.carries (Exec.worker h hworker)).reported hfinished

/-- A total of the summaries is a count of the forwarded events. -/
theorem Exec.total (h : Exec codec display (.new config slots before) log pool)
    (hfinished : ∀ worker ∈ pool.workers, worker.stage = .finished)
    {count : SupervisorSummary → Nat} {test : SupervisorEvent → Bool}
    (hcount : ∀ {summary events}, Supervision.Reported summary events →
      count summary = events.countP test) :
    ((pool.workers.map fun worker ↦ worker.supervision.summary).map count).sum =
      (forwarded log).countP fun tagged ↦ test tagged.event := by
  rw [Exec.countP_forwarded h]
  congr 1
  refine List.ext_getElem? fun slot ↦ ?_
  have hlength := Exec.length h
  rw [List.getElem?_map, List.getElem?_map, List.getElem?_map]
  rcases Nat.lt_or_ge slot (max slots 1) with hlt | hge
  · rw [← hlength] at hlt
    have hworker := List.getElem?_eq_getElem hlt
    have hreported := (Exec.reported h hworker (hfinished _ (List.getElem_mem hlt))).2
    rw [hworker, List.getElem?_range (by omega)]
    simp only [Option.map_some, Option.some.injEq]
    exact hcount hreported
  · rw [List.getElem?_eq_none (by omega), List.getElem?_eq_none (by simp; omega)]
    rfl

/-! ## Forwarding -/

/-- In every run of a pool, with any interleaving of its workers, supervisors, sessions and
callbacks: the events of a slot are forwarded in order, each once, and when its worker has finished,
all that were put on its channel have been. A worker leaves its loop exactly when its supervisor has
returned, and from there its own steps finish it, whatever sessions and callbacks are still there.
The pool returns one summary for each of `max slots 1` workers, a slot's events have one `Stopped`,
which has the summary of the slot, and the totals of the summaries count the forwarded events. -/
theorem forwarding (h : Exec codec display (.new config slots before) log pool) :
    (∀ slot worker, pool.workers[slot]? = some worker →
      enqueued slot log = ofSlot slot (forwarded log) ++ worker.queue ∧
      (worker.stage = .finished → ofSlot slot (forwarded log) = enqueued slot log) ∧
      ((Worker.next codec display worker .finish).isSome = true ↔
        worker.stage = .looping ∧ worker.supervision.control = .returned) ∧
      (worker.supervision.control = .returned → ∃ later final,
        Exec codec display pool later final ∧
        later.map Prod.fst = (worker.closing.map fun op ↦ (slot, op)).reverse ∧
        final.workers[slot]? = some { worker with queue := [], stage := .finished })) ∧
    (∀ tagged ∈ forwarded log, tagged.slot < max slots 1) ∧
    ∀ summary, pool.result = some summary →
      summary.workers.length = max slots 1 ∧
      (∀ slot own, summary.workers[slot]? = some own →
        ofSlot slot (forwarded log) = enqueued slot log ∧
        (ofSlot slot (forwarded log)).filter Supervision.isStopped = [.stopped own]) ∧
      summary.attempts = (forwarded log).countP (fun tagged ↦ Supervision.isStart tagged.event) ∧
      summary.completedSessions =
        (forwarded log).countP (fun tagged ↦ Supervision.isEnded tagged.event) ∧
      summary.failedAttempts =
        (forwarded log).countP (fun tagged ↦ Supervision.isFailed tagged.event) := by
  refine ⟨fun slot worker hworker ↦ ?_, Exec.slot_lt h, fun summary hsummary ↦ ?_⟩
  · have hcarries := Worker.Exec.carries (Exec.worker h hworker)
    refine ⟨?_, fun hfinished ↦ (Exec.reported h hworker hfinished).1.symm,
      Worker.isSome_finish_iff, fun hreturned ↦ ?_⟩
    · rw [ofSlot_forwarded]
      exact hcarries.fifo
    · obtain ⟨later, hlater, hops⟩ := hcarries.completes codec hreturned
      refine ⟨_, _, exec_of_worker hworker hlater, ?_, getElem?_set_slot_self hworker _⟩
      rw [← List.map_reverse, ← hops, List.map_map, List.map_map]
      rfl
  · obtain ⟨hfinished, hworkers⟩ := result_eq_some hsummary
    refine ⟨?_, fun slot own hown ↦ ?_, ?_, ?_, ?_⟩
    · rw [hworkers, List.length_map, Exec.length h]
    · rw [hworkers, List.getElem?_map, Option.map_eq_some_iff] at hown
      obtain ⟨worker, hworker, rfl⟩ := hown
      obtain ⟨hall, hreported⟩ :=
        Exec.reported h hworker (hfinished worker (List.mem_of_getElem? hworker))
      exact ⟨hall.symm, hreported.stopped⟩
    · rw [SupervisorPoolSummary.attempts, hworkers]
      exact Exec.total h hfinished fun hreported ↦ hreported.attempts
    · rw [SupervisorPoolSummary.completedSessions, hworkers]
      exact Exec.total h hfinished fun hreported ↦ hreported.completed
    · rw [SupervisorPoolSummary.failedAttempts, hworkers]
      exact Exec.total h hfinished fun hreported ↦ hreported.failed

/-- A pool that is asked for no slot has one worker. Its supervisor stops while a callback of its
session has still to send, and what the callback sends before the drain is forwarded. -/
theorem forwarding_of_late_callback : ∃ log pool summary,
    Exec .plain (fun _ ↦ "error") (.new ⟨.zero, .zero, .zero⟩ 0 false) log pool ∧
    ofSlot 0 (forwarded log) =
      [.attemptStarted 1, .stopped ⟨1, 0, 0⟩, .peerConnected "csid" none] ∧
    pool.result = some summary ∧ summary.workers = [⟨1, 0, 0⟩] ∧
    ofSlot 0 (forwarded log) = enqueued 0 log ∧
    (ofSlot 0 (forwarded log)).filter Supervision.isStopped = [.stopped ⟨1, 0, 0⟩] := by
  have hrun : Execution.run (next .plain fun _ ↦ "error")
      ([.supervise .check, .supervise .start, .forward,
        .session 0 (.session (.connected (.ok ()))),
        .session 0 (.session (.replied (.ok (some ⟨"r1", .offer, "sdp"⟩)))),
        .session 0 (.session (.remoteSet (.ok ()))),
        .session 0 (.session (.answerCreated (.ok ⟨.answer, "sdp"⟩))),
        .session 0 (.session .promised), .session 0 (.session (.localSet (.ok ()))),
        .session 0 (.session .gathered),
        .session 0 (.session (.described (some ⟨.answer, "sdp"⟩))),
        .session 0 (.session (.replied (.ok (some ⟨"r2", .ice, "csid"⟩)))),
        .session 0 (.call .connected), .session 0 (.body 0 none), .session 0 (.body 0 none),
        .supervise .cancel, .session 0 (.session .cancelled), .session 0 (.session .closed),
        .supervise (.sessionReturned (.error .cancelled) .zero), .supervise .examine,
        .supervise .stop, .finish, .drain, .session 0 (.body 0 none), .drain,
        .complete].map fun op ↦ (0, op))
      ([], .new ⟨.zero, .zero, .zero⟩ 0 false) = some (_, _) := rfl
  obtain ⟨log, pool, hexec, hevents, hfinished, hsummaries⟩ : ∃ log pool,
      Exec .plain (fun _ ↦ "error") (.new ⟨.zero, .zero, .zero⟩ 0 false) log pool ∧
      ofSlot 0 (forwarded log) =
        [.attemptStarted 1, .stopped ⟨1, 0, 0⟩, .peerConnected "csid" none] ∧
      pool.workers.all (·.stage = .finished) = true ∧
      (pool.workers.map fun worker ↦ worker.supervision.summary) = [⟨1, 0, 0⟩] :=
    ⟨_, _, Execution.exec_of_run hrun, rfl, rfl, rfl⟩
  have hresult : pool.result = some ⟨[⟨1, 0, 0⟩]⟩ := by
    rw [result_eq, if_pos hfinished, hsummaries]
  obtain ⟨hall, hstopped⟩ := ((forwarding hexec).2.2 _ hresult).2.1 0 _ rfl
  exact ⟨log, pool, _, hexec, hevents, hresult, rfl, hall, hstopped⟩

end Pool

end Unbounded.Supervisor
