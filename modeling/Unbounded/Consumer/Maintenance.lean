import Unbounded.Consumer.Maintain
import Unbounded.Consumer.Moves

/-!
# What the consumer loop reports and leaves behind

Read `maintain_consumer_runs` first. It puts four invariants of the loop together: the session of an
attempt belongs to the loop and sees only its token (`Attended`), the events and the summary are
those of a list of counted results and at most one attempt without a result (`Accounts`), an attempt
calls `allocate` at most once (`Exec.addresses_le`), and the routes of the socket are those from
before the attempt, and one more while the session is inside `run_consumer_path` (`RoutesOver`).
-/

namespace Unbounded.Consumer

open Execution (getElem?_set_slot_self)
open ConsumerPath (Endpoint PathError)
open VirtualUdp (Socket PathId)

/-! ## The end of a session -/

/-- What a session returns, once that is decided. -/
def Control.ended : Control → Option SessionResult
  | .closing result | .returned result => some result
  | _ => none

/-- The session has called `allocate`, or never will. -/
def Control.spent : Control → Bool
  | .entering _ | .inPath _ | .closing _ | .returned _ | .dropped => true
  | _ => false

/-- The addresses that a session may still allocate. -/
def Session.remaining (session : Session) : Nat :=
  (!session.control.spent).toNat

section Session

variable {codec : Codec} {consumer : ConsumerConfig} {control following : Control} {input : Input}
  {effect : Effect}

/-- A session returns `Cancelled` only when it has seen its token cancelled. -/
theorem Control.ended_of_next (h : control.next codec consumer input = some (effect, following))
    (hinput : input ≠ .cancelled) (hended : following.ended = some (.error .cancelled)) :
    control.ended = some (.error .cancelled) := by
  unfold Control.next at h
  split at h
  all_goals grind [Control.ended, Control.fail, Control.abort, expectSignal]

/-- A session does not come back to its call of `allocate`. -/
theorem Control.spent_of_next (h : control.next codec consumer input = some (effect, following))
    (hspent : control.spent = true) : following.spent = true := by
  unfold Control.next at h
  split at h
  all_goals grind [Control.spent, Control.fail, Control.abort]

/-- A session calls `allocate` before it is past that call, and is past it then. -/
theorem Control.spent_of_allocated {result : Except PathError SocketAddr}
    (h : control.next codec consumer (.allocated result) = some (effect, following)) :
    control.spent = false ∧ following.spent = true := by
  cases control with
  | allocating =>
      cases result <;>
      · simp only [Control.next, Control.fail, Option.some.injEq, Prod.mk.injEq] at h
        obtain ⟨_, rfl⟩ := h
        exact ⟨rfl, rfl⟩
  | _ => simp [Control.next] at h

/-- A session posts an Ice message with the identifier of its configuration. -/
theorem Control.ice_of_next {sendTo payload : String}
    (h : control.next codec consumer input = some (.post sendTo .ice payload, following)) :
    ∃ candidates, codec.encodeIce ⟨candidates, consumer.consumerSessionId⟩ = .ok payload := by
  cases move_of_next h with
  | ice hpayload => exact ⟨_, hpayload⟩

end Session

namespace Maintenance

variable {display : ConsumerError → String} {codec : Codec}
  {decode : Bytes → Except String UnboundedPacket} {config : ConsumerSupervisorConfig}
  {state following : Maintenance} {log : Log} {op : Op} {out : Out}

/-! ## The session of an attempt -/

/-- A session that the loop started, where `cancelled` is the state of the token. -/
structure Own (consumer : ConsumerConfig) (cancelled : Bool) (session : Session) : Prop where
  config : session.config = consumer
  /-- Nothing is decided while the session is inside `run_consumer_path`. -/
  inside : session.task.isSome = true → session.control.ended = none
  ended : session.control.ended = some (.error .cancelled) → cancelled = true
  interruption : ∀ input, session.interruption = some input → cancelled = true

/-- A session that starts has seen nothing of its token. -/
theorem Own.start (consumer : ConsumerConfig) (cancelled : Bool) :
    Own consumer cancelled ⟨consumer, .connecting, none, none⟩ where
  config := rfl
  inside := by simp
  ended := by simp [Control.ended]
  interruption := by simp

/-- A session stays as it is when the token is cancelled. -/
theorem Own.cancel {consumer : ConsumerConfig} {cancelled : Bool} {session : Session}
    (h : Own consumer cancelled session) : Own consumer true session :=
  ⟨h.config, h.inside, fun _ ↦ rfl, fun _ _ ↦ rfl⟩

/-- A session that sees only its token remains one of the loop. -/
theorem Own.act {consumer : ConsumerConfig} {cancelled : Bool} {sessions : Sessions} {index : Nat}
    {move : Sessions.Op} {old new : Session} {ops : List Endpoint.Op}
    (h : Own consumer cancelled old) (hact : Sessions.Act codec sessions index move old new ops)
    (hallowed : tokenAllows cancelled move = true) : Own consumer cancelled new := by
  obtain ⟨hconfig, hinside, hended, hinterruption⟩ := h
  cases hact with
  | @step _ _ input _ _ hnext =>
      refine ⟨hconfig, by simp, fun hcancelled ↦ ?_, by simp⟩
      by_cases hinput : input = .cancelled
      · subst hinput
        exact hallowed
      · exact hended (Control.ended_of_next hnext hinput hcancelled)
  | allocate hnext =>
      refine ⟨hconfig, by simp, fun hcancelled ↦ ?_, by simp⟩
      exact hended (Control.ended_of_next hnext (by simp) hcancelled)
  | enter => exact ⟨hconfig, fun _ ↦ rfl, by simp [Control.ended], by simp⟩
  | path => exact ⟨hconfig, hinside, hended, hinterruption⟩
  | interrupt hinput =>
      refine ⟨hconfig, hinside, hended, fun _ _ ↦ ?_⟩
      rcases hinput with rfl | rfl
      · exact hallowed
      · simp [tokenAllows] at hallowed
  | @leave _ _ task interruption input _ _ hinput hnext =>
      refine ⟨hconfig, by simp, fun hcancelled ↦ ?_, by simp⟩
      cases interruption with
      | some reason => exact hinterruption reason rfl
      | none =>
          -- the future returned, so the session has a result of its path
          have hreturned : input ≠ .cancelled := by
            rintro rfl
            simp only [Option.none_or, Sessions.ended, Option.map_eq_some_iff, reduceCtorEq,
              and_false, exists_false] at hinput
          exact hended (Control.ended_of_next hnext hreturned hcancelled)

/-- The session of the attempt under way. -/
def current (state : Maintenance) : Option Session :=
  match state.control with
  | .running index => state.sessions.sessions[index]?
  | _ => none

/-- A loop that awaits a session has it. -/
theorem current_of_running {index : Nat} {session : Session}
    (hcontrol : state.control = .running index)
    (hsession : state.sessions.sessions[index]? = some session) :
    state.current = some session := by
  simp [current, hcontrol, hsession]

/-- A loop that awaits no session has none. -/
theorem current_of_idle (h : ∀ index, state.control ≠ .running index) : state.current = none := by
  unfold current
  split
  · next index hcontrol => exact absurd hcontrol (h index)
  · rfl

/-- The session of the attempt under way belongs to the loop. -/
def Attended (config : ConsumerSupervisorConfig) (state : Maintenance) : Prop :=
  ∀ index, state.control = .running index → ∃ session,
    state.sessions.sessions[index]? = some session ∧ Own config.consumer state.cancelled session

/-- What the loop does with a result ends the attempt. -/
theorem settle_ends {retryDelay : Duration} {cancelled : Bool} {summary counted : ConsumerSummary}
    {result : SessionResult} {event : Option ConsumerEvent} {control : Control}
    (h : settle display retryDelay cancelled summary result = (event, counted, control))
    (index : Nat) : control ≠ .running index := by
  rintro rfl
  cases result with
  | ok outcome =>
      simp only [settle] at h
      split at h <;> simp at h
  | error error =>
      simp only [settle] at h
      split at h <;> simp at h

/-- Every step keeps the session of the attempt with the loop. -/
theorem Attended.step (h : Attended config state)
    (hchange : Change display codec decode config state op out following) :
    Attended config following := by
  intro index hcontrol
  cases hchange with
  | cancel =>
      obtain ⟨session, hsession, hown⟩ := h index hcontrol
      exact ⟨session, hsession, hown.cancel⟩
  | start hnext =>
      obtain ⟨_, _, rfl⟩ := Sessions.start_of_next hnext
      obtain rfl := Control.running.inj hcontrol
      exact ⟨_, List.getElem?_concat_length, .start _ _⟩
  | session hop hallowed hnext =>
      obtain rfl := Control.running.inj hcontrol
      obtain ⟨session, hsession, hown⟩ := h _ rfl
      obtain ⟨old, new, _, _, hold, hact, _, rfl⟩ := Sessions.act_of_next hnext hop
      rw [hsession, Option.some.injEq] at hold
      subst hold
      exact ⟨new, getElem?_set_slot_self hsession new, hown.act hact hallowed⟩
  | settled _ hsettle => exact absurd hcontrol (settle_ends hsettle index)
  | other hforeign hnext =>
      obtain ⟨session, hsession, hown⟩ := h index hcontrol
      change _ = Control.running index at hcontrol
      subst hcontrol
      simp only [foreign, decide_eq_true_eq] at hforeign
      exact ⟨session, Sessions.session_of_next hnext hforeign hsession, hown⟩
  | _ => simp at hcontrol

/-- The session of the attempt belongs to the loop in every run. -/
theorem Exec.attended {start : Maintenance} (hstart : Attended config start)
    (h : Exec display codec decode config start log state) : Attended config state :=
  Execution.Exec.invariant h hstart fun hattended hnext ↦ hattended.step (change_of_next hnext)

/-- No attempt is under way at the call. -/
theorem Attended.new (sessions : Sessions) (cancelled : Bool) :
    Attended config (.new sessions cancelled) := by
  intro index hcontrol
  simp [Maintenance.new] at hcontrol

/-- What the session of the attempt returned, and that it holds no future then. -/
theorem Attended.session_of_result (h : Attended config state) {index : Nat}
    {result : SessionResult} (hcontrol : state.control = .running index)
    (hresult : sessionResult state.sessions index = some result) :
    ∃ session, state.sessions.sessions[index]? = some session ∧
      session.control = .returned result ∧ session.task = none ∧
      Own config.consumer state.cancelled session := by
  obtain ⟨session, hsession, hown⟩ := h index hcontrol
  simp only [sessionResult, hsession, Option.bind_some] at hresult
  have hreturned : session.control = .returned result := by
    split at hresult
    · next found heq => rw [heq, Option.some.inj hresult]
    · simp at hresult
  refine ⟨session, hsession, hreturned, ?_, hown⟩
  by_contra hinside
  have hnone := hown.inside (Option.isSome_iff_ne_none.mpr hinside)
  simp [hreturned, Control.ended] at hnone

/-! ## Events and summary -/

/-- The session ended by cancellation. -/
def endedByCancellation : SessionResult → Bool
  | .error error => error = .cancelled
  | .ok outcome => outcome.pathEnd = .cancelled

/-- The event of a result that is counted. -/
def report (display : ConsumerError → String) (attempt : Nat) : SessionResult → ConsumerEvent
  | .ok outcome => .pathEnded attempt outcome
  | .error error => .attemptFailed attempt (display error)

/-- The events of attempts from the first on that have these results, newest first. -/
def rounds (display : ConsumerError → String) : List SessionResult → List ConsumerEvent
  | [] => []
  | result :: earlier => report display (earlier.length + 1) result ::
      .attemptStarted (earlier.length + 1) :: rounds display earlier

/-- The start of an attempt that has no result. -/
def unfinished (attempt : Nat) : Bool → List ConsumerEvent
  | true => [.attemptStarted attempt]
  | false => []

/-- The event after the loop. -/
def farewell (state : Maintenance) : List ConsumerEvent :=
  if state.control = .returned then [.stopped state.summary] else []

/-- The summary of attempts that have these results, and possibly one that has none. -/
def tally (results : List SessionResult) (pending : Bool) : ConsumerSummary :=
  ⟨results.length + pending.toNat, results.countP (·.isOk), results.countP (!·.isOk)⟩

/-- Where the loop is when its last attempt has a result, or has none (`true`). -/
def Control.Pends : Control → Bool → Prop
  | .checking, pending | .starting, pending | .sleeping _, pending => pending = false
  | .running _, pending => pending = true
  | .stopping, _ | .returned, _ => True

/-- A loop against its log, for the results that it has counted. -/
structure Accounts (display : ConsumerError → String) (log : Log) (state : Maintenance)
    (results : List SessionResult) (pending : Bool) : Prop where
  events : events log =
    farewell state ++ unfinished (results.length + 1) pending ++ rounds display results
  summary : state.summary = tally results pending
  counted : ∀ result ∈ results, endedByCancellation result = false
  pending : state.control.Pends pending

/-- Nothing is counted at the call. -/
theorem Accounts.new (sessions : Sessions) (cancelled : Bool) :
    Accounts display [] (.new sessions cancelled) [] false where
  events := rfl
  summary := rfl
  counted := by simp
  pending := rfl

/-- The events of a log with one more step. -/
theorem events_cons : events ((op, out) :: log) = out.event.toList ++ events log := by
  cases hevent : out.event with
  | none => exact List.filterMap_cons_none hevent
  | some event => exact List.filterMap_cons_some hevent

/-- A step without an event keeps the accounts, when the loop has not returned. -/
theorem Accounts.silent {results : List SessionResult} {pending : Bool}
    (h : Accounts display log state results pending) (hevent : out.event = none)
    (hsummary : following.summary = state.summary) (hfarewell : farewell following = farewell state)
    (hpends : following.control.Pends pending) :
    Accounts display ((op, out) :: log) following results pending where
  events := by
    rw [events_cons, hevent, hfarewell]
    exact h.events
  summary := hsummary.trans h.summary
  counted := h.counted
  pending := hpends

/-- The loop is left without a result of the attempt, or the result is counted. -/
theorem settle_cases (display : ConsumerError → String) (retryDelay : Duration) (cancelled : Bool)
    (summary : ConsumerSummary) (result : SessionResult) :
    (settle display retryDelay cancelled summary result = (none, summary, .stopping)) ∨
      (endedByCancellation result = false ∨ result = .error .cancelled ∧ cancelled = false) ∧
        ∃ control, settle display retryDelay cancelled summary result =
          (some (report display summary.attempts result),
            ⟨summary.attempts, summary.completedPaths + result.isOk.toNat,
              summary.failedAttempts + (!result.isOk).toNat⟩, control) ∧
          control.Pends false ∧ control ≠ .returned := by
  cases result with
  | ok outcome =>
      by_cases hend : outcome.pathEnd = .cancelled
      · exact .inl (by simp [settle, hend])
      · exact .inr ⟨.inl (by simp [endedByCancellation, hend]), .checking,
          by simp [settle, hend, report, Except.isOk, Except.toBool], rfl, by simp⟩
  | error error =>
      cases cancelled with
      | true => exact .inl rfl
      | false =>
          refine .inr ⟨?_, .sleeping retryDelay,
            by simp [settle, report, Except.isOk, Except.toBool], rfl, by simp⟩
          by_cases herror : error = .cancelled
          · exact .inr ⟨by rw [herror], rfl⟩
          · exact .inl (by simp [endedByCancellation, herror])

/-- Every step keeps the accounts, for the results counted so far. -/
theorem Accounts.step {results : List SessionResult} {pending : Bool}
    (h : Accounts display log state results pending) (hattended : Attended config state)
    (hchange : Change display codec decode config state op out following) :
    ∃ results pending, Accounts display ((op, out) :: log) following results pending := by
  cases hchange with
  | cancel => exact ⟨results, pending, h.silent rfl rfl rfl h.pending⟩
  | go => exact ⟨results, pending, h.silent rfl rfl rfl h.pending⟩
  | give => exact ⟨results, pending, h.silent rfl rfl rfl trivial⟩
  | woke => exact ⟨results, pending, h.silent rfl rfl rfl h.pending⟩
  | interrupted => exact ⟨results, pending, h.silent rfl rfl rfl trivial⟩
  | session => exact ⟨results, pending, h.silent rfl rfl rfl h.pending⟩
  | other => exact ⟨results, pending, h.silent rfl rfl rfl h.pending⟩
  | @start sessions cancelled summary _ _ _ =>
      obtain rfl : pending = false := h.pending
      obtain rfl : summary = tally results false := h.summary
      refine ⟨results, true, ?_, ?_, h.counted, rfl⟩
      · rw [events_cons, h.events]
        rfl
      · rfl
  | @stop sessions cancelled summary =>
      refine ⟨results, pending, ?_, h.summary, h.counted, trivial⟩
      rw [events_cons, h.events]
      rfl
  | @settled sessions cancelled summary index result event counted control hresult hsettle =>
      obtain rfl : pending = true := h.pending
      obtain rfl : summary = tally results true := h.summary
      obtain hgiven | ⟨hcounted, settled, hreport, hpends, hloops⟩ :=
        settle_cases display config.retryDelay cancelled (tally results true) result
      · rw [hgiven, Prod.mk.injEq, Prod.mk.injEq] at hsettle
        obtain ⟨rfl, rfl, rfl⟩ := hsettle
        exact ⟨results, true, h.silent rfl rfl rfl trivial⟩
      · rw [hreport, Prod.mk.injEq, Prod.mk.injEq] at hsettle
        obtain ⟨rfl, rfl, rfl⟩ := hsettle
        obtain ⟨session, _, hreturned, _, hown⟩ := hattended.session_of_result rfl hresult
        -- `Cancelled` is returned only under a cancelled token
        have hother : endedByCancellation result = false := by
          obtain hother | ⟨rfl, rfl⟩ := hcounted
          · exact hother
          · exact absurd (hown.ended (by rw [hreturned]; rfl)) (by simp)
        refine ⟨result :: results, false, ?_, ?_, ?_, hpends⟩
        · rw [events_cons, h.events]
          simp [farewell, hloops, Out.own, unfinished, rounds, tally]
        · simp only [tally, List.length_cons, List.countP_cons, Bool.toNat_true, Bool.toNat_false,
            Nat.add_zero]
          cases result.isOk <;> rfl
        · intro other hmem
          rcases List.mem_cons.mp hmem with rfl | hold
          · exact hother
          · exact h.counted other hold

/-- The accounts hold in every run. -/
theorem Exec.accounts {sessions : Sessions} {cancelled : Bool}
    (h : Exec display codec decode config (.new sessions cancelled) log state) :
    ∃ results pending, Accounts display log state results pending := by
  induction h with
  | refl => exact ⟨[], false, .new sessions cancelled⟩
  | snoc hexec hnext ih =>
      obtain ⟨results, pending, haccounts⟩ := ih
      exact haccounts.step (Exec.attended (.new sessions cancelled) hexec) (change_of_next hnext)

/-- The event starts an attempt. -/
def isStart : ConsumerEvent → Bool
  | .attemptStarted _ => true
  | _ => false

/-- The event ends a path. -/
def isEnded : ConsumerEvent → Bool
  | .pathEnded _ _ => true
  | _ => false

/-- The event reports a failure. -/
def isFailed : ConsumerEvent → Bool
  | .attemptFailed _ _ => true
  | _ => false

/-- The events of attempts with results start, end and fail as many. -/
theorem countP_rounds (display : ConsumerError → String) (results : List SessionResult) :
    (rounds display results).countP isStart = results.length ∧
      (rounds display results).countP isEnded = results.countP (·.isOk) ∧
      (rounds display results).countP isFailed = results.countP (!·.isOk) := by
  induction results with
  | nil => exact ⟨rfl, rfl, rfl⟩
  | cons result results ih =>
      obtain ⟨hstarts, hended, hfailed⟩ := ih
      cases result <;>
      simp [rounds, report, List.countP_cons, hstarts, hended, hfailed, isStart, isEnded, isFailed,
        Except.isOk, Except.toBool]

/-- The summary counts the events. -/
theorem Accounts.counts {results : List SessionResult} {pending : Bool}
    (h : Accounts display log state results pending) :
    state.summary = ⟨(Maintenance.events log).countP isStart,
      (Maintenance.events log).countP isEnded, (Maintenance.events log).countP isFailed⟩ := by
  obtain ⟨hstarts, hended, hfailed⟩ := countP_rounds display results
  have hfarewell : (farewell state).countP isStart = 0 ∧ (farewell state).countP isEnded = 0 ∧
      (farewell state).countP isFailed = 0 := by
    unfold farewell
    split <;> exact ⟨rfl, rfl, rfl⟩
  rw [h.summary, h.events]
  simp only [List.countP_append, hfarewell, hstarts, hended, hfailed, tally]
  cases pending <;> simp [unfinished, isStart, isEnded, isFailed, Nat.add_comm]

/-- All attempts but an unfinished one were completed or failed. -/
theorem length_eq_counts (results : List SessionResult) :
    results.length = results.countP (·.isOk) + results.countP (!·.isOk) := by
  rw [List.length_eq_countP_add_countP (·.isOk)]
  simp

/-! ## Addresses -/

/-- The addresses that the attempt under way may still allocate. -/
def remaining (state : Maintenance) : Nat :=
  (state.current.map Session.remaining).getD 0

/-- A session that drops its `Arc` calls nothing. -/
theorem countP_release (old new : Session) :
    (Sessions.release old new).countP Endpoint.Op.isAllocate = 0 := by
  unfold Sessions.release
  split <;> rfl

/-- The steps of a session allocate no more addresses than it may still allocate. -/
theorem allocations_of_act {sessions : Sessions} {index : Nat} {move : Sessions.Op}
    {old new : Session} {ops : List Endpoint.Op} {performed : Endpoint.Log} {endpoint : Endpoint}
    (hact : Sessions.Act codec sessions index move old new ops)
    (hrun : Execution.run (Endpoint.next decode) ops ([], sessions.endpoint) =
      some (performed, endpoint)) :
    (Endpoint.allocations performed).length + new.remaining ≤ old.remaining := by
  unfold Session.remaining
  have hcalls := Endpoint.allocations_of_run hrun
  rw [show Endpoint.allocations [] = [] from rfl, List.length_nil, Nat.zero_add] at hcalls
  have hkeeps (hspent : old.control.spent = true → new.control.spent = true) :
      (!new.control.spent).toNat ≤ (!old.control.spent).toNat := by
    cases hold : old.control.spent with
    | false => exact Bool.toNat_le _
    | true => simp [hspent hold]
  cases hact with
  | step hnext =>
      rw [countP_release] at hcalls
      have := hkeeps (Control.spent_of_next hnext)
      omega
  | allocate hnext =>
      rw [List.countP_cons_of_pos rfl, countP_release] at hcalls
      obtain ⟨hbefore, hafter⟩ := Control.spent_of_allocated hnext
      simp only [hbefore, hafter, Bool.not_false, Bool.not_true, Bool.toNat_true,
        Bool.toNat_false]
      omega
  | leave _ hnext =>
      have := hkeeps (Control.spent_of_next hnext)
      rw [List.countP_cons_of_neg (by simp [Endpoint.Op.isAllocate]), List.countP_nil] at hcalls
      omega
  | enter | path | interrupt =>
      rw [List.countP_cons_of_neg (by simp [Endpoint.Op.isAllocate]), List.countP_nil] at hcalls
      have := hkeeps id
      omega

/-- A step allocates an address only when the attempt may still do so, and every attempt starts with
one. -/
theorem Change.addresses_le (hattended : Attended config state)
    (h : Change display codec decode config state op out following) :
    (addresses [(op, out)]).length + remaining following ≤ op.starts.toNat + remaining state := by
  unfold remaining
  cases h with
  | cancel => exact Nat.le_refl _
  | start hnext =>
      obtain ⟨_, _, rfl⟩ := Sessions.start_of_next hnext
      rw [current_of_running rfl List.getElem?_concat_length]
      exact Nat.le_add_right 1 _
  | @session sessions cancelled summary index move performed moved hop _ hnext =>
      obtain ⟨old, new, ops, endpoint, hold, hact, hrun, rfl⟩ := Sessions.act_of_next hnext hop
      rw [current_of_running rfl (getElem?_set_slot_self hold new), current_of_running rfl hold]
      have hle := allocations_of_act hact hrun
      simpa [addresses, Op.starts] using hle
  | settled _ hsettle =>
      rw [current_of_idle (settle_ends hsettle)]
      exact Nat.zero_le _
  | @other sessions cancelled summary control move performed moved hforeign hnext =>
      cases control with
      | running index =>
          obtain ⟨session, hsession, _⟩ := hattended index rfl
          simp only [foreign, decide_eq_true_eq] at hforeign
          have hkept := Sessions.session_of_next hnext hforeign hsession
          rw [current_of_running rfl hkept, current_of_running rfl hsession]
          exact Nat.le_refl _
      | _ => exact Nat.zero_le _
  | _ => exact Nat.zero_le _

/-- A part of a run allocates no more addresses than it starts attempts, and one more if an attempt
is under way at its start. -/
theorem Exec.addresses_le {start : Maintenance} (hattended : Attended config start)
    (h : Exec display codec decode config start log state) :
    (addresses log).length + remaining state ≤ log.countP (·.1.starts) + remaining start := by
  induction h with
  | refl => exact Nat.le_refl _
  | @snoc log _ _ op out hexec hnext ih =>
      have hstep := (change_of_next hnext).addresses_le (Exec.attended hattended hexec)
      have hlog : addresses ((op, out) :: log) = addresses [(op, out)] ++ addresses log := by
        simp [addresses]
      have hcount : List.countP (·.1.starts) ((op, out) :: log) =
          log.countP (·.1.starts) + op.starts.toNat := by
        rw [List.countP_cons]
        cases op.starts <;> rfl
      rw [hlog, hcount, List.length_append]
      omega

/-! ## Routes -/

/-- The future that the session of the attempt is in. -/
def task (state : Maintenance) : Option Nat :=
  state.current.bind Session.task

/-- The routes of a socket are those of a base, and that of one future if there is one. -/
inductive RoutesOver (base : SocketAddr → Option PathId) (endpoint : Endpoint) :
    Option Nat → Prop where
  | outside (hroutes : ∀ remote, endpoint.paths.socket.routes.get remote = base remote) :
      RoutesOver base endpoint none
  | inside {task path} (hheld : endpoint.paths.holders[task]? = some (path, true))
      (hfresh : base path.remote = none)
      (hroutes : ∀ remote, endpoint.paths.socket.routes.get remote =
        if remote = path.remote then some path else base remote) :
      RoutesOver base endpoint (some task)

variable {base : SocketAddr → Option PathId} {endpoint moved : Endpoint} {held : Option Nat}

/-- Steps that keep the routes and the futures keep what the routes are over. -/
theorem RoutesOver.keep (h : RoutesOver base endpoint held)
    (hkept : moved.paths.holders = endpoint.paths.holders ∧
      ∀ remote, moved.paths.socket.routes.get remote =
        endpoint.paths.socket.routes.get remote) : RoutesOver base moved held := by
  obtain ⟨hholders, hsame⟩ := hkept
  cases h with
  | outside hroutes => exact .outside fun remote ↦ (hsame remote).trans (hroutes remote)
  | inside hheld hfresh hroutes =>
      refine .inside ?_ hfresh fun remote ↦ (hsame remote).trans (hroutes remote)
      rw [hholders]
      exact hheld

section Runs

variable {localAddr : SocketAddr} {mtu queueCapacity : Nat} {socket : Socket}
  {history performed : Endpoint.Log}
  (hstart : Socket.withOptions localAddr mtu queueCapacity = some socket)

include hstart

/-- A future that starts at an allocated address adds its route. -/
theorem RoutesOver.enter (hexec : Endpoint.Exec decode (.new socket) history endpoint)
    {remote : SocketAddr} {capacity : Nat} (h : RoutesOver base endpoint none)
    (hrun : Execution.run (Endpoint.next decode) [.start remote capacity] ([], endpoint) =
      some (performed, moved)) :
    RoutesOver base moved (some endpoint.paths.tasks.length) := by
  simp only [Execution.run, Option.bind_eq_some_iff, Option.some.injEq, Prod.mk.injEq] at hrun
  obtain ⟨⟨out, reached⟩, hnext, _, rfl⟩ := hrun
  obtain ⟨hnone, hholders, hroutes⟩ := (Endpoint.change_of_next hnext).routes_of_start
    (Endpoint.Exec.addressing hstart hexec) (Endpoint.Exec.handles hstart hexec)
  have hheld : reached.paths.holders[endpoint.paths.tasks.length]? =
      some (endpoint.newPath remote, true) := by
    rw [hholders, show endpoint.paths.tasks.length = endpoint.paths.holders.length by
      simp [ConsumerPath.Paths.holders]]
    exact List.getElem?_concat_length
  cases h with
  | outside hbase =>
      refine .inside hheld ((hbase remote).symm.trans hnone) fun other ↦ ?_
      rw [hroutes, hbase]
      rfl

/-- The future that leaves takes its route away, and the routes are those of the base again. -/
theorem RoutesOver.leave (hexec : Endpoint.Exec decode (.new socket) history endpoint)
    {index : Nat} (h : RoutesOver base endpoint (some index))
    (hrun : Execution.run (Endpoint.next decode) [.path (.leave index)] ([], endpoint) =
      some (performed, moved)) : RoutesOver base moved none := by
  simp only [Execution.run, Option.bind_eq_some_iff, Option.some.injEq, Prod.mk.injEq] at hrun
  obtain ⟨⟨out, _⟩, hnext, _, rfl⟩ := hrun
  obtain ⟨path, hpath, hroutes⟩ := (Endpoint.change_of_next hnext).routes_of_leave
    (Endpoint.Exec.addressing hstart hexec) (Endpoint.Exec.lifetime hstart hexec)
  cases h with
  | inside hheld hfresh hover =>
      rw [hheld, Option.some.injEq, Prod.mk.injEq] at hpath
      obtain ⟨rfl, _⟩ := hpath
      refine .outside fun remote ↦ ?_
      rw [hroutes, hover]
      split
      · next heq => rw [heq, hfresh]
      · rfl

/-- A step of the session of the attempt keeps the routes over the base. -/
theorem RoutesOver.act {sessions : Sessions} {index : Nat} {move : Sessions.Op} {old new : Session}
    {ops : List Endpoint.Op}
    (hexec : Endpoint.Exec decode (.new socket) history sessions.endpoint)
    (h : RoutesOver base sessions.endpoint old.task)
    (hact : Sessions.Act codec sessions index move old new ops)
    (hrun : Execution.run (Endpoint.next decode) ops ([], sessions.endpoint) =
      some (performed, moved)) : RoutesOver base moved new.task := by
  have hquiet (hinside : new.inside = old.inside) :=
    Endpoint.Exec.routes_of_run hstart hexec hrun
      (fun op hmem ↦ (hact.quiet hinside op hmem).1) fun op hmem ↦ (hact.quiet hinside op hmem).2
  cases hact with
  | step => exact h.keep (hquiet rfl)
  | allocate => exact h.keep (hquiet rfl)
  | path => exact h.keep (hquiet rfl)
  | interrupt => exact h.keep (hquiet rfl)
  | enter => exact RoutesOver.enter hstart hexec h hrun
  | leave => exact RoutesOver.leave hstart hexec h hrun

/-- A step that no other session makes keeps the routes over the base. -/
theorem Change.routes (hexec : Endpoint.Exec decode (.new socket) history state.sessions.endpoint)
    (hattended : Attended config state)
    (hover : RoutesOver base state.sessions.endpoint state.task)
    (h : Change display codec decode config state op out following) (hop : op.disturbs = false) :
    RoutesOver base following.sessions.endpoint following.task := by
  have hembedder {embedded : VirtualUdp.Op} {log : Endpoint.Log} {moved : Endpoint}
      (hrun : Execution.run (Endpoint.next decode) [.embedder embedded]
        ([], state.sessions.endpoint) = some (log, moved)) :=
    Endpoint.Exec.routes_of_run hstart hexec hrun (by simp [Endpoint.Op.starts])
      (by simp [Endpoint.Op.leaves])
  unfold task at hover ⊢
  cases h with
  | start hnext =>
      obtain ⟨_, hrun, rfl⟩ := Sessions.start_of_next hnext
      rw [current_of_running rfl List.getElem?_concat_length]
      exact hover.keep (hembedder hrun)
  | @session sessions cancelled summary index _ _ _ hmove _ hnext =>
      obtain ⟨old, new, ops, endpoint, hold, hact, hrun, rfl⟩ := Sessions.act_of_next hnext hmove
      rw [current_of_running rfl hold] at hover
      rw [current_of_running rfl (getElem?_set_slot_self hold new)]
      exact RoutesOver.act hstart hexec hover hact hrun
  | settled hresult hsettle =>
      obtain ⟨session, hsession, _, htask, _⟩ := hattended.session_of_result rfl hresult
      rw [current_of_running rfl hsession, Option.bind_some, htask] at hover
      rw [current_of_idle (settle_ends hsettle)]
      exact hover
  | @other _ _ _ _ move _ _ _ hnext =>
      cases move with
      | embedder embedded =>
          obtain ⟨_, hrun, rfl⟩ := Sessions.embedder_of_next hnext
          exact hover.keep (hembedder hrun)
      | _ => simp [Op.disturbs] at hop
  | _ => exact hover

/-- A part of a run that no other session disturbs keeps the routes over the base. -/
theorem Exec.routes {start : Maintenance} {prior : Sessions.Log}
    (hprior : Sessions.Exec codec decode (.new socket) prior start.sessions)
    (hattended : Attended config start)
    (h : Exec display codec decode config start log state)
    (hquiet : ∀ entry ∈ log, entry.1.disturbs = false)
    (hover : RoutesOver base start.sessions.endpoint start.task) :
    RoutesOver base state.sessions.endpoint state.task := by
  induction h with
  | refl => exact hover
  | snoc hexec hnext ih =>
      have hsessions := Execution.Exec.trans hprior (Exec.sessions hexec)
      have hbefore := ih fun entry hmem ↦ hquiet entry (List.mem_cons_of_mem _ hmem)
      exact (change_of_next hnext).routes hstart (Sessions.Exec.endpoint hsessions)
        (Exec.attended hattended hexec) hbefore (hquiet _ List.mem_cons_self)

end Runs

/-- Between two attempts no future runs for the loop, and it allocates nothing. -/
theorem Attended.at_rest (h : Attended config state) (hrest : state.attempting = false) :
    state.task = none ∧ remaining state = 0 := by
  unfold task remaining
  cases hcontrol : state.control with
  | running index =>
      simp only [attempting, hcontrol, Option.isNone_eq_false_iff] at hrest
      obtain ⟨result, hresult⟩ := Option.isSome_iff_exists.mp hrest
      obtain ⟨session, hsession, hreturned, htask, _⟩ := h.session_of_result hcontrol hresult
      rw [current_of_running hcontrol hsession]
      exact ⟨htask, by simp [Session.remaining, hreturned, Control.spent]⟩
  | _ =>
      rw [current_of_idle (by simp [hcontrol])]
      exact ⟨rfl, rfl⟩

/-! ## Ice messages -/

/-- A session of the loop posts Ice messages with the identifier of the loop. -/
theorem Change.ice (hattended : Attended config state)
    (h : Change display codec decode config state op out following) {sendTo payload : String}
    (hpost : out.effect = .post sendTo .ice payload) :
    ∃ candidates, codec.encodeIce ⟨candidates, config.consumer.consumerSessionId⟩ =
      .ok payload := by
  cases h with
  | @session sessions _ _ index move _ _ hmove _ _ =>
      obtain ⟨session, hsession, hown⟩ := hattended index rfl
      simp only [Sessions.effect, hmove, Option.bind_some, hsession] at hpost
      split at hpost
      · next found input hfound _ =>
        obtain rfl := Option.some.inj hfound
        cases hnext : session.control.next codec session.config input with
        | none => simp [hnext] at hpost
        | some step =>
            simp only [hnext, Option.map_some, Option.getD_some] at hpost
            rw [← hown.config]
            exact Control.ice_of_next (hnext.trans (congrArg some (Prod.ext hpost rfl)))
      · simp at hpost
  | _ => simp [Out.own] at hpost

/-- Every Ice message of a run has the identifier of the loop. -/
theorem Exec.ice {start : Maintenance} (hattended : Attended config start)
    (h : Exec display codec decode config start log state) :
    ∀ entry ∈ log, ∀ sendTo payload, entry.2.effect = .post sendTo .ice payload →
      ∃ candidates, codec.encodeIce ⟨candidates, config.consumer.consumerSessionId⟩ =
        .ok payload := by
  induction h with
  | refl => simp
  | snoc hexec hnext ih =>
      intro entry hmem sendTo payload hpost
      rcases List.mem_cons.mp hmem with rfl | hold
      · exact (change_of_next hnext).ice (Exec.attended hattended hexec) hpost
      · exact ih entry hold sendTo payload hpost

/-! ## Whole runs -/

/-- The event is a `Stopped`. -/
def isStopped : ConsumerEvent → Bool
  | .stopped _ => true
  | _ => false

/-- Attempts report no `Stopped`. -/
theorem filter_isStopped_rounds (results : List SessionResult) :
    (rounds display results).filter isStopped = [] := by
  induction results with
  | nil => rfl
  | cons result results ih => cases result <;> simpa [rounds, report, isStopped] using ih

/-- The last event is the only `Stopped`. -/
theorem Accounts.filter_isStopped {results : List SessionResult} {pending : Bool}
    (h : Accounts display log state results pending) :
    (Maintenance.events log).filter isStopped = farewell state := by
  have hfarewell : (farewell state).filter isStopped = farewell state := by
    unfold farewell
    split <;> rfl
  have hunfinished : (unfinished (results.length + 1) pending).filter isStopped = [] := by
    cases pending <;> rfl
  rw [h.events, List.filter_append, List.filter_append, hfarewell, hunfinished,
    filter_isStopped_rounds, List.append_nil, List.append_nil]

/-- A session that ended by cancellation is not counted, and the loop is left. -/
theorem Attended.settle_of_cancelled (h : Attended config state)
    (display : ConsumerError → String) {index : Nat} {result : SessionResult}
    (hcontrol : state.control = .running index)
    (hresult : sessionResult state.sessions index = some result)
    (hcancelled : endedByCancellation result = true) :
    settle display config.retryDelay state.cancelled state.summary result =
      (none, state.summary, .stopping) := by
  cases result with
  | ok outcome =>
      simp only [endedByCancellation, decide_eq_true_eq] at hcancelled
      simp [settle, hcancelled]
  | error error =>
      simp only [endedByCancellation, decide_eq_true_eq] at hcancelled
      subst hcancelled
      obtain ⟨session, _, hreturned, _, hown⟩ := h.session_of_result hcontrol hresult
      have htoken := hown.ended (by rw [hreturned]; rfl)
      simp [settle, htoken]

/-- For every run of `maintain_consumer`, on a socket that other sessions have used and may use,
with the token cancelled at any step. The events are pairs of an `AttemptStarted` and the result of
the attempt, numbered from 1 on, then at most one `AttemptStarted` without a result, and one
`Stopped` with the summary once the loop has returned. The summary counts these events, and at most
one attempt is neither completed nor failed. A result by cancellation is not counted and ends the
loop. Every Ice message carries the one session identifier of the configuration. And in every part
of a run that starts between two attempts, no more addresses are allocated than attempts are
started; if no other session takes a step and the part ends between two attempts, every route is
what it was. -/
theorem maintain_consumer_runs {localAddr : SocketAddr} {mtu queueCapacity : Nat} {socket : Socket}
    (hstart : Socket.withOptions localAddr mtu queueCapacity = some socket)
    {prior : Sessions.Log} {sessions : Sessions}
    (hprior : Sessions.Exec codec decode (.new socket) prior sessions) {cancelled : Bool}
    (h : Exec display codec decode config (.new sessions cancelled) log state) :
    (∃ results pending,
      events log =
        farewell state ++ unfinished (results.length + 1) pending ++ rounds display results ∧
      (∀ result ∈ results, endedByCancellation result = false) ∧ state.control.Pends pending) ∧
    (events log).filter isStopped = farewell state ∧
    state.summary =
      ⟨(events log).countP isStart, (events log).countP isEnded, (events log).countP isFailed⟩ ∧
    (state.summary.attempts = state.summary.completedPaths + state.summary.failedAttempts ∨
      state.summary.attempts = state.summary.completedPaths + state.summary.failedAttempts + 1) ∧
    (∀ index result out following, state.control = .running index →
      sessionResult state.sessions index = some result → endedByCancellation result = true →
      next display codec decode config state .examine = some (out, following) →
      out.event = none ∧ following.summary = state.summary ∧ following.control = .stopping) ∧
    (∀ entry ∈ log, ∀ sendTo payload, entry.2.effect = .post sendTo .ice payload →
      ∃ candidates, codec.encodeIce ⟨candidates, config.consumer.consumerSessionId⟩ =
        .ok payload) ∧
    (state.attempting = false → ∀ later closed,
      Exec display codec decode config state later closed →
      (addresses later).length ≤ later.countP (·.1.starts) ∧
      ((∀ entry ∈ later, entry.1.disturbs = false) → closed.attempting = false →
        ∀ remote, closed.route remote = state.route remote)) := by
  obtain ⟨results, pending, haccounts⟩ := Exec.accounts h
  have hattended : Attended config state := Exec.attended (.new sessions cancelled) h
  refine ⟨⟨results, pending, haccounts.events, haccounts.counted, haccounts.pending⟩,
    haccounts.filter_isStopped, haccounts.counts, ?_, ?_,
    Exec.ice (.new sessions cancelled) h, ?_⟩
  · have hlength := length_eq_counts results
    rw [haccounts.summary]
    cases pending with
    | false => exact .inl hlength
    | true => exact .inr (congrArg (· + 1) hlength)
  · intro index result out following hcontrol hresult hcancelled hnext
    obtain ⟨sessions, token, summary, control⟩ := state
    change control = .running index at hcontrol
    subst hcontrol
    have hsettle := hattended.settle_of_cancelled display rfl hresult hcancelled
    simp only [next, hresult, hsettle, Option.map_some, Option.some.injEq, Prod.mk.injEq] at hnext
    obtain ⟨rfl, rfl⟩ := hnext
    exact ⟨rfl, rfl, rfl⟩
  · intro hrest later closed hlater
    obtain ⟨htask, hremaining⟩ := hattended.at_rest hrest
    have hclosed := Exec.attended hattended hlater
    constructor
    · have hle := Exec.addresses_le hattended hlater
      omega
    · intro hquiet hclosedRest remote
      have hsessions := Execution.Exec.trans hprior (Exec.sessions h)
      have hbefore : RoutesOver state.route state.sessions.endpoint state.task := by
        rw [htask]
        exact .outside fun _ ↦ rfl
      have hafter := Exec.routes hstart hsessions hattended hlater hquiet hbefore
      rw [(hclosed.at_rest hclosedRest).1] at hafter
      cases hafter with
      | outside hroutes => exact hroutes remote

/-- A loop whose first attempt fails at once, and whose second is cancelled inside
`run_consumer_path`: it counts two attempts, one of them failed, and leaves no route. -/
theorem maintain_consumer_runs_of_cancelled_path :
    ∃ socket log state, Socket.withOptions (.v4 0 0) 1200 8 = some socket ∧
      Exec (fun _ ↦ "failed") .plain (fun _ ↦ .error "") ⟨⟨"session", "", 8⟩, .oneMilli⟩
        (.new (.new socket) false) log state ∧
      state.control = .returned ∧ state.summary = ⟨2, 0, 1⟩ ∧
      events log = [.stopped ⟨2, 0, 1⟩, .attemptStarted 2, .attemptFailed 1 "failed",
        .attemptStarted 1] ∧
      (addresses log).length = 1 ∧
      ∀ remote, state.route remote = socket.routes.get remote := by
  have hrun : Execution.run (next (fun _ ↦ "failed") .plain (fun _ ↦ .error "")
      ⟨⟨"session", "", 8⟩, .oneMilli⟩)
      [.check, .start, .session (.step 0 (.connected (.error "refused"))), .examine, .woke, .check,
        .start, .session (.step 1 (.connected (.ok ()))),
        .session (.step 1 (.channelCreated (.ok ()))), .session (.step 1 (.subscribed (.ok ()))),
        .session (.step 1 (.advertised (.ok (some ⟨"peer", .genesis, ""⟩)))),
        .session (.step 1 .patienceOver), .session (.step 1 (.chosen 0)),
        .session (.step 1 (.offerCreated (.ok ⟨.offer, ""⟩))),
        .session (.step 1 (.replied (.ok (some ⟨"peer", .answer, ""⟩)))),
        .session (.step 1 .promised), .session (.step 1 (.localSet (.ok ()))),
        .session (.step 1 (.remoteSet (.ok ()))), .session (.step 1 (.gathered [])),
        .session (.step 1 (.replied (.ok none))), .session (.step 1 (.waited .opened)),
        .session (.allocate 1), .session (.enter 1), .cancel,
        .session (.path 1 (.poll 0 true .pending)), .session (.leave 1),
        .session (.step 1 .closed), .examine, .stop]
      ([], .new (.new ((Socket.withOptions (.v4 0 0) 1200 8).get rfl)) false) =
      some (_, _) := rfl
  have hstart : Socket.withOptions (.v4 0 0) 1200 8 = some _ := (Option.some_get rfl).symm
  have hexec : Exec _ _ _ _ _ _ _ := Execution.exec_of_run hrun
  refine ⟨_, _, _, hstart, hexec, rfl, rfl, rfl, rfl, fun remote ↦ ?_⟩
  have hpart := (maintain_consumer_runs hstart .refl .refl).2.2.2.2.2.2 rfl _ _ hexec
  refine hpart.2 (fun entry hmem ↦ ?_) rfl remote
  have hall := List.all_eq_true.mp
    (rfl : List.all _ (fun entry : Op × Out ↦ !entry.1.disturbs) = true) entry hmem
  simpa using hall

end Maintenance

end Unbounded.Consumer
