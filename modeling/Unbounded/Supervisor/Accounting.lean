import Unbounded.Supervisor.Supervise

/-!
# What a supervisor reports and counts

The events of a supervisor are pairs of an `AttemptStarted` and a result, with consecutive numbers,
and a `Stopped` at the end (`Attempts`). At most one attempt has no result: the last one, when its
session returned an error and the token was already cancelled as the error was examined
(`abandoned`). `accounting` says so for every run, and that the summary counts exactly these events.
`Remaining` bounds what a supervisor still does once its token is cancelled.
-/

namespace Unbounded.Supervisor.Supervision

open Execution (restrict)
open PeerProxy (PeerProxyError SessionResult)

/-! ## Reading a log -/

/-- The event starts an attempt. -/
def isStart : SupervisorEvent → Bool
  | .attemptStarted _ => true
  | _ => false

/-- The event ends a session. -/
def isEnded : SupervisorEvent → Bool
  | .sessionEnded _ _ _ _ => true
  | _ => false

/-- The event reports a failure. -/
def isFailed : SupervisorEvent → Bool
  | .attemptFailed _ _ _ _ => true
  | _ => false

/-- The event is a `Stopped`. -/
def isStopped : SupervisorEvent → Bool
  | .stopped _ => true
  | _ => false

/-- Attempts from the first on, each with its result, newest first. -/
inductive Attempts : Nat → List SupervisorEvent → Prop where
  | none : Attempts 0 []
  | ended {count events outcome duration retryIn} (h : Attempts count events) :
      Attempts (count + 1) (.sessionEnded (count + 1) outcome duration retryIn ::
        .attemptStarted (count + 1) :: events)
  | failed {count events error duration retryIn} (h : Attempts count events) :
      Attempts (count + 1) (.attemptFailed (count + 1) error duration retryIn ::
        .attemptStarted (count + 1) :: events)

/-- The start of an attempt that has no result. -/
def unfinished (attempt : Nat) : Bool → List SupervisorEvent
  | true => [.attemptStarted attempt]
  | false => []

/-- The token is cancelled after a log, where `before` says whether it was so at the call. -/
def cancelledBy (before : Bool) (log : Log) : Bool :=
  before || log.any fun entry ↦ entry.1 = .cancel

/-- What the last session returned. -/
def lastResult : Log → Option SessionResult
  | [] => none
  | (.sessionReturned result _, _) :: _ => some result
  | _ :: log => lastResult log

/-- The last result that was examined was an error, and the token was already cancelled then. -/
def abandoned (before : Bool) : Log → Bool
  | [] => false
  | (.examine, _) :: log => cancelledBy before log && (lastResult log).any isErr
  | _ :: log => abandoned before log

variable {display : PeerProxyError → String} {before : Bool} {log : Log}
  {supervision following : Supervision}

/-- The events of a log with one more step. -/
theorem events_cons {op : Op} {event : Option SupervisorEvent} :
    events ((op, event) :: log) = event.toList ++ events log := by
  cases event <;> rfl

/-- Every attempt was started, and has one result. -/
theorem Attempts.counts {count : Nat} {events : List SupervisorEvent} (h : Attempts count events) :
    events.countP isStart = count ∧ events.countP isEnded + events.countP isFailed = count := by
  induction h with
  | none => exact ⟨rfl, rfl⟩
  | ended _ ih =>
      obtain ⟨hstarts, hresults⟩ := ih
      simp only [List.countP_cons, isStart, isEnded, isFailed, if_true, Bool.false_eq_true,
        if_false]
      omega
  | failed _ ih =>
      obtain ⟨hstarts, hresults⟩ := ih
      simp only [List.countP_cons, isStart, isEnded, isFailed, if_true, Bool.false_eq_true,
        if_false]
      omega

/-- Attempts have no `Stopped`. -/
theorem Attempts.filter_isStopped {count : Nat} {events : List SupervisorEvent}
    (h : Attempts count events) : events.filter isStopped = [] := by
  induction h with
  | none => rfl
  | ended _ ih => exact ih
  | failed _ ih => exact ih

/-! ## The summary -/

/-- The summary of a supervisor against its events, where the last attempt may be unfinished. -/
structure Tally (summary : SupervisorSummary) (pending : Bool) (events : List SupervisorEvent) :
    Prop where
  attempts : ∃ count body, events = unfinished (count + 1) pending ++ body ∧ Attempts count body ∧
    summary.attempts = count + pending.toNat
  completed : summary.completedSessions = events.countP isEnded
  failed : summary.failedAttempts = events.countP isFailed

/-- The summary stays in line with the events when an attempt is started. -/
theorem Tally.start {summary : SupervisorSummary} {events : List SupervisorEvent}
    (h : Tally summary false events) :
    Tally { summary with attempts := summary.attempts + 1 } true
      (.attemptStarted (summary.attempts + 1) :: events) := by
  obtain ⟨⟨count, body, rfl, hbody, hattempts⟩, hcompleted, hfailed⟩ := h
  have hcount : summary.attempts = count := hattempts
  refine ⟨⟨count, events, ?_, hbody, ?_⟩, hcompleted, hfailed⟩
  · rw [hcount]
    rfl
  · show summary.attempts + 1 = count + 1
    omega

/-- The summary stays in line with the events when the result of an attempt is counted and reported.
-/
theorem Tally.result {summary : SupervisorSummary} {events : List SupervisorEvent}
    (h : Tally summary true events) (result : SessionResult) (duration retryIn : Duration) :
    Tally (counted summary result) false
      (resultEvent display summary.attempts result duration retryIn :: events) := by
  obtain ⟨⟨count, body, rfl, hbody, hattempts⟩, hcompleted, hfailed⟩ := h
  have hcount : summary.attempts = count + 1 := hattempts
  cases result with
  | ok outcome =>
      refine ⟨⟨count + 1, _, rfl, ?_, hcount⟩, ?_, hfailed⟩
      · rw [resultEvent, hcount]
        exact .ended hbody
      · show summary.completedSessions + 1 = _
        rw [hcompleted]
        exact (List.countP_cons_of_pos rfl).symm
  | error error =>
      refine ⟨⟨count + 1, _, rfl, ?_, hcount⟩, hcompleted, ?_⟩
      · rw [resultEvent, hcount]
        exact .failed hbody
      · show summary.failedAttempts + 1 = _
        rw [hfailed]
        exact (List.countP_cons_of_pos rfl).symm

/-- The attempts are those that were started, and all but an unfinished one have a result. -/
theorem Tally.attempts_eq {summary : SupervisorSummary} {unended : Bool}
    {events : List SupervisorEvent} (h : Tally summary unended events) :
    summary.attempts = events.countP isStart ∧
      summary.attempts = summary.completedSessions + summary.failedAttempts + unended.toNat := by
  obtain ⟨⟨count, body, rfl, hbody, hattempts⟩, hcompleted, hfailed⟩ := h
  obtain ⟨hstarts, hresults⟩ := hbody.counts
  rw [List.countP_append] at hcompleted hfailed ⊢
  cases unended with
  | false =>
      simp only [unfinished, List.countP_nil, Bool.toNat_false] at hattempts hcompleted hfailed ⊢
      omega
  | true =>
      simp only [unfinished, List.countP_singleton, isStart, isEnded, isFailed, Bool.false_eq_true,
        if_true, if_false, Bool.toNat_true] at hattempts hcompleted hfailed ⊢
      omega

/-- There is no `Stopped` among the attempts, finished or not. -/
theorem Tally.filter_isStopped {summary : SupervisorSummary} {unended : Bool}
    {events : List SupervisorEvent} (h : Tally summary unended events) :
    events.filter isStopped = [] := by
  obtain ⟨⟨count, body, rfl, hbody, _⟩, _, _⟩ := h
  rw [List.filter_append, hbody.filter_isStopped]
  cases unended <;> rfl

/-- Events that report a summary: one `Stopped` has it, and it counts the others. -/
structure Reported (summary : SupervisorSummary) (events : List SupervisorEvent) : Prop where
  stopped : events.filter isStopped = [.stopped summary]
  attempts : summary.attempts = events.countP isStart
  completed : summary.completedSessions = events.countP isEnded
  failed : summary.failedAttempts = events.countP isFailed

/-- The order of the events does not matter. -/
theorem Reported.reverse {summary : SupervisorSummary} {events : List SupervisorEvent}
    (h : Reported summary events) : Reported summary events.reverse := by
  obtain ⟨hstopped, hattempts, hcompleted, hfailed⟩ := h
  constructor
  · rw [List.filter_reverse, hstopped]
    rfl
  · rw [List.countP_reverse, hattempts]
  · rw [List.countP_reverse, hcompleted]
  · rw [List.countP_reverse, hfailed]

/-- Events of another kind do not matter. -/
theorem Reported.of_filter {summary : SupervisorSummary} {events : List SupervisorEvent}
    {kept : SupervisorEvent → Bool} (h : Reported summary (events.filter kept))
    (hkept : ∀ event, isStart event || isEnded event || isFailed event || isStopped event →
      kept event = true) : Reported summary events := by
  have hsame : ∀ test : SupervisorEvent → Bool,
      (∀ event, test event = true → kept event = true) →
      (events.filter kept).filter test = events.filter test := by
    intro test htest
    rw [List.filter_filter]
    refine List.filter_congr fun event _ ↦ ?_
    cases hevent : test event with
    | false => rfl
    | true => exact htest event hevent
  have hcount : ∀ test : SupervisorEvent → Bool,
      (∀ event, test event = true → kept event = true) →
      (events.filter kept).countP test = events.countP test := by
    intro test htest
    rw [List.countP_eq_length_filter, List.countP_eq_length_filter, hsame test htest]
  obtain ⟨hstopped, hattempts, hcompleted, hfailed⟩ := h
  constructor
  · rw [← hsame isStopped fun event hevent ↦ hkept event (by simp [hevent])]
    exact hstopped
  · rw [← hcount isStart fun event hevent ↦ hkept event (by simp [hevent])]
    exact hattempts
  · rw [← hcount isEnded fun event hevent ↦ hkept event (by simp [hevent])]
    exact hcompleted
  · rw [← hcount isFailed fun event hevent ↦ hkept event (by simp [hevent])]
    exact hfailed

/-- An attempt is under way, or was given up. -/
def pending (before : Bool) (log : Log) : Control → Bool
  | .checking | .starting | .sleeping _ => false
  | .running | .examining _ _ | .reporting _ _ => true
  | .stopping | .returned => abandoned before log

/-- The loop has ended. -/
def loopEnded : Control → Bool
  | .stopping | .returned => true
  | _ => false

/-- A supervisor against its log. -/
structure Accounts (display : PeerProxyError → String) (before : Bool) (log : Log)
    (supervision : Supervision) : Prop where
  token : supervision.cancelled = cancelledBy before log
  tally : supervision.control ≠ .returned →
    Tally supervision.summary (pending before log supervision.control) (events log)
  stopped : supervision.control = .returned → ∃ earlier,
    events log = .stopped supervision.summary :: earlier ∧
      Tally supervision.summary (abandoned before log) earlier
  looping : loopEnded supervision.control = false → abandoned before log = false
  examining : ∀ result duration, supervision.control = .examining result duration →
    lastResult log = some result ∧ (.sessionReturned result duration, none) ∈ log ∧
      (result = .error .cancelled → supervision.cancelled = true)
  reporting : ∀ result duration, supervision.control = .reporting result duration →
    (.sessionReturned result duration, none) ∈ log ∧ result ≠ .error .cancelled
  failures : ∀ attempt text duration retryIn,
    .attemptFailed attempt text duration retryIn ∈ events log → ∃ error, error ≠ .cancelled ∧
      text = display error ∧ (.sessionReturned (.error error) duration, none) ∈ log

/-- At the call, a supervisor is in line with its empty log. -/
theorem Accounts.new (config : SupervisorConfig) :
    Accounts display before [] (.new config before) where
  token := by simp [Supervision.new, cancelledBy]
  tally := fun _ ↦ ⟨⟨0, [], rfl, .none, rfl⟩, rfl, rfl⟩
  stopped := by simp [Supervision.new]
  looping := fun _ ↦ rfl
  examining := by simp [Supervision.new]
  reporting := by simp [Supervision.new]
  failures := by simp [events]

/-- A step that a session is honest in keeps the accounts. -/
theorem Accounts.step {op : Op} {event : Option SupervisorEvent}
    (h : Accounts display before log supervision) (hhonest : honest supervision op = true)
    (hchange : Change display supervision op event following) :
    Accounts display before ((op, event) :: log) following := by
  have hmem : ∀ {entry : Op × Option SupervisorEvent}, entry ∈ log → entry ∈ (op, event) :: log :=
    List.mem_cons_of_mem _
  obtain ⟨htoken, htally, hstopped, hlooping, hexamining, hreporting, hfailures⟩ := h
  have hkept : ∀ attempt text duration retryIn,
      .attemptFailed attempt text duration retryIn ∈ events log → ∃ error, error ≠ .cancelled ∧
        text = display error ∧
        (.sessionReturned (.error error) duration, none) ∈ (op, event) :: log := by
    intro attempt text duration retryIn hfailed
    obtain ⟨error, hne, htext, hentry⟩ := hfailures attempt text duration retryIn hfailed
    exact ⟨error, hne, htext, hmem hentry⟩
  cases hchange with
  | cancel =>
      refine ⟨by simp [cancelledBy], htally, hstopped, hlooping, ?_, ?_, hkept⟩
      · intro result duration hcontrol
        obtain ⟨hlast, hentry, _⟩ := hexamining result duration hcontrol
        exact ⟨hlast, hmem hentry, fun _ ↦ rfl⟩
      · intro result duration hcontrol
        obtain ⟨hentry, hne⟩ := hreporting result duration hcontrol
        exact ⟨hmem hentry, hne⟩
  | go =>
      exact ⟨by simpa [cancelledBy] using htoken, fun _ ↦ htally (by simp), by simp,
        fun _ ↦ hlooping rfl, by simp, by simp, hkept⟩
  | give =>
      refine ⟨by simpa [cancelledBy] using htoken, fun _ ↦ ?_, by simp, by simp [loopEnded],
        by simp, by simp, hkept⟩
      have hfinished : pending before ((.check, none) :: log) .stopping = false := hlooping rfl
      rw [hfinished]
      exact htally (by simp)
  | start =>
      refine ⟨by simpa [cancelledBy] using htoken, fun _ ↦ ?_, by simp, fun _ ↦ hlooping rfl,
        by simp, by simp, ?_⟩
      · exact (htally (by simp)).start
      · intro attempt text duration retryIn hfailed
        rw [events_cons] at hfailed
        exact hkept attempt text duration retryIn (by simpa using hfailed)
  | sessionReturned =>
      refine ⟨by simpa [cancelledBy] using htoken, fun _ ↦ htally (by simp), by simp,
        fun _ ↦ hlooping rfl, ?_, by simp, hkept⟩
      intro result duration hcontrol
      simp only [Control.examining.injEq] at hcontrol
      obtain ⟨rfl, rfl⟩ := hcontrol
      refine ⟨rfl, List.mem_cons_self, ?_⟩
      rintro rfl
      exact hhonest
  | @abandon config backoff summary error duration =>
      refine ⟨by simpa [cancelledBy] using htoken, fun _ ↦ ?_, by simp, by simp [loopEnded],
        by simp, by simp, hkept⟩
      have hlast := (hexamining (.error error) duration rfl).1
      have hgiven : pending before ((.examine, none) :: log) .stopping = true := by
        simp [pending, abandoned, ← htoken, hlast, isErr]
      rw [hgiven]
      exact htally (by simp)
  | @accept config cancelled backoff summary result duration hresult =>
      obtain ⟨hlast, hentry, hcancelled⟩ := hexamining result duration rfl
      refine ⟨by simpa [cancelledBy] using htoken, fun _ ↦ htally (by simp), by simp, fun _ ↦ ?_,
        by simp, ?_, hkept⟩
      · have hnow : cancelledBy before log = cancelled := htoken.symm
        simp only [abandoned, hnow, hlast, Option.any_some]
        rcases hresult with hresult | hresult <;> simp [hresult]
      · intro other time hcontrol
        simp only [Control.reporting.injEq] at hcontrol
        obtain ⟨rfl, rfl⟩ := hcontrol
        refine ⟨hmem hentry, ?_⟩
        -- a session returns `Cancelled` only when the token is cancelled
        rintro rfl
        have hset : cancelled = true := hcancelled rfl
        rcases hresult with hresult | hresult
        · simp [isErr] at hresult
        · simp [hset] at hresult
  | @report config cancelled backoff summary result duration now retryIn moved hretry hbackoff =>
      obtain ⟨hentry, hne⟩ := hreporting result duration rfl
      refine ⟨by simpa [cancelledBy] using htoken, fun _ ↦ ?_, by simp, fun _ ↦ hlooping rfl,
        by simp, by simp, ?_⟩
      · exact (htally (by simp)).result result duration retryIn
      · intro attempt text time delay hfailed
        rw [events_cons] at hfailed
        rcases List.mem_append.mp hfailed with hnew | hold
        · cases result with
          | ok outcome => simp [resultEvent] at hnew
          | error error =>
              simp only [resultEvent, Option.toList_some, List.mem_singleton,
                SupervisorEvent.attemptFailed.injEq] at hnew
              obtain ⟨rfl, rfl, rfl, rfl⟩ := hnew
              exact ⟨error, fun heq ↦ hne (congrArg Except.error heq), rfl, hmem hentry⟩
        · exact hkept attempt text time delay hold
  | woke =>
      exact ⟨by simpa [cancelledBy] using htoken, fun _ ↦ htally (by simp), by simp,
        fun _ ↦ hlooping rfl, by simp, by simp, hkept⟩
  | interrupted =>
      refine ⟨by simpa [cancelledBy] using htoken, fun _ ↦ ?_, by simp, by simp [loopEnded],
        by simp, by simp, hkept⟩
      have hfinished : pending before ((.interrupted, none) :: log) .stopping = false :=
        hlooping rfl
      rw [hfinished]
      exact htally (by simp)
  | stop =>
      refine ⟨by simpa [cancelledBy] using htoken, by simp, fun _ ↦ ?_, by simp [loopEnded],
        by simp, by simp, ?_⟩
      · exact ⟨events log, rfl, htally (by simp)⟩
      · intro attempt text duration retryIn hfailed
        rw [events_cons] at hfailed
        exact hkept attempt text duration retryIn (by simpa using hfailed)

/-- The accounts of every run in which the sessions are honest. -/
theorem Exec.accounts {config : SupervisorConfig}
    (h : Execution.Exec (restrict honest (next display)) (.new config before) log supervision) :
    Accounts display before log supervision := by
  induction h with
  | refl => exact .new config
  | snoc _ hnext ih =>
      obtain ⟨hhonest, hstep⟩ := Execution.next_of_restrict hnext
      exact ih.step hhonest (change_of_next hstep)

/-- A supervisor that has returned has reported its summary. -/
theorem Accounts.reported (h : Accounts display before log supervision)
    (hreturned : supervision.control = .returned) :
    Reported supervision.summary (events log) := by
  obtain ⟨earlier, hevents, htally⟩ := h.stopped hreturned
  rw [hevents]
  refine ⟨?_, htally.attempts_eq.1, htally.completed, htally.failed⟩
  rw [List.filter_cons_of_pos rfl, htally.filter_isStopped]

/-! ## After cancellation -/

/-- The event is the result of an attempt. -/
def isResult (event : SupervisorEvent) : Bool :=
  isEnded event || isFailed event

/-- The attempts that a cancelled supervisor still starts. -/
def startsLeft : Control → Nat
  | .starting => 1
  | _ => 0

/-- The results that a cancelled supervisor still reports. -/
def resultsLeft : Control → Nat
  | .starting | .running | .examining _ _ | .reporting _ _ => 1
  | _ => 0

/-- A run of a cancelled supervisor uses up what it has left. -/
structure Remaining (supervision : Supervision) (later : Log) (following : Supervision) : Prop where
  cancelled : following.cancelled = true
  starts : (events later).countP isStart + startsLeft following.control ≤
    startsLeft supervision.control
  results : (events later).countP isResult + resultsLeft following.control ≤
    resultsLeft supervision.control

/-- A step of a cancelled supervisor uses up what it does. -/
theorem remaining_of_change {op : Op} {event : Option SupervisorEvent}
    (hcancelled : supervision.cancelled = true)
    (hchange : Change display supervision op event following) :
    following.cancelled = true ∧
    event.toList.countP isStart + startsLeft following.control ≤ startsLeft supervision.control ∧
    event.toList.countP isResult + resultsLeft following.control ≤
      resultsLeft supervision.control := by
  cases hchange with
  | go => simp at hcancelled
  | woke => simp at hcancelled
  | @report config cancelled backoff summary result =>
      refine ⟨hcancelled, ?_⟩
      cases result with
      | ok outcome => exact ⟨Nat.le_refl _, Nat.le_refl _⟩
      | error error => exact ⟨Nat.le_refl _, Nat.le_refl _⟩
  | cancel => exact ⟨rfl, by simp, by simp⟩
  | _ =>
      exact ⟨hcancelled, by simp [startsLeft, isStart],
        by simp [resultsLeft, isResult, isEnded, isFailed]⟩

/-- A supervisor that is cancelled starts at most one more attempt and reports at most one more
result. -/
theorem Exec.remaining {later : Log} (hcancelled : supervision.cancelled = true)
    (h : Exec display supervision later following) : Remaining supervision later following := by
  induction h with
  | refl => exact ⟨hcancelled, by simp [events], by simp [events]⟩
  | snoc _ hnext ih =>
      obtain ⟨hstill, hstarts, hresults⟩ :=
        remaining_of_change ih.cancelled (change_of_next hnext)
      have hstartsBefore := ih.starts
      have hresultsBefore := ih.results
      refine ⟨hstill, ?_, ?_⟩
      · rw [events_cons, List.countP_append]
        omega
      · rw [events_cons, List.countP_append]
        omega

/-! ## Accounting -/

/-- In every run of a supervisor whose sessions return `Cancelled` only when the token is cancelled,
and whenever that happens: once it has returned, its events are the attempts with their results, the
unfinished attempt if there is one, and one `Stopped` with the summary that it returns. The summary
counts these events, and an attempt is unfinished exactly when the last session returned an error
that was examined with the token cancelled. No `Cancelled` is reported as a failure. A cancelled
supervisor starts at most one more attempt and reports at most one more result. -/
theorem accounting {config : SupervisorConfig}
    (h : Execution.Exec (restrict honest (next display)) (.new config before) log supervision) :
    (supervision.control = .returned → ∃ count body,
      events log = .stopped supervision.summary ::
        (unfinished (count + 1) (abandoned before log) ++ body) ∧
      Attempts count body ∧
      supervision.summary.attempts = (events log).countP isStart ∧
      supervision.summary.completedSessions = (events log).countP isEnded ∧
      supervision.summary.failedAttempts = (events log).countP isFailed ∧
      supervision.summary.attempts = supervision.summary.completedSessions +
        supervision.summary.failedAttempts + (abandoned before log).toNat) ∧
    (∀ attempt text duration retryIn,
      .attemptFailed attempt text duration retryIn ∈ events log → ∃ error, error ≠ .cancelled ∧
        text = display error ∧ (.sessionReturned (.error error) duration, none) ∈ log) ∧
    (supervision.cancelled = true → ∀ later following, Exec display supervision later following →
      (events later).countP isStart ≤ 1 ∧ (events later).countP isResult ≤ 1) := by
  have haccounts := Exec.accounts h
  refine ⟨fun hreturned ↦ ?_, haccounts.failures, fun hcancelled later following hlater ↦ ?_⟩
  · obtain ⟨earlier, hevents, htally⟩ := haccounts.stopped hreturned
    obtain ⟨_, hattempts⟩ := htally.attempts_eq
    obtain ⟨⟨count, body, hearlier, hbody, _⟩, _, _⟩ := htally
    have hreported := haccounts.reported hreturned
    refine ⟨count, body, ?_, hbody, hreported.attempts, hreported.completed, hreported.failed,
      hattempts⟩
    rw [hevents, hearlier]
  · have hremaining := Exec.remaining hcancelled hlater
    have hstarts : startsLeft supervision.control ≤ 1 := by
      cases supervision.control <;> simp [startsLeft]
    have hresults : resultsLeft supervision.control ≤ 1 := by
      cases supervision.control <;> simp [resultsLeft]
    have hstartsUsed := hremaining.starts
    have hresultsUsed := hremaining.results
    omega

/-- A supervisor with a failed attempt, and with a second attempt that is cancelled. -/
theorem accounting_of_cancelled_attempt : ∃ log supervision,
    Execution.Exec (restrict honest (next fun _ ↦ "error")) (.new ⟨.zero, .zero, .zero⟩ false)
      log supervision ∧ supervision.control = .returned ∧
    supervision.summary = ⟨2, 0, 1⟩ ∧ ∃ count body,
      events log = .stopped supervision.summary ::
        (unfinished (count + 1) (abandoned false log) ++ body) ∧ Attempts count body := by
  have hrun : Execution.run (restrict honest (next fun _ ↦ "error"))
      [.check, .start, .sessionReturned (.error .natTimeout) .zero, .examine, .report 0, .woke,
        .check, .start, .cancel, .sessionReturned (.error .cancelled) .zero, .examine, .stop]
      ([], .new ⟨.zero, .zero, .zero⟩ false) = some (_, _) := rfl
  have hexec := Execution.exec_of_run hrun
  obtain ⟨count, body, hevents, hbody, _⟩ := (accounting hexec).1 rfl
  exact ⟨_, _, hexec, rfl, rfl, count, body, hevents, hbody⟩

end Unbounded.Supervisor.Supervision
