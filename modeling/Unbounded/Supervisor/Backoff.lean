import Unbounded.Supervisor.Accounting

/-!
# The backoff of a supervisor

A closed form of the delays of `supervise_with` in unbounded arithmetic: the backoff starts at `I`,
doubles with every attempt that was not stable up to `M`, and a stable attempt starts it over
(`base`). `retry_closed_form` says for every run that the delay after an attempt is that backoff
with a jitter between 80 and 120 percent, cut off at `M` and at `u64::MAX` nanoseconds, so that no
other bound of the machine arithmetic is ever met.
-/

namespace Unbounded.Supervisor

open PeerProxy (PeerProxyError SessionResult)

namespace SupervisorConfig

/-- `I`: the configured first backoff, or a millisecond if that is zero. -/
def initialNanos (config : SupervisorConfig) : Nat :=
  if config.initialBackoff.nanos = 0 then 10 ^ 6 else config.initialBackoff.nanos

/-- `M`: the configured largest backoff, but at least `I`. -/
def maxNanos (config : SupervisorConfig) : Nat :=
  max config.maxBackoff.nanos config.initialNanos

/-- The attempts since the last stable one, of results that are given newest first. -/
def unstable (config : SupervisorConfig) (results : List SessionResult) : Nat :=
  (results.takeWhile fun result ↦ !config.stable result).length

/-- The backoff after an attempt with a result, in nanoseconds. -/
def base (config : SupervisorConfig) (result : SessionResult) (earlier : List SessionResult) :
    Nat :=
  if config.stable result then config.initialNanos
  else min (config.initialNanos * 2 ^ config.unstable earlier) config.maxNanos

variable {config : SupervisorConfig} {result : SessionResult} {earlier : List SessionResult}

/-- The first backoff in nanoseconds. -/
theorem firstBackoff_nanos (config : SupervisorConfig) :
    config.firstBackoff.nanos = config.initialNanos := by
  unfold firstBackoff nonzero initialNanos
  by_cases hzero : config.initialBackoff.nanos = 0
  · rw [if_pos (Duration.ext hzero), if_pos hzero]
    rfl
  · rw [if_neg fun heq ↦ hzero (congrArg Duration.nanos heq), if_neg hzero]

/-- The largest backoff in nanoseconds. -/
theorem lastBackoff_nanos (config : SupervisorConfig) :
    config.lastBackoff.nanos = config.maxNanos := by
  rw [lastBackoff, Duration.max_nanos, firstBackoff_nanos]
  rfl

/-- The first backoff is not larger than the largest. -/
theorem initialNanos_le (config : SupervisorConfig) : config.initialNanos ≤ config.maxNanos :=
  Nat.le_max_right _ _

/-- A stable attempt starts the count over. -/
theorem unstable_cons_of_stable (h : config.stable result = true) :
    config.unstable (result :: earlier) = 0 := by
  simp [unstable, h]

/-- An attempt that is not stable is counted. -/
theorem unstable_cons_of_not_stable (h : config.stable result = false) :
    config.unstable (result :: earlier) = config.unstable earlier + 1 := by
  simp [unstable, h]

/-- The backoff lies between `I` and `M`. -/
theorem base_bounds (config : SupervisorConfig) (result : SessionResult)
    (earlier : List SessionResult) :
    config.initialNanos ≤ config.base result earlier ∧
      config.base result earlier ≤ config.maxNanos := by
  have hle := config.initialNanos_le
  have hdoubled : config.initialNanos ≤ config.initialNanos * 2 ^ config.unstable earlier :=
    Nat.le_mul_of_pos_right _ (Nat.two_pow_pos _)
  unfold base
  split <;> omega

/-- The backoff does not shrink from one attempt that is not stable to the next. -/
theorem base_le_base (hresult : config.stable result = false) {following : SessionResult}
    (hfollowing : config.stable following = false) :
    config.base result earlier ≤ config.base following (result :: earlier) := by
  have hdoubled : config.initialNanos * 2 ^ config.unstable earlier ≤
      config.initialNanos * 2 ^ (config.unstable earlier + 1) :=
    Nat.mul_le_mul_left _ (Nat.pow_le_pow_right (by decide) (Nat.le_succ _))
  simp only [base, hresult, hfollowing, Bool.false_eq_true, if_false,
    unstable_cons_of_not_stable hresult]
  omega

/-- The backoff does not shrink along a run of attempts that are not stable. -/
theorem base_le_base_of_run (hresult : config.stable result = false) {following : SessionResult}
    (hfollowing : config.stable following = false) {between : List SessionResult}
    (hbetween : ∀ other ∈ between, config.stable other = false) :
    config.base result earlier ≤ config.base following (between ++ result :: earlier) := by
  induction between generalizing following with
  | nil => exact base_le_base hresult hfollowing
  | cons other between ih =>
      have hother := hbetween other List.mem_cons_self
      have hrest := fun another hmem ↦ hbetween another (List.mem_cons_of_mem _ hmem)
      exact Nat.le_trans (ih hother hrest) (base_le_base hother hfollowing)

end SupervisorConfig

/-! ## Arithmetic of one delay -/

/-- The product of a duration and a percentage fits into a `u128`. -/
theorem jittered_nanos (base : Duration) (entropy : UInt64) :
    (jittered base entropy).nanos =
      min (base.nanos * (80 + entropy.toNat % 41) / 100) (2 ^ 64 - 1) := by
  have hvalid := base.valid
  have hfits : base.nanos * (80 + entropy.toNat % 41) ≤ 2 ^ 128 - 1 := by
    have hpercent : 80 + entropy.toNat % 41 ≤ 120 := by omega
    calc base.nanos * (80 + entropy.toNat % 41)
        ≤ base.nanos * 120 := Nat.mul_le_mul_left _ hpercent
      _ ≤ 2 ^ 128 - 1 := by omega
  show min (min (base.nanos * (80 + entropy.toNat % 41)) (2 ^ 128 - 1) / 100) (2 ^ 64 - 1) = _
  rw [Nat.min_eq_left hfits]

/-- Doubling a backoff below a largest one does not saturate. -/
theorem double_nanos (backoff last : Duration) :
    ((backoff.saturatingMul 2).min last).nanos = min (backoff.nanos * 2) last.nanos := by
  have hvalid := last.valid
  rw [Duration.min_nanos]
  show min (min (backoff.nanos * 2) (2 ^ 64 * 10 ^ 9 - 1)) last.nanos = _
  omega

/-- What follows for a delay from its closed form. -/
theorem delay_bounds {backoff percent largest delay : Nat} (hbackoff : backoff ≤ largest)
    (hpercent : 80 ≤ percent)
    (h : delay = min (min (backoff * percent / 100) (2 ^ 64 - 1)) largest) :
    delay ≤ largest ∧
    (backoff * percent / 100 ≤ 2 ^ 64 - 1 → backoff * 80 / 100 ≤ delay) ∧
    (2 ≤ backoff → 0 < delay) := by
  have hproduct : backoff * 80 ≤ backoff * percent := Nat.mul_le_mul_left _ hpercent
  omega

/-! ## Runs -/

namespace Supervision

/-- The results that were reported, newest first. -/
def results : Log → List SessionResult
  | [] => []
  | (.report _, _) :: log => (lastResult log).toList ++ results log
  | _ :: log => results log

/-- The attempts that have no result yet. -/
def underway : Control → Nat
  | .running | .examining _ _ | .reporting _ _ => 1
  | _ => 0

/-- The backoff of a supervisor against its log. -/
structure Paced (config : SupervisorConfig) (log : Log) (supervision : Supervision) : Prop where
  settings : supervision.config = config
  backoff : supervision.backoff.nanos =
    min (config.initialNanos * 2 ^ config.unstable (results log)) config.maxNanos
  last : ∀ result duration, supervision.control = .examining result duration ∨
    supervision.control = .reporting result duration → lastResult log = some result
  attempts : loopEnded supervision.control = false →
    supervision.summary.attempts = (results log).length + underway supervision.control

variable {display : PeerProxyError → String} {config : SupervisorConfig} {before : Bool}
  {log : Log} {supervision following : Supervision}

/-- At the call, the backoff is in line with the empty log. -/
theorem Paced.new : Paced config [] (.new config before) where
  settings := rfl
  backoff := by
    have hle := config.initialNanos_le
    rw [Supervision.new, config.firstBackoff_nanos]
    show config.initialNanos = min (config.initialNanos * 2 ^ 0) config.maxNanos
    omega
  last := by simp [Supervision.new]
  attempts := fun _ ↦ rfl

/-- A report adds the last result. -/
theorem results_report {result : SessionResult} (h : lastResult log = some result) (now : UInt64)
    (event : Option SupervisorEvent) :
    results ((.report now, event) :: log) = result :: results log := by
  simp [results, h]

/-- The backoff that follows a report. -/
theorem Paced.nextBackoff {result : SessionResult} (h : Paced config log supervision)
    (hlast : lastResult log = some result) (now : UInt64) (event : Option SupervisorEvent) :
    (supervision.nextBackoff result).nanos =
      min (config.initialNanos * 2 ^ config.unstable (results ((.report now, event) :: log)))
        config.maxNanos := by
  have hle := config.initialNanos_le
  have hbackoff := h.backoff
  rw [results_report hlast, Supervision.nextBackoff, h.settings]
  cases hstable : config.stable result with
  | true =>
      rw [SupervisorConfig.unstable_cons_of_stable hstable, if_pos rfl, config.firstBackoff_nanos]
      omega
  | false =>
      rw [SupervisorConfig.unstable_cons_of_not_stable hstable, if_neg (by simp), double_nanos,
        config.lastBackoff_nanos, hbackoff, Nat.pow_succ, ← Nat.mul_assoc]
      omega

/-- Counting a result starts no attempt. -/
theorem attempts_counted (summary : SupervisorSummary) (result : SessionResult) :
    (counted summary result).attempts = summary.attempts := by
  cases result <;> rfl

/-- Every step keeps the backoff in line with the log. -/
theorem Paced.step {op : Op} {event : Option SupervisorEvent} (h : Paced config log supervision)
    (hchange : Change display supervision op event following) :
    Paced config ((op, event) :: log) following := by
  cases hchange with
  | cancel => exact ⟨h.settings, h.backoff, h.last, h.attempts⟩
  | go => exact ⟨h.settings, h.backoff, by simp, fun _ ↦ h.attempts rfl⟩
  | give => exact ⟨h.settings, h.backoff, by simp, by simp [loopEnded]⟩
  | start =>
      refine ⟨h.settings, h.backoff, by simp, fun _ ↦ ?_⟩
      exact congrArg (· + 1) (h.attempts rfl)
  | sessionReturned =>
      refine ⟨h.settings, h.backoff, ?_, fun _ ↦ h.attempts rfl⟩
      intro result duration hcontrol
      simp only [Control.examining.injEq, reduceCtorEq, or_false] at hcontrol
      rw [← hcontrol.1]
      rfl
  | abandon => exact ⟨h.settings, h.backoff, by simp, by simp [loopEnded]⟩
  | accept =>
      refine ⟨h.settings, h.backoff, ?_, fun _ ↦ h.attempts rfl⟩
      intro result duration hcontrol
      simp only [Control.reporting.injEq, reduceCtorEq, false_or] at hcontrol
      obtain ⟨rfl, rfl⟩ := hcontrol
      exact h.last _ _ (.inl rfl)
  | report _ hbackoff =>
      have hlast := h.last _ _ (.inr rfl)
      refine ⟨h.settings, ?_, by simp, fun _ ↦ ?_⟩
      · rw [hbackoff]
        exact h.nextBackoff hlast _ _
      · rw [results_report hlast]
        exact (attempts_counted _ _).trans (h.attempts rfl)
  | woke => exact ⟨h.settings, h.backoff, by simp, fun _ ↦ h.attempts rfl⟩
  | interrupted => exact ⟨h.settings, h.backoff, by simp, by simp [loopEnded]⟩
  | stop => exact ⟨h.settings, h.backoff, by simp, by simp [loopEnded]⟩

/-- The backoff is in line with the log in every run. -/
theorem Exec.paced (h : Exec display (.new config before) log supervision) :
    Paced config log supervision := by
  induction h with
  | refl => exact .new
  | snoc _ hnext ih => exact ih.step (change_of_next hnext)

/-- The backoff that a delay is made from. -/
theorem Paced.settledBackoff {result : SessionResult} (h : Paced config log supervision) :
    (supervision.settledBackoff result).nanos = config.base result (results log) := by
  rw [Supervision.settledBackoff, h.settings, SupervisorConfig.base]
  split
  · exact config.firstBackoff_nanos
  · exact h.backoff

/-- The closed form of a delay. -/
theorem Paced.retryIn (h : Paced config log supervision) (result : SessionResult) (now : UInt64) :
    ∃ percent, 80 ≤ percent ∧ percent ≤ 120 ∧
      (supervision.retryIn result now).nanos =
        min (min (config.base result (results log) * percent / 100) (2 ^ 64 - 1))
          config.maxNanos := by
  refine ⟨80 + (entropy now supervision.summary.attempts).toNat % 41, by omega, by omega, ?_⟩
  rw [Supervision.retryIn, Duration.min_nanos, jittered_nanos, h.settledBackoff, h.settings,
    config.lastBackoff_nanos]

/-- Wherever a run of a supervisor reports the result of an attempt, it reports and then sleeps one
delay: the backoff of the attempt times a percentage from 80 to 120, rounded down, and cut off at
`u64::MAX` nanoseconds and at `M`. The delay is at most `M`, at least 80 percent of the backoff
unless it was cut off at `u64::MAX`, and not zero when `I` is at least two nanoseconds. The backoff
does not shrink along attempts that are not stable. -/
theorem retry_closed_form (h : Exec display (.new config before) log supervision) :
    (∀ now event following, next display supervision (.report now) = some (event, following) →
      ∃ result duration retryIn percent,
        supervision.control = .reporting result duration ∧
        event = some (resultEvent display ((results log).length + 1) result duration retryIn) ∧
        following.control = .sleeping retryIn ∧
        80 ≤ percent ∧ percent ≤ 120 ∧
        retryIn.nanos = min (min (config.base result (results log) * percent / 100) (2 ^ 64 - 1))
          config.maxNanos ∧
        retryIn.nanos ≤ config.maxNanos ∧
        (config.base result (results log) * percent / 100 ≤ 2 ^ 64 - 1 →
          config.base result (results log) * 80 / 100 ≤ retryIn.nanos) ∧
        (2 ≤ config.initialNanos → 0 < retryIn.nanos) ∧
        results ((.report now, event) :: log) = result :: results log) ∧
    (∀ result earlier between following, config.stable result = false →
      (∀ other ∈ between, config.stable other = false) → config.stable following = false →
      config.base result earlier ≤ config.base following (between ++ result :: earlier)) := by
  have hpaced := Exec.paced h
  refine ⟨fun now event following hnext ↦ ?_, fun _ _ _ _ hresult hbetween hfollowing ↦
    SupervisorConfig.base_le_base_of_run hresult hfollowing hbetween⟩
  cases change_of_next hnext with
  | @report _ _ _ _ result duration _ retryIn _ hretry _ =>
      obtain ⟨percent, hlow, hhigh, hclosed⟩ := hpaced.retryIn result now
      rw [← hretry] at hclosed
      obtain ⟨hinitial, hmax⟩ := config.base_bounds result (results log)
      obtain ⟨hlargest, heighty, hpositive⟩ := delay_bounds hmax hlow hclosed
      have hattempts := hpaced.attempts rfl
      refine ⟨result, duration, retryIn, percent, rfl, ?_, rfl, hlow, hhigh, hclosed, hlargest,
        heighty, fun htwo ↦ hpositive (Nat.le_trans htwo hinitial),
        results_report (hpaced.last _ _ (.inr rfl)) now _⟩
      exact congrArg (fun attempt ↦ some (resultEvent display attempt result duration retryIn))
        hattempts

/-- A supervisor with a zero first backoff, as it reports its second failed attempt. -/
theorem retry_closed_form_of_two_failures : ∃ log supervision event following retryIn,
    Exec (fun _ ↦ "error") (.new ⟨.zero, ⟨10 ^ 9, by decide⟩, .zero⟩ false) log supervision ∧
    next (fun _ ↦ "error") supervision (.report 0) = some (event, following) ∧
    following.control = .sleeping retryIn ∧ retryIn.nanos ≤ 10 ^ 9 ∧ 0 < retryIn.nanos := by
  have hrun : Execution.run (next fun _ ↦ "error")
      [.check, .start, .sessionReturned (.error .natTimeout) .zero, .examine, .report 0, .woke,
        .check, .start, .sessionReturned (.error .natTimeout) .zero, .examine]
      ([], .new ⟨.zero, ⟨10 ^ 9, by decide⟩, .zero⟩ false) = some (_, _) := rfl
  have hexec := Execution.exec_of_run hrun
  obtain ⟨result, duration, retryIn, percent, _, _, hcontrol, _, _, _, hlargest, _, hpositive, _⟩ :=
    (retry_closed_form hexec).1 0 _ _ rfl
  exact ⟨_, _, _, _, retryIn, hexec, rfl, hcontrol, hlargest, hpositive (by decide)⟩

end Supervision

end Unbounded.Supervisor
