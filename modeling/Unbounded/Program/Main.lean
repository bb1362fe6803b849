import Unbounded.Program.Lines
import Unbounded.Supervisor.Shutdown

/-!
# The program

`main` of `src/bin/peer-proxy.rs`, from the point where its settings are read. It starts a task that
cancels everything on Ctrl-C, a task that prints a line for every event, and the pool. When the pool
has returned it awaits the reporter, prints the totals and exits.

The reporter ends when it finds its channel empty and closed. The senders of the channel belong to
the pool, so that the channel is closed once the pool has returned.
-/

namespace Unbounded

open Execution (Next restrict)
open PeerProxy (Codec PeerProxyError)
open Program (Formats line totals)
open Supervisor (Pool PoolEvent SupervisorConfig SupervisorPoolSummary Worker)

/-! ## Settings -/

/-- The environment variables that hold Unicode. -/
abbrev Environment := String → Option String

namespace Environment

/-- `str::parse` for a `u64` or a `usize`: digits after an optional plus sign. -/
def parseUnsigned (text : String) : Option UInt64 :=
  let digits := match text.toList with
    | '+' :: digits => digits
    | chars => chars
  if digits ≠ [] ∧ digits.all Char.isDigit then
    let value := Nat.ofDigitChars 10 digits 0
    if value < 2 ^ 64 then some (UInt64.ofNat value) else none
  else none

/-- `seconds`. -/
def seconds (env : Environment) (name : String) (default : UInt64) : Duration :=
  .fromSecs (((env name).bind parseUnsigned).getD default)

/-- `count`. -/
def count (env : Environment) (name : String) (default : Nat) : Nat :=
  ((((env name).bind parseUnsigned).map UInt64.toNat).filter (0 < ·)).getD default

/-- The configuration of the supervisors, as far as the loop reads it. -/
def supervisorConfig (env : Environment) : SupervisorConfig where
  initialBackoff := env.seconds "UNBOUNDED_RETRY_INITIAL_SECONDS" 1
  maxBackoff := env.seconds "UNBOUNDED_RETRY_MAX_SECONDS" 30
  stableSession := env.seconds "UNBOUNDED_STABLE_SESSION_SECONDS" 30

/-- The number of slots. -/
def slots (env : Environment) : Nat :=
  env.count "UNBOUNDED_CONCURRENT_SESSIONS" 5

/-- There is at least one slot. -/
theorem slots_pos (env : Environment) : 0 < env.slots := by
  unfold slots count
  cases hcount : (((env "UNBOUNDED_CONCURRENT_SESSIONS").bind parseUnsigned).map
      UInt64.toNat).filter (0 < ·) with
  | none => decide
  | some value =>
      have hpos := (Option.filter_eq_some_iff.mp hcount).2
      simpa using hpos

end Environment

/-! ## The machine -/

namespace Program

/-- Where `main` is. -/
inductive Stage where
  /-- Awaiting the pool. -/
  | supervising
  /-- Awaiting the reporter. -/
  | joining (summary : SupervisorPoolSummary)
  /-- The totals of the summary have been printed. -/
  | exited (summary : SupervisorPoolSummary)

end Program

/-- The program with its tasks. -/
structure Program where
  slots : Nat
  pool : Pool
  /-- The events on the channel of the reporter, oldest first. -/
  channel : List PoolEvent
  /-- The reporter has not returned. -/
  reporting : Bool
  stage : Program.Stage

namespace Program

/-- The program after it has started its tasks and the pool. -/
def start (env : Environment) : Program :=
  ⟨env.slots, .new env.supervisorConfig env.slots false, [], true, .supervising⟩

/-- What can happen to the program. -/
inductive Op where
  /-- Ctrl-C. -/
  | interrupt
  /-- A step of the worker in a slot. -/
  | worker (slot : Nat) (op : Worker.Op)
  /-- The reporter receives an event. -/
  | report
  /-- The pool returns. -/
  | poolReturned
  /-- The reporter finds its channel closed. -/
  | reporterReturned
  /-- `main` has joined the reporter. -/
  | exit

/-- What a step does: the steps of the pool, and the line that is printed. -/
structure Out where
  performed : Pool.Log
  printed : Option String

/-- The token of the pool is cancelled, and with it the tokens of its workers. -/
def cancellations (pool : Pool) : List (Nat × Worker.Op) :=
  (List.range pool.workers.length).map fun slot ↦ (slot, .supervise .cancel)

/-- The steps of a worker by itself: the tokens of the workers are cancelled together, and nobody
drops the future of a session while the pool is awaited. -/
def unprompted : Worker.Op → Bool
  | .supervise .cancel => false
  | op => Worker.attends op

/-- The program has not exited. -/
def Stage.running : Stage → Bool
  | .exited _ => false
  | _ => true

/-- One step of the program. -/
def next (codec : Codec) (display : PeerProxyError → String) (formats : Formats) :
    Next Program Op Out
  | program, .interrupt =>
      if program.stage.running then
        (Execution.run (restrict Pool.attends (Pool.next codec display))
          (cancellations program.pool) ([], program.pool)).map fun (performed, pool) ↦
            (⟨performed, none⟩, { program with pool := pool })
      else none
  | program, .worker slot op =>
      if program.stage.running ∧ unprompted op then
        (Pool.next codec display program.pool (slot, op)).map fun (out, pool) ↦
          (⟨[((slot, op), out)], none⟩,
            { program with
              pool := pool
              channel := program.channel ++ (out.forwarded.map (PoolEvent.mk slot)).toList })
      else none
  | ⟨slots, pool, tagged :: channel, true, stage⟩, .report =>
      some (⟨[], some (line formats tagged)⟩, ⟨slots, pool, channel, true, stage⟩)
  | ⟨slots, pool, channel, reporting, .supervising⟩, .poolReturned =>
      pool.result.map fun summary ↦
        (⟨[], none⟩, ⟨slots, pool, channel, reporting, .joining summary⟩)
  | ⟨slots, pool, [], true, .joining summary⟩, .reporterReturned =>
      some (⟨[], none⟩, ⟨slots, pool, [], false, .joining summary⟩)
  | ⟨slots, pool, channel, false, .joining summary⟩, .exit =>
      some (⟨[], some (totals slots summary)⟩, ⟨slots, pool, channel, false, .exited summary⟩)
  | _, _ => none

/-- A log of the program. -/
abbrev Log := Execution.Log Op Out

/-- Executions of the program. -/
abbrev Exec (codec : Codec) (display : PeerProxyError → String) (formats : Formats) :=
  Execution.Exec (next codec display formats)

/-- The log of the pool. -/
def poolLog (log : Log) : Pool.Log :=
  log.flatMap fun entry ↦ entry.2.performed

/-- The lines that were printed, oldest first. -/
def printed (log : Log) : List String :=
  (log.filterMap fun entry ↦ entry.2.printed).reverse

variable {codec : Codec} {display : PeerProxyError → String} {formats : Formats}
  {env : Environment} {log later : Log} {program following : Program} {op : Op} {out : Out}

/-- The log of the pool with one more step. -/
theorem poolLog_cons : poolLog ((op, out) :: log) = out.performed ++ poolLog log :=
  List.flatMap_cons

/-- The lines with one more step. -/
theorem printed_cons : printed ((op, out) :: log) = printed log ++ out.printed.toList := by
  cases hprinted : out.printed <;> simp [printed, hprinted]

/-- Everything a step can be. -/
inductive Change (codec : Codec) (display : PeerProxyError → String) (formats : Formats) :
    Program → Op → Out → Program → Prop where
  | interrupt {program performed pool} (hrunning : program.stage.running = true)
      (hrun : Execution.run (restrict Pool.attends (Pool.next codec display))
        (cancellations program.pool) ([], program.pool) = some (performed, pool)) :
      Change codec display formats program .interrupt ⟨performed, none⟩
        { program with pool := pool }
  | worker {program slot op out pool} (hrunning : program.stage.running = true)
      (hop : unprompted op = true)
      (hnext : Pool.next codec display program.pool (slot, op) = some (out, pool)) :
      Change codec display formats program (.worker slot op) ⟨[((slot, op), out)], none⟩
        { program with
          pool := pool
          channel := program.channel ++ (out.forwarded.map (PoolEvent.mk slot)).toList }
  | report {slots pool tagged channel stage} :
      Change codec display formats ⟨slots, pool, tagged :: channel, true, stage⟩ .report
        ⟨[], some (line formats tagged)⟩ ⟨slots, pool, channel, true, stage⟩
  | poolReturned {slots pool channel reporting summary} (hresult : pool.result = some summary) :
      Change codec display formats ⟨slots, pool, channel, reporting, .supervising⟩ .poolReturned
        ⟨[], none⟩ ⟨slots, pool, channel, reporting, .joining summary⟩
  | reporterReturned {slots pool summary} :
      Change codec display formats ⟨slots, pool, [], true, .joining summary⟩ .reporterReturned
        ⟨[], none⟩ ⟨slots, pool, [], false, .joining summary⟩
  | exit {slots pool channel summary} :
      Change codec display formats ⟨slots, pool, channel, false, .joining summary⟩ .exit
        ⟨[], some (totals slots summary)⟩ ⟨slots, pool, channel, false, .exited summary⟩

/-- Every step of the program is a `Change`. -/
theorem change_of_next (h : next codec display formats program op = some (out, following)) :
    Change codec display formats program op out following := by
  unfold next at h
  split at h
  case h_1 =>
    split at h
    case isFalse => simp at h
    case isTrue hrunning =>
      simp only [Option.map_eq_some_iff, Prod.mk.injEq] at h
      obtain ⟨⟨performed, pool⟩, hrun, rfl, rfl⟩ := h
      exact .interrupt hrunning hrun
  case h_2 slot op =>
    split at h
    case isFalse => simp at h
    case isTrue hguard =>
      simp only [Option.map_eq_some_iff, Prod.mk.injEq] at h
      obtain ⟨⟨out, pool⟩, hnext, rfl, rfl⟩ := h
      exact .worker hguard.1 hguard.2 hnext
  case h_3 =>
    simp only [Option.some.injEq, Prod.mk.injEq] at h
    obtain ⟨rfl, rfl⟩ := h
    exact .report
  case h_4 =>
    simp only [Option.map_eq_some_iff, Prod.mk.injEq] at h
    obtain ⟨summary, hresult, rfl, rfl⟩ := h
    exact .poolReturned hresult
  case h_5 =>
    simp only [Option.some.injEq, Prod.mk.injEq] at h
    obtain ⟨rfl, rfl⟩ := h
    exact .reporterReturned
  case h_6 =>
    simp only [Option.some.injEq, Prod.mk.injEq] at h
    obtain ⟨rfl, rfl⟩ := h
    exact .exit
  case h_7 => simp at h

/-- A worker's own step is a step of the pool that nobody drops. -/
theorem attends_of_unprompted {op : Worker.Op} (h : unprompted op = true) :
    Worker.attends op = true := by
  unfold unprompted at h
  split at h
  case h_1 => simp at h
  case h_2 => exact h

/-- What a step of the program does to the pool is a run of the pool. -/
theorem Change.attending (h : Change codec display formats program op out following) :
    Pool.Attending codec display program.pool out.performed following.pool := by
  cases h with
  | interrupt _ hrun => exact Execution.exec_of_run hrun
  | @worker _ slot op out pool _ hop hnext =>
      refine .snoc .refl ?_
      have hallowed : program.pool.attends (slot, op) = true := attends_of_unprompted hop
      rw [restrict, if_pos hallowed]
      exact hnext
  | report => exact .refl
  | poolReturned => exact .refl
  | reporterReturned => exact .refl
  | exit => exact .refl

/-- The steps of the pool in a run of the program are a run of the pool. -/
theorem Exec.attending {initial : Program} (h : Exec codec display formats initial log program) :
    Pool.Attending codec display initial.pool (poolLog log) program.pool := by
  induction h with
  | refl => exact .refl
  | snoc _ hnext ih =>
      rw [poolLog_cons]
      exact ih.trans (change_of_next hnext).attending

end Program

end Unbounded
