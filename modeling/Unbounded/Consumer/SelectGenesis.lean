import Unbounded.Consumer.Session
import Unbounded.Tokio.Mpsc

/-!
# Choosing a Genesis

`select_genesis` of `src/consumer.rs`, poll by poll. Each of its waits is a biased `select!` that
looks at the cancellation token first, then at the patience timer once there is one, and then at the
stream of advertisements. A poll takes at most one branch, and the branch decides how the function
goes on.

`Story` says what must have happened for the function to be where it is. `genesis_selection` reads
the results off it, and `session_of_next` says that the function is the part of a session from the
opening of the stream to the choice.
-/

namespace Unbounded.Consumer.SelectGenesis

open Execution (Next)
open Signaling (SignalingError Reply)
open Tokio (Poll)

/-- Where `select_genesis` is. -/
inductive Control where
  /-- `signaler.advertisements()`. -/
  | subscribing
  /-- The wait for the first Genesis. -/
  | discovering
  /-- The wait for more while the patience lasts. -/
  | collecting (candidates : List SignalMessage)
  /-- `candidates.choose`. -/
  | choosing (candidates : List SignalMessage)
  | returned (result : Except ConsumerError SignalMessage)
  /-- There was nothing to choose from. -/
  | panicked
  deriving DecidableEq

/-- The branch that a poll of a `select!` takes, or the random choice. -/
inductive Branch where
  | pending
  | cancelled
  | subscribed (result : Except SignalingError Unit)
  | elapsed
  | advertised (result : Reply)
  | chose (index : Nat)
  deriving DecidableEq

/-- How the function goes on after a branch. -/
def Control.after : Control → Branch → Control
  | .subscribing, .subscribed (.ok ()) => .discovering
  | .subscribing, .subscribed (.error error) => .returned (.error (.signaling error))
  | .discovering, .advertised (.ok (some message)) =>
      if message.kind = .genesis then .collecting [message] else .discovering
  | .discovering, .advertised (.ok none) => .returned (.error .noGenesis)
  | .discovering, .advertised (.error error) => .returned (.error (.signaling error))
  | .collecting candidates, .elapsed => .choosing candidates
  | .collecting candidates, .advertised (.ok (some message)) =>
      .collecting (if message.kind = .genesis then candidates ++ [message] else candidates)
  | .collecting candidates, .advertised (.ok none) => .choosing candidates
  | .collecting _, .advertised (.error error) => .returned (.error (.signaling error))
  | .choosing candidates, .chose index =>
      match candidates[index]? with
      | some message => .returned (.ok message)
      | none => .panicked
  | .subscribing, .cancelled | .discovering, .cancelled | .collecting _, .cancelled =>
      .returned (.error .cancelled)
  | control, _ => control

/-- The steps of the function, with what its polls find. -/
inductive Op where
  | pollSubscribe (cancelled : Bool) (opened : Poll (Except SignalingError Unit))
  | pollFirst (cancelled : Bool) (message : Poll Reply)
  | pollMore (cancelled elapsed : Bool) (message : Poll Reply)
  /-- Choose at random. -/
  | choose (random : Nat)
  deriving DecidableEq

/-- The branch that a step takes. -/
def branch : Control → Op → Option Branch
  | .subscribing, .pollSubscribe cancelled opened =>
      some (if cancelled then .cancelled else
        match opened with
        | .pending => .pending
        | .ready result => .subscribed result)
  | .discovering, .pollFirst cancelled message =>
      some (if cancelled then .cancelled else
        match message with
        | .pending => .pending
        | .ready result => .advertised result)
  | .collecting _, .pollMore cancelled elapsed message =>
      some (if cancelled then .cancelled else if elapsed then .elapsed else
        match message with
        | .pending => .pending
        | .ready result => .advertised result)
  | .choosing candidates, .choose random => some (.chose (random % candidates.length))
  | _, _ => none

/-- One step of the function. -/
def next : Next Control Op Branch :=
  fun control op ↦ (branch control op).map fun taken ↦ (taken, control.after taken)

/-- A log of the function. -/
abbrev Log := Execution.Log Op Branch

/-- Executions of the function. -/
abbrev Exec := Execution.Exec next .subscribing

/-- The branches of a log, newest first. -/
def branches (log : Log) : List Branch :=
  log.map Prod.snd

/-- The Genesis messages that the stream delivered to the function, oldest first. -/
def genesis : Log → List SignalMessage
  | [] => []
  | (_, .advertised (.ok (some message))) :: log =>
      if message.kind = .genesis then genesis log ++ [message] else genesis log
  | _ :: log => genesis log

/-- The poll comes after the end of the patience. -/
def Op.late : Op → Bool
  | .pollMore _ elapsed _ => elapsed
  | _ => false

/-! ## What a step can do -/

/-- The function waits in a `select!`. -/
def Control.waiting : Control → Bool
  | .subscribing | .discovering | .collecting _ => true
  | _ => false

/-- The branches that there are at a control point. -/
inductive Possible : Control → Branch → Prop where
  | pending {control : Control} (hwaiting : control.waiting = true) : Possible control .pending
  | cancelled {control : Control} (hwaiting : control.waiting = true) : Possible control .cancelled
  | subscribed (result : Except SignalingError Unit) : Possible .subscribing (.subscribed result)
  | first (result : Reply) : Possible .discovering (.advertised result)
  | elapsed (candidates : List SignalMessage) : Possible (.collecting candidates) .elapsed
  | more (candidates : List SignalMessage) (result : Reply) :
      Possible (.collecting candidates) (.advertised result)
  | chose (candidates : List SignalMessage) (random : Nat) :
      Possible (.choosing candidates) (.chose (random % candidates.length))

variable {control following : Control} {op : Op} {taken : Branch} {log : Log}

/-- A step takes a branch that there is. -/
theorem possible_of_branch (h : branch control op = some taken) : Possible control taken := by
  unfold branch at h
  split at h <;> simp only [Option.some.injEq, reduceCtorEq] at h <;> subst h
  case h_1 cancelled opened =>
    cases cancelled with
    | true => exact .cancelled rfl
    | false =>
        cases opened with
        | pending => exact .pending rfl
        | ready result => exact .subscribed result
  case h_2 cancelled message =>
    cases cancelled with
    | true => exact .cancelled rfl
    | false =>
        cases message with
        | pending => exact .pending rfl
        | ready result => exact .first result
  case h_3 candidates cancelled elapsed message =>
    cases cancelled with
    | true => exact .cancelled rfl
    | false =>
        cases elapsed with
        | true => exact .elapsed candidates
        | false =>
            cases message with
            | pending => exact .pending rfl
            | ready result => exact .more candidates result
  case h_4 candidates random => exact .chose candidates random

/-- A step goes on as its branch says. -/
theorem possible_of_next (h : next control op = some (taken, following)) :
    Possible control taken ∧ following = control.after taken := by
  simp only [next, Option.map_eq_some_iff, Prod.mk.injEq] at h
  obtain ⟨_, hbranch, rfl, rfl⟩ := h
  exact ⟨possible_of_branch hbranch, rfl⟩

/-- The branches that end a wait for good. -/
def Branch.halts : Branch → Bool
  | .cancelled | .elapsed | .subscribed (.error _) => true
  | .advertised (.ok none) | .advertised (.error _) => true
  | _ => false

/-- The timer is looked at before the stream, so that a poll after the end of the patience takes
nothing from the stream. -/
theorem not_late_of_next (h : next control op = some (taken, following))
    (hhalts : taken.halts = false) : op.late = false := by
  simp only [next, Option.map_eq_some_iff, Prod.mk.injEq] at h
  obtain ⟨_, hbranch, rfl, -⟩ := h
  unfold branch at hbranch
  split at hbranch <;> simp only [Option.some.injEq, reduceCtorEq] at hbranch
  case h_3 candidates cancelled elapsed message =>
    subst hbranch
    cases cancelled with
    | true => simp [Branch.halts] at hhalts
    | false =>
        cases elapsed with
        | true => simp [Branch.halts] at hhalts
        | false => rfl
  all_goals rfl

/-! ## What must have happened -/

/-- Nothing so far has ended a wait for good, and no poll came after the end of the patience. -/
def Quiet (log : Log) : Prop :=
  ∀ entry ∈ log, entry.2.halts = false ∧ entry.1.late = false

/-- A step on a branch that does not end the wait keeps a log quiet. -/
theorem Quiet.cons (hquiet : Quiet log) (h : next control op = some (taken, following))
    (hhalts : taken.halts = false) : Quiet ((op, taken) :: log) := by
  intro entry hentry
  rcases List.mem_cons.1 hentry with rfl | hbefore
  · exact ⟨hhalts, not_late_of_next h hhalts⟩
  · exact hquiet entry hbefore

/-- A control point that waits, with the Genesis messages it has. -/
inductive Waiting : Control → List SignalMessage → Prop where
  | subscribing : Waiting .subscribing []
  | discovering : Waiting .discovering []
  | collecting {candidates : List SignalMessage} (hsome : candidates ≠ []) :
      Waiting (.collecting candidates) candidates

/-- The branches on which a collection ends with a choice. -/
def Branch.completes : Branch → Bool
  | .elapsed | .advertised (.ok none) => true
  | _ => false

/-- What must have happened for the function to be at a control point. -/
inductive Story : Log → Control → Prop where
  | waiting {log : Log} {control : Control} (hquiet : Quiet log)
      (hwaiting : Waiting control (genesis log)) : Story log control
  | choosing {log : Log} {op : Op} {stop : Branch} (hquiet : Quiet log)
      (hsome : genesis log ≠ []) (hstop : stop.completes = true) :
      Story ((op, stop) :: log) (.choosing (genesis log))
  | chosen {log : Log} {op choice : Op} {stop : Branch} {index : Nat} {message : SignalMessage}
      (hquiet : Quiet log) (hstop : stop.completes = true) (hmem : message ∈ genesis log) :
      Story ((choice, .chose index) :: (op, stop) :: log) (.returned (.ok message))
  | noGenesis {log : Log} {op : Op} (hquiet : Quiet log) (hnone : genesis log = []) :
      Story ((op, .advertised (.ok none)) :: log) (.returned (.error .noGenesis))
  | refused {log : Log} {op : Op} {error : SignalingError} (hquiet : Quiet log)
      (hnone : genesis log = []) :
      Story ((op, .subscribed (.error error)) :: log) (.returned (.error (.signaling error)))
  | failed {log : Log} {op : Op} {error : SignalingError} (hquiet : Quiet log) :
      Story ((op, .advertised (.error error)) :: log) (.returned (.error (.signaling error)))
  | cancelled {log : Log} {op : Op} (hquiet : Quiet log) :
      Story ((op, .cancelled) :: log) (.returned (.error .cancelled))

/-- A branch on which a collection completes delivers no Genesis. -/
theorem genesis_of_completes (hstop : taken.completes = true) :
    genesis ((op, taken) :: log) = genesis log := by
  unfold Branch.completes at hstop
  split at hstop <;> first | rfl | simp at hstop

/-- A control point that waits is in a `select!`. -/
theorem Waiting.in_select {found : List SignalMessage} (hwaiting : Waiting control found) :
    control.waiting = true := by
  cases hwaiting <;> rfl

/-- A poll that finds nothing leaves a waiting function where it is. -/
theorem Waiting.after_pending {found : List SignalMessage} (hwaiting : Waiting control found) :
    control.after .pending = control := by
  cases hwaiting <;> rfl

/-- A waiting function returns on cancellation. -/
theorem Waiting.after_cancelled {found : List SignalMessage} (hwaiting : Waiting control found) :
    control.after .cancelled = .returned (.error .cancelled) := by
  cases hwaiting <;> rfl

/-- A message adds itself to what a waiting function has if it is a Genesis, and changes nothing
if it is not. -/
theorem Waiting.message {found : List SignalMessage} {result : Reply} {message : SignalMessage}
    (hwaiting : Waiting control found) (hpossible : Possible control (.advertised result)) :
    Waiting (control.after (.advertised (.ok (some message))))
      (if message.kind = .genesis then found ++ [message] else found) := by
  cases hwaiting with
  | subscribing => cases hpossible
  | discovering =>
      show Waiting (if message.kind = .genesis then .collecting [message] else .discovering) _
      split
      · exact .collecting (List.cons_ne_nil _ _)
      · exact .discovering
  | collecting hsome =>
      refine .collecting ?_
      split
      · exact List.append_ne_nil_of_right_ne_nil _ (List.cons_ne_nil _ _)
      · exact hsome

/-- What the end of the stream does to a waiting function depends on whether it has a Genesis. -/
theorem story_of_end (hquiet : Quiet log) (hwaiting : Waiting control (genesis log))
    (hpossible : Possible control (.advertised (.ok none))) :
    Story ((op, .advertised (.ok none)) :: log) (control.after (.advertised (.ok none))) := by
  generalize hfound : genesis log = found at hwaiting
  cases hwaiting with
  | subscribing => cases hpossible
  | discovering => exact .noGenesis hquiet hfound
  | collecting hsome =>
      subst hfound
      exact .choosing hquiet hsome rfl

/-- A choice from the candidates finds one, whatever the random number. -/
theorem after_chose {candidates : List SignalMessage} (hsome : candidates ≠ []) (random : Nat) :
    ∃ message ∈ candidates, (Control.choosing candidates).after
      (.chose (random % candidates.length)) = .returned (.ok message) := by
  have hlt : random % candidates.length < candidates.length :=
    Nat.mod_lt _ (List.length_pos_of_ne_nil hsome)
  refine ⟨candidates[random % candidates.length], List.getElem_mem hlt, ?_⟩
  simp only [Control.after, List.getElem?_eq_getElem hlt]

/-- One step of a waiting function. -/
theorem story_of_waiting (hquiet : Quiet log) (hwaiting : Waiting control (genesis log))
    (h : next control op = some (taken, following)) :
    Story ((op, taken) :: log) following := by
  obtain ⟨hpossible, rfl⟩ := possible_of_next h
  cases hpossible with
  | pending =>
      rw [hwaiting.after_pending]
      exact .waiting (hquiet.cons h rfl) hwaiting
  | cancelled =>
      rw [hwaiting.after_cancelled]
      exact .cancelled hquiet
  | subscribed result =>
      generalize hfound : genesis log = found at hwaiting
      cases hwaiting with
      | subscribing =>
          cases result with
          | ok => exact .waiting (hquiet.cons h rfl) (hfound ▸ .discovering)
          | error error => exact .refused hquiet hfound
  | elapsed candidates =>
      generalize hfound : genesis log = found at hwaiting
      cases hwaiting with
      | collecting hsome =>
          subst hfound
          exact .choosing hquiet hsome rfl
  | first result =>
      rcases result with error | _ | message
      · exact .failed hquiet
      · exact story_of_end hquiet hwaiting (.first _)
      · exact .waiting (hquiet.cons h rfl) (hwaiting.message (.first (.ok none)))
  | more candidates result =>
      rcases result with error | _ | message
      · exact .failed hquiet
      · exact story_of_end hquiet hwaiting (.more _ _)
      · exact .waiting (hquiet.cons h rfl) (hwaiting.message (.more _ (.ok none)))
  | chose => cases hwaiting.in_select

/-- One step keeps the story. -/
theorem Story.step (hstory : Story log control)
    (h : next control op = some (taken, following)) : Story ((op, taken) :: log) following := by
  cases hstory with
  | waiting hquiet hwaiting => exact story_of_waiting hquiet hwaiting h
  | @choosing log _ _ hquiet hsome hstop =>
      obtain ⟨hpossible, rfl⟩ := possible_of_next h
      cases hpossible with
      | chose _ random =>
          obtain ⟨message, hmem, hafter⟩ := after_chose hsome random
          rw [hafter]
          exact .chosen hquiet hstop hmem
      | pending hwaiting | cancelled hwaiting => cases hwaiting
  | chosen | noGenesis | refused | failed | cancelled =>
      obtain ⟨hpossible, _⟩ := possible_of_next h
      cases hpossible with
      | pending hwaiting | cancelled hwaiting => cases hwaiting

/-- Every execution has its story. -/
theorem Exec.story (h : Exec log control) : Story log control := by
  induction h with
  | refl => exact .waiting (fun _ hentry ↦ nomatch hentry) .subscribing
  | snoc _ hnext ih => exact ih.step hnext

/-! ## What the story says -/

/-- What was delivered as a Genesis is one, and a poll took it from the stream. -/
theorem advertised_of_mem_genesis {message : SignalMessage} (h : message ∈ genesis log) :
    message.kind = .genesis ∧ ∃ op, (op, Branch.advertised (.ok (some message))) ∈ log := by
  induction log using genesis.induct with
  | case1 => simp [genesis] at h
  | case2 op other log hkind ih =>
      rw [genesis, if_pos hkind] at h
      rcases List.mem_append.1 h with hbefore | hlast
      · obtain ⟨hgenesis, poll, hmem⟩ := ih hbefore
        exact ⟨hgenesis, poll, List.mem_cons_of_mem _ hmem⟩
      · obtain rfl := List.mem_singleton.1 hlast
        exact ⟨hkind, op, List.mem_cons_self⟩
  | case3 op other log hkind ih =>
      rw [genesis, if_neg hkind] at h
      obtain ⟨hgenesis, poll, hmem⟩ := ih h
      exact ⟨hgenesis, poll, List.mem_cons_of_mem _ hmem⟩
  | case4 entry log hother ih =>
      rw [genesis] at h
      · obtain ⟨hgenesis, poll, hmem⟩ := ih h
        exact ⟨hgenesis, poll, List.mem_cons_of_mem _ hmem⟩
      · exact hother

/-- A quiet log has no branch that ends a wait. -/
theorem Quiet.not_mem (hquiet : Quiet log) (hhalts : taken.halts = true) :
    taken ∉ branches log := by
  intro hmem
  obtain ⟨entry, hentry, rfl⟩ := List.mem_map.1 hmem
  rw [(hquiet entry hentry).1] at hhalts
  cases hhalts

/-- A branch that ends a wait, in a log that was quiet before its last step, is that step's. -/
theorem Quiet.eq_of_mem_cons {stop : Branch} (hquiet : Quiet log) (hhalts : stop.halts = true)
    (hmem : stop ∈ branches ((op, taken) :: log)) : stop = taken := by
  rcases List.mem_cons.1 hmem with rfl | hbefore
  · rfl
  · exact absurd hbefore (hquiet.not_mem hhalts)

/-- The message is one that the stream delivered to the function no later than the end of the
patience. -/
def Timely (log : Log) (message : SignalMessage) : Prop :=
  ∃ later op earlier, log = later ++ (op, .advertised (.ok (some message))) :: earlier ∧
    ∀ entry ∈ (op, Branch.advertised (.ok (some message))) :: earlier, entry.1.late = false

/-- Every Genesis of a quiet log came in time, whatever happened later. -/
theorem Quiet.timely {later : Log} {message : SignalMessage} (hquiet : Quiet log)
    (h : message ∈ genesis log) : Timely (later ++ log) message := by
  obtain ⟨_, op, hmem⟩ := advertised_of_mem_genesis h
  obtain ⟨middle, earlier, rfl⟩ := List.append_of_mem hmem
  refine ⟨later ++ middle, op, earlier, by simp, fun entry hentry ↦ ?_⟩
  exact (hquiet entry (List.mem_append_right middle hentry)).2

/-- The stream or its opening failed, or the wait was cancelled. -/
def Disturbed (log : Log) : Prop :=
  .cancelled ∈ branches log ∨ (∃ error, .subscribed (.error error) ∈ branches log) ∨
    ∃ error, .advertised (.error error) ∈ branches log

/-- A collection was completed by the timer or by the end of the stream. -/
def Completed (log : Log) : Prop :=
  .elapsed ∈ branches log ∨ .advertised (.ok none) ∈ branches log

/-- A quiet log completes no collection. -/
theorem Quiet.not_completed (hquiet : Quiet log) : ¬ Completed log := by
  rintro (hmem | hmem)
  all_goals exact hquiet.not_mem rfl hmem

/-- A step that completes a collection disturbs nothing. -/
theorem Quiet.not_disturbed_completes (hquiet : Quiet log) (hstop : taken.completes = true) :
    ¬ Disturbed ((op, taken) :: log) := by
  rintro (hmem | ⟨error, hmem⟩ | ⟨error, hmem⟩)
  all_goals
    obtain rfl := hquiet.eq_of_mem_cons rfl hmem
    cases hstop

/-- A collection is completed by a step that says so. -/
theorem Quiet.completed_cons_iff (hquiet : Quiet log) :
    Completed ((op, taken) :: log) ↔ taken.completes = true := by
  constructor
  · rintro (hmem | hmem)
    all_goals
      obtain rfl := hquiet.eq_of_mem_cons rfl hmem
      rfl
  · intro hstop
    unfold Branch.completes at hstop
    split at hstop
    · exact .inl List.mem_cons_self
    · exact .inr List.mem_cons_self
    · cases hstop

/-- The function returns a Genesis that came in time. -/
theorem Story.timely {message : SignalMessage} (h : Story log (.returned (.ok message))) :
    message.kind = .genesis ∧ Timely log message := by
  cases h with
  | waiting _ hwaiting => cases hwaiting.in_select
  | @chosen log op choice stop index _ hquiet _ hmem =>
      have htimely : Timely ([(choice, .chose index), (op, stop)] ++ log) message :=
        hquiet.timely hmem
      exact ⟨(advertised_of_mem_genesis hmem).1, htimely⟩

/-- A function that chooses has something to choose from: what the stream delivered. -/
theorem Story.choosing_candidates {candidates : List SignalMessage}
    (h : Story log (.choosing candidates)) : candidates ≠ [] ∧ candidates = genesis log := by
  cases h with
  | waiting _ hwaiting => cases hwaiting.in_select
  | choosing _ hsome hstop => exact ⟨hsome, (genesis_of_completes hstop).symm⟩

/-- A function that collects has what the stream delivered. -/
theorem Story.collecting_candidates {candidates : List SignalMessage}
    (h : Story log (.collecting candidates)) : candidates = genesis log := by
  cases h with
  | waiting _ hwaiting =>
      generalize genesis log = found at hwaiting
      cases hwaiting with
      | collecting => rfl

/-- The function never finds nothing to choose from. -/
theorem Story.not_panicked (h : Story log .panicked) : False := by
  cases h with
  | waiting _ hwaiting => cases hwaiting.in_select

/-- The function returns `NoGenesis` exactly when the stream ended, undisturbed, without a
Genesis. -/
theorem Story.noGenesis_iff (h : Story log control) :
    control = .returned (.error .noGenesis) ↔
      .advertised (.ok none) ∈ branches log ∧ genesis log = [] ∧ ¬ Disturbed log := by
  constructor
  · rintro rfl
    cases h with
    | waiting _ hwaiting => cases hwaiting.in_select
    | noGenesis hquiet hnone =>
        exact ⟨List.mem_cons_self, hnone, hquiet.not_disturbed_completes rfl⟩
  · rintro ⟨hend, hnone, hundisturbed⟩
    cases h with
    | waiting hquiet _ => exact absurd hend (hquiet.not_mem rfl)
    | choosing _ hsome hstop =>
        rw [genesis_of_completes hstop] at hnone
        exact absurd hnone hsome
    | @chosen log op choice stop index _ _ hstop hmem =>
        have hsame : genesis ((choice, .chose index) :: (op, stop) :: log) = genesis log :=
          genesis_of_completes hstop
        rw [hsame] at hnone
        rw [hnone] at hmem
        cases hmem
    | noGenesis => rfl
    | refused => exact absurd (.inr (.inl ⟨_, List.mem_cons_self⟩)) hundisturbed
    | failed => exact absurd (.inr (.inr ⟨_, List.mem_cons_self⟩)) hundisturbed
    | cancelled => exact absurd (.inl List.mem_cons_self) hundisturbed

/-- With a Genesis, a completed collection is followed by a choice. -/
theorem Story.ok_of_completed (h : Story log control) (hsome : genesis log ≠ [])
    (hcompleted : Completed log) :
    (∃ candidates, control = .choosing candidates) ∨
      ∃ message, control = .returned (.ok message) := by
  cases h with
  | waiting hquiet _ => exact absurd hcompleted hquiet.not_completed
  | choosing => exact .inl ⟨_, rfl⟩
  | chosen => exact .inr ⟨_, rfl⟩
  | noGenesis _ hnone => exact absurd hnone hsome
  | refused hquiet | failed hquiet | cancelled hquiet =>
      exact absurd (hquiet.completed_cons_iff.1 hcompleted) (by simp [Branch.completes])

/-- With a Genesis, only an error of the stream or a cancellation before the collection was
completed makes the function fail, and then it reports that. -/
theorem Story.error_iff (h : Story log control) (hsome : genesis log ≠ [])
    (error : ConsumerError) :
    control = .returned (.error error) ↔
      ¬ Completed log ∧ ((error = .cancelled ∧ .cancelled ∈ branches log) ∨
        ∃ source, error = .signaling source ∧ .advertised (.error source) ∈ branches log) := by
  constructor
  · rintro rfl
    cases h with
    | waiting _ hwaiting => cases hwaiting.in_select
    | noGenesis _ hnone | refused _ hnone => exact absurd hnone hsome
    | failed hquiet =>
        refine ⟨?_, .inr ⟨_, rfl, List.mem_cons_self⟩⟩
        rw [hquiet.completed_cons_iff]
        exact Bool.false_ne_true
    | cancelled hquiet =>
        refine ⟨?_, .inl ⟨rfl, List.mem_cons_self⟩⟩
        rw [hquiet.completed_cons_iff]
        exact Bool.false_ne_true
  · rintro ⟨hcompleted, hdisturbed⟩
    cases h with
    | waiting hquiet _ =>
        rcases hdisturbed with ⟨_, hmem⟩ | ⟨_, _, hmem⟩
        all_goals exact absurd hmem (hquiet.not_mem rfl)
    | choosing hquiet _ hstop => exact absurd (hquiet.completed_cons_iff.2 hstop) hcompleted
    | @chosen log op _ stop _ _ hquiet hstop =>
        have hbefore : Completed ((op, stop) :: log) := hquiet.completed_cons_iff.2 hstop
        exact absurd (hbefore.imp (List.mem_cons_of_mem _) (List.mem_cons_of_mem _)) hcompleted
    | noGenesis _ hnone | refused _ hnone => exact absurd hnone hsome
    | failed hquiet =>
        rcases hdisturbed with ⟨_, hmem⟩ | ⟨source, rfl, hmem⟩
        · cases hquiet.eq_of_mem_cons rfl hmem
        · cases hquiet.eq_of_mem_cons rfl hmem
          rfl
    | cancelled hquiet =>
        rcases hdisturbed with ⟨rfl, _⟩ | ⟨source, _, hmem⟩
        · rfl
        · cases hquiet.eq_of_mem_cons rfl hmem

/-- A message that is no Genesis leaves the function where it is. -/
theorem after_other {message : SignalMessage} (hkind : message.kind ≠ .genesis) :
    control.after (.advertised (.ok (some message))) = control := by
  cases control with
  | discovering => exact if_neg hkind
  | collecting candidates => exact congrArg Control.collecting (if_neg hkind)
  | subscribing | choosing | returned | panicked => rfl

/-- How `select_genesis` selects. -/
structure Selection (log : Log) (control : Control) : Prop where
  /-- The result is a Genesis that the stream delivered before the patience was over. -/
  timely : ∀ message, control = .returned (.ok message) →
    message.kind = .genesis ∧ Timely log message
  /-- The choice finds a candidate, whatever the random number. -/
  chooses : control ≠ .panicked ∧ ∀ candidates, control = .choosing candidates →
    ∀ random, ∃ message ∈ candidates, next control (.choose random) =
      some (.chose (random % candidates.length), .returned (.ok message))
  /-- `NoGenesis` means that the stream ended undisturbed without a Genesis. -/
  noGenesis : control = .returned (.error .noGenesis) ↔
    .advertised (.ok none) ∈ branches log ∧ genesis log = [] ∧ ¬ Disturbed log
  /-- The candidates are the Genesis messages that were delivered. -/
  candidates : ∀ candidates, control = .collecting candidates ∨ control = .choosing candidates →
    candidates = genesis log
  /-- Any other message changes nothing. -/
  other : ∀ op message following,
    next control op = some (.advertised (.ok (some message)), following) →
    message.kind ≠ .genesis → following = control
  /-- With a candidate, the end of the stream and the timer lead to a choice. -/
  completed : genesis log ≠ [] → Completed log →
    (∃ candidates, control = .choosing candidates) ∨ ∃ message, control = .returned (.ok message)
  /-- With a candidate, only an error of the stream or a cancellation before them is an error. -/
  error : genesis log ≠ [] → ∀ error, control = .returned (.error error) ↔
    ¬ Completed log ∧ ((error = .cancelled ∧ .cancelled ∈ branches log) ∨
      ∃ source, error = .signaling source ∧ .advertised (.error source) ∈ branches log)

/-- Whatever the advertisements, and whenever the timer fires or the wait is cancelled: the function
returns a Genesis only if the stream delivered it in time, the random choice never fails,
`NoGenesis` is returned exactly when an undisturbed stream ends without a Genesis, other messages
count for nothing, and once there is a candidate only an error or a cancellation that comes first
keeps the function from returning one. -/
theorem genesis_selection (h : Exec log control) : Selection log control where
  timely := by
    rintro message rfl
    exact h.story.timely
  chooses := by
    refine ⟨?_, ?_⟩
    · rintro rfl
      exact h.story.not_panicked
    · rintro candidates rfl random
      obtain ⟨message, hmem, hafter⟩ := after_chose h.story.choosing_candidates.1 random
      refine ⟨message, hmem, ?_⟩
      rw [← hafter]
      rfl
  noGenesis := h.story.noGenesis_iff
  candidates := by
    rintro candidates (rfl | rfl)
    · exact h.story.collecting_candidates
    · exact h.story.choosing_candidates.2
  other := by
    intro op message following hnext hkind
    rw [(possible_of_next hnext).2]
    exact after_other hkind
  completed := h.story.ok_of_completed
  error := h.story.error_iff

/-- Two Genesis messages and one Offer arrive, a third Genesis is ready only when the timer has
fired, and the second Genesis is chosen. -/
theorem genesis_selection_of_second :
    ∃ log, Exec log (.returned (.ok ⟨"b", .genesis, ""⟩)) ∧
      genesis log = [⟨"a", .genesis, ""⟩, ⟨"b", .genesis, ""⟩] ∧
      Selection log (.returned (.ok ⟨"b", .genesis, ""⟩)) := by
  have hrun : Execution.run next
      [.pollSubscribe false (.ready (.ok ())),
       .pollFirst false (.ready (.ok (some ⟨"a", .genesis, ""⟩))),
       .pollMore false false (.ready (.ok (some ⟨"x", .offer, ""⟩))),
       .pollMore false false .pending,
       .pollMore false false (.ready (.ok (some ⟨"b", .genesis, ""⟩))),
       .pollMore false true (.ready (.ok (some ⟨"c", .genesis, ""⟩))),
       .choose 5]
      ([], .subscribing) = some (_, .returned (.ok ⟨"b", .genesis, ""⟩)) := rfl
  have hexec : Exec _ _ := Execution.exec_of_run hrun
  exact ⟨_, hexec, rfl, genesis_selection hexec⟩

/-! ## Part of a session -/

/-- The control point of a session. -/
def Control.session : Control → Option Consumer.Control
  | .subscribing => some .subscribing
  | .discovering => some .discovering
  | .collecting candidates => some (.collecting candidates)
  | .choosing candidates => some (.choosing candidates)
  | .returned (.ok message) => some (.offering message)
  | .returned (.error error) => some (.closing (.error error))
  | .panicked => none

/-- What a branch is for a session; a poll that finds nothing is no step of it. -/
def Branch.input : Branch → Option Input
  | .pending => none
  | .cancelled => some .cancelled
  | .subscribed result => some (.subscribed result)
  | .elapsed => some .patienceOver
  | .advertised result => some (.advertised result)
  | .chose index => some (.chosen index)

/-- A step is a step of a session, or none at all. -/
theorem session_of_next (codec : Codec) (config : ConsumerConfig) {session : Consumer.Control}
    (hsession : control.session = some session) (hpanicked : following ≠ .panicked)
    (h : next control op = some (taken, following)) :
    (taken.input = none ∧ following.session = some session) ∨
      ∃ input effect moved, taken.input = some input ∧ following.session = some moved ∧
        Consumer.Control.next codec config session input = some (effect, moved) := by
  obtain ⟨hpossible, rfl⟩ := possible_of_next h
  cases hpossible with
  | pending hwaiting =>
      refine .inl ⟨rfl, ?_⟩
      rw [← hsession]
      cases control <;> rfl
  | cancelled hwaiting =>
      refine .inr ⟨_, .none, .closing (.error .cancelled), rfl, ?_⟩
      cases control <;> cases hwaiting <;> cases hsession <;> exact ⟨rfl, rfl⟩
  | subscribed result =>
      cases hsession
      rcases result with error | _ <;> exact .inr ⟨_, _, _, rfl, rfl, rfl⟩
  | elapsed candidates =>
      cases hsession
      exact .inr ⟨_, _, _, rfl, rfl, rfl⟩
  | first result =>
      cases hsession
      rcases result with error | _ | message
      · exact .inr ⟨_, _, _, rfl, rfl, rfl⟩
      · exact .inr ⟨_, _, _, rfl, rfl, rfl⟩
      · refine .inr ⟨_, _, _, rfl, ?_, rfl⟩
        simp only [Control.after]
        split <;> rfl
  | more candidates result =>
      cases hsession
      rcases result with error | _ | message <;> exact .inr ⟨_, _, _, rfl, rfl, rfl⟩
  | chose candidates random =>
      cases hsession
      cases hchosen : candidates[random % candidates.length]? with
      | none => exact absurd (by simp only [Control.after, hchosen]) hpanicked
      | some message =>
          refine .inr ⟨_, .none, .offering message, rfl, ?_, ?_⟩
          · simp only [Control.after, hchosen, Control.session]
          · show candidates[random % candidates.length]?.map (fun genesis ↦ (_, _)) = _
            rw [hchosen]
            rfl

/-- Every execution of the function is an execution of a session, from the opening of the stream of
advertisements on. -/
theorem Exec.session (codec : Codec) (config : ConsumerConfig) (h : Exec log control) :
    ∃ trace session, control.session = some session ∧
      Execution.Exec (Consumer.Control.next codec config) .subscribing trace session ∧
      trace.map Prod.fst = (branches log).filterMap Branch.input := by
  induction h with
  | refl => exact ⟨[], .subscribing, rfl, .refl, rfl⟩
  | @snoc log state following op taken hbefore hnext ih =>
      obtain ⟨trace, session, hsession, hexec, hinputs⟩ := ih
      have hpanicked : following ≠ .panicked := by
        rintro rfl
        exact (Exec.story (hbefore.snoc hnext)).not_panicked
      rcases session_of_next codec config hsession hpanicked hnext with
        ⟨hinput, hfollowing⟩ | ⟨input, effect, moved, hinput, hfollowing, hmoved⟩
      · refine ⟨trace, session, hfollowing, hexec, ?_⟩
        rw [hinputs]
        exact (List.filterMap_cons_none hinput).symm
      · refine ⟨(input, effect) :: trace, moved, hfollowing, hexec.snoc hmoved, ?_⟩
        rw [List.map_cons, hinputs]
        exact (List.filterMap_cons_some hinput).symm

end Unbounded.Consumer.SelectGenesis
