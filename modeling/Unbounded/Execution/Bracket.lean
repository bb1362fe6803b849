import Unbounded.Execution.Machine

/-!
# Resources that a run acquires and releases

A machine that acquires one resource, works in a section from which every way out releases it, and
returns. The section may be cancelled, and the machine may abandon the resource before it enters the
section. `Brackets` says that the steps of a machine, seen through a phase of its states and a kind
of its inputs, are of this pattern, and `Brackets.returned` what then holds of every run that
returns: the resource was released exactly once unless it was abandoned.
-/

namespace Unbounded.Execution.Bracket

universe u v w

/-- How far a run is with its resource. -/
inductive Phase (Result : Type u) where
  | idle
  /-- The run holds the resource outside the section. -/
  | held
  /-- The run is in the section, and every way out releases the resource. -/
  | guarded
  | releasing (result : Result)
  | returned (result : Result)
  | dropped

/-- What an input means for the resource. -/
inductive Kind where
  | acquire
  /-- The run fails while it holds the resource outside the section. -/
  | abandon
  | cancel
  | release
  | other
  deriving DecidableEq

variable {Result : Type u} {cancelled : Result}

/-- What a step can do to the resource. -/
inductive Step (cancelled : Result) : Phase Result → Kind → Phase Result → Prop where
  | refuse {result : Result} : Step cancelled .idle .other (.returned result)
  | acquire : Step cancelled .idle .acquire .held
  | acquireGuarded : Step cancelled .idle .acquire .guarded
  | acquireReleasing {result : Result} : Step cancelled .idle .acquire (.releasing result)
  | abandon {result : Result} : Step cancelled .held .abandon (.returned result)
  | enter : Step cancelled .held .other .guarded
  | work : Step cancelled .guarded .other .guarded
  | leave {result : Result} : Step cancelled .guarded .other (.releasing result)
  | cancel : Step cancelled .guarded .cancel (.releasing cancelled)
  | release {result : Result} : Step cancelled (.releasing result) .release (.returned result)
  | drop {phase : Phase Result} : Step cancelled phase .other .dropped

/-- Nothing but acquiring the resource has happened to it. -/
structure Clean (kinds : List Kind) : Prop where
  cancel : .cancel ∉ kinds
  abandon : .abandon ∉ kinds
  release : .release ∉ kinds

/-- What has happened to the resource by the time a run is in a phase. -/
inductive History (cancelled : Result) : List Kind → Phase Result → Prop where
  | idle {kinds : List Kind} (hacquire : .acquire ∉ kinds) (hclean : Clean kinds) :
      History cancelled kinds .idle
  | refused {kinds : List Kind} {result : Result} (hacquire : .acquire ∉ kinds) :
      History cancelled kinds (.returned result)
  | held {kinds : List Kind} (hclean : Clean kinds) : History cancelled kinds .held
  | abandoned {kinds : List Kind} {result : Result} (hcancel : .cancel ∉ kinds)
      (habandon : .abandon ∈ kinds) (hrelease : .release ∉ kinds) :
      History cancelled kinds (.returned result)
  | guarded {kinds : List Kind} (hclean : Clean kinds) : History cancelled kinds .guarded
  | releasing {kinds : List Kind} {result : Result}
      (hcancel : .cancel ∈ kinds → result = cancelled) (habandon : .abandon ∉ kinds)
      (hrelease : .release ∉ kinds) : History cancelled kinds (.releasing result)
  | released {kinds : List Kind} {result : Result}
      (hcancel : .cancel ∈ kinds → result = cancelled) (habandon : .abandon ∉ kinds)
      (hrelease : kinds.count .release = 1) : History cancelled kinds (.returned result)
  | dropped {kinds : List Kind} : History cancelled kinds .dropped

variable {kinds : List Kind} {kind : Kind} {phase following : Phase Result}

/-- Acquiring the resource and working with it leaves it clean. -/
theorem Clean.cons (h : Clean kinds) (hkind : kind = .acquire ∨ kind = .other) :
    Clean (kind :: kinds) := by
  obtain ⟨hcancel, habandon, hrelease⟩ := h
  rcases hkind with rfl | rfl
  · exact ⟨by simpa using hcancel, by simpa using habandon, by simpa using hrelease⟩
  · exact ⟨by simpa using hcancel, by simpa using habandon, by simpa using hrelease⟩

/-- A run with a clean resource begins to release it. -/
theorem Clean.releasing (h : Clean kinds) {result : Result} :
    History cancelled kinds (.releasing result) :=
  .releasing (fun hmem ↦ absurd hmem h.cancel) h.abandon h.release

/-- Every step keeps the history. -/
theorem History.step (h : History cancelled kinds phase)
    (hstep : Step cancelled phase kind following) :
    History cancelled (kind :: kinds) following := by
  cases hstep with
  | refuse =>
      cases h with
      | idle hacquire => exact .refused (by simpa using hacquire)
  | acquire =>
      cases h with
      | idle _ hclean => exact .held (hclean.cons (.inl rfl))
  | acquireGuarded =>
      cases h with
      | idle _ hclean => exact .guarded (hclean.cons (.inl rfl))
  | acquireReleasing =>
      cases h with
      | idle _ hclean => exact (hclean.cons (.inl rfl)).releasing
  | abandon =>
      cases h with
      | held hclean =>
          exact .abandoned (by simpa using hclean.cancel) List.mem_cons_self
            (by simpa using hclean.release)
  | enter =>
      cases h with
      | held hclean => exact .guarded (hclean.cons (.inr rfl))
  | work =>
      cases h with
      | guarded hclean => exact .guarded (hclean.cons (.inr rfl))
  | leave =>
      cases h with
      | guarded hclean => exact (hclean.cons (.inr rfl)).releasing
  | cancel =>
      cases h with
      | guarded hclean =>
          exact .releasing (fun _ ↦ rfl) (by simpa using hclean.abandon)
            (by simpa using hclean.release)
  | release =>
      cases h with
      | releasing hcancel habandon hrelease =>
          refine .released (fun hmem ↦ hcancel (by simpa using hmem)) (by simpa using habandon) ?_
          rw [List.count_cons_self, List.count_eq_zero.mpr hrelease]
  | drop => exact .dropped

/-! ## Machines -/

variable {State : Type v} {Input : Type w} {Output : Type*}

/-- The steps of a machine are of the pattern. -/
def Brackets (next : Next State Input Output) (phase : State → Phase Result) (kind : Input → Kind)
    (cancelled : Result) : Prop :=
  ∀ state input output following, next state input = some (output, following) →
    Step cancelled (phase state) (kind input) (phase following)

variable {next : Next State Input Output} {view : State → Phase Result} {kindOf : Input → Kind}
  {start state : State} {log : Log Input Output}

/-- Every run has a history. -/
theorem Brackets.history (hnext : Brackets next view kindOf cancelled)
    (hstart : view start = .idle) (h : Exec next start log state) :
    History cancelled (log.map fun entry ↦ kindOf entry.1) (view state) := by
  induction h with
  | refl =>
      rw [hstart]
      exact .idle (by simp) ⟨by simp, by simp, by simp⟩
  | snoc _ hstep ih => exact ih.step (hnext _ _ _ _ hstep)

/-- A run that acquired the resource and has returned released it exactly once unless it abandoned
it, and its result is that of a cancellation when there was one. -/
theorem Brackets.returned (hnext : Brackets next view kindOf cancelled)
    (hstart : view start = .idle) (h : Exec next start log state) {result : Result}
    (hreturned : view state = .returned result) {acquiring : Input}
    (hmem : acquiring ∈ log.map Prod.fst) (hacquire : kindOf acquiring = .acquire) :
    ((log.map Prod.fst).countP (fun input ↦ kindOf input == .release) = 1 ↔
      ∀ input ∈ log.map Prod.fst, kindOf input ≠ .abandon) ∧
    (∀ input ∈ log.map Prod.fst, kindOf input = .cancel → result = cancelled) := by
  have hhistory := hnext.history hstart h
  have hkinds : (log.map fun entry ↦ kindOf entry.1) = (log.map Prod.fst).map kindOf := by
    rw [List.map_map]
    rfl
  have hcount : (log.map Prod.fst).countP (fun input ↦ kindOf input == .release) =
      ((log.map Prod.fst).map kindOf).count .release := by
    simp only [List.count_eq_countP, List.countP_map]
    rfl
  rw [hreturned, hkinds] at hhistory
  rw [hcount]
  cases hhistory with
  | refused hnone => exact absurd (List.mem_map.mpr ⟨acquiring, hmem, hacquire⟩) hnone
  | abandoned hcancel habandon hrelease =>
      obtain ⟨input, hinput, hkind⟩ := List.mem_map.mp habandon
      refine ⟨⟨fun hone ↦ ?_, fun hnone ↦ absurd hkind (hnone input hinput)⟩,
        fun input hinput hkind ↦ absurd (List.mem_map.mpr ⟨input, hinput, hkind⟩) hcancel⟩
      rw [List.count_eq_zero.mpr hrelease] at hone
      cases hone
  | released hcancel habandon hrelease =>
      refine ⟨⟨fun _ input hinput hkind ↦ ?_, fun _ ↦ hrelease⟩, fun input hinput hkind ↦ ?_⟩
      · exact habandon (List.mem_map.mpr ⟨input, hinput, hkind⟩)
      · exact hcancel (List.mem_map.mpr ⟨input, hinput, hkind⟩)

end Unbounded.Execution.Bracket
