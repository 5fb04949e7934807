import Mathlib.Data.List.Basic

/-!
# Runs of a labelled partial step

`runLabels step start labels` executes one step per label and is `none` as soon
as a label is not enabled.  The rules below carry a property of states through
whole runs: `invariant_of_run` when every step preserves it, and
`everywhere_iff_guards` when a step preserves it exactly under a guard on the
state before the step.  `rank_add_countSteps_le` bounds how often a kind of step
is taken, and `exists_run_to_done` is the rule for termination.
-/

set_option autoImplicit false

namespace ChlorosSnfs.Library.Runs

universe u v

variable {State : Type u} {Label : Type v}

def runLabels (step : State → Label → Option State) :
    State → List Label → Option State
  | state, [] => some state
  | state, label :: rest => (step state label).bind fun next =>
      runLabels step next rest

@[simp]
theorem runLabels_nil (step : State → Label → Option State) (state : State) :
    runLabels step state [] = some state := rfl

theorem runLabels_cons_eq_some (step : State → Label → Option State)
    (state final : State) (label : Label) (rest : List Label) :
    runLabels step state (label :: rest) = some final ↔
      ∃ next, step state label = some next ∧
        runLabels step next rest = some final := by
  simp [runLabels, Option.bind_eq_some_iff]

theorem runLabels_append (step : State → Label → Option State) (state : State)
    (first second : List Label) :
    runLabels step state (first ++ second) =
      (runLabels step state first).bind fun middle =>
        runLabels step middle second := by
  induction first generalizing state with
  | nil => rfl
  | cons label rest inductionHypothesis =>
      rw [List.cons_append, runLabels, runLabels]
      cases step state label with
      | none => rfl
      | some next => exact inductionHypothesis next

theorem runLabels_append_eq_some {step : State → Label → Option State}
    {start final : State} {first second : List Label} :
    runLabels step start (first ++ second) = some final ↔
      ∃ middle, runLabels step start first = some middle ∧
        runLabels step middle second = some final := by
  rw [runLabels_append, Option.bind_eq_some_iff]

theorem runLabels_concat_eq_some {step : State → Label → Option State}
    {start final : State} {labels : List Label} {label : Label} :
    runLabels step start (labels ++ [label]) = some final ↔
      ∃ middle, runLabels step start labels = some middle ∧
        step middle label = some final := by
  simp [runLabels_append_eq_some, runLabels_cons_eq_some]

/-- A property that every step preserves holds at the end of every run. -/
theorem invariant_of_run {step : State → Label → Option State}
    {invariant : State → Prop}
    (preserved : ∀ state label next, invariant state →
      step state label = some next → invariant next)
    {start final : State} {labels : List Label}
    (initially : invariant start)
    (run : runLabels step start labels = some final) : invariant final := by
  induction labels generalizing start with
  | nil =>
      cases Option.some.inj run
      exact initially
  | cons label rest inductionHypothesis =>
      obtain ⟨next, first, remaining⟩ :=
        (runLabels_cons_eq_some step start final label rest).mp run
      exact inductionHypothesis (preserved start label next initially first)
        remaining

/-! ## Properties of every state a run visits -/

/-- `property` holds in every state the run visits, the first and the last
included. -/
def Everywhere (step : State → Label → Option State) (property : State → Prop) :
    State → List Label → Prop
  | state, [] => property state
  | state, label :: rest => property state ∧
      ∀ next, step state label = some next → Everywhere step property next rest

/-- `guard` holds of the state and label of every step the run takes. -/
def EveryStep (step : State → Label → Option State)
    (guard : State → Label → Prop) : State → List Label → Prop
  | _, [] => True
  | state, label :: rest => guard state label ∧
      ∀ next, step state label = some next → EveryStep step guard next rest

theorem everyStep_iff_forall {step : State → Label → Option State}
    {guard : State → Label → Prop} {start : State} {labels : List Label} :
    EveryStep step guard start labels ↔
      ∀ earlier label later state, labels = earlier ++ label :: later →
        runLabels step start earlier = some state → guard state label := by
  induction labels generalizing start with
  | nil => simp [EveryStep]
  | cons head rest inductionHypothesis =>
      simp only [EveryStep, inductionHypothesis]
      constructor
      · rintro ⟨atHead, behind⟩ earlier label later state split run
        cases earlier with
        | nil =>
            cases split
            cases Option.some.inj run
            exact atHead
        | cons first others =>
            cases split
            obtain ⟨next, stepped, remaining⟩ :=
              (runLabels_cons_eq_some step start state head others).mp run
            exact behind next stepped others label later state rfl remaining
      · intro every
        refine ⟨every [] head rest start rfl rfl, ?_⟩
        intro next stepped earlier label later state split run
        refine every (head :: earlier) label later state (by rw [split]; rfl) ?_
        exact (runLabels_cons_eq_some step start state head earlier).mpr
          ⟨next, stepped, run⟩

/-- A property that steps preserve under a guard holds at the end of every run
whose steps all meet the guard. -/
theorem invariant_of_guarded_run {step : State → Label → Option State}
    {invariant : State → Prop} {guard : State → Label → Prop}
    (preserved : ∀ state label next, invariant state → guard state label →
      step state label = some next → invariant next)
    {start final : State} {labels : List Label}
    (initially : invariant start) (guards : EveryStep step guard start labels)
    (run : runLabels step start labels = some final) : invariant final := by
  induction labels generalizing start with
  | nil =>
      cases Option.some.inj run
      exact initially
  | cons label rest inductionHypothesis =>
      obtain ⟨next, first, remaining⟩ :=
        (runLabels_cons_eq_some step start final label rest).mp run
      exact inductionHypothesis
        (preserved start label next initially guards.1 first)
        (guards.2 next first) remaining

theorem Everywhere.head {step : State → Label → Option State}
    {property : State → Prop} {start : State} {labels : List Label}
    (everywhere : Everywhere step property start labels) : property start := by
  cases labels with
  | nil => exact everywhere
  | cons label rest => exact everywhere.1

theorem Everywhere.mono {step : State → Label → Option State}
    {property weaker : State → Prop} (implied : ∀ state, property state → weaker state)
    {start : State} {labels : List Label}
    (everywhere : Everywhere step property start labels) :
    Everywhere step weaker start labels := by
  induction labels generalizing start with
  | nil => exact implied start everywhere
  | cons label rest inductionHypothesis =>
      exact ⟨implied start everywhere.1, fun next first =>
        inductionHypothesis (everywhere.2 next first)⟩

theorem Everywhere.concat {step : State → Label → Option State}
    {property : State → Prop} {start final : State} {labels : List Label}
    {label : Label} (everywhere : Everywhere step property start labels)
    (run : runLabels step start (labels ++ [label]) = some final)
    (atEnd : property final) :
    Everywhere step property start (labels ++ [label]) := by
  induction labels generalizing start with
  | nil =>
      refine ⟨everywhere, ?_⟩
      intro next stepped
      rw [List.nil_append, runLabels, stepped] at run
      cases Option.some.inj run
      exact atEnd
  | cons head rest inductionHypothesis =>
      refine ⟨everywhere.1, ?_⟩
      intro next stepped
      rw [List.cons_append, runLabels, stepped] at run
      exact inductionHypothesis (everywhere.2 next stepped) run

/-- What holds of every state visited holds on both sides of every step. -/
theorem Everywhere.everyStep {step : State → Label → Option State}
    {property : State → Prop} {start : State} {labels : List Label}
    (everywhere : Everywhere step property start labels) :
    EveryStep step (fun state label => property state ∧
      ∀ next, step state label = some next → property next) start labels := by
  induction labels generalizing start with
  | nil => trivial
  | cons label rest inductionHypothesis =>
      exact ⟨⟨everywhere.1, fun next first => (everywhere.2 next first).head⟩,
        fun next first => inductionHypothesis (everywhere.2 next first)⟩

/-- A property that steps preserve under a guard holds in every state visited, if
all steps meet the guard. -/
theorem everywhere_of_guards {step : State → Label → Option State}
    {invariant : State → Prop} {guard : State → Label → Prop}
    (preserved : ∀ state label next, invariant state → guard state label →
      step state label = some next → invariant next)
    {start : State} {labels : List Label} (initially : invariant start)
    (guards : EveryStep step guard start labels) :
    Everywhere step invariant start labels := by
  induction labels generalizing start with
  | nil => exact initially
  | cons label rest inductionHypothesis =>
      refine ⟨initially, ?_⟩
      intro next first
      have later := preserved start label next initially guards.1 first
      exact inductionHypothesis later (guards.2 next first)

theorem EveryStep.and {step : State → Label → Option State}
    {first second : State → Label → Prop} {start : State} {labels : List Label}
    (holds : EveryStep step first start labels)
    (also : EveryStep step second start labels) :
    EveryStep step (fun state label => first state label ∧ second state label)
      start labels := by
  induction labels generalizing start with
  | nil => trivial
  | cons label rest inductionHypothesis =>
      exact ⟨⟨holds.1, also.1⟩, fun next stepped =>
        inductionHypothesis (holds.2 next stepped) (also.2 next stepped)⟩

/-- What follows from a guard in every state with an invariant that the guard
keeps holds of every step as the guard does. -/
theorem EveryStep.imp_of_invariant {step : State → Label → Option State}
    {invariant : State → Prop} {first second : State → Label → Prop}
    (preserved : ∀ state label next, invariant state → first state label →
      step state label = some next → invariant next)
    (implied : ∀ state label, invariant state → first state label →
      second state label)
    {start : State} {labels : List Label} (initially : invariant start)
    (holds : EveryStep step first start labels) :
    EveryStep step second start labels := by
  induction labels generalizing start with
  | nil => trivial
  | cons label rest inductionHypothesis =>
      refine ⟨implied start label initially holds.1, ?_⟩
      intro next stepped
      have later := preserved start label next initially holds.1 stepped
      exact inductionHypothesis later (holds.2 next stepped)

/-- When each step keeps the property exactly under the guard, a run visits
only states with the property exactly when all its steps meet the guard.  An
invariant may be used that survives as long as the property does. -/
theorem everywhere_iff_guards_of_invariant {step : State → Label → Option State}
    {invariant property : State → Prop} {guard : State → Label → Prop}
    (exact : ∀ state label next, invariant state → property state →
      step state label = some next → (property next ↔ guard state label))
    (preserved : ∀ state label next, invariant state → property state →
      step state label = some next → property next → invariant next)
    {start final : State} {labels : List Label}
    (invariantInitially : invariant start) (initially : property start)
    (run : runLabels step start labels = some final) :
    Everywhere step property start labels ↔ EveryStep step guard start labels := by
  induction labels generalizing start with
  | nil => simp [Everywhere, EveryStep, initially]
  | cons label rest inductionHypothesis =>
      obtain ⟨next, first, remaining⟩ :=
        (runLabels_cons_eq_some step start final label rest).mp run
      have successors : ∀ {claim : State → Prop},
          (∀ other, step start label = some other → claim other) ↔
            claim next := by
        intro claim
        constructor
        · intro all
          exact all next first
        · intro holds other second
          cases Option.some.inj (first.symm.trans second)
          exact holds
      have nextExact :=
        exact start label next invariantInitially initially first
      have nextInvariant :=
        preserved start label next invariantInitially initially first
      simp only [Everywhere, EveryStep, initially, true_and, successors]
      constructor
      · intro everywhere
        have nextHolds := everywhere.head
        exact ⟨nextExact.mp nextHolds, (inductionHypothesis
          (nextInvariant nextHolds) nextHolds remaining).mp everywhere⟩
      · rintro ⟨guarded, steps⟩
        have nextHolds := nextExact.mpr guarded
        exact (inductionHypothesis (nextInvariant nextHolds) nextHolds
          remaining).mpr steps

/-- The rule without an invariant. -/
theorem everywhere_iff_guards {step : State → Label → Option State}
    {property : State → Prop} {guard : State → Label → Prop}
    (exact : ∀ state label next, property state →
      step state label = some next → (property next ↔ guard state label))
    {start final : State} {labels : List Label}
    (initially : property start)
    (run : runLabels step start labels = some final) :
    Everywhere step property start labels ↔ EveryStep step guard start labels :=
  everywhere_iff_guards_of_invariant
    (fun state label next _ holds stepped =>
      exact state label next holds stepped)
    (fun _ _ _ _ _ _ _ => trivial) trivial initially run

/-- A guard that the labels of a run meet one by one, under an invariant that they
keep. -/
theorem everyStep_of_invariant {step : State → Label → Option State}
    {invariant : State → Prop} {guard : State → Label → Prop}
    {labels : List Label}
    (each : ∀ label ∈ labels, ∀ state, invariant state → guard state label ∧
      ∀ next, step state label = some next → invariant next)
    {start : State} (initially : invariant start) :
    EveryStep step guard start labels := by
  induction labels generalizing start with
  | nil => trivial
  | cons label rest inductionHypothesis =>
      obtain ⟨guarded, kept⟩ := each label List.mem_cons_self start initially
      refine ⟨guarded, ?_⟩
      intro next stepped
      apply inductionHypothesis _ (kept next stepped)
      intro other member
      exact each other (List.mem_cons_of_mem _ member)

/-! ## The first time -/

/-- A run that ends in the first state with the property. -/
inductive RunsUntil (step : State → Label → Option State)
    (property : State → Prop) : State → List Label → State → Prop
  | here {state : State} : property state →
      RunsUntil step property state [] state
  | later {state next final : State} {label : Label} {rest : List Label} :
      ¬ property state → step state label = some next →
      RunsUntil step property next rest final →
      RunsUntil step property state (label :: rest) final

/-- The step behind a run without the property that brings it about. -/
theorem RunsUntil.concat {step : State → Label → Option State}
    {property : State → Prop} {start middle final : State} {labels : List Label}
    {label : Label}
    (without : Everywhere step (fun state => ¬ property state) start labels)
    (run : runLabels step start labels = some middle)
    (stepped : step middle label = some final) (holds : property final) :
    RunsUntil step property start (labels ++ [label]) final := by
  induction labels generalizing start with
  | nil =>
      cases Option.some.inj run
      exact .later without stepped (.here holds)
  | cons head rest inductionHypothesis =>
      obtain ⟨next, first, remaining⟩ :=
        (runLabels_cons_eq_some step start middle head rest).mp run
      exact .later without.1 first
        (inductionHypothesis (without.2 next first) remaining)

/-! ## How often, how long, and whether ever -/

/-- `property` holds in some state the run visits. -/
def Sometime (step : State → Label → Option State) (property : State → Prop) :
    State → List Label → Prop
  | state, [] => property state
  | state, label :: rest => property state ∨
      ∃ next, step state label = some next ∧ Sometime step property next rest

theorem Sometime.of_head {step : State → Label → Option State}
    {property : State → Prop} {start : State} (labels : List Label)
    (holds : property start) : Sometime step property start labels := by
  cases labels with
  | nil => exact holds
  | cons label rest => exact Or.inl holds

theorem not_everywhere_not_iff {step : State → Label → Option State}
    {property : State → Prop} {start : State} {labels : List Label} :
    ¬ Everywhere step (fun state => ¬ property state) start labels ↔
      Sometime step property start labels := by
  induction labels generalizing start with
  | nil => simp [Everywhere, Sometime]
  | cons label rest inductionHypothesis =>
      simp only [Everywhere, Sometime, ← inductionHypothesis, not_and_or,
        not_not, not_forall, exists_prop]

/-- The number of steps of a run that pass the test. -/
def countSteps (step : State → Label → Option State)
    (test : State → Label → Bool) : State → List Label → Nat
  | _, [] => 0
  | state, label :: rest => (if test state label then 1 else 0) +
      match step state label with
      | some next => countSteps step test next rest
      | none => 0

/-- A step somewhere in a run that passes the test. -/
theorem one_le_countSteps {step : State → Label → Option State}
    {test : State → Label → Bool} {start middle : State} {early late : List Label}
    {label : Label} (run : runLabels step start early = some middle)
    (passes : test middle label = true) :
    1 ≤ countSteps step test start (early ++ label :: late) := by
  induction early generalizing start with
  | nil =>
      cases Option.some.inj run
      simp only [List.nil_append, countSteps, passes, if_true]
      omega
  | cons other rest inductionHypothesis =>
      obtain ⟨next, first, remaining⟩ :=
        (runLabels_cons_eq_some step start middle other rest).mp run
      have later := inductionHypothesis remaining
      simp only [List.cons_append, countSteps, first]
      omega

/-- Steps of a kind that their labels tell. -/
theorem countSteps_label {step : State → Label → Option State} (test : Label → Bool)
    {start final : State} {labels : List Label}
    (run : runLabels step start labels = some final) :
    countSteps step (fun _ label => test label) start labels = labels.countP test := by
  induction labels generalizing start with
  | nil => rfl
  | cons label rest inductionHypothesis =>
      obtain ⟨next, first, remaining⟩ :=
        (runLabels_cons_eq_some step start final label rest).mp run
      rw [countSteps, first, List.countP_cons, Nat.add_comm]
      exact congrArg (· + _) (inductionHypothesis remaining)

/-- While the property lasts, a rank that no step raises and every step passing
the test lowers bounds the number of such steps. -/
theorem rank_add_countSteps_le {step : State → Label → Option State}
    {invariant property : State → Prop} {rank : State → Nat}
    {test : State → Label → Bool}
    (descends : ∀ state label next, invariant state →
      step state label = some next → property next →
        invariant next ∧
          rank next + (if test state label then 1 else 0) ≤ rank state)
    {start final : State} {labels : List Label} (initially : invariant start)
    (everywhere : Everywhere step property start labels)
    (run : runLabels step start labels = some final) :
    invariant final ∧
      rank final + countSteps step test start labels ≤ rank start := by
  induction labels generalizing start with
  | nil =>
      cases Option.some.inj run
      exact ⟨initially, by simp [countSteps]⟩
  | cons label rest inductionHypothesis =>
      obtain ⟨next, first, remaining⟩ :=
        (runLabels_cons_eq_some step start final label rest).mp run
      have later := everywhere.2 next first
      obtain ⟨kept, lower⟩ :=
        descends start label next initially first later.head
      obtain ⟨finally_, bound⟩ := inductionHypothesis kept later remaining
      refine ⟨finally_, ?_⟩
      simp only [countSteps, first]
      omega

/-- When every step that passes the first test lowers a rank, and only one that passes
the second may raise it, and by one, the first kind is as rare as the second and the
rank allow. -/
theorem rank_add_countSteps_le_add {step : State → Label → Option State}
    {invariant : State → Prop} {rank : State → Nat} {test credit : State → Label → Bool}
    {labels : List Label}
    (descends : ∀ label ∈ labels, ∀ state next, invariant state →
      step state label = some next → invariant next →
        rank next + (if test state label then 1 else 0) ≤
          rank state + (if credit state label then 1 else 0))
    {start final : State} (everywhere : Everywhere step invariant start labels)
    (run : runLabels step start labels = some final) :
    rank final + countSteps step test start labels ≤
      rank start + countSteps step credit start labels := by
  induction labels generalizing start with
  | nil =>
      cases Option.some.inj run
      simp [countSteps]
  | cons label rest inductionHypothesis =>
      obtain ⟨next, first, remaining⟩ :=
        (runLabels_cons_eq_some step start final label rest).mp run
      have later := everywhere.2 next first
      have lower := descends label List.mem_cons_self start next everywhere.1 first
        later.head
      have bound := inductionHypothesis
        (fun other member => descends other (List.mem_cons_of_mem _ member)) later remaining
      simp only [countSteps, first]
      omega

/-- A system that steps under one label, with a smaller measure after each step,
until it is done. -/
theorem exists_run_to_done {step : State → Label → Option State} {label : Label}
    {running done : State → Prop} (measure : State → Nat)
    (progress : ∀ state, running state → ∃ next,
      step state label = some next ∧
        (done next ∨ (running next ∧ measure next < measure state)))
    {start : State} (runs : running start) :
    ∃ steps final, runLabels step start (List.replicate steps label) = some final ∧
      done final := by
  induction size : measure start using Nat.strongRecOn generalizing start with
  | ind bound inductionHypothesis =>
      obtain ⟨next, first, finished | ⟨continues, smaller⟩⟩ :=
        progress start runs
      · exact ⟨1, next, by simp [runLabels, first], finished⟩
      · obtain ⟨steps, final, run, finished⟩ :=
          inductionHypothesis (measure next) (by omega) continues rfl
        refine ⟨steps + 1, final, ?_, finished⟩
        rw [List.replicate_succ, runLabels_cons_eq_some]
        exact ⟨next, first, run⟩

/-! ## What a run leaves recorded -/

/-- The record of a run: every step may change it, seeing both its states. -/
def recorded {Record : Type*} (step : State → Label → Option State)
    (note : Record → State → Label → State → Record) :
    Record → State → List Label → Record
  | past, _, [] => past
  | past, state, label :: rest =>
      match step state label with
      | some next => recorded step note (note past state label next) next rest
      | none => past

theorem recorded_of_run {Record : Type*} {step : State → Label → Option State}
    {note : Record → State → Label → State → Record}
    {relation : State → Record → Prop}
    (preserved : ∀ state past label next, relation state past →
      step state label = some next →
        relation next (note past state label next))
    {start final : State} {past : Record} {labels : List Label}
    (initially : relation start past)
    (run : runLabels step start labels = some final) :
    relation final (recorded step note past start labels) := by
  induction labels generalizing start past with
  | nil =>
      cases Option.some.inj run
      exact initially
  | cons label rest inductionHypothesis =>
      obtain ⟨next, first, remaining⟩ :=
        (runLabels_cons_eq_some step start final label rest).mp run
      simp only [recorded, first]
      exact inductionHypothesis (preserved start past label next initially first)
        remaining

/-! ## Simulation -/

/-- A step that `view` shows either as a step under the given label or as no
step at all. -/
def Simulated {Coarse : Type*} {CoarseLabel : Type*} (view : State → Coarse)
    (coarseStep : Coarse → CoarseLabel → Option Coarse)
    (state next : State) : Option CoarseLabel → Prop
  | some label => coarseStep (view state) label = some (view next)
  | none => view next = view state

/-- A run whose steps all meet the guard is seen as a run of the coarser
system. -/
theorem exists_run_of_simulated {Coarse : Type*} {CoarseLabel : Type*}
    {view : State → Coarse}
    {coarseStep : Coarse → CoarseLabel → Option Coarse}
    {step : State → Label → Option State}
    (shown : State → Label → Option CoarseLabel)
    {invariant : State → Prop} {guard : State → Label → Prop}
    (simulated : ∀ state label next, invariant state →
      step state label = some next →
        Simulated view coarseStep state next (shown state label))
    (preserved : ∀ state label next, invariant state → guard state label →
      step state label = some next → invariant next)
    {start final : State} {labels : List Label}
    (initially : invariant start) (guards : EveryStep step guard start labels)
    (run : runLabels step start labels = some final) :
    ∃ coarseLabels, runLabels coarseStep (view start) coarseLabels =
      some (view final) := by
  induction labels generalizing start with
  | nil =>
      cases Option.some.inj run
      exact ⟨[], rfl⟩
  | cons label rest inductionHypothesis =>
      obtain ⟨next, first, remaining⟩ :=
        (runLabels_cons_eq_some step start final label rest).mp run
      obtain ⟨coarseLabels, coarseRun⟩ := inductionHypothesis
        (preserved start label next initially guards.1 first)
        (guards.2 next first) remaining
      have shownStep := simulated start label next initially first
      cases shownLabel : shown start label with
      | some coarseLabel =>
          rw [shownLabel] at shownStep
          exact ⟨coarseLabel :: coarseLabels,
            (runLabels_cons_eq_some _ _ _ _ _).mpr ⟨_, shownStep, coarseRun⟩⟩
      | none =>
          rw [shownLabel] at shownStep
          have stays : view next = view start := shownStep
          exact ⟨coarseLabels, stays ▸ coarseRun⟩

end ChlorosSnfs.Library.Runs
