import ChlorosSnfs.Library.Runs

/-!
# Runs side by side

One system behaves as another one if beside each of its runs there is a run of the other,
which at each step makes one step or none and agrees with it at all times.  What the other
one does at a step may depend on what happens later; the rule for this goes through the
run knowing what is foretold at every state, from the last state back to the first.
-/

set_option autoImplicit false

namespace ChlorosSnfs.Library.Prophecies

open ChlorosSnfs.Library.Runs

variable {State Label Beside BesideLabel Foretold : Type*}

/-- One step, or none. -/
def MovesOn (besideStep : Beside → BesideLabel → Option Beside) (beside after : Beside) :
    Prop :=
  after = beside ∨ ∃ label, besideStep beside label = some after

/-- A run, and the run beside it, which agree after every step. -/
inductive SideBySide (step : State → Label → Option State)
    (besideStep : Beside → BesideLabel → Option Beside) (agree : State → Beside → Prop) :
    State → Beside → List Label → State → Beside → Prop
  | nil (state : State) (beside : Beside) :
      SideBySide step besideStep agree state beside [] state beside
  | cons {state next final : State} {beside after last : Beside} {label : Label}
      {rest : List Label} (stepped : step state label = some next)
      (alongside : MovesOn besideStep beside after) (agrees : agree next after)
      (remaining : SideBySide step besideStep agree next after rest final last) :
      SideBySide step besideStep agree state beside (label :: rest) final last

variable {step : State → Label → Option State}
  {besideStep : Beside → BesideLabel → Option Beside} {agree : State → Beside → Prop}

/-- The run beside it is one. -/
theorem SideBySide.exists_run {state final : State} {beside last : Beside}
    {labels : List Label}
    (runs : SideBySide step besideStep agree state beside labels final last) :
    ∃ besideLabels, runLabels besideStep beside besideLabels = some last := by
  induction runs with
  | nil state beside => exact ⟨[], rfl⟩
  | cons stepped alongside agrees remaining inductionHypothesis =>
      obtain ⟨rest, run⟩ := inductionHypothesis
      rcases alongside with rfl | ⟨label, moved⟩
      · exact ⟨rest, run⟩
      · exact ⟨label :: rest, (runLabels_cons_eq_some _ _ _ _ _).mpr ⟨_, moved, run⟩⟩

/-- What is to be shown of single steps.  `possible` says what may be foretold of a
state, and `shows` what the other system is like when it is; `bound` is a condition on
the state at the end that all earlier ones then meet. -/
structure Foretells (step : State → Label → Option State)
    (besideStep : Beside → BesideLabel → Option Beside) (invariant bound : State → Prop)
    (possible : State → Foretold → Prop) (shows : Foretold → State → Beside → Prop) :
    Prop where
  bounded : ∀ state label next, step state label = some next → bound next → bound state
  kept : ∀ state label next, invariant state → bound state →
    step state label = some next → invariant next
  back : ∀ state label next, invariant state → bound state →
    step state label = some next → ∀ foretold, possible next foretold →
      ∃ before, possible state before ∧ ∀ beside, shows before state beside →
        ∃ after, MovesOn besideStep beside after ∧ shows foretold next after

section Rule

variable {invariant bound : State → Prop} {possible : State → Foretold → Prop}
  {shows : Foretold → State → Beside → Prop}

theorem Foretells.bounded_of_run
    (foretells : Foretells step besideStep invariant bound possible shows)
    {state final : State} {labels : List Label}
    (run : runLabels step state labels = some final) (bounded : bound final) :
    bound state := by
  induction labels generalizing state with
  | nil =>
      cases Option.some.inj run
      exact bounded
  | cons label rest inductionHypothesis =>
      obtain ⟨next, stepped, remaining⟩ :=
        (runLabels_cons_eq_some step state final label rest).mp run
      exact foretells.bounded state label next stepped (inductionHypothesis remaining)

/-- Whatever is foretold at the end, there is something that is foretold at the start,
and a run beside the run from there. -/
theorem Foretells.exists_beside
    (foretells : Foretells step besideStep invariant bound possible shows)
    (agrees : ∀ foretold state beside, shows foretold state beside → agree state beside)
    {state final : State} {labels : List Label}
    (run : runLabels step state labels = some final) (initially : invariant state)
    (bounded : bound final) {foretold : Foretold} (may : possible final foretold) :
    ∃ before, possible state before ∧ ∀ beside, shows before state beside →
      ∃ last, SideBySide step besideStep agree state beside labels final last ∧
        shows foretold final last := by
  induction labels generalizing state with
  | nil =>
      cases Option.some.inj run
      exact ⟨foretold, may, fun beside shown => ⟨beside, .nil _ beside, shown⟩⟩
  | cons label rest inductionHypothesis =>
      obtain ⟨next, stepped, remaining⟩ :=
        (runLabels_cons_eq_some step state final label rest).mp run
      have nextBounded := foretells.bounded_of_run remaining bounded
      have stateBounded := foretells.bounded state label next stepped nextBounded
      obtain ⟨middle, mayMiddle, later⟩ := inductionHypothesis remaining
        (foretells.kept state label next initially stateBounded stepped)
      obtain ⟨before, mayBefore, shown⟩ :=
        foretells.back state label next initially stateBounded stepped middle mayMiddle
      refine ⟨before, mayBefore, ?_⟩
      intro beside shows
      obtain ⟨after, alongside, afterShows⟩ := shown beside shows
      obtain ⟨last, runs, atEnd⟩ := later after afterShows
      exact ⟨last, .cons stepped alongside (agrees _ _ _ afterShows) runs, atEnd⟩

end Rule

end ChlorosSnfs.Library.Prophecies
