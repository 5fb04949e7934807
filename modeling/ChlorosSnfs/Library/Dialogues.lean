import ChlorosSnfs.Library.Runs
import Mathlib.Logic.Function.Basic
import Mathlib.Logic.Relation

/-!
# Calls that ask a service step by step

A call is a dialogue: it asks, goes on with the answer, and is done with a result.
Several parties carry out calls against one shared state, and between two questions
of one party the others may ask theirs.  `joint_refines` is the rule for showing
that every call nevertheless takes effect at one moment between its beginning and
its end: that the joint system behaves as `AtomicStep` does.
-/

set_option autoImplicit false

namespace ChlorosSnfs.Library.Dialogues

open ChlorosSnfs.Library.Runs

universe u

inductive Dialogue (Question Answer Result : Type u) : Type u where
  | done (result : Result)
  | ask (question : Question) (next : Answer → Dialogue Question Answer Result)

variable {Question Answer Result State : Type u}

namespace Dialogue

/-- One dialogue after another. -/
def bind {Later : Type u} : Dialogue Question Answer Result →
    (Result → Dialogue Question Answer Later) → Dialogue Question Answer Later
  | done result, later => later result
  | ask question next, later => ask question fun answer => (next answer).bind later

/-- A dialogue that nobody interrupts. -/
def run {Failure : Type u}
    (serve : Question → State → Except Failure (Answer × State)) :
    Dialogue Question Answer Result → State → Except Failure (Result × State)
  | done result, state => .ok (result, state)
  | ask question next, state => do
    let (answer, state) ← serve question state
    (next answer).run serve state

theorem run_bind {Later Failure : Type u}
    (serve : Question → State → Except Failure (Answer × State))
    (first : Dialogue Question Answer Result)
    (later : Result → Dialogue Question Answer Later) (state : State) :
    (first.bind later).run serve state = (do
      let (result, state) ← first.run serve state
      (later result).run serve state) := by
  induction first generalizing state with
  | done result => rfl
  | ask question next inductionHypothesis =>
      rw [bind, run, run]
      cases serve question state with
      | error failure => rfl
      | ok given => exact inductionHypothesis given.1 given.2

end Dialogue

/-! ## Several parties -/

variable {Party Call Context Change View : Type u}

/-- What can be seen from outside. -/
inductive Event (Party Call Result View : Type u) : Type u where
  | begun (party : Party) (call : Call)
  | ended (party : Party) (call : Call) (result : Result)
  | changed (after : View)

/-- How calls run, how questions are answered, and what else may change the shared
state.  `view` is the part of it that the calls are about. -/
structure Service (Call Context Question Answer Result Change State View : Type u) where
  dialogue : Call → Dialogue Question Answer Result
  answer : Context → Question → State → Option (Answer × State)
  change : Change → State → Option State
  view : State → View

/-- The shared state and the call each party is in, with the rest of its dialogue. -/
structure Joint (Party Call Question Answer Result State View : Type u) where
  shared : State
  engaged : Party → Option (Call × Dialogue Question Answer Result)
  history : List (Event Party Call Result View)

inductive Move (Party Call Context Change : Type u) : Type u where
  | begin (party : Party) (call : Call)
  | ask (party : Party) (context : Context)
  | finish (party : Party)
  | outside (change : Change)

variable [DecidableEq Party]

def jointStep
    (service : Service Call Context Question Answer Result Change State View)
    (joint : Joint Party Call Question Answer Result State View) :
    Move Party Call Context Change →
      Option (Joint Party Call Question Answer Result State View)
  | .begin party call =>
      match joint.engaged party with
      | none => some ⟨joint.shared,
          Function.update joint.engaged party (some (call, service.dialogue call)),
          .begun party call :: joint.history⟩
      | some _ => none
  | .ask party context =>
      match joint.engaged party with
      | some (call, .ask question next) =>
          match service.answer context question joint.shared with
          | some (answer, after) => some ⟨after,
              Function.update joint.engaged party (some (call, next answer)),
              joint.history⟩
          | none => none
      | _ => none
  | .finish party =>
      match joint.engaged party with
      | some (call, .done result) => some ⟨joint.shared,
          Function.update joint.engaged party none,
          .ended party call result :: joint.history⟩
      | _ => none
  | .outside change =>
      match service.change change joint.shared with
      | some after => some ⟨after, joint.engaged,
          .changed (service.view after) :: joint.history⟩
      | none => none

/-- Nobody is in a call. -/
def atRest (state : State) : Joint Party Call Question Answer Result State View :=
  ⟨state, fun _ => none, []⟩

/-! ## Calls that take effect at once -/

inductive Status (Call Result : Type u) : Type u where
  | idle
  | pending (call : Call)
  | settled (call : Call) (result : Result)

structure Atomic (Party Call Result View : Type u) where
  shared : View
  status : Party → Status Call Result
  history : List (Event Party Call Result View)

/-- `effect` says what a call may do and return, all at one moment while it is
pending. -/
inductive AtomicStep (effect : Call → View → Result → View → Prop)
    (atomic : Atomic Party Call Result View) : Atomic Party Call Result View → Prop
  | begin (party : Party) (call : Call) (idle : atomic.status party = .idle) :
      AtomicStep effect atomic ⟨atomic.shared,
        Function.update atomic.status party (.pending call),
        .begun party call :: atomic.history⟩
  | act (party : Party) (call : Call) (result : Result) (after : View)
      (pending : atomic.status party = .pending call)
      (happens : effect call atomic.shared result after) :
      AtomicStep effect atomic ⟨after,
        Function.update atomic.status party (.settled call result), atomic.history⟩
  | finish (party : Party) (call : Call) (result : Result)
      (settled : atomic.status party = .settled call result) :
      AtomicStep effect atomic ⟨atomic.shared,
        Function.update atomic.status party .idle,
        .ended party call result :: atomic.history⟩
  | outside (after : View) :
      AtomicStep effect atomic ⟨after, atomic.status, .changed after :: atomic.history⟩

def statusOf : Option (Call × Dialogue Question Answer Result) → Status Call Result
  | none => .idle
  | some (call, .done result) => .settled call result
  | some (call, .ask _ _) => .pending call

def atomicOf (view : State → View)
    (joint : Joint Party Call Question Answer Result State View) :
    Atomic Party Call Result View :=
  ⟨view joint.shared, fun party => statusOf (joint.engaged party), joint.history⟩

/-! ## The rule -/

/-- Where a call stands once `state` has become `after`: it is done, and this was its
effect, or nothing has happened and it is underway. -/
def Settles (view : State → View) (effect : Call → View → Result → View → Prop)
    (underway : State → Call → Dialogue Question Answer Result → Prop) (call : Call)
    (state after : State) : Dialogue Question Answer Result → Prop
  | .done result => effect call (view state) result (view after)
  | .ask question next =>
      view after = view state ∧ underway after call (.ask question next)

/-- What is to be shown of single steps.  `underway` holds of a call that still has
questions to ask, and no step of another party may break it. -/
structure SettlesCalls
    (service : Service Call Context Question Answer Result Change State View)
    (effect : Call → View → Result → View → Prop) (invariant : State → Prop)
    (underway : State → Call → Dialogue Question Answer Result → Prop) : Prop where
  begins : ∀ state call, invariant state →
    Settles service.view effect underway call state state (service.dialogue call)
  answers : ∀ context state call question next answer after, invariant state →
    underway state call (.ask question next) →
    service.answer context question state = some (answer, after) →
    Settles service.view effect underway call state after (next answer)
  kept : ∀ context state question answer after, invariant state →
    service.answer context question state = some (answer, after) →
    invariant after ∧ ∀ call dialogue, underway state call dialogue →
      underway after call dialogue
  changes : ∀ change state after, invariant state →
    service.change change state = some after →
    invariant after ∧ ∀ call dialogue, underway state call dialogue →
      underway after call dialogue

/-- The invariant, for the shared state and for every call with questions left. -/
structure AllUnderway (invariant : State → Prop)
    (underway : State → Call → Dialogue Question Answer Result → Prop)
    (joint : Joint Party Call Question Answer Result State View) : Prop where
  invariant : invariant joint.shared
  underway : ∀ party call question next,
    joint.engaged party = some (call, .ask question next) →
      underway joint.shared call (.ask question next)

section Rule

variable {service : Service Call Context Question Answer Result Change State View}
  {effect : Call → View → Result → View → Prop} {invariant : State → Prop}
  {underway : State → Call → Dialogue Question Answer Result → Prop}
  {joint next : Joint Party Call Question Answer Result State View}

omit [DecidableEq Party] in
theorem status_atomicOf (view : State → View) {party : Party}
    {now : Option (Call × Dialogue Question Answer Result)}
    (engaged : joint.engaged party = now) :
    (atomicOf view joint).status party = statusOf now :=
  congrArg statusOf engaged

theorem atomicOf_moved (view : State → View) (after : State)
    (engaged : Party → Option (Call × Dialogue Question Answer Result)) (party : Party)
    (now : Option (Call × Dialogue Question Answer Result))
    (history : List (Event Party Call Result View)) :
    atomicOf view ⟨after, Function.update engaged party now, history⟩ =
      ⟨view after, Function.update (fun other => statusOf (engaged other)) party
        (statusOf now), history⟩ := by
  rw [atomicOf]
  exact congrArg (fun status => Atomic.mk (view after) status history)
    (Function.comp_update statusOf engaged party now)

/-- A party has moved on; for the others only the shared state is another one. -/
theorem AllUnderway.moved (holds : AllUnderway invariant underway joint) {after : State}
    (kept : invariant after)
    (stays : ∀ call dialogue, underway joint.shared call dialogue →
      underway after call dialogue)
    {party : Party} {now : Option (Call × Dialogue Question Answer Result)}
    (own : ∀ call question rest, now = some (call, .ask question rest) →
      underway after call (.ask question rest))
    (history : List (Event Party Call Result View)) :
    AllUnderway invariant underway
      ⟨after, Function.update joint.engaged party now, history⟩ := by
  refine ⟨kept, ?_⟩
  intro other call question rest engaged
  dsimp only at engaged
  by_cases same : other = party
  · subst same
    rw [Function.update_self] at engaged
    exact own call question rest engaged
  · rw [Function.update_of_ne same] at engaged
    exact stays call _ (holds.underway other call question rest engaged)

/-- The first questions of a call, or its end if it has none. -/
theorem begin_refines (rules : SettlesCalls service effect invariant underway)
    (holds : AllUnderway invariant underway joint) {party : Party} {call : Call}
    (idle : joint.engaged party = none) :
    AllUnderway invariant underway ⟨joint.shared,
      Function.update joint.engaged party (some (call, service.dialogue call)),
      .begun party call :: joint.history⟩ ∧
    Relation.ReflTransGen (AtomicStep effect) (atomicOf service.view joint)
      (atomicOf service.view ⟨joint.shared,
        Function.update joint.engaged party (some (call, service.dialogue call)),
        .begun party call :: joint.history⟩) := by
  have settles := rules.begins joint.shared call holds.invariant
  have started : AtomicStep effect (atomicOf service.view joint)
      ⟨service.view joint.shared,
        Function.update (fun other => statusOf (joint.engaged other)) party
          (.pending call),
        .begun party call :: joint.history⟩ := by
    exact .begin party call (status_atomicOf service.view idle)
  rw [atomicOf_moved]
  cases dialogue : service.dialogue call with
  | ask question rest =>
      rw [dialogue] at settles
      refine ⟨holds.moved holds.invariant (fun _ _ same => same) ?_ _, .single started⟩
      intro other asked later same
      cases same
      exact settles.2
  | done result =>
      rw [dialogue] at settles
      refine ⟨holds.moved holds.invariant (fun _ _ same => same) ?_ _, ?_⟩
      · intro other asked later same
        cases same
      · have acts : AtomicStep effect
            ⟨service.view joint.shared,
              Function.update (fun other => statusOf (joint.engaged other)) party
                (.pending call), .begun party call :: joint.history⟩
            ⟨service.view joint.shared,
              Function.update (Function.update
                (fun other => statusOf (joint.engaged other)) party (.pending call))
                party (.settled call result), .begun party call :: joint.history⟩ :=
          .act party call result _ (by simp only [Function.update_self]) settles
        rw [Function.update_idem] at acts
        exact .tail (.single started) acts

theorem step_refines (rules : SettlesCalls service effect invariant underway)
    (holds : AllUnderway invariant underway joint)
    {move : Move Party Call Context Change}
    (stepped : jointStep service joint move = some next) :
    AllUnderway invariant underway next ∧
      Relation.ReflTransGen (AtomicStep effect) (atomicOf service.view joint)
        (atomicOf service.view next) := by
  cases move with
  | begin party call =>
      simp only [jointStep] at stepped
      split at stepped
      · rename_i idle
        cases stepped
        exact begin_refines rules holds idle
      · cases stepped
  | ask party context =>
      simp only [jointStep] at stepped
      split at stepped
      · rename_i call question rest engaged
        split at stepped
        · rename_i answer after answered
          cases stepped
          have settles := rules.answers context joint.shared call question rest answer
            after holds.invariant (holds.underway party call question rest engaged)
            answered
          obtain ⟨kept, stays⟩ := rules.kept context joint.shared question answer after
            holds.invariant answered
          have pending := status_atomicOf service.view engaged
          rw [atomicOf_moved]
          cases dialogue : rest answer with
          | ask later further =>
              rw [dialogue] at settles
              refine ⟨holds.moved kept stays ?_ _, ?_⟩
              · intro other asked still same
                cases same
                exact settles.2
              · have unmoved : Function.update
                    (fun other => statusOf (joint.engaged other)) party
                    (.pending call) = fun other => statusOf (joint.engaged other) :=
                  Function.update_eq_self_iff.mpr pending.symm
                rw [settles.1, statusOf, unmoved]
                exact .refl
          | done result =>
              rw [dialogue] at settles
              refine ⟨holds.moved kept stays ?_ _, .single ?_⟩
              · intro other asked still same
                cases same
              · exact .act party call result _ pending settles
        · cases stepped
      · cases stepped
  | finish party =>
      simp only [jointStep] at stepped
      split at stepped
      · rename_i call result engaged
        cases stepped
        refine ⟨holds.moved holds.invariant (fun _ _ same => same) ?_ _, ?_⟩
        · intro other asked later same
          cases same
        · rw [atomicOf_moved]
          exact .single (.finish party call result
            (status_atomicOf service.view engaged))
      · cases stepped
  | outside change =>
      simp only [jointStep] at stepped
      split at stepped
      · rename_i after changed
        cases stepped
        obtain ⟨kept, stays⟩ :=
          rules.changes change joint.shared after holds.invariant changed
        refine ⟨⟨kept, ?_⟩, .single (.outside (service.view after))⟩
        intro party call question rest engaged
        exact stays call _ (holds.underway party call question rest engaged)
      · cases stepped

/-- Every run of the parties is a run in which each call takes effect at one moment
between its beginning and its end, with the same history. -/
theorem joint_refines (rules : SettlesCalls service effect invariant underway)
    {start : State} (initially : invariant start)
    {final : Joint Party Call Question Answer Result State View}
    {moves : List (Move Party Call Context Change)}
    (run : runLabels (jointStep service) (atRest start) moves = some final) :
    AllUnderway invariant underway final ∧
      Relation.ReflTransGen (AtomicStep effect)
        ⟨service.view start, fun _ => .idle, []⟩ (atomicOf service.view final) := by
  have atStart : AllUnderway invariant underway
      (atRest start : Joint Party Call Question Answer Result State View) := by
    refine ⟨initially, ?_⟩
    intro party call question rest engaged
    cases engaged
  have preserved : ∀ (joint : Joint Party Call Question Answer Result State View)
      (move : Move Party Call Context Change) later,
      AllUnderway invariant underway joint ∧
        Relation.ReflTransGen (AtomicStep effect)
          ⟨service.view start, fun _ => .idle, []⟩ (atomicOf service.view joint) →
      jointStep service joint move = some later →
      AllUnderway invariant underway later ∧
        Relation.ReflTransGen (AtomicStep effect)
          ⟨service.view start, fun _ => .idle, []⟩ (atomicOf service.view later) := by
    intro joint move later sofar stepped
    obtain ⟨holds, more⟩ := step_refines rules sofar.1 stepped
    exact ⟨holds, sofar.2.trans more⟩
  exact invariant_of_run preserved ⟨atStart, .refl⟩ run

end Rule

/-! ## A call that nobody interrupts -/

theorem settles_of_view_eq {view : State → View}
    {effect : Call → View → Result → View → Prop}
    {underway : State → Call → Dialogue Question Answer Result → Prop} {call : Call}
    {state other after : State} {dialogue : Dialogue Question Answer Result}
    (same : view state = view other)
    (stands : Settles view effect underway call state after dialogue) :
    Settles view effect underway call other after dialogue := by
  cases dialogue with
  | done result =>
      simp only [Settles, ← same] at stands ⊢
      exact stands
  | ask question next =>
      simp only [Settles, ← same] at stands ⊢
      exact stands

/-- Such a call has taken effect when it is done. -/
theorem settles_run {Failure : Type u}
    {service : Service Call Context Question Answer Result Change State View}
    {effect : Call → View → Result → View → Prop} {invariant : State → Prop}
    {underway : State → Call → Dialogue Question Answer Result → Prop}
    (settles : SettlesCalls service effect invariant underway)
    {serve : Question → State → Except Failure (Answer × State)}
    (serves : ∀ question state answer after,
      serve question state = .ok (answer, after) →
        ∃ context, service.answer context question state = some (answer, after))
    {call : Call} {state after final : State}
    {dialogue : Dialogue Question Answer Result} {result : Result}
    (holds : invariant after)
    (stands : Settles service.view effect underway call state after dialogue)
    (run : dialogue.run serve after = .ok (result, final)) :
    effect call (service.view state) result (service.view final) := by
  induction dialogue generalizing after with
  | done given =>
      cases run
      exact stands
  | ask question next inductionHypothesis =>
      rw [Dialogue.run] at run
      obtain ⟨same, underwayNow⟩ := stands
      cases served : serve question after with
      | error failure =>
          rw [served] at run
          cases run
      | ok replied =>
          obtain ⟨answer, later⟩ := replied
          rw [served] at run
          obtain ⟨context, answered⟩ := serves question after answer later served
          have standsNext := settles.answers context after call question next answer
            later holds underwayNow answered
          have holdsNext := (settles.kept context after question answer later holds
            answered).1
          exact inductionHypothesis answer holdsNext
            (settles_of_view_eq same standsNext) run

end ChlorosSnfs.Library.Dialogues
