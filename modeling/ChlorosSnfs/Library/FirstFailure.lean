import Mathlib.Data.Option.Basic

/-!
# The first step that fails

A sequence of steps on a state, each of which may fail with a cause.  A sequence
can also stop without one.  The rules run the steps one at a time, from the front.
-/

set_option autoImplicit false

namespace ChlorosSnfs.Library.FirstFailure

variable {State Cause Error Result Last : Type}

/-- Steps that give a result, fail with a cause or stop without one. -/
abbrev Steps (State Cause : Type) : Type → Type :=
  StateT State (Except (Option Cause))

/-- A call that may fail. -/
def attempt (call : State → Except Error Result × State)
    (cause : Error → Cause) : Steps State Cause Result := fun state =>
  match call state with
  | (.ok result, next) => .ok (result, next)
  | (.error error, _) => .error (some (cause error))

/-- A value without which the steps stop. -/
def given (value : Except Error Result) : Steps State Cause Result :=
  fun state =>
    match value with
    | .ok result => .ok (result, state)
    | .error _ => .error none

/-- A value of the state that may be missing. -/
def demand (value : State → Option Result) (cause : Cause) :
    Steps State Cause Result := fun state =>
  match value state with
  | some result => .ok (result, state)
  | none => .error (some cause)

def check (holds : Bool) (cause : Cause) : Steps State Cause Unit :=
  fun state => if holds then .ok ((), state) else .error (some cause)

/-- The cause of the first failure. -/
def firstFailure (steps : Steps State Cause Last) (state : State) :
    Option Cause :=
  match steps state with
  | .ok _ => none
  | .error cause => cause

/-! ## Running the steps -/

section Running

variable {steps : Steps State Cause Result}
  {rest : Result → Steps State Cause Last} {state next : State}
  {result : Result}

theorem bind_of_ok (done : steps state = .ok (result, next)) :
    (steps >>= rest) state = rest result next := by
  change (steps state >>= fun pair => rest pair.1 pair.2) = _
  rw [done]
  rfl

theorem bind_of_error {cause : Option Cause} (failed : steps state = .error cause) :
    (steps >>= rest) state = .error cause := by
  change (steps state >>= fun pair => rest pair.1 pair.2) = _
  rw [failed]
  rfl

theorem attempt_of_ok {call : State → Except Error Result × State}
    {cause : Error → Cause} (called : call state = (.ok result, next)) :
    attempt call cause state = .ok (result, next) := by
  rw [attempt, called]

theorem attempt_of_error {call : State → Except Error Result × State}
    {cause : Error → Cause} {error : Error}
    (called : call state = (.error error, next)) :
    attempt call cause state = .error (some (cause error)) := by
  rw [attempt, called]

theorem given_of_ok {value : Except Error Result} (known : value = .ok result) :
    (given value : Steps State Cause Result) state = .ok (result, state) := by
  subst known
  rfl

theorem demand_of_some {value : State → Option Result} {cause : Cause}
    (known : value state = some result) :
    demand value cause state = .ok (result, state) := by
  rw [demand, known]

theorem demand_of_none {value : State → Option Result} {cause : Cause}
    (missing : value state = none) :
    demand value cause state = .error (some cause) := by
  rw [demand, missing]

theorem check_of_true {holds : Bool} {cause : Cause} (yes : holds = true) :
    check holds cause state = .ok ((), state) := by
  rw [check, if_pos yes]

theorem check_of_false {holds : Bool} {cause : Cause} (no : holds = false) :
    check holds cause state = .error (some cause) := by
  rw [check, no]
  rfl

theorem firstFailure_of_ok (done : steps state = .ok (result, next)) :
    firstFailure steps state = none := by
  rw [firstFailure, done]

theorem firstFailure_of_error {cause : Option Cause}
    (failed : steps state = .error cause) : firstFailure steps state = cause := by
  rw [firstFailure, failed]

end Running

end ChlorosSnfs.Library.FirstFailure
