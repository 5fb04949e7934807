import ChlorosSnfs.Library.Runs
import Mathlib.Logic.Function.Basic

/-!
# Programs that can be cut off

A program works on a map one operation at a time.  It may be cut off in front of
any of them; the next program then starts on the map as it is.  `Safe` is what a
program has to meet for a property of the map to survive this.
-/

set_option autoImplicit false

namespace ChlorosSnfs.Library.CutOff

open ChlorosSnfs.Library.Runs

universe u v w x

abbrev Store (Key : Type u) (Value : Type v) : Type (max u v) := Key → Option Value

/-- The rest of a program; `del` goes on with whether the key was absent. -/
inductive Program (Key : Type u) (Value : Type v) (Result : Type w) where
  | done (result : Result)
  | find (key : Key) (next : Option Value → Program Key Value Result)
  | put (key : Key) (value : Value) (next : Program Key Value Result)
  | del (key : Key) (next : Bool → Program Key Value Result)

variable {Key : Type u} {Value : Type v} {Result : Type w} {Call : Type x}
  [DecidableEq Key]

namespace Program

/-- Not cut off. -/
def run : Program Key Value Result → Store Key Value → Result × Store Key Value
  | done result, store => (result, store)
  | find key next, store => (next (store key)).run store
  | put key value next, store => next.run (Function.update store key (some value))
  | del key next, store =>
      (next (store key).isNone).run (Function.update store key none)

/-- The property holds in front of every operation and behind the last. -/
def Safe (property : Store Key Value → Prop) :
    Program Key Value Result → Store Key Value → Prop
  | done _, store => property store
  | find key next, store => property store ∧ (next (store key)).Safe property store
  | put key value next, store =>
      property store ∧ next.Safe property (Function.update store key (some value))
  | del key next, store =>
      property store ∧
        (next (store key).isNone).Safe property (Function.update store key none)

theorem Safe.holds {property : Store Key Value → Prop}
    {program : Program Key Value Result} {store : Store Key Value}
    (safe : program.Safe property store) : property store := by
  cases program with
  | done result => exact safe
  | find key next => exact safe.1
  | put key value next => exact safe.1
  | del key next => exact safe.1

end Program

/-- The map and what is left of the program that runs on it. -/
structure Machine (Key : Type u) (Value : Type v) (Result : Type w) where
  store : Store Key Value
  running : Option (Program Key Value Result)

inductive Event (Call : Type x) where
  | call (call : Call)
  | operate
  | crash

/-- The next operation; the last one returns. -/
def operate (store : Store Key Value) :
    Program Key Value Result → Machine Key Value Result
  | .done _ => ⟨store, none⟩
  | .find key next => ⟨store, some (next (store key))⟩
  | .put key value next => ⟨Function.update store key (some value), some next⟩
  | .del key next =>
      ⟨Function.update store key none, some (next (store key).isNone)⟩

/-- One program runs at a time. -/
def step (code : Call → Program Key Value Result)
    (machine : Machine Key Value Result) :
    Event Call → Option (Machine Key Value Result)
  | .call call =>
      match machine.running with
      | none => some ⟨machine.store, some (code call)⟩
      | some _ => none
  | .operate => machine.running.map (operate machine.store)
  | .crash => some ⟨machine.store, none⟩

/-- A program that is not cut off comes to its end. -/
theorem operations_run (code : Call → Program Key Value Result)
    (program : Program Key Value Result) (store : Store Key Value) :
    ∃ count, runLabels (step code) ⟨store, some program⟩
      (List.replicate count .operate) = some ⟨(program.run store).2, none⟩ := by
  induction program generalizing store with
  | done result => exact ⟨1, rfl⟩
  | find key next inductionHypothesis =>
      obtain ⟨count, reached⟩ := inductionHypothesis (store key) store
      exact ⟨count + 1, reached⟩
  | put key value next inductionHypothesis =>
      obtain ⟨count, reached⟩ :=
        inductionHypothesis (Function.update store key (some value))
      exact ⟨count + 1, reached⟩
  | del key next inductionHypothesis =>
      obtain ⟨count, reached⟩ := inductionHypothesis (store key).isNone
        (Function.update store key none)
      exact ⟨count + 1, reached⟩

section Crashes

variable {property : Store Key Value → Prop}
  {code : Call → Program Key Value Result}

def Machine.Safe (property : Store Key Value → Prop)
    (machine : Machine Key Value Result) : Prop :=
  property machine.store ∧
    ∀ program, machine.running = some program → program.Safe property machine.store

theorem operate_safe {store : Store Key Value} {program : Program Key Value Result}
    (safe : program.Safe property store) : (operate store program).Safe property := by
  cases program with
  | done result =>
      refine ⟨safe, ?_⟩
      rintro _ ⟨⟩
  | find key next =>
      refine ⟨safe.1, ?_⟩
      rintro _ ⟨⟩
      exact safe.2
  | put key value next =>
      refine ⟨safe.2.holds, ?_⟩
      rintro _ ⟨⟩
      exact safe.2
  | del key next =>
      refine ⟨safe.2.holds, ?_⟩
      rintro _ ⟨⟩
      exact safe.2

theorem step_safe {machine next : Machine Key Value Result} {event : Event Call}
    (begins : ∀ call, event = .call call → property machine.store →
      (code call).Safe property machine.store)
    (safe : machine.Safe property) (stepped : step code machine event = some next) :
    next.Safe property := by
  cases event with
  | call call =>
      rw [step] at stepped
      split at stepped
      · cases stepped
        refine ⟨safe.1, ?_⟩
        rintro _ ⟨⟩
        exact begins call rfl safe.1
      · cases stepped
  | operate =>
      obtain ⟨program, running, rfl⟩ := Option.map_eq_some_iff.mp stepped
      exact operate_safe (safe.2 program running)
  | crash =>
      cases stepped
      refine ⟨safe.1, ?_⟩
      rintro _ ⟨⟩

/-- Wherever the programs are cut off, the property holds at every point. -/
theorem everywhere_of_safe {start : Store Key Value} {events : List (Event Call)}
    (safe : ∀ call, .call call ∈ events → ∀ store, property store →
      (code call).Safe property store) (initially : property start) :
    Everywhere (step code) (fun machine => property machine.store)
      ⟨start, none⟩ events := by
  have guards : EveryStep (step code) (fun machine event => ∀ call,
      event = .call call → property machine.store →
        (code call).Safe property machine.store) ⟨start, none⟩ events := by
    refine @everyStep_of_invariant _ _ _ (fun _ => True) _ _ ?_ _ trivial
    intro event member machine _
    refine ⟨?_, fun _ _ => trivial⟩
    rintro call rfl holds
    exact safe call member machine.store holds
  have idle : Machine.Safe property (⟨start, none⟩ : Machine Key Value Result) := by
    refine ⟨initially, ?_⟩
    rintro _ ⟨⟩
  have everywhere := everywhere_of_guards
    (fun _ _ _ machineSafe begins stepped => step_safe begins machineSafe stepped)
    idle guards
  exact everywhere.mono fun _ machineSafe => machineSafe.1

end Crashes

end ChlorosSnfs.Library.CutOff
