import ChlorosSnfs.Chloros.SingleKernel

/-!
# Green threads with finite programs

A `Program` is what a green thread's function does with the library: finitely
many calls of `Spawn` and `Yield`, where what comes next may depend on what
`Yield` returned, and then the return.  A `Process` is the scheduler together
with what every thread has left to do and the calls all threads have made.  The
initial thread is the main program: its next call is the label of a step.
-/

set_option autoImplicit false

namespace ChlorosSnfs.Chloros.Programs

open ChlorosSnfs.Chloros.Scheduler
open ChlorosSnfs.Chloros.SingleKernel
open ChlorosSnfs.Library.Runs

inductive Program where
  | returns
  | yield (onlyReady : Bool) (rest : Bool → Program)
  | spawn (child rest : Program)

/-- A call that was made: of `Yield` with its result, or of `Spawn` with the id
of the thread it created. -/
inductive Event where
  | yield (onlyReady result : Bool)
  | spawn (child : Program) (created : Nat)

/-- The next call of a program and what is left of it then. -/
inductive Follows : Program → Event → Program → Prop where
  | yield (onlyReady result : Bool) (rest : Bool → Program) :
      Follows (.yield onlyReady rest) (.yield onlyReady result) (rest result)
  | spawn (child rest : Program) (created : Nat) :
      Follows (.spawn child rest) (.spawn child created) rest

/-- The calls a program makes, each once and in its order, up to what is left. -/
inductive Executed : Program → List Event → Program → Prop where
  | here (program : Program) : Executed program [] program
  | call {program next left : Program} {event : Event} {events : List Event} :
      Follows program event next → Executed next events left →
      Executed program (event :: events) left

theorem Executed.snoc {program next left : Program} {events : List Event}
    {event : Event} (executed : Executed program events next)
    (follows : Follows next event left) :
    Executed program (events ++ [event]) left := by
  induction executed with
  | here _ => exact .call follows (.here _)
  | call first _ inductionHypothesis =>
      exact .call first (inductionHypothesis follows)

/-! ## Processes -/

/-- `remaining` is what a thread has left to do, `none` for the initial thread
and once its function has returned; `given` is what it was spawned with. -/
structure Process where
  system : System Unit
  remaining : Nat → Option Program
  given : Nat → Program
  calls : List (Nat × Event)

/-- What the initial thread does next; `proceed` when it is not running its own
code. -/
inductive Choice where
  | spawn (child : Program)
  | yield (onlyReady : Bool)
  | wait
  | proceed

/-- The process behind `Initialize`. -/
def startProcess : Process where
  system := initializeKernel boot ()
  remaining := fun _ => none
  given := fun _ => .returns
  calls := []

def callsOf (id : Nat) (calls : List (Nat × Event)) : List Event :=
  (calls.filter fun call => call.1 = id).map Prod.snd

/-- The ids of the threads the calls created, in order. -/
def createdBy (calls : List (Nat × Event)) : List Nat :=
  calls.filterMap fun call =>
    match call.2 with
    | .spawn _ created => some created
    | .yield _ _ => none

def Process.spawnCall (process : Process) (caller : Nat) (child : Program)
    (left : Option Program) : Option Process :=
  let created := process.system.nextId
  (singleStep process.system .spawn).map fun system =>
    { system
      remaining := Function.update
        (Function.update process.remaining caller left) created (some child)
      given := Function.update process.given created child
      calls := process.calls ++ [(caller, .spawn child created)] }

def Process.yieldCall (process : Process) (current : Thread) (onlyReady : Bool)
    (left : Bool → Option Program) : Option Process :=
  let result := (yield process.system () current onlyReady .code).isSome
  (singleStep process.system (.yield onlyReady)).map fun system =>
    { process with
      system
      remaining := Function.update process.remaining current.id (left result)
      calls := process.calls ++ [(current.id, .yield onlyReady result)] }

/-- The function returns to `ThreadEntry`. -/
def Process.returnCall (process : Process) (caller : Nat) : Option Process :=
  (singleStep process.system .exit).map fun system =>
    { process with
      system
      remaining := Function.update process.remaining caller none }

/-- A step that is no call of `Spawn` or `Yield` by a thread's code. -/
def Process.libraryCall (process : Process) (action : Action) : Option Process :=
  (singleStep process.system action).map fun system => { process with system }

def processStep (process : Process) (choice : Choice) : Option Process := do
  let current ← process.system.current ()
  if current.frame = .code then
    if current.isInitialKernelThread then
      match choice with
      | .spawn child => process.spawnCall current.id child none
      | .yield onlyReady => process.yieldCall current onlyReady fun _ => none
      | .wait => process.libraryCall .wait
      | .proceed => none
    else
      match choice, process.remaining current.id with
      | .proceed, some .returns => process.returnCall current.id
      | .proceed, some (.yield onlyReady rest) =>
          process.yieldCall current onlyReady fun result => some (rest result)
      | .proceed, some (.spawn child rest) =>
          process.spawnCall current.id child (some rest)
      | _, _ => none
  else
    match choice with
    | .proceed => process.libraryCall .proceed
    | _ => none

/-! ## The books of a process -/

@[simp]
theorem callsOf_append (id caller : Nat) (calls : List (Nat × Event))
    (event : Event) :
    callsOf id (calls ++ [(caller, event)]) =
      if caller = id then callsOf id calls ++ [event] else callsOf id calls := by
  by_cases same : caller = id <;> simp [callsOf, same]

@[simp]
theorem createdBy_yield (calls : List (Nat × Event)) (caller : Nat)
    (onlyReady result : Bool) :
    createdBy (calls ++ [(caller, .yield onlyReady result)]) =
      createdBy calls := by
  simp [createdBy]

@[simp]
theorem createdBy_spawn (calls : List (Nat × Event)) (caller created : Nat)
    (child : Program) :
    createdBy (calls ++ [(caller, .spawn child created)]) =
      createdBy calls ++ [created] := by
  simp [createdBy]

theorem mem_createdBy {calls : List (Nat × Event)} {created : Nat} :
    created ∈ createdBy calls ↔
      ∃ caller child, (caller, Event.spawn child created) ∈ calls := by
  unfold createdBy
  rw [List.mem_filterMap]
  constructor
  · rintro ⟨⟨caller, event⟩, member, isCreated⟩
    cases event with
    | spawn child other =>
        cases isCreated
        exact ⟨caller, child, member⟩
    | yield onlyReady result => cases isCreated
  · rintro ⟨caller, child, member⟩
    exact ⟨_, member, rfl⟩

/-- Every unfinished thread but the initial one has a program left, and what a
thread has done and has left to do is the program it was given. -/
structure Books (process : Process) : Prop where
  live : ∀ id, (process.remaining id).isSome = true ↔
    id < process.system.nextId ∧ id ∉ process.system.finished ∧
      id ≠ (process.system.kernel ()).initialThreadId
  followed : ∀ id < process.system.nextId,
    id ≠ (process.system.kernel ()).initialThreadId →
      Executed (process.given id) (callsOf id process.calls)
        ((process.remaining id).getD .returns)
  created : ∀ caller child created,
    (caller, Event.spawn child created) ∈ process.calls →
      created < process.system.nextId ∧
        created ≠ (process.system.kernel ()).initialThreadId ∧
        process.given created = child
  once : (createdBy process.calls).Nodup
  early : ∀ call ∈ process.calls, call.1 < process.system.nextId

theorem callsOf_of_early {calls : List (Nat × Event)} {bound id : Nat}
    (early : ∀ call ∈ calls, call.1 < bound) (later : bound ≤ id) :
    callsOf id calls = [] := by
  simp only [callsOf, List.map_eq_nil_iff, List.filter_eq_nil_iff]
  intro call member
  have bounded := early call member
  simp only [decide_eq_true_eq]
  omega

/-- The part of a system the books depend on. -/
structure SameAccounts (system next : System Unit) : Prop where
  nextId : next.nextId = system.nextId
  finished : next.finished = system.finished
  initial : (next.kernel ()).initialThreadId =
    (system.kernel ()).initialThreadId

theorem Books.of_sameAccounts {process : Process} (books : Books process)
    {next : System Unit} (same : SameAccounts process.system next) :
    Books { process with system := next } := by
  constructor
  · simpa only [same.nextId, same.finished, same.initial] using books.live
  · simpa only [same.nextId, same.initial] using books.followed
  · simpa only [same.nextId, same.initial] using books.created
  · exact books.once
  · simpa only [same.nextId] using books.early

/-- The caller's next call is the one its program asks for; the initial thread
has no program. -/
def Asked (process : Process) (caller : Nat) (event : Event)
    (left : Option Program) : Prop :=
  (caller = (process.system.kernel ()).initialThreadId ∧ left = none) ∨
    ∃ program next, process.remaining caller = some program ∧
      left = some next ∧ Follows program event next

theorem Books.followed_called {process : Process} (books : Books process)
    {caller : Nat} {event : Event} {left : Option Program}
    (asked : Asked process caller event left) :
    ∀ id < process.system.nextId,
      id ≠ (process.system.kernel ()).initialThreadId →
        Executed (process.given id)
          (callsOf id (process.calls ++ [(caller, event)]))
          ((Function.update process.remaining caller left id).getD .returns) := by
  intro id bound other
  have before := books.followed id bound other
  by_cases same : id = caller
  · subst same
    rcases asked with ⟨initial, _⟩ | ⟨program, next, remains, rfl, follows⟩
    · exact absurd initial other
    · rw [remains] at before
      simpa using before.snoc follows
  · rw [callsOf_append, if_neg (Ne.symm same), Function.update_of_ne same]
    exact before

theorem Books.live_called {process : Process} (books : Books process)
    {caller : Nat} {event : Event} {left : Option Program}
    (asked : Asked process caller event left) (id : Nat) :
    (Function.update process.remaining caller left id).isSome =
      (process.remaining id).isSome := by
  by_cases same : id = caller
  · subst same
    rcases asked with ⟨rfl, rfl⟩ | ⟨program, next, remains, rfl, _⟩
    · have notLive := (books.live _).not.mpr fun live => live.2.2 rfl
      simpa using notLive
    · simp [remains]
  · rw [Function.update_of_ne same]

theorem Books.yielded {process : Process} (books : Books process)
    {next : System Unit} (same : SameAccounts process.system next) {caller : Nat}
    {onlyReady result : Bool} {left : Option Program}
    (bound : caller < process.system.nextId)
    (asked : Asked process caller (.yield onlyReady result) left) :
    Books { process with
      system := next
      remaining := Function.update process.remaining caller left
      calls := process.calls ++ [(caller, .yield onlyReady result)] } := by
  constructor
  · intro id
    rw [books.live_called asked]
    simpa only [same.nextId, same.finished, same.initial] using books.live id
  · simpa only [same.nextId, same.initial] using books.followed_called asked
  · intro spawner child created member
    rw [same.nextId, same.initial]
    refine books.created spawner child created ?_
    simpa using member
  · simpa using books.once
  · intro call member
    rw [same.nextId]
    rcases List.mem_append.mp member with old | last
    · exact books.early call old
    · rw [List.mem_singleton.mp last]
      exact bound

theorem Books.spawned {process : Process} (books : Books process)
    {next : System Unit} {caller : Nat} {child : Program} {left : Option Program}
    (nextId : next.nextId = process.system.nextId + 1)
    (finished : next.finished = process.system.finished)
    (initial : (next.kernel ()).initialThreadId =
      (process.system.kernel ()).initialThreadId)
    (bound : caller < process.system.nextId)
    (unused : process.system.nextId ∉ process.system.finished)
    (initialBound : (process.system.kernel ()).initialThreadId <
      process.system.nextId)
    (asked : Asked process caller (.spawn child process.system.nextId) left) :
    Books {
      system := next
      remaining := Function.update
        (Function.update process.remaining caller left)
        process.system.nextId (some child)
      given := Function.update process.given process.system.nextId child
      calls := process.calls ++
        [(caller, .spawn child process.system.nextId)] } := by
  constructor
  · intro id
    simp only [nextId, finished, initial]
    by_cases new : id = process.system.nextId
    · subst new
      simp [unused, Nat.ne_of_gt initialBound]
    · rw [Function.update_of_ne new, books.live_called asked, books.live id]
      constructor
      · rintro ⟨old, rest⟩
        exact ⟨by omega, rest⟩
      · rintro ⟨old, rest⟩
        exact ⟨by omega, rest⟩
  · intro id idBound other
    simp only [nextId, initial] at idBound other ⊢
    by_cases new : id = process.system.nextId
    · subst new
      have none_ := callsOf_of_early books.early (Nat.le_refl _)
      simp [none_, Nat.ne_of_lt bound, Executed.here]
    · rw [Function.update_of_ne new, Function.update_of_ne new]
      exact books.followed_called asked id (by omega) other
  · intro spawner grandchild created member
    simp only [nextId, initial]
    rcases List.mem_append.mp member with old | last
    · obtain ⟨createdBound, notInitial, given⟩ :=
        books.created spawner grandchild created old
      refine ⟨by omega, notInitial, ?_⟩
      simp [Function.update_of_ne (Nat.ne_of_lt createdBound), given]
    · simp only [List.mem_singleton, Prod.mk.injEq, Event.spawn.injEq] at last
      obtain ⟨_, rfl, rfl⟩ := last
      exact ⟨by omega, by omega, by simp⟩
  · rw [createdBy_spawn, List.nodup_append]
    refine ⟨books.once, List.nodup_singleton _, ?_⟩
    intro old oldMember new newMember
    rw [List.mem_singleton.mp newMember]
    obtain ⟨spawner, grandchild, member⟩ := mem_createdBy.mp oldMember
    exact Nat.ne_of_lt (books.created spawner grandchild old member).1
  · intro call member
    simp only [nextId]
    rcases List.mem_append.mp member with old | last
    · have bounded := books.early call old
      omega
    · rw [List.mem_singleton.mp last]
      exact Nat.lt_succ_of_lt bound

theorem Books.returned {process : Process} (books : Books process)
    {next : System Unit} {caller : Nat}
    (nextId : next.nextId = process.system.nextId)
    (finished : next.finished = caller :: process.system.finished)
    (initial : (next.kernel ()).initialThreadId =
      (process.system.kernel ()).initialThreadId)
    (last : process.remaining caller = some .returns) :
    Books { process with
      system := next
      remaining := Function.update process.remaining caller none } := by
  constructor
  · intro id
    simp only [nextId, finished, initial]
    by_cases same : id = caller
    · subst same
      simp
    · rw [Function.update_of_ne same, books.live id]
      simp [same]
  · intro id bound other
    simp only [nextId, initial] at bound other ⊢
    have before := books.followed id bound other
    by_cases same : id = caller
    · subst same
      simpa [last] using before
    · rw [Function.update_of_ne same]
      exact before
  · simpa only [nextId, initial] using books.created
  · exact books.once
  · simpa only [nextId] using books.early

/-! ## One step of a process -/

theorem step_of_singleStep {system next : System Unit} {action : Action}
    (stepped : singleStep system action = some next) :
    step system () action = some next := by
  simp only [singleStep, Option.ite_none_right_eq_some] at stepped
  exact stepped.2

/-- Only `Initialize`, `Spawn` and the return of a function touch the accounts. -/
theorem sameAccounts_of_step {system next : System Unit} {action : Action}
    (stepped : singleStep system action = some next)
    (notInitialize : action ≠ .initializeKernel) (notSpawn : action ≠ .spawn)
    (notExit : action ≠ .exit) : SameAccounts system next := by
  cases transition_of_step (step_of_singleStep stepped) with
  | initializeKernel => exact absurd rfl notInitialize
  | spawn => exact absurd rfl notSpawn
  | exit => exact absurd rfl notExit
  | wait => exact ⟨rfl, rfl, by simp⟩
  | leave => exact ⟨rfl, rfl, by simp⟩
  | @yielded current _ onlyReady caller failed _ _ =>
      cases yielded : yield system () current onlyReady caller with
      | none =>
          simp only [yieldOr, yielded, Option.getD_none]
          exact ⟨rfl, rfl, by simp⟩
      | some switched =>
          obtain ⟨chosen, _, rfl⟩ := yield_eq_some yielded
          simp only [yieldOr, yielded, Option.getD_some]
          exact ⟨rfl, rfl, by simp⟩
  | @returned current caller _ _ =>
      cases caller <;> exact ⟨rfl, rfl, by simp [returnFromSwitch, garbageCollect]⟩

/-- What a step of a process does. -/
inductive Made (process : Process) (current : Thread) (next : Process) :
    Choice → Prop where
  | spawn {choice : Choice} {child : Program} {left : Option Program} :
      current.frame = .code →
      Asked process current.id (.spawn child process.system.nextId) left →
      process.spawnCall current.id child left = some next →
      Made process current next choice
  | yield {choice : Choice} {onlyReady : Bool} {left : Bool → Option Program} :
      current.frame = .code →
      (∀ result, Asked process current.id (.yield onlyReady result)
        (left result)) →
      process.yieldCall current onlyReady left = some next →
      Made process current next choice
  | returned : current.frame = .code → current.isInitialKernelThread = false →
      process.remaining current.id = some .returns →
      process.returnCall current.id = some next →
      Made process current next .proceed
  | wait : current.frame = .code → current.isInitialKernelThread = true →
      process.libraryCall .wait = some next → Made process current next .wait
  | library : current.frame ≠ .code →
      process.libraryCall .proceed = some next →
      Made process current next .proceed

theorem made_of_step {process next : Process} {current : Thread} {choice : Choice}
    (consistent : Consistent process.system current)
    (stepped : processStep process choice = some next) :
    Made process current next choice := by
  simp only [processStep, consistent.isCurrent, Option.bind_eq_bind,
    Option.bind_some] at stepped
  split at stepped
  · rename_i inCode
    split at stepped
    · rename_i initial
      have initialId :=
        (consistent.accounts.kinds current List.mem_cons_self).mp initial
      cases choice with
      | spawn child => exact .spawn inCode (Or.inl ⟨initialId, rfl⟩) stepped
      | yield onlyReady =>
          exact .yield inCode (fun _ => Or.inl ⟨initialId, rfl⟩) stepped
      | wait => exact .wait inCode initial stepped
      | proceed => cases stepped
    · rename_i spawned
      split at stepped
      · rename_i remains
        exact .returned inCode (by simpa using spawned) remains stepped
      · rename_i onlyReady rest remains
        exact .yield inCode (fun result => Or.inr
          ⟨_, _, remains, rfl, .yield onlyReady result rest⟩) stepped
      · rename_i child rest remains
        exact .spawn inCode (Or.inr ⟨_, _, remains, rfl, .spawn child rest _⟩)
          stepped
      · cases stepped
  · rename_i outside
    split at stepped
    · exact .library outside stepped
    · cases stepped

theorem Books.next {process next : Process} (books : Books process)
    {current : Thread} {choice : Choice}
    (consistent : Consistent process.system current)
    (stepped : processStep process choice = some next) :
    Books next ∧ ∃ action, singleStep process.system action = some next.system := by
  have accounts := consistent.accounts
  have bound := accounts.bounded current List.mem_cons_self
  cases made_of_step consistent stepped with
  | @spawn _ child left inCode asked called =>
      obtain ⟨system, spawned, rfl⟩ := Option.map_eq_some_iff.mp called
      refine ⟨?_, _, spawned⟩
      have unused : process.system.nextId ∉ process.system.finished := by
        intro ended
        exact Nat.lt_irrefl _ (accounts.finishedBounded _ ended)
      cases transition_of_step (step_of_singleStep spawned) with
      | spawn isCurrent _ =>
          exact books.spawned rfl rfl (by simp [spawnInsert]) bound unused
            accounts.initialBounded asked
      | yielded isCurrent call => simp [Scheduler.yieldCall] at call
  | @yield _ onlyReady left inCode asked called =>
      obtain ⟨system, yielded, rfl⟩ := Option.map_eq_some_iff.mp called
      exact ⟨books.yielded (sameAccounts_of_step yielded (by simp) (by simp)
        (by simp)) bound (asked _), _, yielded⟩
  | returned inCode spawned last called =>
      obtain ⟨system, exited, rfl⟩ := Option.map_eq_some_iff.mp called
      refine ⟨?_, _, exited⟩
      cases transition_of_step (step_of_singleStep exited) with
      | @exit ended isEnded _ _ =>
          obtain rfl : ended = current :=
            Option.some.inj (isEnded.symm.trans consistent.isCurrent)
          exact books.returned rfl rfl (by simp) last
      | yielded isCurrent call => simp [Scheduler.yieldCall] at call
  | wait _ _ called =>
      obtain ⟨system, waited, rfl⟩ := Option.map_eq_some_iff.mp called
      exact ⟨books.of_sameAccounts (sameAccounts_of_step waited (by simp)
        (by simp) (by simp)), _, waited⟩
  | library _ called =>
      obtain ⟨system, proceeded, rfl⟩ := Option.map_eq_some_iff.mp called
      exact ⟨books.of_sameAccounts (sameAccounts_of_step proceeded (by simp)
        (by simp) (by simp)), _, proceeded⟩

/-- What holds of every reachable process. -/
structure Accounted (process : Process) : Prop where
  books : Books process
  consistent : ∃ current, Consistent process.system current

theorem accounted_startProcess : Accounted startProcess := by
  refine ⟨?_, _, consistent_initializeKernel⟩
  constructor
  · intro id
    simp [startProcess, initializeKernel, boot]
  · intro id bound other
    simp only [startProcess, initializeKernel, boot, Function.update_self] at *
    omega
  · simp [startProcess]
  · simp [startProcess, createdBy]
  · simp [startProcess]

theorem accounted_step (process : Process) (choice : Choice) (next : Process)
    (accounted : Accounted process)
    (stepped : processStep process choice = some next) : Accounted next := by
  obtain ⟨current, consistent⟩ := accounted.consistent
  obtain ⟨books, action, systemStep⟩ :=
    accounted.books.next consistent stepped
  exact ⟨books, consistent.next systemStep⟩

theorem accounted_of_run {choices : List Choice} {process : Process}
    (run : runLabels processStep startProcess choices = some process) :
    Accounted process :=
  invariant_of_run accounted_step accounted_startProcess run

/-! ## Nothing done is undone -/

/-- Calls are only added, and a thread keeps the program it was given. -/
structure Extends (process next : Process) : Prop where
  nextId : process.system.nextId ≤ next.system.nextId
  calls : process.calls <+: next.calls
  given : ∀ id < process.system.nextId, next.given id = process.given id

theorem Extends.refl (process : Process) : Extends process process :=
  ⟨Nat.le_refl _, List.prefix_rfl, fun _ _ => rfl⟩

theorem Extends.trans {first second third : Process}
    (before : Extends first second) (after : Extends second third) :
    Extends first third := by
  refine ⟨Nat.le_trans before.nextId after.nextId,
    before.calls.trans after.calls, ?_⟩
  intro id bound
  rw [after.given id (Nat.lt_of_lt_of_le bound before.nextId)]
  exact before.given id bound

theorem extends_of_step {process next : Process} {choice : Choice}
    {current : Thread} (consistent : Consistent process.system current)
    (stepped : processStep process choice = some next) :
    Extends process next := by
  cases made_of_step consistent stepped with
  | spawn _ _ called =>
      obtain ⟨system, spawned, rfl⟩ := Option.map_eq_some_iff.mp called
      refine ⟨nextId_le_of_step (step_of_singleStep spawned),
        List.prefix_append _ _, ?_⟩
      intro id bound
      exact Function.update_of_ne (Nat.ne_of_lt bound) _ _
  | yield _ _ called =>
      obtain ⟨system, yielded, rfl⟩ := Option.map_eq_some_iff.mp called
      exact ⟨nextId_le_of_step (step_of_singleStep yielded),
        List.prefix_append _ _, fun _ _ => rfl⟩
  | returned _ _ _ called =>
      obtain ⟨system, exited, rfl⟩ := Option.map_eq_some_iff.mp called
      exact ⟨nextId_le_of_step (step_of_singleStep exited), List.prefix_rfl,
        fun _ _ => rfl⟩
  | wait _ _ called =>
      obtain ⟨system, waited, rfl⟩ := Option.map_eq_some_iff.mp called
      exact ⟨nextId_le_of_step (step_of_singleStep waited), List.prefix_rfl,
        fun _ _ => rfl⟩
  | library _ called =>
      obtain ⟨system, proceeded, rfl⟩ := Option.map_eq_some_iff.mp called
      exact ⟨nextId_le_of_step (step_of_singleStep proceeded), List.prefix_rfl,
        fun _ _ => rfl⟩

theorem extends_of_run {process final : Process} {choices : List Choice}
    (accounted : Accounted process)
    (run : runLabels processStep process choices = some final) :
    Extends process final := by
  have preserved : ∀ reached choice next,
      Accounted reached ∧ Extends process reached →
        processStep reached choice = some next →
          Accounted next ∧ Extends process next := by
    intro reached choice next ⟨reachedAccounted, before⟩ stepped
    obtain ⟨current, consistent⟩ := reachedAccounted.consistent
    exact ⟨accounted_step reached choice next reachedAccounted stepped,
      before.trans (extends_of_step consistent stepped)⟩
  exact (invariant_of_run preserved ⟨accounted, Extends.refl process⟩ run).2

end ChlorosSnfs.Chloros.Programs
