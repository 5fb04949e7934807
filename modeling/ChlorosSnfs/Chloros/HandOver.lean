import ChlorosSnfs.Chloros.KernelThreads

/-!
# The hand-over inside Yield

Here `Yield` takes two steps.  Its locked section moves the previous thread to
the back of `thread_queue` and makes the next one `current_thread`; only then
does `ContextSwitch` store the registers into the `Context` of the previous
thread and load those of the next one.  In between the kernel thread executes on
the stack of a thread that stands in the shared queue with an old `Context`.

`settled` shows such a system as the coarser model of the scheduler has it,
with every pending `ContextSwitch` done; `step_simulated` says that a step here
is then a step there, or none.
-/

set_option autoImplicit false

namespace ChlorosSnfs.Chloros.HandOver

open ChlorosSnfs.Chloros.Scheduler (ThreadState Caller Frame Action)
open ChlorosSnfs.Chloros.KernelThreads (Sound)
open ChlorosSnfs.Library.Runs

/-- A `Thread` with its `Context`: where it continues when the context is
loaded, `none` for the zero registers it is constructed with. -/
structure Thread where
  id : Nat
  state : ThreadState
  isInitialKernelThread : Bool
  context : Option Frame
  deriving DecidableEq, Repr

/-- What a kernel thread executes: the current thread at some frame, or, between
the locked section of `Yield` and `ContextSwitch`, still the thread it has put
back. -/
inductive Execution where
  | running (frame : Frame)
  | switching (previous : Nat) (caller : Caller)
  deriving DecidableEq, Repr

structure KernelThread where
  currentThread : Option Thread
  initialThreadId : Nat
  initialized : Bool
  execution : Execution

/-- As in the coarser model; `stops` is history, the frame each thread stood at
when it last stopped executing. -/
structure System (κ : Type) where
  threadQueue : List Thread
  nextId : Nat
  kernel : κ → KernelThread
  finished : List Nat
  spawned : List (Nat × Nat)
  stops : Nat → Frame

variable {κ : Type} [DecidableEq κ]

def boot : System κ where
  threadQueue := []
  nextId := 0
  kernel := fun _ => ⟨none, 0, false, .running .code⟩
  finished := []
  spawned := []
  stops := fun _ => .startThread

def System.current (system : System κ) (kernelThread : κ) : Option Thread :=
  (system.kernel kernelThread).currentThread

def System.execution (system : System κ) (kernelThread : κ) : Execution :=
  (system.kernel kernelThread).execution

def System.place (system : System κ) (kernelThread : κ) (thread : Option Thread)
    (execution : Execution) : System κ :=
  { system with
    kernel := Function.update system.kernel kernelThread
      { system.kernel kernelThread with
        currentThread := thread, execution := execution } }

/-- The thread as the coarser model has it, standing at a frame. -/
def Thread.standing (thread : Thread) (frame : Frame) : Scheduler.Thread :=
  ⟨thread.id, thread.state, thread.isInitialKernelThread, frame⟩

/-- Where a loaded context continues: a new stack enters its function. -/
def entered (frame : Frame) : Frame :=
  if frame = .startThread then .code else frame

/-! ## The library calls -/

def initializeKernel (system : System κ) (kernelThread : κ) : System κ :=
  let newThread : Thread := ⟨system.nextId, .kWaiting, true, none⟩
  { system with
    nextId := system.nextId + 1
    kernel := Function.update system.kernel kernelThread
      ⟨some newThread, newThread.id, true, .running .code⟩ }

/-- The insertion of `Spawn`; the new `Context` points to the stack laid out. -/
def spawnInsert (system : System κ) (kernelThread : κ) (current : Thread) :
    System κ :=
  let newThread : Thread :=
    ⟨system.nextId, .kReady, false, some .startThread⟩
  { system with
    threadQueue := newThread :: system.threadQueue
    nextId := system.nextId + 1
    spawned := (current.id, newThread.id) :: system.spawned
    stops := Function.update system.stops system.nextId .startThread }.place
      kernelThread (some current) (.running .spawn)

/-- The scan of `Yield`; it reads no context. -/
def stopsScan (current : Thread) (initialThreadId : Nat) (onlyReady : Bool)
    (candidate : Thread) : Bool :=
  Scheduler.stopsScan (current.standing .code) initialThreadId onlyReady
    (candidate.standing .code)

/-- The previous thread as the locked section puts it at the back of the queue,
with the context it was last loaded from. -/
def requeued (previous : Thread) : Thread :=
  { previous with
    state := if previous.state = .kRunning then .kReady else previous.state }

/-- The locked section of `Yield`; `none` when it returns false. -/
def yieldLocked (system : System κ) (kernelThread : κ) (current : Thread)
    (onlyReady : Bool) (caller : Caller) : Option (System κ) :=
  let test := stopsScan current (system.kernel kernelThread).initialThreadId
    onlyReady
  match system.threadQueue.find? test with
  | none => none
  | some next =>
      some ({ system with
        threadQueue := system.threadQueue.eraseP test ++ [requeued current]
        stops := Function.update system.stops current.id
          (.contextSwitch caller) }.place kernelThread
            (some { next with state := .kRunning })
            (.switching current.id caller))

/-- The `Context` of the thread with this id is overwritten. -/
def store (id : Nat) (frame : Frame) (thread : Thread) : Thread :=
  if thread.id = id then { thread with context := some frame } else thread

/-- The registers of a thread stored, wherever its `Thread` is by now. -/
def stored (system : System κ) (id : Nat) (frame : Frame) : System κ :=
  { system with
    threadQueue := system.threadQueue.map (store id frame)
    kernel := fun other => { system.kernel other with
      currentThread := (system.current other).map (store id frame) } }

/-- `ContextSwitch`: the registers go into the `Context` of the previous thread
and those of the current thread are loaded.  Zero registers fault. -/
def contextSwitch (system : System κ) (kernelThread : κ) (previous : Nat)
    (caller : Caller) : Option (System κ) :=
  let saved := stored system previous (.contextSwitch caller)
  match saved.current kernelThread with
  | none => none
  | some current =>
      current.context.map fun frame =>
        saved.place kernelThread (some current) (.running (entered frame))

def garbageCollect (system : System κ) : System κ :=
  { system with
    threadQueue := system.threadQueue.filter fun thread =>
      thread.state ≠ .kZombie }

/-! ## Steps -/

/-- `GarbageCollect` behind the switch, then the return of `Yield` with true. -/
def returnFromSwitch (system : System κ) (kernelThread : κ) (current : Thread)
    (caller : Caller) : System κ :=
  let collected := garbageCollect system
  match caller with
  | .code | .spawn =>
      collected.place kernelThread (some current) (.running .code)
  | .wait =>
      collected.place kernelThread (some { current with state := .kWaiting })
        (.running .waitLoop)
  | .threadEntry =>
      collected.place kernelThread (some current) (.running .assertFailed)

def yieldOr (system : System κ) (kernelThread : κ) (current : Thread)
    (onlyReady : Bool) (caller : Caller) (failed : Frame) : System κ :=
  (yieldLocked system kernelThread current onlyReady caller).getD
    (system.place kernelThread (some current) (.running failed))

def codeStep (system : System κ) (kernelThread : κ) (current : Thread) :
    Action → Option (System κ)
  | .spawn => some (spawnInsert system kernelThread current)
  | .yield onlyReady =>
      some (yieldOr system kernelThread current onlyReady .code .code)
  | .wait => some (system.place kernelThread
      (some { current with state := .kWaiting }) (.running .waitLoop))
  | .exit =>
      if current.isInitialKernelThread then none
      else some ({ system with
        finished := current.id :: system.finished }.place kernelThread
          (some { current with state := .kZombie }) (.running .threadEntry))
  | .leave =>
      if current.isInitialKernelThread then
        some (system.place kernelThread none (.running .code))
      else none
  | .initializeKernel | .proceed => none

def libraryStep (system : System κ) (kernelThread : κ) (current : Thread) :
    Execution → Option (System κ)
  | .running .spawn =>
      some (yieldOr system kernelThread current true .spawn .code)
  | .running .waitLoop =>
      some (yieldOr system kernelThread current true .wait .code)
  | .running .threadEntry =>
      some (yieldOr system kernelThread current false .threadEntry .assertFailed)
  | .running (.contextSwitch caller) =>
      some (returnFromSwitch system kernelThread current caller)
  | .switching previous caller =>
      contextSwitch system kernelThread previous caller
  | .running .startThread | .running .code | .running .assertFailed => none

def step (system : System κ) (label : κ × Action) : Option (System κ) :=
  match system.current label.1 with
  | none =>
      if label.2 = .initializeKernel ∧
        (system.kernel label.1).initialized = false
      then some (initializeKernel system label.1)
      else none
  | some current =>
      if system.execution label.1 = .running .code then
        codeStep system label.1 current label.2
      else if label.2 = .proceed then
        libraryStep system label.1 current (system.execution label.1)
      else none

/-! ## Reading a changed system -/

@[simp]
theorem place_threadQueue (system : System κ) (kernelThread : κ)
    (thread : Option Thread) (execution : Execution) :
    (system.place kernelThread thread execution).threadQueue =
      system.threadQueue := rfl

@[simp]
theorem place_stops (system : System κ) (kernelThread : κ)
    (thread : Option Thread) (execution : Execution) :
    (system.place kernelThread thread execution).stops = system.stops := rfl

@[simp]
theorem place_current (system : System κ) (kernelThread : κ)
    (thread : Option Thread) (execution : Execution) :
    (system.place kernelThread thread execution).current kernelThread =
      thread := by
  simp [System.place, System.current]

@[simp]
theorem place_execution (system : System κ) (kernelThread : κ)
    (thread : Option Thread) (execution : Execution) :
    (system.place kernelThread thread execution).execution kernelThread =
      execution := by
  simp [System.place, System.execution]

theorem place_current_other (system : System κ) {kernelThread other : κ}
    (thread : Option Thread) (execution : Execution)
    (different : other ≠ kernelThread) :
    (system.place kernelThread thread execution).current other =
      system.current other := by
  simp [System.place, System.current, different]

theorem place_execution_other (system : System κ) {kernelThread other : κ}
    (thread : Option Thread) (execution : Execution)
    (different : other ≠ kernelThread) :
    (system.place kernelThread thread execution).execution other =
      system.execution other := by
  simp [System.place, System.execution, different]

/-- The `Yield` a step performs, read off the frame executed. -/
def yieldCall (execution : Execution) (action : Action) :
    Option (Bool × Caller × Frame) :=
  match execution with
  | .running frame =>
      Scheduler.yieldCall ⟨0, .kRunning, false, frame⟩ action
  | .switching _ _ => none

/-- What a step of a kernel thread can do, with all its conditions. -/
inductive Transition (system : System κ) (kernelThread : κ) :
    Action → System κ → Prop where
  | initializeKernel : system.current kernelThread = none →
      (system.kernel kernelThread).initialized = false →
      Transition system kernelThread .initializeKernel
        (initializeKernel system kernelThread)
  | spawn {current : Thread} : system.current kernelThread = some current →
      system.execution kernelThread = .running .code →
      Transition system kernelThread .spawn
        (spawnInsert system kernelThread current)
  | wait {current : Thread} : system.current kernelThread = some current →
      system.execution kernelThread = .running .code →
      Transition system kernelThread .wait (system.place kernelThread
        (some { current with state := .kWaiting }) (.running .waitLoop))
  | exit {current : Thread} : system.current kernelThread = some current →
      system.execution kernelThread = .running .code →
      current.isInitialKernelThread = false →
      Transition system kernelThread .exit ({ system with
        finished := current.id :: system.finished }.place kernelThread
          (some { current with state := .kZombie }) (.running .threadEntry))
  | leave {current : Thread} : system.current kernelThread = some current →
      system.execution kernelThread = .running .code →
      current.isInitialKernelThread = true →
      Transition system kernelThread .leave
        (system.place kernelThread none (.running .code))
  | yielded {current : Thread} {action : Action} {onlyReady : Bool}
      {caller : Caller} {failed : Frame} :
      system.current kernelThread = some current →
      yieldCall (system.execution kernelThread) action =
        some (onlyReady, caller, failed) →
      Transition system kernelThread action
        (yieldOr system kernelThread current onlyReady caller failed)
  | returned {current : Thread} {caller : Caller} :
      system.current kernelThread = some current →
      system.execution kernelThread = .running (.contextSwitch caller) →
      Transition system kernelThread .proceed
        (returnFromSwitch system kernelThread current caller)
  | switched {current : Thread} {previous : Nat} {caller : Caller}
      {next : System κ} : system.current kernelThread = some current →
      system.execution kernelThread = .switching previous caller →
      contextSwitch system kernelThread previous caller = some next →
      Transition system kernelThread .proceed next

theorem transition_of_step {system next : System κ} {kernelThread : κ}
    {action : Action} (stepped : step system (kernelThread, action) = some next) :
    Transition system kernelThread action next := by
  simp only [step] at stepped
  cases isCurrent : system.current kernelThread with
  | none =>
      rw [isCurrent] at stepped
      simp only [Option.ite_none_right_eq_some, Option.some.injEq] at stepped
      obtain ⟨⟨rfl, fresh⟩, rfl⟩ := stepped
      exact .initializeKernel isCurrent fresh
  | some current =>
      simp only [isCurrent] at stepped
      split at stepped
      · rename_i inCode
        cases action with
        | spawn =>
            cases stepped
            exact .spawn isCurrent inCode
        | yield onlyReady =>
            cases stepped
            exact .yielded isCurrent
              (by simp [yieldCall, Scheduler.yieldCall, inCode])
        | wait =>
            cases stepped
            exact .wait isCurrent inCode
        | exit =>
            simp only [codeStep, Option.ite_none_left_eq_some,
              Option.some.injEq] at stepped
            rw [← stepped.2]
            exact .exit isCurrent inCode (by simpa using stepped.1)
        | leave =>
            simp only [codeStep, Option.ite_none_right_eq_some,
              Option.some.injEq] at stepped
            rw [← stepped.2]
            exact .leave isCurrent inCode stepped.1
        | initializeKernel => cases stepped
        | proceed => cases stepped
      · simp only [Option.ite_none_right_eq_some] at stepped
        obtain ⟨rfl, stepped⟩ := stepped
        cases execution : system.execution kernelThread with
        | switching previous caller =>
            rw [execution] at stepped
            exact .switched isCurrent execution stepped
        | running frame =>
            rw [execution] at stepped
            cases frame with
            | startThread => cases stepped
            | code => cases stepped
            | assertFailed => cases stepped
            | contextSwitch caller =>
                cases stepped
                exact .returned isCurrent execution
            | spawn | waitLoop | threadEntry =>
                cases stepped
                exact .yielded isCurrent
                  (by simp [yieldCall, Scheduler.yieldCall, execution])

/-! ## The coarser model -/

/-- The frame a kernel thread stands at once its pending switch is done. -/
def liveFrame (stops : Nat → Frame) (execution : Execution) (thread : Thread) :
    Frame :=
  match execution with
  | .running frame => frame
  | .switching _ _ => entered (stops thread.id)

/-- The system with every pending `ContextSwitch` done, each queued thread at
the frame it last stopped at. -/
def settled (system : System κ) : Scheduler.System κ where
  threadQueue :=
    system.threadQueue.map fun thread => thread.standing (system.stops thread.id)
  nextId := system.nextId
  kernel := fun kernelThread =>
    ⟨(system.current kernelThread).map fun thread => thread.standing
        (liveFrame system.stops (system.execution kernelThread) thread),
      (system.kernel kernelThread).initialThreadId,
      (system.kernel kernelThread).initialized⟩
  finished := system.finished
  spawned := system.spawned

omit [DecidableEq κ] in
theorem settled_boot : settled (boot : System κ) = Scheduler.boot := rfl

omit [DecidableEq κ] in
theorem settled_current (system : System κ) (kernelThread : κ) :
    (settled system).current kernelThread =
      (system.current kernelThread).map fun thread => thread.standing
        (liveFrame system.stops (system.execution kernelThread) thread) := rfl

theorem settled_place (system : System κ) (kernelThread : κ)
    (slot : Option Thread) (execution : Execution) :
    settled (system.place kernelThread slot execution) =
      (settled system).setCurrent kernelThread (slot.map fun thread =>
        thread.standing (liveFrame system.stops execution thread)) := by
  simp only [settled, Scheduler.System.setCurrent, Scheduler.System.mk.injEq,
    place_threadQueue, place_stops, true_and]
  refine ⟨rfl, ?_, rfl, rfl⟩
  funext other
  by_cases same : other = kernelThread
  · subst same
    simp [System.place, System.current, System.execution]
  · simp [System.place, System.current, System.execution, same]

omit [DecidableEq κ] in
/-- A stop recorded for a thread that no pending switch leads to shows in the
queue only. -/
theorem settled_requeue {system : System κ} {id : Nat}
    (notAwaited : ∀ kernelThread previous caller thread,
      system.execution kernelThread = .switching previous caller →
      system.current kernelThread = some thread → thread.id ≠ id)
    (frame : Frame) (queue : List Thread) :
    settled { system with
        threadQueue := queue
        stops := Function.update system.stops id frame } =
      { settled system with
        threadQueue := queue.map fun thread =>
          thread.standing (Function.update system.stops id frame thread.id) } := by
  simp only [settled, Scheduler.System.mk.injEq, true_and, and_true]
  funext kernelThread
  simp only [Scheduler.KernelThread.mk.injEq, and_true]
  change Option.map _ (system.current kernelThread) = _
  cases isCurrent : system.current kernelThread with
  | none => rfl
  | some thread =>
      change some (thread.standing (liveFrame _ (system.execution kernelThread)
        thread)) = _
      cases execution : system.execution kernelThread with
      | running frame => rfl
      | switching previous caller =>
          have other :=
            notAwaited kernelThread previous caller thread execution isCurrent
          simp [liveFrame, Function.update_of_ne other]

/-- Some kernel thread still executes on the stack of the thread, with the
registers not yet stored. -/
def Unsaved (system : System κ) (id : Nat) : Prop :=
  ∃ kernelThread caller, system.execution kernelThread = .switching id caller

/-- The green thread on whose stack a kernel thread executes. -/
def System.stack (system : System κ) (kernelThread : κ) : Option Nat :=
  match system.execution kernelThread with
  | .running _ => (system.current kernelThread).map Thread.id
  | .switching previous _ => some previous

/-- No hand-over has gone wrong: a thread that is not yet saved is still in the
queue, no stack is executed twice or gone, and what a switch will load is where
the thread last stopped. -/
structure HandOverSafe (system : System κ) : Prop where
  unsavedQueued : ∀ id, Unsaved system id →
    ∃ thread ∈ system.threadQueue, thread.id = id
  oneStack : ∀ first second id, system.stack first = some id →
    system.stack second = some id → first = second
  stackHeld : ∀ kernelThread id, system.stack kernelThread = some id →
    (∃ thread ∈ system.threadQueue, thread.id = id) ∨
      ∃ thread, system.current kernelThread = some thread ∧ thread.id = id
  resumesFresh : ∀ kernelThread previous caller thread,
    system.execution kernelThread = .switching previous caller →
    system.current kernelThread = some thread →
      thread.context = some (system.stops thread.id)

/-- What else holds of a reachable system as long as it is safe: the settled
system is sound, saved threads carry their last stop, and a pending switch has
a thread to go to. -/
structure Coherent [Fintype κ] (system : System κ) : Prop where
  sound : Sound (settled system)
  savedContext : ∀ thread ∈ system.threadQueue, ¬ Unsaved system thread.id →
    thread.context = some (system.stops thread.id)
  unsavedStop : ∀ kernelThread previous caller,
    system.execution kernelThread = .switching previous caller →
      system.stops previous = .contextSwitch caller
  switchingCurrent : ∀ kernelThread previous caller,
    system.execution kernelThread = .switching previous caller →
      ∃ thread, system.current kernelThread = some thread

/-! ## Threads are where the settled system has them -/

section Places

variable [Fintype κ] {system : System κ}

omit [Fintype κ] [DecidableEq κ] in
theorem settled_current_of {kernelThread : κ} {current : Thread}
    (isCurrent : system.current kernelThread = some current) :
    (settled system).current kernelThread = some (current.standing
      (liveFrame system.stops (system.execution kernelThread) current)) := by
  rw [settled_current, isCurrent]
  rfl

omit [Fintype κ] [DecidableEq κ] in
theorem mem_settled_queue {thread : Thread}
    (member : thread ∈ system.threadQueue) :
    thread.standing (system.stops thread.id) ∈ (settled system).threadQueue :=
  List.mem_map_of_mem member

theorem Coherent.current_not_queued (coherent : Coherent system)
    {kernelThread : κ} {current queued : Thread}
    (isCurrent : system.current kernelThread = some current)
    (member : queued ∈ system.threadQueue) : queued.id ≠ current.id :=
  coherent.sound.current_not_queued (settled_current_of isCurrent)
    (mem_settled_queue member)

theorem Coherent.current_unique (coherent : Coherent system)
    {first second : κ} {current other : Thread}
    (isCurrent : system.current first = some current)
    (isOther : system.current second = some other)
    (same : other.id = current.id) : second = first :=
  coherent.sound.current_unique (settled_current_of isCurrent)
    (settled_current_of isOther) same

omit [DecidableEq κ] in
theorem Coherent.queue_distinct (coherent : Coherent system) :
    (system.threadQueue.map Thread.id).Nodup := by
  have distinct := coherent.sound.queue_distinct
  rw [settled, List.map_map] at distinct
  exact distinct

omit [DecidableEq κ] in
theorem Coherent.queued_bounded (coherent : Coherent system) {thread : Thread}
    (member : thread ∈ system.threadQueue) : thread.id < system.nextId :=
  coherent.sound.ledger.bounded _
    (KernelThreads.mem_census.mpr (Or.inl (mem_settled_queue member)))

omit [DecidableEq κ] in
theorem Coherent.current_bounded (coherent : Coherent system) {kernelThread : κ}
    {thread : Thread} (isCurrent : system.current kernelThread = some thread) :
    thread.id < system.nextId :=
  coherent.sound.ledger.bounded _ (KernelThreads.mem_census.mpr
    (Or.inr ⟨kernelThread, settled_current_of isCurrent⟩))

end Places

/-! ## Each step is a step of the coarser model, or none -/

section Simulation

variable [Fintype κ] {system next : System κ} {kernelThread : κ}
  {current : Thread}

omit [Fintype κ] in
theorem settled_initializeKernel (system : System κ) (kernelThread : κ) :
    settled (initializeKernel system kernelThread) =
      Scheduler.initializeKernel (settled system) kernelThread := by
  simp only [settled, initializeKernel, Scheduler.initializeKernel,
    Scheduler.System.mk.injEq, true_and, and_true]
  funext other
  by_cases same : other = kernelThread
  · subst same
    simp [System.current, System.execution, Thread.standing, liveFrame]
  · simp [System.current, System.execution, same]

theorem settled_spawnInsert (coherent : Coherent system) (current : Thread)
    (kernelThread : κ) :
    settled (spawnInsert system kernelThread current) =
      Scheduler.spawnInsert (settled system) kernelThread
        (current.standing .code) := by
  have notAwaited : ∀ other previous caller thread,
      system.execution other = .switching previous caller →
      system.current other = some thread → thread.id ≠ system.nextId := by
    intro other previous caller thread _ isCurrent
    exact Nat.ne_of_lt (coherent.current_bounded isCurrent)
  have sameQueue : system.threadQueue.map (fun thread => thread.standing
      (Function.update system.stops system.nextId .startThread thread.id)) =
      (settled system).threadQueue := by
    refine List.map_congr_left fun thread member => ?_
    rw [Function.update_of_ne (Nat.ne_of_lt (coherent.queued_bounded member))]
  have requeued := settled_requeue notAwaited .startThread
    (⟨system.nextId, .kReady, false, some .startThread⟩ :: system.threadQueue)
  rw [List.map_cons, sameQueue] at requeued
  simp only [Thread.standing, Function.update_self] at requeued
  unfold spawnInsert Scheduler.spawnInsert
  rw [settled_place]
  simp only [Option.map_some, liveFrame, Thread.standing]
  congr 1
  have counted := congrArg (fun coarse : Scheduler.System κ =>
    { coarse with
      nextId := system.nextId + 1
      spawned := (current.id, system.nextId) :: system.spawned }) requeued
  exact counted

omit [DecidableEq κ] [Fintype κ] in
/-- The scan reads what both models share. -/
theorem find_settled_queue (system : System κ) (current : Thread)
    (frame : Frame) (initialThreadId : Nat) (onlyReady : Bool) :
    (settled system).threadQueue.find? (Scheduler.stopsScan
        (current.standing frame) initialThreadId onlyReady) =
      (system.threadQueue.find? (stopsScan current initialThreadId
        onlyReady)).map fun thread =>
          thread.standing (system.stops thread.id) := by
  rw [settled, List.find?_map]
  rfl

omit [DecidableEq κ] [Fintype κ] in
theorem erase_settled_queue (system : System κ) (current : Thread)
    (frame : Frame) (initialThreadId : Nat) (onlyReady : Bool) :
    (settled system).threadQueue.eraseP (Scheduler.stopsScan
        (current.standing frame) initialThreadId onlyReady) =
      (system.threadQueue.eraseP (stopsScan current initialThreadId
        onlyReady)).map fun thread =>
          thread.standing (system.stops thread.id) := by
  rw [settled, List.eraseP_map]
  rfl

omit [Fintype κ] in
theorem yieldLocked_eq_some {onlyReady : Bool} {caller : Caller}
    (switched : yieldLocked system kernelThread current onlyReady caller =
      some next) :
    ∃ chosen,
      system.threadQueue.find? (stopsScan current
        (system.kernel kernelThread).initialThreadId onlyReady) = some chosen ∧
      next = { system with
        threadQueue := system.threadQueue.eraseP (stopsScan current
            (system.kernel kernelThread).initialThreadId onlyReady) ++
          [requeued current]
        stops := Function.update system.stops current.id
          (.contextSwitch caller) }.place kernelThread
            (some { chosen with state := .kRunning })
            (.switching current.id caller) := by
  simp only [yieldLocked] at switched
  split at switched
  · cases switched
  · rename_i chosen found
    exact ⟨chosen, found, (Option.some.inj switched).symm⟩

omit [Fintype κ] in
theorem yieldLocked_eq_none_iff {onlyReady : Bool} {caller : Caller} :
    yieldLocked system kernelThread current onlyReady caller = none ↔
      system.threadQueue.find? (stopsScan current
        (system.kernel kernelThread).initialThreadId onlyReady) = none := by
  simp only [yieldLocked]
  split <;> simp [*]

theorem settled_yieldOr (coherent : Coherent system)
    (isCurrent : system.current kernelThread = some current) {frame : Frame}
    (runs : system.execution kernelThread = .running frame) (onlyReady : Bool)
    (caller : Caller) (failed : Frame) :
    settled (yieldOr system kernelThread current onlyReady caller failed) =
      Scheduler.yieldOr (settled system) kernelThread (current.standing frame)
        onlyReady caller failed := by
  have scan := find_settled_queue system current frame
    (system.kernel kernelThread).initialThreadId onlyReady
  cases switched : yieldLocked system kernelThread current onlyReady caller with
  | none =>
      rw [yieldLocked_eq_none_iff.mp switched, Option.map_none] at scan
      have stayed : Scheduler.yield (settled system) kernelThread
          (current.standing frame) onlyReady caller = none :=
        Scheduler.yield_of_find?_none caller scan
      simp only [yieldOr, switched, Option.getD_none, Scheduler.yieldOr, stayed,
        settled_place]
      rfl
  | some next =>
      obtain ⟨chosen, found, rfl⟩ := yieldLocked_eq_some switched
      rw [found, Option.map_some] at scan
      have notAwaited : ∀ other previous otherCaller thread,
          system.execution other = .switching previous otherCaller →
          system.current other = some thread → thread.id ≠ current.id := by
        intro other previous otherCaller thread switches isOther same
        cases coherent.current_unique isCurrent isOther same
        rw [runs] at switches
        cases switches
      have keptQueue : (system.threadQueue.eraseP (stopsScan current
          (system.kernel kernelThread).initialThreadId onlyReady)).map
            (fun thread => thread.standing (Function.update system.stops
              current.id (.contextSwitch caller) thread.id)) =
          (settled system).threadQueue.eraseP (Scheduler.stopsScan
            (current.standing frame)
            (system.kernel kernelThread).initialThreadId onlyReady) := by
        rw [erase_settled_queue]
        refine List.map_congr_left fun thread member => ?_
        rw [Function.update_of_ne (coherent.current_not_queued isCurrent
          (List.mem_of_mem_eraseP member))]
      have chosenOther : chosen.id ≠ current.id :=
        coherent.current_not_queued isCurrent (List.mem_of_find?_eq_some found)
      have moved : (requeued current).standing (.contextSwitch caller) =
        Scheduler.enqueued (current.standing frame) caller := rfl
      have requeuedId : (requeued current).id = current.id := rfl
      have coarse : Scheduler.yield (settled system) kernelThread
          (current.standing frame) onlyReady caller = some _ :=
        Scheduler.yield_of_find?_some caller scan
      simp only [yieldOr, switched, Option.getD_some, Scheduler.yieldOr]
      rw [coarse, settled_place, settled_requeue notAwaited, List.map_append,
        keptQueue, List.map_singleton, requeuedId, Function.update_self, moved]
      simp only [Option.getD_some, Option.map_some, liveFrame,
        Function.update_of_ne chosenOther]
      rfl

omit [DecidableEq κ] [Fintype κ] in
theorem settled_garbageCollect (system : System κ) :
    settled (garbageCollect system) =
      Scheduler.garbageCollect (settled system) := by
  simp only [settled, garbageCollect, Scheduler.garbageCollect,
    List.filter_map]
  rfl

omit [Fintype κ] in
theorem settled_returnFromSwitch (system : System κ) (kernelThread : κ)
    (current : Thread) (frame : Frame) (caller : Caller) :
    settled (returnFromSwitch system kernelThread current caller) =
      Scheduler.returnFromSwitch (settled system) kernelThread
        (current.standing frame) caller := by
  unfold returnFromSwitch Scheduler.returnFromSwitch
  cases caller <;> simp only [settled_place, settled_garbageCollect] <;> rfl

theorem store_standing (id : Nat) (frame standsAt : Frame) (thread : Thread) :
    (store id frame thread).standing standsAt = thread.standing standsAt := by
  unfold store
  split <;> rfl

@[simp]
theorem store_id (id : Nat) (frame : Frame) (thread : Thread) :
    (store id frame thread).id = thread.id := by
  unfold store
  split <;> rfl

theorem store_other {id : Nat} {thread : Thread} (frame : Frame)
    (other : thread.id ≠ id) : store id frame thread = thread := by
  simp [store, other]

omit [DecidableEq κ] [Fintype κ] in
theorem settled_stored (system : System κ) (id : Nat) (frame : Frame) :
    settled (stored system id frame) = settled system := by
  simp only [settled, stored, Scheduler.System.mk.injEq, List.map_map, true_and,
    and_true]
  refine ⟨List.map_congr_left fun thread _ => ?_, funext fun kernelThread => ?_⟩
  · simp [store_standing]
  · simp only [Scheduler.KernelThread.mk.injEq, and_true]
    change Option.map _ ((system.current kernelThread).map (store id frame)) = _
    cases system.current kernelThread with
    | none => rfl
    | some thread =>
        simp only [Option.map_some, store_standing]
        cases execution : system.execution kernelThread with
        | running _ => simp_all [liveFrame, System.execution]
        | switching _ _ => simp_all [liveFrame, System.execution]

omit [Fintype κ] in
/-- What `ContextSwitch` does when it loads another thread's context. -/
theorem contextSwitch_eq_some {previous : Nat} {caller : Caller}
    (isCurrent : system.current kernelThread = some current)
    (other : current.id ≠ previous)
    (switched : contextSwitch system kernelThread previous caller = some next) :
    ∃ frame, current.context = some frame ∧
      next = (stored system previous (.contextSwitch caller)).place kernelThread
        (some current) (.running (entered frame)) := by
  have storedCurrent : (stored system previous
      (.contextSwitch caller)).current kernelThread = some current := by
    change (system.current kernelThread).map _ = _
    rw [isCurrent, Option.map_some, store_other _ other]
  simp only [contextSwitch, storedCurrent] at switched
  obtain ⟨frame, context, placed⟩ := Option.map_eq_some_iff.mp switched
  exact ⟨frame, context, placed.symm⟩

/-- The pending switch of a kernel thread shows as no step. -/
def shownLabel (system : System κ) (label : κ × Action) :
    Option (κ × Action) :=
  match system.execution label.1 with
  | .running _ => some label
  | .switching _ _ => none

omit [DecidableEq κ] [Fintype κ] in
theorem shownLabel_of_running {frame : Frame} {action : Action}
    (runs : system.execution kernelThread = .running frame) :
    shownLabel system (kernelThread, action) = some (kernelThread, action) := by
  simp [shownLabel, runs]

omit [DecidableEq κ] [Fintype κ] in
theorem settled_current_of_running {frame : Frame}
    (isCurrent : system.current kernelThread = some current)
    (runs : system.execution kernelThread = .running frame) :
    (settled system).current kernelThread = some (current.standing frame) := by
  rw [settled_current_of isCurrent, runs]
  rfl

theorem running_of_yieldCall {execution : Execution} {action : Action}
    {onlyReady : Bool} {caller : Caller} {failed : Frame} (thread : Thread)
    (call : yieldCall execution action = some (onlyReady, caller, failed)) :
    ∃ frame, execution = .running frame ∧
      Scheduler.yieldCall (thread.standing frame) action =
        some (onlyReady, caller, failed) := by
  cases execution with
  | running frame => exact ⟨frame, rfl, call⟩
  | switching previous caller => cases call

/-- The switch loads the last stop, which is where the settled system has the
thread already. -/
theorem settled_contextSwitch (safe : HandOverSafe system)
    (coherent : Coherent system) {previous : Nat} {caller : Caller}
    (isCurrent : system.current kernelThread = some current)
    (switches : system.execution kernelThread = .switching previous caller)
    (switched : contextSwitch system kernelThread previous caller = some next) :
    settled next = settled system := by
  obtain ⟨thread, member, named⟩ :=
    safe.unsavedQueued previous ⟨kernelThread, caller, switches⟩
  have other : current.id ≠ previous := by
    rw [← named]
    exact (coherent.current_not_queued isCurrent member).symm
  obtain ⟨frame, context, rfl⟩ :=
    contextSwitch_eq_some isCurrent other switched
  have lastStop := safe.resumesFresh kernelThread previous caller current
    switches isCurrent
  rw [context, Option.some.injEq] at lastStop
  rw [settled_place, settled_stored]
  refine Scheduler.setCurrent_same ?_
  rw [settled_current_of isCurrent, switches, lastStop]
  rfl

theorem step_simulated (safe : HandOverSafe system) (coherent : Coherent system)
    {action : Action} (stepped : step system (kernelThread, action) = some next) :
    Simulated settled Scheduler.interleavedStep system next
      (shownLabel system (kernelThread, action)) := by
  cases transition_of_step stepped with
  | initializeKernel idle fresh =>
      have runs : ∃ frame, system.execution kernelThread = .running frame := by
        cases execution : system.execution kernelThread with
        | running frame => exact ⟨frame, rfl⟩
        | switching previous caller =>
            obtain ⟨thread, isCurrent⟩ := coherent.switchingCurrent _ _ _ execution
            rw [idle] at isCurrent
            cases isCurrent
      rw [shownLabel_of_running runs.choose_spec]
      refine Scheduler.step_of_transition ?_
      rw [settled_initializeKernel]
      refine .initializeKernel ?_ fresh
      rw [settled_current, idle]
      rfl
  | spawn isCurrent inCode =>
      rw [shownLabel_of_running inCode]
      refine Scheduler.step_of_transition ?_
      rw [settled_spawnInsert coherent]
      exact .spawn (settled_current_of_running isCurrent inCode) rfl
  | wait isCurrent inCode =>
      rw [shownLabel_of_running inCode]
      refine Scheduler.step_of_transition ?_
      rw [settled_place]
      exact .wait (settled_current_of_running isCurrent inCode) rfl
  | exit isCurrent inCode spawned =>
      rw [shownLabel_of_running inCode]
      refine Scheduler.step_of_transition ?_
      rw [settled_place]
      exact .exit (settled_current_of_running isCurrent inCode) rfl spawned
  | leave isCurrent inCode initial =>
      rw [shownLabel_of_running inCode]
      refine Scheduler.step_of_transition ?_
      rw [settled_place]
      exact .leave (settled_current_of_running isCurrent inCode) rfl initial
  | yielded isCurrent call =>
      rename_i current _ _ _
      obtain ⟨frame, runs, coarseCall⟩ := running_of_yieldCall current call
      rw [shownLabel_of_running runs]
      refine Scheduler.step_of_transition ?_
      rw [settled_yieldOr coherent isCurrent runs]
      exact .yielded (settled_current_of_running isCurrent runs) coarseCall
  | returned isCurrent frame =>
      rename_i current caller
      rw [shownLabel_of_running frame]
      refine Scheduler.step_of_transition ?_
      rw [settled_returnFromSwitch _ _ _ (.contextSwitch caller)]
      exact .returned (settled_current_of_running isCurrent frame) rfl
  | switched isCurrent switches loaded =>
      have hidden : shownLabel system (kernelThread, Action.proceed) = none := by
        simp [shownLabel, switches]
      rw [hidden]
      exact settled_contextSwitch safe coherent isCurrent switches loaded

end Simulation

end ChlorosSnfs.Chloros.HandOver
