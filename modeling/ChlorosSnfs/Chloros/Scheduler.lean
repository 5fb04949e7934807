import Mathlib.Data.List.Basic
import Mathlib.Logic.Function.Basic

/-!
# The scheduler of chloros.cpp

Kernel threads share `thread_queue`; each owns its `current_thread` and its
`initial_thread_id`.  What a green thread's saved context and stack determine
is where it continues, so `Frame` stands for both.  The critical sections of
`Spawn`, `Yield` and `GarbageCollect` are single steps, and a step names the
kernel thread that takes it; any interleaving of kernel threads is a list of
such steps.  Thread ids come from an unbounded counter.
-/

set_option autoImplicit false

namespace ChlorosSnfs.Chloros.Scheduler

/-- `Thread::State`. -/
inductive ThreadState where
  | kWaiting
  | kReady
  | kRunning
  | kZombie
  deriving DecidableEq, Repr

/-- The call a `Yield` returns to. -/
inductive Caller where
  | code
  | spawn
  | wait
  | threadEntry
  deriving DecidableEq, Repr

/-- Where a green thread stands.  `startThread` is the stack `Spawn` lays out,
entered by the first switch to it; `code` is the thread's own function (the
main program for an initial thread); `spawn`, `waitLoop` and `threadEntry` are
about to call `Yield`; `contextSwitch` is behind the switch inside `Yield`, with
`GarbageCollect` next; `assertFailed` is past the `ASSERT(false)`. -/
inductive Frame where
  | startThread
  | code
  | spawn
  | waitLoop
  | threadEntry
  | contextSwitch (caller : Caller)
  | assertFailed
  deriving DecidableEq, Repr

structure Thread where
  id : Nat
  state : ThreadState
  isInitialKernelThread : Bool
  frame : Frame
  deriving DecidableEq, Repr

/-- The thread-local variables of one kernel thread.  `initialized` records the
call of `Initialize`; `currentThread` is `none` before it and after the kernel
thread has left. -/
structure KernelThread where
  currentThread : Option Thread
  initialThreadId : Nat
  initialized : Bool
  deriving DecidableEq, Repr

/-- The shared queue, the id counter and every kernel thread.  `finished` and
`spawned` are history: the ids of threads whose function has returned, and the
pairs of a spawning thread and the thread it created. -/
structure System (κ : Type) where
  threadQueue : List Thread
  nextId : Nat
  kernel : κ → KernelThread
  finished : List Nat
  spawned : List (Nat × Nat)

variable {κ : Type} [DecidableEq κ]

/-- Before any kernel thread has called `Initialize`. -/
def boot : System κ where
  threadQueue := []
  nextId := 0
  kernel := fun _ => ⟨none, 0, false⟩
  finished := []
  spawned := []

def System.current (system : System κ) (kernelThread : κ) : Option Thread :=
  (system.kernel kernelThread).currentThread

def System.setCurrent (system : System κ) (kernelThread : κ)
    (thread : Option Thread) : System κ :=
  { system with
    kernel := Function.update system.kernel kernelThread
      { system.kernel kernelThread with currentThread := thread } }

/-! ## The library calls -/

/-- `Initialize`. -/
def initializeKernel (system : System κ) (kernelThread : κ) : System κ :=
  let newThread : Thread :=
    ⟨system.nextId, .kWaiting, true, .code⟩
  { system with
    nextId := system.nextId + 1
    kernel := Function.update system.kernel kernelThread
      ⟨some newThread, newThread.id, true⟩ }

/-- The state test of the scan in `Yield`. -/
def eligible (onlyReady : Bool) (candidate : Thread) : Bool :=
  candidate.state = .kReady || (candidate.state = .kWaiting && !onlyReady)

/-- The whole test of the scan in `Yield`: the inner `if` breaks at once when a
spawned thread is current, and otherwise only at a thread that is not initial. -/
def stopsScan (current : Thread) (initialThreadId : Nat) (onlyReady : Bool)
    (candidate : Thread) : Bool :=
  eligible onlyReady candidate &&
    (current.id != initialThreadId || !candidate.isInitialKernelThread)

/-- The previous thread as `Yield` puts it at the back of the queue. -/
def enqueued (previous : Thread) (caller : Caller) : Thread :=
  { previous with
    state := if previous.state = .kRunning then .kReady else previous.state
    frame := .contextSwitch caller }

/-- The next thread once the switch has reached it: a new stack enters its
function, any other continues behind its own `ContextSwitch`. -/
def resumed (next : Thread) : Thread :=
  { next with
    state := .kRunning
    frame := if next.frame = .startThread then .code else next.frame }

/-- `Yield` up to and including the context switch; `none` when it returns
false. -/
def yield (system : System κ) (kernelThread : κ) (current : Thread)
    (onlyReady : Bool) (caller : Caller) : Option (System κ) :=
  let test := stopsScan current (system.kernel kernelThread).initialThreadId
    onlyReady
  match system.threadQueue.find? test with
  | none => none
  | some next =>
      some ({ system with
        threadQueue :=
          system.threadQueue.eraseP test ++ [enqueued current caller] }.setCurrent
            kernelThread (some (resumed next)))

def garbageCollect (system : System κ) : System κ :=
  { system with
    threadQueue := system.threadQueue.filter fun thread =>
      thread.state ≠ .kZombie }

/-- Ready and zombie threads, as `GetThreadCount` counts them. -/
def getThreadCount (system : System κ) : Nat × Nat :=
  (system.threadQueue.countP fun thread => thread.state ≠ .kZombie,
    system.threadQueue.countP fun thread => thread.state = .kZombie)

/-- The insertion of `Spawn`, at the front of the queue. -/
def spawnInsert (system : System κ) (kernelThread : κ) (current : Thread) :
    System κ :=
  let newThread : Thread := ⟨system.nextId, .kReady, false, .startThread⟩
  { system with
    threadQueue := newThread :: system.threadQueue
    nextId := system.nextId + 1
    spawned := (current.id, newThread.id) :: system.spawned }.setCurrent
      kernelThread (some { current with frame := .spawn })

/-! ## Steps -/

/-- What a kernel thread does next.  `spawn`, `yield`, `wait`, `exit` and
`leave` are choices of the code its current green thread runs; `proceed`
carries on inside a library call. -/
inductive Action where
  | initializeKernel
  | spawn
  | yield (onlyReady : Bool)
  | wait
  | exit
  | leave
  | proceed
  deriving DecidableEq, Repr

/-- `GarbageCollect` behind the switch, then the return of `Yield` with true to
its caller. -/
def returnFromSwitch (system : System κ) (kernelThread : κ) (current : Thread)
    (caller : Caller) : System κ :=
  let collected := garbageCollect system
  match caller with
  | .code | .spawn =>
      collected.setCurrent kernelThread (some { current with frame := .code })
  | .wait =>
      collected.setCurrent kernelThread
        (some { current with state := .kWaiting, frame := .waitLoop })
  | .threadEntry =>
      collected.setCurrent kernelThread
        (some { current with frame := .assertFailed })

/-- A call of `Yield` and, when it returns false, the frame it returns to. -/
def yieldOr (system : System κ) (kernelThread : κ) (current : Thread)
    (onlyReady : Bool) (caller : Caller) (failed : Frame) : System κ :=
  (yield system kernelThread current onlyReady caller).getD
    (system.setCurrent kernelThread (some { current with frame := failed }))

/-- A step taken by the code of the current green thread. -/
def codeStep (system : System κ) (kernelThread : κ) (current : Thread) :
    Action → Option (System κ)
  | .spawn => some (spawnInsert system kernelThread current)
  | .yield onlyReady =>
      some (yieldOr system kernelThread current onlyReady .code .code)
  | .wait => some (system.setCurrent kernelThread
      (some { current with state := .kWaiting, frame := .waitLoop }))
  | .exit =>
      -- the function returns to `ThreadEntry`; an initial thread has none
      if current.isInitialKernelThread then none
      else some ({ system with
        finished := current.id :: system.finished }.setCurrent kernelThread
          (some { current with state := .kZombie, frame := .threadEntry }))
  | .leave =>
      if current.isInitialKernelThread then
        some (system.setCurrent kernelThread none)
      else none
  | .initializeKernel | .proceed => none

/-- A step inside the library call the current green thread is in. -/
def libraryStep (system : System κ) (kernelThread : κ) (current : Thread) :
    Option (System κ) :=
  match current.frame with
  | .spawn => some (yieldOr system kernelThread current true .spawn .code)
  | .waitLoop => some (yieldOr system kernelThread current true .wait .code)
  | .threadEntry =>
      some (yieldOr system kernelThread current false .threadEntry .assertFailed)
  | .contextSwitch caller =>
      some (returnFromSwitch system kernelThread current caller)
  | .startThread | .code | .assertFailed => none

def step (system : System κ) (kernelThread : κ) (action : Action) :
    Option (System κ) :=
  match system.current kernelThread with
  | none =>
      if action = .initializeKernel ∧ (system.kernel kernelThread).initialized = false
      then some (initializeKernel system kernelThread)
      else none
  | some current =>
      if current.frame = .code then codeStep system kernelThread current action
      else if action = .proceed then libraryStep system kernelThread current
      else none

/-- One step of the interleaving, labelled with the kernel thread that takes it. -/
def interleavedStep (system : System κ) (label : κ × Action) :
    Option (System κ) :=
  step system label.1 label.2

/-! ## Reading a changed system -/

omit [DecidableEq κ] in
@[simp]
theorem boot_current (kernelThread : κ) :
    (boot : System κ).current kernelThread = none := rfl

@[simp]
theorem setCurrent_threadQueue (system : System κ) (kernelThread : κ)
    (thread : Option Thread) :
    (system.setCurrent kernelThread thread).threadQueue = system.threadQueue :=
  rfl

@[simp]
theorem setCurrent_nextId (system : System κ) (kernelThread : κ)
    (thread : Option Thread) :
    (system.setCurrent kernelThread thread).nextId = system.nextId := rfl

@[simp]
theorem setCurrent_finished (system : System κ) (kernelThread : κ)
    (thread : Option Thread) :
    (system.setCurrent kernelThread thread).finished = system.finished := rfl

@[simp]
theorem setCurrent_current (system : System κ) (kernelThread : κ)
    (thread : Option Thread) :
    (system.setCurrent kernelThread thread).current kernelThread = thread := by
  simp [System.setCurrent, System.current]

@[simp]
theorem setCurrent_initialThreadId (system : System κ) (kernelThread other : κ)
    (thread : Option Thread) :
    ((system.setCurrent kernelThread thread).kernel other).initialThreadId =
      (system.kernel other).initialThreadId := by
  by_cases same : other = kernelThread
  · subst same
    simp [System.setCurrent]
  · simp [System.setCurrent, same]

theorem setCurrent_current_other (system : System κ) {kernelThread other : κ}
    (thread : Option Thread) (different : other ≠ kernelThread) :
    (system.setCurrent kernelThread thread).current other =
      system.current other := by
  simp [System.setCurrent, System.current, different]

theorem setCurrent_current_eq (system : System κ) (kernelThread : κ)
    (thread : Option Thread) :
    (system.setCurrent kernelThread thread).current =
      Function.update system.current kernelThread thread := by
  funext other
  by_cases same : other = kernelThread
  · subst same
    simp
  · simp [setCurrent_current_other system thread same, same]

theorem setCurrent_same {system : System κ} {kernelThread : κ}
    {slot : Option Thread} (same : system.current kernelThread = slot) :
    system.setCurrent kernelThread slot = system := by
  subst same
  simp [System.setCurrent, System.current]

@[simp]
theorem setCurrent_spawned (system : System κ) (kernelThread : κ)
    (thread : Option Thread) :
    (system.setCurrent kernelThread thread).spawned = system.spawned := rfl

@[simp]
theorem setCurrent_initialized (system : System κ) (kernelThread other : κ)
    (thread : Option Thread) :
    ((system.setCurrent kernelThread thread).kernel other).initialized =
      (system.kernel other).initialized := by
  by_cases same : other = kernelThread
  · subst same
    simp [System.setCurrent]
  · simp [System.setCurrent, same]

/-! ## The call of `Yield` in a step -/

/-- The `Yield` a step performs: its argument, its caller and the frame behind
it when it returns false. -/
def yieldCall (current : Thread) (action : Action) :
    Option (Bool × Caller × Frame) :=
  match current.frame, action with
  | .code, .yield onlyReady => some (onlyReady, .code, .code)
  | .spawn, .proceed => some (true, .spawn, .code)
  | .waitLoop, .proceed => some (true, .wait, .code)
  | .threadEntry, .proceed => some (false, .threadEntry, .assertFailed)
  | _, _ => none

theorem step_of_yieldCall {system : System κ} {kernelThread : κ}
    {current : Thread} {action : Action} {onlyReady : Bool} {caller : Caller}
    {failed : Frame} (isCurrent : system.current kernelThread = some current)
    (call : yieldCall current action = some (onlyReady, caller, failed)) :
    step system kernelThread action =
      some (yieldOr system kernelThread current onlyReady caller failed) := by
  simp only [step, isCurrent]
  unfold yieldCall at call
  split at call
  case h_5 => cases call
  all_goals
    rename_i frameExact
    cases call
    simp [frameExact, codeStep, libraryStep]

/-- The thread `Yield` switches to is the first one its scan stops at. -/
theorem yield_eq_some {system next : System κ} {kernelThread : κ}
    {current : Thread} {onlyReady : Bool} {caller : Caller}
    (switched : yield system kernelThread current onlyReady caller = some next) :
    ∃ chosen,
      system.threadQueue.find? (stopsScan current
        (system.kernel kernelThread).initialThreadId onlyReady) = some chosen ∧
      next = { system with
        threadQueue := system.threadQueue.eraseP (stopsScan current
            (system.kernel kernelThread).initialThreadId onlyReady) ++
          [enqueued current caller] }.setCurrent
            kernelThread (some (resumed chosen)) := by
  simp only [yield] at switched
  split at switched
  · cases switched
  · rename_i chosen found
    exact ⟨chosen, found, (Option.some.inj switched).symm⟩

theorem yield_eq_none {system : System κ} {kernelThread : κ}
    {current : Thread} {onlyReady : Bool} {caller : Caller}
    (stayed : yield system kernelThread current onlyReady caller = none) :
    system.threadQueue.find? (stopsScan current
      (system.kernel kernelThread).initialThreadId onlyReady) = none := by
  simp only [yield] at stayed
  split at stayed
  · assumption
  · cases stayed

theorem yield_of_find?_none {system : System κ} {kernelThread : κ}
    {current : Thread} {onlyReady : Bool} (caller : Caller)
    (noneFound : system.threadQueue.find? (stopsScan current
      (system.kernel kernelThread).initialThreadId onlyReady) = none) :
    yield system kernelThread current onlyReady caller = none := by
  simp [yield, noneFound]

theorem yield_of_find?_some {system : System κ} {kernelThread : κ}
    {current chosen : Thread} {onlyReady : Bool} (caller : Caller)
    (found : system.threadQueue.find? (stopsScan current
      (system.kernel kernelThread).initialThreadId onlyReady) = some chosen) :
    yield system kernelThread current onlyReady caller =
      some ({ system with
        threadQueue := system.threadQueue.eraseP (stopsScan current
            (system.kernel kernelThread).initialThreadId onlyReady) ++
          [enqueued current caller] }.setCurrent
            kernelThread (some (resumed chosen))) := by
  simp [yield, found]

theorem stopsScan_ready_iff {current candidate : Thread} {initialThreadId : Nat} :
    stopsScan current initialThreadId true candidate = true ↔
      candidate.state = .kReady ∧ ¬ (current.id = initialThreadId ∧
        candidate.isInitialKernelThread = true) := by
  cases kind : candidate.isInitialKernelThread <;>
    simp [stopsScan, eligible, kind]

/-- What a step of a kernel thread can do, with all its conditions. -/
inductive Transition (system : System κ) (kernelThread : κ) :
    Action → System κ → Prop where
  | initializeKernel : system.current kernelThread = none →
      (system.kernel kernelThread).initialized = false →
      Transition system kernelThread .initializeKernel
        (initializeKernel system kernelThread)
  | spawn {current : Thread} : system.current kernelThread = some current →
      current.frame = .code →
      Transition system kernelThread .spawn
        (spawnInsert system kernelThread current)
  | wait {current : Thread} : system.current kernelThread = some current →
      current.frame = .code →
      Transition system kernelThread .wait (system.setCurrent kernelThread
        (some { current with state := .kWaiting, frame := .waitLoop }))
  | exit {current : Thread} : system.current kernelThread = some current →
      current.frame = .code → current.isInitialKernelThread = false →
      Transition system kernelThread .exit ({ system with
        finished := current.id :: system.finished }.setCurrent kernelThread
          (some { current with state := .kZombie, frame := .threadEntry }))
  | leave {current : Thread} : system.current kernelThread = some current →
      current.frame = .code → current.isInitialKernelThread = true →
      Transition system kernelThread .leave (system.setCurrent kernelThread none)
  | yielded {current : Thread} {action : Action} {onlyReady : Bool}
      {caller : Caller} {failed : Frame} :
      system.current kernelThread = some current →
      yieldCall current action = some (onlyReady, caller, failed) →
      Transition system kernelThread action
        (yieldOr system kernelThread current onlyReady caller failed)
  | returned {current : Thread} {caller : Caller} :
      system.current kernelThread = some current →
      current.frame = .contextSwitch caller →
      Transition system kernelThread .proceed
        (returnFromSwitch system kernelThread current caller)

theorem transition_of_step {system next : System κ} {kernelThread : κ}
    {action : Action} (stepped : step system kernelThread action = some next) :
    Transition system kernelThread action next := by
  simp only [step] at stepped
  cases isCurrent : system.current kernelThread with
  | none =>
      rw [isCurrent] at stepped
      simp only [Option.ite_none_right_eq_some, Option.some.injEq] at stepped
      obtain ⟨⟨rfl, fresh⟩, rfl⟩ := stepped
      exact .initializeKernel isCurrent fresh
  | some current =>
      simp only [isCurrent] at stepped
      split at stepped
      · rename_i inCode
        cases action with
        | spawn =>
            cases stepped
            exact .spawn isCurrent inCode
        | yield onlyReady =>
            cases stepped
            exact .yielded isCurrent (by simp [yieldCall, inCode])
        | wait =>
            cases stepped
            exact .wait isCurrent inCode
        | exit =>
            simp only [codeStep, Option.ite_none_left_eq_some,
              Option.some.injEq] at stepped
            rw [← stepped.2]
            exact .exit isCurrent inCode (by simpa using stepped.1)
        | leave =>
            simp only [codeStep, Option.ite_none_right_eq_some,
              Option.some.injEq] at stepped
            rw [← stepped.2]
            exact .leave isCurrent inCode stepped.1
        | initializeKernel => cases stepped
        | proceed => cases stepped
      · simp only [Option.ite_none_right_eq_some] at stepped
        obtain ⟨rfl, stepped⟩ := stepped
        cases frame : current.frame with
        | startThread => simp [libraryStep, frame] at stepped
        | code => simp [libraryStep, frame] at stepped
        | spawn =>
            simp only [libraryStep, frame, Option.some.injEq] at stepped
            rw [← stepped]
            exact .yielded isCurrent (by simp [yieldCall, frame])
        | waitLoop =>
            simp only [libraryStep, frame, Option.some.injEq] at stepped
            rw [← stepped]
            exact .yielded isCurrent (by simp [yieldCall, frame])
        | threadEntry =>
            simp only [libraryStep, frame, Option.some.injEq] at stepped
            rw [← stepped]
            exact .yielded isCurrent (by simp [yieldCall, frame])
        | contextSwitch caller =>
            simp only [libraryStep, frame, Option.some.injEq] at stepped
            rw [← stepped]
            exact .returned isCurrent frame
        | assertFailed => simp [libraryStep, frame] at stepped

theorem step_of_transition {system next : System κ} {kernelThread : κ}
    {action : Action} (transition : Transition system kernelThread action next) :
    step system kernelThread action = some next := by
  cases transition with
  | initializeKernel idle fresh => simp [step, idle, fresh]
  | spawn isCurrent inCode => simp [step, isCurrent, inCode, codeStep]
  | wait isCurrent inCode => simp [step, isCurrent, inCode, codeStep]
  | exit isCurrent inCode notInitial =>
      simp [step, isCurrent, inCode, codeStep, notInitial]
  | leave isCurrent inCode initial =>
      simp [step, isCurrent, inCode, codeStep, initial]
  | yielded isCurrent call => exact step_of_yieldCall isCurrent call
  | returned isCurrent frame => simp [step, isCurrent, frame, libraryStep]

theorem nextId_le_of_step {system next : System κ} {kernelThread : κ}
    {action : Action} (stepped : step system kernelThread action = some next) :
    system.nextId ≤ next.nextId := by
  cases transition_of_step stepped with
  | initializeKernel => exact Nat.le_succ _
  | spawn => exact Nat.le_succ _
  | wait => exact Nat.le_refl _
  | exit => exact Nat.le_refl _
  | leave => exact Nat.le_refl _
  | @yielded current _ onlyReady caller failed _ _ =>
      cases switched : yield system kernelThread current onlyReady caller with
      | none => simp [yieldOr, switched]
      | some next =>
          obtain ⟨_, _, rfl⟩ := yield_eq_some switched
          simp [yieldOr, switched]
  | @returned _ caller _ _ => cases caller <;> exact Nat.le_refl _

end ChlorosSnfs.Chloros.Scheduler
