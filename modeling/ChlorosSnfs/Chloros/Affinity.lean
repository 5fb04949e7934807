import ChlorosSnfs.Chloros.Scheduler
import ChlorosSnfs.Library.FirstMatch
import ChlorosSnfs.Library.Runs

/-!
# Initial threads and their kernel threads

chloros.h asks that an initial thread is never scheduled onto another kernel
thread.  The scan of `Yield` refuses initial threads only while the caller is
itself an initial thread of its kernel thread; a spawned caller takes the first
eligible thread of the shared queue whatever it is.  The rule therefore holds
through a run exactly when, at every `Yield` of a spawned caller, no initial
thread of another kernel thread stands first among the eligible ones.
-/

set_option autoImplicit false

namespace ChlorosSnfs.Chloros.Affinity

open ChlorosSnfs.Chloros.Scheduler
open ChlorosSnfs.Library.FirstMatch
open ChlorosSnfs.Library.Runs

variable {κ : Type} [DecidableEq κ]

/-- An initial thread that is current is the one its kernel thread made. -/
def Affine (system : System κ) : Prop :=
  ∀ kernelThread thread, system.current kernelThread = some thread →
    thread.isInitialKernelThread = true →
      thread.id = (system.kernel kernelThread).initialThreadId

/-- An initial thread made by another kernel thread than the one whose
`initial_thread_id` is given. -/
def foreign (initialThreadId : Nat) (thread : Thread) : Bool :=
  thread.isInitialKernelThread && thread.id != initialThreadId

/-- Every eligible foreign initial thread of the queue has an eligible thread
that is not one before it. -/
def ForeignCovered (queue : List Thread) (initialThreadId : Nat)
    (onlyReady : Bool) : Prop :=
  ∀ before candidate after, queue = before ++ candidate :: after →
    eligible onlyReady candidate = true →
    foreign initialThreadId candidate = true →
      ∃ earlier ∈ before, eligible onlyReady earlier = true ∧
        foreign initialThreadId earlier = false

/-- The condition on the state in which a step is taken: if the step performs a
`Yield` and its caller is not the kernel thread's own initial thread, foreign
initial threads are covered. -/
def YieldGuard (system : System κ) (label : κ × Action) : Prop :=
  ∀ current onlyReady caller failed,
    system.current label.1 = some current →
    yieldCall current label.2 = some (onlyReady, caller, failed) →
    current.id ≠ (system.kernel label.1).initialThreadId →
      ForeignCovered system.threadQueue
        (system.kernel label.1).initialThreadId onlyReady

omit [DecidableEq κ] in
theorem affine_boot : Affine (boot : System κ) := by
  intro kernelThread thread isCurrent
  simp at isCurrent

/-- Only the thread put in place matters. -/
theorem affine_setCurrent_iff {system : System κ} (affine : Affine system)
    (kernelThread : κ) (thread : Option Thread) :
    Affine (system.setCurrent kernelThread thread) ↔
      ∀ placed, thread = some placed → placed.isInitialKernelThread = true →
        placed.id = (system.kernel kernelThread).initialThreadId := by
  constructor
  · intro holds placed isPlaced initial
    have same := holds kernelThread placed (by simpa using isPlaced) initial
    simpa using same
  · intro holds other placed isCurrent initial
    by_cases same : other = kernelThread
    · subst same
      simp only [setCurrent_current] at isCurrent
      simpa using holds placed isCurrent initial
    · rw [setCurrent_current_other system thread same] at isCurrent
      simpa using affine other placed isCurrent initial

theorem affine_initializeKernel {system : System κ} (affine : Affine system)
    (kernelThread : κ) : Affine (initializeKernel system kernelThread) := by
  intro other thread isCurrent initial
  by_cases same : other = kernelThread
  · subst same
    simp only [System.current, initializeKernel, Function.update_self] at *
    cases isCurrent
    rfl
  · simp only [System.current, initializeKernel,
      Function.update_of_ne same] at *
    exact affine other thread isCurrent initial

/-- A thread that stays current keeps its id and its kind. -/
theorem affine_of_same_thread {system changed : System κ}
    (affine : Affine system) {kernelThread : κ} {current replaced : Thread}
    (isCurrent : system.current kernelThread = some current)
    (sameId : replaced.id = current.id)
    (sameKind : replaced.isInitialKernelThread = current.isInitialKernelThread)
    (sameKernel : changed.kernel = system.kernel) :
    Affine (changed.setCurrent kernelThread (some replaced)) := by
  have changedAffine : Affine changed := by
    intro other thread isThread
    simp only [System.current, sameKernel] at *
    exact affine other thread isThread
  rw [affine_setCurrent_iff changedAffine]
  intro placed isPlaced initial
  cases isPlaced
  rw [sameId, sameKernel]
  exact affine kernelThread current isCurrent (sameKind ▸ initial)

/-- A step that performs no `Yield` keeps the rule. -/
theorem step_affine_of_no_yield {system next : System κ} {kernelThread : κ}
    {action : Action} (affine : Affine system)
    (noYield : ∀ current, system.current kernelThread = some current →
      yieldCall current action = none)
    (stepped : step system kernelThread action = some next) : Affine next := by
  cases transition_of_step stepped with
  | initializeKernel _ _ => exact affine_initializeKernel affine kernelThread
  | spawn isCurrent _ => exact affine_of_same_thread affine isCurrent rfl rfl rfl
  | wait isCurrent _ => exact affine_of_same_thread affine isCurrent rfl rfl rfl
  | exit isCurrent _ _ => exact affine_of_same_thread affine isCurrent rfl rfl rfl
  | leave _ _ _ =>
      rw [affine_setCurrent_iff affine]
      intro placed absent
      cases absent
  | @yielded current _ _ _ _ isCurrent called =>
      rw [noYield current isCurrent] at called
      cases called
  | @returned _ caller isCurrent _ =>
      cases caller <;> exact affine_of_same_thread affine isCurrent rfl rfl rfl

/-! ## The scan -/

theorem foreignCovered_iff {queue : List Thread} {initialThreadId : Nat}
    {onlyReady : Bool} : ForeignCovered queue initialThreadId onlyReady ↔
      Covered (eligible onlyReady) (foreign initialThreadId · = true) queue := by
  simp only [ForeignCovered, Covered, Bool.not_eq_true]

/-- The thread chosen is an own or a spawned one exactly when the foreign
initial threads of the queue are covered. -/
theorem first_eligible_not_foreign_iff {queue : List Thread}
    {initialThreadId : Nat} {onlyReady : Bool} {chosen : Thread}
    (found : queue.find? (eligible onlyReady) = some chosen) :
    foreign initialThreadId chosen = false ↔
      ForeignCovered queue initialThreadId onlyReady := by
  rw [foreignCovered_iff, covered_iff_of_find? found, Bool.not_eq_true]

theorem covered_of_none_eligible {queue : List Thread} {initialThreadId : Nat}
    {onlyReady : Bool} (noneFound : queue.find? (eligible onlyReady) = none) :
    ForeignCovered queue initialThreadId onlyReady :=
  foreignCovered_iff.mpr (covered_of_find?_none noneFound)

theorem stopsScan_of_spawned {current : Thread} {initialThreadId : Nat}
    (spawnedCaller : current.id ≠ initialThreadId) (onlyReady : Bool) :
    stopsScan current initialThreadId onlyReady = eligible onlyReady := by
  funext candidate
  simp [stopsScan, spawnedCaller]

theorem not_initial_of_stopsScan_initial {current candidate : Thread}
    {initialThreadId : Nat} {onlyReady : Bool}
    (initialCaller : current.id = initialThreadId)
    (stops : stopsScan current initialThreadId onlyReady candidate = true) :
    candidate.isInitialKernelThread = false := by
  simp only [stopsScan, initialCaller, bne_self_eq_false, Bool.false_or,
    Bool.and_eq_true] at stops
  simpa using stops.2

/-- A step that performs a `Yield` keeps the rule exactly under the guard. -/
theorem yieldOr_affine_iff {system : System κ} (affine : Affine system)
    {kernelThread : κ} {current : Thread}
    (isCurrent : system.current kernelThread = some current)
    (onlyReady : Bool) (caller : Caller) (failed : Frame) :
    Affine (yieldOr system kernelThread current onlyReady caller failed) ↔
      (current.id ≠ (system.kernel kernelThread).initialThreadId →
        ForeignCovered system.threadQueue
          (system.kernel kernelThread).initialThreadId onlyReady) := by
  cases switched : yield system kernelThread current onlyReady caller with
  | none =>
      have noneFound := yield_eq_none switched
      simp only [yieldOr, switched, Option.getD_none]
      refine iff_of_true
        (affine_of_same_thread affine isCurrent rfl rfl rfl) ?_
      intro spawnedCaller
      rw [stopsScan_of_spawned spawnedCaller] at noneFound
      exact covered_of_none_eligible noneFound
  | some next =>
      obtain ⟨chosen, found, nextExact⟩ := yield_eq_some switched
      simp only [yieldOr, switched, Option.getD_some, nextExact]
      have requeuedAffine : Affine { system with
          threadQueue := system.threadQueue.eraseP (stopsScan current
            (system.kernel kernelThread).initialThreadId onlyReady) ++
              [enqueued current caller] } := affine
      rw [affine_setCurrent_iff requeuedAffine]
      have placedExact :
          (∀ placed, some (resumed chosen) = some placed →
            placed.isInitialKernelThread = true →
              placed.id = (system.kernel kernelThread).initialThreadId) ↔
          foreign (system.kernel kernelThread).initialThreadId chosen =
            false := by
        simp [resumed, foreign]
      rw [placedExact]
      by_cases spawnedCaller :
          current.id = (system.kernel kernelThread).initialThreadId
      · have notInitial := not_initial_of_stopsScan_initial spawnedCaller
          (List.find?_some found)
        simp [foreign, notInitial, spawnedCaller]
      · rw [stopsScan_of_spawned spawnedCaller] at found
        simp only [ne_eq, spawnedCaller, not_false_eq_true, forall_const]
        exact first_eligible_not_foreign_iff found

theorem step_affine_iff (system : System κ) (label : κ × Action)
    (next : System κ) (affine : Affine system)
    (stepped : interleavedStep system label = some next) :
    Affine next ↔ YieldGuard system label := by
  obtain ⟨kernelThread, action⟩ := label
  by_cases noYield : ∀ current, system.current kernelThread = some current →
      yieldCall current action = none
  · refine iff_of_true (step_affine_of_no_yield affine noYield stepped) ?_
    intro current onlyReady caller failed isCurrent call
    rw [noYield current isCurrent] at call
    cases call
  · push Not at noYield
    obtain ⟨current, isCurrent, calls⟩ := noYield
    obtain ⟨⟨onlyReady, caller, failed⟩, call⟩ := Option.ne_none_iff_exists'.mp calls
    rw [interleavedStep, step_of_yieldCall isCurrent call] at stepped
    cases stepped
    rw [yieldOr_affine_iff affine isCurrent]
    constructor
    · intro covered other otherReady otherCaller otherFailed otherCurrent
        otherCall spawnedCaller
      cases Option.some.inj (isCurrent.symm.trans otherCurrent)
      cases Option.some.inj (call.symm.trans otherCall)
      exact covered spawnedCaller
    · intro guard
      exact guard current onlyReady caller failed isCurrent call

/-- Through every interleaving of any kernel threads, an initial thread is only
ever current on its own kernel thread if and only if every `Yield` of the run
meets the guard. -/
theorem initial_thread_stays_iff (labels : List (κ × Action))
    (final : System κ) (run : runLabels interleavedStep boot labels = some final) :
    Everywhere interleavedStep Affine boot labels ↔
      EveryStep interleavedStep YieldGuard boot labels :=
  everywhere_iff_guards step_affine_iff affine_boot run

/-- Two kernel threads run the worker of the extra credit test: each calls
`Initialize` and spawns one green thread, and the green thread of the second
one returns. -/
def extraCreditRun : List (Fin 2 × Action) :=
  [(0, .initializeKernel), (1, .initializeKernel),
    (0, .spawn), (0, .proceed), (1, .spawn), (1, .proceed),
    (1, .exit), (1, .proceed)]

theorem initial_thread_stays_iff_extraCredit :
    Everywhere interleavedStep Affine (boot : System (Fin 2)) extraCreditRun ↔
      EveryStep interleavedStep YieldGuard (boot : System (Fin 2))
        extraCreditRun :=
  initial_thread_stays_iff extraCreditRun _ rfl

/-- The exit of the second green thread puts the first kernel thread's initial
thread on the second kernel thread. -/
theorem extraCreditRun_leaves_kernel_thread :
    ∃ final, runLabels interleavedStep (boot : System (Fin 2))
        extraCreditRun = some final ∧ ¬ Affine final := by
  refine ⟨_, rfl, ?_⟩
  intro affine
  have moved := affine 1 ⟨0, .kRunning, true, .contextSwitch .spawn⟩ rfl rfl
  exact absurd moved (by decide)

end ChlorosSnfs.Chloros.Affinity
