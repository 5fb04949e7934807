import ChlorosSnfs.Chloros.KernelThreads
import ChlorosSnfs.Chloros.WaitingState

/-!
# What Wait guarantees with several kernel threads

chloros.h says that `Wait` waits till all other green threads are done.  A call
of `Wait` comes back to the caller's code when the scan of one of its `Yield`s
finds nothing in the queue, and a thread that another kernel thread is running is
not in the queue.  The threads the caller has spawned are then done exactly when
none of them is being run elsewhere and none is itself inside `Wait`.

A thread is followed from its call to the first state in which it is in its own
code again; between the two it stands inside `Wait` wherever it is.
-/

set_option autoImplicit false

namespace ChlorosSnfs.Chloros.WaitGuarantee

open ChlorosSnfs.Chloros.Scheduler
open ChlorosSnfs.Chloros.SingleKernel (perm_cons_eraseP_of_find?)
open ChlorosSnfs.Chloros.KernelThreads
open ChlorosSnfs.Chloros.WaitingState (insideWait yieldCall_insideWait)
open ChlorosSnfs.Library.Holders (held)
open ChlorosSnfs.Library.Runs

variable {κ : Type} [DecidableEq κ]

/-! ## A call of Wait -/

/-- A thread runs its own code. -/
def InCode (system : System κ) (id : Nat) : Prop :=
  ∃ kernelThread current, system.current kernelThread = some current ∧
    current.id = id ∧ current.frame = .code

/-- A call of `Wait` by an initial thread, up to the first state in which this
thread is in its own code again. -/
structure WaitReturns (before : System κ) (kernelThread : κ) (waiter : Thread)
    (during : List (κ × Action)) (after : System κ) : Prop where
  isCurrent : before.current kernelThread = some waiter
  inCode : waiter.frame = .code
  initial : waiter.isInitialKernelThread = true
  returns : ∃ called,
    interleavedStep before (kernelThread, .wait) = some called ∧
    RunsUntil interleavedStep (InCode · waiter.id) called during after

section Promise

variable [Fintype κ]

/-- The function of the thread has returned: it is a zombie or destroyed. -/
def Done (system : System κ) (id : Nat) : Prop :=
  id ∈ system.finished ∧
    ∀ thread ∈ census system, thread.id = id → thread.state = .kZombie

/-- Whenever a call of `Wait` in the run has come back, all threads that its
caller has spawned are done. -/
def WaitKeepsPromise (labels : List (κ × Action)) : Prop :=
  ∀ earlier kernelThread during later before waiter after,
    labels = earlier ++ (kernelThread, .wait) :: (during ++ later) →
    runLabels interleavedStep (boot : System κ) earlier = some before →
    WaitReturns before kernelThread waiter during after →
      ∀ pair ∈ after.spawned, pair.1 = waiter.id → Done after pair.2

end Promise

/-- An initial thread stands before the `Yield` of `Wait`. -/
structure AtWait (system : System κ) (label : κ × Action) (waiter : Thread) :
    Prop where
  isCurrent : system.current label.1 = some waiter
  initial : waiter.isInitialKernelThread = true
  frame : waiter.frame = .waitLoop
  proceeds : label.2 = .proceed

/-- When `Wait` finds nothing to switch to, no thread spawned by the caller is
on another kernel thread short of its end, and none is queued as waiting. -/
def NoneOut (system : System κ) (label : κ × Action) : Prop :=
  ∀ waiter, AtWait system label waiter →
    (∀ queued ∈ system.threadQueue, stopsScan waiter
      (system.kernel label.1).initialThreadId true queued = false) →
      ∀ pair ∈ system.spawned, pair.1 = waiter.id →
        (∀ other running, other ≠ label.1 →
          system.current other = some running → running.id = pair.2 →
            running.state = .kZombie) ∧
        (∀ queued ∈ system.threadQueue, queued.id = pair.2 →
          queued.state ≠ .kWaiting)

theorem yield_eq_none_iff {system : System κ} {kernelThread : κ}
    {current : Thread} {onlyReady : Bool} {caller : Caller} :
    yield system kernelThread current onlyReady caller = none ↔
      ∀ queued ∈ system.threadQueue, stopsScan current
        (system.kernel kernelThread).initialThreadId onlyReady queued =
          false := by
  constructor
  · intro stayed queued member
    simpa using List.find?_eq_none.mp (yield_eq_none stayed) queued member
  · intro refused
    refine yield_of_find?_none caller (List.find?_eq_none.mpr ?_)
    intro queued member
    simp [refused queued member]

/-- The `Yield` of `Wait` that finds nothing brings the thread back to its code. -/
theorem AtWait.step_of_none {system : System κ} {label : κ × Action}
    {waiter : Thread} (atWait : AtWait system label waiter)
    (stayed : yield system label.1 waiter true .wait = none) :
    interleavedStep system label = some (system.setCurrent label.1
      (some { waiter with frame := .code })) := by
  have called : yieldCall waiter label.2 = some (true, .wait, .code) := by
    simp [yieldCall, atWait.frame, atWait.proceeds]
  rw [interleavedStep, step_of_yieldCall atWait.isCurrent called, yieldOr, stayed]
  rfl

/-! ## Inside Wait -/

theorem current_other_of_step {system next : System κ} {kernelThread other : κ}
    {action : Action} (stepped : step system kernelThread action = some next)
    (different : other ≠ kernelThread) :
    next.current other = system.current other := by
  cases transition_of_step stepped with
  | initializeKernel _ _ =>
      simp [System.current, initializeKernel, different]
  | spawn _ _ => exact setCurrent_current_other _ _ different
  | wait _ _ => exact setCurrent_current_other _ _ different
  | exit _ _ _ => exact setCurrent_current_other _ _ different
  | leave _ _ _ => exact setCurrent_current_other _ _ different
  | @yielded current _ onlyReady caller failed _ _ =>
      cases yielded : yield system kernelThread current onlyReady caller with
      | none =>
          simp only [yieldOr, yielded, Option.getD_none]
          exact setCurrent_current_other _ _ different
      | some switched =>
          obtain ⟨chosen, _, rfl⟩ := yield_eq_some yielded
          simp only [yieldOr, yielded, Option.getD_some]
          exact setCurrent_current_other _ _ different
  | @returned _ caller _ _ =>
      cases caller <;> exact setCurrent_current_other _ _ different

/-- Being inside `Wait` does not change while a thread is queued. -/
theorem insideWait_resumed (thread : Thread) :
    insideWait (resumed thread).frame = insideWait thread.frame := by
  by_cases new : thread.frame = .startThread
  · simp [resumed, new, insideWait]
  · simp [resumed, new]

variable [Fintype κ]

/-- An initial thread stands inside `Wait`, queued or current. -/
def InWait (system : System κ) (id : Nat) : Prop :=
  ∃ thread ∈ census system, thread.id = id ∧
    thread.isInitialKernelThread = true ∧ insideWait thread.frame = true

omit [DecidableEq κ] in
theorem inWait_of_current {system : System κ} {kernelThread : κ} {thread : Thread}
    (isCurrent : system.current kernelThread = some thread) {id : Nat}
    (named : thread.id = id) (initial : thread.isInitialKernelThread = true)
    (inside : insideWait thread.frame = true) : InWait system id :=
  ⟨thread, mem_census.mpr (Or.inr ⟨kernelThread, isCurrent⟩), named, initial,
    inside⟩

omit [DecidableEq κ] in
theorem inWait_of_queued {system : System κ} {thread : Thread}
    (queued : thread ∈ system.threadQueue) {id : Nat} (named : thread.id = id)
    (initial : thread.isInitialKernelThread = true)
    (inside : insideWait thread.frame = true) : InWait system id :=
  ⟨thread, mem_census.mpr (Or.inl queued), named, initial, inside⟩

omit [DecidableEq κ] in
theorem not_inCode_of_inWait {system : System κ} (sound : Sound system) {id : Nat}
    (inWait : InWait system id) : ¬ InCode system id := by
  rintro ⟨kernelThread, current, isCurrent, sameId, inCode⟩
  obtain ⟨thread, member, named, _, inside⟩ := inWait
  have currentMember : current ∈ census system :=
    mem_census.mpr (Or.inr ⟨kernelThread, isCurrent⟩)
  have same : thread = current := Multiset.inj_on_of_nodup_map
    sound.ledger.distinct thread member current currentMember
    (named.trans sameId.symm)
  rw [same, inCode] at inside
  cases inside

/-- A queued initial thread stays queued as it is, or is switched to. -/
theorem queued_of_step {system next : System κ} (sound : Sound system)
    {kernelThread : κ} {action : Action}
    (stepped : step system kernelThread action = some next) {thread : Thread}
    (queued : thread ∈ system.threadQueue)
    (initial : thread.isInitialKernelThread = true) :
    thread ∈ next.threadQueue ∨
      next.current kernelThread = some (resumed thread) := by
  cases transition_of_step stepped with
  | initializeKernel _ _ => exact Or.inl queued
  | spawn _ _ => exact Or.inl (List.mem_cons_of_mem _ queued)
  | wait _ _ => exact Or.inl queued
  | exit _ _ _ => exact Or.inl queued
  | leave _ _ _ => exact Or.inl queued
  | @yielded current _ onlyReady caller failed _ _ =>
      cases yielded : yield system kernelThread current onlyReady caller with
      | none =>
          simp only [yieldOr, yielded, Option.getD_none]
          exact Or.inl queued
      | some switched =>
          obtain ⟨chosen, found, rfl⟩ := yield_eq_some yielded
          simp only [yieldOr, yielded, Option.getD_some]
          have split := (perm_cons_eraseP_of_find? found).subset queued
          rcases List.mem_cons.mp split with rfl | kept
          · exact Or.inr (setCurrent_current _ _ _)
          · exact Or.inl (List.mem_append.mpr (Or.inl kept))
  | @returned _ caller _ _ =>
      have alive := (sound.queued thread queued).initialAlive initial
      have kept : thread ∈ (garbageCollect system).threadQueue :=
        List.mem_filter.mpr ⟨queued, by simpa using alive⟩
      cases caller <;> exact Or.inl kept

/-- The call of `Yield` that a thread inside `Wait` makes. -/
theorem yieldCall_of_insideWait {current : Thread} {action : Action}
    {onlyReady : Bool} {caller : Caller} {failed : Frame}
    (inside : insideWait current.frame = true)
    (called : yieldCall current action = some (onlyReady, caller, failed)) :
    current.frame = .waitLoop ∧ action = .proceed ∧ onlyReady = true ∧
      caller = .wait := by
  unfold yieldCall at called
  split at called
  case h_5 => cases called
  all_goals
    rename_i frame
    cases called
    simp_all [insideWait]

/-- A thread inside `Wait` stays there in a step, unless its `Yield` finds
nothing. -/
theorem inWait_step {system next : System κ} (sound : Sound system)
    {label : κ × Action} (stepped : interleavedStep system label = some next)
    {id : Nat} (inWait : InWait system id) :
    InWait next id ∨ ∃ waiter, AtWait system label waiter ∧ waiter.id = id ∧
      yield system label.1 waiter true .wait = none := by
  obtain ⟨kernelThread, action⟩ := label
  obtain ⟨thread, member, rfl, initial, inside⟩ := inWait
  rcases mem_census.mp member with queued | ⟨holder, isCurrent⟩
  · rcases queued_of_step sound stepped queued initial with kept | switched
    · exact Or.inl (inWait_of_queued kept rfl initial inside)
    · refine Or.inl (inWait_of_current switched rfl initial ?_)
      rw [insideWait_resumed]
      exact inside
  · by_cases elsewhere : holder ≠ kernelThread
    · rw [← current_other_of_step stepped elsewhere] at isCurrent
      exact Or.inl (inWait_of_current isCurrent rfl initial inside)
    · obtain rfl : holder = kernelThread := not_not.mp elsewhere
      have notInCode : thread.frame ≠ .code := by
        intro inCode
        simp [inCode, insideWait] at inside
      cases transition_of_step stepped with
      | initializeKernel idle _ => simp [isCurrent] at idle
      | spawn isSpawner inCode =>
          cases Option.some.inj (isCurrent.symm.trans isSpawner)
          exact absurd inCode notInCode
      | wait isWaiter inCode =>
          cases Option.some.inj (isCurrent.symm.trans isWaiter)
          exact absurd inCode notInCode
      | exit isEnded inCode _ =>
          cases Option.some.inj (isCurrent.symm.trans isEnded)
          exact absurd inCode notInCode
      | leave isLeaver inCode _ =>
          cases Option.some.inj (isCurrent.symm.trans isLeaver)
          exact absurd inCode notInCode
      | yielded isYielder called =>
          cases Option.some.inj (isCurrent.symm.trans isYielder)
          obtain ⟨frame, proceeds, rfl, rfl⟩ :=
            yieldCall_of_insideWait inside called
          cases yielded : yield system holder thread true .wait with
          | none => exact Or.inr ⟨thread, ⟨isCurrent, initial, frame, proceeds⟩,
              rfl, yielded⟩
          | some switched =>
              obtain ⟨chosen, _, rfl⟩ := yield_eq_some yielded
              simp only [yieldOr, yielded, Option.getD_some]
              have last : enqueued thread .wait ∈ system.threadQueue.eraseP
                  (stopsScan thread (system.kernel holder).initialThreadId
                    true) ++ [enqueued thread .wait] := by simp
              exact Or.inl ⟨enqueued thread .wait, mem_census.mpr (Or.inl last),
                rfl, initial, rfl⟩
      | returned isSwitched frame =>
          cases Option.some.inj (isCurrent.symm.trans isSwitched)
          rename_i caller
          cases caller with
          | wait =>
              have isNext : (returnFromSwitch system holder thread .wait).current
                  holder = some { thread with
                    state := .kWaiting, frame := .waitLoop } :=
                setCurrent_current _ _ _
              exact Or.inl (inWait_of_current isNext rfl initial rfl)
          | code => simp [frame, insideWait] at inside
          | spawn => simp [frame, insideWait] at inside
          | threadEntry => simp [frame, insideWait] at inside

omit [Fintype κ] in
/-- A queued initial thread was queued before the step, or the step has put it
there out of a `Yield`. -/
theorem queued_before {system next : System κ} {kernelThread : κ}
    {action : Action} (stepped : step system kernelThread action = some next)
    {thread : Thread} (queued : thread ∈ next.threadQueue)
    (initial : thread.isInitialKernelThread = true) :
    thread ∈ system.threadQueue ∨ ∃ current caller,
      system.current kernelThread = some current ∧
      thread = enqueued current caller ∧
      insideWait thread.frame = insideWait current.frame := by
  cases transition_of_step stepped with
  | initializeKernel _ _ => exact Or.inl queued
  | spawn _ _ =>
      rcases List.mem_cons.mp queued with rfl | old
      · cases initial
      · exact Or.inl old
  | wait _ _ => exact Or.inl queued
  | exit _ _ _ => exact Or.inl queued
  | leave _ _ _ => exact Or.inl queued
  | @yielded current _ onlyReady caller failed isYielder called =>
      cases yielded : yield system kernelThread current onlyReady caller with
      | none =>
          simp only [yieldOr, yielded, Option.getD_none] at queued
          exact Or.inl queued
      | some switched =>
          obtain ⟨chosen, _, rfl⟩ := yield_eq_some yielded
          simp only [yieldOr, yielded, Option.getD_some] at queued
          rcases List.mem_append.mp queued with old | last
          · exact Or.inl (List.mem_of_mem_eraseP old)
          · obtain rfl := List.mem_singleton.mp last
            exact Or.inr ⟨current, caller, isYielder, rfl,
              yieldCall_insideWait called⟩
  | @returned _ caller _ _ =>
      refine Or.inl ?_
      cases caller <;> exact List.mem_of_mem_filter queued

/-- The thread that a step leaves current inside `Wait` was inside before, or has
just called it. -/
theorem current_before {system next : System κ} {kernelThread : κ}
    {action : Action} (stepped : step system kernelThread action = some next)
    {thread : Thread} (isCurrent : next.current kernelThread = some thread)
    (initial : thread.isInitialKernelThread = true)
    (inside : insideWait thread.frame = true) :
    InWait system thread.id ∨ ∃ waiter,
      system.current kernelThread = some waiter ∧ waiter.id = thread.id ∧
      waiter.isInitialKernelThread = true ∧ waiter.frame = .code ∧
      action = .wait := by
  cases transition_of_step stepped with
  | initializeKernel _ _ =>
      simp only [System.current, initializeKernel, Function.update_self,
        Option.some.injEq] at isCurrent
      rw [← isCurrent] at inside
      cases inside
  | spawn _ _ =>
      simp only [spawnInsert, setCurrent_current, Option.some.injEq]
        at isCurrent
      rw [← isCurrent] at inside
      cases inside
  | @wait waiter isWaiter inCode =>
      simp only [setCurrent_current, Option.some.injEq] at isCurrent
      rw [← isCurrent] at initial ⊢
      exact Or.inr ⟨waiter, isWaiter, rfl, initial, inCode, rfl⟩
  | exit _ _ _ =>
      simp only [setCurrent_current, Option.some.injEq] at isCurrent
      rw [← isCurrent] at inside
      cases inside
  | leave _ _ _ =>
      rw [setCurrent_current] at isCurrent
      cases isCurrent
  | @yielded current _ onlyReady caller failed isYielder called =>
      cases yielded : yield system kernelThread current onlyReady caller with
      | none =>
          simp only [yieldOr, yielded, Option.getD_none, setCurrent_current,
            Option.some.injEq] at isCurrent
          rw [← isCurrent] at inside
          have outside : insideWait failed = false := by
            unfold yieldCall at called
            split at called <;> cases called <;> rfl
          exact absurd (inside.symm.trans outside) (by decide)
      | some switched =>
          obtain ⟨chosen, found, rfl⟩ := yield_eq_some yielded
          simp only [yieldOr, yielded, Option.getD_some, setCurrent_current,
            Option.some.injEq] at isCurrent
          rw [← isCurrent] at inside initial ⊢
          rw [insideWait_resumed] at inside
          exact Or.inl (inWait_of_queued (List.mem_of_find?_eq_some found) rfl
            initial inside)
  | @returned current caller isSwitched frame =>
      cases caller with
      | wait =>
          simp only [returnFromSwitch, setCurrent_current, Option.some.injEq]
            at isCurrent
          rw [← isCurrent] at initial ⊢
          refine Or.inl (inWait_of_current isSwitched rfl initial ?_)
          rw [frame]
          rfl
      | code | spawn | threadEntry =>
          simp only [returnFromSwitch, setCurrent_current, Option.some.injEq]
            at isCurrent
          rw [← isCurrent] at inside
          cases inside

/-- A thread inside `Wait` has been there before the step, or the step is its
call. -/
theorem inWait_before {system next : System κ} {label : κ × Action}
    (stepped : interleavedStep system label = some next) {id : Nat}
    (inWait : InWait next id) :
    InWait system id ∨ ∃ waiter, system.current label.1 = some waiter ∧
      waiter.id = id ∧ waiter.isInitialKernelThread = true ∧
      waiter.frame = .code ∧ label.2 = .wait := by
  obtain ⟨thread, member, rfl, initial, inside⟩ := inWait
  rcases mem_census.mp member with queued | ⟨holder, isCurrent⟩
  · rcases queued_before stepped queued initial with
      old | ⟨current, caller, isYielder, rfl, sameSide⟩
    · exact Or.inl (inWait_of_queued old rfl initial inside)
    · rw [sameSide] at inside
      exact Or.inl (inWait_of_current isYielder rfl initial inside)
  · by_cases elsewhere : holder ≠ label.1
    · rw [current_other_of_step stepped elsewhere] at isCurrent
      exact Or.inl (inWait_of_current isCurrent rfl initial inside)
    · rw [not_not.mp elsewhere] at isCurrent
      exact current_before stepped isCurrent initial inside

/-- A thread is inside `Wait` only between a call and the return. -/
theorem exists_call_of_inWait {labels : List (κ × Action)} {system : System κ}
    {id : Nat} (run : runLabels interleavedStep boot labels = some system)
    (inWait : InWait system id) :
    ∃ earlier kernelThread during before waiter called,
      labels = earlier ++ (kernelThread, .wait) :: during ∧
      runLabels interleavedStep boot earlier = some before ∧
      before.current kernelThread = some waiter ∧ waiter.id = id ∧
      waiter.isInitialKernelThread = true ∧ waiter.frame = .code ∧
      interleavedStep before (kernelThread, .wait) = some called ∧
      runLabels interleavedStep called during = some system ∧
      Everywhere interleavedStep (fun state => ¬ InCode state id) called
        during := by
  induction labels using List.reverseRecOn generalizing system with
  | nil =>
      cases Option.some.inj run
      obtain ⟨thread, member, _⟩ := inWait
      rcases mem_census.mp member with queued | ⟨kernelThread, isCurrent⟩
      · cases queued
      · cases isCurrent
  | append_singleton labels label inductionHypothesis =>
      have outside : ¬ InCode system id :=
        not_inCode_of_inWait (run_sound run) inWait
      obtain ⟨middle, runMiddle, stepped⟩ := runLabels_concat_eq_some.mp run
      rcases inWait_before stepped inWait with
        before | ⟨waiter, isCurrent, named, initial, inCode, calls⟩
      · obtain ⟨earlier, kernelThread, during, start, waiter, called, rfl,
          runEarlier, isCurrent, named, initial, inCode, calls, runDuring,
          everywhere⟩ := inductionHypothesis runMiddle before
        have runBehind : runLabels interleavedStep called (during ++ [label]) =
            some system := runLabels_concat_eq_some.mpr ⟨middle, runDuring, stepped⟩
        exact ⟨earlier, kernelThread, during ++ [label], start, waiter, called,
          by simp, runEarlier, isCurrent, named, initial, inCode, calls,
          runBehind, everywhere.concat runBehind outside⟩
      · obtain ⟨kernelThread, action⟩ := label
        obtain rfl : action = .wait := calls
        exact ⟨labels, kernelThread, [], middle, waiter, system, rfl, runMiddle,
          isCurrent, named, initial, inCode, stepped, rfl, outside⟩

/-! ## What Wait finds -/

omit [DecidableEq κ] in
/-- A spawned thread that a failing scan has passed over is a zombie or
waiting. -/
theorem zombie_or_waiting_of_refused {system : System κ} (sound : Sound system)
    {waiter queued : Thread} {initialThreadId : Nat}
    (member : queued ∈ system.threadQueue)
    (notInitial : queued.isInitialKernelThread = false)
    (refused : stopsScan waiter initialThreadId true queued = false) :
    queued.state = .kZombie ∨ queued.state = .kWaiting := by
  have notRunning := (sound.queued queued member).notRunning
  have notReady : queued.state ≠ .kReady := by
    intro ready
    simp [stopsScan, eligible, ready, notInitial] at refused
  cases state : queued.state <;> simp_all

omit [DecidableEq κ] in
/-- A thread is done as soon as all its occurrences are zombies. -/
theorem done_of_zombies {system : System κ} (sound : Sound system)
    {pair : Nat × Nat} (spawned : pair ∈ system.spawned)
    (zombies : ∀ thread ∈ census system, thread.id = pair.2 →
      thread.state = .kZombie) : Done system pair.2 := by
  refine ⟨?_, zombies⟩
  by_contra open_
  obtain ⟨thread, member, named⟩ :=
    sound.ledger.conserved pair spawned open_
  have ended := (sound.ledger.zombies thread member).mp
    (zombies thread member named)
  exact open_ (named ▸ ended)

/-- The return itself changes nothing for any thread. -/
theorem done_back_iff {system : System κ} {kernelThread : κ} {waiter : Thread}
    (isCurrent : system.current kernelThread = some waiter) (id : Nat) :
    Done (system.setCurrent kernelThread
      (some { waiter with frame := .code })) id ↔ Done system id := by
  refine and_congr_right fun _ => ?_
  rw [census_setCurrent, census_of_current isCurrent]
  simp only [held, Multiset.singleton_add, Multiset.forall_mem_cons]

theorem NoneOut.done {system : System κ} (sound : Sound system)
    {label : κ × Action} (noneOut : NoneOut system label) {waiter : Thread}
    (atWait : AtWait system label waiter)
    (stayed : yield system label.1 waiter true .wait = none) :
    ∀ pair ∈ system.spawned, pair.1 = waiter.id → Done system pair.2 := by
  intro pair spawned byWaiter
  have refused := yield_eq_none_iff.mp stayed
  obtain ⟨notRun, notWaiting⟩ := noneOut waiter atWait refused pair spawned byWaiter
  refine done_of_zombies sound spawned ?_
  intro thread member named
  have notInitial := sound.ledger.spawnedKind pair spawned thread member named
  rcases mem_census.mp member with queued | ⟨kernelThread, isCurrent⟩
  · have state := zombie_or_waiting_of_refused sound queued notInitial
      (refused thread queued)
    exact state.resolve_right (notWaiting thread queued named)
  · refine notRun kernelThread thread ?_ isCurrent named
    -- the waiter itself is an initial thread
    rintro rfl
    rw [atWait.isCurrent] at isCurrent
    cases isCurrent
    exact absurd (atWait.initial.symm.trans notInitial) (by decide)

/-- From inside `Wait`, the first state in the caller's own code is behind a
`Yield` that has found nothing. -/
theorem done_of_noneOut {called after : System κ} {during : List (κ × Action)}
    {id : Nat} (sound : Sound called) (inWait : InWait called id)
    (back : RunsUntil interleavedStep (InCode · id) called during after)
    (every : EveryStep interleavedStep NoneOut called during) :
    ∀ pair ∈ after.spawned, pair.1 = id → Done after pair.2 := by
  induction back with
  | here inCode => exact absurd inCode (not_inCode_of_inWait sound inWait)
  | later _ stepped rest inductionHypothesis =>
      rcases inWait_step sound stepped inWait with
        inNext | ⟨waiter, atWait, rfl, stayed⟩
      · exact inductionHypothesis (step_sound sound stepped) inNext
          (every.2 _ stepped)
      · have done := every.1.done sound atWait stayed
        rw [atWait.step_of_none stayed] at stepped
        cases stepped
        cases rest with
        | here _ =>
            intro pair spawned byWaiter
            rw [done_back_iff atWait.isCurrent]
            exact done pair spawned byWaiter
        | later notInCode _ _ =>
            exact absurd ⟨_, _, setCurrent_current _ _ _, rfl, rfl⟩ notInCode

/-- In every interleaving, whenever a call of `Wait` comes back all threads of
its caller are done, if and only if each failing `Yield` of `Wait` meets the
condition. -/
theorem wait_keeps_promise_iff (labels : List (κ × Action)) :
    WaitKeepsPromise labels ↔
      EveryStep interleavedStep NoneOut (boot : System κ) labels := by
  rw [everyStep_iff_forall]
  constructor
  · intro promise earlier label later system split run waiter atWait refused pair
      spawned byWaiter
    have stayed : yield system label.1 waiter true .wait = none :=
      yield_eq_none_iff.mpr refused
    have inWait : InWait system waiter.id := by
      refine inWait_of_current atWait.isCurrent rfl atWait.initial ?_
      rw [atWait.frame]
      rfl
    obtain ⟨first, kernelThread, during, before, caller, called, rfl, runFirst,
      isCaller, sameId, initial, inCode, calls, runDuring, outside⟩ :=
      exists_call_of_inWait run inWait
    have stepped := atWait.step_of_none stayed
    have back : RunsUntil interleavedStep (InCode · caller.id) called
        (during ++ [label]) (system.setCurrent label.1
          (some { waiter with frame := .code })) := by
      rw [sameId]
      exact .concat outside runDuring stepped
        ⟨_, _, setCurrent_current _ _ _, rfl, rfl⟩
    have done := promise first kernelThread (during ++ [label]) later before
      caller _ (by rw [split]; simp) runFirst
      ⟨isCaller, inCode, initial, called, calls, back⟩ pair spawned
      (byWaiter.trans sameId.symm)
    rw [done_back_iff atWait.isCurrent] at done
    constructor
    · intro other running _ isCurrent named
      exact done.2 running (mem_census.mpr (Or.inr ⟨other, isCurrent⟩)) named
    · intro queued member named waiting
      have zombie := done.2 queued (mem_census.mpr (Or.inl member)) named
      simp [waiting] at zombie
  · intro every earlier kernelThread during later before waiter after split run
      returns
    obtain ⟨called, calls, back⟩ := returns.returns
    have isCalled : before.setCurrent kernelThread (some
        { waiter with state := .kWaiting, frame := .waitLoop }) = called := by
      simpa [interleavedStep, step, returns.isCurrent, returns.inCode, codeStep]
        using calls
    have inWait : InWait called waiter.id := by
      rw [← isCalled]
      exact inWait_of_current (setCurrent_current _ _ _) rfl returns.initial rfl
    refine done_of_noneOut (step_sound (run_sound run) calls) inWait back ?_
    rw [everyStep_iff_forall]
    intro first label rest state splitDuring runDuring
    refine every (earlier ++ (kernelThread, .wait) :: first) label (rest ++ later)
      state (by rw [split, splitDuring]; simp) ?_
    exact runLabels_append_eq_some.mpr ⟨before, run,
      (runLabels_cons_eq_some _ _ _ _ _).mpr ⟨called, calls, runDuring⟩⟩

/-- The green thread of the first kernel thread is taken by the `Wait` of the
second one, so that the `Wait` of the first finds an empty queue. -/
def stolenRun : List (Bool × Action) :=
  [(false, .initializeKernel), (true, .initializeKernel),
    (false, .spawn), (true, .wait), (true, .proceed), (false, .proceed), (false, .wait),
    (false, .proceed)]

theorem stolenRun_wait_returns_early :
    (∃ before after waiter, runLabels interleavedStep (boot : System Bool)
        (stolenRun.take 6) = some before ∧
      WaitReturns before false waiter [(false, .proceed)] after ∧
      (waiter.id, 2) ∈ after.spawned ∧ ¬ Done after 2) ∧
    ¬ WaitKeepsPromise stolenRun := by
  have early : ∃ before after waiter,
      runLabels interleavedStep (boot : System Bool) (stolenRun.take 6) =
        some before ∧
      WaitReturns before false waiter [(false, .proceed)] after ∧
      (waiter.id, 2) ∈ after.spawned ∧ ¬ Done after 2 := by
    refine ⟨_, _, ⟨0, .kWaiting, true, .code⟩, rfl,
      ⟨rfl, rfl, rfl, _, rfl, .later ?_ rfl (.here ?_)⟩, ?_, ?_⟩
    · rintro ⟨kernelThread, current, isCurrent, named, inCode⟩
      cases kernelThread <;> cases isCurrent
      · cases inCode
      · cases named
    · exact ⟨false, _, rfl, rfl, rfl⟩
    · decide
    · intro done
      exact absurd done.1 (by decide)
  refine ⟨early, ?_⟩
  intro promise
  obtain ⟨before, after, waiter, run, returns, spawned, notDone⟩ := early
  exact notDone (promise (stolenRun.take 6) false [(false, .proceed)] [] before
    waiter after rfl run returns _ spawned rfl)

end ChlorosSnfs.Chloros.WaitGuarantee
