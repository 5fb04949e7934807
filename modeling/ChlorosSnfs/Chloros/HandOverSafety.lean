import ChlorosSnfs.Chloros.HandOver
import ChlorosSnfs.Library.FirstMatch

/-!
# When the hand-over inside Yield is safe

A thread that `Yield` has put into `thread_queue` can be taken out or destroyed
by another kernel thread before `ContextSwitch` has stored its registers.  A run
is free of that, and of everything that follows from it, exactly when no scan
stops at such a thread first and no collection finds one among the zombies.
-/

set_option autoImplicit false

namespace ChlorosSnfs.Chloros.HandOverSafety

open ChlorosSnfs.Chloros.Scheduler (ThreadState Caller Frame Action)
open ChlorosSnfs.Chloros.SingleKernel (perm_cons_eraseP_of_find?)
open ChlorosSnfs.Chloros.HandOver
open ChlorosSnfs.Library.FirstMatch
open ChlorosSnfs.Library.Runs

variable {κ : Type} [DecidableEq κ]

/-- The condition on the state in which a step is taken: a scan reaches a saved
thread before any unsaved one, and `GarbageCollect` finds no unsaved zombie. -/
structure HandOverGuard (system : System κ) (label : κ × Action) : Prop where
  scan : ∀ current onlyReady caller failed,
    system.current label.1 = some current →
    yieldCall (system.execution label.1) label.2 =
      some (onlyReady, caller, failed) →
      Covered (stopsScan current (system.kernel label.1).initialThreadId
        onlyReady) (fun thread => Unsaved system thread.id) system.threadQueue
  collect : ∀ current caller, system.current label.1 = some current →
    system.execution label.1 = .running (.contextSwitch caller) →
    label.2 = .proceed →
      ∀ thread ∈ system.threadQueue, thread.state = .kZombie →
        ¬ Unsaved system thread.id

variable {system next : System κ} {kernelThread : κ} {current : Thread}

omit [DecidableEq κ] in
/-- A stack in use belongs to a current thread or to one not yet saved. -/
theorem stackHeld_of_unsavedQueued
    (unsavedQueued : ∀ id, Unsaved system id →
      ∃ thread ∈ system.threadQueue, thread.id = id)
    (other : κ) (id : Nat) (stack : system.stack other = some id) :
    (∃ thread ∈ system.threadQueue, thread.id = id) ∨
      ∃ thread, system.current other = some thread ∧ thread.id = id := by
  cases execution : system.execution other with
  | running frame =>
      simp only [System.stack, execution, Option.map_eq_some_iff] at stack
      exact Or.inr stack
  | switching previous caller =>
      simp only [System.stack, execution, Option.some.injEq] at stack
      subst stack
      exact Or.inl (unsavedQueued previous ⟨other, caller, execution⟩)

/-! ## Steps that hand nothing over -/

/-- A step of a kernel thread that executes its current thread before and
after: the thread stays, goes or is new, the queue loses no unsaved thread and
gains at most a new one. -/
structure Quiet (system next : System κ) (kernelThread : κ) : Prop where
  wasRunning : ∃ frame, system.execution kernelThread = .running frame
  isRunning : ∃ frame, next.execution kernelThread = .running frame
  sameThread : ∀ thread, next.current kernelThread = some thread →
    (∃ old, system.current kernelThread = some old ∧ old.id = thread.id) ∨
      thread.id = system.nextId
  othersCurrent : ∀ other, other ≠ kernelThread →
    next.current other = system.current other
  othersExecution : ∀ other, other ≠ kernelThread →
    next.execution other = system.execution other
  sameStops : ∀ id < system.nextId, next.stops id = system.stops id
  queued : ∀ thread ∈ next.threadQueue, thread ∈ system.threadQueue ∨
    (thread.id = system.nextId ∧
      thread.context = some (next.stops thread.id))
  kept : ∀ thread ∈ system.threadQueue, Unsaved system thread.id →
    thread ∈ next.threadQueue

omit [DecidableEq κ] in
theorem Quiet.unsaved_iff (quiet : Quiet system next kernelThread) (id : Nat) :
    Unsaved next id ↔ Unsaved system id := by
  constructor
  · rintro ⟨other, caller, switches⟩
    have different : other ≠ kernelThread := by
      rintro rfl
      obtain ⟨frame, runs⟩ := quiet.isRunning
      rw [runs] at switches
      cases switches
    exact ⟨other, caller, (quiet.othersExecution other different) ▸ switches⟩
  · rintro ⟨other, caller, switches⟩
    have different : other ≠ kernelThread := by
      rintro rfl
      obtain ⟨frame, runs⟩ := quiet.wasRunning
      rw [runs] at switches
      cases switches
    exact ⟨other, caller, (quiet.othersExecution other different).trans switches⟩

omit [DecidableEq κ] in
/-- Another kernel thread awaiting a switch is one of those left alone. -/
theorem Quiet.switching_before (quiet : Quiet system next kernelThread)
    {other : κ} {previous : Nat} {caller : Caller}
    (switches : next.execution other = .switching previous caller) :
    other ≠ kernelThread ∧
      system.execution other = .switching previous caller := by
  have different : other ≠ kernelThread := by
    rintro rfl
    obtain ⟨frame, runs⟩ := quiet.isRunning
    rw [runs] at switches
    cases switches
  exact ⟨different, (quiet.othersExecution other different).symm.trans switches⟩

variable [Fintype κ]

omit [DecidableEq κ] in
theorem Coherent.stack_bounded (safe : HandOverSafe system)
    (coherent : Coherent system) {other : κ} {id : Nat}
    (stack : system.stack other = some id) : id < system.nextId := by
  rcases safe.stackHeld other id stack with ⟨thread, member, rfl⟩ |
    ⟨thread, isCurrent, rfl⟩
  · exact coherent.queued_bounded member
  · exact coherent.current_bounded isCurrent

omit [Fintype κ] in
theorem Quiet.stack_before (quiet : Quiet system next kernelThread) {other : κ}
    {id : Nat} (stack : next.stack other = some id) :
    system.stack other = some id ∨
      (other = kernelThread ∧ id = system.nextId) := by
  by_cases same : other = kernelThread
  · subst same
    obtain ⟨frame, runs⟩ := quiet.isRunning
    obtain ⟨oldFrame, ran⟩ := quiet.wasRunning
    simp only [System.stack, runs, ran, Option.map_eq_some_iff] at stack ⊢
    obtain ⟨thread, isCurrent, rfl⟩ := stack
    rcases quiet.sameThread thread isCurrent with old | new
    · exact Or.inl old
    · exact Or.inr ⟨trivial, new⟩
  · have sameStack : next.stack other = system.stack other := by
      simp only [System.stack, quiet.othersExecution other same,
        quiet.othersCurrent other same]
    exact Or.inl (sameStack ▸ stack)

theorem Quiet.safe (quiet : Quiet system next kernelThread)
    (safe : HandOverSafe system) (coherent : Coherent system) :
    HandOverSafe next := by
  have unsavedQueued : ∀ id, Unsaved next id →
      ∃ thread ∈ next.threadQueue, thread.id = id := by
    intro id unsaved
    have before := (quiet.unsaved_iff id).mp unsaved
    obtain ⟨thread, member, rfl⟩ := safe.unsavedQueued id before
    exact ⟨thread, quiet.kept thread member before, rfl⟩
  constructor
  · exact unsavedQueued
  · intro first second id firstStack secondStack
    rcases quiet.stack_before firstStack with old | ⟨rfl, new⟩
    · rcases quiet.stack_before secondStack with alsoOld | ⟨rfl, new⟩
      · exact safe.oneStack first second id old alsoOld
      · have bound := Coherent.stack_bounded safe coherent old
        omega
    · rcases quiet.stack_before secondStack with old | ⟨rfl, _⟩
      · have bound := Coherent.stack_bounded safe coherent old
        omega
      · rfl
  · exact stackHeld_of_unsavedQueued unsavedQueued
  · intro other previous caller thread switches isCurrent
    obtain ⟨different, before⟩ := quiet.switching_before switches
    rw [quiet.othersCurrent other different] at isCurrent
    rw [quiet.sameStops thread.id (coherent.current_bounded isCurrent)]
    exact safe.resumesFresh other previous caller thread before isCurrent

omit [DecidableEq κ] in
theorem Quiet.coherent (quiet : Quiet system next kernelThread)
    (safe : HandOverSafe system) (coherent : Coherent system)
    (sound : KernelThreads.Sound (settled next)) : Coherent next := by
  constructor
  · exact sound
  · intro thread member saved
    rcases quiet.queued thread member with old | ⟨_, context⟩
    · rw [quiet.sameStops thread.id (coherent.queued_bounded old)]
      exact coherent.savedContext thread old
        fun unsaved => saved ((quiet.unsaved_iff thread.id).mpr unsaved)
    · exact context
  · intro other previous caller switches
    obtain ⟨_, before⟩ := quiet.switching_before switches
    obtain ⟨thread, member, rfl⟩ :=
      safe.unsavedQueued previous ⟨other, caller, before⟩
    rw [quiet.sameStops thread.id (coherent.queued_bounded member)]
    exact coherent.unsavedStop other thread.id caller before
  · intro other previous caller switches
    obtain ⟨different, before⟩ := quiet.switching_before switches
    rw [quiet.othersCurrent other different]
    exact coherent.switchingCurrent other previous caller before

omit [Fintype κ] in
/-- The step puts a thread back on its kernel thread, or takes it away. -/
theorem quiet_place {changed : System κ} {slot : Option Thread}
    {frame after : Frame}
    (runs : system.execution kernelThread = .running frame)
    (sameKernel : changed.kernel = system.kernel)
    (sameThread : ∀ thread, slot = some thread →
      ∃ old, system.current kernelThread = some old ∧ old.id = thread.id)
    (sameStops : ∀ id < system.nextId, changed.stops id = system.stops id)
    (queued : ∀ thread ∈ changed.threadQueue, thread ∈ system.threadQueue ∨
      (thread.id = system.nextId ∧
        thread.context = some (changed.stops thread.id)))
    (kept : ∀ thread ∈ system.threadQueue, Unsaved system thread.id →
      thread ∈ changed.threadQueue) :
    Quiet system (changed.place kernelThread slot (.running after))
      kernelThread := by
  constructor
  · exact ⟨frame, runs⟩
  · exact ⟨after, place_execution _ _ _ _⟩
  · intro thread isCurrent
    rw [place_current] at isCurrent
    exact Or.inl (sameThread thread isCurrent)
  · intro other different
    rw [place_current_other _ _ _ different]
    simp only [System.current, sameKernel]
  · intro other different
    rw [place_execution_other _ _ _ different]
    simp only [System.execution, sameKernel]
  · exact sameStops
  · exact queued
  · exact kept

theorem quiet_initializeKernel (coherent : Coherent system)
    (idle : system.current kernelThread = none) :
    Quiet system (initializeKernel system kernelThread) kernelThread := by
  have runs : ∃ frame, system.execution kernelThread = .running frame := by
    cases execution : system.execution kernelThread with
    | running frame => exact ⟨frame, rfl⟩
    | switching previous caller =>
        obtain ⟨thread, isCurrent⟩ := coherent.switchingCurrent _ _ _ execution
        rw [idle] at isCurrent
        cases isCurrent
  constructor
  · exact runs
  · exact ⟨.code, by simp [System.execution, initializeKernel]⟩
  · intro thread isCurrent
    simp only [System.current, initializeKernel, Function.update_self,
      Option.some.injEq] at isCurrent
    exact Or.inr (by rw [← isCurrent])
  · intro other different
    simp [System.current, initializeKernel, different]
  · intro other different
    simp [System.execution, initializeKernel, different]
  · exact fun _ _ => rfl
  · exact fun thread member => Or.inl member
  · exact fun thread member _ => member

omit [Fintype κ] in
theorem quiet_spawnInsert
    (isCurrent : system.current kernelThread = some current)
    (inCode : system.execution kernelThread = .running .code) :
    Quiet system (spawnInsert system kernelThread current) kernelThread := by
  refine quiet_place inCode rfl ?_ ?_ ?_ ?_
  · intro thread placed
    cases placed
    exact ⟨current, isCurrent, rfl⟩
  · intro id bound
    exact Function.update_of_ne (Nat.ne_of_lt bound) _ _
  · intro thread member
    rcases List.mem_cons.mp member with rfl | old
    · exact Or.inr ⟨rfl, by simp⟩
    · exact Or.inl old
  · exact fun thread member _ => List.mem_cons_of_mem _ member

omit [Fintype κ] in
/-- The step changes only the current thread, in place. -/
theorem quiet_place_same {changed : System κ} {replaced : Thread}
    {frame after : Frame}
    (isCurrent : system.current kernelThread = some current)
    (runs : system.execution kernelThread = .running frame)
    (sameId : replaced.id = current.id)
    (sameKernel : changed.kernel = system.kernel)
    (sameStops : changed.stops = system.stops)
    (sameQueue : changed.threadQueue = system.threadQueue) :
    Quiet system (changed.place kernelThread (some replaced) (.running after))
      kernelThread := by
  refine quiet_place runs sameKernel ?_ ?_ ?_ ?_
  · intro thread placed
    cases placed
    exact ⟨current, isCurrent, sameId.symm⟩
  · intro id _
    rw [sameStops]
  · rw [sameQueue]
    exact fun thread member => Or.inl member
  · rw [sameQueue]
    exact fun thread member _ => member

omit [Fintype κ] in
theorem quiet_leave (inCode : system.execution kernelThread = .running .code) :
    Quiet system (system.place kernelThread none (.running .code))
      kernelThread :=
  quiet_place inCode rfl (fun _ absent => by cases absent) (fun _ _ => rfl)
    (fun _ member => Or.inl member) (fun _ member _ => member)

omit [Fintype κ] in
/-- Collecting saved zombies only. -/
theorem quiet_returnFromSwitch {caller : Caller}
    (isCurrent : system.current kernelThread = some current)
    (frame : system.execution kernelThread = .running (.contextSwitch caller))
    (savedZombies : ∀ thread ∈ system.threadQueue, thread.state = .kZombie →
      ¬ Unsaved system thread.id) :
    Quiet system (returnFromSwitch system kernelThread current caller)
      kernelThread := by
  have collected : ∀ (replaced : Thread) (after : Frame),
      replaced.id = current.id →
        Quiet system ((garbageCollect system).place kernelThread (some replaced)
          (.running after)) kernelThread := by
    intro replaced after sameId
    refine quiet_place frame rfl ?_ (fun _ _ => rfl) ?_ ?_
    · intro thread placed
      cases placed
      exact ⟨current, isCurrent, sameId.symm⟩
    · exact fun thread member => Or.inl (List.mem_filter.mp member).1
    · intro thread member unsaved
      refine List.mem_filter.mpr ⟨member, ?_⟩
      simpa using fun zombie => savedZombies thread member zombie unsaved
  cases caller <;> exact collected _ _ rfl

/-- Collecting an unsaved zombie breaks the rule. -/
theorem savedZombies_of_safe {caller : Caller} (coherent : Coherent system)
    (frame : system.execution kernelThread = .running (.contextSwitch caller))
    (safe : HandOverSafe (returnFromSwitch system kernelThread current caller)) :
    ∀ thread ∈ system.threadQueue, thread.state = .kZombie →
      ¬ Unsaved system thread.id := by
  rintro thread member zombie ⟨other, otherCaller, switches⟩
  have different : other ≠ kernelThread := by
    rintro rfl
    rw [frame] at switches
    cases switches
  have queue_eq : (returnFromSwitch system kernelThread current
      caller).threadQueue = (garbageCollect system).threadQueue := by
    cases caller <;> rfl
  have stillSwitching : (returnFromSwitch system kernelThread current
      caller).execution other = .switching thread.id otherCaller := by
    cases caller <;> exact (place_execution_other _ _ _ different).trans switches
  obtain ⟨found, foundMember, named⟩ :=
    safe.unsavedQueued thread.id ⟨other, otherCaller, stillSwitching⟩
  rw [queue_eq] at foundMember
  obtain ⟨foundQueued, alive⟩ := List.mem_filter.mp foundMember
  have same : found = thread :=
    List.inj_on_of_nodup_map coherent.queue_distinct foundQueued member named
  simp [same, zombie] at alive

/-! ## The locked section of Yield -/

/-- The system behind a locked section that switches to `chosen`. -/
structure Locked (system next : System κ) (kernelThread : κ)
    (current chosen : Thread) (caller : Caller) (remaining : List Thread) :
    Prop where
  isCurrent : system.current kernelThread = some current
  wasRunning : ∃ frame, system.execution kernelThread = .running frame
  split : system.threadQueue.Perm (chosen :: remaining)
  queue_eq : next.threadQueue = remaining ++ [requeued current]
  current_eq : next.current kernelThread =
    some { chosen with state := .kRunning }
  execution_eq : next.execution kernelThread = .switching current.id caller
  othersCurrent : ∀ other, other ≠ kernelThread →
    next.current other = system.current other
  othersExecution : ∀ other, other ≠ kernelThread →
    next.execution other = system.execution other
  stops_eq : next.stops =
    Function.update system.stops current.id (.contextSwitch caller)

omit [Fintype κ] in
theorem locked_of_yieldLocked {frame : Frame} {onlyReady : Bool}
    {caller : Caller} (isCurrent : system.current kernelThread = some current)
    (runs : system.execution kernelThread = .running frame)
    (switched : yieldLocked system kernelThread current onlyReady caller =
      some next) :
    ∃ chosen remaining,
      system.threadQueue.find? (stopsScan current
        (system.kernel kernelThread).initialThreadId onlyReady) = some chosen ∧
      Locked system next kernelThread current chosen caller remaining := by
  obtain ⟨chosen, found, rfl⟩ := yieldLocked_eq_some switched
  refine ⟨chosen, system.threadQueue.eraseP (stopsScan current
    (system.kernel kernelThread).initialThreadId onlyReady), found, ?_⟩
  exact {
    isCurrent := isCurrent
    wasRunning := ⟨frame, runs⟩
    split := perm_cons_eraseP_of_find? found
    queue_eq := rfl
    current_eq := place_current _ _ _ _
    execution_eq := place_execution _ _ _ _
    othersCurrent := fun _ different => place_current_other _ _ _ different
    othersExecution := fun _ different => place_execution_other _ _ _ different
    stops_eq := rfl }

namespace Locked

variable {chosen : Thread} {caller : Caller} {remaining : List Thread}

omit [DecidableEq κ] [Fintype κ] in
theorem remaining_queued
    (locked : Locked system next kernelThread current chosen caller remaining) :
    ∀ thread ∈ remaining, thread ∈ system.threadQueue :=
  fun _ member => locked.split.mem_iff.mpr (List.mem_cons_of_mem _ member)

omit [DecidableEq κ] [Fintype κ] in
theorem chosen_queued
    (locked : Locked system next kernelThread current chosen caller remaining) :
    chosen ∈ system.threadQueue :=
  locked.split.mem_iff.mpr List.mem_cons_self

omit [Fintype κ] in
theorem unsaved_iff
    (locked : Locked system next kernelThread current chosen caller remaining)
    (id : Nat) : Unsaved next id ↔ id = current.id ∨ Unsaved system id := by
  constructor
  · rintro ⟨other, otherCaller, switches⟩
    by_cases same : other = kernelThread
    · subst same
      rw [locked.execution_eq] at switches
      cases switches
      exact Or.inl rfl
    · rw [locked.othersExecution other same] at switches
      exact Or.inr ⟨other, otherCaller, switches⟩
  · rintro (rfl | ⟨other, otherCaller, switches⟩)
    · exact ⟨kernelThread, caller, locked.execution_eq⟩
    · have different : other ≠ kernelThread := by
        rintro rfl
        obtain ⟨frame, runs⟩ := locked.wasRunning
        rw [runs] at switches
        cases switches
      exact ⟨other, otherCaller,
        (locked.othersExecution other different).trans switches⟩

omit [Fintype κ] in
theorem stack_eq
    (locked : Locked system next kernelThread current chosen caller remaining)
    (other : κ) : next.stack other = system.stack other := by
  by_cases same : other = kernelThread
  · subst same
    obtain ⟨frame, runs⟩ := locked.wasRunning
    simp [System.stack, locked.execution_eq, runs, locked.isCurrent]
  · simp only [System.stack, locked.othersExecution other same,
      locked.othersCurrent other same]

theorem stops_queued
    (locked : Locked system next kernelThread current chosen caller remaining)
    (coherent : Coherent system) {thread : Thread}
    (member : thread ∈ system.threadQueue) :
    next.stops thread.id = system.stops thread.id := by
  rw [locked.stops_eq, Function.update_of_ne
    (coherent.current_not_queued locked.isCurrent member)]

/-- Taking a saved thread out of the queue keeps the hand-over safe. -/
theorem safe
    (locked : Locked system next kernelThread current chosen caller remaining)
    (safe : HandOverSafe system) (coherent : Coherent system)
    (saved : ¬ Unsaved system chosen.id) : HandOverSafe next := by
  have unsavedQueued : ∀ id, Unsaved next id →
      ∃ thread ∈ next.threadQueue, thread.id = id := by
    intro id unsaved
    rw [locked.queue_eq]
    rcases (locked.unsaved_iff id).mp unsaved with rfl | before
    · exact ⟨requeued current, by simp, rfl⟩
    · obtain ⟨thread, member, rfl⟩ := safe.unsavedQueued id before
      rcases List.mem_cons.mp (locked.split.mem_iff.mp member) with rfl | kept
      · exact absurd before saved
      · exact ⟨thread, List.mem_append_left _ kept, rfl⟩
  constructor
  · exact unsavedQueued
  · intro first second id firstStack secondStack
    rw [locked.stack_eq] at firstStack secondStack
    exact safe.oneStack first second id firstStack secondStack
  · exact stackHeld_of_unsavedQueued unsavedQueued
  · intro other previous otherCaller thread switches isOther
    by_cases same : other = kernelThread
    · subst same
      rw [locked.current_eq] at isOther
      cases isOther
      change chosen.context = some (next.stops chosen.id)
      rw [locked.stops_queued coherent locked.chosen_queued]
      exact coherent.savedContext chosen locked.chosen_queued saved
    · rw [locked.othersCurrent other same] at isOther
      rw [locked.othersExecution other same] at switches
      have otherThread : thread.id ≠ current.id := fun sameId =>
        same (coherent.current_unique locked.isCurrent isOther sameId)
      rw [locked.stops_eq, Function.update_of_ne otherThread]
      exact safe.resumesFresh other previous otherCaller thread switches isOther

/-- Taking an unsaved thread out of the queue breaks the rule. -/
theorem saved_of_safe
    (locked : Locked system next kernelThread current chosen caller remaining)
    (coherent : Coherent system) (safe : HandOverSafe next) :
    ¬ Unsaved system chosen.id := by
  intro unsaved
  obtain ⟨thread, member, named⟩ := safe.unsavedQueued chosen.id
    ((locked.unsaved_iff chosen.id).mpr (Or.inr unsaved))
  rw [locked.queue_eq] at member
  rcases List.mem_append.mp member with kept | back
  · have distinct := (locked.split.map Thread.id).nodup_iff.mp
      coherent.queue_distinct
    rw [List.map_cons, List.nodup_cons] at distinct
    exact distinct.1 (List.mem_map.mpr ⟨thread, kept, named⟩)
  · rw [List.mem_singleton.mp back] at named
    exact coherent.current_not_queued locked.isCurrent locked.chosen_queued
      named.symm

theorem coherent
    (locked : Locked system next kernelThread current chosen caller remaining)
    (safe : HandOverSafe system) (coherent : Coherent system)
    (sound : KernelThreads.Sound (settled next)) : Coherent next := by
  constructor
  · exact sound
  · intro thread member saved
    rw [locked.queue_eq] at member
    rcases List.mem_append.mp member with kept | back
    · have queued := locked.remaining_queued thread kept
      rw [locked.stops_queued coherent queued]
      exact coherent.savedContext thread queued fun unsaved =>
        saved ((locked.unsaved_iff thread.id).mpr (Or.inr unsaved))
    · rw [List.mem_singleton.mp back] at saved
      exact absurd ((locked.unsaved_iff _).mpr (Or.inl rfl)) saved
  · intro other previous otherCaller switches
    by_cases same : other = kernelThread
    · subst same
      rw [locked.execution_eq] at switches
      cases switches
      rw [locked.stops_eq, Function.update_self]
    · rw [locked.othersExecution other same] at switches
      obtain ⟨thread, member, rfl⟩ :=
        safe.unsavedQueued previous ⟨other, otherCaller, switches⟩
      rw [locked.stops_queued coherent member]
      exact coherent.unsavedStop other thread.id otherCaller switches
  · intro other previous otherCaller switches
    by_cases same : other = kernelThread
    · subst same
      exact ⟨_, locked.current_eq⟩
    · rw [locked.othersExecution other same] at switches
      rw [locked.othersCurrent other same]
      exact coherent.switchingCurrent other previous otherCaller switches

end Locked

/-! ## ContextSwitch -/

/-- The system behind a `ContextSwitch` away from the thread `previous`. -/
structure Loaded (system next : System κ) (kernelThread : κ) (current : Thread)
    (previous : Nat) (caller : Caller) : Prop where
  isCurrent : system.current kernelThread = some current
  wasSwitching : system.execution kernelThread = .switching previous caller
  queue_eq : next.threadQueue =
    system.threadQueue.map (store previous (.contextSwitch caller))
  current_eq : next.current kernelThread = some current
  isRunning : ∃ frame, next.execution kernelThread = .running frame
  othersCurrent : ∀ other, other ≠ kernelThread → next.current other =
    (system.current other).map (store previous (.contextSwitch caller))
  othersExecution : ∀ other, other ≠ kernelThread →
    next.execution other = system.execution other
  stops_eq : next.stops = system.stops

/-- A thread in hand-over is queued, so it is not the current thread of any
kernel thread. -/
theorem current_ne_unsaved (safe : HandOverSafe system)
    (coherent : Coherent system) {id : Nat} (unsaved : Unsaved system id)
    (isCurrent : system.current kernelThread = some current) :
    current.id ≠ id := by
  obtain ⟨thread, member, rfl⟩ := safe.unsavedQueued id unsaved
  exact (coherent.current_not_queued isCurrent member).symm

theorem loaded_of_contextSwitch (safe : HandOverSafe system)
    (coherent : Coherent system) {previous : Nat} {caller : Caller}
    (isCurrent : system.current kernelThread = some current)
    (switches : system.execution kernelThread = .switching previous caller)
    (switched : contextSwitch system kernelThread previous caller = some next) :
    Loaded system next kernelThread current previous caller := by
  have other := current_ne_unsaved safe coherent
    ⟨kernelThread, caller, switches⟩ isCurrent
  obtain ⟨frame, _, rfl⟩ := contextSwitch_eq_some isCurrent other switched
  exact {
    isCurrent := isCurrent
    wasSwitching := switches
    queue_eq := rfl
    current_eq := place_current _ _ _ _
    isRunning := ⟨entered frame, place_execution _ _ _ _⟩
    othersCurrent := fun _ different => place_current_other _ _ _ different
    othersExecution := fun _ different => place_execution_other _ _ _ different
    stops_eq := rfl }

namespace Loaded

variable {previous : Nat} {caller : Caller}

omit [DecidableEq κ] [Fintype κ] in
/-- The kernel thread that had the stack of `previous` no longer awaits it, and
no other one did. -/
theorem unsaved_before
    (loaded : Loaded system next kernelThread current previous caller)
    (safe : HandOverSafe system) {other : κ} {id : Nat} {otherCaller : Caller}
    (switches : next.execution other = .switching id otherCaller) :
    other ≠ kernelThread ∧ id ≠ previous ∧
      system.execution other = .switching id otherCaller := by
  have different : other ≠ kernelThread := by
    rintro rfl
    obtain ⟨frame, runs⟩ := loaded.isRunning
    rw [runs] at switches
    cases switches
  rw [loaded.othersExecution other different] at switches
  refine ⟨different, ?_, switches⟩
  rintro rfl
  refine different (safe.oneStack other kernelThread id ?_ ?_)
  · simp [System.stack, switches]
  · simp [System.stack, loaded.wasSwitching]

omit [DecidableEq κ] [Fintype κ] in
theorem unsaved_after
    (loaded : Loaded system next kernelThread current previous caller)
    {id : Nat} (unsaved : Unsaved system id) (other : id ≠ previous) :
    Unsaved next id := by
  obtain ⟨awaiting, otherCaller, switches⟩ := unsaved
  have different : awaiting ≠ kernelThread := by
    rintro rfl
    rw [loaded.wasSwitching] at switches
    cases switches
    exact other rfl
  exact ⟨awaiting, otherCaller,
    (loaded.othersExecution awaiting different).trans switches⟩

theorem safe
    (loaded : Loaded system next kernelThread current previous caller)
    (safe : HandOverSafe system) (coherent : Coherent system) :
    HandOverSafe next := by
  have awaited : Unsaved system previous :=
    ⟨kernelThread, caller, loaded.wasSwitching⟩
  have unsavedQueued : ∀ id, Unsaved next id →
      ∃ thread ∈ next.threadQueue, thread.id = id := by
    rintro id ⟨other, otherCaller, switches⟩
    obtain ⟨_, _, before⟩ := loaded.unsaved_before safe switches
    obtain ⟨thread, member, rfl⟩ :=
      safe.unsavedQueued id ⟨other, otherCaller, before⟩
    rw [loaded.queue_eq]
    exact ⟨_, List.mem_map_of_mem member, store_id _ _ _⟩
  have currentStack : next.stack kernelThread = some current.id := by
    obtain ⟨frame, runs⟩ := loaded.isRunning
    simp [System.stack, runs, loaded.current_eq]
  have otherStack : ∀ other, other ≠ kernelThread →
      next.stack other = system.stack other := by
    intro other different
    simp only [System.stack, loaded.othersExecution other different,
      loaded.othersCurrent other different, Option.map_map]
    cases system.execution other with
    | running frame =>
        refine congrArg (fun f => Option.map f _) (funext fun thread => ?_)
        exact store_id _ _ _
    | switching other otherCaller => rfl
  -- nobody else executes on the stack that is loaded
  have loadedAlone : ∀ other, other ≠ kernelThread →
      next.stack other ≠ some current.id := by
    intro other different stack
    rw [otherStack other different] at stack
    cases execution : system.execution other with
    | running frame =>
        simp only [System.stack, execution, Option.map_eq_some_iff] at stack
        obtain ⟨thread, isOther, same⟩ := stack
        exact different
          (coherent.current_unique loaded.isCurrent isOther same)
    | switching id otherCaller =>
        simp only [System.stack, execution, Option.some.injEq] at stack
        exact current_ne_unsaved safe coherent
          ⟨other, otherCaller, execution⟩ loaded.isCurrent stack.symm
  constructor
  · exact unsavedQueued
  · intro first second id firstStack secondStack
    by_cases firstHere : first = kernelThread <;>
      by_cases secondHere : second = kernelThread
    · rw [firstHere, secondHere]
    · subst firstHere
      rw [currentStack] at firstStack
      exact absurd (secondStack.trans firstStack.symm)
        (loadedAlone second secondHere)
    · subst secondHere
      rw [currentStack] at secondStack
      exact absurd (firstStack.trans secondStack.symm)
        (loadedAlone first firstHere)
    · rw [otherStack _ firstHere] at firstStack
      rw [otherStack _ secondHere] at secondStack
      exact safe.oneStack first second id firstStack secondStack
  · exact stackHeld_of_unsavedQueued unsavedQueued
  · intro other id otherCaller thread switches isOther
    obtain ⟨different, _, before⟩ := loaded.unsaved_before safe switches
    rw [loaded.othersCurrent other different, Option.map_eq_some_iff] at isOther
    obtain ⟨old, oldCurrent, rfl⟩ := isOther
    rw [store_other _ (current_ne_unsaved safe coherent awaited oldCurrent),
      loaded.stops_eq]
    exact safe.resumesFresh other id otherCaller old before oldCurrent

omit [DecidableEq κ] in
theorem coherent
    (loaded : Loaded system next kernelThread current previous caller)
    (safe : HandOverSafe system) (coherent : Coherent system)
    (sound : KernelThreads.Sound (settled next)) : Coherent next := by
  constructor
  · exact sound
  · intro thread member saved
    rw [loaded.queue_eq, List.mem_map] at member
    obtain ⟨old, oldMember, rfl⟩ := member
    rw [store_id] at saved ⊢
    rw [loaded.stops_eq]
    by_cases same : old.id = previous
    · rw [same, coherent.unsavedStop kernelThread previous caller
        loaded.wasSwitching]
      simp [store, same]
    · rw [store_other _ same]
      exact coherent.savedContext old oldMember fun unsaved =>
        saved (loaded.unsaved_after unsaved same)
  · intro other id otherCaller switches
    obtain ⟨_, _, before⟩ := loaded.unsaved_before safe switches
    rw [loaded.stops_eq]
    exact coherent.unsavedStop other id otherCaller before
  · intro other id otherCaller switches
    obtain ⟨different, _, before⟩ := loaded.unsaved_before safe switches
    obtain ⟨thread, isOther⟩ := coherent.switchingCurrent other id otherCaller
      before
    rw [loaded.othersCurrent other different, isOther]
    exact ⟨_, rfl⟩

end Loaded

/-! ## Every step, every run -/

omit [DecidableEq κ] [Fintype κ] in
theorem safe_boot : HandOverSafe (boot : System κ) := by
  constructor
  · rintro id ⟨kernelThread, caller, switches⟩
    cases switches
  · intro first second id stack
    cases stack
  · intro kernelThread id stack
    cases stack
  · intro kernelThread previous caller thread switches
    cases switches

omit [DecidableEq κ] in
theorem coherent_boot : Coherent (boot : System κ) := by
  constructor
  · rw [settled_boot]
    exact KernelThreads.sound_boot
  · intro thread member
    cases member
  · intro kernelThread previous caller switches
    cases switches
  · intro kernelThread previous caller switches
    cases switches

/-- The settled system stays sound: it takes a step of the coarser model. -/
theorem step_settled_sound (safe : HandOverSafe system)
    (coherent : Coherent system) {action : Action}
    (stepped : step system (kernelThread, action) = some next) :
    KernelThreads.Sound (settled next) := by
  have shown := step_simulated safe coherent stepped
  cases label : shownLabel system (kernelThread, action) with
  | some coarse =>
      rw [label] at shown
      exact KernelThreads.step_sound coherent.sound shown
  | none =>
      rw [label] at shown
      exact shown ▸ coherent.sound

omit [Fintype κ] [DecidableEq κ] in
/-- Where neither a scan nor a collection comes next there is no condition. -/
theorem guard_of_silent {action : Action}
    (noScan : system.current kernelThread ≠ none →
      yieldCall (system.execution kernelThread) action = none)
    (noCollect : ∀ caller, system.current kernelThread ≠ none →
      system.execution kernelThread = .running (.contextSwitch caller) →
        action ≠ .proceed) :
    HandOverGuard system (kernelThread, action) := by
  constructor
  · intro current onlyReady caller failed isCurrent call
    simp only [noScan (by simp [isCurrent])] at call
    cases call
  · intro current caller isCurrent frame proceeds
    exact absurd proceeds (noCollect caller (by simp [isCurrent]) frame)

/-- A locked section that finds a thread is safe exactly when that is saved;
one that finds none changes nothing. -/
theorem yieldOr_safe_iff (safe : HandOverSafe system)
    (coherent : Coherent system) {frame : Frame} {onlyReady : Bool}
    {caller : Caller} {failed : Frame}
    (isCurrent : system.current kernelThread = some current)
    (runs : system.execution kernelThread = .running frame)
    (sound : KernelThreads.Sound (settled (yieldOr system kernelThread current
      onlyReady caller failed))) :
    (HandOverSafe (yieldOr system kernelThread current onlyReady caller
        failed) ↔
      Covered (stopsScan current (system.kernel kernelThread).initialThreadId
        onlyReady) (fun thread => Unsaved system thread.id)
        system.threadQueue) ∧
      (HandOverSafe (yieldOr system kernelThread current onlyReady caller
        failed) →
        Coherent (yieldOr system kernelThread current onlyReady caller
          failed)) := by
  cases switched : yieldLocked system kernelThread current onlyReady caller with
  | none =>
      simp only [yieldOr, switched, Option.getD_none] at sound ⊢
      have quiet : Quiet system (system.place kernelThread (some current)
          (.running failed)) kernelThread :=
        quiet_place_same isCurrent runs rfl rfl rfl rfl
      refine ⟨iff_of_true (quiet.safe safe coherent) ?_, fun _ =>
        quiet.coherent safe coherent sound⟩
      exact covered_of_find?_none (yieldLocked_eq_none_iff.mp switched)
  | some next =>
      obtain ⟨chosen, remaining, found, locked⟩ :=
        locked_of_yieldLocked isCurrent runs switched
      simp only [yieldOr, switched, Option.getD_some] at sound ⊢
      rw [covered_iff_of_find? found]
      exact ⟨⟨locked.saved_of_safe coherent, locked.safe safe coherent⟩,
        fun _ => locked.coherent safe coherent sound⟩

theorem step_safe_iff (safe : HandOverSafe system) (coherent : Coherent system)
    {action : Action} (stepped : step system (kernelThread, action) = some next) :
    (HandOverSafe next ↔ HandOverGuard system (kernelThread, action)) ∧
      (HandOverSafe next → Coherent next) := by
  have sound := step_settled_sound safe coherent stepped
  have ofQuiet : Quiet system next kernelThread →
      HandOverGuard system (kernelThread, action) →
      (HandOverSafe next ↔ HandOverGuard system (kernelThread, action)) ∧
        (HandOverSafe next → Coherent next) := fun quiet guard =>
    ⟨iff_of_true (quiet.safe safe coherent) guard,
      fun _ => quiet.coherent safe coherent sound⟩
  cases transition_of_step stepped with
  | initializeKernel idle fresh =>
      exact ofQuiet (quiet_initializeKernel coherent idle)
        (guard_of_silent (fun someone => absurd idle someone)
          fun _ someone => absurd idle someone)
  | spawn isCurrent inCode =>
      exact ofQuiet (quiet_spawnInsert isCurrent inCode)
        (guard_of_silent (fun _ => by rw [inCode]; rfl) (by simp))
  | wait isCurrent inCode =>
      exact ofQuiet (quiet_place_same isCurrent inCode rfl rfl rfl rfl)
        (guard_of_silent (fun _ => by rw [inCode]; rfl) (by simp))
  | exit isCurrent inCode spawned =>
      exact ofQuiet (quiet_place_same isCurrent inCode rfl rfl rfl rfl)
        (guard_of_silent (fun _ => by rw [inCode]; rfl) (by simp))
  | leave isCurrent inCode initial =>
      exact ofQuiet (quiet_leave inCode)
        (guard_of_silent (fun _ => by rw [inCode]; rfl) (by simp))
  | yielded isCurrent call =>
      rename_i current onlyReady caller failed
      obtain ⟨frame, runs, _⟩ := running_of_yieldCall current call
      obtain ⟨exact, keeps⟩ :=
        yieldOr_safe_iff safe coherent isCurrent runs sound
      refine ⟨exact.trans ⟨fun covered => ⟨?_, ?_⟩, fun guard => ?_⟩, keeps⟩
      · intro other otherReady otherCaller otherFailed isOther otherCall
        cases Option.some.inj (isCurrent.symm.trans isOther)
        cases Option.some.inj (call.symm.trans otherCall)
        exact covered
      · intro other otherCaller _ collects proceeds
        simp only at proceeds
        rw [collects, proceeds] at call
        cases call
      · exact guard.scan current onlyReady caller failed isCurrent call
  | returned isCurrent frame =>
      rename_i current caller
      have guard_iff : HandOverGuard system (kernelThread, Action.proceed) ↔
          ∀ thread ∈ system.threadQueue, thread.state = .kZombie →
            ¬ Unsaved system thread.id := by
        constructor
        · exact fun guard => guard.collect current caller isCurrent frame rfl
        · intro savedZombies
          refine ⟨?_, fun _ _ _ _ _ => savedZombies⟩
          intro other onlyReady otherCaller failed _ call
          simp only [frame] at call
          cases call
      rw [guard_iff]
      refine ⟨⟨savedZombies_of_safe coherent frame, fun savedZombies => ?_⟩,
        fun collected => ?_⟩
      · exact (quiet_returnFromSwitch isCurrent frame savedZombies).safe safe
          coherent
      · exact (quiet_returnFromSwitch isCurrent frame
          (savedZombies_of_safe coherent frame collected)).coherent safe
            coherent sound
  | switched isCurrent switches loads =>
      have loaded := loaded_of_contextSwitch safe coherent isCurrent switches
        loads
      refine ⟨iff_of_true (loaded.safe safe coherent) ?_,
        fun _ => loaded.coherent safe coherent sound⟩
      refine guard_of_silent (fun _ => by rw [switches]; rfl) ?_
      intro caller _ frame
      rw [switches] at frame
      cases frame

/-- Through every interleaving of any kernel threads, no green thread is taken
or destroyed between its locked section and its `ContextSwitch`, none runs on
two kernel threads and none resumes from an old context, if and only if every
scan and every collection of the run meets the guard. -/
theorem hand_over_safe_iff (labels : List (κ × Action)) (final : System κ)
    (run : runLabels step boot labels = some final) :
    Everywhere step HandOverSafe boot labels ↔
      EveryStep step HandOverGuard boot labels :=
  everywhere_iff_guards_of_invariant
    (fun _ _ _ coherent safe stepped => (step_safe_iff safe coherent stepped).1)
    (fun _ _ _ coherent safe stepped => (step_safe_iff safe coherent stepped).2)
    coherent_boot safe_boot run

/-- A run that meets the guard is a run of the scheduler in which `Yield` and its
switch are one step. -/
theorem run_settled (labels : List (κ × Action)) (final : System κ)
    (run : runLabels step boot labels = some final)
    (guards : EveryStep step HandOverGuard boot labels) :
    ∃ coarseLabels, runLabels Scheduler.interleavedStep Scheduler.boot
      coarseLabels = some (settled final) := by
  have simulated : ∀ (system : System κ) label next,
      HandOverSafe system ∧ Coherent system → step system label = some next →
        Simulated settled Scheduler.interleavedStep system next
          (shownLabel system label) :=
    fun _ _ _ holds stepped => step_simulated holds.1 holds.2 stepped
  have preserved : ∀ (system : System κ) label next,
      HandOverSafe system ∧ Coherent system → HandOverGuard system label →
        step system label = some next → HandOverSafe next ∧ Coherent next := by
    intro system label next holds guard stepped
    obtain ⟨exact, keeps⟩ := step_safe_iff holds.1 holds.2 stepped
    exact ⟨exact.mpr guard, keeps (exact.mpr guard)⟩
  have shown := exists_run_of_simulated shownLabel simulated preserved
    ⟨safe_boot, coherent_boot⟩ guards run
  rwa [settled_boot] at shown

/-- The first kernel thread has spawned a thread and is in the `Yield` of the
second `Spawn`, with the registers of the first thread not yet stored, when the
second kernel thread yields. -/
def windowRun : List (Bool × Action) :=
  [(false, .initializeKernel), (true, .initializeKernel), (false, .spawn), (false, .proceed),
    (false, .proceed), (false, .spawn), (false, .proceed)]

theorem hand_over_safe_iff_window :
    Everywhere step HandOverSafe (boot : System (Bool)) windowRun ↔
      EveryStep step HandOverGuard (boot : System (Bool)) windowRun :=
  hand_over_safe_iff windowRun _ rfl

/-- The second kernel thread takes the unsaved thread and loads the context it
was created with: both kernel threads execute on its stack. -/
theorem windowRun_runs_thread_twice :
    ∃ final : System (Bool), runLabels step boot
        (windowRun ++ [(true, .yield false), (true, .proceed)]) = some final ∧
      final.stack false = some 2 ∧ final.stack true = some 2 ∧
      ¬ HandOverSafe final := by
  refine ⟨_, rfl, rfl, rfl, ?_⟩
  intro safe
  exact absurd (safe.oneStack false true 2 rfl rfl) (by decide)

end ChlorosSnfs.Chloros.HandOverSafety
