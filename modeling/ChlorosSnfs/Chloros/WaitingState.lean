import ChlorosSnfs.Chloros.SingleKernel

/-!
# What kWaiting says of a thread

By the comments of chloros.h an initial thread is waiting when it has entered
`Wait`.  The state is also what `Initialize` gives the initial thread, and what
`Wait` leaves on it when it returns; `Yield` replaces it only when it switches
to the thread.  `leftoverAfter` follows through a run whether the initial thread
still carries such a state, and that is exactly when the state says something
else than the comments.
-/

set_option autoImplicit false

namespace ChlorosSnfs.Chloros.WaitingState

open ChlorosSnfs.Chloros.Scheduler
open ChlorosSnfs.Chloros.SingleKernel
open ChlorosSnfs.Library.Runs

/-! ## The meaning and the record -/

/-- Every other unfinished thread is suspended inside `Wait`. -/
def OthersInWait (system : System Unit) (current : Thread) : Prop :=
  ∀ id < system.nextId, id ∉ system.finished → id ≠ current.id →
    ∃ thread ∈ system.threadQueue, thread.id = id ∧
      thread.frame = .contextSwitch .wait

structure WaitingMeansWait (system : System Unit) : Prop where
  queued : ∀ thread ∈ system.threadQueue,
    thread.state = .kWaiting ↔ thread.frame = .contextSwitch .wait
  running : ∀ current, system.current () = some current →
    current.frame = .code → current.state = .kRunning
  refused : ∀ current action caller failed,
    system.current () = some current →
    yieldCall current action = some (true, caller, failed) →
      (yield system () current true caller = none ↔
        OthersInWait system current)
  suspended : ∀ thread ∈ system.threadQueue,
    thread.frame = .contextSwitch .code ∨ thread.frame = .contextSwitch .spawn →
      ∀ onlyReady, eligible onlyReady thread = true

/-- Whether the initial thread carries the state of `Initialize` or of a `Wait`
that has returned: it has not called `Wait` since, and no thread has yielded to
it. -/
def leftoverAfter (leftover : Bool) (system : System Unit) (action : Action)
    (next : System Unit) : Bool :=
  match system.current () with
  | none => true
  | some current =>
      if action = .wait then false
      else if current.frame = .waitLoop ∧
          yield system () current true .wait = none then true
      else if current.isInitialKernelThread = false ∧
          (next.current ()).any (·.isInitialKernelThread) then false
      else leftover

def leftover (actions : List Action) : Bool :=
  recorded singleStep leftoverAfter false boot actions

/-! ## The initial thread -/

def insideWait : Frame → Bool
  | .waitLoop | .contextSwitch .wait => true
  | _ => false

/-- The initial thread, waiting by its state and outside `Wait`. -/
def misstated (thread : Thread) : Bool :=
  thread.isInitialKernelThread && thread.state = .kWaiting &&
    !insideWait thread.frame

theorem any_misstated_of_initial {system : System Unit} {first : Thread}
    {rest : List Thread} (accounts : Accounts system (first :: rest))
    (initial : first.isInitialKernelThread = true) :
    (first :: rest).any misstated = misstated first := by
  have others : rest.any misstated = false := by
    rw [List.any_eq_false]
    intro thread member
    simp [misstated, accounts.not_initial initial thread member]
  simp [others]

theorem yieldCall_insideWait {current : Thread} {action : Action}
    {onlyReady : Bool} {caller : Caller} {failed : Frame}
    (called : yieldCall current action = some (onlyReady, caller, failed)) :
    insideWait (.contextSwitch caller) = insideWait current.frame := by
  unfold yieldCall at called
  split at called
  case h_5 => cases called
  all_goals
    rename_i frame
    cases called
    simp [frame, insideWait]

theorem misstated_enqueued {current : Thread} {caller : Caller}
    (sameSide : insideWait (.contextSwitch caller) = insideWait current.frame) :
    misstated (enqueued current caller) = misstated current := by
  by_cases running : current.state = .kRunning
  · simp [misstated, enqueued, running]
  · simp [misstated, enqueued, running, sameSide]

theorem misstated_resumed (thread : Thread) : misstated (resumed thread) = false := by
  simp [misstated, resumed]

/-! ## One step -/

/-- Inside `Wait` a thread is waiting, and a zombie has come through
`ThreadEntry`. -/
structure Honest (thread : Thread) : Prop where
  inWait : thread.frame = .contextSwitch .wait → thread.state = .kWaiting
  ended : thread.state = .kZombie → thread.frame = .contextSwitch .threadEntry

/-- The record is exact, and the queued threads are honest. -/
structure Told (system : System Unit) (current : Thread) (leftover : Bool) :
    Prop where
  consistent : Consistent system current
  honest : ∀ thread ∈ system.threadQueue, Honest thread
  switchedTo : ∀ caller, current.frame = .contextSwitch caller →
    current.state = .kRunning
  exact : (current :: system.threadQueue).any misstated = leftover

theorem yieldCall_wait {current : Thread} {action : Action} {onlyReady : Bool}
    {caller : Caller} {failed : Frame}
    (called : yieldCall current action = some (onlyReady, caller, failed)) :
    action ≠ .wait ∧ (caller = .wait ↔ current.frame = .waitLoop) ∧
      (caller = .wait → onlyReady = true ∧ failed = .code) := by
  unfold yieldCall at called
  split at called
  case h_5 => cases called
  all_goals
    rename_i frame
    cases called
    simp [frame]

/-- A `Yield` that switches clears the record exactly when it goes from a
spawned thread to the initial one. -/
theorem leftoverAfter_of_switch {system next : System Unit}
    {current chosen : Thread} {action : Action} {onlyReady : Bool}
    {caller : Caller} {failed : Frame} (leftover : Bool)
    (isCurrent : system.current () = some current)
    (called : yieldCall current action = some (onlyReady, caller, failed))
    (yielded : yield system () current onlyReady caller = some next)
    (isNext : next.current () = some (resumed chosen)) :
    leftoverAfter leftover system action next =
      if current.isInitialKernelThread = false ∧
        chosen.isInitialKernelThread = true then false else leftover := by
  obtain ⟨notWait, waitFrame, waitCall⟩ := yieldCall_wait called
  have notReturned : ¬ (current.frame = .waitLoop ∧
      yield system () current true .wait = none) := by
    rintro ⟨frame, stayed⟩
    have fromWait := waitFrame.mpr frame
    rw [(waitCall fromWait).1, fromWait, stayed] at yielded
    cases yielded
  simp [leftoverAfter, isCurrent, notWait, notReturned, isNext, resumed]

theorem Told.honest_enqueued {system : System Unit} {current : Thread}
    {leftover : Bool} (told : Told system current leftover) {action : Action}
    {onlyReady : Bool} {caller : Caller} {failed : Frame}
    (called : yieldCall current action = some (onlyReady, caller, failed)) :
    Honest (enqueued current caller) := by
  constructor
  · intro inside
    have fromWait : caller = .wait := by simpa [enqueued] using inside
    obtain ⟨_, waiting, _⟩ := told.consistent.shape.at_waitLoop
      ((yieldCall_wait called).2.1.mp fromWait)
    simp [enqueued, waiting]
  · intro ended
    have zombie : current.state = .kZombie := by
      by_cases running : current.state = .kRunning
      · simp [enqueued, running] at ended
      · simpa [enqueued, running] using ended
    have frame : current.frame = .threadEntry := by
      apply told.consistent.finished_current
      exact (told.consistent.accounts.zombies current List.mem_cons_self).mp zombie
    unfold yieldCall at called
    simp only [frame] at called
    split at called <;> simp_all [enqueued]

/-- A `Yield` that switches. -/
theorem Told.switched {system next : System Unit} {current running : Thread}
    {leftover : Bool} (told : Told system current leftover) {action : Action}
    {onlyReady : Bool} {caller : Caller} {failed : Frame}
    (called : yieldCall current action = some (onlyReady, caller, failed))
    (yielded : yield system () current onlyReady caller = some next)
    (consistent : Consistent next running) :
    Told next running (leftoverAfter leftover system action next) := by
  obtain ⟨chosen, _, switched⟩ := switched_of_yield yielded
  obtain rfl : resumed chosen = running :=
    Option.some.inj (switched.current_eq.symm.trans consistent.isCurrent)
  have isCurrent := told.consistent.isCurrent
  refine ⟨consistent, ?_, fun _ _ => rfl, ?_⟩
  · intro thread member
    rw [switched.queue_eq] at member
    rcases List.mem_append.mp member with old | last
    · exact told.honest thread
        (switched.split.symm.subset (List.mem_cons_of_mem _ old))
    · obtain rfl := List.mem_singleton.mp last
      exact told.honest_enqueued called
  · rw [leftoverAfter_of_switch leftover isCurrent called yielded
      switched.current_eq]
    have accounts := told.consistent.accounts
    cases initial : chosen.isInitialKernelThread with
    | true =>
        have chosenQueued : chosen ∈ system.threadQueue :=
          switched.split.symm.subset List.mem_cons_self
        have spawned : current.isInitialKernelThread = false := by
          rw [Bool.eq_false_iff]
          intro alsoInitial
          have other := accounts.not_initial alsoInitial chosen chosenQueued
          exact absurd (initial.symm.trans other) (by decide)
        rw [any_misstated_of_initial consistent.accounts (by simp [resumed, initial])]
        simp [spawned, misstated_resumed]
    | false =>
        have chosenStated : misstated chosen = false := by
          simp [misstated, initial]
        have before := told.exact
        rw [List.any_cons, switched.split.any_eq, List.any_cons, chosenStated]
          at before
        rw [switched.queue_eq, List.any_cons, List.any_append, misstated_resumed,
          List.any_cons, misstated_enqueued (yieldCall_insideWait called)]
        rw [← before]
        simp [Bool.or_comm]

/-- A step that only replaces the current thread, by one as the initial thread
is stated before. -/
theorem Told.replaced {system changed : System Unit} {current running : Thread}
    {leftover : Bool} (told : Told system current leftover)
    (consistent : Consistent changed running)
    (queue : changed.threadQueue = system.threadQueue)
    (sameStated : misstated running = misstated current)
    (notSwitched : ∀ caller, running.frame ≠ .contextSwitch caller) :
    Told changed running leftover := by
  refine ⟨consistent, ?_, ?_, ?_⟩
  · rw [queue]
    exact told.honest
  · intro caller frame
    exact absurd frame (notSwitched caller)
  · rw [queue, List.any_cons, sameStated, ← List.any_cons]
    exact told.exact

/-- The same thread stays current, and `Wait` neither starts nor returns. -/
theorem leftoverAfter_of_same {system next : System Unit}
    {current changed : Thread} {action : Action} (leftover : Bool)
    (isCurrent : system.current () = some current) (notWait : action ≠ .wait)
    (notReturned : ¬ (current.frame = .waitLoop ∧
      yield system () current true .wait = none))
    (isNext : next.current () = some changed)
    (sameKind : changed.isInitialKernelThread = current.isInitialKernelThread) :
    leftoverAfter leftover system action next = leftover := by
  simp [leftoverAfter, isCurrent, notWait, notReturned, isNext, sameKind]

theorem told_initializeKernel :
    Told (initializeKernel boot ()) ⟨0, .kWaiting, true, .code⟩ true := by
  refine ⟨consistent_initializeKernel, ?_, ?_, rfl⟩
  · intro thread member
    cases member
  · intro caller frame
    cases frame

/-- A `Yield` that returns false. -/
theorem Told.stayed {system : System Unit} {current running : Thread}
    {leftover : Bool} (told : Told system current leftover) {action : Action}
    {onlyReady : Bool} {caller : Caller} {failed : Frame}
    (called : yieldCall current action = some (onlyReady, caller, failed))
    (stayed : yield system () current onlyReady caller = none)
    (consistent : Consistent
      (system.setCurrent () (some { current with frame := failed })) running) :
    Told (system.setCurrent () (some { current with frame := failed })) running
      (leftoverAfter leftover system action
        (system.setCurrent () (some { current with frame := failed }))) := by
  have isCurrent := told.consistent.isCurrent
  obtain rfl : { current with frame := failed } = running := by
    simpa using consistent.isCurrent
  obtain ⟨notWait, waitFrame, waitCall⟩ := yieldCall_wait called
  by_cases inLoop : current.frame = .waitLoop
  · have fromWait := waitFrame.mpr inLoop
    obtain ⟨readyOnly, rfl⟩ := waitCall fromWait
    obtain ⟨initial, waiting, _⟩ := told.consistent.shape.at_waitLoop inLoop
    rw [readyOnly, fromWait] at stayed
    refine ⟨consistent, told.honest, by simp, ?_⟩
    have accounts := consistent.accounts
    rw [any_misstated_of_initial accounts (by simpa using initial)]
    simp [leftoverAfter, isCurrent, notWait, inLoop, stayed, misstated, initial,
      waiting, insideWait]
  · have asserted : failed ≠ .assertFailed := consistent.shape.not_assertFailed
    have inCode : failed = .code ∧ insideWait current.frame = false := by
      unfold yieldCall at called
      split at called
      case h_5 => cases called
      all_goals
        rename_i frame
        cases called
        simp_all [insideWait]
    obtain ⟨rfl, outside⟩ := inCode
    rw [leftoverAfter_of_same leftover isCurrent notWait (by simp [inLoop])
      (setCurrent_current system () (some { current with frame := .code })) rfl]
    have codeOutside : insideWait .code = false := rfl
    exact told.replaced consistent rfl
      (by simp only [misstated, outside, codeOutside]) (by simp)

/-- Zombies are not waiting. -/
theorem any_misstated_collected (system : System Unit) :
    (garbageCollect system).threadQueue.any misstated =
      system.threadQueue.any misstated := by
  simp only [garbageCollect, List.any_filter]
  refine List.any_congr rfl fun thread => ?_
  cases state : thread.state <;> simp [misstated, state]

/-- The return of a `Yield` that has switched. -/
theorem Told.returned {system : System Unit} {current running : Thread}
    {leftover : Bool} (told : Told system current leftover) {caller : Caller}
    (frame : current.frame = .contextSwitch caller)
    (consistent : Consistent (returnFromSwitch system () current caller) running) :
    Told (returnFromSwitch system () current caller) running
      (leftoverAfter leftover system .proceed
        (returnFromSwitch system () current caller)) := by
  have isCurrent := told.consistent.isCurrent
  have wasRunning := told.switchedTo caller frame
  have isNext := consistent.isCurrent
  have sameKind : running.isInitialKernelThread =
      current.isInitialKernelThread := by
    cases caller <;> simp [returnFromSwitch] at isNext <;> simp [← isNext]
  have notSwitched : ∀ other, running.frame ≠ .contextSwitch other := by
    cases caller <;> simp [returnFromSwitch] at isNext <;> simp [← isNext]
  have stated : misstated running = misstated current := by
    cases caller <;> simp [returnFromSwitch] at isNext <;>
      simp [← isNext, misstated, wasRunning, insideWait]
  have queue : (returnFromSwitch system () current caller).threadQueue =
      (garbageCollect system).threadQueue := by
    cases caller <;> rfl
  rw [leftoverAfter_of_same leftover isCurrent (by simp) (by simp [frame]) isNext
    sameKind]
  refine ⟨consistent, ?_, fun other inside => absurd inside (notSwitched other), ?_⟩
  · rw [queue]
    intro thread member
    exact told.honest thread (List.mem_of_mem_filter member)
  · rw [queue, List.any_cons, any_misstated_collected, stated, ← List.any_cons]
    exact told.exact

theorem told_step {system next : System Unit} {current : Thread}
    {leftover : Bool} (told : Told system current leftover) {action : Action}
    (stepped : singleStep system action = some next) :
    ∃ running, Told next running (leftoverAfter leftover system action next) := by
  have isCurrent := told.consistent.isCurrent
  obtain ⟨running, consistent⟩ := told.consistent.next stepped
  refine ⟨running, ?_⟩
  simp only [singleStep, Option.ite_none_right_eq_some] at stepped
  obtain ⟨discipline, stepped⟩ := stepped
  cases transition_of_step stepped with
  | initializeKernel idle _ => simp [isCurrent] at idle
  | @spawn spawner isSpawner inCode =>
      obtain rfl : spawner = current :=
        Option.some.inj (isSpawner.symm.trans isCurrent)
      obtain rfl : { spawner with frame := .spawn } = running := by
        simpa [spawnInsert] using consistent.isCurrent
      rw [leftoverAfter_of_same leftover isCurrent (by simp) (by simp [inCode])
        consistent.isCurrent rfl]
      refine ⟨consistent, ?_, by simp, ?_⟩
      · intro thread member
        rcases List.mem_cons.mp member with rfl | old
        · constructor <;> simp
        · exact told.honest thread old
      · have before := told.exact
        simp only [List.any_cons, misstated, inCode, insideWait] at before
        simpa [spawnInsert, misstated, insideWait] using before
  | @wait waiter isWaiter inCode =>
      obtain rfl : waiter = current :=
        Option.some.inj (isWaiter.symm.trans isCurrent)
      obtain rfl : { waiter with state := .kWaiting, frame := .waitLoop } =
          running := by
        simpa using consistent.isCurrent
      have initial : waiter.isInitialKernelThread = true := by
        simpa [disciplined, isCurrent] using discipline
      refine ⟨consistent, told.honest, by simp, ?_⟩
      have accounts := consistent.accounts
      rw [any_misstated_of_initial accounts (by simpa using initial)]
      simp [leftoverAfter, isCurrent, misstated, insideWait]
  | @exit ended isEnded inCode spawned =>
      obtain rfl : ended = current :=
        Option.some.inj (isEnded.symm.trans isCurrent)
      obtain rfl : { ended with state := .kZombie, frame := .threadEntry } =
          running := by
        simpa using consistent.isCurrent
      rw [leftoverAfter_of_same leftover isCurrent (by simp) (by simp [inCode])
        consistent.isCurrent rfl]
      exact told.replaced consistent rfl (by simp [misstated, spawned]) (by simp)
  | leave isLeaver inCode initial => simp [disciplined] at discipline
  | @yielded yielder _ onlyReady caller failed isYielder called =>
      obtain rfl : yielder = current :=
        Option.some.inj (isYielder.symm.trans isCurrent)
      cases yielded : yield system () yielder onlyReady caller with
      | some switched =>
          simp only [yieldOr, yielded, Option.getD_some] at consistent ⊢
          exact told.switched called yielded consistent
      | none =>
          simp only [yieldOr, yielded, Option.getD_none] at consistent ⊢
          exact told.stayed called yielded consistent
  | @returned switched caller isSwitched frame =>
      obtain rfl : switched = current :=
        Option.some.inj (isSwitched.symm.trans isCurrent)
      exact told.returned frame consistent

/-! ## What the state then says -/

theorem mem_any_misstated {threads : List Thread}
    (none_ : threads.any misstated = false) {thread : Thread}
    (member : thread ∈ threads) : misstated thread = false := by
  rw [List.any_eq_false] at none_
  simpa using none_ thread member

theorem queued_iff_of_stated {system : System Unit} {current : Thread}
    {leftover : Bool} (told : Told system current leftover) {thread : Thread}
    (member : thread ∈ system.threadQueue)
    (stated : misstated thread = false) :
    thread.state = .kWaiting ↔ thread.frame = .contextSwitch .wait := by
  refine ⟨fun waiting => ?_, (told.honest thread member).inWait⟩
  rcases told.consistent.queued thread member with suspended | fresh
  · have initial : thread.isInitialKernelThread = true := by
      rw [← Bool.not_eq_false]
      intro spawned
      rcases suspended.spawnedState spawned with ready | zombie <;> simp_all
    obtain ⟨caller, frame, _, _⟩ := suspended.frame
    cases caller <;>
      simp_all [misstated, insideWait]
  · simp [fresh.state] at waiting

theorem ready_or_waiting_of_settled {thread : Thread} (settled : Settled thread) :
    thread.state = .kReady ∨ thread.state = .kWaiting := by
  cases kind : thread.isInitialKernelThread with
  | true => exact settled.1.initialState kind
  | false => exact Or.inl ((settled.1.spawnedState kind).resolve_right settled.2)

/-- Where a thread yields to ready threads only, no zombie is queued. -/
theorem ready_or_waiting_of_call {system : System Unit} {current : Thread}
    (consistent : Consistent system current) {action : Action} {caller : Caller}
    {failed : Frame}
    (called : yieldCall current action = some (true, caller, failed)) :
    ∀ thread ∈ system.threadQueue,
      thread.state = .kReady ∨ thread.state = .kWaiting := by
  intro thread member
  unfold yieldCall at called
  split at called
  case h_4 => cases called
  case h_5 => cases called
  case h_1 frame =>
    exact ready_or_waiting_of_settled
      ((consistent.shape.at_code frame).2 thread member)
  case h_2 frame =>
    obtain ⟨_, created, rest, queueExact, fresh, settled⟩ :=
      consistent.shape.at_spawn frame
    rw [queueExact] at member
    rcases List.mem_cons.mp member with rfl | old
    · exact Or.inl fresh.state
    · exact ready_or_waiting_of_settled (settled thread old)
  case h_3 frame =>
    exact ready_or_waiting_of_settled
      ((consistent.shape.at_waitLoop frame).2.2 thread member)

/-- The scan for ready threads stops at no thread exactly when all others are
inside `Wait`. -/
theorem refused_iff {system : System Unit} {current : Thread}
    (consistent : Consistent system current)
    (meaning : ∀ thread ∈ system.threadQueue,
      thread.state = .kWaiting ↔ thread.frame = .contextSwitch .wait)
    {action : Action} {caller : Caller} {failed : Frame}
    (called : yieldCall current action = some (true, caller, failed)) :
    yield system () current true caller = none ↔
      OthersInWait system current := by
  have accounts := consistent.accounts
  have distinct := accounts.distinct
  rw [List.map_cons, List.nodup_cons] at distinct
  have alive := ready_or_waiting_of_call consistent called
  have stops : ∀ thread ∈ system.threadQueue,
      stopsScan current (system.kernel ()).initialThreadId true thread = true ↔
        thread.state = .kReady := by
    intro thread member
    have allowed : ¬ (current.id = (system.kernel ()).initialThreadId ∧
        thread.isInitialKernelThread = true) := by
      rintro ⟨same, initial⟩
      have currentInitial :=
        (accounts.kinds current List.mem_cons_self).mpr same
      have spawned := accounts.not_initial currentInitial thread member
      exact absurd (initial.symm.trans spawned) (by decide)
    simp [stopsScan_ready_iff, allowed]
  constructor
  · intro stayed id bound open_ other
    obtain ⟨thread, member, rfl⟩ :=
      List.mem_map.mp (accounts.conserved id bound open_)
    rcases List.mem_cons.mp member with rfl | queued
    · exact absurd rfl other
    · have refused := List.find?_eq_none.mp (yield_eq_none stayed) thread queued
      rw [stops thread queued] at refused
      have waiting := (alive thread queued).resolve_left refused
      exact ⟨thread, queued, rfl, (meaning thread queued).mp waiting⟩
  · intro others
    refine yield_of_find?_none caller (List.find?_eq_none.mpr ?_)
    intro thread member passes
    have ready := (stops thread member).mp passes
    have inList := List.mem_cons_of_mem current member
    have open_ : thread.id ∉ system.finished := by
      intro ended
      have zombie := (accounts.zombies thread inList).mpr ended
      simp [ready] at zombie
    have notCurrent : thread.id ≠ current.id := by
      intro same
      exact distinct.1 (List.mem_map.mpr ⟨thread, member, same⟩)
    obtain ⟨same, sameMember, sameId, frame⟩ :=
      others thread.id (accounts.bounded thread inList) open_ notCurrent
    obtain rfl := List.inj_on_of_nodup_map distinct.2 sameMember member sameId
    have waiting := (meaning same member).mpr frame
    simp [ready] at waiting

/-- Only an exact record of the initial thread lets the states mean what they
should. -/
theorem Told.meaning_iff {system : System Unit} {current : Thread}
    {leftover : Bool} (told : Told system current leftover) :
    WaitingMeansWait system ↔ leftover = false ∨
      (current.isInitialKernelThread = true ∧ current.frame = .spawn) := by
  have isCurrent := told.consistent.isCurrent
  constructor
  · intro meaning
    cases leftover with
    | false => exact Or.inl rfl
    | true =>
        obtain ⟨thread, member, stated⟩ := List.any_eq_true.mp told.exact
        simp only [misstated, Bool.and_eq_true, decide_eq_true_eq,
          Bool.not_eq_true'] at stated
        obtain ⟨⟨initial, waiting⟩, outside⟩ := stated
        rcases List.mem_cons.mp member with rfl | queued
        · have shape := told.consistent.shape
          cases shape with
          | code frame =>
              have running := meaning.running thread isCurrent frame
              simp [waiting] at running
          | spawn frame => exact Or.inr ⟨initial, frame⟩
          | waitLoop frame => simp [frame, insideWait] at outside
          | threadEntry _ _ zombie => simp [waiting] at zombie
          | contextSwitch frame =>
              have running := told.switchedTo _ frame
              simp [waiting] at running
        · have inside := (meaning.queued thread queued).mp waiting
          simp [inside, insideWait] at outside
  · intro condition
    have queueStated : ∀ thread ∈ system.threadQueue,
        misstated thread = false := by
      intro thread member
      rcases condition with rfl | ⟨initial, _⟩
      · exact mem_any_misstated told.exact (List.mem_cons_of_mem _ member)
      · have spawned :=
          told.consistent.accounts.not_initial initial thread member
        simp [misstated, spawned]
    have queued : ∀ thread ∈ system.threadQueue,
        thread.state = .kWaiting ↔ thread.frame = .contextSwitch .wait :=
      fun thread member =>
        queued_iff_of_stated told member (queueStated thread member)
    refine ⟨queued, ?_, ?_, ?_⟩
    · intro other isOther inCode
      obtain rfl : other = current :=
        Option.some.inj (isOther.symm.trans isCurrent)
      rcases (told.consistent.shape.at_code inCode).1 with
        running | ⟨initial, waiting⟩
      · exact running
      · rcases condition with rfl | ⟨_, spawning⟩
        · have stated := mem_any_misstated told.exact List.mem_cons_self
          simp [misstated, initial, waiting, inCode, insideWait] at stated
        · cases inCode.symm.trans spawning
    · intro other action caller failed isOther called
      obtain rfl : other = current :=
        Option.some.inj (isOther.symm.trans isCurrent)
      exact refused_iff told.consistent queued called
    · intro thread member frame onlyReady
      have notWaiting : thread.state ≠ .kWaiting := by
        rw [Ne, queued thread member]
        rcases frame with frame | frame <;> simp [frame]
      have notZombie : thread.state ≠ .kZombie := by
        intro zombie
        have ended := (told.honest thread member).ended zombie
        rcases frame with frame | frame <;> simp [frame] at ended
      have ready : thread.state = .kReady := by
        rcases told.consistent.queued thread member with suspended | fresh
        · have settled : Settled thread := ⟨suspended, notZombie⟩
          exact (ready_or_waiting_of_settled settled).resolve_right notWaiting
        · exact fresh.state
      simp [eligible, ready]

/-- The record of a run up to a state. -/
def Followed (system : System Unit) (leftover : Bool) : Prop :=
  (system = boot ∧ leftover = false) ∨ ∃ current, Told system current leftover

theorem followed_step (system : System Unit) (leftover : Bool) (action : Action)
    (next : System Unit) (followed : Followed system leftover)
    (stepped : singleStep system action = some next) :
    Followed next (leftoverAfter leftover system action next) := by
  rcases followed with ⟨rfl, rfl⟩ | ⟨current, told⟩
  · simp only [singleStep, step, boot_current, Option.ite_none_right_eq_some,
      Option.some.injEq] at stepped
    obtain ⟨_, _, rfl⟩ := stepped
    exact Or.inr ⟨_, told_initializeKernel⟩
  · exact Or.inr (told_step told stepped)

/-- In every program of one kernel thread in which only the initial thread calls
`Wait`, the states mean what chloros.h says at a point of the run exactly when,
since `Initialize` and since the last return of `Wait`, the initial thread has
been switched to or has called `Wait`; or it is between the insertion and the
`Yield` of `Spawn`. -/
theorem waiting_means_wait_iff (actions : List Action) (system : System Unit)
    (run : runLabels singleStep boot actions = some system) :
    WaitingMeansWait system ↔ leftover actions = false ∨
      ∃ current, system.current () = some current ∧
        current.isInitialKernelThread = true ∧ current.frame = .spawn := by
  have followed : Followed system (leftover actions) :=
    recorded_of_run followed_step (Or.inl ⟨rfl, rfl⟩) run
  rcases followed with ⟨rfl, clean⟩ | ⟨current, told⟩
  · refine iff_of_true ?_ (Or.inl clean)
    constructor <;> simp [boot, System.current]
  · rw [told.meaning_iff]
    simp [told.consistent.isCurrent]

theorem waiting_means_wait_iff_spawnAndWait :
    ∃ system, runLabels singleStep boot spawnAndWait = some system ∧
      (WaitingMeansWait system ↔ leftover spawnAndWait = false ∨
        ∃ current, system.current () = some current ∧
          current.isInitialKernelThread = true ∧ current.frame = .spawn) :=
  ⟨_, rfl, waiting_means_wait_iff spawnAndWait _ rfl⟩

/-- After `Initialize` and a first `Spawn` the initial thread is waiting by its
state, suspended in `Spawn`; the `Yield(true)` of the spawned thread fails though
nobody is inside `Wait`. -/
theorem first_spawn_waits_outside_Wait :
    ∃ system current, runLabels singleStep boot
        [.initializeKernel, .spawn, .proceed] = some system ∧
      system.current () = some current ∧ current.frame = .code ∧
      yield system () current true .code = none ∧
      ¬ OthersInWait system current ∧ ¬ WaitingMeansWait system := by
  refine ⟨_, ⟨1, .kRunning, false, .code⟩, rfl, rfl, rfl, rfl, ?_, ?_⟩
  · intro others
    obtain ⟨thread, member, _, frame⟩ := others 0 (by decide) (by decide) (by decide)
    cases member with
    | head => cases frame
    | tail _ impossible => cases impossible
  · intro meaning
    have inside := (meaning.queued ⟨0, .kWaiting, true, .contextSwitch .spawn⟩
      (.head _)).mp rfl
    cases inside

end ChlorosSnfs.Chloros.WaitingState
