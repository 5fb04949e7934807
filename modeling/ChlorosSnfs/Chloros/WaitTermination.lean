import ChlorosSnfs.Chloros.Programs
import ChlorosSnfs.Chloros.WaitingState
import Mathlib.Algebra.BigOperators.Group.Finset.Basic

/-!
# Wait terminates

While the initial thread is inside `Wait`, control only comes back to its loop
after another thread has made a call or returned.  `work` is what all threads
together still have to do, nested programs included, and `phase` orders the
steps of the library between two of these calls; the size made of both falls
with every step until `Wait` returns.
-/

set_option autoImplicit false

namespace ChlorosSnfs.Chloros.WaitTermination

open ChlorosSnfs.Chloros.Scheduler
open ChlorosSnfs.Chloros.SingleKernel
open ChlorosSnfs.Chloros.WaitingState (insideWait yieldCall_insideWait
  yieldCall_wait)
open ChlorosSnfs.Chloros.Programs
open ChlorosSnfs.Library.Runs

/-! ## What is left to do -/

def weight : Program → Nat
  | .returns => 0
  | .yield _ rest => 1 + max (weight (rest true)) (weight (rest false))
  | .spawn child rest => 2 + weight child + weight rest

/-- The calls a thread may still make, and its return. -/
def owed : Option Program → Nat
  | none => 0
  | some program => 1 + weight program

def totalOwed (remaining : Nat → Option Program) (count : Nat) : Nat :=
  ∑ id ∈ Finset.range count, owed (remaining id)

def work (process : Process) : Nat :=
  totalOwed process.remaining process.system.nextId

theorem totalOwed_update (remaining : Nat → Option Program) {count id : Nat}
    (bound : id < count) (left : Option Program) :
    totalOwed (Function.update remaining id left) count + owed (remaining id) =
      totalOwed remaining count + owed left := by
  have member : id ∈ Finset.range count := Finset.mem_range.mpr bound
  have others : ∑ other ∈ (Finset.range count).erase id,
      owed (Function.update remaining id left other) =
        ∑ other ∈ (Finset.range count).erase id, owed (remaining other) := by
    refine Finset.sum_congr rfl fun other otherMember => ?_
    rw [Function.update_of_ne (Finset.ne_of_mem_erase otherMember)]
  unfold totalOwed
  rw [← Finset.add_sum_erase _ _ member, ← Finset.add_sum_erase _ _ member,
    others, Function.update_self]
  omega

theorem totalOwed_succ (remaining : Nat → Option Program) (count : Nat)
    (left : Option Program) :
    totalOwed (Function.update remaining count left) (count + 1) =
      totalOwed remaining count + owed left := by
  unfold totalOwed
  rw [Finset.sum_range_succ, Function.update_self]
  congr 1
  refine Finset.sum_congr rfl fun other member => ?_
  rw [Function.update_of_ne (Nat.ne_of_lt (Finset.mem_range.mp member))]

theorem weight_rest_lt (onlyReady result : Bool) (rest : Bool → Program) :
    weight (rest result) < weight (.yield onlyReady rest) := by
  cases result <;> simp only [weight] <;> omega

/-! ## The steps of the library -/

/-- How far the current thread is from the next call of a thread's code. -/
def phase (thread : Thread) : Nat :=
  match thread.frame with
  | .code | .startThread | .assertFailed => 0
  | .spawn => 1
  | .contextSwitch .wait => 3
  | .contextSwitch _ => 1
  | .waitLoop => 2
  | .threadEntry => 4

theorem phase_le (thread : Thread) : phase thread ≤ 4 := by
  unfold phase
  split <;> omega

/-- The initial thread is inside `Wait`. -/
def InWait (system : System Unit) (current : Thread) : Prop :=
  ∀ thread ∈ current :: system.threadQueue,
    thread.isInitialKernelThread = true → insideWait thread.frame = true

theorem InWait.current_spawned {system : System Unit} {current : Thread}
    (inWait : InWait system current) (outside : insideWait current.frame = false) :
    current.isInitialKernelThread = false := by
  rw [← Bool.not_eq_true]
  intro initial
  exact absurd (inWait current List.mem_cons_self initial)
    (by simp [outside])

/-- The `Yield` in the loop of `Wait` finds nobody. -/
def WaitReturns (system : System Unit) (current : Thread) : Prop :=
  current.frame = .waitLoop ∧ yield system () current true .wait = none

theorem phase_resumed_le {chosen : Thread}
    (alive : Settled chosen ∨ Created chosen) :
    phase (resumed chosen) ≤ 3 ∧
      (chosen.isInitialKernelThread = false → phase (resumed chosen) ≤ 1) := by
  rcases alive with ⟨suspended, notZombie⟩ | fresh
  · obtain ⟨caller, frame, fromWait, fromExit⟩ := suspended.frame
    cases caller with
    | code => simp [phase, resumed, frame]
    | spawn => simp [phase, resumed, frame]
    | wait => simp [phase, resumed, frame, fromWait rfl]
    | threadEntry => exact absurd (fromExit rfl) notZombie
  · simp [phase, resumed, fresh.frame]

theorem settled_or_created_of_eligible {system : System Unit}
    {current thread : Thread} {onlyReady : Bool}
    (consistent : Consistent system current)
    (member : thread ∈ system.threadQueue)
    (ready : eligible onlyReady thread = true) :
    Settled thread ∨ Created thread := by
  refine (consistent.queued thread member).imp_left fun suspended =>
    ⟨suspended, ?_⟩
  rcases eligible_iff.mp ready with state | ⟨state, _⟩ <;> simp [state]

/-- A `Yield` that switches keeps the initial thread inside `Wait`. -/
theorem InWait.switched {system next : System Unit} {current running : Thread}
    (inWait : InWait system current)
    {action : Action} {onlyReady : Bool} {caller : Caller} {failed : Frame}
    (called : yieldCall current action = some (onlyReady, caller, failed))
    (yielded : yield system () current onlyReady caller = some next)
    (nextConsistent : Consistent next running) : InWait next running := by
  obtain ⟨chosen, _, switched⟩ := switched_of_yield yielded
  obtain rfl : resumed chosen = running :=
    Option.some.inj (switched.current_eq.symm.trans nextConsistent.isCurrent)
  have chosenQueued : chosen ∈ system.threadQueue :=
    switched.split.symm.subset List.mem_cons_self
  intro thread member initial
  rcases List.mem_cons.mp member with rfl | queued
  · have inside := inWait chosen (List.mem_cons_of_mem _ chosenQueued) initial
    have notNew : chosen.frame ≠ .startThread := by
      intro new
      simp [new, insideWait] at inside
    simpa [resumed, notNew] using inside
  · rw [switched.queue_eq] at queued
    rcases List.mem_append.mp queued with old | last
    · exact inWait thread (List.mem_cons_of_mem _
        (switched.split.symm.subset (List.mem_cons_of_mem _ old))) initial
    · obtain rfl := List.mem_singleton.mp last
      have inside := inWait current List.mem_cons_self initial
      rw [← yieldCall_insideWait called] at inside
      exact inside

/-- While a spawned thread is current and stays it, nothing happens to the
initial one. -/
theorem InWait.of_spawned {system next : System Unit} {current running : Thread}
    (inWait : InWait system current) (spawned : running.isInitialKernelThread = false)
    (others : ∀ thread ∈ next.threadQueue, thread ∈ system.threadQueue ∨
      thread.isInitialKernelThread = false) : InWait next running := by
  intro thread member initial
  rcases List.mem_cons.mp member with rfl | queued
  · exact absurd (initial.symm.trans spawned) (by decide)
  · rcases others thread queued with old | new
    · exact inWait thread (List.mem_cons_of_mem _ old) initial
    · exact absurd (initial.symm.trans new) (by decide)

theorem InWait.step {system next : System Unit} {current running : Thread}
    (inWait : InWait system current) (consistent : Consistent system current)
    {action : Action} (stepped : singleStep system action = some next)
    (nextConsistent : Consistent next running) :
    InWait next running ∨ WaitReturns system current := by
  have isNext := nextConsistent.isCurrent
  simp only [singleStep, Option.ite_none_right_eq_some] at stepped
  obtain ⟨discipline, stepped⟩ := stepped
  have same : ∀ {other : Thread}, system.current () = some other →
      other = current := fun isOther =>
    Option.some.inj (isOther.symm.trans consistent.isCurrent)
  have codeOutside : insideWait .code = false := rfl
  cases transition_of_step stepped with
  | initializeKernel idle _ =>
      rw [consistent.isCurrent] at idle
      cases idle
  | spawn isCurrent inCode =>
      obtain rfl := same isCurrent
      obtain rfl := Option.some.inj ((setCurrent_current _ _ _).symm.trans isNext)
      refine Or.inl (inWait.of_spawned ?_ ?_)
      · exact inWait.current_spawned (by rw [inCode, codeOutside])
      · intro thread member
        rcases List.mem_cons.mp member with rfl | old
        · exact Or.inr rfl
        · exact Or.inl old
  | wait isCurrent inCode =>
      obtain rfl := same isCurrent
      have spawned := inWait.current_spawned (by rw [inCode, codeOutside])
      simp [disciplined, isCurrent, spawned] at discipline
  | exit isCurrent inCode spawned =>
      obtain rfl := same isCurrent
      obtain rfl := Option.some.inj ((setCurrent_current _ _ _).symm.trans isNext)
      exact Or.inl (inWait.of_spawned spawned fun thread member => Or.inl member)
  | leave _ _ _ => simp [disciplined] at discipline
  | @yielded yielder _ onlyReady caller failed isYielder called =>
      obtain rfl : yielder = current := same isYielder
      cases yielded : yield system () yielder onlyReady caller with
      | some switched =>
          simp only [yieldOr, yielded, Option.getD_some] at nextConsistent ⊢
          exact Or.inl (inWait.switched called yielded nextConsistent)
      | none =>
          simp only [yieldOr, yielded, Option.getD_none] at isNext ⊢
          obtain rfl :=
            Option.some.inj ((setCurrent_current _ _ _).symm.trans isNext)
          by_cases inLoop : caller = .wait
          · obtain ⟨_, waitFrame, waitCall⟩ := yieldCall_wait called
            rw [inLoop, (waitCall inLoop).1] at yielded
            exact Or.inr ⟨waitFrame.mp inLoop, yielded⟩
          · refine Or.inl (inWait.of_spawned ?_ fun thread member => Or.inl member)
            refine inWait.current_spawned ?_
            rw [← yieldCall_insideWait called]
            cases caller <;> simp_all [insideWait]
  | @returned switched caller isSwitched frame =>
      obtain rfl : switched = current := same isSwitched
      have collected : ∀ thread ∈ (garbageCollect system).threadQueue,
          thread ∈ system.threadQueue := fun thread member =>
        List.mem_of_mem_filter member
      by_cases inLoop : caller = .wait
      · subst inLoop
        obtain rfl :=
          Option.some.inj ((setCurrent_current _ _ _).symm.trans isNext)
        refine Or.inl fun thread member initial => ?_
        rcases List.mem_cons.mp member with rfl | queued
        · rfl
        · exact inWait thread
            (List.mem_cons_of_mem _ (collected thread queued)) initial
      · have spawned : switched.isInitialKernelThread = false := by
          refine inWait.current_spawned ?_
          rw [frame]
          cases caller <;> simp_all [insideWait]
        refine Or.inl (inWait.of_spawned ?_ ?_)
        · cases caller <;> simp [returnFromSwitch] at isNext <;>
            simp [← isNext, spawned]
        · intro thread member
          refine Or.inl (collected thread ?_)
          cases caller <;> exact member

theorem singleStep_proceed (system : System Unit) :
    singleStep system .proceed = step system () .proceed := rfl

/-- Inside a library call there is always a next step. -/
theorem exists_library_step {system : System Unit} {current : Thread}
    (consistent : Consistent system current) (outside : current.frame ≠ .code) :
    ∃ next, singleStep system .proceed = some next := by
  rw [singleStep_proceed, step, consistent.isCurrent]
  simp only [outside, if_false, if_true]
  have shape := consistent.shape
  cases shape with
  | code inCode => exact absurd inCode outside
  | spawn frame => simp [libraryStep, frame]
  | waitLoop frame => simp [libraryStep, frame]
  | threadEntry frame => simp [libraryStep, frame]
  | contextSwitch frame => simp [libraryStep, frame]

/-- What the thread switched to has before it. -/
theorem phase_of_switch {system next : System Unit} {current running : Thread}
    {onlyReady : Bool} {caller : Caller}
    (consistent : Consistent system current)
    (yielded : yield system () current onlyReady caller = some next)
    (nextConsistent : Consistent next running) :
    phase running ≤ 3 ∧
      (current.isInitialKernelThread = true → phase running ≤ 1) := by
  obtain ⟨chosen, _, switched⟩ := switched_of_yield yielded
  obtain rfl : resumed chosen = running :=
    Option.some.inj (switched.current_eq.symm.trans nextConsistent.isCurrent)
  have queued : chosen ∈ system.threadQueue :=
    switched.split.symm.subset List.mem_cons_self
  obtain ⟨small, smaller⟩ := phase_resumed_le
    (settled_or_created_of_eligible consistent queued switched.ready)
  exact ⟨small, fun initial =>
    smaller (consistent.accounts.not_initial initial chosen queued)⟩

theorem phase_descends {system next : System Unit} {current running : Thread}
    (consistent : Consistent system current) (outside : current.frame ≠ .code)
    (stepped : singleStep system .proceed = some next)
    (nextConsistent : Consistent next running) :
    phase running < phase current ∨ WaitReturns system current := by
  have isNext := nextConsistent.isCurrent
  rw [singleStep_proceed, step, consistent.isCurrent] at stepped
  simp only [outside, if_false, if_true] at stepped
  have shape := consistent.shape
  cases shape with
  | code inCode => exact absurd inCode outside
  | spawn frame =>
      obtain ⟨_, created, rest, queueExact, fresh, _⟩ :=
        consistent.shape.at_spawn frame
      simp only [libraryStep, frame, Option.some.injEq] at stepped
      subst stepped
      have found : system.threadQueue.find? (stopsScan current
          (system.kernel ()).initialThreadId true) = some created := by
        rw [queueExact, List.find?_cons_of_pos (fresh.stopsScan _ _ _)]
      rw [yieldOr, yield_of_find?_some .spawn found, Option.getD_some] at isNext
      obtain rfl :=
        Option.some.inj ((setCurrent_current _ _ _).symm.trans isNext)
      simp [phase, frame, resumed, fresh.frame]
  | waitLoop frame initial waiting settled =>
      simp only [libraryStep, frame, Option.some.injEq] at stepped
      subst stepped
      cases yielded : yield system () current true .wait with
      | none => exact Or.inr ⟨frame, yielded⟩
      | some switched =>
          simp only [yieldOr, yielded, Option.getD_some] at nextConsistent
          have small := (phase_of_switch consistent yielded nextConsistent).2 initial
          have here : phase current = 2 := by simp [phase, frame]
          omega
  | threadEntry frame spawned zombie settled =>
      simp only [libraryStep, frame, Option.some.injEq] at stepped
      subst stepped
      cases yielded : yield system () current false .threadEntry with
      | none =>
          simp only [yieldOr, yielded, Option.getD_none] at isNext
          obtain rfl :=
            Option.some.inj ((setCurrent_current _ _ _).symm.trans isNext)
          exact absurd rfl nextConsistent.shape.not_assertFailed
      | some switched =>
          simp only [yieldOr, yielded, Option.getD_some] at nextConsistent
          have small := (phase_of_switch consistent yielded nextConsistent).1
          have here : phase current = 4 := by simp [phase, frame]
          omega
  | @contextSwitch _ caller frame notExit fromWait working suspended =>
      simp only [libraryStep, frame, Option.some.injEq] at stepped
      subst stepped
      cases caller with
      | threadEntry => exact absurd rfl notExit
      | code =>
          obtain rfl :=
            Option.some.inj ((setCurrent_current _ _ _).symm.trans isNext)
          simp [phase, frame]
      | spawn =>
          obtain rfl :=
            Option.some.inj ((setCurrent_current _ _ _).symm.trans isNext)
          simp [phase, frame]
      | wait =>
          obtain rfl :=
            Option.some.inj ((setCurrent_current _ _ _).symm.trans isNext)
          simp [phase, frame]

/-! ## The steps of a process -/

def size (process : Process) : Nat :=
  5 * work process + (process.system.current ()).elim 0 phase

/-- A thread with a program can make its next call. -/
theorem exists_call {process : Process} (books : Books process) {current : Thread}
    (consistent : Consistent process.system current) (inCode : current.frame = .code)
    (spawned : current.isInitialKernelThread = false) :
    ∃ next, processStep process .proceed = some next := by
  have isCurrent := consistent.isCurrent
  have accounts := consistent.accounts
  have live : (process.remaining current.id).isSome = true := by
    refine (books.live current.id).mpr
      ⟨accounts.bounded current List.mem_cons_self, ?_, ?_⟩
    · intro ended
      have frame := consistent.finished_current ended
      simp [inCode] at frame
    · intro same
      have initial := (accounts.kinds current List.mem_cons_self).mpr same
      exact absurd (initial.symm.trans spawned) (by decide)
  obtain ⟨program, remains⟩ := Option.isSome_iff_exists.mp live
  simp only [processStep, isCurrent, Option.bind_eq_bind, Option.bind_some, inCode,
    spawned, remains]
  cases program with
  | returns =>
      simp [Process.returnCall, singleStep, disciplined, step, isCurrent, inCode,
        codeStep, spawned]
  | yield onlyReady rest =>
      simp [Process.yieldCall, singleStep, disciplined, step, isCurrent, inCode,
        codeStep]
  | spawn child rest =>
      simp [Process.spawnCall, singleStep, disciplined, step, isCurrent, inCode,
        codeStep]

/-- Every call of a thread with a program, and its return, is work done. -/
theorem work_of_made {process next : Process} {current : Thread}
    (consistent : Consistent process.system current) (inCode : current.frame = .code)
    (spawned : current.isInitialKernelThread = false)
    (made : Made process current next .proceed) : work next < work process := by
  have accounts := consistent.accounts
  have bound := accounts.bounded current List.mem_cons_self
  have hasProgram : ∀ {event : Event} {left : Option Program},
      Asked process current.id event left →
        ∃ program rest, process.remaining current.id = some program ∧
          left = some rest ∧ Follows program event rest := by
    intro event left asked
    refine asked.resolve_left fun initial => ?_
    have kind := (accounts.kinds current List.mem_cons_self).mpr initial.1
    exact absurd (kind.symm.trans spawned) (by decide)
  cases made with
  | @spawn _ child left _ asked called =>
      obtain ⟨system, stepped, rfl⟩ := Option.map_eq_some_iff.mp called
      obtain ⟨_, rest, remains, rfl, follows⟩ := hasProgram asked
      have nextId : system.nextId = process.system.nextId + 1 := by
        cases transition_of_step (step_of_singleStep stepped) with
        | spawn => rfl
        | yielded _ call => simp [Scheduler.yieldCall] at call
      have updated := totalOwed_update process.remaining bound (some rest)
      simp only [work, nextId, totalOwed_succ]
      rw [remains] at updated
      cases follows
      simp only [owed, weight] at updated ⊢
      omega
  | @yield _ onlyReady left _ asked called =>
      obtain ⟨system, stepped, rfl⟩ := Option.map_eq_some_iff.mp called
      obtain ⟨_, rest, remains, leftExact, follows⟩ := hasProgram (asked
        (yield process.system () current onlyReady .code).isSome)
      have same := sameAccounts_of_step stepped (by simp) (by simp) (by simp)
      have updated := totalOwed_update process.remaining bound (some rest)
      simp only [work, same.nextId, leftExact]
      rw [remains] at updated
      cases follows with
      | yield _ _ continuation =>
          have smaller := weight_rest_lt onlyReady
            (yield process.system () current onlyReady .code).isSome continuation
          simp only [owed] at updated ⊢
          omega
  | returned _ _ remains called =>
      obtain ⟨system, stepped, rfl⟩ := Option.map_eq_some_iff.mp called
      have nextId : system.nextId = process.system.nextId := by
        cases transition_of_step (step_of_singleStep stepped) with
        | exit => rfl
        | yielded _ call => simp [Scheduler.yieldCall] at call
      have updated := totalOwed_update process.remaining bound none
      simp only [work, nextId]
      rw [remains] at updated
      simp only [owed, weight] at updated
      omega
  | library outside => exact absurd inCode outside

/-- A process whose initial thread is inside `Wait`. -/
structure Waiting (initialId : Nat) (process : Process) : Prop where
  books : Books process
  initial : (process.system.kernel ()).initialThreadId = initialId
  inside : ∃ current, Consistent process.system current ∧
    InWait process.system current

/-- `Wait` has returned, and every other thread has finished. -/
structure Waited (initialId : Nat) (process : Process) : Prop where
  books : Books process
  initial : (process.system.kernel ()).initialThreadId = initialId
  back : ∃ main, process.system.current () = some main ∧ main.id = initialId ∧
    main.frame = .code
  finished : ∀ id < process.system.nextId, id ≠ initialId →
    id ∈ process.system.finished

theorem size_eq {process : Process} {current : Thread}
    (consistent : Consistent process.system current) :
    size process = 5 * work process + phase current := by
  simp [size, consistent.isCurrent]

theorem initialThreadId_of_step {system next : System Unit} {action : Action}
    {current : Thread} (isCurrent : system.current () = some current)
    (stepped : singleStep system action = some next) :
    (next.kernel ()).initialThreadId = (system.kernel ()).initialThreadId := by
  by_cases quiet : action = .spawn ∨ action = .exit
  · cases transition_of_step (step_of_singleStep stepped) with
    | initializeKernel idle => simp [isCurrent] at idle
    | spawn => simp [spawnInsert]
    | exit => simp
    | wait => simp at quiet
    | leave => simp at quiet
    | yielded _ call =>
        rcases quiet with rfl | rfl <;> simp [Scheduler.yieldCall] at call
    | returned => simp at quiet
  · rw [not_or] at quiet
    refine (sameAccounts_of_step stepped ?_ quiet.1 quiet.2).initial
    rintro rfl
    cases transition_of_step (step_of_singleStep stepped) with
    | initializeKernel idle => simp [isCurrent] at idle
    | yielded _ call => simp [Scheduler.yieldCall] at call

/-- A step of a process whose initial thread is inside `Wait`. -/
theorem Waiting.progress {initialId : Nat} (process : Process)
    (waiting : Waiting initialId process) :
    ∃ next, processStep process .proceed = some next ∧
      (Waited initialId next ∨
        (Waiting initialId next ∧ size next < size process)) := by
  have books := waiting.books
  obtain ⟨current, consistent, inWait⟩ := waiting.inside
  have isCurrent := consistent.isCurrent
  by_cases inCode : current.frame = .code
  · have spawned := inWait.current_spawned (by rw [inCode]; rfl)
    obtain ⟨next, stepped⟩ := exists_call books consistent inCode spawned
    obtain ⟨nextBooks, action, systemStep⟩ := books.next consistent stepped
    obtain ⟨running, nextConsistent⟩ := consistent.next systemStep
    have less := work_of_made consistent inCode spawned
      (made_of_step consistent stepped)
    refine ⟨next, stepped, Or.inr ⟨⟨nextBooks, ?_, running, nextConsistent, ?_⟩, ?_⟩⟩
    · rw [initialThreadId_of_step isCurrent systemStep, waiting.initial]
    · refine (inWait.step consistent systemStep nextConsistent).resolve_right ?_
      rintro ⟨frame, _⟩
      simp [inCode] at frame
    · have small := phase_le running
      rw [size_eq consistent, size_eq nextConsistent]
      omega
  · obtain ⟨system, systemStep⟩ := exists_library_step consistent inCode
    have stepped : processStep process .proceed =
        some { process with system } := by
      simp [processStep, isCurrent, inCode, Process.libraryCall, systemStep]
    have same := sameAccounts_of_step systemStep (by simp) (by simp) (by simp)
    have nextBooks := books.of_sameAccounts same
    have initialSame := same.initial.trans waiting.initial
    refine ⟨_, stepped, ?_⟩
    by_cases returns : WaitReturns process.system current
    · obtain ⟨frame, stayed⟩ := returns
      obtain ⟨initial, _, _⟩ := consistent.shape.at_waitLoop frame
      have initialId_eq :=
        (consistent.accounts.kinds current List.mem_cons_self).mp initial
      obtain ⟨_, finished⟩ := consistent.wait_returns frame stayed
      have system_eq : system = process.system.setCurrent ()
          (some { current with frame := .code }) := by
        rw [singleStep_proceed, step, isCurrent] at systemStep
        simpa [frame, libraryStep, yieldOr, stayed] using systemStep.symm
      refine Or.inl ⟨nextBooks, initialSame,
        ⟨{ current with frame := .code }, ?_, ?_, rfl⟩, ?_⟩
      · simp only [system_eq, setCurrent_current]
      · exact initialId_eq.trans waiting.initial
      · intro id bound other
        simp only [same.nextId] at bound
        rw [same.finished]
        refine finished id bound ?_
        rw [waiting.initial]
        exact other
    · obtain ⟨running, nextConsistent⟩ := consistent.next systemStep
      refine Or.inr ⟨⟨nextBooks, initialSame, running, nextConsistent, ?_⟩, ?_⟩
      · exact (inWait.step consistent systemStep nextConsistent).resolve_right returns
      · have small := (phase_descends consistent inCode systemStep
          nextConsistent).resolve_right returns
        have sameWork : work { process with system } = work process := by
          simp only [work, same.nextId]
        rw [size_eq consistent, size_eq nextConsistent, sameWork]
        omega

/-! ## Wait terminates -/

/-- `Wait` is back in the code of the initial thread, and every other thread
has made the calls of its program, each once and in order, and returned. -/
structure AllExecuted (initialId : Nat) (process : Process) : Prop where
  back : ∃ main, process.system.current () = some main ∧ main.id = initialId ∧
    main.frame = .code
  executed : ∀ id < process.system.nextId, id ≠ initialId →
    id ∈ process.system.finished ∧
      Executed (process.given id) (callsOf id process.calls) .returns
  spawned : ∀ caller child created,
    (caller, Event.spawn child created) ∈ process.calls →
      created < process.system.nextId ∧ created ≠ initialId ∧
        process.given created = child
  once : (createdBy process.calls).Nodup

theorem Waited.allExecuted {initialId : Nat} {process : Process}
    (waited : Waited initialId process) : AllExecuted initialId process := by
  have books := waited.books
  have initial := waited.initial
  refine ⟨waited.back, ?_, ?_, books.once⟩
  · intro id bound other
    have ended := waited.finished id bound other
    refine ⟨ended, ?_⟩
    have nothingLeft : process.remaining id = none := by
      rw [← Option.not_isSome_iff_eq_none, books.live id]
      exact fun live => live.2.1 ended
    have followed := books.followed id bound (by rw [initial]; exact other)
    rw [nothingLeft] at followed
    exact followed
  · simpa only [initial] using books.created

/-- The call of `Wait` puts the initial thread into its loop. -/
theorem waiting_of_call {process : Process} {main : Thread}
    (accounted : Accounted process)
    (isMain : process.system.current () = some main)
    (initial : main.isInitialKernelThread = true) (inCode : main.frame = .code) :
    ∃ waiting, processStep process .wait = some waiting ∧
      Waiting main.id waiting := by
  obtain ⟨current, consistent⟩ := accounted.consistent
  obtain rfl : current = main :=
    Option.some.inj (consistent.isCurrent.symm.trans isMain)
  have accounts := consistent.accounts
  have initialId := (accounts.kinds current List.mem_cons_self).mp initial
  have systemStep : singleStep process.system .wait = some
      (process.system.setCurrent ()
        (some { current with state := .kWaiting, frame := .waitLoop })) := by
    simp [singleStep, disciplined, step, isMain, inCode, initial, codeStep]
  have stepped : processStep process .wait = some { process with
      system := process.system.setCurrent ()
        (some { current with state := .kWaiting, frame := .waitLoop }) } := by
    simp [processStep, isMain, inCode, initial, Process.libraryCall, systemStep]
  refine ⟨_, stepped, ?_⟩
  obtain ⟨running, nextConsistent⟩ := consistent.next systemStep
  obtain rfl := Option.some.inj
    ((setCurrent_current _ _ _).symm.trans nextConsistent.isCurrent)
  have same := sameAccounts_of_step systemStep (by simp) (by simp) (by simp)
  refine ⟨accounted.books.of_sameAccounts same, ?_, _, nextConsistent, ?_⟩
  · exact same.initial.trans initialId.symm
  · intro thread member isInitial
    rcases List.mem_cons.mp member with rfl | queued
    · rfl
    · have spawned := accounts.not_initial initial thread queued
      exact absurd (isInitial.symm.trans spawned) (by decide)

/-- A call of `Wait` by the initial thread terminates from every reachable
process, whatever the programs of the other threads are. -/
theorem wait_terminates {choices : List Choice} {process : Process}
    (run : runLabels processStep startProcess choices = some process)
    {main : Thread} (isMain : process.system.current () = some main)
    (initial : main.isInitialKernelThread = true) (inCode : main.frame = .code) :
    ∃ waiting steps final, processStep process .wait = some waiting ∧
      runLabels processStep waiting (List.replicate steps .proceed) =
        some final ∧
      AllExecuted main.id final ∧ Extends process final := by
  have accounted := accounted_of_run run
  obtain ⟨waiting, called, isWaiting⟩ :=
    waiting_of_call accounted isMain initial inCode
  obtain ⟨steps, final, proceeded, waited⟩ :=
    exists_run_to_done size Waiting.progress isWaiting
  have wholeRun : runLabels processStep process
      (.wait :: List.replicate steps .proceed) = some final := by
    rw [runLabels_cons_eq_some]
    exact ⟨waiting, called, proceeded⟩
  exact ⟨waiting, steps, final, called, proceeded, waited.allExecuted,
    extends_of_run accounted wholeRun⟩

/-- A worker that yields both ways and spawns a helper in between. -/
def worker : Program :=
  .yield false fun _ => .spawn (.yield true fun _ => .returns)
    (.yield true fun _ => .returns)

/-- The initial thread spawns the worker and is back in its code when the
worker has yielded. -/
def spawnWorker : List Choice := [.spawn worker, .proceed, .proceed, .proceed]

set_option maxRecDepth 4000 in
theorem wait_terminates_spawnWorker :
    ∃ process main waiting steps final,
      runLabels processStep startProcess spawnWorker = some process ∧
      process.system.current () = some main ∧
      processStep process .wait = some waiting ∧
      runLabels processStep waiting (List.replicate steps .proceed) =
        some final ∧
      AllExecuted main.id final ∧ Extends process final := by
  obtain ⟨waiting, steps, final, rest⟩ :=
    @wait_terminates spawnWorker _ rfl _ rfl rfl rfl
  exact ⟨_, _, waiting, steps, final, rfl, rfl, rest⟩

end ChlorosSnfs.Chloros.WaitTermination
