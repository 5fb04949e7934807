import ChlorosSnfs.Chloros.KernelThreads
import ChlorosSnfs.Library.FirstMatch

/-!
# Round robin on one kernel thread

chloros.h asks that `Yield` behaves like a round-robin scheduler.  A queued
thread in state `kReady` stops every scan on its kernel thread, so a `Yield`
takes either it or one of the threads before it, and whoever yields goes behind
it.  `Passes` says what a step does to the threads before it; only the insertion
of `Spawn` adds one, and the `Yield` of that `Spawn` takes it away again.
-/

set_option autoImplicit false

namespace ChlorosSnfs.Chloros.RoundRobin

open ChlorosSnfs.Chloros.Scheduler
open ChlorosSnfs.Chloros.KernelThreads
open ChlorosSnfs.Library.FirstMatch
open ChlorosSnfs.Library.Holders
open ChlorosSnfs.Library.Runs

/-- A step of the only kernel thread. -/
def kernelStep (system : System Unit) (action : Action) :
    Option (System Unit) :=
  step system () action

def Scheduled (id : Nat) (system : System Unit) : Prop :=
  ∃ current, system.current () = some current ∧ current.id = id

def threadsBefore (system : System Unit) (id : Nat) : Nat :=
  system.threadQueue.findIdx fun thread => thread.id = id

/-- The step calls `Yield`, and not from `Spawn`. -/
def ownYield (system : System Unit) (action : Action) : Bool :=
  (system.current ()).any fun current =>
    (yieldCall current action).any fun call => call.2.1 ≠ .spawn

/-- The switch of the `Yield` a step calls; `none` when `Yield` returns false. -/
def performedYield (system : System Unit) (action : Action) :
    Option (System Unit) := do
  let current ← system.current ()
  let call ← yieldCall current action
  yield system () current call.1 call.2.1

/-- The current thread stands between the insertion and the `Yield` of
`Spawn`. -/
def inSpawn (system : System Unit) : Bool :=
  (system.current ()).any fun current => current.frame = .spawn

theorem kernelStep_sound {system next : System Unit} {action : Action}
    (sound : Sound system) (stepped : kernelStep system action = some next) :
    Sound next :=
  step_sound sound stepped

theorem sound_of_run {actions : List Action} {system : System Unit}
    (run : runLabels kernelStep boot actions = some system) : Sound system :=
  invariant_of_run (fun _ _ _ sound stepped => kernelStep_sound sound stepped)
    sound_boot run

/-! ## The scan -/

theorem threadsBefore_eq {system : System Unit} (sound : Sound system)
    {target : Thread} {before after : List Thread}
    (split : system.threadQueue = before ++ target :: after) :
    threadsBefore system target.id = before.length := by
  have distinct := sound.queue_distinct
  rw [split, List.map_append, List.map_cons, List.nodup_append] at distinct
  have absent : ∀ thread ∈ before, ¬ thread.id = target.id := by
    intro thread member same
    exact distinct.2.2 thread.id (List.mem_map_of_mem member) target.id
      List.mem_cons_self same
  unfold threadsBefore
  rw [split, List.findIdx_append]
  have notFound : before.findIdx (fun thread => thread.id = target.id) =
      before.length := by
    simpa [List.findIdx_eq_length] using absent
  simp [notFound, List.findIdx_cons]

/-- On one kernel thread the current thread is initial exactly when no initial
thread is queued. -/
theorem current_ne_initial {system : System Unit} (sound : Sound system)
    {current target : Thread} (isCurrent : system.current () = some current)
    (queued : target ∈ system.threadQueue)
    (initial : target.isInitialKernelThread = true) :
    current.id ≠ (system.kernel ()).initialThreadId := by
  have queuedInitials : 0 < Multiset.countP
      (·.isInitialKernelThread = true)
      (system.threadQueue : Multiset Thread) :=
    Multiset.countP_pos.mpr ⟨target, Multiset.mem_coe.mpr queued, initial⟩
  rw [sound.initials] at queuedInitials
  obtain ⟨thread, member, spawned⟩ := Multiset.countP_pos.mp queuedInitials
  obtain ⟨kernelThread, isThread⟩ := mem_gathered.mp member
  obtain rfl : current = thread :=
    Option.some.inj (isCurrent.symm.trans isThread)
  intro same
  refine sound.ledger.ownInitial current
    (mem_census.mpr (Or.inr ⟨(), isCurrent⟩)) spawned ?_
  exact ⟨(), sound.initialized () current isCurrent, same.symm⟩

/-- A ready thread of the queue stops every scan. -/
theorem stopsScan_of_ready {system : System Unit} (sound : Sound system)
    {current target : Thread} (isCurrent : system.current () = some current)
    (queued : target ∈ system.threadQueue) (ready : target.state = .kReady)
    (onlyReady : Bool) :
    stopsScan current (system.kernel ()).initialThreadId onlyReady target =
      true := by
  cases initial : target.isInitialKernelThread with
  | false => simp [stopsScan, eligible, ready, initial]
  | true =>
      have different := current_ne_initial sound isCurrent queued initial
      simp [stopsScan, eligible, ready, different]

/-! ## What a step does to the threads before a ready one -/

/-- What becomes of the threads before a ready one in a step that does not
schedule it. -/
inductive Passes (system next : System Unit) (before : List Thread) :
    Action → List Thread → Prop where
  | spawned {current created : Thread} :
      system.current () = some current → current.frame = .code →
      next.current () = some { current with frame := .spawn } →
      created.id = system.nextId →
      Passes system next before .spawn (created :: before)
  | switched {current chosen : Thread} {passed skipped : List Thread}
      {action : Action} {call : Bool × Caller × Frame} :
      system.current () = some current → yieldCall current action = some call →
      performedYield system action = some next →
      before = passed ++ chosen :: skipped → chosen ∈ system.threadQueue →
      next.current () = some (resumed chosen) → chosen.frame ≠ .spawn →
      Passes system next before action (passed ++ skipped)
  | other {action : Action} {fewer : List Thread} :
      fewer.Sublist before → ownYield system action = false →
      inSpawn system = false → inSpawn next = false →
      (∀ id, Scheduled id next → Scheduled id system ∨ id = system.nextId) →
      Passes system next before action fewer

theorem ownYield_of_call {system : System Unit} {current : Thread}
    {action : Action} (isCurrent : system.current () = some current)
    (call : yieldCall current action = none) :
    ownYield system action = false := by
  simp [ownYield, isCurrent, call]

theorem performedYield_of_call {system : System Unit} {current : Thread}
    {action : Action} {onlyReady : Bool} {caller : Caller} {failed : Frame}
    (isCurrent : system.current () = some current)
    (call : yieldCall current action = some (onlyReady, caller, failed)) :
    performedYield system action =
      yield system () current onlyReady caller := by
  simp [performedYield, isCurrent, call]

/-- A step that calls no `Yield` and leaves the current thread what it is. -/
theorem Passes.of_same_current {system next : System Unit}
    {current changed : Thread} {action : Action} {before fewer : List Thread}
    (sublist : fewer.Sublist before)
    (isCurrent : system.current () = some current)
    (noCall : yieldCall current action = none)
    (notSpawning : current.frame ≠ .spawn)
    (isChanged : next.current () = some changed)
    (sameId : changed.id = current.id) (stillNot : changed.frame ≠ .spawn) :
    Passes system next before action fewer := by
  refine .other sublist (ownYield_of_call isCurrent noCall) ?_ ?_ ?_
  · simp [inSpawn, isCurrent, notSpawning]
  · simp [inSpawn, isChanged, stillNot]
  · rintro id ⟨scheduled, isScheduled, rfl⟩
    obtain rfl : changed = scheduled :=
      Option.some.inj (isChanged.symm.trans isScheduled)
    exact Or.inl ⟨current, isCurrent, sameId.symm⟩

theorem not_spawn_of_queued {thread : Thread} (queued : Queued thread) :
    thread.frame ≠ .spawn := by
  rcases queued.frame with new | ⟨caller, suspended, _⟩
  · simp [new]
  · simp [suspended]

/-- A `Yield` schedules the ready thread or takes one of those before it. -/
theorem passes_of_yield {system : System Unit} (sound : Sound system)
    {current target : Thread} {before after : List Thread}
    (split : system.threadQueue = before ++ target :: after)
    (ready : target.state = .kReady)
    (isCurrent : system.current () = some current) {action : Action}
    {onlyReady : Bool} {caller : Caller} {failed : Frame}
    (call : yieldCall current action = some (onlyReady, caller, failed)) :
    ∃ next, performedYield system action = some next ∧
      (next.current () = some (resumed target) ∨
        ∃ fewer rest, next.threadQueue = fewer ++ target :: rest ∧
          Passes system next before action fewer) := by
  have queued : target ∈ system.threadQueue := by simp [split]
  have stops := stopsScan_of_ready sound isCurrent queued ready onlyReady
  have performed := performedYield_of_call isCurrent call
  rcases find?_of_passing before after stops with
    found | ⟨passed, chosen, skipped, beforeExact, found, erased⟩
  · rw [← split] at found
    rw [yield_of_find?_some caller found] at performed
    exact ⟨_, performed, Or.inl (by simp)⟩
  · rw [← split] at found erased
    rw [yield_of_find?_some caller found] at performed
    have member := List.mem_of_find?_eq_some found
    refine ⟨_, performed, Or.inr
      ⟨passed ++ skipped, after ++ [enqueued current caller], ?_, ?_⟩⟩
    · simp [erased]
    · exact .switched isCurrent call performed beforeExact member (by simp)
        (not_spawn_of_queued (sound.queued chosen member))

theorem passes_of_step {system next : System Unit} (sound : Sound system)
    {target : Thread} {before after : List Thread}
    (split : system.threadQueue = before ++ target :: after)
    (ready : target.state = .kReady) {action : Action}
    (stepped : kernelStep system action = some next) :
    Scheduled target.id next ∨
      ∃ fewer rest, next.threadQueue = fewer ++ target :: rest ∧
        Passes system next before action fewer := by
  cases transition_of_step stepped with
  | initializeKernel idle _ =>
      refine Or.inr ⟨before, after, split, .other (List.Sublist.refl _) ?_ ?_ ?_ ?_⟩
      · simp [ownYield, idle]
      · simp [inSpawn, idle]
      · simp [inSpawn, System.current, initializeKernel]
      · rintro id ⟨scheduled, isScheduled, rfl⟩
        simp only [System.current, initializeKernel, Function.update_self,
          Option.some.injEq] at isScheduled
        exact Or.inr (by rw [← isScheduled])
  | spawn isCurrent inCode =>
      refine Or.inr ⟨⟨system.nextId, .kReady, false, .startThread⟩ :: before,
        after, ?_, .spawned isCurrent inCode ?_ rfl⟩
      · simp [spawnInsert, split]
      · simp [spawnInsert]
  | wait isCurrent inCode =>
      exact Or.inr ⟨before, after, split, .of_same_current (List.Sublist.refl _)
        isCurrent (by simp [yieldCall, inCode]) (by simp [inCode])
        (setCurrent_current _ _ _) rfl (by simp)⟩
  | exit isCurrent inCode _ =>
      exact Or.inr ⟨before, after, split, .of_same_current (List.Sublist.refl _)
        isCurrent (by simp [yieldCall, inCode]) (by simp [inCode])
        (setCurrent_current _ _ _) rfl (by simp)⟩
  | leave isCurrent inCode _ =>
      refine Or.inr ⟨before, after, split, .other (List.Sublist.refl _)
        (ownYield_of_call isCurrent (by simp [yieldCall, inCode])) ?_ ?_ ?_⟩
      · simp [inSpawn, isCurrent, inCode]
      · simp [inSpawn]
      · rintro id ⟨scheduled, isScheduled, _⟩
        simp at isScheduled
  | yielded isCurrent call =>
      obtain ⟨switched, performed, result⟩ :=
        passes_of_yield sound split ready isCurrent call
      rw [performedYield_of_call isCurrent call] at performed
      simp only [yieldOr, performed, Option.getD_some]
      refine result.imp_left fun resumedTarget => ?_
      exact ⟨resumed target, resumedTarget, rfl⟩
  | @returned current caller isCurrent frame =>
      have alive : target.state ≠ .kZombie := by simp [ready]
      have collected : (garbageCollect system).threadQueue =
          before.filter (·.state ≠ .kZombie) ++
            target :: after.filter (·.state ≠ .kZombie) := by
        simp [garbageCollect, split, alive]
      refine Or.inr ⟨before.filter (·.state ≠ .kZombie),
        after.filter (·.state ≠ .kZombie), ?_, ?_⟩
      · cases caller <;> exact collected
      · cases caller <;> exact .of_same_current List.filter_sublist isCurrent
          (by simp [yieldCall, frame]) (by simp [frame])
          (setCurrent_current _ _ _) rfl (by simp)

/-! ## The number of threads before a ready one -/

theorem yieldCall_spawn_iff {current : Thread} {action : Action}
    {call : Bool × Caller × Frame} (called : yieldCall current action = some call) :
    call.2.1 = .spawn ↔ current.frame = .spawn := by
  unfold yieldCall at called
  split at called
  case h_5 => cases called
  all_goals
    rename_i frame
    cases called
    simp [frame]

/-- The threads before the one with the id, less the one a `Spawn` is about to
switch to. -/
def rank (id : Nat) (system : System Unit) : Nat :=
  threadsBefore system id - if inSpawn system then 1 else 0

/-- The thread is queued in a sound system. -/
structure Waits (target : Thread) (system : System Unit) : Prop where
  sound : Sound system
  queued : target ∈ system.threadQueue

theorem Passes.length_le {system next : System Unit} {action : Action}
    {before fewer : List Thread}
    (passes : Passes system next before action fewer) :
    fewer.length - (if inSpawn next then 1 else 0) +
        (if ownYield system action then 1 else 0) ≤
      before.length - if inSpawn system then 1 else 0 := by
  cases passes with
  | spawned isCurrent inCode isNext _ =>
      have noYield : ownYield system .spawn = false :=
        ownYield_of_call isCurrent (by simp [yieldCall, inCode])
      simp [inSpawn, isCurrent, inCode, isNext, noYield]
  | @switched current chosen passed skipped _ call isCurrent called _ split _
      isNext notSpawning =>
      have notInSpawn : inSpawn next = false := by
        by_cases new : chosen.frame = .startThread
        · simp [inSpawn, isNext, resumed, new]
        · simp [inSpawn, isNext, resumed, new, notSpawning]
      have kind := yieldCall_spawn_iff called
      rw [split, notInSpawn]
      by_cases spawning : current.frame = .spawn
      · simp [ownYield, inSpawn, isCurrent, called, spawning, kind.mpr spawning]
      · have isOwn : ownYield system action = true := by
          simp [ownYield, isCurrent, called, spawning, kind]
        have outside : inSpawn system = false := by
          simp [inSpawn, isCurrent, spawning]
        simp only [isOwn, outside, List.length_append, List.length_cons,
          Bool.false_eq_true, if_true, if_false]
        omega
  | other sublist noYield notSpawning stillNot _ =>
      have shorter := sublist.length_le
      simp only [noYield, notSpawning, stillNot, Bool.false_eq_true, if_false]
      omega

theorem Passes.length_lt {system next : System Unit} {action : Action}
    {before fewer : List Thread}
    (passes : Passes system next before action fewer)
    (yields : ownYield system action = true) : fewer.length < before.length := by
  cases passes with
  | spawned isCurrent inCode _ _ =>
      rw [ownYield_of_call isCurrent (by simp [yieldCall, inCode])] at yields
      cases yields
  | switched _ _ _ split _ _ _ => simp [split]
  | other _ noYield _ _ _ =>
      rw [noYield] at yields
      cases yields

theorem rank_descends {target : Thread} (ready : target.state = .kReady)
    (system : System Unit) (action : Action) (next : System Unit)
    (waits : Waits target system) (stepped : kernelStep system action = some next)
    (notScheduled : ¬ Scheduled target.id next) :
    Waits target next ∧
      rank target.id next + (if ownYield system action then 1 else 0) ≤
        rank target.id system := by
  obtain ⟨before, after, split⟩ := List.append_of_mem waits.queued
  have sound := kernelStep_sound waits.sound stepped
  rcases passes_of_step waits.sound split ready stepped with
    scheduled | ⟨fewer, rest, nextSplit, passes⟩
  · exact absurd scheduled notScheduled
  · refine ⟨⟨sound, by simp [nextSplit]⟩, ?_⟩
    unfold rank
    rw [threadsBefore_eq waits.sound split, threadsBefore_eq sound nextSplit]
    exact passes.length_le

/-! ## The order of the queue -/

/-- The thread with the id `later` is neither current nor before the target. -/
structure Behind (target : Thread) (later : Nat) (system : System Unit) :
    Prop where
  sound : Sound system
  bounded : later < system.nextId
  notCurrent : ¬ Scheduled later system
  notBefore : ∃ before after, system.threadQueue = before ++ target :: after ∧
    ∀ thread ∈ before, thread.id ≠ later

theorem Behind.step {target : Thread} {later : Nat} {system next : System Unit}
    {action : Action} (behind : Behind target later system)
    (ready : target.state = .kReady)
    (stepped : kernelStep system action = some next)
    (notScheduled : ¬ Scheduled target.id next) : Behind target later next := by
  obtain ⟨before, after, split, notBefore⟩ := behind.notBefore
  have bounded := behind.bounded
  rcases passes_of_step behind.sound split ready stepped with
    scheduled | ⟨fewer, rest, nextSplit, passes⟩
  · exact absurd scheduled notScheduled
  refine ⟨kernelStep_sound behind.sound stepped,
    Nat.lt_of_lt_of_le bounded (nextId_le_of_step stepped), ?_,
    fewer, rest, nextSplit, ?_⟩
  · cases passes with
    | spawned isCurrent _ isNext _ =>
        rintro ⟨scheduled, isScheduled, same⟩
        cases Option.some.inj (isNext.symm.trans isScheduled)
        exact behind.notCurrent ⟨_, isCurrent, same⟩
    | @switched _ chosen _ _ _ _ _ _ _ beforeExact _ isNext _ =>
        rintro ⟨scheduled, isScheduled, same⟩
        cases Option.some.inj (isNext.symm.trans isScheduled)
        exact notBefore chosen (by simp [beforeExact]) same
    | other _ _ _ _ origin =>
        intro scheduled
        rcases origin later scheduled with old | new
        · exact behind.notCurrent old
        · omega
  · cases passes with
    | spawned _ _ _ fresh =>
        intro thread member
        rcases List.mem_cons.mp member with rfl | old
        · omega
        · exact notBefore thread old
    | switched _ _ _ beforeExact _ _ _ =>
        intro thread member
        apply notBefore thread
        rw [beforeExact]
        rcases List.mem_append.mp member with front | back
        · exact List.mem_append_left _ front
        · exact List.mem_append_right _ (List.mem_cons_of_mem _ back)
    | other sublist _ _ _ _ =>
        intro thread member
        exact notBefore thread (sublist.subset member)

/-- A thread behind a ready one is not scheduled before it. -/
theorem Behind.not_before {target : Thread} {later : Nat}
    {system final : System Unit} {continuation : List Action}
    (behind : Behind target later system) (ready : target.state = .kReady)
    (continues : runLabels kernelStep system continuation = some final)
    (scheduled : Scheduled later final) :
    Sometime kernelStep (Scheduled target.id) system continuation := by
  rw [← not_everywhere_not_iff]
  intro everywhere
  have last : Behind target later final := invariant_of_guarded_run
    (fun _ _ next holds guarded stepped =>
      Behind.step holds ready stepped (guarded.2 next stepped))
    behind everywhere.everyStep continues
  exact last.notCurrent scheduled

/-- Whoever yields goes behind every ready thread of the queue. -/
theorem behind_of_yield {target later : Thread} {system next : System Unit}
    {action : Action} (sound : Sound system) (queued : target ∈ system.threadQueue)
    (ready : target.state = .kReady) (isCurrent : system.current () = some later)
    (yields : ownYield system action = true)
    (stepped : kernelStep system action = some next)
    (notScheduled : ¬ Scheduled target.id next) : Behind target later.id next := by
  obtain ⟨before, after, split⟩ := List.append_of_mem queued
  have elsewhere : ∀ thread ∈ system.threadQueue, thread.id ≠ later.id :=
    fun thread member => sound.current_not_queued isCurrent member
  rcases passes_of_step sound split ready stepped with
    scheduled | ⟨fewer, rest, nextSplit, passes⟩
  · exact absurd scheduled notScheduled
  cases passes with
  | spawned isSpawner inCode _ _ =>
      rw [ownYield_of_call isSpawner (by simp [yieldCall, inCode])] at yields
      cases yields
  | other _ noYield _ _ _ =>
      rw [noYield] at yields
      cases yields
  | @switched _ chosen passed skipped _ _ _ _ _ beforeExact member isNext _ =>
      refine ⟨kernelStep_sound sound stepped, ?_, ?_, _, rest, nextSplit, ?_⟩
      · have bound := sound.ledger.bounded later
          (mem_census.mpr (Or.inr ⟨(), isCurrent⟩))
        exact Nat.lt_of_lt_of_le bound (nextId_le_of_step stepped)
      · rintro ⟨scheduled, isScheduled, same⟩
        cases Option.some.inj (isNext.symm.trans isScheduled)
        exact elsewhere chosen member same
      · intro thread remains
        refine elsewhere thread ?_
        rw [split, beforeExact]
        rcases List.mem_append.mp remains with front | back
        · simp [front]
        · simp [back]

/-! ## A Spawn -/

/-- The `Yield` of a `Spawn` that follows its insertion takes the thread just
inserted. -/
theorem spawn_keeps_place {system spawning next : System Unit} {target : Thread}
    (sound : Sound system) (queued : target ∈ system.threadQueue)
    (inserted : kernelStep system .spawn = some spawning)
    (switched : kernelStep spawning .proceed = some next) :
    target ∈ next.threadQueue ∧
      threadsBefore next target.id = threadsBefore system target.id := by
  obtain ⟨before, after, split⟩ := List.append_of_mem queued
  have spawningSound := kernelStep_sound sound inserted
  have nextSound := kernelStep_sound spawningSound switched
  have threads : ∃ current, next.threadQueue =
      before ++ target :: (after ++ [enqueued current .spawn]) := by
    cases transition_of_step inserted with
    | yielded _ call => simp [yieldCall] at call
    | @spawn current isCurrent inCode =>
        refine ⟨{ current with frame := .spawn }, ?_⟩
        have isSpawner : (spawnInsert system () current).current () =
            some { current with frame := .spawn } := by simp [spawnInsert]
        have call : yieldCall { current with frame := .spawn } .proceed =
            some (true, .spawn, .code) := rfl
        have stops : ∀ rest, (spawnInsert system () current).threadQueue.find?
            (stopsScan { current with frame := .spawn } rest true) =
              some ⟨system.nextId, .kReady, false, .startThread⟩ := by
          intro rest
          simp [spawnInsert, stopsScan, eligible]
        rw [kernelStep, step_of_yieldCall isSpawner call, yieldOr,
          yield_of_find?_some _ (stops _)] at switched
        cases switched
        simp [spawnInsert, stopsScan, eligible, split]
  obtain ⟨current, threads⟩ := threads
  refine ⟨by simp [threads], ?_⟩
  rw [threadsBefore_eq sound split, threadsBefore_eq nextSound threads]

/-! ## The law -/

/-- In every program of one kernel thread, and for every thread that is ready
in the queue at some point: as long as it has not been scheduled it stays there
ready, each `Yield` but that of a `Spawn` succeeds and schedules it or brings
it at least one place forward, and a `Spawn` leaves it at its place.  It is
therefore scheduled at the latest by as many of these `Yield`s as there are
threads before it, and one more; and a thread that yields while it waits is not
scheduled before it. -/
theorem round_robin_without_overtaking (actions : List Action)
    (system : System Unit) (run : runLabels kernelStep boot actions = some system)
    (target : Thread) (queued : target ∈ system.threadQueue)
    (ready : target.state = .kReady) :
    (∀ continuation final,
      runLabels kernelStep system continuation = some final →
      Everywhere kernelStep (fun state => ¬ Scheduled target.id state) system
        continuation →
      target ∈ final.threadQueue ∧
      (∀ action, ownYield final action = true →
        ∃ next, performedYield final action = some next ∧
          kernelStep final action = some next ∧
          (Scheduled target.id next ∨
            threadsBefore next target.id < threadsBefore final target.id)) ∧
      (∀ spawning next, kernelStep final .spawn = some spawning →
        kernelStep spawning .proceed = some next →
          target ∈ next.threadQueue ∧
            threadsBefore next target.id = threadsBefore final target.id)) ∧
    (∀ continuation final,
      runLabels kernelStep system continuation = some final →
      threadsBefore system target.id <
        countSteps kernelStep ownYield system continuation →
      Sometime kernelStep (Scheduled target.id) system continuation) ∧
    (∀ action later next, system.current () = some later →
      ownYield system action = true → kernelStep system action = some next →
      ∀ continuation final, runLabels kernelStep next continuation = some final →
        Scheduled later.id final →
          Sometime kernelStep (Scheduled target.id) next continuation) := by
  have sound := sound_of_run run
  have waits : Waits target system := ⟨sound, queued⟩
  refine ⟨?_, ?_, ?_⟩
  · intro continuation final continues unscheduled
    obtain ⟨last, _⟩ :=
      rank_add_countSteps_le (rank_descends ready) waits unscheduled continues
    refine ⟨last.queued, ?_, ?_⟩
    · intro action yields
      obtain ⟨before, after, split⟩ := List.append_of_mem last.queued
      obtain ⟨current, isCurrent, called⟩ := Option.any_eq_true .. |>.mp yields
      obtain ⟨⟨onlyReady, caller, failed⟩, call, notSpawn⟩ :=
        Option.any_eq_true .. |>.mp called
      obtain ⟨next, performed, result⟩ :=
        passes_of_yield last.sound split ready isCurrent call
      have stepped : kernelStep final action = some next := by
        rw [performedYield_of_call isCurrent call] at performed
        rw [kernelStep, step_of_yieldCall isCurrent call, yieldOr, performed,
          Option.getD_some]
      refine ⟨next, performed, stepped, ?_⟩
      rcases result with resumedTarget | ⟨fewer, rest, nextSplit, passes⟩
      · exact Or.inl ⟨_, resumedTarget, rfl⟩
      · right
        rw [threadsBefore_eq last.sound split, threadsBefore_eq
          (kernelStep_sound last.sound stepped) nextSplit]
        exact passes.length_lt yields
    · intro spawning next inserted switched
      exact spawn_keeps_place last.sound last.queued inserted switched
  · intro continuation final continues often
    rw [← not_everywhere_not_iff]
    intro unscheduled
    have bound := (rank_add_countSteps_le (rank_descends ready) waits
      unscheduled continues).2
    have rank_le : rank target.id system ≤ threadsBefore system target.id :=
      Nat.sub_le _ _
    omega
  · intro action later next isCurrent yields stepped continuation final
      continues scheduled
    by_cases already : Scheduled target.id next
    · exact Sometime.of_head continuation already
    · exact (behind_of_yield sound queued ready isCurrent yields stepped
        already).not_before ready continues scheduled

/-- The initial thread spawns a thread, which spawns another. -/
def twoSpawned : List Action :=
  [.initializeKernel, .spawn, .proceed, .spawn, .proceed]

/-- The second thread yields to the initial one, that one to the first. -/
def twoYields : List Action := [.yield false, .proceed, .yield true]

theorem round_robin_without_overtaking_twoSpawned :
    ∃ system target, runLabels kernelStep boot twoSpawned = some system ∧
      target ∈ system.threadQueue ∧ target.state = .kReady ∧
      threadsBefore system target.id = 1 ∧
      Sometime kernelStep (Scheduled target.id) system twoYields := by
  refine ⟨_, ⟨1, .kReady, false, .contextSwitch .spawn⟩, rfl,
    .tail _ (.head _), rfl, rfl, ?_⟩
  exact (round_robin_without_overtaking twoSpawned _ rfl _
    (.tail _ (.head _)) rfl).2.1 twoYields _ rfl (by decide)

end ChlorosSnfs.Chloros.RoundRobin
