import ChlorosSnfs.Chloros.SingleKernel
import ChlorosSnfs.Library.Holders

/-!
# Any number of kernel threads: what no interleaving changes

Green threads migrate between the shared queue and the kernel threads, but none
is doubled, the finished ones are the zombies, and a spawned thread that has
not finished is still somewhere.  `Ledger` keeps these accounts of all threads
at once, `Queued` and `OnKernel` say in what state and at what frame a thread
can be where it is, and initial threads are counted: as many are queued as
spawned threads are on kernel threads.
-/

set_option autoImplicit false

namespace ChlorosSnfs.Chloros.KernelThreads

open ChlorosSnfs.Chloros.Scheduler
open ChlorosSnfs.Chloros.SingleKernel (signature signature_resumed
  signature_enqueued perm_cons_eraseP_of_find? eligible_iff
  eligible_of_stopsScan)
open ChlorosSnfs.Library.Holders
open ChlorosSnfs.Library.Runs

/-! ## Accounts of all threads -/

/-- `threads` has no id twice, its zombies are the finished threads, and every
spawned thread that has not finished is in it.  `own` holds the ids recorded in
an `initial_thread_id`. -/
structure Ledger (threads : Multiset Thread) (nextId : Nat)
    (finished : List Nat) (spawned : List (Nat × Nat)) (own : Set Nat) :
    Prop where
  distinct : (threads.map Thread.id).Nodup
  bounded : ∀ thread ∈ threads, thread.id < nextId
  zombies : ∀ thread ∈ threads, thread.state = .kZombie ↔ thread.id ∈ finished
  finishedBounded : ∀ id ∈ finished, id < nextId
  spawnedBounded : ∀ pair ∈ spawned, pair.2 < nextId
  spawnedKind : ∀ pair ∈ spawned, ∀ thread ∈ threads, thread.id = pair.2 →
    thread.isInitialKernelThread = false
  conserved : ∀ pair ∈ spawned, pair.2 ∉ finished →
    ∃ thread ∈ threads, thread.id = pair.2
  ownBounded : ∀ id ∈ own, id < nextId
  ownInitial : ∀ thread ∈ threads, thread.isInitialKernelThread = false →
    thread.id ∉ own

namespace Ledger

variable {threads changed : Multiset Thread} {nextId : Nat}
  {finished : List Nat} {spawned : List (Nat × Nat)} {own : Set Nat}

theorem of_signatures (ledger : Ledger threads nextId finished spawned own)
    (same : changed.map signature = threads.map signature) :
    Ledger changed nextId finished spawned own := by
  have sameIds : changed.map Thread.id = threads.map Thread.id := by
    have ids := congrArg (Multiset.map Prod.fst) same
    simpa [Multiset.map_map, Function.comp_def, signature] using ids
  have origin : ∀ thread ∈ changed, ∃ old ∈ threads,
      signature old = signature thread := by
    intro thread member
    have signed := Multiset.mem_map_of_mem signature member
    rw [same] at signed
    exact Multiset.mem_map.mp signed
  constructor
  · rw [sameIds]
    exact ledger.distinct
  · intro thread member
    obtain ⟨old, oldMember, oldSame⟩ := origin thread member
    simp only [signature, Prod.mk.injEq] at oldSame
    rw [← oldSame.1]
    exact ledger.bounded old oldMember
  · intro thread member
    obtain ⟨old, oldMember, oldSame⟩ := origin thread member
    simp only [signature, Prod.mk.injEq, decide_eq_decide] at oldSame
    rw [← oldSame.1, ← oldSame.2.2]
    exact ledger.zombies old oldMember
  · exact ledger.finishedBounded
  · exact ledger.spawnedBounded
  · intro pair pairMember thread member named
    obtain ⟨old, oldMember, oldSame⟩ := origin thread member
    simp only [signature, Prod.mk.injEq] at oldSame
    rw [← oldSame.2.1]
    exact ledger.spawnedKind pair pairMember old oldMember
      (oldSame.1.trans named)
  · intro pair pairMember open_
    obtain ⟨old, oldMember, named⟩ := ledger.conserved pair pairMember open_
    have kept : old.id ∈ changed.map Thread.id := by
      rw [sameIds]
      exact Multiset.mem_map_of_mem Thread.id oldMember
    obtain ⟨thread, member, sameId⟩ := Multiset.mem_map.mp kept
    exact ⟨thread, member, sameId.trans named⟩
  · exact ledger.ownBounded
  · intro thread member notInitial
    obtain ⟨old, oldMember, oldSame⟩ := origin thread member
    simp only [signature, Prod.mk.injEq] at oldSame
    rw [← oldSame.1]
    exact ledger.ownInitial old oldMember (oldSame.2.1.trans notInitial)

/-- A new thread takes the next id.  Its id is an `initial_thread_id` only if
it is initial, and it has a spawner only if it is not. -/
theorem create (ledger : Ledger threads nextId finished spawned own)
    {created : Thread} {moreSpawned : List (Nat × Nat)} {moreOwn : Set Nat}
    (id_eq : created.id = nextId) (alive : created.state ≠ .kZombie)
    (spawnedExact : ∀ pair ∈ moreSpawned, pair ∈ spawned ∨
      (pair.2 = nextId ∧ created.isInitialKernelThread = false))
    (ownExact : ∀ id ∈ moreOwn, id ∈ own ∨
      (id = nextId ∧ created.isInitialKernelThread = true)) :
    Ledger (created ::ₘ threads) (nextId + 1) finished moreSpawned moreOwn := by
  have older : ∀ thread ∈ threads, thread.id ≠ nextId := by
    intro thread member
    exact Nat.ne_of_lt (ledger.bounded thread member)
  constructor
  · rw [Multiset.map_cons, Multiset.nodup_cons]
    refine ⟨?_, ledger.distinct⟩
    intro repeated
    obtain ⟨thread, member, sameId⟩ := Multiset.mem_map.mp repeated
    exact older thread member (sameId.trans id_eq)
  · intro thread member
    rcases Multiset.mem_cons.mp member with rfl | old
    · omega
    · exact Nat.lt_succ_of_lt (ledger.bounded thread old)
  · intro thread member
    rcases Multiset.mem_cons.mp member with rfl | old
    · refine iff_of_false alive fun ended => ?_
      have bound := ledger.finishedBounded _ ended
      omega
    · exact ledger.zombies thread old
  · intro id ended
    exact Nat.lt_succ_of_lt (ledger.finishedBounded id ended)
  · intro pair pairMember
    rcases spawnedExact pair pairMember with old | ⟨new, _⟩
    · exact Nat.lt_succ_of_lt (ledger.spawnedBounded pair old)
    · omega
  · intro pair pairMember thread member named
    rcases spawnedExact pair pairMember with oldPair | ⟨newPair, notInitial⟩
    · rcases Multiset.mem_cons.mp member with rfl | old
      · have bound := ledger.spawnedBounded pair oldPair
        omega
      · exact ledger.spawnedKind pair oldPair thread old named
    · rcases Multiset.mem_cons.mp member with rfl | old
      · exact notInitial
      · exact absurd (named.trans newPair) (older thread old)
  · intro pair pairMember open_
    rcases spawnedExact pair pairMember with oldPair | ⟨newPair, _⟩
    · obtain ⟨thread, member, named⟩ := ledger.conserved pair oldPair open_
      exact ⟨thread, Multiset.mem_cons_of_mem member, named⟩
    · exact ⟨created, Multiset.mem_cons_self _ _, id_eq.trans newPair.symm⟩
  · intro id recorded
    rcases ownExact id recorded with old | ⟨new, _⟩
    · exact Nat.lt_succ_of_lt (ledger.ownBounded id old)
    · omega
  · intro thread member notInitial recorded
    rcases ownExact thread.id recorded with oldId | ⟨newId, initial⟩
    · rcases Multiset.mem_cons.mp member with rfl | old
      · have bound := ledger.ownBounded _ oldId
        omega
      · exact ledger.ownInitial thread old notInitial oldId
    · rcases Multiset.mem_cons.mp member with rfl | old
      · exact absurd (initial.symm.trans notInitial) (by decide)
      · exact older thread old newId

/-- The thread at the head returns from its function. -/
theorem finish {current ended : Thread}
    (ledger : Ledger (current ::ₘ threads) nextId finished spawned own)
    (sameId : ended.id = current.id) (zombie : ended.state = .kZombie)
    (sameKind : ended.isInitialKernelThread = current.isInitialKernelThread) :
    Ledger (ended ::ₘ threads) nextId (current.id :: finished) spawned own := by
  have ownId : current.id < nextId :=
    ledger.bounded current (Multiset.mem_cons_self _ _)
  have others : ∀ thread ∈ threads, thread.id ≠ current.id := by
    have distinct := ledger.distinct
    rw [Multiset.map_cons, Multiset.nodup_cons] at distinct
    intro thread member sameAsCurrent
    exact distinct.1 (Multiset.mem_map.mpr ⟨thread, member, sameAsCurrent⟩)
  have kept : ∀ thread ∈ threads, thread ∈ current ::ₘ threads :=
    fun thread member => Multiset.mem_cons_of_mem member
  constructor
  · have distinct := ledger.distinct
    rw [Multiset.map_cons] at distinct ⊢
    rwa [sameId]
  · intro thread member
    rcases Multiset.mem_cons.mp member with rfl | old
    · omega
    · exact ledger.bounded thread (kept thread old)
  · intro thread member
    rcases Multiset.mem_cons.mp member with rfl | old
    · simp [zombie, sameId]
    · simp only [List.mem_cons, others thread old, false_or]
      exact ledger.zombies thread (kept thread old)
  · intro id member
    rcases List.mem_cons.mp member with rfl | old
    · exact ownId
    · exact ledger.finishedBounded id old
  · exact ledger.spawnedBounded
  · intro pair pairMember thread member named
    rcases Multiset.mem_cons.mp member with rfl | old
    · rw [sameKind]
      exact ledger.spawnedKind pair pairMember current
        (Multiset.mem_cons_self _ _) (sameId.symm.trans named)
    · exact ledger.spawnedKind pair pairMember thread (kept thread old) named
  · intro pair pairMember open_
    obtain ⟨thread, member, named⟩ := ledger.conserved pair pairMember
      fun old => open_ (List.mem_cons_of_mem _ old)
    rcases Multiset.mem_cons.mp member with rfl | old
    · exact absurd (named ▸ List.mem_cons_self) open_
    · exact ⟨thread, Multiset.mem_cons_of_mem old, named⟩
  · exact ledger.ownBounded
  · intro thread member notInitial
    rcases Multiset.mem_cons.mp member with rfl | old
    · rw [sameId]
      exact ledger.ownInitial current (Multiset.mem_cons_self _ _)
        (sameKind.symm.trans notInitial)
    · exact ledger.ownInitial thread (kept thread old) notInitial

/-- Threads go: zombies to `GarbageCollect`, an initial thread with its kernel
thread. -/
theorem remove (ledger : Ledger threads nextId finished spawned own)
    (fewer : changed ≤ threads)
    (gone : ∀ thread ∈ threads, thread ∉ changed →
      thread.state = .kZombie ∨ thread.isInitialKernelThread = true) :
    Ledger changed nextId finished spawned own := by
  have kept : ∀ thread ∈ changed, thread ∈ threads :=
    fun thread member => Multiset.mem_of_le fewer member
  constructor
  · exact Multiset.nodup_of_le (Multiset.map_le_map fewer) ledger.distinct
  · exact fun thread member => ledger.bounded thread (kept thread member)
  · exact fun thread member => ledger.zombies thread (kept thread member)
  · exact ledger.finishedBounded
  · exact ledger.spawnedBounded
  · intro pair pairMember thread member
    exact ledger.spawnedKind pair pairMember thread (kept thread member)
  · intro pair pairMember open_
    obtain ⟨thread, member, named⟩ := ledger.conserved pair pairMember open_
    by_cases still : thread ∈ changed
    · exact ⟨thread, still, named⟩
    · rcases gone thread member still with zombie | initial
      · exact absurd (named ▸ (ledger.zombies thread member).mp zombie) open_
      · have spawnedThread :=
          ledger.spawnedKind pair pairMember thread member named
        exact absurd (initial.symm.trans spawnedThread) (by decide)
  · exact ledger.ownBounded
  · exact fun thread member => ledger.ownInitial thread (kept thread member)

end Ledger

/-! ## Where a thread can be -/

/-- The frames of a thread that is current and has not finished. -/
def inFunction : Frame → Bool
  | .code | .spawn | .waitLoop => true
  | .contextSwitch caller => caller ≠ .threadEntry
  | .startThread | .threadEntry | .assertFailed => false

structure Queued (thread : Thread) : Prop where
  notRunning : thread.state ≠ .kRunning
  initialAlive : thread.isInitialKernelThread = true → thread.state ≠ .kZombie
  frame : thread.frame = .startThread ∨ ∃ caller,
    thread.frame = .contextSwitch caller ∧
      (caller = .threadEntry → thread.state = .kZombie)

inductive OnKernel (thread : Thread) : Prop where
  | working : thread.state = .kRunning ∨ thread.state = .kWaiting →
      inFunction thread.frame = true → OnKernel thread
  | exiting : thread.state = .kZombie → thread.frame = .threadEntry →
      thread.isInitialKernelThread = false → OnKernel thread

theorem OnKernel.not_zombie {thread : Thread} (onKernel : OnKernel thread)
    (notExiting : thread.frame ≠ .threadEntry) : thread.state ≠ .kZombie := by
  cases onKernel with
  | working state _ => rcases state with running | waiting <;> simp [*]
  | exiting _ frame _ => exact absurd frame notExiting

theorem OnKernel.enqueued_queued {current : Thread} (onKernel : OnKernel current)
    {caller : Caller}
    (fromEntry : caller = .threadEntry → current.frame = .threadEntry) :
    Queued (enqueued current caller) := by
  cases onKernel with
  | working state frame =>
      refine ⟨?_, ?_, Or.inr ⟨caller, rfl, ?_⟩⟩
      · rcases state with running | waiting <;> simp [enqueued, *]
      · intro _
        rcases state with running | waiting <;> simp [enqueued, *]
      · intro exit
        rw [fromEntry exit] at frame
        cases frame
  | exiting zombie _ notInitial =>
      refine ⟨by simp [enqueued, zombie], ?_, Or.inr ⟨caller, rfl, ?_⟩⟩
      · intro initial
        exact absurd (initial.symm.trans notInitial) (by decide)
      · intro _
        simp [enqueued, zombie]

theorem Queued.resumed_onKernel {chosen : Thread} {onlyReady : Bool}
    (queued : Queued chosen) (ready : eligible onlyReady chosen = true) :
    OnKernel (resumed chosen) := by
  refine .working (Or.inl rfl) ?_
  rcases queued.frame with new | ⟨caller, frame, exited⟩
  · simp [resumed, new, inFunction]
  · have notExit : caller ≠ .threadEntry := by
      intro exit
      rcases eligible_iff.mp ready with state | ⟨state, _⟩ <;>
        simp [exited exit] at state
    simp [resumed, frame, inFunction, notExit]

/-- A `Yield` is called from `ThreadEntry` only at the frame of `ThreadEntry`,
and where it returns false the thread is in its function again or has failed
the assertion. -/
theorem yieldCall_threadEntry_iff {current : Thread} {action : Action}
    {onlyReady : Bool} {caller : Caller} {failed : Frame}
    (call : yieldCall current action = some (onlyReady, caller, failed)) :
    (caller = .threadEntry ↔ current.frame = .threadEntry) ∧
      (current.frame ≠ .threadEntry → failed = .code) := by
  unfold yieldCall at call
  split at call
  case h_5 => cases call
  all_goals
    rename_i frame
    cases call
    simp [frame]

theorem yieldCall_of_threadEntry {current : Thread} {action : Action}
    {onlyReady : Bool} {caller : Caller} {failed : Frame}
    (frame : current.frame = .threadEntry)
    (call : yieldCall current action = some (onlyReady, caller, failed)) :
    caller = .threadEntry ∧ onlyReady = false := by
  cases action <;> simp [yieldCall, frame] at call
  exact ⟨call.2.1.symm, call.1⟩

/-! ## The invariant of every reachable system -/

variable {κ : Type} [DecidableEq κ] [Fintype κ]

/-- All threads, queued and current. -/
def census (system : System κ) : Multiset Thread :=
  ↑system.threadQueue + gathered system.current

/-- All threads but the current one of one kernel thread. -/
def others (system : System κ) (kernelThread : κ) : Multiset Thread :=
  ↑system.threadQueue + elsewhere system.current kernelThread

/-- The ids recorded in an `initial_thread_id` by `Initialize`. -/
def initialThreadIds (system : System κ) : Set Nat :=
  {id | ∃ kernelThread, (system.kernel kernelThread).initialized = true ∧
    (system.kernel kernelThread).initialThreadId = id}

structure Sound (system : System κ) : Prop where
  ledger : Ledger (census system) system.nextId system.finished system.spawned
    (initialThreadIds system)
  queued : ∀ thread ∈ system.threadQueue, Queued thread
  onKernel : ∀ kernelThread thread,
    system.current kernelThread = some thread → OnKernel thread
  initialized : ∀ kernelThread thread,
    system.current kernelThread = some thread →
      (system.kernel kernelThread).initialized = true
  initials : Multiset.countP (·.isInitialKernelThread = true)
      (system.threadQueue : Multiset Thread) =
    Multiset.countP (·.isInitialKernelThread = false) (gathered system.current)

omit [DecidableEq κ] in
theorem mem_census {system : System κ} {thread : Thread} :
    thread ∈ census system ↔ thread ∈ system.threadQueue ∨
      ∃ kernelThread, system.current kernelThread = some thread := by
  simp [census, mem_gathered]

theorem census_of_current {system : System κ} {kernelThread : κ}
    {current : Thread} (isCurrent : system.current kernelThread = some current) :
    census system = current ::ₘ others system kernelThread := by
  rw [census, others, gathered_of_some isCurrent, Multiset.add_cons]

theorem census_of_idle {system : System κ} {kernelThread : κ}
    (idle : system.current kernelThread = none) :
    census system = others system kernelThread := by
  rw [census, others, gathered_of_none idle]

theorem census_setCurrent (system : System κ) (kernelThread : κ)
    (thread : Option Thread) :
    census (system.setCurrent kernelThread thread) =
      held thread + others system kernelThread := by
  rw [census, others, setCurrent_current_eq, gathered_update,
    setCurrent_threadQueue, add_left_comm]

/-- A current thread is in no other place. -/
theorem Sound.current_elsewhere {system : System κ} (sound : Sound system)
    {kernelThread : κ} {current : Thread}
    (isCurrent : system.current kernelThread = some current) :
    ∀ thread ∈ others system kernelThread, thread.id ≠ current.id := by
  have distinct := sound.ledger.distinct
  rw [census_of_current isCurrent, Multiset.map_cons, Multiset.nodup_cons]
    at distinct
  intro thread member same
  exact distinct.1 (Multiset.mem_map.mpr ⟨thread, member, same⟩)

theorem Sound.current_not_queued {system : System κ} (sound : Sound system)
    {kernelThread : κ} {current queued : Thread}
    (isCurrent : system.current kernelThread = some current)
    (member : queued ∈ system.threadQueue) : queued.id ≠ current.id :=
  sound.current_elsewhere isCurrent queued
    (Multiset.mem_add.mpr (Or.inl (Multiset.mem_coe.mpr member)))

theorem Sound.current_unique {system : System κ} (sound : Sound system)
    {first second : κ} {current other : Thread}
    (isCurrent : system.current first = some current)
    (isOther : system.current second = some other)
    (same : other.id = current.id) : second = first := by
  by_contra different
  refine sound.current_elsewhere isCurrent other ?_ same
  exact Multiset.mem_add.mpr
    (Or.inr (mem_elsewhere.mpr ⟨second, different, isOther⟩))

omit [DecidableEq κ] in
theorem Sound.queue_distinct {system : System κ} (sound : Sound system) :
    (system.threadQueue.map Thread.id).Nodup := by
  have distinct := sound.ledger.distinct
  rw [census, Multiset.map_add] at distinct
  exact Multiset.coe_nodup.mp
    (Multiset.nodup_of_le (Multiset.le_add_right _ _) distinct)

omit [Fintype κ] in
theorem initialThreadIds_setCurrent (system : System κ) (kernelThread : κ)
    (thread : Option Thread) :
    initialThreadIds (system.setCurrent kernelThread thread) =
      initialThreadIds system := by
  simp [initialThreadIds]

omit [DecidableEq κ] in
theorem sound_boot : Sound (boot : System κ) := by
  have nobody : census (boot : System κ) = 0 := by
    refine Multiset.eq_zero_of_forall_notMem fun thread member => ?_
    simp [mem_census, boot, System.current] at member
  have idle : gathered (boot : System κ).current = 0 := by
    refine Multiset.eq_zero_of_forall_notMem fun thread member => ?_
    simp [mem_gathered] at member
  constructor
  · rw [nobody]
    constructor <;> simp [boot, initialThreadIds]
  · simp [boot]
  · simp
  · simp
  · rw [idle]
    rfl

omit [Fintype κ] in
/-- The states and frames survive when one kernel thread's slot is filled. -/
theorem onKernel_setCurrent {system : System κ} {kernelThread : κ}
    (onKernel : ∀ other thread, system.current other = some thread →
      OnKernel thread)
    {slot : Option Thread} (filled : ∀ thread, slot = some thread →
      OnKernel thread) :
    ∀ other thread, (system.setCurrent kernelThread slot).current other =
      some thread → OnKernel thread := by
  intro other thread isCurrent
  by_cases same : other = kernelThread
  · subst same
    rw [setCurrent_current] at isCurrent
    exact filled thread isCurrent
  · rw [setCurrent_current_other system slot same] at isCurrent
    exact onKernel other thread isCurrent

omit [Fintype κ] in
theorem initialized_setCurrent {system : System κ} {kernelThread : κ}
    (initialized : ∀ other thread, system.current other = some thread →
      (system.kernel other).initialized = true)
    {slot : Option Thread}
    (here : slot ≠ none → (system.kernel kernelThread).initialized = true) :
    ∀ other thread, (system.setCurrent kernelThread slot).current other =
      some thread →
        ((system.setCurrent kernelThread slot).kernel other).initialized =
          true := by
  intro other thread isCurrent
  rw [setCurrent_initialized]
  by_cases same : other = kernelThread
  · subst same
    rw [setCurrent_current] at isCurrent
    exact here (by simp [isCurrent])
  · rw [setCurrent_current_other system slot same] at isCurrent
    exact initialized other thread isCurrent

/-- The current thread is changed in place: same id, same kind, and a zombie
only if it was one. -/
theorem Sound.replace {system : System κ} (sound : Sound system)
    {kernelThread : κ} {current changed : Thread}
    (isCurrent : system.current kernelThread = some current)
    (same : signature changed = signature current)
    (onKernel : OnKernel changed) :
    Sound (system.setCurrent kernelThread (some changed)) := by
  have sameKind : changed.isInitialKernelThread =
      current.isInitialKernelThread := by
    simp only [signature, Prod.mk.injEq] at same
    exact same.2.1
  constructor
  · rw [initialThreadIds_setCurrent]
    refine sound.ledger.of_signatures ?_
    rw [census_setCurrent, census_of_current isCurrent]
    simp [held, same]
  · exact sound.queued
  · refine onKernel_setCurrent sound.onKernel ?_
    intro thread filled
    cases filled
    exact onKernel
  · exact initialized_setCurrent sound.initialized
      fun _ => sound.initialized kernelThread current isCurrent
  · have initials := sound.initials
    rw [gathered_of_some isCurrent] at initials
    rw [setCurrent_current_eq, gathered_update, setCurrent_threadQueue, initials]
    simp [held, Multiset.countP_cons, sameKind]

theorem Sound.initializeKernel {system : System κ} (sound : Sound system)
    {kernelThread : κ} (idle : system.current kernelThread = none) :
    Sound (initializeKernel system kernelThread) := by
  let newThread : Thread := ⟨system.nextId, .kWaiting, true, .code⟩
  let changed := Scheduler.initializeKernel system kernelThread
  have current_eq : changed.current =
      Function.update system.current kernelThread (some newThread) := by
    funext other
    by_cases same : other = kernelThread
    · subst same
      simp [changed, Scheduler.initializeKernel, System.current, newThread]
    · simp [changed, Scheduler.initializeKernel, System.current, same]
  have census_eq : census changed = newThread ::ₘ census system := by
    rw [census, current_eq, gathered_update, census_of_idle idle, others]
    simp [changed, Scheduler.initializeKernel, held, Multiset.add_cons]
  constructor
  · rw [census_eq]
    refine sound.ledger.create rfl (by simp [newThread]) (fun pair old => ?_) ?_
    · exact Or.inl old
    · rintro id ⟨other, recorded, rfl⟩
      by_cases same : other = kernelThread
      · subst same
        refine Or.inr ⟨?_, rfl⟩
        simp [Scheduler.initializeKernel]
      · simp only [Scheduler.initializeKernel, Function.update_of_ne same]
          at recorded ⊢
        exact Or.inl ⟨other, recorded, rfl⟩
  · exact sound.queued
  · intro other thread isCurrent
    change changed.current other = some thread at isCurrent
    rw [current_eq] at isCurrent
    by_cases same : other = kernelThread
    · subst same
      rw [Function.update_self] at isCurrent
      cases isCurrent
      exact .working (Or.inr rfl) rfl
    · rw [Function.update_of_ne same] at isCurrent
      exact sound.onKernel other thread isCurrent
  · intro other thread isCurrent
    by_cases same : other = kernelThread
    · subst same
      simp [Scheduler.initializeKernel]
    · simp only [System.current, Scheduler.initializeKernel,
        Function.update_of_ne same] at isCurrent ⊢
      exact sound.initialized other thread isCurrent
  · change Multiset.countP _ _ = Multiset.countP _ (gathered changed.current)
    have initials := sound.initials
    rw [gathered_of_none idle] at initials
    rw [current_eq, gathered_update]
    simpa [Scheduler.initializeKernel, held, newThread, Multiset.countP_cons]
      using initials

theorem Sound.spawnInsert {system : System κ} (sound : Sound system)
    {kernelThread : κ} {current : Thread}
    (isCurrent : system.current kernelThread = some current)
    (inCode : current.frame = .code) :
    Sound (spawnInsert system kernelThread current) := by
  let newThread : Thread := ⟨system.nextId, .kReady, false, .startThread⟩
  let inserted : System κ := { system with
    threadQueue := newThread :: system.threadQueue
    nextId := system.nextId + 1
    spawned := (current.id, newThread.id) :: system.spawned }
  have insertedSound : Sound inserted := by
    constructor
    · have census_eq : census inserted = newThread ::ₘ census system := by
        simp only [census, inserted, ← Multiset.cons_coe, Multiset.cons_add]
        rfl
      rw [census_eq]
      refine sound.ledger.create rfl (by simp [newThread]) ?_
        fun id old => Or.inl old
      intro pair member
      rcases List.mem_cons.mp member with rfl | old
      · exact Or.inr ⟨rfl, rfl⟩
      · exact Or.inl old
    · intro thread member
      rcases List.mem_cons.mp member with rfl | old
      · exact ⟨by simp [newThread], by simp [newThread], Or.inl rfl⟩
      · exact sound.queued thread old
    · exact sound.onKernel
    · exact sound.initialized
    · have initials := sound.initials
      change _ = Multiset.countP _ (gathered system.current)
      rw [← initials]
      simp [inserted, newThread]
  have stillCurrent : inserted.current kernelThread = some current := isCurrent
  refine insertedSound.replace stillCurrent rfl ?_
  cases sound.onKernel kernelThread current isCurrent with
  | working state _ => exact .working state rfl
  | exiting _ frame _ => simp [frame] at inCode

theorem Sound.exit {system : System κ} (sound : Sound system)
    {kernelThread : κ} {current : Thread}
    (isCurrent : system.current kernelThread = some current)
    (notInitial : current.isInitialKernelThread = false) :
    Sound ({ system with
      finished := current.id :: system.finished }.setCurrent kernelThread
        (some { current with state := .kZombie, frame := .threadEntry })) := by
  constructor
  · rw [initialThreadIds_setCurrent, census_setCurrent]
    have ledger := sound.ledger
    rw [census_of_current isCurrent] at ledger
    exact ledger.finish rfl rfl rfl
  · exact sound.queued
  · refine onKernel_setCurrent sound.onKernel ?_
    intro thread filled
    cases filled
    exact .exiting rfl rfl notInitial
  · exact initialized_setCurrent sound.initialized
      fun _ => sound.initialized kernelThread current isCurrent
  · have initials := sound.initials
    rw [gathered_of_some isCurrent] at initials
    rw [setCurrent_current_eq, gathered_update, setCurrent_threadQueue]
    change Multiset.countP _ _ =
      Multiset.countP _ (_ + elsewhere system.current kernelThread)
    simpa [held, Multiset.countP_cons] using initials

theorem Sound.leave {system : System κ} (sound : Sound system)
    {kernelThread : κ} {current : Thread}
    (isCurrent : system.current kernelThread = some current)
    (initial : current.isInitialKernelThread = true) :
    Sound (system.setCurrent kernelThread none) := by
  have ledger := sound.ledger
  rw [census_of_current isCurrent] at ledger
  constructor
  · rw [initialThreadIds_setCurrent, census_setCurrent]
    refine ledger.remove (by simp [held, Multiset.le_cons_self]) ?_
    intro thread member gone
    rcases Multiset.mem_cons.mp member with rfl | other
    · exact Or.inr initial
    · exact absurd (by simpa [held] using other) gone
  · exact sound.queued
  · refine onKernel_setCurrent sound.onKernel ?_
    intro thread filled
    cases filled
  · exact initialized_setCurrent sound.initialized
      fun filled => absurd rfl filled
  · have initials := sound.initials
    rw [gathered_of_some isCurrent] at initials
    rw [setCurrent_current_eq, gathered_update, setCurrent_threadQueue]
    simpa [held, Multiset.countP_cons, initial] using initials

omit [DecidableEq κ] in
theorem Sound.garbageCollect {system : System κ} (sound : Sound system) :
    Sound (garbageCollect system) := by
  constructor
  · refine sound.ledger.remove ?_ ?_
    · exact add_le_add_left
        (Multiset.coe_le.mpr List.filter_sublist.subperm) _
    · intro thread member gone
      refine Or.inl (Classical.byContradiction fun alive => gone ?_)
      rcases mem_census.mp member with queued | current
      · refine mem_census.mpr (Or.inl ?_)
        exact List.mem_filter.mpr ⟨queued, by simpa using alive⟩
      · exact mem_census.mpr (Or.inr current)
  · intro thread member
    exact sound.queued thread (List.mem_filter.mp member).1
  · exact sound.onKernel
  · exact sound.initialized
  · have initials := sound.initials
    change Multiset.countP _ _ = Multiset.countP _ (gathered system.current)
    rw [← initials]
    simp only [Scheduler.garbageCollect, Multiset.coe_countP,
      List.countP_filter]
    refine List.countP_congr fun thread member => ?_
    have alive := (sound.queued thread member).initialAlive
    simpa using alive

/-- The thread taken from the queue and the one put back. -/
theorem Sound.switch {system next : System κ} (sound : Sound system)
    {kernelThread : κ} {current : Thread} {onlyReady : Bool} {caller : Caller}
    (isCurrent : system.current kernelThread = some current)
    (fromEntry : caller = .threadEntry → current.frame = .threadEntry)
    (switched : yield system kernelThread current onlyReady caller = some next) :
    Sound next := by
  obtain ⟨chosen, found, rfl⟩ := yield_eq_some switched
  have ready := eligible_of_stopsScan (List.find?_some found)
  have taken := perm_cons_eraseP_of_find? found
  have chosenQueued : chosen ∈ system.threadQueue :=
    List.mem_of_find?_eq_some found
  let remaining := system.threadQueue.eraseP (stopsScan current
    (system.kernel kernelThread).initialThreadId onlyReady)
  have queue_eq : (system.threadQueue : Multiset Thread) =
      chosen ::ₘ (remaining : Multiset Thread) :=
    Multiset.coe_eq_coe.mpr taken
  let requeued : System κ :=
    { system with threadQueue := remaining ++ [enqueued current caller] }
  have otherThreads : elsewhere requeued.current kernelThread =
    elsewhere system.current kernelThread := rfl
  have requeued_eq : (requeued.threadQueue : Multiset Thread) =
      enqueued current caller ::ₘ (remaining : Multiset Thread) :=
    Multiset.coe_eq_coe.mpr (List.perm_append_singleton _ _)
  change Sound (requeued.setCurrent kernelThread (some (resumed chosen)))
  constructor
  · rw [initialThreadIds_setCurrent]
    refine sound.ledger.of_signatures ?_
    rw [census_setCurrent, census_of_current isCurrent, others, others,
      otherThreads, queue_eq, requeued_eq]
    simp only [held, Multiset.singleton_add, Multiset.cons_add,
      Multiset.map_cons, signature_resumed ready, signature_enqueued]
    exact Multiset.cons_swap _ _ _
  · intro thread member
    rcases List.mem_append.mp member with kept | back
    · exact sound.queued thread (List.mem_of_mem_eraseP kept)
    · rw [List.mem_singleton.mp back]
      exact (sound.onKernel kernelThread current isCurrent).enqueued_queued
        fromEntry
  · refine onKernel_setCurrent sound.onKernel ?_
    intro thread filled
    cases filled
    exact (sound.queued chosen chosenQueued).resumed_onKernel ready
  · exact initialized_setCurrent sound.initialized
      fun _ => sound.initialized kernelThread current isCurrent
  · have initials := sound.initials
    rw [gathered_of_some isCurrent, queue_eq] at initials
    rw [setCurrent_current_eq, gathered_update, setCurrent_threadQueue,
      otherThreads, requeued_eq]
    have enqueuedKind : (enqueued current caller).isInitialKernelThread =
      current.isInitialKernelThread := rfl
    have resumedKind : (resumed chosen).isInitialKernelThread =
      chosen.isInitialKernelThread := rfl
    simp only [held, Multiset.singleton_add, Multiset.countP_cons,
      enqueuedKind, resumedKind] at initials ⊢
    cases currentKind : current.isInitialKernelThread <;>
      cases chosenKind : chosen.isInitialKernelThread <;>
        simp [currentKind, chosenKind] at initials ⊢ <;> omega

omit [DecidableEq κ] in
/-- Where a spawned thread is current, an initial thread is queued and can be
switched to. -/
theorem Sound.initial_queued {system : System κ} (sound : Sound system)
    {kernelThread : κ} {current : Thread}
    (isCurrent : system.current kernelThread = some current)
    (notInitial : current.isInitialKernelThread = false) :
    ∃ queued ∈ system.threadQueue, queued.isInitialKernelThread = true ∧
      (queued.state = .kReady ∨ queued.state = .kWaiting) := by
  have onKernels : 0 < Multiset.countP (·.isInitialKernelThread = false)
      (gathered system.current) :=
    Multiset.countP_pos.mpr
      ⟨current, mem_gathered.mpr ⟨kernelThread, isCurrent⟩, notInitial⟩
  rw [← sound.initials] at onKernels
  obtain ⟨queued, member, initial⟩ := Multiset.countP_pos.mp onKernels
  refine ⟨queued, member, initial, ?_⟩
  have standing := sound.queued queued member
  have notRunning := standing.notRunning
  have alive := standing.initialAlive initial
  cases state : queued.state <;> simp_all

/-- The `Yield` of `ThreadEntry` switches. -/
theorem Sound.yield_of_spawned {system : System κ} (sound : Sound system)
    {kernelThread : κ} {current : Thread}
    (isCurrent : system.current kernelThread = some current)
    (notInitial : current.isInitialKernelThread = false) (caller : Caller) :
    ∃ next, yield system kernelThread current false caller = some next := by
  obtain ⟨queued, member, _, state⟩ :=
    sound.initial_queued isCurrent notInitial
  have ready : eligible false queued = true := by
    rw [eligible_iff]
    exact state.imp_right fun waiting => ⟨waiting, rfl⟩
  have notOwn : current.id ≠ (system.kernel kernelThread).initialThreadId := by
    intro sameId
    refine sound.ledger.ownInitial current
      (mem_census.mpr (Or.inr ⟨kernelThread, isCurrent⟩)) notInitial ?_
    exact ⟨kernelThread, sound.initialized kernelThread current isCurrent,
      sameId.symm⟩
  have stops : stopsScan current (system.kernel kernelThread).initialThreadId
      false queued = true := by
    simp [stopsScan, ready, notOwn]
  by_contra stayed
  push Not at stayed
  have noneFound := yield_eq_none (Option.eq_none_iff_forall_ne_some.mpr stayed)
  exact absurd stops (List.find?_eq_none.mp noneFound queued member)

/-- One step lemma for all actions. -/
theorem step_sound {system next : System κ} (sound : Sound system)
    {kernelThread : κ} {action : Action}
    (stepped : step system kernelThread action = some next) : Sound next := by
  cases transition_of_step stepped with
  | initializeKernel idle _ => exact sound.initializeKernel idle
  | spawn isCurrent inCode => exact sound.spawnInsert isCurrent inCode
  | wait isCurrent inCode =>
      rename_i current
      have onKernel := sound.onKernel kernelThread current isCurrent
      refine sound.replace isCurrent ?_ (.working (Or.inr rfl) rfl)
      simp [signature, onKernel.not_zombie (by simp [inCode])]
  | exit isCurrent _ notInitial => exact sound.exit isCurrent notInitial
  | leave isCurrent _ initial => exact sound.leave isCurrent initial
  | yielded isCurrent call =>
      rename_i current onlyReady caller failed
      obtain ⟨fromEntry, elsewhere⟩ := yieldCall_threadEntry_iff call
      cases switched : yield system kernelThread current onlyReady caller with
      | some next =>
          simp only [yieldOr, switched, Option.getD_some]
          exact sound.switch isCurrent fromEntry.mp switched
      | none =>
          simp only [yieldOr, switched, Option.getD_none]
          refine sound.replace isCurrent rfl ?_
          cases sound.onKernel kernelThread current isCurrent with
          | working state frame =>
              have notEntry : current.frame ≠ .threadEntry := by
                intro entry
                simp [entry, inFunction] at frame
              exact .working state (by simp [elsewhere notEntry, inFunction])
          | exiting _ frame notInitial =>
              have exits : caller = .threadEntry ∧ onlyReady = false :=
                yieldCall_of_threadEntry frame call
              obtain ⟨next, switches⟩ :=
                sound.yield_of_spawned isCurrent notInitial caller
              rw [exits.2] at switched
              exact absurd (switched.symm.trans switches) (by simp)
  | returned isCurrent frame =>
      rename_i current caller
      have collected := sound.garbageCollect
      have stillCurrent :
          (garbageCollect system).current kernelThread = some current :=
        isCurrent
      cases sound.onKernel kernelThread current isCurrent with
      | exiting _ entry _ => simp [entry] at frame
      | working state inside =>
          have alive : current.state ≠ .kZombie := by
            rcases state with running | waiting <;> simp [*]
          cases caller with
          | code => exact collected.replace stillCurrent rfl (.working state rfl)
          | spawn => exact collected.replace stillCurrent rfl (.working state rfl)
          | wait =>
              refine collected.replace stillCurrent ?_ (.working (Or.inr rfl) rfl)
              simp [signature, alive]
          | threadEntry => simp [frame, inFunction] at inside

theorem run_sound {labels : List (κ × Action)} {final : System κ}
    (run : runLabels interleavedStep boot labels = some final) : Sound final :=
  invariant_of_run (fun _ _ _ sound stepped => step_sound sound stepped)
    sound_boot run

end ChlorosSnfs.Chloros.KernelThreads
