import ChlorosSnfs.Chloros.Scheduler
import ChlorosSnfs.Library.Runs
import Mathlib.Data.List.Perm.Basic
import Mathlib.Data.List.Nodup
import Mathlib.Data.List.Range

/-!
# One kernel thread: no green thread is lost

With one kernel thread the front of the queue at the `Yield` of `Spawn` is the
thread just created, so every other queued thread has already run and collects
zombies when it is resumed.  `Accounts` follows the ids of the current and the
queued threads through a run, `Shape` where each of them will resume.
-/

set_option autoImplicit false

namespace ChlorosSnfs.Chloros.SingleKernel

open ChlorosSnfs.Chloros.Scheduler
open ChlorosSnfs.Library.Runs

/-- Only the initial thread calls `Wait`, and the kernel thread stays. -/
def disciplined (system : System Unit) (action : Action) : Bool :=
  match action with
  | .wait => (system.current ()).any (·.isInitialKernelThread)
  | .leave => false
  | _ => true

def singleStep (system : System Unit) (action : Action) :
    Option (System Unit) :=
  if disciplined system action then step system () action else none

/-- The ids handed out to threads whose function has not returned. -/
def unfinished (system : System Unit) : List Nat :=
  (List.range system.nextId).filter (· ∉ system.finished)

/-! ## Ids -/

/-- What the bookkeeping of ids sees of a thread. -/
def signature (thread : Thread) : Nat × Bool × Bool :=
  (thread.id, thread.isInitialKernelThread, thread.state = .kZombie)

/-- `threads` holds every unfinished thread once, zombies are the finished
ones, and the initial thread is the one with `initial_thread_id`. -/
structure Accounts (system : System Unit) (threads : List Thread) : Prop where
  distinct : (threads.map Thread.id).Nodup
  bounded : ∀ thread ∈ threads, thread.id < system.nextId
  conserved : ∀ id < system.nextId, id ∉ system.finished →
    id ∈ threads.map Thread.id
  kinds : ∀ thread ∈ threads, thread.isInitialKernelThread = true ↔
    thread.id = (system.kernel ()).initialThreadId
  zombies : ∀ thread ∈ threads, thread.state = .kZombie ↔
    thread.id ∈ system.finished
  finishedBounded : ∀ id ∈ system.finished, id < system.nextId
  initialBounded : (system.kernel ()).initialThreadId < system.nextId
  initialUnfinished : (system.kernel ()).initialThreadId ∉ system.finished

theorem Accounts.of_signatures {system changed : System Unit}
    {threads replaced : List Thread} (accounts : Accounts system threads)
    (same : (replaced.map signature).Perm (threads.map signature))
    (sameNextId : changed.nextId = system.nextId)
    (sameFinished : changed.finished = system.finished)
    (sameInitial : (changed.kernel ()).initialThreadId =
      (system.kernel ()).initialThreadId) : Accounts changed replaced := by
  have sameIds : (replaced.map Thread.id).Perm (threads.map Thread.id) := by
    simpa [List.map_map, Function.comp_def, signature] using same.map Prod.fst
  have origin : ∀ thread ∈ replaced, ∃ old ∈ threads,
      signature old = signature thread := by
    intro thread member
    exact List.mem_map.mp (same.subset (List.mem_map_of_mem member))
  constructor
  · exact sameIds.nodup_iff.mpr accounts.distinct
  · intro thread member
    obtain ⟨old, oldMember, oldSame⟩ := origin thread member
    have idSame : old.id = thread.id := congrArg Prod.fst oldSame
    rw [sameNextId, ← idSame]
    exact accounts.bounded old oldMember
  · intro id bound open_
    rw [sameNextId] at bound
    rw [sameFinished] at open_
    exact sameIds.mem_iff.mpr (accounts.conserved id bound open_)
  · intro thread member
    obtain ⟨old, oldMember, oldSame⟩ := origin thread member
    simp only [signature, Prod.mk.injEq] at oldSame
    rw [sameInitial, ← oldSame.1, ← oldSame.2.1]
    exact accounts.kinds old oldMember
  · intro thread member
    obtain ⟨old, oldMember, oldSame⟩ := origin thread member
    simp only [signature, Prod.mk.injEq, decide_eq_decide] at oldSame
    rw [sameFinished, ← oldSame.1, ← oldSame.2.2]
    exact accounts.zombies old oldMember
  · rw [sameNextId, sameFinished]
    exact accounts.finishedBounded
  · rw [sameNextId, sameInitial]
    exact accounts.initialBounded
  · rw [sameFinished, sameInitial]
    exact accounts.initialUnfinished

/-- Dropping zombies keeps the accounts: they are all finished. -/
theorem Accounts.collect {system : System Unit} {current : Thread}
    {queue : List Thread} (accounts : Accounts system (current :: queue)) :
    Accounts system (current ::
      queue.filter fun thread => thread.state ≠ .kZombie) := by
  have kept : ∀ thread,
      thread ∈ current :: queue.filter (fun thread => thread.state ≠ .kZombie) →
        thread ∈ current :: queue := by
    intro thread member
    exact (List.filter_sublist.cons_cons current).subset member
  constructor
  · exact ((List.filter_sublist.cons_cons current).map Thread.id).nodup
      accounts.distinct
  · exact fun thread member => accounts.bounded thread (kept thread member)
  · intro id bound open_
    obtain ⟨thread, member, rfl⟩ :=
      List.mem_map.mp (accounts.conserved id bound open_)
    refine List.mem_map.mpr ⟨thread, ?_, rfl⟩
    have alive : thread.state ≠ .kZombie := fun zombie =>
      open_ ((accounts.zombies thread member).mp zombie)
    rcases List.mem_cons.mp member with rfl | queued
    · exact List.mem_cons_self
    · exact List.mem_cons_of_mem _ (List.mem_filter.mpr ⟨queued, by simpa⟩)
  · exact fun thread member => accounts.kinds thread (kept thread member)
  · exact fun thread member => accounts.zombies thread (kept thread member)
  · exact accounts.finishedBounded
  · exact accounts.initialBounded
  · exact accounts.initialUnfinished

theorem Accounts.perm_unfinished {system : System Unit} {threads : List Thread}
    (accounts : Accounts system threads)
    (alive : ∀ thread ∈ threads, thread.state ≠ .kZombie) :
    (threads.map Thread.id).Perm (unfinished system) := by
  have unfinishedNodup : (unfinished system).Nodup :=
    List.nodup_range.filter _
  refine (List.perm_ext_iff_of_nodup accounts.distinct unfinishedNodup).mpr ?_
  intro id
  simp only [unfinished, List.mem_filter, List.mem_range, decide_eq_true_eq]
  constructor
  · intro member
    obtain ⟨thread, threadMember, rfl⟩ := List.mem_map.mp member
    refine ⟨accounts.bounded thread threadMember, fun finished => ?_⟩
    exact alive thread threadMember
      ((accounts.zombies thread threadMember).mpr finished)
  · rintro ⟨bound, open_⟩
    exact accounts.conserved id bound open_

/-- No other thread than the initial one is initial. -/
theorem Accounts.not_initial {system : System Unit} {first : Thread}
    {rest : List Thread} (accounts : Accounts system (first :: rest))
    (initial : first.isInitialKernelThread = true) :
    ∀ thread ∈ rest, thread.isInitialKernelThread = false := by
  intro thread member
  rw [Bool.eq_false_iff]
  intro alsoInitial
  have firstId := (accounts.kinds first List.mem_cons_self).mp initial
  have threadId :=
    (accounts.kinds thread (List.mem_cons_of_mem _ member)).mp alsoInitial
  have distinct := accounts.distinct
  simp only [List.map_cons, List.nodup_cons] at distinct
  exact distinct.1 (List.mem_map.mpr ⟨thread, member, by omega⟩)

/-! ## The switch -/

theorem perm_cons_eraseP_of_find? {α : Type} {test : α → Bool}
    {list : List α} {found : α} (first : list.find? test = some found) :
    list.Perm (found :: list.eraseP test) := by
  obtain ⟨holds, before, after, rfl, skipped⟩ :=
    List.find?_eq_some_iff_append.mp first
  have refused : ∀ skippedOne ∈ before, ¬ test skippedOne = true := by
    intro skippedOne member
    simpa using skipped skippedOne member
  rw [List.eraseP_append_right _ refused, List.eraseP_cons_of_pos holds]
  exact List.perm_middle

theorem eligible_iff {onlyReady : Bool} {thread : Thread} :
    eligible onlyReady thread = true ↔
      thread.state = .kReady ∨ (thread.state = .kWaiting ∧ onlyReady = false) := by
  simp [eligible]

theorem eligible_of_stopsScan {current candidate : Thread} {initialId : Nat}
    {onlyReady : Bool}
    (stops : stopsScan current initialId onlyReady candidate = true) :
    eligible onlyReady candidate = true := by
  simp only [stopsScan, Bool.and_eq_true] at stops
  exact stops.1

/-- The thread a `Yield` switched to, and the queue it left behind. -/
structure Switched (system : System Unit) (current : Thread) (onlyReady : Bool)
    (caller : Caller) (next : System Unit) (chosen : Thread)
    (remaining : List Thread) : Prop where
  split : system.threadQueue.Perm (chosen :: remaining)
  ready : eligible onlyReady chosen = true
  current_eq : next.current () = some (resumed chosen)
  queue_eq : next.threadQueue = remaining ++ [enqueued current caller]
  nextId_eq : next.nextId = system.nextId
  finished_eq : next.finished = system.finished
  initial_eq : (next.kernel ()).initialThreadId =
    (system.kernel ()).initialThreadId

theorem switched_of_yield {system next : System Unit} {current : Thread}
    {onlyReady : Bool} {caller : Caller}
    (switched : yield system () current onlyReady caller = some next) :
    ∃ chosen,
      system.threadQueue.find? (stopsScan current
        (system.kernel ()).initialThreadId onlyReady) = some chosen ∧
      Switched system current onlyReady caller next chosen
        (system.threadQueue.eraseP (stopsScan current
          (system.kernel ()).initialThreadId onlyReady)) := by
  obtain ⟨chosen, found, rfl⟩ := yield_eq_some switched
  refine ⟨chosen, found, ?_⟩
  exact {
    split := perm_cons_eraseP_of_find? found
    ready := eligible_of_stopsScan (List.find?_some found)
    current_eq := by simp
    queue_eq := rfl
    nextId_eq := rfl
    finished_eq := rfl
    initial_eq := by simp }

theorem signature_resumed {chosen : Thread} {onlyReady : Bool}
    (ready : eligible onlyReady chosen = true) :
    signature (resumed chosen) = signature chosen := by
  rcases eligible_iff.mp ready with state | ⟨state, _⟩ <;>
    simp [signature, resumed, state]

theorem signature_enqueued (current : Thread) (caller : Caller) :
    signature (enqueued current caller) = signature current := by
  by_cases running : current.state = .kRunning
  · simp [signature, enqueued, running]
  · simp [signature, enqueued, running]

theorem Switched.accounts {system next : System Unit} {current chosen : Thread}
    {onlyReady : Bool} {caller : Caller} {remaining : List Thread}
    (switched : Switched system current onlyReady caller next chosen remaining)
    (accounts : Accounts system (current :: system.threadQueue)) :
    Accounts next (resumed chosen :: next.threadQueue) := by
  refine accounts.of_signatures ?_ switched.nextId_eq switched.finished_eq
    switched.initial_eq
  have queuePerm := switched.split.map signature
  simp only [switched.queue_eq, List.map_cons, List.map_append, List.map_nil,
    signature_resumed switched.ready, signature_enqueued] at queuePerm ⊢
  have rotated : (signature chosen ::
      (remaining.map signature ++ [signature current])).Perm
        (signature current :: signature chosen :: remaining.map signature) :=
    List.perm_append_singleton _ (signature chosen :: remaining.map signature)
  exact rotated.trans (queuePerm.symm.cons _)

/-! ## Where the threads stand -/

/-- A queued thread that has run before. -/
structure Suspended (thread : Thread) : Prop where
  initialState : thread.isInitialKernelThread = true →
    thread.state = .kReady ∨ thread.state = .kWaiting
  spawnedState : thread.isInitialKernelThread = false →
    thread.state = .kReady ∨ thread.state = .kZombie
  frame : ∃ caller, thread.frame = .contextSwitch caller ∧
    (caller = .wait → thread.isInitialKernelThread = true) ∧
    (caller = .threadEntry → thread.state = .kZombie)

/-- A queued thread that will run again. -/
def Settled (thread : Thread) : Prop :=
  Suspended thread ∧ thread.state ≠ .kZombie

/-- A queued thread that `Spawn` has created and nobody has switched to. -/
structure Created (thread : Thread) : Prop where
  state : thread.state = .kReady
  spawned : thread.isInitialKernelThread = false
  frame : thread.frame = .startThread

/-- A current thread that has not returned from its function. -/
def Working (thread : Thread) : Prop :=
  thread.state = .kRunning ∨
    (thread.isInitialKernelThread = true ∧ thread.state = .kWaiting)

/-- The current thread's frame and what it says of the queue.  Only the thread
inside `Spawn` sees a thread that has not started, and it stands at the front;
only a thread about to collect sees zombies. -/
inductive Shape : Thread → List Thread → Prop where
  | code {current : Thread} {queue : List Thread} :
      current.frame = .code → Working current →
      (∀ thread ∈ queue, Settled thread) → Shape current queue
  | spawn {current created : Thread} {queue rest : List Thread} :
      current.frame = .spawn → Working current → queue = created :: rest →
      Created created → (∀ thread ∈ rest, Settled thread) → Shape current queue
  | waitLoop {current : Thread} {queue : List Thread} :
      current.frame = .waitLoop → current.isInitialKernelThread = true →
      current.state = .kWaiting →
      (∀ thread ∈ queue, Settled thread) → Shape current queue
  | threadEntry {current : Thread} {queue : List Thread} :
      current.frame = .threadEntry → current.isInitialKernelThread = false →
      current.state = .kZombie →
      (∀ thread ∈ queue, Settled thread) → Shape current queue
  | contextSwitch {current : Thread} {queue : List Thread} {caller : Caller} :
      current.frame = .contextSwitch caller → caller ≠ .threadEntry →
      (caller = .wait → current.isInitialKernelThread = true) →
      Working current →
      (∀ thread ∈ queue, Suspended thread) → Shape current queue

theorem Shape.at_code {current : Thread} {queue : List Thread}
    (shape : Shape current queue) (frame : current.frame = .code) :
    Working current ∧ ∀ thread ∈ queue, Settled thread := by
  cases shape with
  | code _ working settled => exact ⟨working, settled⟩
  | spawn other => cases frame.symm.trans other
  | waitLoop other => cases frame.symm.trans other
  | threadEntry other => cases frame.symm.trans other
  | contextSwitch other => cases frame.symm.trans other

theorem Shape.at_waitLoop {current : Thread} {queue : List Thread}
    (shape : Shape current queue) (frame : current.frame = .waitLoop) :
    current.isInitialKernelThread = true ∧ current.state = .kWaiting ∧
      ∀ thread ∈ queue, Settled thread := by
  cases shape with
  | waitLoop _ initial waiting settled => exact ⟨initial, waiting, settled⟩
  | code other => cases frame.symm.trans other
  | spawn other => cases frame.symm.trans other
  | threadEntry other => cases frame.symm.trans other
  | contextSwitch other => cases frame.symm.trans other

theorem Shape.at_spawn {current : Thread} {queue : List Thread}
    (shape : Shape current queue) (frame : current.frame = .spawn) :
    Working current ∧ ∃ created rest, queue = created :: rest ∧
      Created created ∧ ∀ thread ∈ rest, Settled thread := by
  cases shape with
  | spawn _ working queueExact fresh settled =>
      exact ⟨working, _, _, queueExact, fresh, settled⟩
  | code other => cases frame.symm.trans other
  | waitLoop other => cases frame.symm.trans other
  | threadEntry other => cases frame.symm.trans other
  | contextSwitch other => cases frame.symm.trans other

theorem Shape.not_assertFailed {current : Thread} {queue : List Thread}
    (shape : Shape current queue) : current.frame ≠ .assertFailed := by
  cases shape <;> simp [*]

theorem Working.not_zombie {thread : Thread} (working : Working thread) :
    thread.state ≠ .kZombie := by
  rcases working with running | ⟨_, waiting⟩
  · simp [running]
  · simp [waiting]

theorem Working.enqueued_settled {current : Thread} (working : Working current)
    (caller : Caller)
    (fromWait : caller = .wait → current.isInitialKernelThread = true)
    (notExit : caller ≠ .threadEntry) : Settled (enqueued current caller) := by
  have state : (enqueued current caller).state = .kReady ∨
      (current.isInitialKernelThread = true ∧
        (enqueued current caller).state = .kWaiting) := by
    rcases working with running | ⟨initial, waiting⟩
    · exact Or.inl (by simp [enqueued, running])
    · exact Or.inr ⟨initial, by simp [enqueued, waiting]⟩
  refine ⟨⟨?_, ?_, caller, rfl, fromWait, fun exit => absurd exit notExit⟩, ?_⟩
  · intro _
    exact state.imp id And.right
  · intro spawned
    rcases state with ready | ⟨initial, _⟩
    · exact Or.inl ready
    · exact absurd (initial.symm.trans spawned) (by decide)
  · rcases state with ready | ⟨_, waiting⟩
    · simp [ready]
    · simp [waiting]

theorem zombie_enqueued_suspended {current : Thread}
    (spawned : current.isInitialKernelThread = false)
    (zombie : current.state = .kZombie) :
    Suspended (enqueued current .threadEntry) := by
  have state : (enqueued current .threadEntry).state = .kZombie := by
    simp [enqueued, zombie]
  constructor
  · intro initial
    exact absurd (initial.symm.trans spawned) (by decide)
  · exact fun _ => Or.inr state
  · exact ⟨.threadEntry, rfl, (fun impossible => by cases impossible),
      fun _ => state⟩

/-- A settled thread that is switched to collects next. -/
theorem Shape.of_settled_chosen {chosen : Thread} {queue : List Thread}
    (settled : Settled chosen) (suspended : ∀ thread ∈ queue, Suspended thread) :
    Shape (resumed chosen) queue := by
  obtain ⟨⟨_, _, caller, frame, fromWait, fromExit⟩, alive⟩ := settled
  have continues : (resumed chosen).frame = .contextSwitch caller := by
    simp [resumed, frame]
  exact .contextSwitch continues (fun exit => alive (fromExit exit)) fromWait
    (Or.inl rfl) suspended

/-! ## One step -/

/-- The state of a program that has called `Initialize`. -/
structure Consistent (system : System Unit) (current : Thread) : Prop where
  isCurrent : system.current () = some current
  accounts : Accounts system (current :: system.threadQueue)
  shape : Shape current system.threadQueue

theorem Consistent.queued {system : System Unit} {current : Thread}
    (consistent : Consistent system current) :
    ∀ thread ∈ system.threadQueue, Suspended thread ∨ Created thread := by
  intro thread member
  have shape := consistent.shape
  cases shape with
  | code _ _ settled => exact Or.inl (settled thread member).1
  | waitLoop _ _ _ settled => exact Or.inl (settled thread member).1
  | threadEntry _ _ _ settled => exact Or.inl (settled thread member).1
  | contextSwitch _ _ _ _ suspended => exact Or.inl (suspended thread member)
  | spawn _ _ queueExact fresh settled =>
      rw [queueExact] at member
      rcases List.mem_cons.mp member with rfl | old
      · exact Or.inr fresh
      · exact Or.inl (settled thread old).1

theorem consistent_initializeKernel :
    Consistent (initializeKernel boot ()) ⟨0, .kWaiting, true, .code⟩ := by
  refine ⟨rfl, ?_, .code rfl (Or.inr ⟨rfl, rfl⟩) (by simp [initializeKernel, boot])⟩
  constructor <;> simp [initializeKernel, boot]

/-- Replacing the current thread by one with the same signature. -/
theorem Consistent.replace {system : System Unit} {current replaced : Thread}
    (consistent : Consistent system current)
    (same : signature replaced = signature current)
    (shape : Shape replaced system.threadQueue) :
    Consistent (system.setCurrent () (some replaced)) replaced := by
  refine ⟨by simp, ?_, shape⟩
  refine consistent.accounts.of_signatures ?_ rfl rfl (by simp)
  simp [same]

theorem Consistent.switched {system next : System Unit}
    {current chosen : Thread} {onlyReady : Bool} {caller : Caller}
    {remaining : List Thread} (consistent : Consistent system current)
    (switched : Switched system current onlyReady caller next chosen remaining)
    (shape : Shape (resumed chosen) (remaining ++ [enqueued current caller])) :
    Consistent next (resumed chosen) :=
  ⟨switched.current_eq, switched.accounts consistent.accounts,
    switched.queue_eq ▸ shape⟩

/-- A switch to a settled thread while the rest of the queue is settled. -/
theorem Consistent.switched_settled {system next : System Unit}
    {current : Thread} {onlyReady : Bool} {caller : Caller}
    (consistent : Consistent system current)
    (settled : ∀ thread ∈ system.threadQueue, Settled thread)
    (suspended : Suspended (enqueued current caller))
    (yielded : yield system () current onlyReady caller = some next) :
    ∃ chosen, Consistent next chosen := by
  obtain ⟨chosen, _, switched⟩ := switched_of_yield yielded
  refine ⟨resumed chosen, consistent.switched switched ?_⟩
  have chosenMember : chosen ∈ system.threadQueue :=
    switched.split.symm.subset List.mem_cons_self
  refine Shape.of_settled_chosen (settled chosen chosenMember) ?_
  intro thread member
  rcases List.mem_append.mp member with left | last
  · exact (settled thread (List.mem_of_mem_eraseP left)).1
  · cases List.mem_singleton.mp last
    exact suspended

theorem Accounts.insert {system : System Unit} {current : Thread}
    {queue : List Thread} (accounts : Accounts system (current :: queue))
    (created : Thread) (changed : System Unit)
    (createdId : created.id = system.nextId)
    (createdState : created.state = .kReady)
    (createdKind : created.isInitialKernelThread = false)
    (nextId : changed.nextId = system.nextId + 1)
    (finished : changed.finished = system.finished)
    (initial : (changed.kernel ()).initialThreadId =
      (system.kernel ()).initialThreadId) :
    Accounts changed (current :: created :: queue) := by
  have members : ∀ {thread : Thread}, thread ∈ current :: created :: queue →
      thread = created ∨ thread ∈ current :: queue := by
    intro thread member
    simp only [List.mem_cons] at member ⊢
    tauto
  have unused : system.nextId ∉ system.finished := fun member =>
    absurd (accounts.finishedBounded _ member) (Nat.lt_irrefl _)
  have rotate : ((current :: created :: queue).map Thread.id).Perm
      (created.id :: (current :: queue).map Thread.id) :=
    List.Perm.swap _ _ _
  constructor
  · rw [rotate.nodup_iff, List.nodup_cons, createdId]
    refine ⟨fun member => ?_, accounts.distinct⟩
    obtain ⟨thread, threadMember, same⟩ := List.mem_map.mp member
    exact absurd (same ▸ accounts.bounded thread threadMember)
      (Nat.lt_irrefl _)
  · intro thread member
    rw [nextId]
    rcases members member with rfl | old
    · omega
    · have := accounts.bounded thread old
      omega
  · intro id bound open_
    rw [rotate.mem_iff, List.mem_cons]
    rw [nextId] at bound
    rw [finished] at open_
    rcases Nat.lt_succ_iff_lt_or_eq.mp bound with old | rfl
    · exact Or.inr (accounts.conserved id old open_)
    · exact Or.inl createdId.symm
  · intro thread member
    rw [initial]
    rcases members member with rfl | old
    · have := accounts.initialBounded
      rw [createdKind, createdId]
      simp only [Bool.false_eq_true, false_iff]
      omega
    · exact accounts.kinds thread old
  · intro thread member
    rw [finished]
    rcases members member with rfl | old
    · simp [createdState, createdId, unused]
    · exact accounts.zombies thread old
  · intro id member
    rw [finished] at member
    have := accounts.finishedBounded id member
    omega
  · have := accounts.initialBounded
    omega
  · rw [initial, finished]
    exact accounts.initialUnfinished

theorem consistent_spawnInsert {system : System Unit} {current : Thread}
    (consistent : Consistent system current) (working : Working current)
    (settled : ∀ thread ∈ system.threadQueue, Settled thread) :
    Consistent (spawnInsert system () current)
      { current with frame := .spawn } := by
  refine ⟨by simp [spawnInsert], ?_, ?_⟩
  · have inserted := consistent.accounts.insert
      ⟨system.nextId, .kReady, false, .startThread⟩
      (spawnInsert system () current) rfl rfl rfl rfl rfl
      (by simp [spawnInsert])
    exact inserted.of_signatures (List.Perm.refl _) rfl rfl rfl
  · exact .spawn rfl working rfl ⟨rfl, rfl, rfl⟩ settled

theorem Accounts.finish {system : System Unit} {current : Thread}
    {queue : List Thread} (accounts : Accounts system (current :: queue))
    (spawned : current.isInitialKernelThread = false) :
    Accounts ({ system with
        finished := current.id :: system.finished }.setCurrent ()
          (some { current with state := .kZombie, frame := .threadEntry }))
      ({ current with state := .kZombie, frame := .threadEntry } :: queue) := by
  have distinct := accounts.distinct
  simp only [List.map_cons, List.nodup_cons] at distinct
  have notInitial : current.id ≠ (system.kernel ()).initialThreadId := by
    intro same
    have initial := (accounts.kinds current List.mem_cons_self).mpr same
    exact absurd (initial.symm.trans spawned) (by decide)
  constructor
  · simpa using accounts.distinct
  · simpa using accounts.bounded
  · intro id bound open_
    simp only [setCurrent_finished, List.mem_cons, not_or] at open_
    simpa using accounts.conserved id bound open_.2
  · simpa using accounts.kinds
  · intro thread member
    simp only [setCurrent_finished, List.mem_cons]
    rcases List.mem_cons.mp member with rfl | queued
    · simp
    · have other : thread.id ≠ current.id := fun same =>
        distinct.1 (List.mem_map.mpr ⟨thread, queued, same⟩)
      rw [accounts.zombies thread (List.mem_cons_of_mem _ queued)]
      simp [other]
  · intro id member
    simp only [setCurrent_finished, List.mem_cons] at member
    rcases member with rfl | old
    · exact accounts.bounded current List.mem_cons_self
    · exact accounts.finishedBounded id old
  · simpa using accounts.initialBounded
  · simpa using ⟨Ne.symm notInitial, accounts.initialUnfinished⟩

theorem consistent_codeStep {system next : System Unit} {current : Thread}
    {action : Action} (consistent : Consistent system current)
    (working : Working current)
    (settled : ∀ thread ∈ system.threadQueue, Settled thread)
    (discipline : disciplined system action = true)
    (stepped : codeStep system () current action = some next) :
    ∃ running, Consistent next running := by
  cases action with
  | initializeKernel => cases stepped
  | spawn =>
      cases stepped
      exact ⟨_, consistent_spawnInsert consistent working settled⟩
  | yield onlyReady =>
      cases stepped
      cases yielded : yield system () current onlyReady .code with
      | none =>
          simp only [yieldOr, yielded, Option.getD_none]
          exact ⟨_, consistent.replace rfl (.code rfl working settled)⟩
      | some switched =>
          simp only [yieldOr, yielded, Option.getD_some]
          have back := working.enqueued_settled .code
            (fun impossible => by cases impossible)
            (fun impossible => by cases impossible)
          exact consistent.switched_settled settled back.1 yielded
  | wait =>
      cases stepped
      simp only [disciplined, consistent.isCurrent, Option.any_some] at discipline
      refine ⟨_, consistent.replace ?_
        (.waitLoop rfl discipline rfl settled)⟩
      simp [signature, working.not_zombie]
  | exit =>
      simp only [codeStep, Option.ite_none_left_eq_some, Bool.not_eq_true,
        Option.some.injEq] at stepped
      obtain ⟨spawned, rfl⟩ := stepped
      exact ⟨_, by simp, consistent.accounts.finish spawned,
        .threadEntry rfl spawned rfl settled⟩
  | leave => simp [disciplined] at discipline
  | proceed => cases stepped

theorem Created.stopsScan {created : Thread} (fresh : Created created)
    (current : Thread) (initialId : Nat) (onlyReady : Bool) :
    stopsScan current initialId onlyReady created = true := by
  simp [Scheduler.stopsScan, eligible, fresh.state, fresh.spawned]

/-- The `Yield` of `Spawn` switches to the thread just created. -/
theorem consistent_spawn_yield {system : System Unit}
    {current created : Thread} {queue : List Thread}
    (consistent : Consistent system current)
    (queueExact : system.threadQueue = created :: queue)
    (working : Working current) (fresh : Created created)
    (settled : ∀ thread ∈ queue, Settled thread) :
    ∃ running, Consistent
      (yieldOr system () current true .spawn .code) running := by
  have stops := fresh.stopsScan current (system.kernel ()).initialThreadId true
  cases yielded : yield system () current true .spawn with
  | none =>
      have noneFound := yield_eq_none yielded
      rw [queueExact, List.find?_cons_of_pos stops] at noneFound
      cases noneFound
  | some next =>
      simp only [yieldOr, yielded, Option.getD_some]
      obtain ⟨chosen, found, switched⟩ := switched_of_yield yielded
      simp only [queueExact, List.find?_cons_of_pos stops,
        List.eraseP_cons_of_pos stops] at found switched
      cases found
      have back := working.enqueued_settled .spawn
        (fun impossible => by cases impossible)
        (fun impossible => by cases impossible)
      refine ⟨_, consistent.switched switched (.code ?_ (Or.inl rfl) ?_)⟩
      · simp [resumed, fresh.frame]
      · intro thread member
        rcases List.mem_append.mp member with old | last
        · exact settled thread old
        · cases List.mem_singleton.mp last
          exact back

/-- A thread that has returned always finds the initial thread to yield to. -/
theorem consistent_exit_yield {system : System Unit} {current : Thread}
    (consistent : Consistent system current)
    (spawned : current.isInitialKernelThread = false)
    (zombie : current.state = .kZombie)
    (settled : ∀ thread ∈ system.threadQueue, Settled thread) :
    ∃ running, Consistent
      (yieldOr system () current false .threadEntry .assertFailed) running := by
  have accounts := consistent.accounts
  have notInitial : current.id ≠ (system.kernel ()).initialThreadId := by
    intro same
    have initial := (accounts.kinds current List.mem_cons_self).mpr same
    exact absurd (initial.symm.trans spawned) (by decide)
  cases yielded : yield system () current false .threadEntry with
  | some next =>
      simp only [yieldOr, yielded, Option.getD_some]
      exact consistent.switched_settled settled
        (zombie_enqueued_suspended spawned zombie) yielded
  | none =>
      have noneFound := List.find?_eq_none.mp (yield_eq_none yielded)
      obtain ⟨initial, member, initialId⟩ := List.mem_map.mp
        (accounts.conserved _ accounts.initialBounded
          accounts.initialUnfinished)
      rcases List.mem_cons.mp member with rfl | queued
      · exact absurd initialId notInitial
      · have kind := (accounts.kinds initial member).mpr initialId
        have states := (settled initial queued).1.initialState kind
        refine absurd ?_ (noneFound initial queued)
        rcases states with ready | waiting
        · simp [stopsScan, eligible, ready, notInitial]
        · simp [stopsScan, eligible, waiting, notInitial]

theorem consistent_collect {system : System Unit} {current : Thread}
    {caller : Caller} (consistent : Consistent system current)
    (frame : current.frame = .contextSwitch caller)
    (notExit : caller ≠ .threadEntry)
    (fromWait : caller = .wait → current.isInitialKernelThread = true)
    (working : Working current)
    (suspended : ∀ thread ∈ system.threadQueue, Suspended thread) :
    ∃ running, Consistent (returnFromSwitch system () current caller)
      running := by
  have settled : ∀ thread ∈ (garbageCollect system).threadQueue,
      Settled thread := by
    intro thread member
    obtain ⟨queued, alive⟩ := List.mem_filter.mp member
    exact ⟨suspended thread queued, by simpa using alive⟩
  have collected : Consistent (garbageCollect system) current :=
    ⟨consistent.isCurrent,
      consistent.accounts.collect.of_signatures (List.Perm.refl _) rfl rfl rfl,
      .contextSwitch frame notExit fromWait working fun thread member =>
        (settled thread member).1⟩
  cases caller with
  | code => exact ⟨_, collected.replace rfl (.code rfl working settled)⟩
  | spawn => exact ⟨_, collected.replace rfl (.code rfl working settled)⟩
  | wait =>
      refine ⟨_, collected.replace ?_ (.waitLoop rfl (fromWait rfl) rfl settled)⟩
      simp [signature, working.not_zombie]
  | threadEntry => exact absurd rfl notExit

theorem consistent_libraryStep {system next : System Unit} {current : Thread}
    (consistent : Consistent system current)
    (stepped : libraryStep system () current = some next) :
    ∃ running, Consistent next running := by
  have shape := consistent.shape
  cases shape with
  | code frame => simp [libraryStep, frame] at stepped
  | spawn frame working queueExact fresh settled =>
      simp only [libraryStep, frame] at stepped
      cases stepped
      exact consistent_spawn_yield consistent queueExact working fresh settled
  | waitLoop frame initial waiting settled =>
      simp only [libraryStep, frame] at stepped
      cases stepped
      have working : Working current := Or.inr ⟨initial, waiting⟩
      cases yielded : yield system () current true .wait with
      | none =>
          simp only [yieldOr, yielded, Option.getD_none]
          exact ⟨_, consistent.replace rfl (.code rfl working settled)⟩
      | some switched =>
          simp only [yieldOr, yielded, Option.getD_some]
          have back := working.enqueued_settled .wait
            (fun _ => initial) (fun impossible => by cases impossible)
          exact consistent.switched_settled settled back.1 yielded
  | threadEntry frame spawned zombie settled =>
      simp only [libraryStep, frame] at stepped
      cases stepped
      exact consistent_exit_yield consistent spawned zombie settled
  | contextSwitch frame notExit fromWait working suspended =>
      simp only [libraryStep, frame] at stepped
      cases stepped
      exact consistent_collect consistent frame notExit fromWait working
        suspended

/-- A program before its first call, or past `Initialize` with every thread
accounted for. -/
def Invariant (system : System Unit) : Prop :=
  system = boot ∨ ∃ current, Consistent system current

theorem singleStep_invariant (system : System Unit) (action : Action)
    (next : System Unit) (invariant : Invariant system)
    (stepped : singleStep system action = some next) : Invariant next := by
  simp only [singleStep, Option.ite_none_right_eq_some] at stepped
  obtain ⟨discipline, stepped⟩ := stepped
  rcases invariant with rfl | ⟨current, consistent⟩
  · simp only [step, boot_current, Option.ite_none_right_eq_some,
      Option.some.injEq] at stepped
    rw [← stepped.2]
    exact Or.inr ⟨_, consistent_initializeKernel⟩
  · simp only [step, consistent.isCurrent] at stepped
    split at stepped
    · rename_i inCode
      have shape := consistent.shape
      cases shape with
      | code _ working settled =>
          exact Or.inr
            (consistent_codeStep consistent working settled discipline stepped)
      | spawn frame => cases inCode.symm.trans frame
      | waitLoop frame => cases inCode.symm.trans frame
      | threadEntry frame => cases inCode.symm.trans frame
      | contextSwitch frame => cases inCode.symm.trans frame
    · simp only [Option.ite_none_right_eq_some] at stepped
      exact Or.inr (consistent_libraryStep consistent stepped.2)

/-- Past `Initialize` a program stays there. -/
theorem Consistent.next {system next : System Unit} {current : Thread}
    {action : Action} (consistent : Consistent system current)
    (stepped : singleStep system action = some next) :
    ∃ running, Consistent next running := by
  rcases singleStep_invariant system action next
    (Or.inr ⟨current, consistent⟩) stepped with rfl | later
  · simp only [singleStep, Option.ite_none_right_eq_some] at stepped
    have bound := nextId_le_of_step stepped.2
    have positive := consistent.accounts.initialBounded
    have fresh : (boot : System Unit).nextId = 0 := rfl
    omega
  · exact later

theorem invariant_of_actions {actions : List Action} {system : System Unit}
    (run : runLabels singleStep boot actions = some system) :
    Invariant system :=
  invariant_of_run singleStep_invariant (Or.inl rfl) run

/-! ## What every point of a run shows -/

theorem Consistent.code_accounts {system : System Unit} {current : Thread}
    (consistent : Consistent system current) (inCode : current.frame = .code) :
    (current.id :: system.threadQueue.map Thread.id).Perm (unfinished system) ∧
      ∀ thread ∈ system.threadQueue, thread.state ≠ .kZombie := by
  have accounts := consistent.accounts
  obtain ⟨working, settled⟩ := consistent.shape.at_code inCode
  have alive : ∀ thread ∈ system.threadQueue, thread.state ≠ .kZombie :=
    fun thread member => (settled thread member).2
  refine ⟨accounts.perm_unfinished ?_, alive⟩
  intro thread member
  rcases List.mem_cons.mp member with rfl | queued
  · exact working.not_zombie
  · exact alive thread queued

theorem getThreadCount_of_alive {system : System Unit}
    (alive : ∀ thread ∈ system.threadQueue, thread.state ≠ .kZombie) :
    getThreadCount system = (system.threadQueue.length, 0) := by
  have zombies : (system.threadQueue.countP fun thread =>
      thread.state = .kZombie) = 0 :=
    List.countP_eq_zero.mpr fun thread member => by
      simpa using alive thread member
  have others : (system.threadQueue.countP fun thread =>
      thread.state ≠ .kZombie) = system.threadQueue.length :=
    List.countP_eq_length.mpr fun thread member => by
      simpa using alive thread member
  exact Prod.ext others zombies

/-- A finished thread is current only on its way out of `ThreadEntry`. -/
theorem Consistent.finished_current {system : System Unit} {current : Thread}
    (consistent : Consistent system current)
    (returned : current.id ∈ system.finished) :
    current.frame = .threadEntry := by
  have zombie : current.state = .kZombie :=
    (consistent.accounts.zombies current List.mem_cons_self).mpr returned
  have shape := consistent.shape
  cases shape with
  | code _ working => exact absurd zombie working.not_zombie
  | spawn _ working => exact absurd zombie working.not_zombie
  | waitLoop _ _ waiting => exact absurd (waiting.symm.trans zombie) (by decide)
  | threadEntry frame => exact frame
  | contextSwitch _ _ _ working => exact absurd zombie working.not_zombie

/-- When the `Yield` in `Wait` finds nobody, nobody is left. -/
theorem Consistent.wait_returns {system : System Unit} {current : Thread}
    (consistent : Consistent system current)
    (waiting : current.frame = .waitLoop)
    (stayed : yield system () current true .wait = none) :
    system.threadQueue = [] ∧
      ∀ id < system.nextId, id ≠ (system.kernel ()).initialThreadId →
        id ∈ system.finished := by
  have accounts := consistent.accounts
  obtain ⟨initial, _, settled⟩ := consistent.shape.at_waitLoop waiting
  have currentId := (accounts.kinds current List.mem_cons_self).mp initial
  have empty : system.threadQueue = [] := by
    rw [List.eq_nil_iff_forall_not_mem]
    intro thread queued
    have spawned := accounts.not_initial initial thread queued
    have ready : thread.state = .kReady :=
      ((settled thread queued).1.spawnedState spawned).resolve_right
        (settled thread queued).2
    refine absurd ?_ (List.find?_eq_none.mp (yield_eq_none stayed)
      thread queued)
    simp [stopsScan, eligible, ready, spawned]
  refine ⟨empty, ?_⟩
  intro id bound other
  by_contra open_
  have kept := accounts.conserved id bound open_
  rw [empty] at kept
  simp only [List.map_cons, List.map_nil, List.mem_singleton] at kept
  exact other (kept.trans currentId)

/-- In every program of one kernel thread in which only the initial thread
calls `Wait`: wherever a thread's own code runs, the current thread and the
queue are the unfinished threads, each once, and no zombie is queued; a
finished thread never runs again; and `Wait` returns only when every other
thread has finished. -/
theorem single_kernel_thread_run (actions : List Action) (system : System Unit)
    (run : runLabels singleStep boot actions = some system) (current : Thread)
    (isCurrent : system.current () = some current) :
    (current.frame = .code →
      (current.id :: system.threadQueue.map Thread.id).Perm
          (unfinished system) ∧
        (∀ thread ∈ system.threadQueue, thread.state ≠ .kZombie) ∧
        getThreadCount system =
          (((unfinished system).erase current.id).length, 0)) ∧
    (current.id ∈ system.finished → current.frame = .threadEntry) ∧
    (∀ next, current.frame = .waitLoop →
      singleStep system .proceed = some next →
      next.current () = some { current with frame := .code } →
        next.threadQueue = [] ∧
          ∀ id < next.nextId, id ≠ (next.kernel ()).initialThreadId →
            id ∈ next.finished) := by
  obtain ⟨running, consistent⟩ : ∃ running, Consistent system running := by
    rcases invariant_of_actions run with rfl | consistent
    · cases isCurrent
    · exact consistent
  obtain rfl : running = current :=
    Option.some.inj (consistent.isCurrent.symm.trans isCurrent)
  refine ⟨fun inCode => ?_, consistent.finished_current, ?_⟩
  · obtain ⟨accounted, alive⟩ := consistent.code_accounts inCode
    refine ⟨accounted, alive, ?_⟩
    have others := accounted.erase running.id
    rw [List.erase_cons_head] at others
    rw [getThreadCount_of_alive alive, ← others.length_eq, List.length_map]
  · intro next waiting stepped returned
    simp only [singleStep, disciplined, if_true, step, isCurrent, waiting,
      libraryStep, yieldOr, reduceCtorEq, if_false] at stepped
    cases yielded : yield system () running true .wait with
    | none =>
        rw [yielded] at stepped
        cases stepped
        simpa using consistent.wait_returns waiting yielded
    | some switched =>
        rw [yielded] at stepped
        cases stepped
        obtain ⟨chosen, found, switch⟩ := switched_of_yield yielded
        -- a thread of the queue has another id than the waiting one
        have sameThread :=
          Option.some.inj (switch.current_eq.symm.trans returned)
        have sameId : (resumed chosen).id = running.id := by rw [sameThread]
        have distinct := consistent.accounts.distinct
        simp only [List.map_cons, List.nodup_cons] at distinct
        exact absurd (List.mem_map.mpr
          ⟨chosen, List.mem_of_find?_eq_some found, sameId⟩) distinct.1

/-- `Initialize`, one `Spawn` whose thread returns at once, and `Wait` up to its
last `Yield`. -/
def spawnAndWait : List Action :=
  [.initializeKernel, .spawn, .proceed, .exit, .proceed, .proceed, .wait]

theorem single_kernel_thread_run_spawnAndWait :
    ∃ system current, runLabels singleStep boot spawnAndWait = some system ∧
      system.current () = some current ∧ current.frame = .waitLoop ∧
      system.finished = [1] ∧
      (∀ next, singleStep system .proceed = some next →
        next.current () = some { current with frame := .code } →
          next.threadQueue = [] ∧
            ∀ id < next.nextId, id ≠ (next.kernel ()).initialThreadId →
              id ∈ next.finished) := by
  refine ⟨_, ⟨0, .kWaiting, true, .waitLoop⟩, rfl, rfl, rfl, rfl, ?_⟩
  intro next
  exact (single_kernel_thread_run spawnAndWait _ rfl
    ⟨0, .kWaiting, true, .waitLoop⟩ rfl).2.2 next rfl

end ChlorosSnfs.Chloros.SingleKernel
