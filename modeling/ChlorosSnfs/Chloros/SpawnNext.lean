import ChlorosSnfs.Chloros.HandOver

/-!
# Which thread a Spawn switches to

`Spawn` puts the new thread at the front of the queue, so that it is scheduled
next, and yields; the lock is free in between.  Another kernel thread can take
the new thread there, or put one of its own before it, and the thread it has
taken starts only with its `ContextSwitch`.

A call is followed on its kernel thread: the insertion, the locked section of the
`Yield`, and the `ContextSwitch`, with any steps of the others in between.
-/

set_option autoImplicit false

namespace ChlorosSnfs.Chloros.SpawnNext

open ChlorosSnfs.Chloros.Scheduler (Caller Frame Action stopsScan_ready_iff)
open ChlorosSnfs.Chloros.HandOver
open ChlorosSnfs.Library.Runs

variable {κ : Type} [DecidableEq κ]

/-! ## A call of Spawn -/

/-- What `ContextSwitch` leaves: the current thread is executed. -/
theorem contextSwitch_placed {system next : System κ} {kernelThread : κ}
    {previous : Nat} {caller : Caller}
    (switched : contextSwitch system kernelThread previous caller = some next) :
    ∃ current frame, next = (stored system previous (.contextSwitch caller)).place
        kernelThread (some current) (.running frame) ∧
      (stored system previous (.contextSwitch caller)).current kernelThread =
        some current := by
  simp only [contextSwitch] at switched
  split at switched
  · cases switched
  · rename_i current isCurrent
    obtain ⟨frame, _, rfl⟩ := Option.map_eq_some_iff.mp switched
    exact ⟨current, entered frame, rfl, isCurrent⟩

omit [DecidableEq κ] in
theorem stored_current (system : System κ) (id : Nat) (frame : Frame)
    (kernelThread : κ) : (stored system id frame).current kernelThread =
      (system.current kernelThread).map (store id frame) := rfl

/-- A thread that is queued or current. -/
def Present (system : System κ) (thread : Thread) : Prop :=
  thread ∈ system.threadQueue ∨
    ∃ kernelThread, system.current kernelThread = some thread

/-- A thread that keeps its id and its kind from one that was present before. -/
def Continues (system : System κ) (thread : Thread) : Prop :=
  ∃ old, Present system old ∧ old.id = thread.id ∧
    old.isInitialKernelThread = thread.isInitialKernelThread

omit [DecidableEq κ] in
theorem continues_of_queued {system : System κ} {thread : Thread}
    (queued : thread ∈ system.threadQueue) : Continues system thread :=
  ⟨thread, Or.inl queued, rfl, rfl⟩

omit [DecidableEq κ] in
theorem continues_of_current {system : System κ} {kernelThread : κ}
    {current thread : Thread} (isCurrent : system.current kernelThread = some current)
    (sameId : current.id = thread.id)
    (sameKind : current.isInitialKernelThread = thread.isInitialKernelThread) :
    Continues system thread :=
  ⟨current, Or.inr ⟨kernelThread, isCurrent⟩, sameId, sameKind⟩

/-- Only the thread put in place has to be looked at. -/
theorem continues_place {system changed : System κ} {kernelThread : κ}
    {slot : Option Thread} {execution : Execution} {thread : Thread}
    (present : Present (changed.place kernelThread slot execution) thread)
    (sameKernel : changed.kernel = system.kernel)
    (queued : ∀ thread ∈ changed.threadQueue, Continues system thread)
    (placed : ∀ thread, slot = some thread → Continues system thread) :
    Continues system thread := by
  rcases present with member | ⟨other, isCurrent⟩
  · exact queued thread member
  · by_cases here : other = kernelThread
    · subst here
      rw [place_current] at isCurrent
      exact placed thread isCurrent
    · rw [place_current_other _ _ _ here, System.current, sameKernel] at isCurrent
      exact continues_of_current isCurrent rfl rfl

omit [DecidableEq κ] in
theorem continues_stored {system : System κ} {id : Nat} {frame : Frame}
    {thread : Thread} (present : Present (stored system id frame) thread) :
    Continues system thread := by
  have sameKind : ∀ old, (store id frame old).isInitialKernelThread =
      old.isInitialKernelThread := by
    intro old
    rw [store]
    split <;> rfl
  rcases present with member | ⟨kernelThread, isCurrent⟩
  · obtain ⟨old, oldMember, rfl⟩ := List.mem_map.mp member
    exact ⟨old, Or.inl oldMember, (store_id _ _ _).symm, (sameKind old).symm⟩
  · rw [stored_current] at isCurrent
    obtain ⟨old, wasCurrent, rfl⟩ := Option.map_eq_some_iff.mp isCurrent
    exact continues_of_current wasCurrent (store_id _ _ _).symm
      (sameKind old).symm

/-- A step keeps the ids and kinds of all threads and gives at most one new id. -/
theorem continues_of_step {system next : System κ} {label : κ × Action}
    (stepped : step system label = some next) {thread : Thread}
    (present : Present next thread) :
    Continues system thread ∨
      (thread.id = system.nextId ∧ next.nextId = system.nextId + 1 ∧
        (label.2 = .spawn → thread.isInitialKernelThread = false)) := by
  obtain ⟨kernelThread, action⟩ := label
  cases transition_of_step stepped with
  | initializeKernel _ _ =>
      rcases present with member | ⟨other, isCurrent⟩
      · exact Or.inl (continues_of_queued member)
      · by_cases here : other = kernelThread
        · subst here
          simp only [System.current, initializeKernel, Function.update_self,
            Option.some.injEq] at isCurrent
          refine Or.inr ⟨by rw [← isCurrent], rfl, ?_⟩
          intro spawns
          cases spawns
        · simp only [System.current, initializeKernel,
            Function.update_of_ne here] at isCurrent
          exact Or.inl (continues_of_current isCurrent rfl rfl)
  | @spawn current isCurrent _ =>
      by_cases new : thread =
          ⟨system.nextId, .kReady, false, some .startThread⟩
      · exact Or.inr ⟨by rw [new], rfl, fun _ => by rw [new]⟩
      · refine Or.inl ?_
        rcases present with member | ⟨other, isPlaced⟩
        · exact continues_of_queued ((List.mem_cons.mp member).resolve_left new)
        · by_cases here : other = kernelThread
          · subst here
            rw [spawnInsert, place_current, Option.some.injEq] at isPlaced
            rw [← isPlaced]
            exact continues_of_current isCurrent rfl rfl
          · rw [spawnInsert, place_current_other _ _ _ here] at isPlaced
            exact continues_of_current isPlaced rfl rfl
  | wait isCurrent _ =>
      refine Or.inl (continues_place present rfl (fun _ => continues_of_queued) ?_)
      intro placed same
      cases same
      exact continues_of_current isCurrent rfl rfl
  | exit isCurrent _ _ =>
      refine Or.inl (continues_place present rfl (fun _ => continues_of_queued) ?_)
      intro placed same
      cases same
      exact continues_of_current isCurrent rfl rfl
  | leave _ _ _ =>
      refine Or.inl (continues_place present rfl (fun _ => continues_of_queued) ?_)
      intro placed same
      cases same
  | @yielded current _ onlyReady caller failed isCurrent _ =>
      refine Or.inl ?_
      cases locked : yieldLocked system kernelThread current onlyReady caller with
      | none =>
          simp only [yieldOr, locked, Option.getD_none] at present
          refine continues_place present rfl (fun _ => continues_of_queued) ?_
          intro placed same
          cases same
          exact continues_of_current isCurrent rfl rfl
      | some next =>
          obtain ⟨chosen, found, rfl⟩ := yieldLocked_eq_some locked
          simp only [yieldOr, locked, Option.getD_some] at present
          refine continues_place present rfl ?_ ?_
          · intro other member
            rcases List.mem_append.mp member with old | last
            · exact continues_of_queued (List.mem_of_mem_eraseP old)
            · obtain rfl := List.mem_singleton.mp last
              exact continues_of_current isCurrent rfl rfl
          · intro placed same
            cases same
            exact ⟨chosen, Or.inl (List.mem_of_find?_eq_some found), rfl, rfl⟩
  | @returned current caller isCurrent _ =>
      refine Or.inl ?_
      have kept : ∀ other ∈ (garbageCollect system).threadQueue,
          Continues system other := fun other member =>
        continues_of_queued (List.mem_of_mem_filter member)
      have stays : ∀ state placed,
          some { current with state := state } = some placed →
            Continues system placed := by
        intro state placed same
        cases same
        exact continues_of_current isCurrent rfl rfl
      cases caller <;> exact continues_place present rfl kept (stays _)
  | @switched current previous caller _ _ _ loaded =>
      obtain ⟨running, frame, rfl, isLoaded⟩ := contextSwitch_placed loaded
      have presentStored :
          Present (stored system previous (.contextSwitch caller)) thread := by
        rcases present with member | ⟨other, isCurrent⟩
        · exact Or.inl member
        · by_cases here : other = kernelThread
          · subst here
            rw [place_current] at isCurrent
            exact Or.inr ⟨other, isLoaded.trans isCurrent⟩
          · rw [place_current_other _ _ _ here] at isCurrent
            exact Or.inr ⟨other, isCurrent⟩
      exact Or.inl (continues_stored presentStored)

theorem nextId_le_of_step {system next : System κ} {label : κ × Action}
    (stepped : step system label = some next) : system.nextId ≤ next.nextId := by
  obtain ⟨kernelThread, action⟩ := label
  cases transition_of_step stepped with
  | initializeKernel _ _ => exact Nat.le_succ _
  | spawn _ _ => exact Nat.le_succ _
  | wait _ _ => exact Nat.le_refl _
  | exit _ _ _ => exact Nat.le_refl _
  | leave _ _ _ => exact Nat.le_refl _
  | @yielded current _ onlyReady caller failed _ _ =>
      cases locked : yieldLocked system kernelThread current onlyReady caller with
      | none => simp [yieldOr, locked, System.place]
      | some next =>
          obtain ⟨_, _, rfl⟩ := yieldLocked_eq_some locked
          simp [yieldOr, locked, System.place]
  | @returned _ caller _ _ => cases caller <;> exact Nat.le_refl _
  | @switched _ _ _ _ _ _ loaded =>
      obtain ⟨_, _, rfl, _⟩ := contextSwitch_placed loaded
      exact Nat.le_refl _

/-- The id has been given, and to a thread that is not initial. -/
structure GivenToSpawned (system : System κ) (id : Nat) : Prop where
  bounded : id < system.nextId
  spawned : ∀ thread, Present system thread → thread.id = id →
    thread.isInitialKernelThread = false

theorem GivenToSpawned.step {system next : System κ} {id : Nat}
    (given : GivenToSpawned system id) {label : κ × Action}
    (stepped : step system label = some next) : GivenToSpawned next id := by
  refine ⟨Nat.lt_of_lt_of_le given.bounded (nextId_le_of_step stepped), ?_⟩
  intro thread present named
  rcases continues_of_step stepped present with
    ⟨old, wasPresent, sameId, sameKind⟩ | ⟨new, _, _⟩
  · rw [← sameKind]
    exact given.spawned old wasPresent (sameId.trans named)
  · exact absurd (new.symm.trans named) (Nat.ne_of_gt given.bounded)

end ChlorosSnfs.Chloros.SpawnNext
