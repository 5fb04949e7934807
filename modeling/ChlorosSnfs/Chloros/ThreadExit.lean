import ChlorosSnfs.Chloros.Affinity
import ChlorosSnfs.Chloros.KernelThreads

/-!
# The end of a spawned thread

`ThreadEntry` marks its thread as a zombie and calls `Yield`, which must never
come back.  It cannot return false, since an initial thread is queued wherever
a spawned thread is current, and it cannot return true, since no scan stops at
a zombie.
-/

set_option autoImplicit false

namespace ChlorosSnfs.Chloros.ThreadExit

open ChlorosSnfs.Chloros.Scheduler
open ChlorosSnfs.Chloros.Affinity (extraCreditRun)
open ChlorosSnfs.Chloros.SingleKernel (eligible_iff eligible_of_stopsScan)
open ChlorosSnfs.Chloros.KernelThreads
open ChlorosSnfs.Library.Runs

variable {κ : Type} [DecidableEq κ] [Fintype κ]

/-- `ASSERT(false)` in `ThreadEntry` is out of reach, and why. -/
structure ExitSafe (system : System κ) : Prop where
  initialQueued : ∀ kernelThread current,
    system.current kernelThread = some current →
    current.isInitialKernelThread = false →
      ∃ queued ∈ system.threadQueue, queued.isInitialKernelThread = true ∧
        (queued.state = .kReady ∨ queued.state = .kWaiting)
  noneRunningQueued : ∀ queued ∈ system.threadQueue, queued.state ≠ .kRunning
  finishedNotSelected : ∀ kernelThread current onlyReady chosen,
    system.current kernelThread = some current →
    system.threadQueue.find? (stopsScan current
      (system.kernel kernelThread).initialThreadId onlyReady) = some chosen →
      chosen.state ≠ .kZombie ∧ chosen.id ∉ system.finished
  zombieOnlyExiting : ∀ kernelThread current,
    system.current kernelThread = some current → current.state = .kZombie →
      current.frame = .threadEntry
  entrySwitches : ∀ kernelThread current,
    system.current kernelThread = some current →
    current.frame = .threadEntry →
      current.state = .kZombie ∧
      ∃ next, yield system kernelThread current false .threadEntry = some next
  entryNotResumed : ∀ kernelThread current,
    system.current kernelThread = some current →
      current.frame ≠ .contextSwitch .threadEntry
  assertNotReached : ∀ kernelThread current,
    system.current kernelThread = some current → current.frame ≠ .assertFailed

omit [DecidableEq κ] in
theorem finished_not_selected {system : System κ} (sound : Sound system)
    {current chosen : Thread} {initialThreadId : Nat} {onlyReady : Bool}
    (found : system.threadQueue.find?
      (stopsScan current initialThreadId onlyReady) = some chosen) :
    chosen.state ≠ .kZombie ∧ chosen.id ∉ system.finished := by
  have ready := eligible_of_stopsScan (List.find?_some found)
  have alive : chosen.state ≠ .kZombie := by
    rcases eligible_iff.mp ready with state | ⟨state, _⟩ <;> simp [state]
  have known : chosen ∈ census system :=
    mem_census.mpr (Or.inl (List.mem_of_find?_eq_some found))
  exact ⟨alive, fun ended =>
    alive ((sound.ledger.zombies chosen known).mpr ended)⟩

theorem exitSafe_of_sound {system : System κ} (sound : Sound system) :
    ExitSafe system := by
  constructor
  · exact fun _ _ isCurrent notInitial =>
      sound.initial_queued isCurrent notInitial
  · exact fun queued member => (sound.queued queued member).notRunning
  · exact fun _ _ _ _ _ found => finished_not_selected sound found
  · intro kernelThread current isCurrent zombie
    by_contra notExiting
    exact (sound.onKernel kernelThread current isCurrent).not_zombie notExiting
      zombie
  · intro kernelThread current isCurrent entry
    cases sound.onKernel kernelThread current isCurrent with
    | working _ inside => simp [entry, inFunction] at inside
    | exiting zombie _ notInitial =>
        exact ⟨zombie,
          sound.yield_of_spawned isCurrent notInitial .threadEntry⟩
  · intro kernelThread current isCurrent resumedThere
    cases sound.onKernel kernelThread current isCurrent with
    | working _ inside => simp [resumedThere, inFunction] at inside
    | exiting _ entry _ => simp [resumedThere] at entry
  · intro kernelThread current isCurrent failed
    cases sound.onKernel kernelThread current isCurrent with
    | working _ inside => simp [failed, inFunction] at inside
    | exiting _ entry _ => simp [failed] at entry

/-- Whatever any number of kernel threads do in whatever order, the `Yield` of
`ThreadEntry` switches away for good. -/
theorem threadEntry_never_returns (labels : List (κ × Action))
    (final : System κ)
    (run : runLabels interleavedStep boot labels = some final) :
    ExitSafe final :=
  exitSafe_of_sound (run_sound run)

theorem threadEntry_never_returns_extraCredit :
    ∃ final, runLabels interleavedStep (boot : System (Fin 2))
      extraCreditRun = some final ∧ ExitSafe final :=
  ⟨_, rfl, threadEntry_never_returns extraCreditRun _ rfl⟩

end ChlorosSnfs.Chloros.ThreadExit
