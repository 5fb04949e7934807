import ChlorosSnfs.Chloros.ContextSwitch
import Mathlib.Logic.Relation

/-!
# Threads that switch to each other

Any number of threads, each with a `Context` record and a stack of its own.  The
running thread may change all registers and any memory that belongs to no other
thread; then it calls `context_switch`.  A call is remembered until its thread
is switched back to.
-/

set_option autoImplicit false

namespace ChlorosSnfs.Chloros.SavedContexts

open ChlorosSnfs.Library.ByteMemory
open ChlorosSnfs.Library.Runs
open ChlorosSnfs.Library.Amd64
open ChlorosSnfs.Chloros.ContextSwitch

universe u

variable {ι : Type u}

/-- Where the threads have their `Context` records and stacks. -/
structure Layout (ι : Type u) where
  context : ι → Address
  stack : ι → Set Address
  contextsApart : Pairwise fun first second =>
    Disjoint (contextSpan (context first)) (contextSpan (context second))
  stacksApart : Pairwise fun first second =>
    Disjoint (stack first) (stack second)
  apart : ∀ first second, Disjoint (contextSpan (context first)) (stack second)

def Layout.owned (layout : Layout ι) (thread : ι) : Set Address :=
  contextSpan (layout.context thread) ∪ layout.stack thread

theorem Layout.ownedApart (layout : Layout ι) {first second : ι}
    (different : first ≠ second) :
    Disjoint (layout.owned first) (layout.owned second) := by
  rw [owned, owned, Set.disjoint_union_left, Set.disjoint_union_right,
    Set.disjoint_union_right]
  exact ⟨⟨layout.contextsApart different, layout.apart first second⟩,
    (layout.apart second first).symm, layout.stacksApart different⟩

/-- A call of `context_switch`: the machine that executes the `callq`, and the
address behind it. -/
structure Call where
  machine : Machine
  returnAddress : Address

/-- The machine at the first instruction of `context_switch`. -/
def Call.entered (call : Call) (entry : Address) : Machine :=
  { call.machine.pushed call.returnAddress with rip := entry }

theorem Call.entered_other (call : Call) (entry : Address) {register : Register}
    (different : .rsp ≠ register) :
    (call.entered entry).registers register = call.machine.registers register :=
  Function.update_of_ne different.symm _ _

theorem Call.calleeSaved_entered (call : Call) (entry : Address) :
    calleeSaved (call.entered entry) = { calleeSaved call.machine with
      rsp := call.machine.registers .rsp - 8 } := rfl

/-- The threads that have called `context_switch` and have not been switched
back to are suspended. -/
structure System (ι : Type u) where
  machine : Machine
  running : ι
  suspended : ι → Option Call

variable [DecidableEq ι]

/-- The calls that wait once the running thread has called, too. -/
def System.called (system : System ι) (returnAddress : Address) :
    ι → Option Call :=
  Function.update system.suspended system.running
    (some ⟨system.machine, returnAddress⟩)

/-- `context_switch(old, new)`. -/
def System.switchTo (system : System ι) (entry : Address) (target : ι)
    (returnAddress : Address) : Option (System ι) :=
  (execute system.machine (.callq entry returnAddress :: contextSwitch)).map
    fun machine => ⟨machine, target,
      Function.update (system.called returnAddress) target none⟩

/-- The arguments of the call are its own `Context` and the one of the target,
and it returns to the caller's stack. -/
structure CallsSwitch (layout : Layout ι) (system : System ι) (target : ι) :
    Prop where
  own : system.machine.registers .rdi = layout.context system.running
  new : system.machine.registers .rsi = layout.context target
  onStack : span (system.machine.registers .rsp - 8) 8 ⊆
    layout.stack system.running

inductive Step (layout : Layout ι) (entry : Address) : System ι → System ι → Prop
  | computes {system : System ι} (machine : Machine)
      (spares : ∀ other, other ≠ system.running →
        Set.EqOn machine.memory system.machine.memory (layout.owned other)) :
      Step layout entry system { system with machine }
  | switches {system next : System ι} {target : ι} {returnAddress : Address}
      (calls : CallsSwitch layout system target)
      (switched : system.switchTo entry target returnAddress = some next) :
      Step layout entry system next

/-! ## What stands in memory for a suspended thread -/

/-- The `Context` of the thread holds what the call shall find again, and its
stack holds the address to return to. -/
structure Kept (layout : Layout ι) (entry : Address) (memory : Memory 64)
    (thread : ι) (call : Call) : Prop where
  holds : Holds memory (layout.context thread) (calleeSaved (call.entered entry))
  returns : loadWord memory (call.machine.registers .rsp - 8) 8 =
    call.returnAddress.toNat
  onStack : span (call.machine.registers .rsp - 8) 8 ⊆ layout.stack thread

structure Sound (layout : Layout ι) (entry : Address) (system : System ι) :
    Prop where
  awake : system.suspended system.running = none
  kept : ∀ thread call, system.suspended thread = some call →
    Kept layout entry system.machine.memory thread call

variable {layout : Layout ι} {entry : Address}

omit [DecidableEq ι] in
/-- It belongs to the thread. -/
theorem Kept.congr {memory other : Memory 64} {thread : ι} {call : Call}
    (kept : Kept layout entry memory thread call)
    (same : Set.EqOn other memory (layout.owned thread)) :
    Kept layout entry other thread call := by
  refine ⟨kept.holds.congr (same.mono Set.subset_union_left), ?_, kept.onStack⟩
  rw [loadWord_congr (same.mono (kept.onStack.trans Set.subset_union_right))]
  exact kept.returns

section Calls

variable {system next : System ι} {target : ι} {returnAddress : Address}

/-- The memory once the call has saved its `Context`. -/
def System.saved (system : System ι) (entry returnAddress : Address) : Memory 64 :=
  savedMemory (Call.entered ⟨system.machine, returnAddress⟩ entry)

omit [DecidableEq ι] in
/-- A call changes nothing that belongs to another thread. -/
theorem CallsSwitch.saved_eqOn (calls : CallsSwitch layout system target) :
    Set.EqOn (system.saved entry returnAddress) system.machine.memory
      (layout.owned system.running)ᶜ := by
  have stored := savedMemory_eqOn (Call.entered ⟨system.machine, returnAddress⟩ entry)
  have pushed := storeWord_eqOn system.machine.memory
    (system.machine.registers .rsp - 8) 8 returnAddress.toNat
  intro address outside
  rw [Layout.owned, Set.compl_union] at outside
  rw [Call.entered_other _ _ (by decide), calls.own] at stored
  rw [System.saved, stored outside.1]
  exact pushed fun inside => outside.2 (calls.onStack inside)

omit [DecidableEq ι] in
theorem CallsSwitch.saved_eqOn_other (calls : CallsSwitch layout system target)
    {other : ι} (different : other ≠ system.running) :
    Set.EqOn (system.saved entry returnAddress) system.machine.memory
      (layout.owned other) :=
  calls.saved_eqOn.mono
    (Set.subset_compl_iff_disjoint_right.mpr (layout.ownedApart different))

omit [DecidableEq ι] in
/-- The call itself can be returned to. -/
theorem CallsSwitch.kept_self (calls : CallsSwitch layout system target) :
    Kept layout entry (system.saved entry returnAddress) system.running
      ⟨system.machine, returnAddress⟩ := by
  refine ⟨?_, ?_, calls.onStack⟩
  · rw [System.saved, savedMemory, Call.entered_other _ _ (by decide), calls.own]
    exact holds_storeFields _ _ _
  · have stored := savedMemory_eqOn (Call.entered ⟨system.machine, returnAddress⟩ entry)
    have apart := (layout.apart system.running system.running).symm.mono_left
      calls.onStack
    rw [Call.entered_other _ _ (by decide), calls.own] at stored
    rw [System.saved,
      loadWord_congr (stored.mono (Set.subset_compl_iff_disjoint_right.mpr apart))]
    exact loadWord_storeWord _ _ _

theorem CallsSwitch.kept_called (calls : CallsSwitch layout system target)
    (sound : Sound layout entry system) {thread : ι} {call : Call}
    (called : system.called returnAddress thread = some call) :
    Kept layout entry (system.saved entry returnAddress) thread call := by
  rw [System.called, Function.update_apply] at called
  split at called
  · rename_i isRunning
    cases called
    rw [isRunning]
    exact calls.kept_self
  · rename_i different
    exact (sound.kept thread call called).congr (calls.saved_eqOn_other different)

theorem switchTo_eq_some
    (switched : system.switchTo entry target returnAddress = some next) :
    next.machine.memory = system.saved entry returnAddress ∧
      next.running = target ∧ next.suspended =
        Function.update (system.called returnAddress) target none := by
  rw [System.switchTo, execute_callq, Option.map_eq_some_iff] at switched
  obtain ⟨machine, executed, rfl⟩ := switched
  have memory := execute_contextSwitch_memory executed
  exact ⟨memory, rfl, rfl⟩

/-- The registers of a call that can be returned to come back. -/
theorem Kept.resumed {call : Call} (calls : CallsSwitch layout system target)
    (kept : Kept layout entry (system.saved entry returnAddress) target call) :
    ∃ next, system.switchTo entry target returnAddress = some next ∧
      next.machine.rip = call.returnAddress ∧
      calleeSaved next.machine = calleeSaved call.machine := by
  have holds := kept.holds
  rw [← calls.new, System.saved,
    ← Call.entered_other ⟨system.machine, returnAddress⟩ entry (by decide)] at holds
  obtain ⟨machine, executed, restored⟩ := execute_contextSwitch holds
  have switched : system.switchTo entry target returnAddress = some ⟨machine, target,
      Function.update (system.called returnAddress) target none⟩ := by
    rw [System.switchTo, execute_callq]
    exact Option.map_eq_some_iff.mpr ⟨machine, executed, rfl⟩
  rw [Call.calleeSaved_entered] at restored
  refine ⟨_, switched, ?_, ?_⟩
  · change machine.rip = _
    rw [restored.rip, Machine.read64]
    change BitVec.ofNat 64 (loadWord (system.saved entry returnAddress)
      (call.machine.registers .rsp - 8) 8) = _
    rw [kept.returns, BitVec.ofNat_toNat, BitVec.setWidth_eq]
  · change calleeSaved machine = _
    rw [restored.calleeSaved, sub_add_cancel]
    rfl

theorem Sound.switched (sound : Sound layout entry system)
    (calls : CallsSwitch layout system target)
    (switched : system.switchTo entry target returnAddress = some next) :
    Sound layout entry next := by
  obtain ⟨memory, running, suspended⟩ := switchTo_eq_some switched
  refine ⟨?_, ?_⟩
  · rw [suspended, running]
    exact Function.update_self _ _ _
  · intro thread call isSuspended
    rw [suspended, Function.update_apply] at isSuspended
    split at isSuspended
    · cases isSuspended
    · rw [memory]
      exact calls.kept_called sound isSuspended

omit [DecidableEq ι] in
theorem Sound.computed (sound : Sound layout entry system) {machine : Machine}
    (spares : ∀ other, other ≠ system.running →
      Set.EqOn machine.memory system.machine.memory (layout.owned other)) :
    Sound layout entry { system with machine } := by
  refine ⟨sound.awake, ?_⟩
  intro thread call isSuspended
  have notRunning : thread ≠ system.running := by
    rintro rfl
    rw [sound.awake] at isSuspended
    cases isSuspended
  exact (sound.kept thread call isSuspended).congr (spares thread notRunning)

end Calls

/-! ## Whole runs -/

theorem Step.sound {system next : System ι} (step : Step layout entry system next)
    (sound : Sound layout entry system) : Sound layout entry next := by
  cases step with
  | computes machine spares => exact sound.computed spares
  | switches calls switched => exact sound.switched calls switched

theorem sound_of_run {start system : System ι}
    (fresh : ∀ thread, start.suspended thread = none)
    (run : Relation.ReflTransGen (Step layout entry) start system) :
    Sound layout entry system := by
  induction run with
  | refl =>
      refine ⟨fresh _, ?_⟩
      intro thread call isSuspended
      rw [fresh thread] at isSuspended
      cases isSuspended
  | tail _ step inductionHypothesis => exact step.sound inductionHypothesis

/-- Whatever the threads have done, a thread that is switched back to goes on
behind its call with what the call has to preserve, and nobody changes the
`Context` of another thread. -/
theorem continues_behind_its_call {start system : System ι}
    (fresh : ∀ thread, start.suspended thread = none)
    (run : Relation.ReflTransGen (Step layout entry) start system) {target : ι}
    (calls : CallsSwitch layout system target) (returnAddress : Address) :
    (∀ call, system.called returnAddress target = some call →
      ∃ next, system.switchTo entry target returnAddress = some next ∧
        next.machine.rip = call.returnAddress ∧
        calleeSaved next.machine = calleeSaved call.machine) ∧
    (∀ next, system.switchTo entry target returnAddress = some next →
      ∀ other, other ≠ system.running →
        Set.EqOn next.machine.memory system.machine.memory
          (contextSpan (layout.context other))) ∧
    ∀ thread call, system.suspended thread = some call →
      Holds system.machine.memory (layout.context thread)
        (calleeSaved (call.entered entry)) := by
  have sound := sound_of_run fresh run
  refine ⟨?_, ?_, ?_⟩
  · intro call called
    exact (calls.kept_called sound called).resumed calls
  · intro next switched other different
    rw [(switchTo_eq_some switched).1]
    exact (calls.saved_eqOn_other different).mono Set.subset_union_left
  · intro thread call isSuspended
    exact (sound.kept thread call isSuspended).holds

/-! ## Two threads -/

namespace TwoThreads

def places : Layout Bool where
  context thread := if thread then 0x2000 else 0x1000
  stack thread := if thread then span 0x20000 0x1000 else span 0x10000 0x1000
  contextsApart := by
    intro first second different
    cases first <;> cases second
    · exact absurd rfl different
    · exact disjoint_span (by decide) (by decide)
    · exact disjoint_span (by decide) (by decide)
    · exact absurd rfl different
  stacksApart := by
    intro first second different
    cases first <;> cases second
    · exact absurd rfl different
    · exact disjoint_span (by decide) (by decide)
    · exact disjoint_span (by decide) (by decide)
    · exact absurd rfl different
  apart := by
    intro first second
    cases first <;> cases second <;>
      exact disjoint_span (by decide) (by decide)

/-- The registers of a thread that calls `context_switch`. -/
def registers (rsp rbx old new : BitVec 64) : Register → BitVec 64
  | .rsp => rsp
  | .rbx => rbx
  | .rdi => old
  | .rsi => new
  | _ => 0

/-- The first thread runs, and all memory is zero. -/
def start : System Bool :=
  ⟨⟨registers 0x10800 7 0x1000 0x2000, .initial, 0x037F, 0, fun _ => 0⟩,
    false, fun _ => none⟩

end TwoThreads

/-- The second thread changes its registers and switches back to the first. -/
theorem continues_behind_its_call_twoThreads :
    ∃ system next : System Bool,
      Relation.ReflTransGen (Step TwoThreads.places 0x500000) TwoThreads.start system ∧
      system.running = true ∧ system.machine.registers .rbx = 9 ∧
      system.switchTo 0x500000 false 0x400200 = some next ∧
      next.machine.rip = 0x400100 ∧ next.machine.registers .rbx = 7 := by
  have switches : (TwoThreads.start.switchTo 0x500000 true 0x400100).isSome = true := by
    decide +kernel
  obtain ⟨second, switched⟩ := Option.isSome_iff_exists.mp switches
  obtain ⟨_, running, suspended⟩ := switchTo_eq_some switched
  have firstCalls : CallsSwitch TwoThreads.places TwoThreads.start true :=
    ⟨rfl, rfl, span_subset_of_sub (by decide)⟩
  let system : System Bool := { second with machine := { second.machine with
    registers := TwoThreads.registers 0x20800 9 0x2000 0x1000 } }
  have run : Relation.ReflTransGen (Step TwoThreads.places 0x500000)
      TwoThreads.start system :=
    (Relation.ReflTransGen.single (.switches firstCalls switched)).tail
      (.computes _ fun _ _ => Set.eqOn_refl _ _)
  have calls : CallsSwitch TwoThreads.places system false := by
    refine ⟨?_, rfl, ?_⟩
    · change _ = TwoThreads.places.context second.running
      rw [running]
      rfl
    · have slot : span (0x20800 - 8 : Address) 8 ⊆ span 0x20000 0x1000 :=
        span_subset_of_sub (by decide)
      change _ ⊆ TwoThreads.places.stack second.running
      rw [running]
      exact slot
  have called : system.called 0x400200 false =
      some ⟨TwoThreads.start.machine, 0x400100⟩ := by
    rw [System.called]
    change Function.update second.suspended second.running _ false = _
    rw [running, suspended]
    rfl
  obtain ⟨next, back, rip, saved⟩ :=
    (continues_behind_its_call (fun _ => rfl) run calls 0x400200).1 _ called
  exact ⟨system, next, run, running, rfl, back, rip, congrArg CalleeSaved.rbx saved⟩

end ChlorosSnfs.Chloros.SavedContexts
