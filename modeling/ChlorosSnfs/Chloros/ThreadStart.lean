import ChlorosSnfs.Chloros.ContextSwitch

/-!
# The first entry of a spawned thread

`Thread(true)` and `Spawn` prepare a `Context` and a stack, `context_switch`
returns into `start_thread`, and `start_thread` calls `thread_entry`.  The
stack is the 2 MB below its top.
-/

set_option autoImplicit false

namespace ChlorosSnfs.Chloros.ThreadStart

open ChlorosSnfs.Library.StructLayout
open ChlorosSnfs.Library.ByteMemory
open ChlorosSnfs.Library.Runs
open ChlorosSnfs.Library.Amd64
open ChlorosSnfs.Chloros.ContextSwitch

/-! ## The code -/

/-- Where the linker has put `start_thread`, `thread_entry` and the `hlt` behind
the call. -/
structure Symbols where
  startThread : Address
  threadEntry : Address
  hlt : Address

/-- `start_thread`. -/
def startThread (symbols : Symbols) : List Instruction := [
  .push .rbp,
  .movRegister .rsp .rbp,
  .movFromMemory ⟨0x8, .rbp⟩ .rdi,
  .movFromMemory ⟨0x10, .rbp⟩ .rsi,
  .callq symbols.threadEntry symbols.hlt]

/-- `kStackSize`. -/
def kStackSize : Nat := 1 <<< 21

/-- The bytes from `stack - kStackSize` up to `stack`. -/
def stackSpan (stack : Address) : Set Address :=
  span (stack - BitVec.ofNat 64 kStackSize) kStackSize

def storeField (memory : Memory 64) (context : Address) (field : ContextField)
    (value : Nat) : Memory 64 :=
  storeWord memory (fieldAddress context field) field.member.size value

def loadField (memory : Memory 64) (context : Address) (field : ContextField) :
    Nat :=
  loadWord memory (fieldAddress context field) field.member.size

/-- `context{}`, which makes every member zero. -/
def zeroFields : List Field :=
  ContextField.all.map fun field => ⟨field.offset, field.member.size, 0⟩

/-- What the constructor of `Thread` does to the `Context`. -/
def newThread (memory : Memory 64) (context : Address) : Memory 64 :=
  let memory := storeFields memory context zeroFields
  let memory := storeField memory context .mxcsr 0x1F80
  storeField memory context .x87 0x037F

/-- What `Spawn` writes to the stack, and the `rsp` it ends with. -/
def layOutStack (symbols : Symbols) (memory : Memory 64)
    (stack fn arg : BitVec 64) : Memory 64 × BitVec 64 :=
  let offset : BitVec 64 := 8
  let rsp := stack - 2 * offset
  let memory := storeWord memory rsp 8 arg.toNat
  let rsp := rsp - offset
  let memory := storeWord memory rsp 8 fn.toNat
  let rsp := rsp - offset
  let memory := storeWord memory rsp 8 symbols.startThread.toNat
  (memory, rsp)

/-- The memory `Spawn` has prepared. -/
def spawned (symbols : Symbols) (memory : Memory 64)
    (context stack fn arg : BitVec 64) : Memory 64 :=
  let (memory, rsp) :=
    layOutStack symbols (newThread memory context) stack fn arg
  storeField memory context .rsp rsp.toNat

/-! ## The `Context` -/

theorem fields_apart : ∀ first ∈ ContextField.all, ∀ second ∈ ContextField.all,
    first ≠ second → first.offset + first.member.size ≤ second.offset ∨
      second.offset + second.member.size ≤ first.offset := by
  decide

theorem field_within : ∀ field ∈ ContextField.all,
    field.offset + field.member.size ≤ sizeofContext := by
  decide

theorem disjoint_fields {first second : ContextField} (different : first ≠ second)
    (context : Address) :
    Disjoint (span (fieldAddress context first) first.member.size)
      (span (fieldAddress context second) second.member.size) := by
  have fits : sizeofContext ≤ 2 ^ 64 := by decide
  have firstFits := (field_within first first.mem_all).trans fits
  have secondFits := (field_within second second.mem_all).trans fits
  rcases fields_apart first first.mem_all second second.mem_all different with
    before | behind
  · exact disjoint_members before secondFits context
  · exact (disjoint_members behind firstFits context).symm

theorem loadField_storeField_other {memory : Memory 64} {context : Address}
    {field other : ContextField} (different : other ≠ field) (value : Nat) :
    loadField (storeField memory context field value) context other =
      loadField memory context other :=
  loadWord_storeWord_apart (disjoint_fields different context) value

theorem loadField_storeField_self (memory : Memory 64) (context : Address)
    (field : ContextField) (value : Nat) :
    loadField (storeField memory context field value) context field =
      value % 256 ^ field.member.size := by
  have fits : field.member.size ≤ 2 ^ 64 := by
    have inside := field_within field field.mem_all
    have small : sizeofContext ≤ 2 ^ 64 := by decide
    omega
  exact loadWord_storeWord_self memory _ fits value

theorem field_subset (context : Address) (field : ContextField) :
    span (fieldAddress context field) field.member.size ⊆ contextSpan context :=
  span_subset (field_within field field.mem_all) context

theorem storeField_eqOn (memory : Memory 64) (context : Address)
    (field : ContextField) (value : Nat) :
    Set.EqOn (storeField memory context field value) memory
      (contextSpan context)ᶜ :=
  (storeWord_eqOn _ _ _ _).mono
    (Set.compl_subset_compl.mpr (field_subset context field))

theorem layered_zeroFields : Layered zeroFields sizeofContext where
  ordered := by decide
  within := by decide

/-- The values of a `Context` that has not run yet. -/
def initialSaved (rsp : BitVec 64) : CalleeSaved where
  rsp := rsp
  r15 := 0
  r14 := 0
  r13 := 0
  r12 := 0
  rbx := 0
  rbp := 0
  mxcsr := .initial
  x87 := 0x037F

theorem loadField_zeroFields (memory : Memory 64) (context : Address)
    (field : ContextField) :
    loadField (storeFields memory context zeroFields) context field = 0 := by
  have member : (⟨field.offset, field.member.size, 0⟩ : Field) ∈ zeroFields :=
    List.mem_map_of_mem field.mem_all
  have fits : sizeofContext ≤ 2 ^ 64 := by decide
  have read := loadWord_storeFields layered_zeroFields fits memory context member
  rw [Nat.zero_mod] at read
  exact read

theorem loadField_newThread (memory : Memory 64) (context : Address)
    (field : ContextField) :
    loadField (newThread memory context) context field =
      (initialSaved 0).value field := by
  by_cases isX87 : field = .x87
  · rw [isX87]
    exact loadField_storeField_self _ _ _ _
  · rw [newThread, loadField_storeField_other isX87]
    by_cases isMxcsr : field = .mxcsr
    · rw [isMxcsr]
      exact loadField_storeField_self _ _ _ _
    · rw [loadField_storeField_other isMxcsr, loadField_zeroFields]
      cases field with
      | mxcsr => exact absurd rfl isMxcsr
      | x87 => exact absurd rfl isX87
      | _ => rfl

/-- A field that is used in part holds a value that fits into that part. -/
theorem holds_of_loadField {memory : Memory 64} {context : Address}
    {saved : CalleeSaved}
    (fields : ∀ field, loadField memory context field = saved.value field) :
    Holds memory context saved := by
  intro field
  have shorter : field.usedLength ≤ field.member.size := by
    cases field <;> decide
  have whole := fields field
  rw [loadField] at whole
  rw [loadWord_low memory _ shorter, whole]
  exact Nat.mod_eq_of_lt (value_lt saved field)

/-! ## The stack -/

section Stack

variable {symbols : Symbols} {memory : Memory 64} {context stack fn arg : BitVec 64}

theorem sub_sub_words (stack : Address) (first second : BitVec 64) :
    (stack - first) - (stack - second) = second - first :=
  sub_sub_sub_cancel_left first second stack

/-- The word so far below the top is on the stack. -/
theorem word_on_stack {below : BitVec 64} (fits : 8 ≤ below.toNat)
    (inside : below.toNat ≤ kStackSize) (stack : Address) :
    span (stack - below) 8 ⊆ stackSpan stack := by
  apply span_subset_of_sub
  have size : kStackSize = 2097152 := rfl
  rw [sub_sub_words]
  bv_omega

theorem words_apart {below other : BitVec 64} (higher : 8 ≤ (other - below).toNat)
    (lower : 8 ≤ (below - other).toNat) (stack : Address) :
    Disjoint (span (stack - below) 8) (span (stack - other) 8) := by
  apply disjoint_span
  · rwa [sub_sub_words]
  · rwa [sub_sub_words]

/-- The words that `start_thread` reads. -/
structure Arguments (memory : Memory 64) (stack fn arg : BitVec 64) : Prop where
  fn : loadWord memory (stack - 24) 8 = fn.toNat
  arg : loadWord memory (stack - 16) 8 = arg.toNat

/-- With the word `context_switch` returns to. -/
structure Frame (symbols : Symbols) (memory : Memory 64) (stack fn arg : BitVec 64) :
    Prop where
  entry : loadWord memory (stack - 32) 8 = symbols.startThread.toNat
  arguments : Arguments memory stack fn arg

theorem layOutStack_eq (symbols : Symbols) (memory : Memory 64)
    (stack fn arg : BitVec 64) :
    layOutStack symbols memory stack fn arg =
      (storeWord (storeWord (storeWord memory (stack - 16) 8 arg.toNat)
        (stack - 24) 8 fn.toNat) (stack - 32) 8 symbols.startThread.toNat,
        stack - 32) := by
  have first : stack - 2 * 8 = stack - 16 := by rfl
  have second : stack - 16 - 8 = stack - 24 := sub_sub stack 16 8
  have third : stack - 24 - 8 = stack - 32 := sub_sub stack 24 8
  rw [layOutStack]
  simp only [first, second, third]

theorem frame_layOutStack (symbols : Symbols) (memory : Memory 64)
    (stack fn arg : BitVec 64) :
    Frame symbols (layOutStack symbols memory stack fn arg).1 stack fn arg := by
  have entryFn : Disjoint (span (stack - 24) 8) (span (stack - 32) 8) :=
    words_apart (by decide) (by decide) stack
  have entryArg : Disjoint (span (stack - 16) 8) (span (stack - 32) 8) :=
    words_apart (by decide) (by decide) stack
  have fnArg : Disjoint (span (stack - 16) 8) (span (stack - 24) 8) :=
    words_apart (by decide) (by decide) stack
  rw [layOutStack_eq]
  refine ⟨loadWord_storeWord _ _ _, ?_, ?_⟩
  · rw [loadWord_storeWord_apart entryFn]
    exact loadWord_storeWord _ _ _
  · rw [loadWord_storeWord_apart entryArg, loadWord_storeWord_apart fnArg]
    exact loadWord_storeWord _ _ _

theorem layOutStack_eqOn (symbols : Symbols) (memory : Memory 64)
    (stack fn arg : BitVec 64) :
    Set.EqOn (layOutStack symbols memory stack fn arg).1 memory
      (stackSpan stack)ᶜ := by
  have stored {below : BitVec 64} (fits : 8 ≤ below.toNat)
      (inside : below.toNat ≤ kStackSize) (memory : Memory 64) (value : Nat) :
      Set.EqOn (storeWord memory (stack - below) 8 value) memory
        (stackSpan stack)ᶜ :=
    (storeWord_eqOn memory (stack - below) 8 value).mono
      (Set.compl_subset_compl.mpr (word_on_stack fits inside stack))
  rw [layOutStack_eq]
  exact ((stored (by decide) (by decide) _ _).trans
    (stored (by decide) (by decide) _ _)).trans (stored (by decide) (by decide) _ _)

theorem Arguments.congr {other : Memory 64} (arguments : Arguments memory stack fn arg)
    (same : Set.EqOn other memory (span (stack - 24) 16)) :
    Arguments other stack fn arg := by
  have lower : span (stack - 24) 8 ⊆ span (stack - 24) 16 := by
    apply span_subset_of_sub
    rw [sub_sub_words]
    decide
  have upper : span (stack - 16) 8 ⊆ span (stack - 24) 16 := by
    apply span_subset_of_sub
    rw [sub_sub_words]
    decide
  refine ⟨?_, ?_⟩
  · rw [loadWord_congr (same.mono lower)]
    exact arguments.fn
  · rw [loadWord_congr (same.mono upper)]
    exact arguments.arg

theorem Frame.congr {other : Memory 64} (frame : Frame symbols memory stack fn arg)
    (same : Set.EqOn other memory (stackSpan stack)) :
    Frame symbols other stack fn arg := by
  have arguments : span (stack - 24) 16 ⊆ stackSpan stack := by
    apply span_subset_of_sub
    rw [sub_sub_words]
    decide
  refine ⟨?_, frame.arguments.congr (same.mono arguments)⟩
  rw [loadWord_congr (same.mono (word_on_stack (by decide) (by decide) stack))]
  exact frame.entry

/-! ## The spawned thread -/

theorem spawned_eq (symbols : Symbols) (memory : Memory 64)
    (context stack fn arg : BitVec 64) :
    spawned symbols memory context stack fn arg =
      storeField (layOutStack symbols (newThread memory context) stack fn arg).1
        context .rsp (stack - 32).toNat := by
  rw [spawned, layOutStack_eq]

theorem holds_spawned (symbols : Symbols) (memory : Memory 64)
    (context stack fn arg : BitVec 64)
    (apart : Disjoint (contextSpan context) (stackSpan stack)) :
    Holds (spawned symbols memory context stack fn arg) context
      (initialSaved (stack - 32)) := by
  apply holds_of_loadField
  intro field
  rw [spawned_eq]
  by_cases isRsp : field = .rsp
  · rw [isRsp]
    exact loadWord_storeWord _ _ _
  · have kept := (layOutStack_eqOn symbols (newThread memory context) stack fn
      arg).mono (Set.subset_compl_iff_disjoint_right.mpr apart)
    have initially := loadField_newThread memory context field
    rw [loadField_storeField_other isRsp, loadField,
      loadWord_congr (kept.mono (field_subset context field))]
    cases field with
    | rsp => exact absurd rfl isRsp
    | _ => exact initially

theorem frame_spawned (symbols : Symbols) (memory : Memory 64)
    (context stack fn arg : BitVec 64)
    (apart : Disjoint (contextSpan context) (stackSpan stack)) :
    Frame symbols (spawned symbols memory context stack fn arg) stack fn arg := by
  have laidOut := frame_layOutStack symbols (newThread memory context) stack fn arg
  have stored := storeField_eqOn
    (layOutStack symbols (newThread memory context) stack fn arg).1 context .rsp
    (stack - 32).toNat
  rw [spawned_eq]
  exact laidOut.congr
    (stored.mono (Set.subset_compl_iff_disjoint_right.mpr apart.symm))

/-- `start_thread` pushes into the slot it has been returned from, so the words
above it are still there. -/
theorem startThread_writes {machine : Machine}
    (onTop : machine.registers .rsp = stack - 24) :
    WritesWithin (span (stack - 40) 16) machine (startThread symbols) := by
  have slot : machine.registers .rsp - 8 = stack - 32 := by
    rw [onTop]
    exact sub_sub stack 24 8
  have below : stack - 32 - 8 = stack - 40 := sub_sub stack 32 8
  have pushed : span (stack - 32) 8 ⊆ span (stack - 40) 16 := by
    apply span_subset_of_sub
    rw [sub_sub_words]
    decide
  have called : span (stack - 40) 8 ⊆ span (stack - 40) 16 := by
    apply span_subset_of_sub
    rw [sub_sub_words]
    decide
  simp only [WritesWithin, startThread, EveryStep, step, writes, Option.some.injEq,
    forall_eq', Machine.pushed, Machine.write, Machine.setRegister,
    Function.update_self, Function.update_of_ne, ne_eq, reduceCtorEq,
    not_false_eq_true, Set.empty_subset, slot, below, pushed, called, and_self]

/-- What `thread_entry` finds. -/
structure EntersThread (symbols : Symbols) (stack fn arg : BitVec 64)
    (machine : Machine) : Prop where
  rip : machine.rip = symbols.threadEntry
  rdi : machine.registers .rdi = fn
  rsi : machine.registers .rsi = arg
  rsp : machine.registers .rsp = stack - 40
  returnAddress : loadWord machine.memory (stack - 40) 8 = symbols.hlt.toNat
  mxcsr : machine.mxcsr.bits = 0x1F80
  x87 : machine.x87 = 0x037F

theorem execute_startThread {machine : Machine}
    (onTop : machine.registers .rsp = stack - 24)
    (mxcsr : machine.mxcsr.bits = 0x1F80) (x87 : machine.x87 = 0x037F)
    (arguments : Arguments machine.memory stack fn arg) :
    ∃ final, execute machine (startThread symbols) = some final ∧
      EntersThread symbols stack fn arg final := by
  have slot : machine.registers .rsp - 8 = stack - 32 := by
    rw [onTop]
    exact sub_sub stack 24 8
  have below : stack - 32 - 8 = stack - 40 := sub_sub stack 32 8
  have fnPlace : stack - 32 + BitVec.ofNat 64 0x8 = stack - 24 := by bv_omega
  have argPlace : stack - 32 + BitVec.ofNat 64 0x10 = stack - 16 := by bv_omega
  have entryFn : Disjoint (span (stack - 24) 8) (span (stack - 32) 8) :=
    words_apart (by decide) (by decide) stack
  have entryArg : Disjoint (span (stack - 16) 8) (span (stack - 32) 8) :=
    words_apart (by decide) (by decide) stack
  simp only [execute, startThread, runLabels, step, Option.bind_some, Machine.pushed,
    Machine.write, Machine.setRegister, Machine.address, Machine.read64,
    Function.update_self, Function.update_of_ne, ne_eq, reduceCtorEq,
    not_false_eq_true, slot, below, fnPlace, argPlace,
    loadWord_storeWord_apart entryFn, loadWord_storeWord_apart entryArg,
    arguments.fn, arguments.arg, BitVec.ofNat_toNat, BitVec.setWidth_eq, Option.some.injEq,
    exists_eq_left']
  exact ⟨rfl, rfl, rfl, rfl, loadWord_storeWord _ _ _, mxcsr, x87⟩

end Stack

/-! ## Up to `thread_entry` -/

/-- The `Context` of the switching thread, the new one and the new stack. -/
structure Placed (old new stack : Address) : Prop where
  aligned : stack.toNat % 16 = 0
  contextsApart : Disjoint (contextSpan old) (contextSpan new)
  oldApart : Disjoint (contextSpan old) (stackSpan stack)
  newApart : Disjoint (contextSpan new) (stackSpan stack)

/-- `Spawn` has prepared the `Context` at `%rsi` and the stack, and nobody has
touched them since. -/
structure Prepared (symbols : Symbols) (machine : Machine)
    (stack fn arg : BitVec 64) : Prop where
  placed : Placed (machine.registers .rdi) (machine.registers .rsi) stack
  untouched : ∃ before, Set.EqOn machine.memory
    (spawned symbols before (machine.registers .rsi) stack fn arg)
    (contextSpan (machine.registers .rsi) ∪ stackSpan stack)

section Prepared

variable {symbols : Symbols} {machine : Machine} {stack fn arg : BitVec 64}

theorem Prepared.holds (prepared : Prepared symbols machine stack fn arg) :
    Holds (savedMemory machine) (machine.registers .rsi)
      (initialSaved (stack - 32)) := by
  obtain ⟨before, untouched⟩ := prepared.untouched
  have spawned := holds_spawned symbols before (machine.registers .rsi) stack fn arg
    prepared.placed.newApart
  have saved := (savedMemory_eqOn machine).mono
    (Set.subset_compl_iff_disjoint_left.mpr prepared.placed.contextsApart)
  exact (spawned.congr (untouched.mono Set.subset_union_left)).congr saved

theorem Prepared.frame (prepared : Prepared symbols machine stack fn arg) :
    Frame symbols machine.memory stack fn arg := by
  obtain ⟨before, untouched⟩ := prepared.untouched
  have spawned := frame_spawned symbols before (machine.registers .rsi) stack fn arg
    prepared.placed.newApart
  exact spawned.congr (untouched.mono Set.subset_union_right)

/-- `context_switch` stores nothing on the new stack. -/
theorem Prepared.frame_everywhere (prepared : Prepared symbols machine stack fn arg) :
    Everywhere step (fun state => Frame symbols state.memory stack fn arg) machine
      contextSwitch := by
  apply (everywhere_memory (contextSwitch_writes machine)).mono
  intro state same
  exact prepared.frame.congr
    (same.mono (Set.subset_compl_iff_disjoint_left.mpr prepared.placed.oldApart))

/-- The spawned thread at its first instruction. -/
structure Started (symbols : Symbols) (stack fn arg : BitVec 64) (machine : Machine) :
    Prop where
  rip : machine.rip = symbols.startThread
  rsp : machine.registers .rsp = stack - 24
  mxcsr : machine.mxcsr.bits = 0x1F80
  x87 : machine.x87 = 0x037F
  arguments : Arguments machine.memory stack fn arg

theorem Prepared.started (prepared : Prepared symbols machine stack fn arg) :
    ∃ started, execute machine contextSwitch = some started ∧
      Started symbols stack fn arg started := by
  have frame : Frame symbols (savedMemory machine) stack fn arg :=
    prepared.frame.congr ((savedMemory_eqOn machine).mono
      (Set.subset_compl_iff_disjoint_left.mpr prepared.placed.oldApart))
  obtain ⟨started, executed, restored⟩ := execute_contextSwitch prepared.holds
  have rip : started.rip = BitVec.ofNat 64 (loadWord (savedMemory machine) (stack - 32) 8) :=
    restored.rip
  have rsp : started.registers .rsp = stack - 32 + 8 :=
    congrArg CalleeSaved.rsp restored.calleeSaved
  have mxcsr : started.mxcsr = (initialSaved (stack - 32)).mxcsr :=
    congrArg CalleeSaved.mxcsr restored.calleeSaved
  have memory : started.memory = savedMemory machine := restored.memory
  refine ⟨started, executed, ?_, ?_, ?_, ?_, ?_⟩
  · rw [rip, frame.entry, BitVec.ofNat_toNat, BitVec.setWidth_eq]
  · rw [rsp]
    exact sub_add stack 32 8
  · rw [mxcsr]
    rfl
  · exact congrArg CalleeSaved.x87 restored.calleeSaved
  · rw [memory]
    exact frame.arguments

/-- The words stand until they are loaded, and beyond. -/
theorem Started.arguments_everywhere (started : Started symbols stack fn arg machine) :
    Everywhere step (fun state => Arguments state.memory stack fn arg) machine
      (startThread symbols) := by
  have apart : Disjoint (span (stack - 40) 16) (span (stack - 24) 16) := by
    apply disjoint_span
    · rw [sub_sub_words]
      decide
    · rw [sub_sub_words]
      decide
  apply (everywhere_memory (startThread_writes started.rsp)).mono
  intro state same
  exact started.arguments.congr
    (same.mono (Set.subset_compl_iff_disjoint_left.mpr apart))

theorem startThread_slots (stack : Address) :
    span (stack - 40) 16 ⊆ stackSpan stack := by
  apply span_subset_of_sub
  rw [sub_sub_words]
  decide

/-- The first entry of a spawned thread: what is executed, what its stores reach,
and what it finds. -/
structure FirstEntry (symbols : Symbols) (machine : Machine) (stack fn arg : BitVec 64)
    (started final : Machine) : Prop where
  switched : execute machine contextSwitch = some started
  returned : started.rip = symbols.startThread
  called : execute started (startThread symbols) = some final
  enters : EntersThread symbols stack fn arg final
  aligned : (final.registers .rsp).toNat % 16 = 8
  switchStores : WritesWithin (contextSpan (machine.registers .rdi)) machine contextSwitch
  startStores : WritesWithin (stackSpan stack) started (startThread symbols)
  switchKeeps : Everywhere step (fun state => Frame symbols state.memory stack fn arg)
    machine contextSwitch
  startKeeps : Everywhere step (fun state => Arguments state.memory stack fn arg)
    started (startThread symbols)

/-- Whatever the switching thread's registers, the spawned thread gets to
`thread_entry` with its function and argument and an aligned stack. -/
theorem reaches_thread_entry (prepared : Prepared symbols machine stack fn arg) :
    ∃ started final, FirstEntry symbols machine stack fn arg started final := by
  obtain ⟨started, switched, isStarted⟩ := prepared.started
  obtain ⟨final, called, enters⟩ := execute_startThread isStarted.rsp isStarted.mxcsr
    isStarted.x87 isStarted.arguments
  have aligned := prepared.placed.aligned
  refine ⟨started, final, switched, isStarted.rip, called, enters, ?_,
    contextSwitch_writes machine,
    (startThread_writes isStarted.rsp).mono (startThread_slots stack),
    prepared.frame_everywhere, isStarted.arguments_everywhere⟩
  rw [enters.rsp]
  bv_omega

end Prepared

/-! ## A worker with the argument 42 -/

namespace Worker

def symbols : Symbols := ⟨0x401000, 0x402000, 0x401014⟩

/-- The switching thread's `Context` is at `0x1000`, the new one at `0x2000`. -/
def machine : Machine where
  registers
    | .rsp => 0x10800
    | .rdi => 0x1000
    | .rsi => 0x2000
    | _ => 0
  mxcsr := ⟨0x9FC0, by decide⟩
  x87 := 0x027F
  rip := 0x400000
  memory := spawned symbols (fun _ => 0xCC) 0x2000 0x800000 0x403000 42

theorem placed : Placed 0x1000 0x2000 0x800000 where
  aligned := by decide
  contextsApart := disjoint_span (by decide) (by decide)
  oldApart := disjoint_span (by decide) (by decide)
  newApart := disjoint_span (by decide) (by decide)

end Worker

theorem reaches_thread_entry_worker :
    ∃ started final,
      FirstEntry Worker.symbols Worker.machine 0x800000 0x403000 42 started final :=
  reaches_thread_entry ⟨Worker.placed, _, Set.eqOn_refl _ _⟩

end ChlorosSnfs.Chloros.ThreadStart
