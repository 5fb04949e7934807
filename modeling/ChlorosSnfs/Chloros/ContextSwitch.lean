import ChlorosSnfs.Library.Amd64
import ChlorosSnfs.Library.StructLayout

/-!
# context_switch.S

`context_switch` saves what a call preserves into the `Context` at `%rdi` and
restores it from the one at `%rsi`.  The offsets of the code are its own; those
of the `Context` fields are computed from the declaration in chloros.h.
-/

set_option autoImplicit false

namespace ChlorosSnfs.Chloros.ContextSwitch

open ChlorosSnfs.Library.StructLayout
open ChlorosSnfs.Library.ByteMemory
open ChlorosSnfs.Library.Runs
open ChlorosSnfs.Library.Amd64

/-! ## `struct Context` -/

inductive ContextField where
  | rsp
  | r15
  | r14
  | r13
  | r12
  | rbx
  | rbp
  | mxcsr
  | x87
  deriving DecidableEq, Repr

namespace ContextField

/-- In the order of their declaration. -/
def all : List ContextField :=
  [.rsp, .r15, .r14, .r13, .r12, .rbx, .rbp, .mxcsr, .x87]

/-- `uint64_t` or `uint32_t`. -/
def member : ContextField → Member
  | .mxcsr => ⟨4, 4⟩
  | .x87 => ⟨4, 4⟩
  | _ => ⟨8, 8⟩

end ContextField

def contextStruct : Struct := ⟨false, ContextField.all.map ContextField.member⟩

/-- `sizeof(Context)`. -/
def sizeofContext : Nat := contextStruct.sizeof

/-- `offsetof(Context, field)`. -/
def ContextField.offset (field : ContextField) : Nat :=
  contextStruct.offsets.getD (ContextField.all.idxOf field) 0

/-- The bytes of a `Context`. -/
def contextSpan (context : Address) : Set Address := span context sizeofContext

def fieldAddress (context : Address) (field : ContextField) : Address :=
  context + BitVec.ofNat 64 field.offset

/-! ## The code -/

def saveContext : List Instruction := [
  .movToMemory .rsp ⟨0x0, .rdi⟩,
  .movToMemory .r15 ⟨0x8, .rdi⟩,
  .movToMemory .r14 ⟨0x10, .rdi⟩,
  .movToMemory .r13 ⟨0x18, .rdi⟩,
  .movToMemory .r12 ⟨0x20, .rdi⟩,
  .movToMemory .rbx ⟨0x28, .rdi⟩,
  .movToMemory .rbp ⟨0x30, .rdi⟩,
  .stmxcsr ⟨0x38, .rdi⟩,
  .fnstcw ⟨0x3C, .rdi⟩]

def restoreContext : List Instruction := [
  .movFromMemory ⟨0x0, .rsi⟩ .rsp,
  .movFromMemory ⟨0x8, .rsi⟩ .r15,
  .movFromMemory ⟨0x10, .rsi⟩ .r14,
  .movFromMemory ⟨0x18, .rsi⟩ .r13,
  .movFromMemory ⟨0x20, .rsi⟩ .r12,
  .movFromMemory ⟨0x28, .rsi⟩ .rbx,
  .movFromMemory ⟨0x30, .rsi⟩ .rbp,
  .ldmxcsr ⟨0x38, .rsi⟩,
  .fldcw ⟨0x3C, .rsi⟩,
  .ret]

/-- `context_switch`. -/
def contextSwitch : List Instruction := saveContext ++ restoreContext

/-! ## What it saves and restores -/

/-- What a call preserves of its caller. -/
structure CalleeSaved where
  rsp : BitVec 64
  r15 : BitVec 64
  r14 : BitVec 64
  r13 : BitVec 64
  r12 : BitVec 64
  rbx : BitVec 64
  rbp : BitVec 64
  mxcsr : Mxcsr
  x87 : BitVec 16

def calleeSaved (machine : Machine) : CalleeSaved where
  rsp := machine.registers .rsp
  r15 := machine.registers .r15
  r14 := machine.registers .r14
  r13 := machine.registers .r13
  r12 := machine.registers .r12
  rbx := machine.registers .rbx
  rbp := machine.registers .rbp
  mxcsr := machine.mxcsr
  x87 := machine.x87

/-- What the field of a `Context` is for. -/
def CalleeSaved.value (saved : CalleeSaved) : ContextField → Nat
  | .rsp => saved.rsp.toNat
  | .r15 => saved.r15.toNat
  | .r14 => saved.r14.toNat
  | .r13 => saved.r13.toNat
  | .r12 => saved.r12.toNat
  | .rbx => saved.rbx.toNat
  | .rbp => saved.rbp.toNat
  | .mxcsr => saved.mxcsr.bits.toNat
  | .x87 => saved.x87.toNat

/-- How many bytes of a field are used: `fnstcw` and `fldcw` use two of four. -/
def ContextField.usedLength : ContextField → Nat
  | .mxcsr => 4
  | .x87 => 2
  | _ => 8

/-- The `Context` at this address holds these values. -/
def Holds (memory : Memory 64) (context : Address) (saved : CalleeSaved) : Prop :=
  ∀ field, loadWord memory (fieldAddress context field) field.usedLength =
    saved.value field

/-- What `context_switch` stores, in the order of its code. -/
def savedFields (saved : CalleeSaved) : List Field :=
  ContextField.all.map fun field =>
    ⟨field.offset, field.usedLength, saved.value field⟩

/-- The offsets in the code are those of the fields. -/
theorem savedFields_eq (saved : CalleeSaved) : savedFields saved = [
    ⟨0x0, 8, saved.rsp.toNat⟩,
    ⟨0x8, 8, saved.r15.toNat⟩,
    ⟨0x10, 8, saved.r14.toNat⟩,
    ⟨0x18, 8, saved.r13.toNat⟩,
    ⟨0x20, 8, saved.r12.toNat⟩,
    ⟨0x28, 8, saved.rbx.toNat⟩,
    ⟨0x30, 8, saved.rbp.toNat⟩,
    ⟨0x38, 4, saved.mxcsr.bits.toNat⟩,
    ⟨0x3C, 2, saved.x87.toNat⟩] := rfl

theorem layered_savedFields (saved : CalleeSaved) :
    Layered (savedFields saved) sizeofContext where
  ordered := by
    have ordered : ContextField.all.Pairwise fun first second =>
        first.offset + first.usedLength ≤ second.offset := by decide
    exact List.pairwise_map.mpr ordered
  within := by
    have within : ∀ field ∈ ContextField.all,
        field.offset + field.usedLength ≤ sizeofContext := by decide
    exact List.forall_mem_map.mpr within

theorem value_lt (saved : CalleeSaved) (field : ContextField) :
    saved.value field < 256 ^ field.usedLength := by
  cases field <;> exact BitVec.isLt _

theorem ContextField.mem_all (field : ContextField) : field ∈ all := by
  cases field <;> decide

theorem holds_storeFields (memory : Memory 64) (context : Address)
    (saved : CalleeSaved) :
    Holds (storeFields memory context (savedFields saved)) context saved := by
  intro field
  have member : (⟨field.offset, field.usedLength, saved.value field⟩ : Field) ∈
      savedFields saved := List.mem_map_of_mem field.mem_all
  have read := loadWord_storeFields (layered_savedFields saved) (by decide) memory
    context member
  rw [Nat.mod_eq_of_lt (value_lt saved field)] at read
  exact read

theorem Holds.congr {memory other : Memory 64} {context : Address}
    {saved : CalleeSaved} (holds : Holds memory context saved)
    (same : Set.EqOn other memory (contextSpan context)) :
    Holds other context saved := by
  intro field
  have inside : span (fieldAddress context field) field.usedLength ⊆
      contextSpan context := by
    apply span_subset
    cases field <;> decide
  rw [loadWord_congr (same.mono inside)]
  exact holds field

/-- The memory after the first half of `context_switch`. -/
def savedMemory (machine : Machine) : Memory 64 :=
  storeFields machine.memory (machine.registers .rdi)
    (savedFields (calleeSaved machine))

theorem savedMemory_eqOn (machine : Machine) :
    Set.EqOn (savedMemory machine) machine.memory
      (contextSpan (machine.registers .rdi))ᶜ :=
  storeFields_eqOn (layered_savedFields _) _ _

theorem execute_saveContext (machine : Machine) :
    execute machine saveContext =
      some { machine with memory := savedMemory machine } := by
  rw [savedMemory, savedFields_eq]
  simp only [execute, saveContext, runLabels, step, Option.bind_some,
    Machine.write, Machine.address, storeFields, calleeSaved]

/-- Execution goes on at the address on top of the restored stack. -/
structure Restored (machine final : Machine) (saved : CalleeSaved) : Prop where
  rip : final.rip = machine.read64 saved.rsp
  calleeSaved : calleeSaved final = { saved with rsp := saved.rsp + 8 }
  memory : final.memory = machine.memory

theorem Holds.execute_restoreContext {machine : Machine} {saved : CalleeSaved}
    (holds : Holds machine.memory (machine.registers .rsi) saved) :
    ∃ final, execute machine restoreContext = some final ∧
      Restored machine final saved := by
  have rsp : loadWord machine.memory
      (machine.registers .rsi + BitVec.ofNat 64 0x0) 8 = saved.rsp.toNat := holds .rsp
  have r15 : loadWord machine.memory
      (machine.registers .rsi + BitVec.ofNat 64 0x8) 8 = saved.r15.toNat := holds .r15
  have r14 : loadWord machine.memory
      (machine.registers .rsi + BitVec.ofNat 64 0x10) 8 = saved.r14.toNat := holds .r14
  have r13 : loadWord machine.memory
      (machine.registers .rsi + BitVec.ofNat 64 0x18) 8 = saved.r13.toNat := holds .r13
  have r12 : loadWord machine.memory
      (machine.registers .rsi + BitVec.ofNat 64 0x20) 8 = saved.r12.toNat := holds .r12
  have rbx : loadWord machine.memory
      (machine.registers .rsi + BitVec.ofNat 64 0x28) 8 = saved.rbx.toNat := holds .rbx
  have rbp : loadWord machine.memory
      (machine.registers .rsi + BitVec.ofNat 64 0x30) 8 = saved.rbp.toNat := holds .rbp
  have mxcsr : loadWord machine.memory
      (machine.registers .rsi + BitVec.ofNat 64 0x38) 4 = saved.mxcsr.bits.toNat :=
    holds .mxcsr
  have x87 : loadWord machine.memory
      (machine.registers .rsi + BitVec.ofNat 64 0x3C) 2 = saved.x87.toNat := holds .x87
  simp only [execute, restoreContext, runLabels, step, Option.bind_some,
    Machine.setRegister, Machine.address, Machine.read64, Function.update_self,
    Function.update_of_ne, ne_eq, reduceCtorEq, not_false_eq_true, rsp, r15, r14, r13,
    r12, rbx, rbp, mxcsr, BitVec.ofNat_toNat, BitVec.setWidth_eq, saved.mxcsr.reserved,
    dite_true, x87, Option.some.injEq, exists_eq_left']
  exact ⟨rfl, rfl, rfl⟩

theorem execute_contextSwitch_eq (machine : Machine) :
    execute machine contextSwitch =
      execute { machine with memory := savedMemory machine } restoreContext := by
  have savedFirst := execute_saveContext machine
  rw [execute] at savedFirst
  rw [execute, contextSwitch, runLabels_append, savedFirst, Option.bind_some, execute]

/-- Both halves, where the `Context` at `%rsi` holds proper values by then. -/
theorem execute_contextSwitch {machine : Machine} {saved : CalleeSaved}
    (holds : Holds (savedMemory machine) (machine.registers .rsi) saved) :
    ∃ final, execute machine contextSwitch = some final ∧
      Restored { machine with memory := savedMemory machine } final saved := by
  have restores : Holds ({ machine with memory := savedMemory machine } : Machine).memory
      (machine.registers .rsi) saved := holds
  obtain ⟨final, executed, restored⟩ := restores.execute_restoreContext
  exact ⟨final, (execute_contextSwitch_eq machine).trans executed, restored⟩

/-- The second half stores nothing. -/
theorem execute_contextSwitch_memory {machine final : Machine}
    (executed : execute machine contextSwitch = some final) :
    final.memory = savedMemory machine := by
  rw [execute_contextSwitch_eq] at executed
  have storesNone : ∀ instruction ∈ restoreContext,
      instruction.storesInto .rdi 0 = true := by decide
  have within : WritesWithin (span (machine.registers .rdi) 0)
      { machine with memory := savedMemory machine } restoreContext :=
    writesWithin_record storesNone
  funext address
  exact execute_memory within executed (Nat.not_lt_zero _)

theorem contextSwitch_writes (machine : Machine) :
    WritesWithin (contextSpan (machine.registers .rdi)) machine contextSwitch := by
  apply writesWithin_record
  decide

end ChlorosSnfs.Chloros.ContextSwitch
