import ChlorosSnfs.Library.ByteMemory
import ChlorosSnfs.Library.Runs
import Mathlib.Logic.Function.Basic

/-!
# A part of AMD64

The moves, the two floating-point control words and the transfers of control
that save and restore an execution context.  Operands are 64 bits wide and
addresses wrap around.  Code is a list of instructions that are executed one
after the other; only `callq` and `ret` say where execution goes on.  Paging,
segments and flags are left out.
-/

set_option autoImplicit false

namespace ChlorosSnfs.Library.Amd64

open ChlorosSnfs.Library.ByteMemory
open ChlorosSnfs.Library.Runs

abbrev Address : Type := BitVec 64

inductive Register where
  | rax
  | rcx
  | rdx
  | rbx
  | rsp
  | rbp
  | rsi
  | rdi
  | r8
  | r9
  | r10
  | r11
  | r12
  | r13
  | r14
  | r15
  deriving DecidableEq, Repr

/-- MXCSR.  Its upper half is reserved, and loading anything else than zeros into
it faults. -/
structure Mxcsr where
  bits : BitVec 32
  reserved : bits.extractLsb' 16 16 = 0
  deriving DecidableEq

/-- With all exceptions masked. -/
def Mxcsr.initial : Mxcsr := ⟨0x1F80, by decide⟩

/-- `rip` is where the last transfer of control has gone. -/
structure Machine where
  registers : Register → BitVec 64
  mxcsr : Mxcsr
  x87 : BitVec 16
  rip : Address
  memory : Memory 64

/-- `displacement(%base)`. -/
structure Operand where
  displacement : Nat
  base : Register

inductive Instruction where
  | movToMemory (source : Register) (target : Operand)
  | movFromMemory (source : Operand) (target : Register)
  | movRegister (source target : Register)
  | stmxcsr (target : Operand)
  | ldmxcsr (source : Operand)
  | fnstcw (target : Operand)
  | fldcw (source : Operand)
  | push (source : Register)
  | callq (target returnAddress : Address)
  | ret

namespace Machine

def address (machine : Machine) (operand : Operand) : Address :=
  machine.registers operand.base + BitVec.ofNat 64 operand.displacement

def setRegister (machine : Machine) (register : Register) (value : BitVec 64) :
    Machine :=
  { machine with registers := Function.update machine.registers register value }

/-- A store of so many bytes of a word. -/
def write (machine : Machine) (target : Address) (length value : Nat) : Machine :=
  { machine with memory := storeWord machine.memory target length value }

def read64 (machine : Machine) (source : Address) : BitVec 64 :=
  BitVec.ofNat 64 (loadWord machine.memory source 8)

/-- The stack grows downwards. -/
def pushed (machine : Machine) (value : BitVec 64) : Machine :=
  (machine.setRegister .rsp (machine.registers .rsp - 8)).write
    (machine.registers .rsp - 8) 8 value.toNat

end Machine

/-- One instruction; `none` for a fault. -/
def step (machine : Machine) : Instruction → Option Machine
  | .movToMemory source target =>
      some (machine.write (machine.address target) 8
        (machine.registers source).toNat)
  | .movFromMemory source target =>
      some (machine.setRegister target (machine.read64 (machine.address source)))
  | .movRegister source target =>
      some (machine.setRegister target (machine.registers source))
  | .stmxcsr target =>
      some (machine.write (machine.address target) 4 machine.mxcsr.bits.toNat)
  | .ldmxcsr source =>
      let bits := BitVec.ofNat 32 (loadWord machine.memory (machine.address source) 4)
      if reserved : bits.extractLsb' 16 16 = 0 then
        some { machine with mxcsr := ⟨bits, reserved⟩ }
      else none
  | .fnstcw target =>
      some (machine.write (machine.address target) 2 machine.x87.toNat)
  | .fldcw source =>
      some { machine with
        x87 := BitVec.ofNat 16 (loadWord machine.memory (machine.address source) 2) }
  | .push source => some (machine.pushed (machine.registers source))
  | .callq target returnAddress =>
      some { machine.pushed returnAddress with rip := target }
  | .ret =>
      some { machine.setRegister .rsp (machine.registers .rsp + 8) with
        rip := machine.read64 (machine.registers .rsp) }

/-- A word of 64 bits is read back. -/
theorem loadWord_storeWord (memory : Memory 64) (target : Address)
    (value : BitVec 64) :
    loadWord (storeWord memory target 8 value.toNat) target 8 = value.toNat := by
  have fits : 8 ≤ 2 ^ 64 := by decide
  rw [loadWord_storeWord_self memory target fits]
  exact Nat.mod_eq_of_lt value.isLt

theorem setRegister_other {machine : Machine} {register other : Register}
    {value : BitVec 64} (different : register ≠ other) :
    (machine.setRegister register value).registers other =
      machine.registers other :=
  Function.update_of_ne different.symm _ _

/-- The code executed from its first to its last instruction. -/
def execute (machine : Machine) (code : List Instruction) : Option Machine :=
  runLabels step machine code

theorem execute_callq (machine : Machine) (target returnAddress : Address)
    (code : List Instruction) :
    execute machine (.callq target returnAddress :: code) =
      execute { machine.pushed returnAddress with rip := target } code := rfl

/-! ## What code writes -/

/-- The addresses an instruction stores to. -/
def writes (machine : Machine) : Instruction → Set Address
  | .movToMemory _ target => span (machine.address target) 8
  | .stmxcsr target => span (machine.address target) 4
  | .fnstcw target => span (machine.address target) 2
  | .push _ => span (machine.registers .rsp - 8) 8
  | .callq _ _ => span (machine.registers .rsp - 8) 8
  | _ => ∅

/-- Every store of the code goes to these addresses. -/
def WritesWithin (addresses : Set Address) (machine : Machine)
    (code : List Instruction) : Prop :=
  EveryStep step (fun before instruction => writes before instruction ⊆ addresses)
    machine code

theorem step_memory {machine next : Machine} {instruction : Instruction}
    (stepped : step machine instruction = some next) :
    Set.EqOn next.memory machine.memory (writes machine instruction)ᶜ := by
  cases instruction with
  | movToMemory source target =>
      cases stepped
      exact storeWord_eqOn _ _ _ _
  | movFromMemory source target =>
      cases stepped
      exact Set.eqOn_refl _ _
  | movRegister source target =>
      cases stepped
      exact Set.eqOn_refl _ _
  | stmxcsr target =>
      cases stepped
      exact storeWord_eqOn _ _ _ _
  | ldmxcsr source =>
      rw [step] at stepped
      split at stepped
      · cases stepped
        exact Set.eqOn_refl _ _
      · cases stepped
  | fnstcw target =>
      cases stepped
      exact storeWord_eqOn _ _ _ _
  | fldcw source =>
      cases stepped
      exact Set.eqOn_refl _ _
  | push source =>
      cases stepped
      exact storeWord_eqOn _ _ _ _
  | callq target returnAddress =>
      cases stepped
      exact storeWord_eqOn _ _ _ _
  | ret =>
      cases stepped
      exact Set.eqOn_refl _ _

theorem step_memory_within {addresses : Set Address} {first machine next : Machine}
    {instruction : Instruction}
    (same : Set.EqOn machine.memory first.memory addressesᶜ)
    (inside : writes machine instruction ⊆ addresses)
    (stepped : step machine instruction = some next) :
    Set.EqOn next.memory first.memory addressesᶜ := by
  have kept := (step_memory stepped).mono (Set.compl_subset_compl.mpr inside)
  exact kept.trans same

/-- What code that stores only here leaves as it was. -/
theorem execute_memory {addresses : Set Address} {machine final : Machine}
    {code : List Instruction} (within : WritesWithin addresses machine code)
    (executed : execute machine code = some final) :
    Set.EqOn final.memory machine.memory addressesᶜ :=
  invariant_of_guarded_run (fun _ _ _ => step_memory_within) (Set.eqOn_refl _ _)
    within executed

/-- The same at every instruction on the way. -/
theorem everywhere_memory {addresses : Set Address} {machine : Machine}
    {code : List Instruction} (within : WritesWithin addresses machine code) :
    Everywhere step (fun state =>
      Set.EqOn state.memory machine.memory addressesᶜ) machine code :=
  everywhere_of_guards (fun _ _ _ => step_memory_within) (Set.eqOn_refl _ _) within

theorem WritesWithin.mono {addresses more : Set Address} {machine : Machine}
    {code : List Instruction} (within : WritesWithin addresses machine code)
    (included : addresses ⊆ more) : WritesWithin more machine code :=
  EveryStep.imp_of_invariant (fun _ _ _ _ _ _ => trivial)
    (fun _ _ _ inside => inside.trans included) trivial within

/-- The instruction stores at most into the record of so many bytes at a
register, and leaves the register alone. -/
def Instruction.storesInto (base : Register) (size : Nat) : Instruction → Bool
  | .movToMemory _ target =>
      target.base = base && target.displacement + 8 ≤ size
  | .movFromMemory _ target => target ≠ base
  | .movRegister _ target => target ≠ base
  | .stmxcsr target => target.base = base && target.displacement + 4 ≤ size
  | .ldmxcsr _ => true
  | .fnstcw target => target.base = base && target.displacement + 2 ≤ size
  | .fldcw _ => true
  | .push _ => false
  | .callq _ _ => false
  | .ret => base ≠ .rsp

theorem writes_of_storesInto {machine : Machine} {base : Register} {size : Nat}
    {instruction : Instruction}
    (stores : instruction.storesInto base size = true) :
    writes machine instruction ⊆ span (machine.registers base) size := by
  cases instruction with
  | movToMemory source target =>
      simp only [Instruction.storesInto, Bool.and_eq_true, decide_eq_true_eq] at stores
      rw [← stores.1]
      exact span_subset stores.2 _
  | stmxcsr target =>
      simp only [Instruction.storesInto, Bool.and_eq_true, decide_eq_true_eq] at stores
      rw [← stores.1]
      exact span_subset stores.2 _
  | fnstcw target =>
      simp only [Instruction.storesInto, Bool.and_eq_true, decide_eq_true_eq] at stores
      rw [← stores.1]
      exact span_subset stores.2 _
  | push source => cases stores
  | callq target returnAddress => cases stores
  | _ => exact Set.empty_subset _

theorem base_of_storesInto {machine next : Machine} {base : Register}
    {size : Nat} {instruction : Instruction}
    (stores : instruction.storesInto base size = true)
    (stepped : step machine instruction = some next) :
    next.registers base = machine.registers base := by
  cases instruction with
  | movFromMemory source target =>
      cases stepped
      exact setRegister_other (of_decide_eq_true stores)
  | movRegister source target =>
      cases stepped
      exact setRegister_other (of_decide_eq_true stores)
  | ldmxcsr source =>
      rw [step] at stepped
      split at stepped
      · cases stepped
        rfl
      · cases stepped
  | push source => cases stores
  | callq target returnAddress => cases stores
  | ret =>
      cases stepped
      change (machine.setRegister .rsp (machine.registers .rsp + 8)).registers base =
        _
      exact setRegister_other (of_decide_eq_true stores).symm
  | _ =>
      cases stepped
      rfl

/-- Code that stores at most into one record. -/
theorem writesWithin_record {machine : Machine} {base : Register} {size : Nat}
    {code : List Instruction}
    (stores : ∀ instruction ∈ code, instruction.storesInto base size = true) :
    WritesWithin (span (machine.registers base) size) machine code := by
  refine @everyStep_of_invariant _ _ _
    (fun state => state.registers base = machine.registers base) _ _ ?_ _ rfl
  intro instruction member state same
  constructor
  · rw [← same]
    exact writes_of_storesInto (stores instruction member)
  · intro next stepped
    exact (base_of_storesInto (stores instruction member) stepped).trans same

end ChlorosSnfs.Library.Amd64
