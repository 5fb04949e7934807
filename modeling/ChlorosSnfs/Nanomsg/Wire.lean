import Mathlib.Data.List.Basic
import Mathlib.Tactic.IntervalCases

/-!
# Words in network order

`nn_putl` and `nn_getl` of the vendored nanomsg.  The header of a message is a stack
of such words; the top bit marks the bottom one, which is the id of the request.
-/

set_option autoImplicit false

namespace ChlorosSnfs.Nanomsg.Wire

abbrev Bytes := List UInt8

def nnPutl (val : UInt32) : Bytes :=
  [((val >>> 24) &&& 0xff).toUInt8, ((val >>> 16) &&& 0xff).toUInt8,
    ((val >>> 8) &&& 0xff).toUInt8, (val &&& 0xff).toUInt8]

/-- The callers make sure of four bytes. -/
def nnGetl : Bytes → UInt32
  | first :: second :: third :: fourth :: _ =>
      (first.toUInt32 <<< 24) ||| (second.toUInt32 <<< 16) |||
        (third.toUInt32 <<< 8) ||| fourth.toUInt32
  | _ => 0

@[simp]
theorem nnPutl_length (val : UInt32) : (nnPutl val).length = 4 := rfl

/-- A byte that is cut out of a word. -/
theorem toUInt32_lowByte (word : UInt32) :
    (word &&& 0xff).toUInt8.toUInt32 = word &&& 0xff := by
  apply UInt32.toNat_inj.mp
  have low : word.toNat &&& 255 = word.toNat % 2 ^ 8 := Nat.and_two_pow_sub_one_eq_mod _ 8
  simp only [UInt8.toNat_toUInt32, UInt32.toNat_toUInt8, UInt32.toNat_and,
    UInt32.reduceToNat, low]
  omega

theorem lowByte_getLsbD (bit : Nat) :
    (255#32 : BitVec 32).getLsbD bit = decide (bit < 8) := by
  have ones : (255#32 : BitVec 32) = BitVec.ofNat 32 (2 ^ 8 - 1) := rfl
  rw [ones, BitVec.getLsbD_ofNat, Nat.testBit_two_pow_sub_one]
  by_cases low : bit < 8
  · simp [low]
    omega
  · simp [low]

theorem nnGetl_nnPutl (val : UInt32) (rest : Bytes) :
    nnGetl (nnPutl val ++ rest) = val := by
  simp only [nnPutl, List.cons_append, List.nil_append, nnGetl, toUInt32_lowByte]
  apply UInt32.eq_of_toBitVec_eq
  apply BitVec.eq_of_getLsbD_eq
  intro bit inWord
  have mask : UInt32.toBitVec 255 = 255#32 := rfl
  have by24 : (UInt32.toBitVec 24 % 32).toNat = 24 := rfl
  have by16 : (UInt32.toBitVec 16 % 32).toNat = 16 := rfl
  have by8 : (UInt32.toBitVec 8 % 32).toNat = 8 := rfl
  simp only [UInt32.toBitVec_or, UInt32.toBitVec_and, UInt32.toBitVec_shiftLeft,
    UInt32.toBitVec_shiftRight, BitVec.getLsbD_or, BitVec.getLsbD_and, mask,
    BitVec.shiftLeft_eq', BitVec.ushiftRight_eq', by24, by16, by8,
    BitVec.getLsbD_shiftLeft, BitVec.getLsbD_ushiftRight, lowByte_getLsbD]
  -- each bit is one of one byte
  interval_cases bit <;> simp

theorem nnGetl_nnPutl_self (val : UInt32) : nnGetl (nnPutl val) = val := by
  have read := nnGetl_nnPutl val []
  rwa [List.append_nil] at read

/-! ## The bottom of the stack -/

/-- The bit that marks the bottom of a backtrace stack. -/
def bottomBit : UInt32 := 0x80000000

theorem or_and_distrib (first second mask : UInt32) :
    (first ||| second) &&& mask = (first &&& mask) ||| (second &&& mask) :=
  UInt32.toBitVec_inj.mp BitVec.and_or_distrib_right

theorem marked (id : UInt32) : (id ||| bottomBit) &&& bottomBit ≠ 0 := by
  intro unmarked
  rw [or_and_distrib, UInt32.and_self] at unmarked
  have top := congrArg (UInt32.toBitVec · |>.getLsbD 31) unmarked
  simp [bottomBit] at top

/-- The lower bits of a number. -/
theorem toNat_and_mask (id : UInt32) :
    (id &&& 0x7fffffff).toNat = id.toNat % 2 ^ 31 :=
  Nat.and_two_pow_sub_one_eq_mod id.toNat 31

theorem mod_eq_of_marked_eq {id other : UInt32}
    (same : id ||| bottomBit = other ||| bottomBit) :
    id.toNat % 2 ^ 31 = other.toNat % 2 ^ 31 := by
  have cut := congrArg (· &&& (0x7fffffff : UInt32)) same
  have clear : bottomBit &&& 0x7fffffff = 0 := by decide
  simp only [or_and_distrib, clear, UInt32.or_zero] at cut
  rw [← toNat_and_mask, ← toNat_and_mask, cut]

/-- Fewer than `2 ^ 31` consecutive numbers differ in their lower bits. -/
theorem eq_of_mod_eq {first : UInt32} {count other : Nat} (bounded : count < 2 ^ 31)
    (otherBounded : other < 2 ^ 31)
    (same : (first + UInt32.ofNat count).toNat % 2 ^ 31 =
      (first + UInt32.ofNat other).toNat % 2 ^ 31) : count = other := by
  simp only [UInt32.toNat_add, UInt32.toNat_ofNat'] at same
  omega

end ChlorosSnfs.Nanomsg.Wire
