import Mathlib.Data.Nat.Basic
import Mathlib.Tactic.Ring

/-!
# Little-endian words of a fixed number of bytes
-/

set_option autoImplicit false

namespace ChlorosSnfs.Library.LittleEndian

/-- The low `width` bytes of a number, the lowest first. -/
def toBytes : Nat → Nat → List UInt8
  | 0, _ => []
  | width + 1, value => UInt8.ofNat value :: toBytes width (value / 256)

def ofBytes : List UInt8 → Nat
  | [] => 0
  | byte :: rest => byte.toNat + 256 * ofBytes rest

@[simp]
theorem toBytes_length (width value : Nat) :
    (toBytes width value).length = width := by
  induction width generalizing value with
  | zero => rfl
  | succ width inductionHypothesis => simp [toBytes, inductionHypothesis]

theorem ofBytes_toBytes (width value : Nat) :
    ofBytes (toBytes width value) = value % 256 ^ width := by
  induction width generalizing value with
  | zero => simp [toBytes, ofBytes, Nat.mod_one]
  | succ width inductionHypothesis =>
      have low : (UInt8.ofNat value).toNat = value % 256 :=
        UInt8.toNat_ofNat'
      rw [toBytes, ofBytes, inductionHypothesis, low, pow_succ', Nat.mod_mul]

/-- The low bytes of a word. -/
theorem ofBytes_take (bytes : List UInt8) (low : Nat) :
    ofBytes (bytes.take low) = ofBytes bytes % 256 ^ low := by
  induction bytes generalizing low with
  | nil => simp [ofBytes]
  | cons byte rest inductionHypothesis =>
      cases low with
      | zero => simp [ofBytes, Nat.mod_one]
      | succ low =>
          have bound : byte.toNat < 256 := byte.toNat_lt
          have lowest : (byte.toNat + 256 * ofBytes rest) % 256 = byte.toNat := by
            omega
          have others : (byte.toNat + 256 * ofBytes rest) / 256 = ofBytes rest := by
            omega
          rw [List.take_succ_cons, ofBytes, ofBytes, inductionHypothesis, pow_succ',
            Nat.mod_mul, lowest, others]

end ChlorosSnfs.Library.LittleEndian
