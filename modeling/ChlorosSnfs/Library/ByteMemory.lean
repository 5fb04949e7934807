import ChlorosSnfs.Library.LittleEndian
import Mathlib.Data.BitVec
import Mathlib.Data.List.GetD
import Mathlib.Data.Set.Function
import Mathlib.Data.Set.Lattice
import Mathlib.Order.CompletePartialOrder

/-!
# Byte-addressed memory

Addresses are words of a fixed width.  They wrap around, and so do the spans of
addresses that a load reads and a store writes.
-/

set_option autoImplicit false

namespace ChlorosSnfs.Library.ByteMemory

open ChlorosSnfs.Library.LittleEndian

variable {w : Nat}

abbrev Memory (w : Nat) : Type := BitVec w → UInt8

/-! ## Spans -/

/-- The `length` addresses from `base` on. -/
def span (base : BitVec w) (length : Nat) : Set (BitVec w) :=
  {address | (address - base).toNat < length}

theorem mem_span {base address : BitVec w} {length : Nat} :
    address ∈ span base length ↔ (address - base).toNat < length := Iff.rfl

instance (base : BitVec w) (length : Nat) (address : BitVec w) :
    Decidable (address ∈ span base length) :=
  inferInstanceAs (Decidable ((address - base).toNat < length))

/-- A part of a span, given by where it starts. -/
theorem span_subset_of_sub {base inner : BitVec w} {length total : Nat}
    (fits : (inner - base).toNat + length ≤ total) :
    span inner length ⊆ span base total := by
  intro address member
  rw [mem_span] at member ⊢
  have split : address - base = (address - inner) + (inner - base) :=
    (sub_add_sub_cancel address inner base).symm
  have short := Nat.mod_le
    ((address - inner).toNat + (inner - base).toNat) (2 ^ w)
  rw [split, BitVec.toNat_add]
  omega

theorem span_subset {offset length total : Nat} (fits : offset + length ≤ total)
    (base : BitVec w) :
    span (base + BitVec.ofNat w offset) length ⊆ span base total := by
  apply span_subset_of_sub
  have short := Nat.mod_le offset (2 ^ w)
  rw [add_sub_cancel_left, BitVec.toNat_ofNat]
  omega

/-- Two spans are disjoint where each ends before the other starts, counted
upwards from its own start. -/
theorem disjoint_span {first second : BitVec w} {length otherLength : Nat}
    (before : length ≤ (second - first).toNat)
    (behind : otherLength ≤ (first - second).toNat) :
    Disjoint (span first length) (span second otherLength) := by
  rw [Set.disjoint_left]
  intro address inFirst inSecond
  rw [mem_span] at inFirst inSecond
  rcases le_total (address - second).toNat (address - first).toNat with
    nearer | nearer
  · have distance := BitVec.toNat_sub_of_le (BitVec.le_def.mpr nearer)
    rw [sub_sub_sub_cancel_left] at distance
    omega
  · have distance := BitVec.toNat_sub_of_le (BitVec.le_def.mpr nearer)
    rw [sub_sub_sub_cancel_left] at distance
    omega

/-- Two members of one record. -/
theorem disjoint_members {offset length other otherLength : Nat}
    (before : offset + length ≤ other) (fits : other + otherLength ≤ 2 ^ w)
    (base : BitVec w) :
    Disjoint (span (base + BitVec.ofNat w offset) length)
      (span (base + BitVec.ofNat w other) otherLength) := by
  rw [Set.disjoint_left]
  intro address inFirst inSecond
  rw [mem_span] at inFirst inSecond
  have split : address - (base + BitVec.ofNat w offset) =
      (address - (base + BitVec.ofNat w other)) + BitVec.ofNat w (other - offset) := by
    rw [← BitVec.ofNat_sub_ofNat_of_le _ _ (by omega) (by omega),
      ← add_sub_add_left_eq_sub (BitVec.ofNat w other) (BitVec.ofNat w offset) base,
      sub_add_sub_cancel]
  have gap : (BitVec.ofNat w (other - offset)).toNat = other - offset := by
    rw [BitVec.toNat_ofNat]
    exact Nat.mod_eq_of_lt (by omega)
  rw [split, BitVec.toNat_add, gap, Nat.mod_eq_of_lt (by omega)] at inFirst
  omega

/-! ## Loads and stores -/

/-- The bytes from `base` on. -/
def load (memory : Memory w) (base : BitVec w) (length : Nat) : List UInt8 :=
  (List.range length).map fun index => memory (base + BitVec.ofNat w index)

def store (memory : Memory w) (base : BitVec w) (bytes : List UInt8) : Memory w :=
  fun address => bytes.getD (address - base).toNat (memory address)

/-- The little-endian word of so many bytes. -/
def loadWord (memory : Memory w) (base : BitVec w) (length : Nat) : Nat :=
  ofBytes (load memory base length)

def storeWord (memory : Memory w) (base : BitVec w) (length value : Nat) :
    Memory w :=
  store memory base (toBytes length value)

theorem load_congr {memory other : Memory w} {base : BitVec w} {length : Nat}
    (same : Set.EqOn memory other (span base length)) :
    load memory base length = load other base length := by
  apply List.map_congr_left
  intro index inside
  apply same
  have short := Nat.mod_le index (2 ^ w)
  rw [List.mem_range] at inside
  rw [mem_span, add_sub_cancel_left, BitVec.toNat_ofNat]
  omega

/-- A store leaves the rest as it was. -/
theorem store_eqOn (memory : Memory w) (base : BitVec w) (bytes : List UInt8) :
    Set.EqOn (store memory base bytes) memory (span base bytes.length)ᶜ := by
  intro address outside
  rw [Set.mem_compl_iff, mem_span, Nat.not_lt] at outside
  exact List.getD_eq_default _ _ outside

theorem load_store_self (memory : Memory w) (base : BitVec w)
    {bytes : List UInt8} (fits : bytes.length ≤ 2 ^ w) :
    load (store memory base bytes) base bytes.length = bytes := by
  apply List.ext_getElem
  · rw [load, List.length_map, List.length_range]
  · intro index _ inside
    have place : (base + BitVec.ofNat w index - base).toNat = index := by
      rw [add_sub_cancel_left, BitVec.toNat_ofNat]
      exact Nat.mod_eq_of_lt (by omega)
    simp only [load, List.getElem_map, List.getElem_range, store, place]
    exact List.getD_eq_getElem _ _ inside

/-! ## Words -/

theorem storeWord_eqOn (memory : Memory w) (base : BitVec w)
    (length value : Nat) :
    Set.EqOn (storeWord memory base length value) memory (span base length)ᶜ := by
  have stored := store_eqOn memory base (toBytes length value)
  rw [toBytes_length] at stored
  exact stored

theorem loadWord_congr {memory other : Memory w} {base : BitVec w} {length : Nat}
    (same : Set.EqOn memory other (span base length)) :
    loadWord memory base length = loadWord other base length :=
  congrArg ofBytes (load_congr same)

theorem loadWord_storeWord_self (memory : Memory w) (base : BitVec w)
    {length : Nat} (fits : length ≤ 2 ^ w) (value : Nat) :
    loadWord (storeWord memory base length value) base length =
      value % 256 ^ length := by
  have inside : (toBytes length value).length ≤ 2 ^ w := by
    rw [toBytes_length]
    exact fits
  have stored := load_store_self memory base inside
  rw [toBytes_length] at stored
  rw [loadWord, storeWord, stored, ofBytes_toBytes]

theorem loadWord_storeWord_apart {memory : Memory w} {base other : BitVec w}
    {length otherLength : Nat}
    (apart : Disjoint (span other otherLength) (span base length)) (value : Nat) :
    loadWord (storeWord memory base length value) other otherLength =
      loadWord memory other otherLength :=
  loadWord_congr ((storeWord_eqOn memory base length value).mono
    (Set.subset_compl_iff_disjoint_right.mpr apart))

/-- A shorter load gives the low bytes. -/
theorem loadWord_low (memory : Memory w) (base : BitVec w) {low length : Nat}
    (shorter : low ≤ length) :
    loadWord memory base low = loadWord memory base length % 256 ^ low := by
  have front : load memory base low = (load memory base length).take low := by
    rw [load, load, ← List.map_take, List.take_range, Nat.min_eq_left shorter]
  rw [loadWord, front, ofBytes_take]
  rfl

/-! ## Records -/

/-- A word of a record. -/
structure Field where
  offset : Nat
  length : Nat
  value : Nat

/-- The fields written one after the other. -/
def storeFields (memory : Memory w) (base : BitVec w) : List Field → Memory w
  | [] => memory
  | field :: rest =>
      storeFields (storeWord memory (base + BitVec.ofNat w field.offset)
        field.length field.value) base rest

/-- The fields stand one behind the other in so many bytes. -/
structure Layered (fields : List Field) (total : Nat) : Prop where
  ordered : fields.Pairwise fun first second =>
    first.offset + first.length ≤ second.offset
  within : ∀ field ∈ fields, field.offset + field.length ≤ total

theorem Layered.tail {field : Field} {fields : List Field} {total : Nat}
    (layered : Layered (field :: fields) total) : Layered fields total :=
  ⟨layered.ordered.of_cons, fun other member =>
    layered.within other (List.mem_cons_of_mem _ member)⟩

theorem storeFields_eqOn {fields : List Field} {total : Nat}
    (layered : Layered fields total) (memory : Memory w) (base : BitVec w) :
    Set.EqOn (storeFields memory base fields) memory (span base total)ᶜ := by
  induction fields generalizing memory with
  | nil => exact Set.eqOn_refl _ _
  | cons field rest inductionHypothesis =>
      have inside := layered.within field List.mem_cons_self
      have first := (storeWord_eqOn memory (base + BitVec.ofNat w field.offset)
        field.length field.value).mono
          (Set.compl_subset_compl.mpr (span_subset inside base))
      exact (inductionHypothesis layered.tail _).trans first

/-- Later fields leave a member in front of them alone. -/
theorem loadWord_storeFields_before {fields : List Field} {total offset length : Nat}
    (layered : Layered fields total) (fits : total ≤ 2 ^ w)
    (before : ∀ field ∈ fields, offset + length ≤ field.offset)
    (memory : Memory w) (base : BitVec w) :
    loadWord (storeFields memory base fields) (base + BitVec.ofNat w offset) length =
      loadWord memory (base + BitVec.ofNat w offset) length := by
  induction fields generalizing memory with
  | nil => rfl
  | cons field rest inductionHypothesis =>
      have inside := layered.within field List.mem_cons_self
      have apart := disjoint_members (before field List.mem_cons_self)
        (inside.trans fits) base
      rw [storeFields, inductionHypothesis layered.tail fun other member =>
        before other (List.mem_cons_of_mem _ member)]
      exact loadWord_storeWord_apart apart field.value

/-- Every field is read back. -/
theorem loadWord_storeFields {fields : List Field} {total : Nat}
    (layered : Layered fields total) (fits : total ≤ 2 ^ w)
    (memory : Memory w) (base : BitVec w) {field : Field} (member : field ∈ fields) :
    loadWord (storeFields memory base fields)
        (base + BitVec.ofNat w field.offset) field.length =
      field.value % 256 ^ field.length := by
  induction fields generalizing memory with
  | nil => cases member
  | cons first rest inductionHypothesis =>
      rcases List.mem_cons.mp member with rfl | later
      · have inside := layered.within field List.mem_cons_self
        have behind := (List.pairwise_cons.mp layered.ordered).1
        rw [storeFields, loadWord_storeFields_before layered.tail fits
          behind]
        exact loadWord_storeWord_self _ _ (by omega) _
      · exact inductionHypothesis layered.tail _ later

end ChlorosSnfs.Library.ByteMemory
