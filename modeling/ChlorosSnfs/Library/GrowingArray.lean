import Mathlib.Data.List.GetD
import Mathlib.Order.Basic
import Mathlib.Tactic.Common

/-!
# Arrays that grow when they are written behind their end

An array is a list, and what is behind its end reads as `blank`.  Resizing and
overwriting are list operations; each is known by its length and by what
`getD` finds at every index, and an array is known by the two.
-/

set_option autoImplicit false

namespace ChlorosSnfs.Library.GrowingArray

universe u

variable {α : Type u}

/-- Cut off at `size`, or filled up to it. -/
def resized (blank : α) (size : Nat) (array : List α) : List α :=
  array.take size ++ List.replicate (size - array.length) blank

/-- With the data from `offset` on; no data leaves the array as it is. -/
def overwritten (blank : α) (offset : Nat) (data array : List α) : List α :=
  if data = [] then array
  else resized blank offset array ++ data ++ array.drop (offset + data.length)

/-- The elements from `offset` on, `count` of them if there are so many. -/
def segment (offset count : Nat) (array : List α) : List α :=
  (array.drop offset).take count

/-- The length after `overwritten`. -/
def lengthAfter (offset : Nat) (data : List α) (length : Nat) : Nat :=
  if data = [] then length else max length (offset + data.length)

/-- What `overwritten` puts at an index. -/
def elementAfter (blank : α) (offset : Nat) (data array : List α)
    (index : Nat) : α :=
  if offset ≤ index ∧ index < offset + data.length then
    data.getD (index - offset) blank
  else array.getD index blank

theorem eq_of_getD {blank : α} {first second : List α}
    (lengths : first.length = second.length)
    (same : ∀ index, index < first.length →
      first.getD index blank = second.getD index blank) : first = second := by
  apply List.ext_getElem lengths
  intro index inFirst inSecond
  have here := same index inFirst
  rw [List.getD_eq_getElem _ _ inFirst, List.getD_eq_getElem _ _ inSecond] at here
  exact here

@[simp]
theorem resized_length (blank : α) (size : Nat) (array : List α) :
    (resized blank size array).length = size := by
  simp only [resized, List.length_append, List.length_take, List.length_replicate]
  omega

theorem getD_resized (blank : α) {size index : Nat} (array : List α)
    (inside : index < size) :
    (resized blank size array).getD index blank = array.getD index blank := by
  by_cases kept : index < array.length
  · rw [resized, List.getD_append _ _ _ _ (by rw [List.length_take]; omega),
      List.getD_eq_getElem _ _ (by rw [List.length_take]; omega),
      List.getElem_take, List.getD_eq_getElem _ _ kept]
  · rw [resized, List.getD_append_right _ _ _ _ (by rw [List.length_take]; omega),
      List.getD_replicate _ (by rw [List.length_take]; omega),
      List.getD_eq_default _ _ (by omega)]

theorem overwritten_length (blank : α) (offset : Nat) (data array : List α) :
    (overwritten blank offset data array).length =
      lengthAfter offset data array.length := by
  rw [overwritten, lengthAfter]
  split
  · rfl
  · simp only [List.length_append, resized_length, List.length_drop]
    omega

theorem getD_overwritten (blank : α) (offset : Nat) (data array : List α)
    (index : Nat) : (overwritten blank offset data array).getD index blank =
      elementAfter blank offset data array index := by
  rw [overwritten, elementAfter]
  split
  · rename_i empty
    subst empty
    rw [if_neg (by rw [List.length_nil]; omega)]
  · by_cases before : index < offset
    · rw [if_neg (by omega), List.append_assoc,
        List.getD_append _ _ _ _ (by rw [resized_length]; exact before),
        getD_resized _ _ before]
    · by_cases inside : index < offset + data.length
      · rw [if_pos ⟨by omega, inside⟩, List.getD_append _ _ _ _ (by
            rw [List.length_append, resized_length]; exact inside),
          List.getD_append_right _ _ _ _ (by rw [resized_length]; omega),
          resized_length]
      · have behind : (resized blank offset array ++ data).length ≤ index := by
          rw [List.length_append, resized_length]
          omega
        rw [if_neg (by omega), List.getD_append_right _ _ _ _ behind,
          List.length_append, resized_length, List.getD_eq_getElem?_getD,
          List.getElem?_drop, ← List.getD_eq_getElem?_getD]
        congr 1
        omega

theorem segment_length (offset count : Nat) (array : List α) :
    (segment offset count array).length = min count (array.length - offset) := by
  rw [segment, List.length_take, List.length_drop]

theorem getD_segment (blank : α) {offset count index : Nat} (array : List α)
    (inside : index < count) : (segment offset count array).getD index blank =
      array.getD (offset + index) blank := by
  rw [segment, List.getD_eq_getElem?_getD, List.getElem?_take_of_lt inside,
    List.getElem?_drop, ← List.getD_eq_getElem?_getD]

/-- From the end on there is nothing to read. -/
theorem segment_eq_nil {offset : Nat} {array : List α} (count : Nat)
    (behind : array.length ≤ offset) : segment offset count array = [] := by
  rw [segment, List.drop_of_length_le behind, List.take_nil]

end ChlorosSnfs.Library.GrowingArray
