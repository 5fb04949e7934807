import Mathlib.Algebra.BigOperators.Group.Finset.Basic
import Mathlib.Algebra.Order.BigOperators.Group.Multiset
import Mathlib.Data.Multiset.Count
import Mathlib.Data.Fintype.Basic
import Mathlib.Data.Finset.Basic

/-!
# Items held by the members of a finite family

Each member of `κ` holds at most one item.  `gathered` is the multiset of all
items held; when one member's item is replaced, `gathered_update` and
`gathered_split` say that only this item changes.
-/

set_option autoImplicit false

namespace ChlorosSnfs.Library.Holders

universe u v

variable {κ : Type u} [Fintype κ] [DecidableEq κ] {α : Type v}

def held : Option α → Multiset α
  | none => 0
  | some item => {item}

@[simp]
theorem mem_held {item : α} {slot : Option α} :
    item ∈ held slot ↔ slot = some item := by
  cases slot <;> simp [held, eq_comm]

def gathered (holders : κ → Option α) : Multiset α :=
  ∑ member, held (holders member)

/-- The items held by all members but one. -/
def elsewhere (holders : κ → Option α) (member : κ) : Multiset α :=
  ∑ other ∈ Finset.univ.erase member, held (holders other)

omit [DecidableEq κ] in
theorem mem_gathered {holders : κ → Option α} {item : α} :
    item ∈ gathered holders ↔ ∃ member, holders member = some item := by
  simp [gathered, Multiset.mem_sum]

theorem mem_elsewhere {holders : κ → Option α} {member : κ} {item : α} :
    item ∈ elsewhere holders member ↔
      ∃ other, other ≠ member ∧ holders other = some item := by
  simp [elsewhere, Multiset.mem_sum]

theorem gathered_split (holders : κ → Option α) (member : κ) :
    gathered holders = held (holders member) + elsewhere holders member :=
  (Finset.add_sum_erase Finset.univ (fun other => held (holders other))
    (Finset.mem_univ member)).symm

theorem gathered_of_some {holders : κ → Option α} {member : κ} {item : α}
    (holds : holders member = some item) :
    gathered holders = item ::ₘ elsewhere holders member := by
  rw [gathered_split holders member, holds]
  rfl

theorem gathered_of_none {holders : κ → Option α} {member : κ}
    (empty : holders member = none) :
    gathered holders = elsewhere holders member := by
  rw [gathered_split holders member, empty]
  exact zero_add _

theorem elsewhere_update (holders : κ → Option α) (member : κ)
    (slot : Option α) :
    elsewhere (Function.update holders member slot) member =
      elsewhere holders member := by
  refine Finset.sum_congr rfl fun other inside => ?_
  rw [Function.update_of_ne (Finset.ne_of_mem_erase inside)]

theorem gathered_update (holders : κ → Option α) (member : κ)
    (slot : Option α) :
    gathered (Function.update holders member slot) =
      held slot + elsewhere holders member := by
  rw [gathered_split _ member, elsewhere_update, Function.update_self]

end ChlorosSnfs.Library.Holders
