import Mathlib.Data.List.Basic

/-!
# Queues that can be numbered in order

The items of a queue do not carry their numbers in the clear: `fits number item` says
what a number tells of an item.  A queue is numbered from `low` when numbers that never
go down, none below `low`, fit its items.
-/

set_option autoImplicit false

namespace ChlorosSnfs.Library.NumberedQueues

universe u

variable {Item : Type u}

inductive Numbered (fits : Nat → Item → Prop) : Nat → List Item → Prop where
  | nil (low : Nat) : Numbered fits low []
  | cons {low number : Nat} {item : Item} {rest : List Item} (above : low ≤ number)
      (fit : fits number item) (later : Numbered fits number rest) :
      Numbered fits low (item :: rest)

variable {fits other : Nat → Item → Prop} {low : Nat} {item new : Item}
  {queue earlier later : List Item}

theorem Numbered.weaken (numbered : Numbered fits low queue) {lower : Nat}
    (below : lower ≤ low) : Numbered fits lower queue := by
  cases numbered with
  | nil => exact .nil lower
  | cons above fit later => exact .cons (Nat.le_trans below above) fit later

theorem Numbered.imp (numbered : Numbered fits low queue)
    (implied : ∀ number, ∀ item ∈ queue, fits number item → other number item) :
    Numbered other low queue := by
  induction numbered with
  | nil low => exact .nil low
  | cons above fit later inductionHypothesis =>
      apply Numbered.cons above (implied _ _ List.mem_cons_self fit)
      apply inductionHypothesis
      intro number item member
      exact implied number item (List.mem_cons_of_mem _ member)

theorem Numbered.exists_fits (numbered : Numbered fits low queue) (member : item ∈ queue) :
    ∃ number, low ≤ number ∧ fits number item := by
  induction numbered with
  | nil => cases member
  | cons above fit later inductionHypothesis =>
      rcases List.mem_cons.mp member with rfl | inRest
      · exact ⟨_, above, fit⟩
      · obtain ⟨number, after, fitsItem⟩ := inductionHypothesis inRest
        exact ⟨number, Nat.le_trans above after, fitsItem⟩

/-- The first item leaves, and what is known of it holds from now on. -/
theorem Numbered.tail (numbered : Numbered fits low (item :: queue)) :
    ∃ number, low ≤ number ∧ fits number item ∧ Numbered fits number queue := by
  cases numbered with
  | cons above fit later => exact ⟨_, above, fit, later⟩

/-- A last item with the greatest number. -/
theorem Numbered.snoc (numbered : Numbered fits low queue) {last : Nat}
    (reached : low ≤ last) (greatest : ∀ number, ∀ item ∈ queue, fits number item →
      number ≤ last) (fit : fits last new) : Numbered fits low (queue ++ [new]) := by
  induction numbered with
  | nil low => exact .cons reached fit (.nil last)
  | cons above fitsHead later inductionHypothesis =>
      apply Numbered.cons above fitsHead
      apply inductionHypothesis (greatest _ _ List.mem_cons_self fitsHead)
      intro number item member
      exact greatest number item (List.mem_cons_of_mem _ member)

/-- An item turns into another one with the same number. -/
theorem Numbered.replace (numbered : Numbered fits low (earlier ++ item :: later))
    (turns : ∀ number, fits number item → fits number new) :
    Numbered fits low (earlier ++ new :: later) := by
  induction earlier generalizing low with
  | nil =>
      obtain ⟨number, above, fit, rest⟩ := numbered.tail
      exact .cons above (turns number fit) rest
  | cons head rest inductionHypothesis =>
      obtain ⟨number, above, fit, others⟩ := numbered.tail
      exact .cons above fit (inductionHypothesis others)

theorem Numbered.remove (numbered : Numbered fits low (earlier ++ item :: later)) :
    Numbered fits low (earlier ++ later) := by
  induction earlier generalizing low with
  | nil =>
      obtain ⟨number, above, _, rest⟩ := numbered.tail
      exact rest.weaken above
  | cons head rest inductionHypothesis =>
      obtain ⟨number, above, fit, others⟩ := numbered.tail
      exact .cons above fit (inductionHypothesis others)

end ChlorosSnfs.Library.NumberedQueues
