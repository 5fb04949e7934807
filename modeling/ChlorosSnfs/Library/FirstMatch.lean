import Mathlib.Data.List.Basic

/-!
# The first element that passes a test

`find?` returns an element that is not bad exactly when every bad element that
passes the test has one before it that passes and is not bad.  An element that
passes is found itself, or one before it is found and taken out.
-/

set_option autoImplicit false

namespace ChlorosSnfs.Library.FirstMatch

universe u

variable {α : Type u} {test : α → Bool} {bad : α → Prop} {list : List α}

/-- Every bad element that passes has a good one that passes before it. -/
def Covered (test : α → Bool) (bad : α → Prop) (list : List α) : Prop :=
  ∀ before candidate after, list = before ++ candidate :: after →
    test candidate = true → bad candidate →
      ∃ earlier ∈ before, test earlier = true ∧ ¬ bad earlier

theorem covered_iff_of_find? {chosen : α} (found : list.find? test = some chosen) :
    Covered test bad list ↔ ¬ bad chosen := by
  constructor
  · intro covered isBad
    obtain ⟨passes, before, after, split, skipped⟩ :=
      List.find?_eq_some_iff_append.mp found
    obtain ⟨earlier, member, earlierPasses, _⟩ :=
      covered before chosen after split passes isBad
    have refused := skipped earlier member
    simp [earlierPasses] at refused
  · intro isGood before candidate after split passes isBad
    rw [split, List.find?_append] at found
    cases early : before.find? test with
    | none =>
        rw [early, Option.none_or, List.find?_cons_of_pos passes] at found
        cases found
        exact absurd isBad isGood
    | some earlier =>
        rw [early, Option.some_or] at found
        cases found
        exact ⟨chosen, List.mem_of_find?_eq_some early,
          List.find?_some early, isGood⟩

theorem covered_of_find?_none (noneFound : list.find? test = none) :
    Covered test bad list := by
  intro before candidate after split passes _
  have refused := List.find?_eq_none.mp noneFound candidate (by simp [split])
  exact absurd passes refused

theorem find?_of_passing {element : α} (before after : List α)
    (passes : test element = true) :
    (before ++ element :: after).find? test = some element ∨
      ∃ passed chosen skipped, before = passed ++ chosen :: skipped ∧
        (before ++ element :: after).find? test = some chosen ∧
        (before ++ element :: after).eraseP test =
          passed ++ skipped ++ element :: after := by
  cases found : before.find? test with
  | none =>
      refine Or.inl ?_
      rw [List.find?_append, found, Option.none_or,
        List.find?_cons_of_pos passes]
  | some chosen =>
      obtain ⟨holds, passed, skipped, rfl, refused⟩ :=
        List.find?_eq_some_iff_append.mp found
      have refusedAll : ∀ earlier ∈ passed, ¬ test earlier = true := by
        intro earlier member
        simpa using refused earlier member
      refine Or.inr ⟨passed, chosen, skipped, rfl, ?_, ?_⟩
      · rw [List.find?_append, found, Option.some_or]
      · rw [List.append_assoc, List.eraseP_append_right _ refusedAll,
          List.cons_append, List.eraseP_cons_of_pos holds, List.append_assoc]

end ChlorosSnfs.Library.FirstMatch
