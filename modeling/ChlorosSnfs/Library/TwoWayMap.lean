import Mathlib.Data.PEquiv
import Mathlib.Logic.Function.Basic

/-!
# A partial bijection kept in one untyped map

Names and handles are written into one key space by two injective encodings.
`Holds` says that a map from keys to keys is exactly the two directions of a
partial bijection; looking up, adding and erasing a pair are then operations on
the bijection.  Keys of the two kinds need only be apart for the pairs held.
-/

set_option autoImplicit false

namespace ChlorosSnfs.Library.TwoWayMap

universe u v w

variable {α : Type u} {β : Type v} {κ : Type w}

section Pairs
variable [DecidableEq α] [DecidableEq β]

/-- One more pair, of a name and a handle that have none. -/
def extend (pairs : α ≃. β) (name : α) (handle : β)
    (nameFree : pairs name = none) (handleFree : pairs.symm handle = none) :
    α ≃. β where
  toFun other := if other = name then some handle else pairs other
  invFun other := if other = handle then some name else pairs.symm other
  inv other otherHandle := by
    by_cases sameName : other = name
    · subst sameName
      by_cases sameHandle : otherHandle = handle
      · simp [sameHandle]
      · simp only [sameHandle, if_false, if_true, pairs.eq_some_iff, nameFree,
          Option.some.injEq]
        constructor
        · intro absent
          cases absent
        · intro same
          exact absurd same.symm sameHandle
    · by_cases sameHandle : otherHandle = handle
      · subst sameHandle
        simp only [sameName, if_false, if_true, ← pairs.eq_some_iff, handleFree,
          Option.some.injEq]
        constructor
        · intro same
          exact absurd same.symm sameName
        · intro absent
          cases absent
      · simp [sameName, sameHandle, pairs.eq_some_iff]

/-- One pair fewer. -/
def erase (pairs : α ≃. β) (name : α) : α ≃. β where
  toFun other := if other = name then none else pairs other
  invFun handle := (pairs.symm handle).filter (· ≠ name)
  inv other handle := by
    simp only [Option.filter_eq_some_iff, pairs.eq_some_iff]
    by_cases same : other = name <;> simp [same]

omit [DecidableEq β] in
theorem erase_apply (pairs : α ≃. β) (name other : α) :
    erase pairs name other = if other = name then none else pairs other := rfl

omit [DecidableEq β] in
theorem erase_symm_apply (pairs : α ≃. β) (name : α) (handle : β) :
    (erase pairs name).symm handle =
      (pairs.symm handle).filter (· ≠ name) := rfl

theorem extend_apply (pairs : α ≃. β) (name other : α) (handle : β)
    (nameFree : pairs name = none) (handleFree : pairs.symm handle = none) :
    extend pairs name handle nameFree handleFree other =
      if other = name then some handle else pairs other := rfl

theorem extend_symm_apply (pairs : α ≃. β) (name : α) (handle other : β)
    (nameFree : pairs name = none) (handleFree : pairs.symm handle = none) :
    (extend pairs name handle nameFree handleFree).symm other =
      if other = handle then some name else pairs.symm other := rfl

end Pairs

variable {nameKey : α → κ} {handleKey : β → κ}

/-- The map is the two directions of the bijection and nothing else. -/
structure Holds (nameKey : α → κ) (handleKey : β → κ) (map : κ → Option κ)
    (pairs : α ≃. β) : Prop where
  exact : ∀ key value, map key = some value ↔ ∃ name handle,
    pairs name = some handle ∧
      ((key = handleKey handle ∧ value = nameKey name) ∨
        (key = nameKey name ∧ value = handleKey handle))
  apart : ∀ name handle other otherHandle, pairs name = some handle →
    pairs other = some otherHandle → nameKey name ≠ handleKey otherHandle

theorem holds_empty (nameKey : α → κ) (handleKey : β → κ) :
    Holds nameKey handleKey (fun _ => none) ⊥ := by
  constructor <;> simp

namespace Holds

variable {map : κ → Option κ} {pairs : α ≃. β}

theorem map_nameKey (holds : Holds nameKey handleKey map pairs) {name : α}
    {handle : β} (pair : pairs name = some handle) :
    map (nameKey name) = some (handleKey handle) :=
  (holds.exact _ _).mpr ⟨name, handle, pair, Or.inr ⟨rfl, rfl⟩⟩

theorem map_handleKey (holds : Holds nameKey handleKey map pairs) {name : α}
    {handle : β} (pair : pairs name = some handle) :
    map (handleKey handle) = some (nameKey name) :=
  (holds.exact _ _).mpr ⟨name, handle, pair, Or.inl ⟨rfl, rfl⟩⟩

/-- A name whose key is no handle's key reads its own pair. -/
theorem map_nameKey_eq (holds : Holds nameKey handleKey map pairs)
    (injective : Function.Injective nameKey) {name : α}
    (notHandle : ∀ other handle, pairs other = some handle →
      nameKey name ≠ handleKey handle) :
    map (nameKey name) = (pairs name).map handleKey := by
  cases pair : pairs name with
  | some handle => exact holds.map_nameKey pair
  | none =>
      cases read : map (nameKey name) with
      | none => rfl
      | some value =>
          obtain ⟨other, handle, otherPair, ⟨key, _⟩ | ⟨key, _⟩⟩ :=
            (holds.exact _ _).mp read
          · exact absurd key (notHandle other handle otherPair)
          · cases injective key
            rw [pair] at otherPair
            cases otherPair

/-- A handle whose key is no name's key reads its own pair. -/
theorem map_handleKey_eq (holds : Holds nameKey handleKey map pairs)
    (injective : Function.Injective handleKey) {handle : β}
    (notName : ∀ name other, pairs name = some other →
      handleKey handle ≠ nameKey name) :
    map (handleKey handle) = (pairs.symm handle).map nameKey := by
  cases pair : pairs.symm handle with
  | some name => exact holds.map_handleKey (pairs.eq_some_iff.mp pair)
  | none =>
      cases read : map (handleKey handle) with
      | none => rfl
      | some value =>
          obtain ⟨name, other, otherPair, ⟨key, _⟩ | ⟨key, _⟩⟩ :=
            (holds.exact _ _).mp read
          · cases injective key
            rw [pairs.eq_some_iff.mpr otherPair] at pair
            cases pair
          · exact absurd key (notName name other otherPair)

/-- An unread key belongs to no pair. -/
theorem name_free (holds : Holds nameKey handleKey map pairs) {name : α}
    (unread : map (nameKey name) = none) : pairs name = none := by
  cases pair : pairs name with
  | none => rfl
  | some handle =>
      rw [holds.map_nameKey pair] at unread
      cases unread

theorem handle_free (holds : Holds nameKey handleKey map pairs) {handle : β}
    (unread : map (handleKey handle) = none) : pairs.symm handle = none := by
  cases pair : pairs.symm handle with
  | none => rfl
  | some name =>
      rw [holds.map_handleKey (pairs.eq_some_iff.mp pair)] at unread
      cases unread

theorem apart_of_unread (holds : Holds nameKey handleKey map pairs) {key : κ}
    (unread : map key = none) (name : α) (handle : β)
    (pair : pairs name = some handle) :
    key ≠ nameKey name ∧ key ≠ handleKey handle := by
  constructor
  · rintro rfl
    rw [holds.map_nameKey pair] at unread
    cases unread
  · rintro rfl
    rw [holds.map_handleKey pair] at unread
    cases unread

variable [DecidableEq α] [DecidableEq β] [DecidableEq κ]

/-- Writing both directions of a new pair.  The one condition on the pair
itself is that its two keys differ. -/
theorem extend (holds : Holds nameKey handleKey map pairs)
    {name : α} {handle : β}
    (nameUnread : map (nameKey name) = none)
    (handleUnread : map (handleKey handle) = none)
    (different : nameKey name ≠ handleKey handle) :
    Holds nameKey handleKey
      (Function.update
        (Function.update map (handleKey handle) (some (nameKey name)))
        (nameKey name) (some (handleKey handle)))
      (TwoWayMap.extend pairs name handle (holds.name_free nameUnread)
        (holds.handle_free handleUnread)) := by
  have nameUnused := holds.apart_of_unread nameUnread
  have handleUnused := holds.apart_of_unread handleUnread
  have pairCases : ∀ other otherHandle,
      TwoWayMap.extend pairs name handle (holds.name_free nameUnread)
        (holds.handle_free handleUnread) other = some otherHandle ↔
      (other = name ∧ otherHandle = handle) ∨
        (other ≠ name ∧ pairs other = some otherHandle) := by
    intro other otherHandle
    rw [extend_apply]
    by_cases same : other = name
    · simp [same, eq_comm]
    · simp [same]
  have otherName : ∀ other otherHandle, pairs other = some otherHandle →
      other ≠ name := by
    rintro other otherHandle pair rfl
    exact (nameUnused other otherHandle pair).1 rfl
  constructor
  · intro key value
    simp only [pairCases]
    by_cases isName : key = nameKey name
    · subst isName
      rw [Function.update_self]
      constructor
      · intro read
        cases read
        exact ⟨name, handle, Or.inl ⟨rfl, rfl⟩, Or.inr ⟨rfl, rfl⟩⟩
      · rintro ⟨other, otherHandle, ⟨rfl, rfl⟩ | ⟨_, pair⟩, keys⟩
        · rcases keys with ⟨key, _⟩ | ⟨_, rfl⟩
          · exact absurd key different
          · rfl
        · rcases keys with ⟨key, _⟩ | ⟨key, _⟩
          · exact absurd key (nameUnused other otherHandle pair).2
          · exact absurd key (nameUnused other otherHandle pair).1
    · rw [Function.update_of_ne isName]
      by_cases isHandle : key = handleKey handle
      · subst isHandle
        rw [Function.update_self]
        constructor
        · intro read
          cases read
          exact ⟨name, handle, Or.inl ⟨rfl, rfl⟩, Or.inl ⟨rfl, rfl⟩⟩
        · rintro ⟨other, otherHandle, ⟨rfl, rfl⟩ | ⟨_, pair⟩, keys⟩
          · rcases keys with ⟨_, rfl⟩ | ⟨key, _⟩
            · rfl
            · exact absurd key isName
          · rcases keys with ⟨key, _⟩ | ⟨key, _⟩
            · exact absurd key (handleUnused other otherHandle pair).2
            · exact absurd key (handleUnused other otherHandle pair).1
      · rw [Function.update_of_ne isHandle, holds.exact]
        constructor
        · rintro ⟨other, otherHandle, pair, keys⟩
          exact ⟨other, otherHandle,
            Or.inr ⟨otherName other otherHandle pair, pair⟩, keys⟩
        · rintro ⟨other, otherHandle, ⟨rfl, rfl⟩ | ⟨_, pair⟩, keys⟩
          · rcases keys with ⟨key, _⟩ | ⟨key, _⟩
            · exact absurd key isHandle
            · exact absurd key isName
          · exact ⟨other, otherHandle, pair, keys⟩
  · intro first firstHandle second secondHandle firstPair secondPair
    rcases (pairCases _ _).mp firstPair with ⟨firstNew, _⟩ | ⟨_, firstOld⟩ <;>
      rcases (pairCases _ _).mp secondPair with ⟨_, secondNew⟩ | ⟨_, secondOld⟩
    · rw [firstNew, secondNew]
      exact different
    · rw [firstNew]
      exact (nameUnused second secondHandle secondOld).2
    · rw [secondNew]
      exact (handleUnused first firstHandle firstOld).1.symm
    · exact holds.apart first firstHandle second secondHandle firstOld
        secondOld

omit [DecidableEq β] in
/-- Erasing both directions of a pair. -/
theorem erase (holds : Holds nameKey handleKey map pairs)
    (nameInjective : Function.Injective nameKey)
    (handleInjective : Function.Injective handleKey)
    {name : α} {handle : β} (pair : pairs name = some handle) :
    Holds nameKey handleKey
      (Function.update (Function.update map (nameKey name) none)
        (handleKey handle) none)
      (TwoWayMap.erase pairs name) := by
  have pairCases : ∀ other otherHandle,
      TwoWayMap.erase pairs name other = some otherHandle ↔
        other ≠ name ∧ pairs other = some otherHandle := by
    intro other otherHandle
    rw [erase_apply]
    by_cases same : other = name <;> simp [same]
  have otherHandles : ∀ other otherHandle, other ≠ name →
      pairs other = some otherHandle → otherHandle ≠ handle := by
    rintro other otherHandle different otherPair rfl
    have sameName := pairs.eq_some_iff.mpr otherPair
    rw [pairs.eq_some_iff.mpr pair] at sameName
    exact different (Option.some.inj sameName).symm
  constructor
  · intro key value
    simp only [pairCases]
    by_cases isHandle : key = handleKey handle
    · subst isHandle
      rw [Function.update_self]
      refine iff_of_false (by simp) ?_
      rintro ⟨other, otherHandle, ⟨different, otherPair⟩, ⟨key, _⟩ | ⟨key, _⟩⟩
      · exact otherHandles other otherHandle different otherPair
          (handleInjective key).symm
      · exact holds.apart other otherHandle name handle otherPair pair key.symm
    · rw [Function.update_of_ne isHandle]
      by_cases isName : key = nameKey name
      · subst isName
        rw [Function.update_self]
        refine iff_of_false (by simp) ?_
        rintro ⟨other, otherHandle, ⟨different, otherPair⟩,
          ⟨key, _⟩ | ⟨key, _⟩⟩
        · exact holds.apart name handle other otherHandle pair otherPair key
        · exact different (nameInjective key).symm
      · rw [Function.update_of_ne isName, holds.exact]
        constructor
        · rintro ⟨other, otherHandle, otherPair, keys⟩
          refine ⟨other, otherHandle, ⟨?_, otherPair⟩, keys⟩
          rintro rfl
          cases Option.some.inj (pair.symm.trans otherPair)
          rcases keys with ⟨key, _⟩ | ⟨key, _⟩
          · exact isHandle key
          · exact isName key
        · rintro ⟨other, otherHandle, ⟨_, otherPair⟩, keys⟩
          exact ⟨other, otherHandle, otherPair, keys⟩
  · intro first firstHandle second secondHandle firstPair secondPair
    exact holds.apart first firstHandle second secondHandle
      ((pairCases _ _).mp firstPair).2 ((pairCases _ _).mp secondPair).2

end Holds

/-! ## Maps that lead back -/

/-- Every value is a key that leads back to where it was found. -/
def Mirrored (map : κ → Option κ) : Prop :=
  ∀ key value, map key = some value → map value = some key

theorem mirrored_empty : Mirrored fun _ : κ => none := by
  intro key value found
  cases found

section Mirrored
variable [DecidableEq κ] {map : κ → Option κ}

/-- Both directions between two unused keys. -/
theorem Mirrored.put (mirrored : Mirrored map) {first second : κ}
    (firstFree : map first = none) (secondFree : map second = none) :
    Mirrored (Function.update (Function.update map first (some second)) second
      (some first)) := by
  have elsewhere : ∀ key value, map key = some value →
      value ≠ first ∧ value ≠ second := by
    intro key value found
    have back := mirrored key value found
    constructor
    · rintro rfl
      rw [firstFree] at back
      cases back
    · rintro rfl
      rw [secondFree] at back
      cases back
  intro key value found
  by_cases isSecond : key = second
  · subst isSecond
    rw [Function.update_self] at found
    cases found
    by_cases same : first = key
    · subst same
      rw [Function.update_self]
    · rw [Function.update_of_ne same, Function.update_self]
  · rw [Function.update_of_ne isSecond] at found
    by_cases isFirst : key = first
    · subst isFirst
      rw [Function.update_self] at found
      cases found
      rw [Function.update_self]
    · rw [Function.update_of_ne isFirst] at found
      obtain ⟨notFirst, notSecond⟩ := elsewhere key value found
      rw [Function.update_of_ne notSecond, Function.update_of_ne notFirst]
      exact mirrored key value found

/-- A key and its value go together. -/
theorem Mirrored.drop (mirrored : Mirrored map) {first second : κ}
    (pair : map first = some second) :
    Mirrored (Function.update (Function.update map first none) second none) := by
  intro key value found
  by_cases isSecond : key = second
  · rw [isSecond, Function.update_self] at found
    cases found
  · rw [Function.update_of_ne isSecond] at found
    by_cases isFirst : key = first
    · rw [isFirst, Function.update_self] at found
      cases found
    · rw [Function.update_of_ne isFirst] at found
      have back := mirrored key value found
      have notSecond : value ≠ second := by
        rintro rfl
        rw [mirrored first value pair] at back
        exact isFirst (Option.some.inj back).symm
      have notFirst : value ≠ first := by
        rintro rfl
        rw [pair] at back
        exact isSecond (Option.some.inj back).symm
      rw [Function.update_of_ne notSecond, Function.update_of_ne notFirst]
      exact back

end Mirrored

end ChlorosSnfs.Library.TwoWayMap
