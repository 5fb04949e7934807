import ChlorosSnfs.Snfs.FhandledbRefinement
import ChlorosSnfs.Snfs.HandlerEffects

/-!
# The database over whole server runs

As long as no stored path is seven bytes long, the database of every state a
server comes to is a partial bijection.  What one round of the loop does to it
is then read off the two calls of fhandledb.c it can make.
-/

set_option autoImplicit false

namespace ChlorosSnfs.Snfs.ServerDatabase

open ChlorosSnfs.Library
open ChlorosSnfs.Library.Runs
open ChlorosSnfs.Snfs.Fhandledb
open ChlorosSnfs.Snfs.FhandledbRefinement (Refines refines_empty)
open ChlorosSnfs.Snfs.Messages
open ChlorosSnfs.Snfs.Syscalls
open ChlorosSnfs.Snfs.ServeLoop
open ChlorosSnfs.Snfs.HandlerEffects

variable {Fs : Type}

/-- No handle leads to a path of seven bytes. -/
def NoSevenStored (db : Db) : Prop :=
  ∀ handle filename, getFile db handle = some (CString.key filename) →
    filename.bytes.length ≠ 7

/-! ## The two calls on a bijection -/

theorem getFile_paired (db : Db) (filename : CString) (handle other : Fhandle) :
    getFile (paired db filename handle) other =
      if handleBytes other = filename.key then some (handleBytes handle)
      else if other = handle then some filename.key
      else getFile db other := by
  simp only [getFile, find, paired_apply, handleBytes_injective.eq_iff]

/-- The handle of a new pair leads to its name, whatever the two are. -/
theorem getFile_paired_self (db : Db) (filename : CString) (handle : Fhandle) :
    getFile (paired db filename handle) handle = some filename.key := by
  rw [getFile_paired]
  split
  · rename_i same
    rw [same]
  · rw [if_pos rfl]

theorem noSevenStored_paired {db : Db} (noSeven : NoSevenStored db)
    {filename : CString} (notSeven : filename.bytes.length ≠ 7)
    (handle : Fhandle) : NoSevenStored (paired db filename handle) := by
  intro other path stored
  rw [getFile_paired, if_neg (key_ne_handleBytes notSeven other).symm] at stored
  split at stored
  · rw [← key_injective (Option.some.inj stored)]
    exact notSeven
  · exact noSeven other path stored

theorem getFile_unpaired (db : Db) (filename : CString)
    (handle other : Fhandle) :
    getFile (unpaired db filename handle) other =
      if other = handle then none
      else if handleBytes other = filename.key then none
      else getFile db other := by
  simp only [getFile, find, unpaired_apply, handleBytes_injective.eq_iff]

/-- A name is added where none of its two keys was, or nothing happens. -/
def AddsAtMostOne (db next : Db) : Prop :=
  next = db ∨ ∃ filename handle, db (CString.key filename) = none ∧
    db (handleBytes handle) = none ∧ next = paired db filename handle

theorem addsAtMostOne_of_called {beyond : Fhandle} {db next : Db}
    {draws rest : List Fhandle} {filename : CString} {handle : Fhandle}
    (called : nameFindOrInsert beyond db draws filename =
      some (handle, next, rest)) : AddsAtMostOne db next := by
  rcases nameFindOrInsert_eq_some called with
    ⟨_, _, _, same, _⟩ | ⟨unknown, generated, written⟩
  · exact Or.inl same
  · obtain ⟨unused, _⟩ := generateNewFhandle_eq_some generated
    exact Or.inr ⟨filename, handle, unknown, unused, written⟩

/-- What a handle leads to is not changed by adding a name. -/
theorem AddsAtMostOne.getFile_eq {db next : Db} (adds : AddsAtMostOne db next)
    {handle : Fhandle} {value : Bytes}
    (stored : getFile db handle = some value) :
    getFile next handle = some value := by
  rcases adds with rfl | ⟨filename, added, unknown, unused, rfl⟩
  · exact stored
  · rw [getFile_paired, if_neg, if_neg]
    · exact stored
    · rintro rfl
      exact Option.some_ne_none value (stored.symm.trans unused)
    · intro same
      rw [getFile, find, same, unknown] at stored
      cases stored

theorem storedPath_eq_of_refines {db : Db} {pairs : CString ≃. Fhandle}
    (refines : Refines db pairs) (handle : Fhandle) :
    storedPath db handle = pairs.symm handle := by
  rw [storedPath, refines.getFile_eq]
  cases pairs.symm handle with
  | none => rfl
  | some filename => simp

theorem refines_of_adds {db next : Db} {pairs : CString ≃. Fhandle}
    (refines : Refines db pairs) (adds : AddsAtMostOne db next)
    (noSeven : NoSevenStored next) :
    ∃ morePairs : CString ≃. Fhandle, Refines next morePairs := by
  rcases adds with rfl | ⟨filename, handle, unknown, unused, rfl⟩
  · exact ⟨pairs, refines⟩
  · have notSeven := noSeven handle filename (getFile_paired_self db filename handle)
    refine ⟨_, holdsPairs_paired refines.holds unknown unused
      (key_ne_handleBytes notSeven handle), ?_⟩
    intro other stored pair
    rw [TwoWayMap.extend_apply] at pair
    split at pair
    · rename_i same
      rw [same]
      exact notSeven
    · exact refines.notSeven other stored pair

theorem refines_unpaired {db : Db} {pairs : CString ≃. Fhandle}
    (refines : Refines db pairs) {filename : CString} {handle : Fhandle}
    (pair : pairs filename = some handle) :
    Refines (unpaired db filename handle) (TwoWayMap.erase pairs filename) := by
  refine ⟨holdsPairs_unpaired refines.holds pair, ?_⟩
  intro other stored otherPair
  rw [TwoWayMap.erase_apply] at otherPair
  split at otherPair
  · cases otherPair
  · exact refines.notSeven other stored otherPair

/-- A stored name is removed with its handle, also after another name has been
added. -/
theorem nameRemove_after_adding {db next : Db} {pairs : CString ≃. Fhandle}
    (refines : Refines db pairs) {filename : CString} {handle : Fhandle}
    (pair : pairs filename = some handle) (adds : AddsAtMostOne db next)
    (beyond : Fhandle) :
    nameRemove beyond next filename =
      (.returned true, unpaired next filename handle) := by
  have notSeven := refines.notSeven filename handle pair
  have nameKnown := refines.holds.map_nameKey pair
  have handleKnown : getFile db handle = some filename.key :=
    refines.holds.map_handleKey pair
  have nameStill : next filename.key = some (handleBytes handle) := by
    rcases adds with rfl | ⟨added, fresh, unknown, _, rfl⟩
    · exact nameKnown
    · rw [paired_apply, if_neg, if_neg (key_ne_handleBytes notSeven fresh)]
      · exact nameKnown
      · intro same
        rw [same, unknown] at nameKnown
        cases nameKnown
  exact nameRemove_of_pair nameStill (adds.getFile_eq handleKnown)
    (key_ne_handleBytes notSeven handle)

/-- After a removal every handle but the one removed leads where it led. -/
theorem getFile_unpaired_other {db : Db} {filename : CString}
    {handle other : Fhandle} (notSeven : filename.bytes.length ≠ 7)
    (different : other ≠ handle) :
    getFile (unpaired db filename handle) other = getFile db other := by
  rw [getFile_unpaired, if_neg different,
    if_neg (key_ne_handleBytes notSeven other).symm]

theorem getFile_unpaired_self (db : Db) (filename : CString)
    (handle : Fhandle) : getFile (unpaired db filename handle) handle = none := by
  rw [getFile_unpaired, if_pos rfl]

/-! ## One round of the loop -/

/-- What a round of the loop can do to the database. -/
inductive DatabaseStep (before after : Server Fs) : Prop
  | adds (adds : AddsAtMostOne before.db after.db)
  | removes (filename : CString) (handle : Fhandle) (middle : Db)
      (stored : storedPath before.db handle = some filename)
      (adds : AddsAtMostOne before.db middle)
      (removed : after.db = unpaired middle filename handle)

theorem unlinked_removed {env : Env Fs} {args : RemoveArgs}
    {before after : Server Fs} {handle : Fhandle} {path : CString}
    {removed : Bool} {pairs : CString ≃. Fhandle}
    (refines : Refines before.db pairs)
    (gone : Unlinked env args before after handle path removed) :
    removed = true ∧ after.db = unpaired before.db path handle := by
  have pair := gone.stored
  rw [storedPath_eq_of_refines refines] at pair
  have result := gone.db
  rw [nameRemove_after_adding refines (pairs.eq_some_iff.mp pair)
    (Or.inl rfl)] at result
  obtain ⟨same, written⟩ := Prod.mk.inj result
  exact ⟨(Removal.returned.inj same).symm, written.symm⟩

theorem moved_removed {env : Env Fs} {args : RenameArgs}
    {before after : Server Fs} {handle newHandle : Fhandle}
    {oldPath newPath : CString} {removed : Bool} {pairs : CString ≃. Fhandle}
    (refines : Refines before.db pairs)
    (moved : Moved env args before after handle oldPath newPath newHandle
      removed) :
    removed = true ∧ ∃ middle,
      nameFindOrInsert env.leftover.word before.db before.draws newPath =
        some (newHandle, middle, after.draws) ∧
      after.db = unpaired middle oldPath handle := by
  have pair := moved.stored
  rw [storedPath_eq_of_refines refines] at pair
  obtain ⟨middle, inserted, result⟩ := moved.db
  rw [nameRemove_after_adding refines (pairs.eq_some_iff.mp pair)
    (addsAtMostOne_of_called inserted)] at result
  obtain ⟨same, written⟩ := Prod.mk.inj result
  exact ⟨(Removal.returned.inj same).symm, middle, inserted, written.symm⟩

theorem databaseStep_of_ending {env : Env Fs} {message : Bytes}
    {before after : Server Fs} {type : MsgType} {pairs : CString ≃. Fhandle}
    (refines : Refines before.db pairs)
    (ending : Ending env message before after type) :
    DatabaseStep before after := by
  cases ending with
  | refused refused => exact .adds (Or.inl refused.db)
  | answered leaves answered => exact .adds (Or.inl answered.db)
  | mounted root named fs sent =>
      exact .adds (addsAtMostOne_of_called named.inserted)
  | lookedUp dirPath filename handle found =>
      exact .adds (addsAtMostOne_of_called found.named.inserted)
  | created path handle made sent =>
      exact .adds (addsAtMostOne_of_called made.named.inserted)
  | madeDirectory path handle made sent =>
      exact .adds (addsAtMostOne_of_called made.named.inserted)
  | unlinked handle path removed gone =>
      exact .removes path handle before.db gone.stored (Or.inl rfl)
        (unlinked_removed refines gone).2
  | moved handle oldPath newPath newHandle removed moved =>
      obtain ⟨_, middle, inserted, result⟩ := moved_removed refines moved
      exact .removes oldPath handle middle moved.stored
        (addsAtMostOne_of_called inserted) result

/-- A path of seven bytes that is added is still there after the removal. -/
theorem noSevenStored_middle {db middle : Db} {pairs : CString ≃. Fhandle}
    (refines : Refines db pairs) {filename : CString} {handle : Fhandle}
    (pair : pairs filename = some handle) (adds : AddsAtMostOne db middle)
    (noSeven : NoSevenStored (Fhandledb.unpaired middle filename handle)) :
    NoSevenStored middle := by
  intro other path stored
  by_cases same : other = handle
  · subst same
    have before : getFile middle other = some filename.key :=
      adds.getFile_eq (refines.holds.map_handleKey pair)
    rw [key_injective (Option.some.inj (stored.symm.trans before))]
    exact refines.notSeven filename other pair
  · apply noSeven other path
    rw [getFile_unpaired_other (refines.notSeven filename handle pair) same]
    exact stored

/-- The database of a server is a bijection without names of seven bytes. -/
def Bijective (server : Server Fs) : Prop :=
  ∃ pairs : CString ≃. Fhandle, Refines server.db pairs

theorem DatabaseStep.bijective {before after : Server Fs}
    {pairs : CString ≃. Fhandle} (refines : Refines before.db pairs)
    (databaseStep : DatabaseStep before after)
    (noSeven : NoSevenStored after.db) : Bijective after := by
  cases databaseStep with
  | adds adds => exact refines_of_adds refines adds noSeven
  | removes filename handle middle stored adds removed =>
      rw [storedPath_eq_of_refines refines] at stored
      have pair := pairs.eq_some_iff.mp stored
      rw [removed] at noSeven
      obtain ⟨morePairs, more⟩ := refines_of_adds refines adds
        (noSevenStored_middle refines pair adds noSeven)
      have stillPair : morePairs filename = some handle := by
        have stillStored := adds.getFile_eq (refines.holds.map_handleKey pair)
        rw [more.getFile_eq] at stillStored
        obtain ⟨other, otherPair, same⟩ := Option.map_eq_some_iff.mp stillStored
        cases key_injective same
        exact morePairs.eq_some_iff.mp otherPair
      rw [Bijective, removed]
      exact ⟨_, refines_unpaired more stillPair⟩

theorem step_bijective {kernel : Kernel Fs} {server next : Server Fs}
    {event : Event Fs} (bijective : Bijective server)
    (stepped : step kernel server event = some next)
    (noSeven : NoSevenStored next.db) : Bijective next := by
  obtain ⟨pairs, refines⟩ := bijective
  cases event with
  | external fs =>
      cases stepped
      exact ⟨pairs, refines⟩
  | request message leftover =>
      rw [step] at stepped
      split at stepped
      · rename_i served
        cases stepped
        obtain ⟨_, _, ending⟩ := serve_ending served
        exact (databaseStep_of_ending refines ending).bijective refines noSeven
      · cases stepped

/-- No stored path of seven bytes in any state of the run. -/
abbrev NeverSeven (kernel : Kernel Fs) (server : Server Fs)
    (events : List (Event Fs)) : Prop :=
  Everywhere (step kernel) (fun server => NoSevenStored server.db) server events

theorem run_bijective {kernel : Kernel Fs} {start server : Server Fs}
    {events : List (Event Fs)} (bijective : Bijective start)
    (neverSeven : NeverSeven kernel start events)
    (run : runLabels (step kernel) start events = some server) :
    Bijective server := by
  refine invariant_of_guarded_run ?_ bijective neverSeven.everyStep run
  intro state event next before guard stepped
  exact step_bijective before stepped (guard.2 next stepped)

theorem started_bijective (fs : Fs) (draws : List Fhandle) :
    Bijective (started fs draws) :=
  ⟨⊥, refines_empty⟩

end ChlorosSnfs.Snfs.ServerDatabase
