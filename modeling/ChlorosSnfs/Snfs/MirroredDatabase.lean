import ChlorosSnfs.Snfs.ServerDatabase

/-!
# What holds of every database

Whatever is drawn and whatever names are stored, each entry of the map leads
from a name to a handle or back, and another entry leads the other way.  A name
of seven bytes may still be taken for a handle.
-/

set_option autoImplicit false

namespace ChlorosSnfs.Snfs.MirroredDatabase

open ChlorosSnfs.Library
open ChlorosSnfs.Library.Runs
open ChlorosSnfs.Snfs.Fhandledb
open ChlorosSnfs.Snfs.Messages
open ChlorosSnfs.Snfs.Syscalls
open ChlorosSnfs.Snfs.ServeLoop
open ChlorosSnfs.Snfs.HandlerEffects
open ChlorosSnfs.Snfs.ServerDatabase

variable {Fs : Type}

/-- An entry from a name to its handle. -/
def NameEntry (key value : Bytes) : Prop :=
  ∃ filename handle, key = CString.key filename ∧ value = handleBytes handle

structure TwoSided (db : Db) : Prop where
  mirrored : TwoWayMap.Mirrored db
  entry : ∀ key value, db key = some value →
    NameEntry key value ∨ NameEntry value key

theorem twoSided_empty : TwoSided emptyDb := by
  refine ⟨TwoWayMap.mirrored_empty, ?_⟩
  intro key value found
  cases found

theorem TwoSided.paired {db : Db} (twoSided : TwoSided db) {filename : CString}
    {handle : Fhandle} (unknown : db filename.key = none)
    (unused : db (handleBytes handle) = none) :
    TwoSided (Fhandledb.paired db filename handle) := by
  refine ⟨twoSided.mirrored.put unused unknown, ?_⟩
  intro key value found
  rw [paired_apply] at found
  split at found
  · rename_i isName
    cases found
    exact Or.inl ⟨filename, handle, isName, rfl⟩
  · split at found
    · rename_i isHandle
      cases found
      exact Or.inr ⟨filename, handle, rfl, isHandle⟩
    · exact twoSided.entry key value found

theorem TwoSided.adds {db next : Db} (twoSided : TwoSided db)
    (adds : AddsAtMostOne db next) : TwoSided next := by
  rcases adds with rfl | ⟨filename, handle, unknown, unused, rfl⟩
  · exact twoSided
  · exact twoSided.paired unknown unused

theorem TwoSided.unpaired {db : Db} (twoSided : TwoSided db)
    {filename : CString} {handle : Fhandle}
    (pair : db filename.key = some (handleBytes handle)) :
    TwoSided (Fhandledb.unpaired db filename handle) := by
  refine ⟨twoSided.mirrored.drop pair, ?_⟩
  intro key value found
  rw [unpaired_apply] at found
  split at found
  · cases found
  · split at found
    · cases found
    · exact twoSided.entry key value found

/-! ## Stored paths -/

/-- A string of seven bytes fills the eight it is read from. -/
theorem key_of_stringAt {bytes : Bytes} {path : CString}
    (string : stringAt bytes = some path) (eight : bytes.length = 8)
    (seven : path.bytes.length = 7) : bytes = path.key := by
  rw [stringAt] at string
  split at string
  · rename_i hasNul
    cases string
    have parts : bytes.takeWhile (· ≠ 0) ++ bytes.dropWhile (· ≠ 0) = bytes :=
      List.takeWhile_append_dropWhile
    have behind : (bytes.dropWhile (· ≠ (0 : UInt8))).length = 1 := by
      have lengths := congrArg List.length parts
      simp only [List.length_append] at lengths seven
      omega
    obtain ⟨last, isLast⟩ := List.length_eq_one_iff.mp behind
    rw [isLast] at parts
    have isNul : last = 0 := by
      rw [← parts, List.mem_append, List.mem_singleton] at hasNul
      rcases hasNul with inName | same
      · exact absurd (List.mem_takeWhile_imp inName) (by simp)
      · exact same.symm
    rw [isNul] at parts
    exact parts.symm
  · cases string

/-- A stored path of seven bytes leads back to the handle it was found with. -/
theorem TwoSided.map_key_of_seven {db : Db} (twoSided : TwoSided db)
    {given : Fhandle} {path : CString} (stored : storedPath db given = some path)
    (seven : path.bytes.length = 7) :
    db path.key = some (handleBytes given) := by
  obtain ⟨value, known, string⟩ := Option.bind_eq_some_iff.mp stored
  have isKey : value = path.key := by
    rcases twoSided.entry (handleBytes given) value known with
      ⟨_, handle, _, rfl⟩ | ⟨name, _, rfl, _⟩
    · exact key_of_stringAt string (handleBytes_length _) seven
    · rw [stringAt_key] at string
      cases string
      rfl
  rw [isKey] at known
  exact twoSided.mirrored _ _ known

/-- The key of a stored path leads to a handle, never to a name. -/
theorem TwoSided.handle_of_stored {db : Db} (twoSided : TwoSided db)
    {given : Fhandle} {path : CString} (stored : storedPath db given = some path)
    {value : Bytes} (found : db path.key = some value) :
    ∃ handle, value = handleBytes handle := by
  rcases twoSided.entry path.key value found with
    ⟨_, handle, _, rfl⟩ | ⟨filename, handle, _, isHandle⟩
  · exact ⟨handle, rfl⟩
  · have seven : path.bytes.length = 7 := by
      have lengths := congrArg List.length isHandle
      simp only [key_length, handleBytes_length] at lengths
      omega
    have back := twoSided.map_key_of_seven stored seven
    rw [found] at back
    exact ⟨given, Option.some.inj back⟩

/-- Removing a stored path takes it away with its handle, or it had none. -/
theorem TwoSided.nameRemove_returned {db next : Db} (twoSided : TwoSided db)
    {given beyond : Fhandle} {path : CString} {removed : Bool}
    (stored : storedPath db given = some path)
    (called : nameRemove beyond db path = (.returned removed, next)) :
    removed = false ∧ next = db ∨ removed = true ∧ ∃ handle,
      db path.key = some (handleBytes handle) ∧
        next = Fhandledb.unpaired db path handle := by
  cases found : db path.key with
  | none =>
      rw [nameRemove_of_unknown found] at called
      cases called
      exact Or.inl ⟨rfl, rfl⟩
  | some value =>
      obtain ⟨handle, rfl⟩ := twoSided.handle_of_stored stored found
      have back := twoSided.mirrored _ _ found
      by_cases same : path.key = handleBytes handle
      · rw [same] at found
        simp [nameRemove, find, del, same, found] at called
      · rw [nameRemove_of_pair found back same] at called
        cases called
        exact Or.inr ⟨rfl, handle, rfl, rfl⟩

/-! ## Whole runs -/

theorem storedPath_of_adds {db next : Db} (adds : AddsAtMostOne db next)
    {handle : Fhandle} {path : CString}
    (stored : storedPath db handle = some path) :
    storedPath next handle = some path := by
  obtain ⟨value, known, string⟩ := Option.bind_eq_some_iff.mp stored
  rw [storedPath, adds.getFile_eq known]
  exact string

theorem TwoSided.removed {db next : Db} (twoSided : TwoSided db)
    {given beyond : Fhandle} {path : CString} {removed : Bool}
    (stored : storedPath db given = some path)
    (called : nameRemove beyond db path = (.returned removed, next)) :
    TwoSided next := by
  rcases twoSided.nameRemove_returned stored called with
    ⟨_, rfl⟩ | ⟨_, handle, pair, rfl⟩
  · exact twoSided
  · exact twoSided.unpaired pair

theorem ending_twoSided {env : Env Fs} {message : Bytes}
    {before after : Server Fs} {type : MsgType} (twoSided : TwoSided before.db)
    (ending : Ending env message before after type) : TwoSided after.db := by
  cases ending with
  | refused refused =>
      rw [refused.db]
      exact twoSided
  | answered leaves answered =>
      rw [answered.db]
      exact twoSided
  | mounted root named fs sent =>
      exact twoSided.adds (addsAtMostOne_of_called named.inserted)
  | lookedUp dirPath filename handle found =>
      exact twoSided.adds (addsAtMostOne_of_called found.named.inserted)
  | created path handle made sent =>
      exact twoSided.adds (addsAtMostOne_of_called made.named.inserted)
  | madeDirectory path handle made sent =>
      exact twoSided.adds (addsAtMostOne_of_called made.named.inserted)
  | unlinked handle path removed gone =>
      exact twoSided.removed gone.stored gone.db
  | moved handle oldPath newPath newHandle removed moved =>
      obtain ⟨middle, inserted, removal⟩ := moved.db
      have adds := addsAtMostOne_of_called inserted
      exact (twoSided.adds adds).removed (storedPath_of_adds adds moved.stored)
        removal

theorem step_twoSided {kernel : Kernel Fs} {server next : Server Fs}
    {event : Event Fs} (twoSided : TwoSided server.db)
    (stepped : step kernel server event = some next) : TwoSided next.db := by
  cases event with
  | external fs =>
      cases stepped
      exact twoSided
  | request message leftover =>
      rw [step] at stepped
      split at stepped
      · rename_i handled
        cases stepped
        obtain ⟨_, _, ending⟩ := serve_ending handled
        exact ending_twoSided twoSided ending
      · cases stepped

theorem twoSided_of_reachable {kernel : Kernel Fs} {server : Server Fs}
    (reachable : Reachable kernel server) : TwoSided server.db := by
  obtain ⟨fs, draws, events, run⟩ := reachable
  have initially : TwoSided (started fs draws).db := twoSided_empty
  exact invariant_of_run
    (fun _ _ _ before stepped => step_twoSided before stepped) initially run

end ChlorosSnfs.Snfs.MirroredDatabase
