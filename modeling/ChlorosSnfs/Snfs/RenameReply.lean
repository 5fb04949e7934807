import ChlorosSnfs.Snfs.SubtreeRename

/-!
# The handle a rename replies with

`handle_rename` finds or stores the new path and then removes the old one.  The
handle it replies with leads to the renamed file unless the removal takes that
handle too, which it does when both paths are the same string.
-/

set_option autoImplicit false

namespace ChlorosSnfs.Snfs.RenameReply

open ChlorosSnfs.Snfs.Fhandledb
open ChlorosSnfs.Snfs.Messages
open ChlorosSnfs.Snfs.Syscalls
open ChlorosSnfs.Snfs.Handlers
open ChlorosSnfs.Snfs.ServeLoop
open ChlorosSnfs.Snfs.HandlerEffects
open ChlorosSnfs.Snfs.ServerDatabase
open ChlorosSnfs.Snfs.TreeKernel
open ChlorosSnfs.Snfs.MirroredDatabase
open ChlorosSnfs.Snfs.SubtreeRename (Between between_of_moved madeD
  madeD_reachable madeD_stored pathD pathE quietMemory renameDToE
  renameDToE_read)

variable {Fs File : Type}

/-- What rename(2) says of the file at a path: there is one at the old path, and
afterwards the new path leads to it.  The two paths may lead to the same file
before. -/
def RenameMovesFile (kernel : Kernel Fs) (fileAt : Fs → CString → Option File) :
    Prop :=
  ∀ oldPath newPath fs after,
    kernel (.rename oldPath newPath) fs = (.ok (), after) →
      ∃ file, fileAt fs oldPath = some file ∧ fileAt after newPath = some file

/-- A RENAME that is answered with a handle. -/
structure RenameAnswered (kernel : Kernel Fs) (message : Bytes)
    (leftover : Leftover) (before after : Server Fs) (oldPath newPath : CString)
    (handle : Fhandle) : Prop where
  served : serve ⟨kernel, leftover⟩ message before = .ok after
  requested : messageType message = .ok .rename
  old : ∃ fh, (renameArgs message).fh = .ok fh ∧
    getFile before.db fh = some oldPath.key
  new : (renameArgs message).filename = .ok newPath
  replied : ∃ size, after.sent = (.rename handle, size) :: before.sent

/-- The handle leads to the new path, the new path to the handle, and the file
that was at the old path is reached through the handle. -/
structure LeadsToFile (fileAt : Fs → CString → Option File)
    (before after : Server Fs) (oldPath newPath : CString) (handle : Fhandle) :
    Prop where
  path : getFile after.db handle = some newPath.key
  found : ∀ beyond draws, nameFindOrInsert beyond after.db draws newPath =
    some (handle, after.db, draws)
  file : ∃ path file, storedPath after.db handle = some path ∧
    fileAt before.fs oldPath = some file ∧ fileAt after.fs path = some file

/-- A new path of seven bytes is not taken for a handle the database holds. -/
def Unmistaken (db : Db) (newPath : CString) : Prop :=
  newPath.bytes.length = 7 → db newPath.key = none

theorem RenameAnswered.moved {kernel : Kernel Fs} {message : Bytes}
    {leftover : Leftover} {before after : Server Fs} {oldPath newPath : CString}
    {handle : Fhandle}
    (answered : RenameAnswered kernel message leftover before after oldPath
      newPath handle) :
    ∃ fh, getFile before.db fh = some oldPath.key ∧
      Moved ⟨kernel, leftover⟩ (renameArgs message) before after fh oldPath
        newPath handle true := by
  obtain ⟨type, requested, ending⟩ := serve_ending answered.served
  cases answered.requested.symm.trans requested
  obtain ⟨size, replied⟩ := answered.replied
  obtain ⟨fh, fhRead, stored⟩ := answered.old
  have storedOld : storedPath before.db fh = some oldPath := by
    rw [storedPath, stored, Option.bind_some, stringAt_key]
  cases ending with
  | refused refused =>
      obtain ⟨error, sent⟩ := refused.reply
      rw [replied] at sent
      cases sent
  | answered leaves answered => cases leaves
  | moved other path target newHandle removed moved =>
      cases fhRead.symm.trans moved.fhRead
      cases storedOld.symm.trans moved.stored
      cases answered.new.symm.trans moved.filenameRead
      have sent := moved.sent
      rw [replied] at sent
      cases removed with
      | false => cases sent
      | true =>
          cases sent
          exact ⟨fh, stored, moved⟩

/-! ## Different paths -/

/-- A pair survives the removal of another one. -/
theorem pair_of_unpaired {db : Db} {oldPath newPath : CString}
    {handle newHandle : Fhandle}
    (oldToHandle : db oldPath.key = some (handleBytes handle))
    (handleToOld : db (handleBytes handle) = some oldPath.key)
    (newToHandle : db newPath.key = some (handleBytes newHandle))
    (handleToNew : db (handleBytes newHandle) = some newPath.key)
    (notSeven : oldPath.bytes.length ≠ 7) (different : oldPath ≠ newPath) :
    unpaired db oldPath handle newPath.key = some (handleBytes newHandle) ∧
      getFile (unpaired db oldPath handle) newHandle = some newPath.key := by
  have otherHandle : newHandle ≠ handle := by
    rintro rfl
    rw [handleToNew] at handleToOld
    exact different (key_injective (Option.some.inj handleToOld)).symm
  have otherKey : newPath.key ≠ handleBytes handle := by
    intro same
    rw [same, handleToOld] at newToHandle
    exact key_ne_handleBytes notSeven newHandle (Option.some.inj newToHandle)
  have otherPath : newPath.key ≠ oldPath.key := fun same =>
    different (key_injective same).symm
  constructor
  · rw [unpaired_apply, if_neg otherKey, if_neg otherPath]
    exact newToHandle
  · rw [getFile_unpaired_other notSeven otherHandle]
    exact handleToNew

/-- Between the two calls the new path and its handle lead to each other. -/
theorem pair_of_inserted {server : Server Fs} {beyond handle : Fhandle}
    {middle : Db} {rest : List Fhandle} {newPath : CString}
    (twoSided : TwoSided server.db) (unmistaken : Unmistaken server.db newPath)
    (inserted : nameFindOrInsert beyond server.db server.draws newPath =
      some (handle, middle, rest)) :
    middle newPath.key = some (handleBytes handle) ∧
      middle (handleBytes handle) = some newPath.key := by
  rcases nameFindOrInsert_eq_some inserted with
    ⟨value, known, read, rfl, _⟩ | ⟨_, _, rfl⟩
  · have notSeven : newPath.bytes.length ≠ 7 := by
      intro seven
      rw [unmistaken seven] at known
      cases known
    rcases twoSided.entry newPath.key value known with
      ⟨_, other, _, rfl⟩ | ⟨_, other, _, isHandle⟩
    · rw [readHandle_handleBytes] at read
      subst read
      exact ⟨known, twoSided.mirrored _ _ known⟩
    · exact absurd isHandle (key_ne_handleBytes notSeven other)
  · refine ⟨?_, getFile_paired_self server.db newPath handle⟩
    rw [paired_apply, if_pos rfl]

theorem leadsToFile_of_different {kernel : Kernel Fs}
    {fileAt : Fs → CString → Option File} (moves : RenameMovesFile kernel fileAt)
    {leftover : Leftover} {args : RenameArgs} {before after : Server Fs}
    {fh handle : Fhandle} {oldPath newPath : CString}
    (twoSided : TwoSided before.db) (notSeven : oldPath.bytes.length ≠ 7)
    (moved : Moved ⟨kernel, leftover⟩ args before after fh oldPath newPath handle
      true)
    (different : oldPath ≠ newPath) (unmistaken : Unmistaken before.db newPath) :
    LeadsToFile fileAt before after oldPath newPath handle := by
  obtain ⟨middle, oldHandle, between⟩ :=
    between_of_moved twoSided moved different
  obtain ⟨newToHandle, handleToNew⟩ :=
    pair_of_inserted twoSided unmistaken between.inserted
  obtain ⟨newKept, handleKept⟩ := pair_of_unpaired between.pair
    (between.twoSided.mirrored _ _ between.pair) newToHandle handleToNew
    notSeven different
  rw [← between.removed] at newKept handleKept
  refine ⟨handleKept, ?_, ?_⟩
  · intro beyond draws
    rw [nameFindOrInsert_of_known newKept, readHandle_handleBytes]
  · obtain ⟨file, before_, after_⟩ := moves oldPath newPath _ _ moved.moved
    refine ⟨newPath, file, ?_, before_, after_⟩
    rw [storedPath, handleKept, Option.bind_some, stringAt_key]

/-! ## Where the handle leads nowhere -/

/-- The database between the two calls is the one before when the new path was
known. -/
theorem unpaired_of_known {env : Env Fs} {args : RenameArgs}
    {before after : Server Fs} {fh handle : Fhandle} {oldPath newPath : CString}
    {value : Bytes} (twoSided : TwoSided before.db)
    (stored : getFile before.db fh = some oldPath.key)
    (moved : Moved env args before after fh oldPath newPath handle true)
    (known : before.db newPath.key = some value) :
    after.db = unpaired before.db oldPath fh ∧
      handle = readHandle value env.leftover.word := by
  obtain ⟨middle, inserted, removal⟩ := moved.db
  rw [nameFindOrInsert_of_known known] at inserted
  simp only [Option.some.injEq, Prod.mk.injEq] at inserted
  obtain ⟨rfl, rfl, _⟩ := inserted
  refine ⟨?_, rfl⟩
  have storedOld : storedPath before.db fh = some oldPath := by
    rw [storedPath, stored, Option.bind_some, stringAt_key]
  rcases twoSided.nameRemove_returned storedOld removal with
    ⟨impossible, _⟩ | ⟨_, other, pair, removed⟩
  · cases impossible
  · have back := twoSided.mirrored _ _ stored
    rw [pair] at back
    rw [removed, handleBytes_injective (Option.some.inj back)]

theorem getFile_of_same {env : Env Fs} {args : RenameArgs}
    {before after : Server Fs} {fh handle : Fhandle} {path : CString}
    (twoSided : TwoSided before.db) (stored : getFile before.db fh = some path.key)
    (moved : Moved env args before after fh path path handle true) :
    getFile after.db handle = none := by
  have known : before.db path.key = some (handleBytes fh) :=
    twoSided.mirrored _ _ stored
  obtain ⟨removed, read⟩ := unpaired_of_known twoSided stored moved known
  rw [readHandle_handleBytes] at read
  rw [removed, read]
  exact getFile_unpaired_self before.db path fh

theorem getFile_of_mistaken {env : Env Fs} {args : RenameArgs}
    {before after : Server Fs} {fh handle : Fhandle} {oldPath newPath : CString}
    (twoSided : TwoSided before.db) (noSeven : NoSevenStored before.db)
    (stored : getFile before.db fh = some oldPath.key)
    (moved : Moved env args before after fh oldPath newPath handle true)
    (mistaken : ¬ Unmistaken before.db newPath) :
    getFile after.db handle ≠ some newPath.key := by
  rw [Unmistaken, Classical.not_imp] at mistaken
  obtain ⟨seven, known⟩ := mistaken
  obtain ⟨value, known⟩ := Option.ne_none_iff_exists'.mp known
  obtain ⟨removed, _⟩ := unpaired_of_known twoSided stored moved known
  intro leads
  rw [removed, getFile_unpaired] at leads
  split at leads
  · cases leads
  · split at leads
    · cases leads
    · exact noSeven handle newPath leads seven

/-! ## The exact condition -/

/-- A RENAME reply carries a handle that leads to the renamed file exactly when
the two paths differ and the new one is not taken for a stored handle. -/
theorem leadsToFile_iff {kernel : Kernel Fs}
    {fileAt : Fs → CString → Option File} (moves : RenameMovesFile kernel fileAt)
    {message : Bytes} {leftover : Leftover} {before after : Server Fs}
    {oldPath newPath : CString} {handle : Fhandle}
    (reachable : Reachable kernel before) (noSeven : NoSevenStored before.db)
    (answered : RenameAnswered kernel message leftover before after oldPath
      newPath handle) :
    LeadsToFile fileAt before after oldPath newPath handle ↔
      oldPath ≠ newPath ∧ Unmistaken before.db newPath := by
  have twoSided := twoSided_of_reachable reachable
  obtain ⟨fh, stored, moved⟩ := answered.moved
  constructor
  · intro leads
    constructor
    · rintro rfl
      have gone := getFile_of_same twoSided stored moved
      rw [leads.path] at gone
      cases gone
    · by_contra mistaken
      exact getFile_of_mistaken twoSided noSeven stored moved mistaken leads.path
  · rintro ⟨different, unmistaken⟩
    exact leadsToFile_of_different moves twoSided (noSeven fh oldPath stored)
      moved different unmistaken

/-! ## On a tree -/

/-- The inode at the place a path names. -/
def inodeAt (files : Files) (path : CString) : Option Library.FileTree.Node :=
  files.node (locationOf path)

theorem renameMovesFile_of_onTree {kernel : Kernel Fs} {files : Fs → Files}
    (onTree : OnTree kernel files) :
    RenameMovesFile kernel fun fs path => inodeAt (files fs) path := by
  intro oldPath newPath fs after called
  obtain ⟨_, there, outcome⟩ := rename_of_filesAfter (onTree.of_ok called)
  obtain ⟨node, here⟩ := Option.ne_none_iff_exists'.mp there
  refine ⟨node, here, ?_⟩
  simp only [inodeAt]
  rcases outcome with ⟨same, unchanged⟩ | movedTo
  · rw [unchanged, ← same]
    exact here
  · have below := Library.FileTree.DirTree.movedNode_below (files fs)
      (locationOf oldPath) (locationOf newPath) []
    rw [List.append_nil, List.append_nil] at below
    rw [movedTo.node, below]
    exact here

theorem madeD_noSeven : NoSevenStored madeD.db := by
  intro handle filename stored
  rw [madeD_stored ⟨handle, stored⟩]
  decide

set_option maxRecDepth 4000 in
theorem leadsToFile_iff_madeD : ∃ after,
    RenameAnswered treeKernel renameDToE quietMemory madeD after pathD pathE 9 ∧
      LeadsToFile inodeAt madeD after pathD pathE 9 := by
  have answered : ∃ after,
      RenameAnswered treeKernel renameDToE quietMemory madeD after pathD pathE
        9 :=
    ⟨_, rfl, rfl, ⟨7, renameDToE_read.1, rfl⟩, renameDToE_read.2, _, rfl⟩
  obtain ⟨after, answered⟩ := answered
  refine ⟨after, answered, ?_⟩
  apply (leadsToFile_iff (renameMovesFile_of_onTree treeKernel_onTree)
    madeD_reachable madeD_noSeven answered).mpr
  exact ⟨by decide, fun seven => absurd seven (by decide)⟩

/-- `/d` is renamed to `/d`. -/
def renameDToD : Bytes := Client.renameMessage 7 pathD (fun _ => 0)

theorem renameDToD_read :
    (renameArgs renameDToD).fh = .ok 7 ∧
      (renameArgs renameDToD).filename = .ok pathD := by
  have read := Client.handle_and_name_read .rename 7 pathD (fun _ => 0)
  rw [Client.sent_of_short (by decide)] at read
  simp only [renameArgs, renameDToD, Client.renameMessage]
  exact read

set_option maxRecDepth 4000 in
/-- The reply carries handle 7, which leads nowhere. -/
theorem renamed_to_itself : ∃ after,
    Reachable treeKernel madeD ∧ NoSevenStored madeD.db ∧
      RenameAnswered treeKernel renameDToD quietMemory madeD after pathD pathD
        7 ∧
      getFile after.db 7 = none ∧
      ¬ LeadsToFile inodeAt madeD after pathD pathD 7 := by
  refine ⟨_, madeD_reachable, madeD_noSeven, ⟨rfl, rfl,
    ⟨7, renameDToD_read.1, rfl⟩, renameDToD_read.2, _, rfl⟩, rfl, ?_⟩
  intro leads
  cases leads.path

end ChlorosSnfs.Snfs.RenameReply
