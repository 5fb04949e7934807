import ChlorosSnfs.Snfs.MirroredDatabase
import ChlorosSnfs.Snfs.PathAgreement

/-!
# Renaming a directory

`handle_rename` stores the new path and removes the old one.  A name below the
old path that has been looked up before stays in the database, and nothing is
there any more.
-/

set_option autoImplicit false

namespace ChlorosSnfs.Snfs.SubtreeRename

open ChlorosSnfs.Library
open ChlorosSnfs.Library.FileTree
open ChlorosSnfs.Library.Paths
open ChlorosSnfs.Library.Runs
open ChlorosSnfs.Snfs.Fhandledb
open ChlorosSnfs.Snfs.Messages
open ChlorosSnfs.Snfs.Syscalls
open ChlorosSnfs.Snfs.Handlers
open ChlorosSnfs.Snfs.ServeLoop
open ChlorosSnfs.Snfs.HandlerEffects
open ChlorosSnfs.Snfs.ServerDatabase
open ChlorosSnfs.Snfs.TreeKernel
open ChlorosSnfs.Snfs.MirroredDatabase

variable {Fs : Type}

/-- A handle in the database names the path. -/
def Stored (db : Db) (filename : CString) : Prop :=
  ∃ handle, getFile db handle = some filename.key

/-- An absolute path with one slash before each name; `.` and `..` are no
names. -/
def PlainPath (path : CString) : Prop :=
  ∃ parts, (∀ part ∈ parts, Piece part ∧ part ≠ [46] ∧ part ≠ [46, 46]) ∧
    path.bytes = joined parts

/-- A name is a path or below it. -/
def Within (path name : CString) : Prop := locationOf path <+: locationOf name

instance (path name : CString) : Decidable (Within path name) :=
  inferInstanceAs (Decidable (locationOf path <+: locationOf name))

def Exists (files : Files) (name : CString) : Prop :=
  files.node (locationOf name) ≠ none

/-- A RENAME of a directory that succeeds, to a path that is not at or below its
own. -/
structure DirectoryRenamed (kernel : Kernel Fs) (files : Fs → Files)
    (message : Bytes) (leftover : Leftover) (before after : Server Fs)
    (oldPath newPath : CString) : Prop where
  served : serve ⟨kernel, leftover⟩ message before = .ok after
  requested : messageType message = .ok .rename
  old : ∃ fh, (renameArgs message).fh = .ok fh ∧
    storedPath before.db fh = some oldPath
  new : (renameArgs message).filename = .ok newPath
  replied : ∃ handle, after.sent =
    (.rename handle, snfsRepSize sizeofRenameRep) :: before.sent
  directory : (files before.fs).isDirAt (locationOf oldPath) = true
  aside : ¬ Within oldPath newPath

/-- A new name of seven bytes looks like a handle in the database, and the
handle drawn for it then looks like this name. -/
structure Misread (server : Server Fs) (filename name : CString) : Prop where
  unknown : server.db filename.key = none
  handle : ∃ handle, filename.key = handleBytes handle
  drawn : ∃ draw rest,
    generateNewFhandle server.db server.draws = some (draw, rest) ∧
      name.key = handleBytes draw

/-- Of the stored names only the old path is within it, and a handle that is
drawn for the new path and looks like a name does so for one that stays. -/
structure Alone (files : Files) (server : Server Fs) (oldPath newPath : CString) :
    Prop where
  only : ∀ name, Stored server.db name → Within oldPath name → name = oldPath
  misread : ∀ name, Misread server newPath name → ¬ Within oldPath name ∧
    files.movedNode (locationOf oldPath) (locationOf newPath)
      (locationOf name) ≠ none

/-! ## Plain paths -/

theorem steps_of_plain {path : CString} {parts : List Bytes}
    (plain : ∀ part ∈ parts, Piece part ∧ part ≠ [46] ∧ part ≠ [46, 46])
    (isJoined : path.bytes = joined parts) :
    (pathOf path).steps = parts.map .down := by
  have arePieces : ∀ part ∈ parts, Piece part :=
    fun part member => (plain part member).1
  rw [pathOf, stepsOf, isJoined, pieces_joined arePieces]
  apply PathAgreement.map_toStep
  · intro member
    exact (plain _ member).2.1 rfl
  · intro member
    exact (plain _ member).2.2 rfl

theorem locationOf_plain {path : CString} {parts : List Bytes}
    (plain : ∀ part ∈ parts, Piece part ∧ part ≠ [46] ∧ part ≠ [46, 46])
    (isJoined : path.bytes = joined parts) : locationOf path = parts := by
  rw [locationOf, steps_of_plain plain isJoined, normal_down, List.nil_append]

/-- A plain path exists exactly when `stat` finds it. -/
theorem exists_iff_stat {kernel : Kernel Fs} {files : Fs → Files}
    (onTree : OnTree kernel files) {path : CString} (plain : PlainPath path)
    (fs : Fs) : Exists (files fs) path ↔
      ∃ st, (kernel (.stat path) fs).1 = .ok st := by
  obtain ⟨parts, plain, isJoined⟩ := plain
  have nonempty : path.bytes ≠ [] := by
    rw [isJoined]
    cases parts <;> exact List.cons_ne_nil _ _
  have resolve : resolvePath (files fs) path = (files fs).resolve (pathOf path) := by
    rw [resolvePath, if_neg nonempty]
  constructor
  · intro found
    rw [Exists, locationOf_plain plain isJoined] at found
    have walked := DirTree.walk_down found
    have resolved : resolvePath (files fs) path = .ok parts := by
      rw [resolve, DirTree.resolve, steps_of_plain plain isJoined]
      cases parts with
      | nil =>
          have atRoot : (pathOf path).slash = true := by
            rw [pathOf, isJoined]
            rfl
          rw [atRoot]
          simp [DirTree.walk, DirTree.isDirAt_root]
      | cons first rest =>
          have noSlash : (pathOf path).slash = false := by
            rw [pathOf, isJoined]
            exact decide_eq_false (getLast?_joined_ne_slash
              (List.cons_ne_nil first rest)
              fun part member => (plain part member).1)
          rw [noSlash]
          simpa using walked
    exact onTree.stat_resolved path fs parts resolved
  · rintro ⟨st, succeeded⟩
    obtain ⟨place, resolved, _⟩ := onTree.stat_ok path fs st succeeded
    rw [resolve] at resolved
    have found := DirTree.resolve_node_ne_none resolved
    rw [DirTree.resolve_eq_normal resolved] at found
    exact found

/-- A plain path within another one is longer. -/
theorem length_lt_of_within {path name : CString} (plainPath : PlainPath path)
    (plainName : PlainPath name) (notRoot : locationOf path ≠ [])
    (within : Within path name) (different : name ≠ path) :
    path.bytes.length < name.bytes.length := by
  obtain ⟨parts, plain, isJoined⟩ := plainPath
  obtain ⟨nameParts, namePlain, nameJoined⟩ := plainName
  rw [Within, locationOf_plain plain isJoined,
    locationOf_plain namePlain nameJoined] at within
  rw [locationOf_plain plain isJoined] at notRoot
  obtain ⟨rest, rfl⟩ := within
  have below : rest ≠ [] := by
    rintro rfl
    rw [List.append_nil, ← isJoined] at nameJoined
    exact different (PathWalk.cstring_ext nameJoined)
  obtain ⟨first, more, rfl⟩ := List.exists_cons_of_ne_nil below
  rw [isJoined, nameJoined, joined_eq_flatMap notRoot,
    joined_eq_flatMap (List.append_ne_nil_of_left_ne_nil notRoot _)]
  simp only [List.flatMap_append, List.flatMap_cons, List.length_append,
    List.length_cons]
  omega

/-! ## What the database becomes -/

theorem DirectoryRenamed.moved {kernel : Kernel Fs} {files : Fs → Files}
    {message : Bytes} {leftover : Leftover} {before after : Server Fs}
    {oldPath newPath : CString}
    (renamed : DirectoryRenamed kernel files message leftover before after
      oldPath newPath) :
    ∃ handle newHandle, Moved ⟨kernel, leftover⟩ (renameArgs message) before after
      handle oldPath newPath newHandle true := by
  obtain ⟨type, requested, ending⟩ := serve_ending renamed.served
  cases renamed.requested.symm.trans requested
  obtain ⟨replyHandle, replied⟩ := renamed.replied
  obtain ⟨fh, fhRead, stored⟩ := renamed.old
  cases ending with
  | refused refused =>
      obtain ⟨error, sent⟩ := refused.reply
      rw [replied] at sent
      cases sent
  | answered leaves answered => cases leaves
  | moved handle path target newHandle removed moved =>
      cases fhRead.symm.trans moved.fhRead
      cases stored.symm.trans moved.stored
      cases renamed.new.symm.trans moved.filenameRead
      have sent := moved.sent
      cases removed with
      | false =>
          rw [replied] at sent
          cases sent
      | true => exact ⟨fh, newHandle, moved⟩

/-- A name that is stored once the new one is. -/
theorem stored_of_inserted {server : Server Fs} {middle : Db}
    {draws : List Fhandle} {beyond newHandle : Fhandle} {newPath name : CString}
    (inserted : nameFindOrInsert beyond server.db server.draws newPath =
      some (newHandle, middle, draws)) (stored : Stored middle name) :
    Stored server.db name ∨ name = newPath ∨ Misread server newPath name := by
  obtain ⟨handle, known⟩ := stored
  rcases nameFindOrInsert_eq_some inserted with
    ⟨_, _, _, rfl, _⟩ | ⟨unknown, generated, rfl⟩
  · exact Or.inl ⟨handle, known⟩
  · rw [getFile_paired] at known
    split at known
    · rename_i isHandle
      exact Or.inr (Or.inr ⟨unknown, ⟨handle, isHandle.symm⟩, newHandle, draws,
        generated, (Option.some.inj known).symm⟩)
    · split at known
      · exact Or.inr (Or.inl (key_injective (Option.some.inj known)).symm)
      · exact Or.inl ⟨handle, known⟩

/-- What is left of the names when the old one has gone. -/
theorem stored_of_unpaired {db : Db} {oldPath name : CString} {handle : Fhandle}
    (twoSided : TwoSided db) (pair : db oldPath.key = some (handleBytes handle))
    (stored : Stored (unpaired db oldPath handle) name) :
    Stored db name ∧ name ≠ oldPath := by
  obtain ⟨other, known⟩ := stored
  rw [getFile_unpaired] at known
  split at known
  · cases known
  · rename_i different
    split at known
    · cases known
    · refine ⟨⟨other, known⟩, ?_⟩
      rintro rfl
      have back := twoSided.mirrored _ _ known
      rw [pair] at back
      exact different (handleBytes_injective (Option.some.inj back)).symm

/-- A handle that is not the old path's bytes keeps its name. -/
theorem stored_unpaired {db : Db} {oldPath name : CString}
    {handle other : Fhandle} (twoSided : TwoSided db)
    (pair : db oldPath.key = some (handleBytes handle))
    (known : getFile db other = some name.key) (different : name ≠ oldPath)
    (apart : handleBytes other ≠ oldPath.key) :
    Stored (unpaired db oldPath handle) name := by
  refine ⟨other, ?_⟩
  rw [getFile_unpaired, if_neg, if_neg apart]
  · exact known
  · rintro rfl
    have back := twoSided.mirrored _ _ pair
    rw [getFile, find, back] at known
    exact different (key_injective (Option.some.inj known)).symm

/-- The handle drawn for a new name is not that of a name known before. -/
theorem Misread.unused {server : Server Fs} {filename name : CString}
    (misread : Misread server filename name) : server.db name.key = none := by
  obtain ⟨draw, rest, generated, isHandle⟩ := misread.drawn
  rw [isHandle]
  exact (generateNewFhandle_eq_some generated).1

/-- The database between the two calls, and the handle of the old path. -/
structure Between (before after : Server Fs) (beyond : Fhandle)
    (oldPath newPath : CString) (newHandle : Fhandle) (middle : Db)
    (handle : Fhandle) : Prop where
  inserted : nameFindOrInsert beyond before.db before.draws newPath =
    some (newHandle, middle, after.draws)
  twoSided : TwoSided middle
  pair : middle oldPath.key = some (handleBytes handle)
  removed : after.db = unpaired middle oldPath handle
  oldStored : Stored before.db oldPath

theorem between_of_moved {env : Env Fs} {args : RenameArgs}
    {before after : Server Fs} {fh newHandle : Fhandle}
    {oldPath newPath : CString} (twoSided : TwoSided before.db)
    (moved : Moved env args before after fh oldPath newPath newHandle true)
    (different : oldPath ≠ newPath) :
    ∃ middle handle, Between before after env.leftover.word oldPath newPath
      newHandle middle handle := by
  obtain ⟨middle, inserted, removal⟩ := moved.db
  have adds := addsAtMostOne_of_called inserted
  have middleTwoSided := twoSided.adds adds
  rcases middleTwoSided.nameRemove_returned (storedPath_of_adds adds moved.stored)
    removal with ⟨impossible, _⟩ | ⟨_, handle, pair, removed⟩
  · cases impossible
  · refine ⟨middle, handle, inserted, middleTwoSided, pair, removed, ?_⟩
    have oldStored : Stored middle oldPath :=
      ⟨handle, middleTwoSided.mirrored _ _ pair⟩
    rcases stored_of_inserted inserted oldStored with stored | same | misread
    · exact stored
    · exact absurd same different
    · obtain ⟨draw, _, _, isHandle⟩ := misread.drawn
      have seven : oldPath.bytes.length = 7 := by
        have lengths := congrArg List.length isHandle
        simp only [key_length, handleBytes_length] at lengths
        omega
      have known := twoSided.map_key_of_seven moved.stored seven
      rw [misread.unused] at known
      cases known

/-! ## What the files become -/

theorem DirectoryRenamed.succeeded {kernel : Kernel Fs} {files : Fs → Files}
    (onTree : OnTree kernel files) {message : Bytes} {leftover : Leftover}
    {before after : Server Fs} {oldPath newPath : CString}
    (renamed : DirectoryRenamed kernel files message leftover before after
      oldPath newPath) :
    filesAfter (files before.fs) (.rename oldPath newPath) =
      some (files after.fs) := by
  obtain ⟨_, _, moved⟩ := renamed.moved
  exact onTree.of_ok moved.moved

theorem DirectoryRenamed.elsewhere {kernel : Kernel Fs} {files : Fs → Files}
    {message : Bytes} {leftover : Leftover} {before after : Server Fs}
    {oldPath newPath : CString}
    (renamed : DirectoryRenamed kernel files message leftover before after
      oldPath newPath) : locationOf oldPath ≠ locationOf newPath := by
  intro same
  apply renamed.aside
  rw [Within, same]

theorem DirectoryRenamed.movedTo {kernel : Kernel Fs} {files : Fs → Files}
    (onTree : OnTree kernel files) {message : Bytes} {leftover : Leftover}
    {before after : Server Fs} {oldPath newPath : CString}
    (renamed : DirectoryRenamed kernel files message leftover before after
      oldPath newPath) :
    DirTree.MovedTo (files before.fs) (files after.fs) (locationOf oldPath)
      (locationOf newPath) := by
  rcases (rename_of_filesAfter (renamed.succeeded onTree)).2.2 with
    ⟨same, _⟩ | movedTo
  · exact absurd same renamed.elsewhere
  · exact movedTo

/-- The root is not renamed. -/
theorem DirectoryRenamed.notRoot {kernel : Kernel Fs} {files : Fs → Files}
    {message : Bytes} {leftover : Leftover} {before after : Server Fs}
    {oldPath newPath : CString}
    (renamed : DirectoryRenamed kernel files message leftover before after
      oldPath newPath) : locationOf oldPath ≠ [] := by
  intro atRoot
  apply renamed.aside
  rw [Within, atRoot]
  exact List.nil_prefix

/-- What is not within the old path stays where it is. -/
theorem DirectoryRenamed.exists_after {kernel : Kernel Fs} {files : Fs → Files}
    (onTree : OnTree kernel files) {message : Bytes} {leftover : Leftover}
    {before after : Server Fs} {oldPath newPath name : CString}
    (renamed : DirectoryRenamed kernel files message leftover before after
      oldPath newPath) (there : Exists (files before.fs) name)
    (outside : ¬ Within oldPath name) : Exists (files after.fs) name := by
  have movedTo := renamed.movedTo onTree
  rw [Exists, movedTo.node]
  by_cases inTarget : locationOf newPath <+: locationOf name
  · obtain ⟨rest, below⟩ := inTarget
    rw [← below, DirTree.movedNode_below]
    have leaf := DirTree.isLeaf_iff.mp
      (rename_target_isLeaf (renamed.succeeded onTree) renamed.elsewhere)
    -- nothing was below the new path, so the name is the new path's
    have atTarget : rest = [] := by
      by_contra nonempty
      apply there
      rw [← below]
      exact DirTree.node_below_isLeaf leaf nonempty
    rw [atTarget, List.append_nil]
    exact movedTo.taken
  · rw [DirTree.movedNode_other _ inTarget outside]
    exact there

theorem DirectoryRenamed.exists_new {kernel : Kernel Fs} {files : Fs → Files}
    (onTree : OnTree kernel files) {message : Bytes} {leftover : Leftover}
    {before after : Server Fs} {oldPath newPath : CString}
    (renamed : DirectoryRenamed kernel files message leftover before after
      oldPath newPath) : Exists (files after.fs) newPath := by
  have movedTo := renamed.movedTo onTree
  have here := DirTree.movedNode_below (files before.fs) (locationOf oldPath)
    (locationOf newPath) []
  rw [List.append_nil, List.append_nil] at here
  rw [Exists, movedTo.node, here]
  exact movedTo.taken

/-! ## When the database keeps up -/

/-- No handle names the old path or a path below it, and every name the database
holds exists. -/
def KeepsUp (files : Files) (db : Db) (oldPath : CString) : Prop :=
  ∀ name, Stored db name → ¬ Within oldPath name ∧ Exists files name

theorem DirectoryRenamed.keepsUp_of_alone {kernel : Kernel Fs}
    {files : Fs → Files} (onTree : OnTree kernel files) {message : Bytes}
    {leftover : Leftover} {before after : Server Fs} {oldPath newPath : CString}
    (renamed : DirectoryRenamed kernel files message leftover before after
      oldPath newPath) {newHandle handle : Fhandle} {middle : Db}
    (between : Between before after leftover.word oldPath newPath newHandle middle
      handle)
    (there : ∀ name, Stored before.db name → Exists (files before.fs) name)
    (alone : Alone (files before.fs) before oldPath newPath) :
    KeepsUp (files after.fs) after.db oldPath := by
  intro name stored
  rw [between.removed] at stored
  obtain ⟨inMiddle, notOld⟩ :=
    stored_of_unpaired between.twoSided between.pair stored
  rcases stored_of_inserted between.inserted inMiddle with
    wasStored | rfl | misread
  · have outside : ¬ Within oldPath name := by
      intro within
      exact notOld (alone.only name wasStored within)
    exact ⟨outside, renamed.exists_after onTree (there name wasStored) outside⟩
  · exact ⟨renamed.aside, renamed.exists_new onTree⟩
  · obtain ⟨outside, stays⟩ := alone.misread name misread
    refine ⟨outside, ?_⟩
    rw [Exists, (renamed.movedTo onTree).node]
    exact stays

theorem DirectoryRenamed.alone_of_keepsUp {kernel : Kernel Fs}
    {files : Fs → Files} (onTree : OnTree kernel files) {message : Bytes}
    {leftover : Leftover} {before after : Server Fs} {oldPath newPath : CString}
    (renamed : DirectoryRenamed kernel files message leftover before after
      oldPath newPath) {newHandle handle : Fhandle} {middle : Db}
    (between : Between before after leftover.word oldPath newPath newHandle middle
      handle) (twoSided : TwoSided before.db)
    (plain : ∀ name, Stored before.db name → PlainPath name)
    (keepsUp : KeepsUp (files after.fs) after.db oldPath) :
    Alone (files before.fs) before oldPath newPath := by
  have adds := addsAtMostOne_of_called between.inserted
  constructor
  · intro name stored within
    by_contra different
    obtain ⟨other, known⟩ := stored
    have longer := length_lt_of_within (plain oldPath between.oldStored)
      (plain name ⟨other, known⟩) renamed.notRoot within different
    have inMiddle := adds.getFile_eq known
    -- were the handle spelled by the old path, the two names would be as long
    have apart : handleBytes other ≠ oldPath.key := by
      intro same
      rw [getFile, find, same, between.pair] at inMiddle
      have oldLength := congrArg List.length same
      have nameLength := congrArg List.length (Option.some.inj inMiddle)
      simp only [key_length, handleBytes_length] at oldLength nameLength
      omega
    have stillStored := stored_unpaired between.twoSided between.pair inMiddle
      different apart
    rw [← between.removed] at stillStored
    exact (keepsUp name stillStored).1 within
  · intro name misread
    obtain ⟨spelled, isHandle⟩ := misread.handle
    obtain ⟨draw, rest, generated, isDraw⟩ := misread.drawn
    have known : getFile middle spelled = some name.key := by
      have written : middle = paired before.db newPath draw := by
        have inserted := between.inserted
        rw [nameFindOrInsert_of_unknown misread.unknown generated] at inserted
        cases inserted
        rfl
      rw [written, getFile_paired, if_pos isHandle.symm, isDraw]
    have notOld : name ≠ oldPath := by
      rintro rfl
      obtain ⟨other, oldKnown⟩ := between.oldStored
      have back := twoSided.mirrored _ _ oldKnown
      rw [misread.unused] at back
      cases back
    have apart : handleBytes spelled ≠ oldPath.key := by
      intro same
      apply renamed.elsewhere
      rw [key_injective (same.symm.trans isHandle.symm)]
    have stored := stored_unpaired between.twoSided between.pair known notOld apart
    rw [← between.removed] at stored
    obtain ⟨outside, stays⟩ := keepsUp name stored
    rw [Exists, (renamed.movedTo onTree).node] at stays
    exact ⟨outside, stays⟩

/-- A directory is renamed with every stored name still existing afterwards
exactly when no other stored name was within it. -/
theorem keepsUp_iff_alone {kernel : Kernel Fs} {files : Fs → Files}
    (onTree : OnTree kernel files) {message : Bytes} {leftover : Leftover}
    {before after : Server Fs} {oldPath newPath : CString}
    (reachable : Reachable kernel before)
    (plain : ∀ name, Stored before.db name → PlainPath name)
    (there : ∀ name, Stored before.db name → Exists (files before.fs) name)
    (renamed : DirectoryRenamed kernel files message leftover before after
      oldPath newPath) :
    KeepsUp (files after.fs) after.db oldPath ↔
      Alone (files before.fs) before oldPath newPath := by
  have twoSided := twoSided_of_reachable reachable
  have different : oldPath ≠ newPath := by
    rintro rfl
    exact renamed.elsewhere rfl
  obtain ⟨_, newHandle, moved⟩ := renamed.moved
  obtain ⟨middle, handle, between⟩ := between_of_moved twoSided moved different
  constructor
  · intro keepsUp
    exact renamed.alone_of_keepsUp onTree between twoSided plain keepsUp
  · intro alone
    exact renamed.keepsUp_of_alone onTree between there alone

/-! A directory is made and renamed, at first with nothing in it. -/

theorem stored_of_paired {db : Db} {filename name : CString} {handle : Fhandle}
    (notSeven : filename.bytes.length ≠ 7)
    (stored : Stored (paired db filename handle) name) :
    name = filename ∨ Stored db name := by
  obtain ⟨other, known⟩ := stored
  rw [getFile_paired, if_neg (key_ne_handleBytes notSeven other).symm] at known
  split at known
  · exact Or.inl (key_injective (Option.some.inj known)).symm
  · exact Or.inr ⟨other, known⟩

theorem pathD_noNul : (0 : UInt8) ∉ [(47 : UInt8), 100] := by decide

theorem pathDF_noNul : (0 : UInt8) ∉ [(47 : UInt8), 100, 47, 102] := by decide

theorem pathE_noNul : (0 : UInt8) ∉ [(47 : UInt8), 101] := by decide

def pathD : CString := ⟨[47, 100], pathD_noNul⟩

def pathDF : CString := ⟨[47, 100, 47, 102], pathDF_noNul⟩

def pathE : CString := ⟨[47, 101], pathE_noNul⟩

def quietMemory : Leftover := ⟨0, Fattr.zero, fun _ _ => 0, 0x800000⟩

def makeD : Event Files :=
  .request (Client.mkdirMessage pathD (fun _ => 0) 0) quietMemory

def makeDF : Event Files :=
  .request (Client.createMessage pathDF (fun _ => 0) 0) quietMemory

def renameDToE : Bytes := Client.renameMessage 7 pathE (fun _ => 0)

/-- The root with a directory `/d`. -/
def onlyD : Files := rootWith [100] true

/-- `/d` has been made with handle 7. -/
def madeD : Server Files :=
  ⟨onlyD, paired emptyDb pathD 7, [9, 11],
    [(.mkdir 7, snfsRepSize sizeofMkdirRep)], []⟩

set_option maxRecDepth 4000 in
theorem makeD_step :
    step treeKernel (started DirTree.onlyRoot [7, 9, 11]) makeD = some madeD := rfl

theorem madeD_reachable : Reachable treeKernel madeD :=
  ⟨DirTree.onlyRoot, [7, 9, 11], [makeD],
    (runLabels_cons_eq_some _ _ _ _ _).mpr ⟨madeD, makeD_step, rfl⟩⟩

theorem madeD_stored {name : CString} (stored : Stored madeD.db name) :
    name = pathD := by
  rcases stored_of_paired (by decide) stored with same | ⟨_, none⟩
  · exact same
  · cases none

theorem plainPath_pathD : PlainPath pathD := by
  refine ⟨[[100]], ?_, rfl⟩
  simp [Piece, slash]

theorem renameDToE_read :
    (renameArgs renameDToE).fh = .ok 7 ∧
      (renameArgs renameDToE).filename = .ok pathE := by
  have read := Client.handle_and_name_read .rename 7 pathE (fun _ => 0)
  rw [Client.sent_of_short (by decide)] at read
  simp only [renameArgs, renameDToE, Client.renameMessage]
  exact read

set_option maxRecDepth 4000 in
theorem renameDToE_madeD : ∃ after,
    DirectoryRenamed treeKernel id renameDToE quietMemory madeD after pathD
      pathE := by
  refine ⟨_, rfl, rfl, ⟨7, renameDToE_read.1, rfl⟩, renameDToE_read.2, ⟨_, rfl⟩,
    rfl, ?_⟩
  exact (by decide : ¬ Within pathD pathE)

/-- The key of a short name is no handle's bytes. -/
theorem not_misread_of_length {server : Server Fs} {filename name : CString}
    (notSeven : filename.bytes.length ≠ 7) : ¬ Misread server filename name := by
  intro misread
  obtain ⟨handle, same⟩ := misread.handle
  exact key_ne_handleBytes notSeven handle same

theorem keepsUp_iff_alone_madeD : ∃ after,
    DirectoryRenamed treeKernel id renameDToE quietMemory madeD after pathD
        pathE ∧
      KeepsUp after.fs after.db pathD := by
  obtain ⟨after, renamed⟩ := renameDToE_madeD
  refine ⟨after, renamed,
    (keepsUp_iff_alone treeKernel_onTree madeD_reachable ?_ ?_ renamed).mpr ?_⟩
  · intro name stored
    rw [madeD_stored stored]
    exact plainPath_pathD
  · intro name stored
    rw [madeD_stored stored]
    exact Option.some_ne_none _
  · refine ⟨fun name stored _ => madeD_stored stored, ?_⟩
    intro name misread
    exact absurd misread (not_misread_of_length (by decide))

/-! A file is made in the directory before that. -/

/-- `/d/f` has been made with handle 9. -/
def madeDF : Server Files :=
  ⟨onlyD.put ⟨[[100]], [102], rfl⟩ false rfl, paired madeD.db pathDF 9, [11],
    (.create 9, snfsRepSize sizeofCreateRep) :: madeD.sent, [.file 3]⟩

set_option maxRecDepth 4000 in
theorem makeDF_step : step treeKernel madeD makeDF = some madeDF := rfl

set_option maxRecDepth 4000 in
/-- The handle of `/d/f` is left without a file. -/
theorem renamed_with_file_inside : ∃ after,
    Reachable treeKernel madeDF ∧
      (∀ name, Stored madeDF.db name → PlainPath name ∧ Exists madeDF.fs name) ∧
      DirectoryRenamed treeKernel id renameDToE quietMemory madeDF after pathD
        pathE ∧
      ¬ KeepsUp after.fs after.db pathD := by
  refine ⟨_, ⟨DirTree.onlyRoot, [7, 9, 11], [makeD, makeDF], ?_⟩, ?_, ⟨rfl, rfl,
    ⟨7, renameDToE_read.1, rfl⟩, renameDToE_read.2, ⟨_, rfl⟩, rfl, ?_⟩, ?_⟩
  · have second : runLabels (step treeKernel) madeD [makeDF] = some madeDF :=
      (runLabels_cons_eq_some _ _ _ _ _).mpr ⟨madeDF, makeDF_step, rfl⟩
    exact (runLabels_cons_eq_some _ _ _ _ _).mpr ⟨madeD, makeD_step, second⟩
  · intro name stored
    rcases stored_of_paired (by decide) stored with rfl | stored
    · refine ⟨⟨[[100], [102]], ?_, rfl⟩, Option.some_ne_none _⟩
      simp [Piece, slash]
    · rw [madeD_stored stored]
      exact ⟨plainPath_pathD, Option.some_ne_none _⟩
  · exact (by decide : ¬ Within pathD pathE)
  · intro keepsUp
    exact (keepsUp pathDF ⟨9, rfl⟩).1 (by decide)

end ChlorosSnfs.Snfs.SubtreeRename
