import ChlorosSnfs.Library.FileTree
import ChlorosSnfs.Library.Paths
import ChlorosSnfs.Snfs.Syscalls

/-!
# A kernel that serves a tree

What the server relies on when the served files are a tree of inodes without
links: `stat` follows a path, a call that succeeds has changed the tree as POSIX
says, and a call that fails has not changed it.  A kernel may refuse any change
for reasons of its own.  The server has made the served directory its root and
its working directory, so a path starts at the root with or without a slash.
-/

set_option autoImplicit false

namespace ChlorosSnfs.Snfs.TreeKernel

open ChlorosSnfs.Library.FileTree
open ChlorosSnfs.Library.Paths
open ChlorosSnfs.Snfs.Fhandledb
open ChlorosSnfs.Snfs.Syscalls

abbrev Files := DirTree Bytes

/-- `.` and `..` are no names. -/
def toStep (piece : Bytes) : Step Bytes :=
  if piece = [46] then .here
  else if piece = [46, 46] then .up
  else .down piece

def stepsOf (path : Bytes) : List (Step Bytes) := (pieces path).map toStep

def pathOf (path : CString) : DirPath Bytes :=
  ⟨stepsOf path.bytes, path.bytes.getLast? = some slash⟩

/-- Where a path leads; the empty string leads nowhere. -/
def resolvePath (files : Files) (path : CString) :
    Except WalkError (List Bytes) :=
  if path.bytes = [] then .error .missing else files.resolve (pathOf path)

/-- The place a path names, whether or not there is anything. -/
def locationOf (path : CString) : List Bytes := normal [] (pathOf path).steps

theorem mem_pieces_of_mem_locationOf {path : CString} {part : Bytes}
    (member : part ∈ locationOf path) : part ∈ pieces path.bytes := by
  rcases mem_normal member with atRoot | down
  · cases atRoot
  · obtain ⟨piece, inPath, same⟩ := List.mem_map.mp down
    rw [toStep] at same
    split at same
    · cases same
    · split at same
      · cases same
      · cases same
        exact inPath

/-- What a successful call makes of the tree. -/
def filesAfter (files : Files) : Call → Option Files
  | .creat path _ => if path.bytes = [] then none else files.creat (pathOf path)
  | .mkdir path _ => if path.bytes = [] then none else files.mkdir (pathOf path)
  | .unlink path => if path.bytes = [] then none else files.unlink (pathOf path)
  | .rmdir path => if path.bytes = [] then none else files.rmdir (pathOf path)
  | .rename oldPath newPath =>
      if oldPath.bytes = [] ∨ newPath.bytes = [] then none
      else files.rename (pathOf oldPath) (pathOf newPath)
  | _ => some files

/-- The kernel's states show a tree, and its calls work on it. -/
structure OnTree {Fs : Type} (kernel : Kernel Fs) (files : Fs → Files) :
    Prop where
  stat_ok : ∀ path fs st, (kernel (.stat path) fs).1 = .ok st →
    ∃ place, resolvePath (files fs) path = .ok place ∧
      sIsdir st.mode = (files fs).isDirAt place
  stat_resolved : ∀ path fs place, resolvePath (files fs) path = .ok place →
    ∃ st, (kernel (.stat path) fs).1 = .ok st
  succeeded : ∀ call fs result, (kernel call fs).1 = .ok result →
    filesAfter (files fs) call = some (files (kernel call fs).2)
  failed : ∀ call fs errno, (kernel call fs).1 = .error errno →
    files (kernel call fs).2 = files fs

theorem filesAfter_keepsNames (files : Files) {call : Call}
    (keepsNames : call.changesNames = false) :
    filesAfter files call = some files := by
  cases call <;> first | rfl | cases keepsNames

theorem OnTree.undisturbed {Fs : Type} {kernel : Kernel Fs} {files : Fs → Files}
    (onTree : OnTree kernel files) : Undisturbed kernel files where
  readOnly := by
    intro call fs looks
    cases outcome : (kernel call fs).1 with
    | error errno => exact onTree.failed call fs errno outcome
    | ok result =>
        have after := onTree.succeeded call fs result outcome
        rw [filesAfter_keepsNames _ (keepsNames_of_readOnly looks)] at after
        exact (Option.some.inj after).symm
  failed := onTree.failed

theorem OnTree.of_ok {Fs : Type} {kernel : Kernel Fs} {files : Fs → Files}
    (onTree : OnTree kernel files) {call : Call} {fs after : Fs}
    {result : Result call} (called : kernel call fs = (.ok result, after)) :
    filesAfter (files fs) call = some (files after) := by
  have succeeded := onTree.succeeded call fs result (by rw [called])
  rw [called] at succeeded
  exact succeeded

/-- Calls that change no name leave the tree alone. -/
theorem OnTree.files_eq {Fs : Type} {kernel : Kernel Fs} {files : Fs → Files}
    (onTree : OnTree kernel files) {fs after : Fs}
    (inPlace : InPlace kernel fs after) : files after = files fs := by
  induction inPlace with
  | quiet quiet => exact quiet.served_eq onTree.undisturbed
  | @call middle before call keepsNames inductionHypothesis =>
      rw [← inductionHypothesis]
      cases outcome : (kernel call middle).1 with
      | error errno => exact onTree.failed call middle errno outcome
      | ok result =>
          have succeeded := onTree.succeeded call middle result outcome
          rw [filesAfter_keepsNames _ keepsNames] at succeeded
          exact (Option.some.inj succeeded).symm

/-! ## What each call does at the places it names -/

theorem creat_of_filesAfter {files next : Files} {path : CString} {mode : UInt32}
    (succeeded : filesAfter files (.creat path mode) = some next) :
    (next = files ∧ ∃ ino, files.node (locationOf path) = some ⟨ino, false⟩) ∨
      DirTree.Added files next (locationOf path) false := by
  rw [filesAfter] at succeeded
  split at succeeded
  · cases succeeded
  · obtain ⟨_, entry, found, outcome⟩ := DirTree.creat_eq_some succeeded
    rw [(DirTree.entry_place found).1] at outcome
    exact outcome

theorem mkdir_of_filesAfter {files next : Files} {path : CString} {mode : UInt32}
    (succeeded : filesAfter files (.mkdir path mode) = some next) :
    DirTree.Added files next (locationOf path) true := by
  rw [filesAfter] at succeeded
  split at succeeded
  · cases succeeded
  · obtain ⟨entry, found, added⟩ := DirTree.mkdir_eq_some succeeded
    rw [(DirTree.entry_place found).1] at added
    exact added

theorem removed_of_filesAfter {files next : Files} {path : CString}
    {call : Call} (removes : call = .rmdir path ∨ call = .unlink path)
    (succeeded : filesAfter files call = some next) :
    DirTree.Removed files next (locationOf path) := by
  rcases removes with rfl | rfl
  · rw [filesAfter] at succeeded
    split at succeeded
    · cases succeeded
    · exact DirTree.removeKind_eq_some succeeded
  · rw [filesAfter] at succeeded
    split at succeeded
    · cases succeeded
    · exact DirTree.unlink_eq_some succeeded

theorem rename_of_filesAfter {files next : Files} {oldPath newPath : CString}
    (succeeded : filesAfter files (.rename oldPath newPath) = some next) :
    (pathOf oldPath).steps ≠ [] ∧ files.node (locationOf oldPath) ≠ none ∧
      ((locationOf oldPath = locationOf newPath ∧ next = files) ∨
        DirTree.MovedTo files next (locationOf oldPath) (locationOf newPath)) := by
  rw [filesAfter] at succeeded
  split at succeeded
  · cases succeeded
  · obtain ⟨source, target, sourceFound, targetFound, moved, here, _, outcome⟩ :=
      DirTree.rename_eq_some succeeded
    obtain ⟨sourcePlace, sourceEnds, _⟩ := DirTree.entry_place sourceFound
    rw [sourcePlace, (DirTree.entry_place targetFound).1] at outcome
    rw [sourcePlace] at here
    refine ⟨?_, ?_, outcome⟩
    · rw [sourceEnds]
      simp
    · rw [locationOf, here]
      exact Option.some_ne_none moved

theorem rename_target_isLeaf {files next : Files} {oldPath newPath : CString}
    (succeeded : filesAfter files (.rename oldPath newPath) = some next)
    (different : locationOf oldPath ≠ locationOf newPath) :
    files.isLeaf (locationOf newPath) = true := by
  rw [filesAfter] at succeeded
  split at succeeded
  · cases succeeded
  · exact DirTree.rename_target_isLeaf succeeded different

/-! ## A kernel of this kind -/

/-- A directory `drwxr-xr-x` or a file `-rw-r--r--`. -/
def statOf (node : Node) : Stat where
  mode := if node.isDir then 0x41ED else 0x81A4
  nlink := 1
  uid := 0
  gid := 0
  size := 0
  rdev := 0
  dev := 0
  ino := UInt64.ofNat node.ino
  atime := 0
  mtime := 0
  ctime := 0

theorem sIsdir_statOf (node : Node) :
    sIsdir (statOf node).mode = node.isDir := by
  obtain ⟨ino, isDir⟩ := node
  cases isDir with
  | false => exact (by decide : sIsdir 0x81A4 = false)
  | true => exact (by decide : sIsdir 0x41ED = true)

/-- `ENOENT` or `ENOTDIR`. -/
def errnoOf : WalkError → Errno
  | .missing => .enoent
  | .notDirectory => .enotdir

/-- A changing call on a tree and its result if it succeeds; `EINVAL` stands
for all reasons to fail. -/
def changing {α : Type} (result : α) (files : Files) :
    Option Files → Except Errno α × Files
  | some next => (.ok result, next)
  | none => (.error (.other 22), files)

/-- The kernel whose state is a tree of empty files. -/
def treeKernel : Kernel Files
  | .stat path, files =>
      match resolvePath files path with
      | .error reason => (.error (errnoOf reason), files)
      | .ok place =>
          (.ok (statOf ((files.node place).getD ⟨0, false⟩)), files)
  | .creat path mode, files =>
      changing 3 files (filesAfter files (.creat path mode))
  | .mkdir path mode, files =>
      changing () files (filesAfter files (.mkdir path mode))
  | .unlink path, files => changing () files (filesAfter files (.unlink path))
  | .rmdir path, files => changing () files (filesAfter files (.rmdir path))
  | .rename oldPath newPath, files =>
      changing () files (filesAfter files (.rename oldPath newPath))
  | .opendir _, files => (.ok 4, files)
  | .readdir _, files => (.ok none, files)
  | .openFile _ _, files => (.ok 3, files)
  | .lseek _ offset, files => (.ok offset, files)
  | .read _ _, files => (.ok [], files)
  | .write _ data, files => (.ok data.length, files)
  | .close _, files => (.ok (), files)
  | .chmod _ _, files => (.ok (), files)
  | .chown _ _ _, files => (.ok (), files)
  | .truncate _ _, files => (.ok (), files)
  | .utimes _ _ _, files => (.ok (), files)
  | .utime _ _ _, files => (.ok (), files)

theorem changing_ok {α : Type} {result given : α} {files : Files}
    {after : Option Files} (succeeded : (changing result files after).1 = .ok given) :
    after = some (changing result files after).2 := by
  cases after with
  | none => cases succeeded
  | some next => rfl

theorem changing_error {α : Type} {result : α} {files : Files}
    {after : Option Files} {errno : Errno}
    (failed : (changing result files after).1 = .error errno) :
    (changing result files after).2 = files := by
  cases after with
  | none => rfl
  | some next => cases failed

theorem treeKernel_stat_snd (path : CString) (files : Files) :
    (treeKernel (.stat path) files).2 = files := by
  rw [treeKernel]
  cases resolvePath files path <;> rfl

theorem resolvePath_node_ne_none {files : Files} {path : CString}
    {place : List Bytes} (resolved : resolvePath files path = .ok place) :
    files.node place ≠ none := by
  rw [resolvePath] at resolved
  split at resolved
  · cases resolved
  · exact DirTree.resolve_node_ne_none resolved

theorem treeKernel_onTree : OnTree treeKernel id where
  stat_ok := by
    intro path files st succeeded
    rw [treeKernel] at succeeded
    cases resolved : resolvePath files path with
    | error reason =>
        rw [resolved] at succeeded
        cases succeeded
    | ok place =>
        rw [resolved] at succeeded
        refine ⟨place, resolved, ?_⟩
        obtain ⟨node, here⟩ :=
          Option.ne_none_iff_exists'.mp (resolvePath_node_ne_none resolved)
        have shown : statOf node = st := by
          simpa [here] using succeeded
        rw [← shown, sIsdir_statOf, id, DirTree.isDirAt, here]
        rfl
  stat_resolved := by
    intro path files place resolved
    rw [id] at resolved
    rw [treeKernel, resolved]
    exact ⟨_, rfl⟩
  succeeded := by
    intro call files result succeeded
    cases call with
    | stat path => rw [treeKernel_stat_snd]; rfl
    | creat path mode => exact changing_ok succeeded
    | mkdir path mode => exact changing_ok succeeded
    | unlink path => exact changing_ok succeeded
    | rmdir path => exact changing_ok succeeded
    | rename oldPath newPath => exact changing_ok succeeded
    | _ => rfl
  failed := by
    intro call files errno failed
    cases call with
    | stat path => exact treeKernel_stat_snd path files
    | creat path mode => exact changing_error failed
    | mkdir path mode => exact changing_error failed
    | unlink path => exact changing_error failed
    | rmdir path => exact changing_error failed
    | rename oldPath newPath => exact changing_error failed
    | _ => rfl

/-- The root with one entry in it. -/
def rootWith (name : Bytes) (isDir : Bool) : Files :=
  DirTree.onlyRoot.put ⟨[], name, rfl⟩ isDir rfl

/-- The root with a file `/a` in it. -/
def onlyFileA : Files := DirTree.onlyRoot.put ⟨[], [97], rfl⟩ false rfl

end ChlorosSnfs.Snfs.TreeKernel
