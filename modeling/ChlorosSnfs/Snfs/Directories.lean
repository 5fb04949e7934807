import ChlorosSnfs.Snfs.HandlerEffects
import Mathlib.Data.List.Forall2

/-!
# Directories a server lists

What POSIX says of `opendir` and `readdir` on a directory that nobody changes.
The loop of `handle_readdir` gives one entry for each entry of the directory, in
the order of the stream, until there is no more room.
-/

set_option autoImplicit false

namespace ChlorosSnfs.Snfs.Directories

open ChlorosSnfs.Snfs.Fhandledb
open ChlorosSnfs.Snfs.Messages
open ChlorosSnfs.Snfs.Syscalls
open ChlorosSnfs.Snfs.Handlers
open ChlorosSnfs.Snfs.HandlerEffects

variable {Fs : Type}

/-- What the kernel's states show: the entries of the directory a path leads to,
and those a stream has still to give. -/
structure DirView (Fs : Type) where
  entries : Fs → CString → Option (List Dirent)
  remaining : Fs → Nat → Option (List Dirent)

/-- The calls of READDIR where they succeed. -/
structure ListsEntries (kernel : Kernel Fs) (view : DirView Fs) : Prop where
  undisturbed : Undisturbed kernel view.entries
  opened : ∀ path fs entries dir after, view.entries fs path = some entries →
    kernel (.opendir path) fs = (.ok dir, after) →
      view.remaining after dir = some entries
  next : ∀ dir fs entry rest found after,
    view.remaining fs dir = some (entry :: rest) →
      kernel (.readdir dir) fs = (.ok found, after) →
        found = some entry ∧ view.remaining after dir = some rest
  finished : ∀ dir fs found after, view.remaining fs dir = some [] →
    kernel (.readdir dir) fs = (.ok found, after) → found = none

/-- The entry of a reply that was made of an entry of the directory. -/
def Shows (entry : Dirent) (sent : Snfsentry) : Prop :=
  ∃ following, sent = toSnfsentry entry following

theorem readEntries_shows {env : Env Fs} {view : DirView Fs}
    (lists : ListsEntries env.kernel view) {dir arraySize room index : Nat}
    {server after : Server Fs} {entries : List Dirent} {sent : List Snfsentry}
    (remaining : view.remaining server.fs dir = some entries)
    (read : readEntries env dir arraySize room index server =
      .ok (.ok sent, after)) :
    List.Forall₂ Shows (entries.take room) sent := by
  induction room generalizing index server entries sent with
  | zero =>
      rw [List.take_zero]
      rw [readEntries] at read
      split at read
      · cases read
      · cases read
        exact .nil
      · cases read
        exact .nil
  | succ room inductionHypothesis =>
      rw [readEntries] at read
      split at read
      · cases read
      · rename_i called
        cases read
        cases entries with
        | nil => exact .nil
        | cons entry rest =>
            have found := (lists.next dir _ entry rest _ _ remaining
              (kernel_of_syscall called)).1
            cases found
      · rename_i found middle called
        have step := kernel_of_syscall called
        simp only [bind_eq_ok] at read
        obtain ⟨_, _, ⟨rest, last⟩, calledRest, joined⟩ := read
        obtain ⟨sentOk, rfl⟩ := Prod.mk.inj (pure_eq_ok.mp joined)
        obtain ⟨tail, rfl, rfl⟩ := map_eq_ok.mp sentOk
        cases entries with
        | nil =>
            have ended := lists.finished dir _ _ _ remaining step
            cases ended
        | cons entry others =>
            obtain ⟨same, left⟩ := lists.next dir _ entry others _ _ remaining step
            cases same
            rw [List.take_succ_cons]
            exact .cons ⟨_, rfl⟩ (inductionHypothesis left calledRest)

/-- The stream that a READDIR opens has all of its directory to give. -/
theorem remaining_of_opened {env : Env Fs} {view : DirView Fs}
    (lists : ListsEntries env.kernel view) {args : ReaddirArgs}
    {server opened : Server Fs} {dir : Fhandle} {dirPath path : CString}
    {entries : List Dirent} {stream : Nat} {count : UInt64}
    (dirRead : args.dir = .ok dir) (stored : storedPath server.db dir = some dirPath)
    (directory : view.entries server.fs dirPath = some entries)
    (isOpen : DirectoryOpened env args server opened path stream count) :
    view.remaining opened.fs stream = some entries := by
  obtain ⟨found, isDirectory, opens⟩ := isOpen.opens
  obtain ⟨_, isFound, _⟩ := isDirectory.isFound
  obtain ⟨other, otherRead, otherStored⟩ := isFound.stored
  cases dirRead.symm.trans otherRead
  cases stored.symm.trans otherStored
  have here : view.entries found.fs dirPath = some entries := by
    rw [isDirectory.looked.quiet.served_eq lists.undisturbed]
    exact directory
  exact lists.opened dirPath found.fs entries stream opened.fs here
    (kernel_of_syscall opens)

/-- A READDIR that is not answered with an ERROR lists the directory, up to the
count. -/
theorem handleReaddir_shows {env : Env Fs} {view : DirView Fs}
    (lists : ListsEntries env.kernel view) {args : ReaddirArgs}
    {server after : Server Fs} {dir : Fhandle} {dirPath : CString}
    {entries : List Dirent} {count : UInt64} (dirRead : args.dir = .ok dir)
    (countRead : args.count = .ok count)
    (stored : storedPath server.db dir = some dirPath)
    (directory : view.entries server.fs dirPath = some entries)
    (handled : handleReaddir env args server = .ok after)
    {number : UInt64} {sent : List Snfsentry} {size : Nat}
    {rest : List (Reply × Nat)}
    (replied : after.sent = (.readdir number sent, size) :: rest) :
    List.Forall₂ Shows (entries.take count.toNat) sent ∧
      number = UInt64.ofNat sent.length ∧
      size = snfsRepSize sizeofReaddirRep + sizeofSnfsentry * sent.length := by
  cases handleReaddir_ends handled with
  | missing missing =>
      exact absurd missing.refused (not_refused_of_reply replied rfl)
  | openFails _ _ => cases replied
  | listFails _ _ => cases replied
  | @listed path stream given list opened last isOpen read =>
      cases replied
      refine ⟨?_, rfl, rfl⟩
      cases countRead.symm.trans isOpen.countRead
      exact readEntries_shows lists
        (remaining_of_opened lists dirRead stored directory isOpen) read

end ChlorosSnfs.Snfs.Directories
