import ChlorosSnfs.Library.Dialogues
import ChlorosSnfs.Snfs.FileCalls
import ChlorosSnfs.Snfs.PathWalk

/-!
# The calls with a path, request by request

Between two requests of one client the server may answer others.  So each call of
fuseops.c that has a path is written here as the dialogue of its requests; run
without interruption, the dialogues are the calls of `Client` and `FileCalls`.
-/

set_option autoImplicit false

namespace ChlorosSnfs.Snfs.PathCalls

open ChlorosSnfs.Library.Dialogues
open ChlorosSnfs.Snfs.Fhandledb
open ChlorosSnfs.Snfs.Messages
open ChlorosSnfs.Snfs.Syscalls
open ChlorosSnfs.Snfs.Handlers
open ChlorosSnfs.Snfs.HandlerEffects
open ChlorosSnfs.Snfs.Client
open ChlorosSnfs.Snfs.Wire
open ChlorosSnfs.Snfs.FileCalls
open ChlorosSnfs.Snfs.PathWalk

variable {Fs : Type}

/-- A request of a call, by its number within the call. -/
structure Query where
  number : Nat
  type : MsgType
  message : Bytes

/-- `send_request` is told a reply or nothing. -/
abbrev ClientDialogue (Result : Type) : Type := Dialogue Query (Option Reply) Result

/-- What a call gives back beside its result. -/
inductive Output where
  | nothing
  | handle (fh : Fhandle)
  | attributes (st : Stat)
  | names (filenames : List CString)

structure Returned where
  code : Int
  output : Output

/-- A call of fuseops.c that looks its path up, with its other arguments; what its
out parameters held before is among them.  `setattr` stands for `snfs_truncate`,
`snfs_chmod`, `snfs_chown` and `snfs_utimens`. -/
inductive WalkCall where
  | getattr (stbuf : Stat)
  | readdir
  | openFile (fh : Fhandle)
  | opendir (fh : Fhandle)
  | setattr (which : UInt64) (size : Int64) (mode uid gid : UInt32)
      (tv : Option (Timespec × Timespec))
  | unlink
  | rename (newpath : CString)
  | rmdir

/-- A call with a path; `snfs_create` and `snfs_mkdir` send it as a whole. -/
inductive PathCall where
  | walk (path : CString) (call : WalkCall)
  | create (path : CString) (mode : UInt32) (fh : Fhandle)
  | mkdir (path : CString) (mode : UInt32)

/-! ## Dialogues -/

/-- The loop of `lookup`. -/
def lookupFromDialogue (following : Nat → Nat → UInt8) :
    Nat → List CString → Fhandle → ClientDialogue (Option Fhandle)
  | _, [], curHandle => .done (some curHandle)
  | request, filename :: rest, curHandle =>
      .ask ⟨request, .lookup, lookupMessage curHandle filename (following request)⟩
        fun
        | some (.lookup handle _) =>
            lookupFromDialogue following (request + 1) rest handle
        | _ => .done none

/-- What a call gives back when `lookup` finds nothing. -/
def WalkCall.missed : WalkCall → Returned
  | .getattr stbuf => ⟨negEnoent, .attributes stbuf⟩
  | .readdir => ⟨negEnoent, .names []⟩
  | .openFile fh => ⟨negEnoent, .handle fh⟩
  | .opendir fh => ⟨negEnoent, .handle fh⟩
  | _ => ⟨negEnoent, .nothing⟩

/-- `snfs_unlink` and `snfs_rmdir` once they have a handle. -/
def removeDialogue (isDir : UInt8) (following : Nat → Nat → UInt8) (request : Nat)
    (handle : Fhandle) : ClientDialogue (Except Stop Returned) :=
  .ask ⟨request, .remove, Request.sent (following request) [] (.remove handle isDir)⟩
    fun
    | some _ => .done (.ok ⟨0, .nothing⟩)
    | none => .done (.ok ⟨negEnoent, .nothing⟩)

/-- The requests of a call once `lookup` has given it a handle. -/
def WalkCall.found (following : Nat → Nat → UInt8) (request : Nat)
    (handle : Fhandle) : WalkCall → ClientDialogue (Except Stop Returned)
  | .getattr stbuf =>
      .ask ⟨request, .getattr, Request.sent noGap [] (.getattr handle)⟩ fun
        | some (.getattr attributes) =>
            .done (.ok ⟨0, .attributes (fattrToStat attributes stbuf)⟩)
        | _ => .done (.ok ⟨negEio, .attributes stbuf⟩)
  | .readdir =>
      .ask ⟨request, .readdir, Request.sent noGap [] (.readdir handle 256)⟩ fun
        | some (.readdir numEntries entries) =>
            .done ((fillNames numEntries.toNat entries).map fun filenames =>
              ⟨0, .names filenames⟩)
        | _ => .done (.ok ⟨negEio, .names []⟩)
  | .openFile _ => .done (.ok ⟨0, .handle handle⟩)
  | .opendir _ => .done (.ok ⟨0, .handle handle⟩)
  | .setattr which size mode uid gid tv =>
      .ask ⟨request, .setattr, Request.sent noGap [] (.setattr handle which
        mode.toUInt64 uid.toUInt64 gid.toUInt64 size
        ((tv.map fun times => times.1.toTimeval).getD ⟨0, 0⟩)
        ((tv.map fun times => times.2.toTimeval).getD ⟨0, 0⟩))⟩ fun
        | some (.setattr repWhich) =>
            .done (.ok ⟨if repWhich = which then 0 else -1, .nothing⟩)
        | _ => .done (.ok ⟨negEio, .nothing⟩)
  | .unlink => removeDialogue 0 following request handle
  | .rename newpath =>
      .ask ⟨request, .rename, renameMessage handle newpath (following request)⟩ fun
        | some _ => .done (.ok ⟨0, .nothing⟩)
        | none => .done (.ok ⟨negEnoent, .nothing⟩)
  | .rmdir => removeDialogue 1 following request handle

/-- How a call goes on after `lookup`. -/
def WalkCall.afterLookup (call : WalkCall) (following : Nat → Nat → UInt8)
    (request : Nat) : Option Fhandle → ClientDialogue (Except Stop Returned)
  | none => .done (.ok call.missed)
  | some handle => call.found following request handle

def PathCall.dialogue (root : Fhandle) (following : Nat → Nat → UInt8) :
    PathCall → ClientDialogue (Except Stop Returned)
  | .walk path call => (lookupFromDialogue following 0 (tokens path) root).bind
      (call.afterLookup following (tokens path).length)
  | .create path mode fh =>
      if path = rootPath then .done (.ok ⟨negEnoent, .handle fh⟩)
      else .ask ⟨0, .create, createMessage path (following 0) mode⟩ fun
        | some (.create handle) => .done (.ok ⟨0, .handle handle⟩)
        | _ => .done (.ok ⟨negEnoent, .handle fh⟩)
  | .mkdir path mode =>
      if path = rootPath then .done (.ok ⟨negEnoent, .nothing⟩)
      else .ask ⟨0, .mkdir, mkdirMessage path (following 0) (mode ||| sIfdir)⟩ fun
        | some _ => .done (.ok ⟨0, .nothing⟩)
        | none => .done (.ok ⟨negEnoent, .nothing⟩)

/-! ## Without interruption -/

/-- The call with nobody else about. -/
def PathCall.alone (link : Link Fs) (root : Fhandle) (server : Server Fs) :
    PathCall → Except Stop (Returned × Server Fs)
  | .walk path (.getattr stbuf) => do
    let ((code, stbuf), server) ← snfsGetattr link root path stbuf server
    return (⟨code, .attributes stbuf⟩, server)
  | .walk path .readdir => do
    let ((code, filenames), server) ← snfsReaddir link root path server
    return (⟨code, .names filenames⟩, server)
  | .walk path (.openFile fh) => do
    let ((code, fh), server) ← snfsOpen link root path fh server
    return (⟨code, .handle fh⟩, server)
  | .walk path (.opendir fh) => do
    let ((code, fh), server) ← snfsOpendir link root path fh server
    return (⟨code, .handle fh⟩, server)
  | .walk path (.setattr which size mode uid gid tv) => do
    let (code, server) ←
      snfsSetattr link root path which size mode uid gid tv server
    return (⟨code, .nothing⟩, server)
  | .walk path .unlink => do
    let (code, server) ← snfsUnlink link root path server
    return (⟨code, .nothing⟩, server)
  | .walk path (.rename newpath) => do
    let (code, server) ← snfsRename link root path newpath server
    return (⟨code, .nothing⟩, server)
  | .walk path .rmdir => do
    let (code, server) ← snfsRmdir link root path server
    return (⟨code, .nothing⟩, server)
  | .create path mode fh => do
    let ((code, fh), server) ← snfsCreate link path mode fh server
    return (⟨code, .handle fh⟩, server)
  | .mkdir path mode => do
    let (code, server) ← snfsMkdir link path mode server
    return (⟨code, .nothing⟩, server)

/-- `send_request` for a request of a call. -/
def serveQuery (link : Link Fs) (query : Query) (server : Server Fs) :
    Except Stop (Option Reply × Server Fs) :=
  sendRequest (link.env query.number) query.type query.message server

theorem run_lookupFromDialogue (link : Link Fs) (request : Nat)
    (names : List CString) (curHandle : Fhandle) (server : Server Fs) :
    (lookupFromDialogue link.following request names curHandle).run
      (serveQuery link) server = lookupFrom link request names curHandle server := by
  induction names generalizing request curHandle server with
  | nil => rfl
  | cons name rest inductionHypothesis =>
      rw [lookupFromDialogue, Dialogue.run, lookupFrom, serveQuery]
      cases sendRequest (link.env request) .lookup
          (lookupMessage curHandle name (link.following request)) server with
      | error stop => rfl
      | ok replied =>
          obtain ⟨reply, next⟩ := replied
          cases reply with
          | none => rfl
          | some reply =>
              cases reply with
              | lookup handle attributes =>
                  exact inductionHypothesis (request + 1) handle next
              | _ => rfl

/-- A call that looks its path up and goes on. -/
theorem run_walk (link : Link Fs) (root : Fhandle) (path : CString) (call : WalkCall)
    (server : Server Fs) :
    ((PathCall.walk path call).dialogue root link.following).run (serveQuery link)
        server = (do
      let ((found, handle), server) ← lookup link root path 0 server
      (call.afterLookup link.following (tokens path).length
        (if found then some handle else none)).run (serveQuery link) server) := by
  rw [PathCall.dialogue, Dialogue.run_bind, run_lookupFromDialogue, lookup_eq]
  cases lookupFrom link 0 (tokens path) root server with
  | error stop => rfl
  | ok walked =>
      obtain ⟨given, next⟩ := walked
      cases given with
      | none => rfl
      | some handle => rfl

/-- What a call gives back, once its dialogue is done. -/
def returnedOf (outcome : Except Stop (Except Stop Returned × Server Fs)) :
    Except Stop (Returned × Server Fs) := do
  let (result, server) ← outcome
  let returned ← result
  return (returned, server)

section Found

variable (link : Link Fs) {root handle : Fhandle} {path : CString}
  {server next : Server Fs}
  (looked : lookup link root path 0 server = .ok ((true, handle), next))

include looked

theorem run_removeDialogue (isDir : UInt8) :
    returnedOf ((removeDialogue isDir link.following (tokens path).length handle).run
      (serveQuery link) next) = (do
    let (code, server) ← snfsRemove isDir link root path server
    return (⟨code, .nothing⟩, server)) := by
  rw [snfsRemove, looked]
  dsimp only [ok_bind, removeDialogue, Dialogue.run, serveQuery]
  cases sendRequest (link.env (tokens path).length) .remove
      (Request.sent (link.following (tokens path).length) []
        (.remove handle isDir)) next with
  | error stop => rfl
  | ok replied =>
      obtain ⟨reply, after⟩ := replied
      cases reply <;> rfl

theorem run_found (call : WalkCall) :
    returnedOf ((call.found link.following (tokens path).length handle).run
      (serveQuery link) next) = (PathCall.walk path call).alone link root server := by
  cases call with
  | getattr stbuf =>
      rw [PathCall.alone, snfsGetattr, looked]
      dsimp only [ok_bind, WalkCall.found, Dialogue.run, serveQuery]
      cases sendRequest (link.env (tokens path).length) .getattr
          (Request.sent noGap [] (.getattr handle)) next with
      | error stop => rfl
      | ok replied =>
          obtain ⟨reply, after⟩ := replied
          cases reply with
          | none => rfl
          | some reply => cases reply <;> rfl
  | readdir =>
      rw [PathCall.alone, snfsReaddir, looked]
      dsimp only [ok_bind, WalkCall.found, Dialogue.run, serveQuery]
      cases sendRequest (link.env (tokens path).length) .readdir
          (Request.sent noGap [] (.readdir handle 256)) next with
      | error stop => rfl
      | ok replied =>
          obtain ⟨reply, after⟩ := replied
          cases reply with
          | none => rfl
          | some reply =>
              cases reply with
              | readdir numEntries entries =>
                  dsimp only [ok_bind, Dialogue.run, returnedOf]
                  cases fillNames numEntries.toNat entries <;> rfl
              | _ => rfl
  | openFile fh =>
      rw [PathCall.alone, snfsOpen, looked]
      rfl
  | opendir fh =>
      rw [PathCall.alone, snfsOpendir, snfsOpen, looked]
      rfl
  | setattr which size mode uid gid tv =>
      rw [PathCall.alone, snfsSetattr, looked]
      dsimp only [ok_bind, WalkCall.found, Dialogue.run, serveQuery]
      cases sendRequest (link.env (tokens path).length) .setattr
          (Request.sent noGap [] (.setattr handle which mode.toUInt64
            uid.toUInt64 gid.toUInt64 size
            ((tv.map fun times => times.1.toTimeval).getD ⟨0, 0⟩)
            ((tv.map fun times => times.2.toTimeval).getD ⟨0, 0⟩))) next with
      | error stop => rfl
      | ok replied =>
          obtain ⟨reply, after⟩ := replied
          cases reply with
          | none => rfl
          | some reply => cases reply <;> rfl
  | unlink => exact run_removeDialogue link looked 0
  | rename newpath =>
      rw [PathCall.alone, snfsRename, looked]
      dsimp only [ok_bind, WalkCall.found, Dialogue.run, serveQuery]
      cases sendRequest (link.env (tokens path).length) .rename
          (renameMessage handle newpath (link.following (tokens path).length)) next with
      | error stop => rfl
      | ok replied =>
          obtain ⟨reply, after⟩ := replied
          cases reply with
          | none => rfl
          | some reply => cases reply <;> rfl
  | rmdir => exact run_removeDialogue link looked 1

end Found

/-- Run without interruption, a dialogue is the call. -/
theorem run_dialogue (link : Link Fs) (root : Fhandle) (call : PathCall)
    (server : Server Fs) :
    returnedOf ((call.dialogue root link.following).run (serveQuery link) server) =
      call.alone link root server := by
  cases call with
  | walk path call =>
      rw [run_walk]
      cases looked : lookup link root path 0 server with
      | error stop =>
          cases call <;>
            simp only [PathCall.alone, snfsGetattr, snfsReaddir, snfsOpen, snfsOpendir,
              snfsSetattr, snfsUnlink, snfsRmdir, snfsRemove, snfsRename, looked] <;>
            rfl
      | ok result =>
          obtain ⟨⟨found, handle⟩, next⟩ := result
          cases found with
          | true => exact run_found link looked call
          | false =>
              cases call <;>
                simp only [PathCall.alone, snfsGetattr, snfsReaddir, snfsOpen,
                  snfsOpendir, snfsSetattr, snfsUnlink, snfsRmdir, snfsRemove,
                  snfsRename, looked] <;>
                rfl
  | create path mode fh =>
      rw [PathCall.dialogue, PathCall.alone, snfsCreate]
      split
      · rfl
      · dsimp only [Dialogue.run, serveQuery]
        cases sendRequest (link.env 0) .create
            (createMessage path (link.following 0) mode) server with
        | error stop => rfl
        | ok replied =>
            obtain ⟨reply, next⟩ := replied
            cases reply with
            | none => rfl
            | some reply => cases reply <;> rfl
  | mkdir path mode =>
      rw [PathCall.dialogue, PathCall.alone, snfsMkdir]
      split
      · rfl
      · dsimp only [Dialogue.run, serveQuery]
        cases sendRequest (link.env 0) .mkdir
            (mkdirMessage path (link.following 0) (mode ||| sIfdir)) server with
        | error stop => rfl
        | ok replied =>
            obtain ⟨reply, next⟩ := replied
            cases reply <;> rfl

end ChlorosSnfs.Snfs.PathCalls
