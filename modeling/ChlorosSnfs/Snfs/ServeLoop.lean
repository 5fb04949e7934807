import ChlorosSnfs.Library.Runs
import ChlorosSnfs.Snfs.Handlers

/-!
# The loop of main.c

`serve` is one round of `serve_loop`: the type word picks a handler, which
reads its arguments behind it.  The loop's own `msg_type` is checked against
the length of the message, but only the console sees it.  `step` is a request
or a change of the served machine from outside.
-/

set_option autoImplicit false

namespace ChlorosSnfs.Snfs.ServeLoop

open ChlorosSnfs.Library.Runs
open ChlorosSnfs.Snfs.Fhandledb
open ChlorosSnfs.Snfs.Messages
open ChlorosSnfs.Snfs.Syscalls
open ChlorosSnfs.Snfs.Handlers

variable {Fs : Type}

def dispatch (env : Env Fs) (message : Bytes) (server : Server Fs) :
    MsgType → Except Stop (Server Fs)
  | .noop => return handleNoop server
  | .mount => handleMount env server
  | .getattr => handleGetattr env (getattrArgs message) server
  | .readdir => handleReaddir env (readdirArgs message) server
  | .lookup => handleLookup env (lookupArgs message) server
  | .read => handleRead env (readArgs message) server
  | .write => handleWrite env (writeArgs message) server
  | .setattr => handleSetattr env (setattrArgs message) server
  | .create => handleCreate env (createArgs message) server
  | .remove => handleRemove env (removeArgs message) server
  | .rename => handleRename env (renameArgs message) server
  | .mkdir => handleMkdir env (mkdirArgs message) server
  | .error => return handleUnimplemented server
  | .other _ => return handleUnimplemented server

/-- One round of `serve_loop` with a received message. -/
def serve (env : Env Fs) (message : Bytes) (server : Server Fs) :
    Except Stop (Server Fs) := do
  let word ← readWord message 0 sizeofSnfsMsgType
  dispatch env message server (MsgType.ofWord word)

inductive Event (Fs : Type) where
  | request (message : Bytes) (leftover : Leftover)
  | external (fs : Fs)

/-- `none` when the request stops the server. -/
def step (kernel : Kernel Fs) (server : Server Fs) :
    Event Fs → Option (Server Fs)
  | .request message leftover =>
      match serve ⟨kernel, leftover⟩ message server with
      | .ok next => some next
      | .error _ => none
  | .external fs => some { server with fs }

/-- A server that has been started on a directory with an empty database. -/
def started (fs : Fs) (draws : List Fhandle) : Server Fs :=
  ⟨fs, emptyDb, draws, [], []⟩

/-- The states any sequence of requests and outside changes leads to. -/
def Reachable (kernel : Kernel Fs) (server : Server Fs) : Prop :=
  ∃ fs draws events,
    runLabels (step kernel) (started fs draws) events = some server

end ChlorosSnfs.Snfs.ServeLoop
