import ChlorosSnfs.Snfs.ServerDatabase
import ChlorosSnfs.Snfs.TreeKernel

/-!
# Error replies leave everything as it was

REMOVE and RENAME change the files first and the database second, with an
SNFS_EINTERNAL in between for a name that cannot be removed.  The name was read
from the database, which is a bijection, so it can.
-/

set_option autoImplicit false

namespace ChlorosSnfs.Snfs.ErrorReplies

open ChlorosSnfs.Library.FileTree
open ChlorosSnfs.Library.Runs
open ChlorosSnfs.Snfs.Fhandledb
open ChlorosSnfs.Snfs.FhandledbRefinement (Refines)
open ChlorosSnfs.Snfs.Messages
open ChlorosSnfs.Snfs.Syscalls
open ChlorosSnfs.Snfs.Handlers
open ChlorosSnfs.Snfs.ServeLoop
open ChlorosSnfs.Snfs.HandlerEffects
open ChlorosSnfs.Snfs.ServerDatabase
open ChlorosSnfs.Snfs.TreeKernel

variable {Fs : Type}

/-- The reply to the request is an ERROR. -/
def RepliesError (before after : Server Fs) : Prop :=
  ∃ error size, after.sent = (.error error, size) :: before.sent

theorem not_repliesError {before after : Server Fs} {reply : Reply} {size : Nat}
    (sent : after.sent = (reply, size) :: before.sent)
    (notError : reply.isError = false) : ¬ RepliesError before after := by
  rintro ⟨error, errorSize, alsoSent⟩
  obtain ⟨same, _⟩ := List.cons.inj (sent.symm.trans alsoSent)
  rw [(Prod.mk.inj same).1] at notError
  cases notError

theorem named_not_repliesError {env : Env Fs} {filename : CString}
    {handle : Fhandle} {before after : Server Fs}
    (named : Named env filename handle before after) :
    ¬ RepliesError before after := by
  obtain ⟨reply, size, sent, notError⟩ := named.reply
  exact not_repliesError sent notError

theorem unlinked_not_repliesError {env : Env Fs} {args : RemoveArgs}
    {before after : Server Fs} {handle : Fhandle} {path : CString}
    {removed : Bool} {pairs : CString ≃. Fhandle}
    (refines : Refines before.db pairs)
    (gone : Unlinked env args before after handle path removed) :
    ¬ RepliesError before after := by
  have sent := gone.sent
  rw [(unlinked_removed refines gone).1, if_pos rfl] at sent
  exact not_repliesError sent rfl

theorem moved_not_repliesError {env : Env Fs} {args : RenameArgs}
    {before after : Server Fs} {handle newHandle : Fhandle}
    {oldPath newPath : CString} {removed : Bool} {pairs : CString ≃. Fhandle}
    (refines : Refines before.db pairs)
    (moved : Moved env args before after handle oldPath newPath newHandle
      removed) : ¬ RepliesError before after := by
  have sent := moved.sent
  rw [(moved_removed refines moved).1, if_pos rfl] at sent
  exact not_repliesError sent rfl

/-- Only a refusal ends in an ERROR. -/
theorem refused_of_repliesError {env : Env Fs} {message : Bytes}
    {before after : Server Fs} {type : MsgType} {pairs : CString ≃. Fhandle}
    (refines : Refines before.db pairs)
    (ending : Ending env message before after type)
    (replies : RepliesError before after) : Refused env before after := by
  cases ending with
  | refused refused => exact refused
  | answered leaves answered =>
      obtain ⟨reply, size, sent, notError, _⟩ := answered.reply
      exact absurd replies (not_repliesError sent notError)
  | mounted root named fs sent =>
      exact absurd replies (named_not_repliesError named)
  | lookedUp dirPath filename handle found =>
      exact absurd replies (named_not_repliesError found.named)
  | created path handle made sent =>
      exact absurd replies (named_not_repliesError made.named)
  | madeDirectory path handle made sent =>
      exact absurd replies (named_not_repliesError made.named)
  | unlinked handle path removed gone =>
      exact absurd replies (unlinked_not_repliesError refines gone)
  | moved handle oldPath newPath newHandle removed moved =>
      exact absurd replies (moved_not_repliesError refines moved)

/-- In every state a server comes to, a request that is answered with an ERROR
has changed neither the served files nor the database, and a REMOVE or RENAME
whose file is gone or moved is not answered with an ERROR. -/
theorem error_reply_keeps_state {Files : Type} (kernel : Kernel Fs)
    (served : Fs → Files) (undisturbed : Undisturbed kernel served)
    (fs : Fs) (draws : List Fhandle) (events : List (Event Fs))
    (server : Server Fs)
    (run : runLabels (step kernel) (started fs draws) events = some server)
    (neverSeven : NeverSeven kernel (started fs draws) events)
    (message : Bytes) (leftover : Leftover) (next : Server Fs)
    (handled : serve ⟨kernel, leftover⟩ message server = .ok next) :
    (RepliesError server next →
      served next.fs = served server.fs ∧ next.db = server.db) ∧
    (∀ handle path removed,
      Unlinked ⟨kernel, leftover⟩ (removeArgs message) server next handle path
        removed → ¬ RepliesError server next) ∧
    (∀ handle oldPath newPath newHandle removed,
      Moved ⟨kernel, leftover⟩ (renameArgs message) server next handle oldPath
        newPath newHandle removed → ¬ RepliesError server next) := by
  obtain ⟨pairs, refines⟩ :=
    run_bijective (started_bijective fs draws) neverSeven run
  obtain ⟨_, _, ending⟩ := serve_ending handled
  refine ⟨?_, ?_, ?_⟩
  · intro replies
    have refused := refused_of_repliesError refines ending replies
    exact ⟨refused.quiet.served_eq undisturbed, refused.db⟩
  · intro handle path removed gone
    exact unlinked_not_repliesError refines gone
  · intro handle oldPath newPath newHandle removed moved
    exact moved_not_repliesError refines moved

/-! A server on an empty directory is mounted and asked to remove its root. -/

def noLeftover : Leftover := ⟨0, Fattr.zero, fun _ _ => 0, 0x800000⟩

def mountMessage : Bytes := [1, 0, 0, 0]

/-- A REMOVE of the directory with handle 7. -/
def removeMessage : Bytes :=
  [9, 0, 0, 0, 7, 0, 0, 0, 0, 0, 0, 0, 1, 0, 0, 0, 0, 0, 0, 0]

def mountedServer : Server Files :=
  ⟨DirTree.onlyRoot, paired emptyDb rootPath 7, [], [(.mount 7, 12)], []⟩

theorem step_mountMessage :
    step treeKernel (started DirTree.onlyRoot [7])
      (.request mountMessage noLeftover) = some mountedServer := rfl

theorem neverSeven_mountMessage :
    NeverSeven treeKernel (started DirTree.onlyRoot [7])
      [.request mountMessage noLeftover] := by
  have empty : NoSevenStored emptyDb := by
    intro handle filename stored
    cases stored
  refine ⟨empty, ?_⟩
  intro next stepped
  cases step_mountMessage.symm.trans stepped
  exact noSevenStored_paired empty (by decide) 7

theorem error_reply_keeps_state_remove :
    ∃ next, serve ⟨treeKernel, noLeftover⟩ removeMessage mountedServer =
        .ok next ∧ RepliesError mountedServer next ∧
      next.fs = DirTree.onlyRoot ∧ next.db = paired emptyDb rootPath 7 := by
  have handled : serve ⟨treeKernel, noLeftover⟩ removeMessage mountedServer =
      .ok { mountedServer with
        sent := (.error .einternal, 8) :: mountedServer.sent } := rfl
  have kept := error_reply_keeps_state treeKernel id
    treeKernel_onTree.undisturbed DirTree.onlyRoot [7]
    [.request mountMessage noLeftover] mountedServer
    (by rw [runLabels, step_mountMessage]; rfl) neverSeven_mountMessage
    removeMessage noLeftover _ handled
  exact ⟨_, handled, ⟨.einternal, 8, rfl⟩, kept.1 ⟨.einternal, 8, rfl⟩⟩

end ChlorosSnfs.Snfs.ErrorReplies
