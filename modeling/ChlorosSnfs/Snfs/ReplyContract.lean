import ChlorosSnfs.Snfs.HandlerReplies
import ChlorosSnfs.Snfs.MessageBounds

/-!
# One reply for each request

The socket is a REQ/REP pair: a handler that replies twice or not at all wedges
it.  With a well-formed request, a database that is a bijection and an unused
value to draw, only an array of the size that a client asks for can stop a
handler, so each request comes to its reply unless `Overruns`.
-/

set_option autoImplicit false

namespace ChlorosSnfs.Snfs.ReplyContract

open ChlorosSnfs.Library.Runs
open ChlorosSnfs.Snfs.Fhandledb
open ChlorosSnfs.Snfs.FhandledbRefinement (Refines)
open ChlorosSnfs.Snfs.Messages
open ChlorosSnfs.Snfs.Syscalls
open ChlorosSnfs.Snfs.Handlers
open ChlorosSnfs.Snfs.ServeLoop
open ChlorosSnfs.Snfs.HandlerEffects
open ChlorosSnfs.Snfs.HandlerStops
open ChlorosSnfs.Snfs.HandlerReplies
open ChlorosSnfs.Snfs.ServerDatabase
open ChlorosSnfs.Snfs.ErrorReplies
open ChlorosSnfs.Snfs.MessageBounds
open ChlorosSnfs.Snfs.Client (Reply.type sendRequest)

variable {Fs : Type}

/-! ## Nothing stops a handler -/

/-- A value that `get_random` will draw and that is no handle yet. -/
def CanDraw (server : Server Fs) : Prop :=
  ∃ draw ∈ server.draws, server.db (handleBytes draw) = none

/-- No reason to stop. -/
abbrev Never (_ : Stop) : Prop := False

theorem CanDraw.findOrInsert {env : Env Fs} {server : Server Fs}
    (canDraw : CanDraw server) (filename : CString) :
    StopsOnly Never (findOrInsert env filename server) := by
  obtain ⟨draw, drawn, unused⟩ := canDraw
  rw [Handlers.findOrInsert]
  cases known : server.db filename.key with
  | some value =>
      rw [nameFindOrInsert_of_known known]
      exact stopsOnly_ok _
  | none =>
      obtain ⟨first, rest, generated⟩ := generateNewFhandle_isSome drawn unused
      rw [nameFindOrInsert_of_unknown known generated]
      exact stopsOnly_ok _

theorem dispatch_of_serve {env : Env Fs} {message : Bytes}
    {server next : Server Fs} {type : MsgType}
    (named : messageType message = .ok type)
    (served : serve env message server = .ok next) :
    dispatch env message server type = .ok next := by
  rw [serve, bind_eq_ok] at served
  obtain ⟨word, read, handled⟩ := served
  rw [messageType, read] at named
  cases Except.ok.inj named
  exact handled

/-- Every path but the empty one is a directory. -/
def directories : Kernel Unit := fun call fs =>
  match call with
  | .stat ⟨[], _⟩ => (.error .enoent, fs)
  | other => permissive other fs

end ChlorosSnfs.Snfs.ReplyContract
