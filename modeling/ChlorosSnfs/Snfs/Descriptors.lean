import ChlorosSnfs.Snfs.ReplyContract

/-!
# The descriptors of the server

`handle_read` and `handle_write` close what they open on every way out.
`handle_readdir` never calls `closedir` and `handle_create` drops the descriptor
`creat` gives it, so every READDIR that opens its directory and every CREATE
that makes its file takes one more descriptor for good.
-/

set_option autoImplicit false

namespace ChlorosSnfs.Snfs.Descriptors

open ChlorosSnfs.Library.Runs
open ChlorosSnfs.Snfs.Fhandledb
open ChlorosSnfs.Snfs.Messages
open ChlorosSnfs.Snfs.Syscalls
open ChlorosSnfs.Snfs.Handlers
open ChlorosSnfs.Snfs.ServeLoop
open ChlorosSnfs.Snfs.HandlerEffects
open ChlorosSnfs.Snfs.HandlerReplies
open ChlorosSnfs.Snfs.ReplyContract (dispatch_of_serve)
open ChlorosSnfs.Snfs.ErrorReplies (noLeftover mountMessage)
open ChlorosSnfs.Snfs.MessageBounds (permissive)

variable {Fs : Type}

/-- The step takes a descriptor that it does not give back. -/
def LeavesOpen (kernel : Kernel Fs) (server : Server Fs) : Event Fs → Prop
  | .request message _ => ∃ type, messageType message = .ok type ∧
      Opens kernel message server type
  | .external _ => False

theorem messageType_of_serve {env : Env Fs} {message : Bytes}
    {server next : Server Fs} (served : serve env message server = .ok next) :
    ∃ type, messageType message = .ok type := by
  rw [serve, bind_eq_ok] at served
  obtain ⟨word, read, _⟩ := served
  exact ⟨MsgType.ofWord word, by rw [messageType, read]; rfl⟩

/-- A step opens more than it closes or leaves the descriptors as they are. -/
theorem step_opened {kernel : Kernel Fs} {server next : Server Fs}
    {event : Event Fs} (stepped : step kernel server event = some next) :
    ∃ held, next.opened = held ++ server.opened ∧
      (held = [] ↔ ¬ LeavesOpen kernel server event) := by
  cases event with
  | external fs =>
      cases stepped
      exact ⟨[], rfl, iff_of_true rfl id⟩
  | request message leftover =>
      rw [step] at stepped
      split at stepped
      · rename_i served
        cases stepped
        obtain ⟨type, named⟩ := messageType_of_serve served
        obtain ⟨held, replied, empty⟩ :=
          dispatch_replied (dispatch_of_serve named served)
        refine ⟨held, replied.opened, empty.trans (not_congr ?_)⟩
        simp [LeavesOpen, named]
      · cases stepped

theorem step_opened_iff {kernel : Kernel Fs} {server next : Server Fs}
    {event : Event Fs} (stepped : step kernel server event = some next) :
    next.opened = server.opened ↔ ¬ LeavesOpen kernel server event := by
  obtain ⟨held, opened, empty⟩ := step_opened stepped
  rw [opened, List.append_left_eq_self, empty]

/-- Over any run: the descriptors are in every state what they were at the start
exactly when no request of the run leaves one open. -/
theorem descriptors_kept_iff {kernel : Kernel Fs} {start final : Server Fs}
    {events : List (Event Fs)}
    (run : runLabels (step kernel) start events = some final) :
    Everywhere (step kernel) (fun server => server.opened = start.opened)
        start events ↔
      EveryStep (step kernel)
        (fun server event => ¬ LeavesOpen kernel server event) start events := by
  refine everywhere_iff_guards ?_ rfl run
  intro server event next same stepped
  rw [← same]
  exact step_opened_iff stepped

/-- A READDIR of at most four entries of the directory with handle 5. -/
def readdirMessage : Bytes :=
  [3, 0, 0, 0, 5, 0, 0, 0, 0, 0, 0, 0, 4, 0, 0, 0, 0, 0, 0, 0]

/-- A server is mounted and its root read. -/
def readdirRun : List (Event Unit) :=
  [.request mountMessage noLeftover, .request readdirMessage noLeftover]

theorem descriptors_kept_iff_readdir :
    Everywhere (step permissive) (fun server => server.opened = [])
        (started () [5]) readdirRun ↔
      EveryStep (step permissive)
        (fun server event => ¬ LeavesOpen permissive server event)
        (started () [5]) readdirRun :=
  descriptors_kept_iff (rfl : runLabels (step permissive) (started () [5])
    readdirRun = some _)

/-- Nothing is open before the run, and the stream of the directory behind it. -/
theorem readdirRun_leaves_stream_open :
    (started () [5] : Server Unit).opened = [] ∧
    ∃ final, runLabels (step permissive) (started () [5]) readdirRun =
        some final ∧ final.opened = [.directory 3] :=
  ⟨rfl, _, rfl, rfl⟩

end ChlorosSnfs.Snfs.Descriptors
