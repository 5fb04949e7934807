import ChlorosSnfs.Snfs.PathAgreement
import ChlorosSnfs.Snfs.PathCalls
import ChlorosSnfs.Snfs.RequestEffects

/-!
# Several clients at once

Every client carries out one call at a time; between its requests the server answers
the other clients and anybody else, and the served files may change from outside.  A
call that returns 0 has nevertheless done to the tree, at one moment, what the local
call does at its path, and a call that returns anything else has left the tree alone.
The tree is one of names and kinds of files: a call that lists a directory, opens a
file or reads or sets attributes has found the file there, and nothing is said about
what is behind the name.
-/

set_option autoImplicit false

namespace ChlorosSnfs.Snfs.InterleavedCalls

open ChlorosSnfs.Library.Dialogues
open ChlorosSnfs.Library.Paths
open ChlorosSnfs.Library.Runs
open ChlorosSnfs.Snfs.Fhandledb
open ChlorosSnfs.Snfs.Messages
open ChlorosSnfs.Snfs.Syscalls
open ChlorosSnfs.Snfs.Handlers
open ChlorosSnfs.Snfs.ServeLoop
open ChlorosSnfs.Snfs.HandlerEffects
open ChlorosSnfs.Snfs.Client
open ChlorosSnfs.Snfs.Wire
open ChlorosSnfs.Snfs.ClientCalls
open ChlorosSnfs.Snfs.FileCalls
open ChlorosSnfs.Snfs.FreshDraws
open ChlorosSnfs.Snfs.TreeKernel
open ChlorosSnfs.Snfs.PathWalk
open ChlorosSnfs.Snfs.PathCalls
open ChlorosSnfs.Snfs.HandleIdentity (pathA noLeftover)
open ChlorosSnfs.Snfs.PathAgreement (mountedTree)
open ChlorosSnfs.Snfs.GivenHandles
open ChlorosSnfs.Snfs.RequestEffects

variable {Fs : Type}

/-! ## The path of a walk -/

/-- Where LOOKUP leads: each name is cut to the length of its field. -/
def walkedPath (path : CString) : CString :=
  joinedPath ((tokens path).map CString.sent)

theorem piece_sent {name : CString} (isPiece : Piece name.bytes) :
    Piece (CString.sent name).bytes := by
  refine ⟨?_, fun member => isPiece.2 (List.mem_of_mem_take member)⟩
  intro empty
  exact isPiece.1 ((List.take_eq_nil_iff.mp empty).resolve_left (by decide))

/-- Nothing is cut off names that fit. -/
theorem walkedPath_of_short {path : CString}
    (short : ∀ name ∈ tokens path, name.bytes.length ≤ snfsMaxFilenameLength) :
    walkedPath path = joinedPath (tokens path) := by
  rw [walkedPath]
  apply congrArg joinedPath
  refine (List.map_congr_left fun name member => ?_).trans (List.map_id _)
  exact sent_of_short (short name member)

theorem joinPath_sent {before : List CString} {name : CString}
    (arePieces : ∀ other ∈ before ++ [name], Piece other.bytes) :
    joinPath (joinedPath (before.map CString.sent)) (CString.sent name) =
      joinedPath ((before ++ [name]).map CString.sent) := by
  rw [List.map_append]
  apply joinPath_joinedPath
  · intro other member
    obtain ⟨piece, inBefore, rfl⟩ := List.mem_map.mp member
    exact piece_sent (arePieces piece (List.mem_append_left _ inBefore))
  · exact piece_sent (arePieces name (by simp))

/-! ## What a call does at once -/

/-- The local call that a call stands for on the tree of names.  A call that only
concerns what is behind a name looks at the name. -/
def localCall : PathCall → Call
  | .walk path .unlink => .unlink (walkedPath path)
  | .walk path .rmdir => .rmdir (walkedPath path)
  | .walk path (.rename newpath) => .rename (walkedPath path) (CString.sent newpath)
  | .walk path _ => .stat (walkedPath path)
  | .create path mode _ => .creat (CString.sent path) mode
  | .mkdir path mode => .mkdir (CString.sent path) (mode ||| sIfdir)

/-- What a call has found at its path when it returns 0. -/
def WalkFound (files : Files) (path : CString) : WalkCall → Output → Prop
  | .getattr _, .attributes st => leadsTo files path = some (sIsdir st.mode)
  | .readdir, _ => leadsTo files path = some true
  | .rename _, _ => True
  | _, _ => leadsTo files path ≠ none

def CallFound (files : Files) : PathCall → Output → Prop
  | .walk path call, output => WalkFound files (walkedPath path) call output
  | _, _ => True

/-- The local call has succeeded, or nothing has happened. -/
def TakesEffect (call : PathCall) (files : Files) :
    Except Stop Returned → Files → Prop
  | .ok returned, after =>
      if returned.code = 0 then
        filesAfter files (localCall call) = some after ∧
          CallFound files call returned.output
      else after = files
  | .error _, after => after = files

theorem negEnoent_ne_zero : negEnoent ≠ 0 := by decide

theorem negEio_ne_zero : negEio ≠ 0 := by decide

theorem create_ne_error : MsgType.create ≠ .error := by decide

theorem mkdir_ne_error : MsgType.mkdir ≠ .error := by decide

theorem missed_code (call : WalkCall) : call.missed.code = negEnoent := by
  cases call <;> rfl

/-! ## The system -/

/-- A call, with the client's memory behind the strings it copies. -/
structure Called where
  call : PathCall
  following : Nat → Nat → UInt8

/-- The clients of a server, which all have mounted it with this root.  A question
comes with the memory the server has left over, and everything else that happens is
a step of the server on its own. -/
def clients (kernel : Kernel Fs) (files : Fs → Files) (root : Fhandle) :
    Service Called Leftover Query (Option Reply) (Except Stop Returned)
      (ServeLoop.Event Fs) (Server Fs) Files where
  dialogue called := called.call.dialogue root called.following
  answer leftover query server :=
    (sendRequest ⟨kernel, leftover⟩ query.type query.message server).toOption
  change event server := step kernel server event
  view server := files server.fs

def Effect (called : Called) (files : Files) (result : Except Stop Returned)
    (after : Files) : Prop :=
  TakesEffect called.call files result after

/-! ## What holds of a call underway -/

structure Ready (root : Fhandle) (server : Server Fs) : Prop where
  fresh : ∃ pairs, Fresh server pairs
  rootStands : StandsFor server root rootPath

/-- A call that looks its path up has a handle for the names before; the others have
their one request to send. -/
inductive Underway (root : Fhandle) (server : Server Fs) :
    Called → ClientDialogue (Except Stop Returned) → Prop
  | walking (path : CString) (call : WalkCall) (following : Nat → Nat → UInt8)
      (before rest : List CString) (curHandle : Fhandle) (request : Nat)
      {dialogue : ClientDialogue (Except Stop Returned)}
      (split : tokens path = before ++ rest)
      (stands : StandsFor server curHandle (joinedPath (before.map CString.sent)))
      (remains : dialogue =
        (lookupFromDialogue following request rest curHandle).bind
          (call.afterLookup following (tokens path).length)) :
      Underway root server ⟨.walk path call, following⟩ dialogue
  | creating (path : CString) (mode : UInt32) (fh : Fhandle)
      (following : Nat → Nat → UInt8)
      {dialogue : ClientDialogue (Except Stop Returned)}
      (remains : dialogue = (PathCall.create path mode fh).dialogue root following) :
      Underway root server ⟨.create path mode fh, following⟩ dialogue
  | makingDirectory (path : CString) (mode : UInt32)
      (following : Nat → Nat → UInt8)
      {dialogue : ClientDialogue (Except Stop Returned)}
      (remains : dialogue = (PathCall.mkdir path mode).dialogue root following) :
      Underway root server ⟨.mkdir path mode, following⟩ dialogue

theorem Underway.mono {root : Fhandle} {server after : Server Fs}
    (kept : ∀ handle path, StandsFor server handle path → StandsFor after handle path)
    {called : Called} {dialogue : ClientDialogue (Except Stop Returned)}
    (underway : Underway root server called dialogue) :
    Underway root after called dialogue := by
  cases underway with
  | walking path call following before rest curHandle request split stands remains =>
      exact .walking path call following before rest curHandle request split
        (kept _ _ stands) remains
  | creating path mode fh following remains =>
      exact .creating path mode fh following remains
  | makingDirectory path mode following remains =>
      exact .makingDirectory path mode following remains

theorem ready_of_serve {env : Env Fs} {message : Bytes} {root : Fhandle}
    {server after : Server Fs} (ready : Ready root server)
    (handled : serve env message server = .ok after) :
    Ready root after ∧ ∀ called dialogue, Underway root server called dialogue →
      Underway root after called dialogue := by
  obtain ⟨fresh, kept⟩ := standsFor_of_serve ready.fresh handled
  exact ⟨⟨fresh, kept _ _ ready.rootStands⟩, fun _ _ underway => underway.mono kept⟩

theorem ready_of_external {root : Fhandle} {server : Server Fs} (ready : Ready root server)
    (fs : Fs) : Ready root { server with fs } ∧
      ∀ called dialogue, Underway root server called dialogue →
        Underway root { server with fs } called dialogue := by
  have kept : ∀ handle path, StandsFor server handle path →
      StandsFor { server with fs } handle path :=
    fun _ _ stands => ⟨stands.spellsNone, stands.drawn, stands.stored⟩
  obtain ⟨pairs, fresh⟩ := ready.fresh
  exact ⟨⟨⟨pairs, fresh.of_same rfl rfl⟩, kept _ _ ready.rootStands⟩,
    fun _ _ underway => underway.mono kept⟩

section Steps

variable {kernel : Kernel Fs} {files : Fs → Files} {root : Fhandle}
  {server after : Server Fs}

/-- Where the clients' calls stand once the server has come to another state. -/
abbrev Stands (files : Fs → Files) (root : Fhandle) (called : Called)
    (server after : Server Fs) :
    ClientDialogue (Except Stop Returned) → Prop :=
  Settles (fun server : Server Fs => files server.fs) Effect (Underway root) called
    server after

theorem stands_of_failed (called : Called) {code : Int} {output : Output}
    (failed : code ≠ 0) (same : files after.fs = files server.fs) :
    Stands files root called server after (.done (.ok ⟨code, output⟩)) := by
  rw [Stands, Settles, Effect, TakesEffect, if_neg failed]
  exact same

theorem stands_of_zero {called : Called} {output : Output}
    (done : filesAfter (files server.fs) (localCall called.call) =
      some (files after.fs))
    (found : CallFound (files server.fs) called.call output) :
    Stands files root called server after (.done (.ok ⟨0, output⟩)) := by
  rw [Stands, Settles, Effect, TakesEffect, if_pos rfl]
  exact ⟨done, found⟩

/-- The walk is at its end, at a handle for the whole path. -/
theorem stands_of_found {path : CString} {call : WalkCall}
    {following : Nat → Nat → UInt8} {curHandle : Fhandle}
    (same : files after.fs = files server.fs)
    (leads : leadsTo (files after.fs) (walkedPath path) ≠ none)
    (stands : StandsFor after curHandle (walkedPath path)) (request : Nat) :
    Stands files root ⟨.walk path call, following⟩ server after
      ((lookupFromDialogue following request [] curHandle).bind
        (call.afterLookup following (tokens path).length)) := by
  have underway : ∀ dialogue,
      dialogue = call.found following (tokens path).length curHandle →
        Underway root after ⟨.walk path call, following⟩ dialogue := by
    intro dialogue remains
    refine .walking path call following (tokens path) [] curHandle request
      (List.append_nil _).symm stands ?_
    rw [remains]
    rfl
  rw [same] at leads
  cases call with
  | openFile fh =>
      exact stands_of_zero (congrArg some same.symm) leads
  | opendir fh =>
      exact stands_of_zero (congrArg some same.symm) leads
  | getattr stbuf => exact ⟨same, underway _ rfl⟩
  | readdir => exact ⟨same, underway _ rfl⟩
  | setattr which size mode uid gid tv => exact ⟨same, underway _ rfl⟩
  | unlink => exact ⟨same, underway _ rfl⟩
  | rename newpath => exact ⟨same, underway _ rfl⟩
  | rmdir => exact ⟨same, underway _ rfl⟩

/-- The walk has come to a handle for the names before. -/
theorem stands_of_walk {path : CString} {call : WalkCall}
    {following : Nat → Nat → UInt8} {before rest : List CString} {curHandle : Fhandle}
    (split : tokens path = before ++ rest) (same : files after.fs = files server.fs)
    (leads : leadsTo (files after.fs) (joinedPath (before.map CString.sent)) ≠ none)
    (stands : StandsFor after curHandle (joinedPath (before.map CString.sent)))
    (request : Nat) :
    Stands files root ⟨.walk path call, following⟩ server after
      ((lookupFromDialogue following request rest curHandle).bind
        (call.afterLookup following (tokens path).length)) := by
  cases rest with
  | nil =>
      rw [List.append_nil] at split
      subst split
      exact stands_of_found same leads stands request
  | cons name rest =>
      exact ⟨same, .walking path call following before (name :: rest) curHandle request
        split stands rfl⟩

theorem stands_of_missed {path : CString} {call : WalkCall}
    (following : Nat → Nat → UInt8) (same : files after.fs = files server.fs) :
    Stands files root ⟨.walk path call, following⟩ server after
      (.done (.ok call.missed)) := by
  have failed : call.missed.code ≠ 0 := by
    rw [missed_code]
    exact negEnoent_ne_zero
  exact stands_of_failed _ failed same

/-! ## Answers -/

/-- The answer to a LOOKUP. -/
theorem stands_of_lookup (onTree : OnTree kernel files) (ready : Ready root server)
    {leftover : Leftover} {path : CString} {call : WalkCall}
    {following : Nat → Nat → UInt8} {before rest : List CString} {name : CString}
    {curHandle : Fhandle} (split : tokens path = before ++ name :: rest)
    (stands : StandsFor server curHandle (joinedPath (before.map CString.sent)))
    {request : Nat} {query : Query}
    {next : Option Reply → ClientDialogue (Except Stop Returned)}
    (asks : .ask query next =
      (lookupFromDialogue following request (name :: rest) curHandle).bind
        (call.afterLookup following (tokens path).length))
    {reply : Option Reply}
    (replied : sendRequest ⟨kernel, leftover⟩ query.type query.message server =
      .ok (reply, after)) :
    Stands files root ⟨.walk path call, following⟩ server after (next reply) := by
  cases asks
  obtain ⟨same, given⟩ := lookup_effect onTree ready.fresh stands replied
  cases reply with
  | none => exact stands_of_missed following same
  | some reply =>
      cases reply with
      | lookup handle attributes =>
          have arePieces : ∀ other ∈ before ++ [name], Piece other.bytes := by
            intro other member
            have inTokens : other ∈ tokens path := by
              rw [split]
              rcases List.mem_append.mp member with inBefore | isName
              · exact List.mem_append_left _ inBefore
              · rw [List.mem_singleton.mp isName]
                simp
            exact piece_of_mem_tokens inTokens
          obtain ⟨standsNext, leads⟩ := given handle attributes rfl
          rw [joinPath_sent arePieces] at standsNext leads
          rw [← same] at leads
          exact stands_of_walk (by rw [split, List.append_assoc]; rfl) same leads
            standsNext (request + 1)
      | _ => exact stands_of_missed following same

/-- The answer to a REMOVE. -/
theorem stands_of_remove (onTree : OnTree kernel files) (ready : Ready root server)
    {leftover : Leftover} {path : CString} {isDir : UInt8}
    {following : Nat → Nat → UInt8} {handle : Fhandle} {call : WalkCall}
    (removes : localCall (.walk path call) = removal isDir (walkedPath path))
    (found : WalkFound (files server.fs) (walkedPath path) call .nothing =
      (leadsTo (files server.fs) (walkedPath path) ≠ none))
    (stands : StandsFor server handle (walkedPath path)) {request : Nat}
    {query : Query}
    {next : Option Reply → ClientDialogue (Except Stop Returned)}
    (asks : removeDialogue isDir following request handle = .ask query next)
    {reply : Option Reply}
    (replied : sendRequest ⟨kernel, leftover⟩ query.type query.message server =
      .ok (reply, after)) :
    Stands files root ⟨.walk path call, following⟩ server after (next reply) := by
  cases asks
  rcases remove_effect onTree ready.fresh stands replied with
    ⟨rfl, same⟩ | ⟨given, leads, removed⟩
  · exact stands_of_failed _ negEnoent_ne_zero same
  · obtain ⟨sent, rfl⟩ := Option.ne_none_iff_exists'.mp given
    rw [← removes] at removed
    refine stands_of_zero removed ?_
    rw [CallFound, found]
    exact leads

/-- The answer to the request behind a walk. -/
theorem stands_of_last (onTree : OnTree kernel files) (ready : Ready root server)
    {leftover : Leftover} {path : CString} {call : WalkCall}
    {following : Nat → Nat → UInt8} {handle : Fhandle}
    (stands : StandsFor server handle (walkedPath path)) {request : Nat}
    {query : Query}
    {next : Option Reply → ClientDialogue (Except Stop Returned)}
    (asks : call.found following request handle = .ask query next)
    {reply : Option Reply}
    (replied : sendRequest ⟨kernel, leftover⟩ query.type query.message server =
      .ok (reply, after)) :
    Stands files root ⟨.walk path call, following⟩ server after (next reply) := by
  cases call with
  | openFile fh => cases asks
  | opendir fh => cases asks
  | getattr stbuf =>
      cases asks
      obtain ⟨same, given⟩ := getattr_effect onTree stands replied
      cases reply with
      | none => exact stands_of_failed _ negEio_ne_zero same
      | some reply =>
          cases reply with
          | getattr attributes =>
              obtain ⟨st, leads, rfl⟩ := given attributes rfl
              refine stands_of_zero (congrArg some same.symm) ?_
              have mode : (fattrToStat (statToFattr st leftover.fattr) stbuf).mode =
                  st.mode := UInt32.toUInt32_toUInt64 st.mode
              rw [CallFound, WalkFound, mode]
              exact leads
          | _ => exact stands_of_failed _ negEio_ne_zero same
  | readdir =>
      cases asks
      obtain ⟨same, given⟩ := readdir_effect onTree stands replied
      cases reply with
      | none => exact stands_of_failed _ negEio_ne_zero same
      | some reply =>
          cases reply with
          | readdir numEntries entries =>
              dsimp only
              cases fillNames numEntries.toNat entries with
              | error stop => exact same
              | ok filenames =>
                  exact stands_of_zero (congrArg some same.symm)
                    (given (Option.some_ne_none _))
          | _ => exact stands_of_failed _ negEio_ne_zero same
  | setattr which size mode uid gid tv =>
      cases asks
      obtain ⟨same, given⟩ := setattr_effect onTree stands replied
      cases reply with
      | none => exact stands_of_failed _ negEio_ne_zero same
      | some reply =>
          cases reply with
          | setattr repWhich =>
              dsimp only
              split
              · exact stands_of_zero (congrArg some same.symm)
                  (given (Option.some_ne_none _))
              · exact stands_of_failed _ (by decide) same
          | _ => exact stands_of_failed _ negEio_ne_zero same
  | unlink =>
      refine stands_of_remove onTree ready ?_ ?_ stands asks replied
      · rfl
      · rfl
  | rename newpath =>
      cases asks
      rcases rename_effect onTree ready.fresh stands replied with
        ⟨rfl, same⟩ | ⟨given, renamed⟩
      · exact stands_of_failed _ negEnoent_ne_zero same
      · obtain ⟨sent, rfl⟩ := Option.ne_none_iff_exists'.mp given
        exact stands_of_zero renamed trivial
  | rmdir =>
      refine stands_of_remove onTree ready ?_ ?_ stands asks replied
      · rfl
      · rfl

/-- The answer to a CREATE. -/
theorem stands_of_create (onTree : OnTree kernel files) {leftover : Leftover}
    {path : CString} {mode : UInt32} {fh : Fhandle} {following : Nat → Nat → UInt8}
    {query : Query} {next : Option Reply → ClientDialogue (Except Stop Returned)}
    (asks : .ask query next = (PathCall.create path mode fh).dialogue root following)
    {reply : Option Reply}
    (replied : sendRequest ⟨kernel, leftover⟩ query.type query.message server =
      .ok (reply, after)) :
    Stands files root ⟨.create path mode fh, following⟩ server after (next reply) := by
  rw [PathCall.dialogue] at asks
  split at asks
  · cases asks
  · cases asks
    have handled := serve_of_sendRequest replied
    rw [serve_createMessage, handleCreate] at handled
    rcases make_effect onTree replied handled (fun _ => rfl) (fun _ => rfl)
        create_ne_error
      with ⟨rfl, same⟩ | ⟨⟨handle, rfl⟩, created⟩
    · exact stands_of_failed _ negEnoent_ne_zero same
    · exact stands_of_zero created trivial

/-- The answer to a MKDIR. -/
theorem stands_of_mkdir (onTree : OnTree kernel files) {leftover : Leftover}
    {path : CString} {mode : UInt32} {following : Nat → Nat → UInt8}
    {query : Query} {next : Option Reply → ClientDialogue (Except Stop Returned)}
    (asks : .ask query next = (PathCall.mkdir path mode).dialogue root following)
    {reply : Option Reply}
    (replied : sendRequest ⟨kernel, leftover⟩ query.type query.message server =
      .ok (reply, after)) :
    Stands files root ⟨.mkdir path mode, following⟩ server after (next reply) := by
  rw [PathCall.dialogue] at asks
  split at asks
  · cases asks
  · cases asks
    have handled := serve_of_sendRequest replied
    rw [serve_mkdirMessage, handleMkdir] at handled
    rcases make_effect onTree replied handled (fun _ => rfl) (fun _ => rfl)
        mkdir_ne_error
      with ⟨rfl, same⟩ | ⟨⟨handle, rfl⟩, made⟩
    · exact stands_of_failed _ negEnoent_ne_zero same
    · exact stands_of_zero made trivial

/-! ## The steps -/

theorem stands_of_begun (ready : Ready root server) (called : Called) :
    Stands files root called server server
      (called.call.dialogue root called.following) := by
  obtain ⟨call, following⟩ := called
  cases call with
  | walk path call =>
      have leads : leadsTo (files server.fs) (joinedPath ([].map CString.sent)) ≠
          none := by
        rw [List.map_nil, joinedPath_nil, leadsTo_rootPath]
        exact Option.some_ne_none _
      exact stands_of_walk (List.nil_append _).symm rfl leads ready.rootStands 0
  | create path mode fh =>
      dsimp only [PathCall.dialogue]
      split
      · exact stands_of_failed _ negEnoent_ne_zero rfl
      · rename_i notRoot
        refine ⟨rfl, .creating path mode fh following ?_⟩
        rw [PathCall.dialogue, if_neg notRoot]
  | mkdir path mode =>
      dsimp only [PathCall.dialogue]
      split
      · exact stands_of_failed _ negEnoent_ne_zero rfl
      · rename_i notRoot
        refine ⟨rfl, .makingDirectory path mode following ?_⟩
        rw [PathCall.dialogue, if_neg notRoot]

theorem stands_of_answered (onTree : OnTree kernel files) (ready : Ready root server)
    {called : Called} {query : Query}
    {next : Option Reply → ClientDialogue (Except Stop Returned)}
    (underway : Underway root server called (.ask query next)) {leftover : Leftover}
    {reply : Option Reply}
    (replied : sendRequest ⟨kernel, leftover⟩ query.type query.message server =
      .ok (reply, after)) :
    Stands files root called server after (next reply) := by
  cases underway with
  | walking path call following before rest curHandle request split stands remains =>
      cases rest with
      | cons name rest =>
          exact stands_of_lookup onTree ready split stands remains replied
      | nil =>
          rw [List.append_nil] at split
          subst split
          exact stands_of_last onTree ready stands remains.symm replied
  | creating path mode fh following remains =>
      exact stands_of_create onTree remains replied
  | makingDirectory path mode following remains =>
      exact stands_of_mkdir onTree remains replied

theorem ok_of_toOption {ε α : Type} {outcome : Except ε α} {value : α}
    (same : outcome.toOption = some value) : outcome = .ok value := by
  cases outcome with
  | error stop => cases same
  | ok other => exact congrArg Except.ok (Option.some.inj same)

theorem settlesCalls (onTree : OnTree kernel files) (root : Fhandle) :
    SettlesCalls (clients kernel files root) Effect (Ready root) (Underway root) where
  begins := fun _ called ready => stands_of_begun ready called
  answers := by
    intro leftover server called query next reply after ready underway answered
    exact stands_of_answered onTree ready underway (ok_of_toOption answered)
  kept := by
    intro leftover server query reply after ready answered
    exact ready_of_serve ready (serve_of_sendRequest (ok_of_toOption answered))
  changes := by
    intro event server after ready stepped
    cases event with
    | external fs =>
        cases stepped
        exact ready_of_external ready fs
    | request message leftover =>
        simp only [clients, step] at stepped
        split at stepped
        · rename_i handled
          cases stepped
          exact ready_of_serve ready handled
        · cases stepped

end Steps

/-- Whatever the clients, anybody else and the outside do in between, every call takes
effect on the tree of names at one moment between its beginning and its end, as the
local call at its path if it returns 0, and not at all if not. -/
theorem calls_take_effect_at_once {Client : Type} [DecidableEq Client]
    {kernel : Kernel Fs} {files : Fs → Files} (onTree : OnTree kernel files) (fs : Fs)
    {draws : List Fhandle} (nodup : draws.Nodup)
    (apart : ∀ draw ∈ draws, SpellsNoName draw) {events : List (ServeLoop.Event Fs)}
    {before server : Server Fs}
    (earlier : runLabels (step kernel) (started fs draws) events = some before)
    {leftover : Leftover} {root : Fhandle}
    (mounted : serverMount ⟨kernel, leftover⟩ before = .ok (some root, server))
    {moves : List (Move Client Called Leftover (ServeLoop.Event Fs))}
    {final : Joint Client Called Query (Option Reply) (Except Stop Returned) (Server Fs)
      Files}
    (run : runLabels (jointStep (clients kernel files root)) (atRest server) moves =
      some final) :
    Relation.ReflTransGen (AtomicStep Effect) ⟨files server.fs, fun _ => .idle, []⟩
      (atomicOf (fun server => files server.fs) final) := by
  obtain ⟨pairs, fresh⟩ := run_fresh nodup apart earlier
  obtain ⟨more, freshMounted, rootPair⟩ := serverMount_root fresh mounted
  exact (joint_refines (settlesCalls onTree root)
    ⟨⟨more, freshMounted⟩, standsFor_of_pair freshMounted rootPair⟩ run).2

/-! One client removes `/a` while another opens it. -/

def noFollowing (_ _ : Nat) : UInt8 := 0

def unlinkAndOpen : List (Move Bool Called Leftover (ServeLoop.Event Files)) :=
  [.begin true ⟨.walk pathA .unlink, noFollowing⟩,
    .begin false ⟨.walk pathA (.openFile 0), noFollowing⟩,
    .ask true noLeftover, .ask false noLeftover, .ask true noLeftover,
    .finish true, .finish false]

theorem unlinkAndOpen_draws_apart :
    ∀ draw ∈ [(7 : Fhandle), 9, 11], SpellsNoName draw := by
  intro draw member
  apply spellsNoName_of_zero
  simp only [List.mem_cons, List.not_mem_nil, or_false] at member
  rcases member with rfl | rfl | rfl
  · decide
  · decide
  · decide

set_option maxRecDepth 4000 in
theorem unlinkAndOpen_run : ∃ final,
    runLabels (jointStep (clients treeKernel id 7)) (atRest (mountedTree onlyFileA))
      unlinkAndOpen = some final ∧
    final.history.take 2 =
      [.ended false ⟨.walk pathA (.openFile 0), noFollowing⟩ (.ok ⟨0, .handle 9⟩),
        .ended true ⟨.walk pathA .unlink, noFollowing⟩ (.ok ⟨0, .nothing⟩)] :=
  ⟨_, rfl, rfl⟩

theorem calls_take_effect_at_once_unlinkAndOpen : ∃ final,
    runLabels (jointStep (clients treeKernel id 7)) (atRest (mountedTree onlyFileA))
      unlinkAndOpen = some final ∧
    Relation.ReflTransGen (AtomicStep Effect) ⟨onlyFileA, fun _ => .idle, []⟩
      (atomicOf (fun server => id server.fs) final) := by
  obtain ⟨final, run, _⟩ := unlinkAndOpen_run
  have earlier : runLabels (step treeKernel) (started onlyFileA [7, 9, 11]) [] =
      some (started onlyFileA [7, 9, 11]) := rfl
  have mounted : serverMount ⟨treeKernel, noLeftover⟩
      (started onlyFileA [7, 9, 11]) = .ok (some 7, mountedTree onlyFileA) := rfl
  exact ⟨final, run, calls_take_effect_at_once treeKernel_onTree onlyFileA (by decide)
    unlinkAndOpen_draws_apart earlier mounted run⟩

end ChlorosSnfs.Snfs.InterleavedCalls
