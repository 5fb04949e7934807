import ChlorosSnfs.Snfs.ErrorReplies
import ChlorosSnfs.Snfs.ReplyContract
import ChlorosSnfs.Snfs.TreeKernel

/-!
# The file the database is kept in

The server opens `.snfs.db` in the directory it has made its root and serves it
with everything else.  A handler changes a file only at a path of its request or
at the path of the request's handle, so the file is safe exactly as long as
nobody names it.  Where a path leads is read off the path alone: `.`, `..` and
slashes are resolved, links are not followed.
-/

set_option autoImplicit false

namespace ChlorosSnfs.Snfs.DatabaseFile

open ChlorosSnfs.Library.FileTree
open ChlorosSnfs.Library.Paths
open ChlorosSnfs.Library.Runs
open ChlorosSnfs.Snfs.Fhandledb
open ChlorosSnfs.Snfs.Messages
open ChlorosSnfs.Snfs.Syscalls
open ChlorosSnfs.Snfs.Handlers
open ChlorosSnfs.Snfs.ServeLoop
open ChlorosSnfs.Snfs.HandlerEffects
open ChlorosSnfs.Snfs.ServerDatabase
open ChlorosSnfs.Snfs.TreeKernel

variable {Fs : Type}

theorem dbFile_noNul : (0 : UInt8) ∉ [(46 : UInt8), 115, 110, 102, 115, 46, 100, 98] := by
  decide

/-- `DB_FILE`, `.snfs.db`. -/
def dbFile : CString := ⟨[46, 115, 110, 102, 115, 46, 100, 98], dbFile_noNul⟩

/-- Where it is: the working directory is the root. -/
def dbPlace : List Bytes := locationOf dbFile

/-! ## What has been done to a file -/

/-- A call and what came of it. -/
structure Performed where
  call : Call
  outcome : Outcome call

/-- A kernel that writes down what it is asked, the last call first. -/
def recording (kernel : Kernel Fs) : Kernel (Fs × List Performed) :=
  fun call state =>
    let result := kernel call state.1
    (result.1, (result.2, ⟨call, result.1⟩ :: state.2))

/-- The place a descriptor was last given out for. -/
def openedAt (fd : Nat) : List Performed → Option (List Bytes)
  | [] => none
  | ⟨.openFile path _, .ok given⟩ :: earlier =>
      if given = fd then some (locationOf path) else openedAt fd earlier
  | ⟨.creat path _, .ok given⟩ :: earlier =>
      if given = fd then some (locationOf path) else openedAt fd earlier
  | _ :: earlier => openedAt fd earlier

/-- The call changes what is at a place, if it succeeds: its contents, its
attributes or its name. -/
def ChangesAt (place : List Bytes) (earlier : List Performed) : Call → Prop
  | .write fd _ => openedAt fd earlier = some place
  | .chmod path _ => locationOf path = place
  | .chown path _ _ => locationOf path = place
  | .truncate path _ => locationOf path = place
  | .utimes path _ _ => locationOf path = place
  | .utime path _ _ => locationOf path = place
  | .creat path _ => locationOf path = place
  | .rmdir path => locationOf path = place
  | .unlink path => locationOf path = place
  | .rename oldPath newPath => locationOf oldPath = place ∨ locationOf newPath = place
  | .mkdir path _ => locationOf path = place
  | _ => False

/-- No call that succeeded changed what is at the place. -/
def Untouched (place : List Bytes) : List Performed → Prop
  | [] => True
  | last :: earlier =>
      (ChangesAt place earlier last.call → ∃ errno, last.outcome = .error errno) ∧
        Untouched place earlier

/-! ## What a request names -/

/-- The handle of the file that a request changes. -/
def changedHandle (message : Bytes) : MsgType → Option Fhandle
  | .write => (writeArgs message).file.toOption
  | .setattr => (setattrArgs message).file.toOption
  | .remove => (removeArgs message).fh.toOption
  | .rename => (renameArgs message).fh.toOption
  | _ => none

/-- The path at which a request makes a file, or to which it moves one. -/
def madePath (message : Bytes) : MsgType → Option CString
  | .create => (createArgs message).filename.toOption
  | .rename => (renameArgs message).filename.toOption
  | .mkdir => (mkdirArgs message).dirname.toOption
  | _ => none

/-- The path that a LOOKUP asks for. -/
def lookedUpPath (server : Server Fs) (message : Bytes) : MsgType → Option CString
  | .lookup => do
      let dir ← (lookupArgs message).dir.toOption
      let dirPath ← storedPath server.db dir
      let filename ← (lookupArgs message).filename.toOption
      return joinPath dirPath filename
  | _ => none

/-- The request makes something at the place, or carries a handle that leads
there and changes its file. -/
def AsksToChange (place : List Bytes) (server : Server Fs) (message : Bytes) :
    Prop :=
  ∃ type path, messageType message = .ok type ∧ locationOf path = place ∧
    (madePath message type = some path ∨
      (changedHandle message type).bind (storedPath server.db) = some path)

/-- The request makes something at the place or looks it up. -/
def Names (place : List Bytes) (server : Server Fs) (message : Bytes) : Prop :=
  ∃ type path, messageType message = .ok type ∧ locationOf path = place ∧
    (madePath message type = some path ∨
      lookedUpPath server message type = some path)

/-! ## What a handler does -/

theorem untouched_call {kernel : Kernel Fs} {place : List Bytes}
    {state : Fs × List Performed} (untouched : Untouched place state.2)
    {call : Call} (fine : ChangesAt place state.2 call →
      ∃ errno, (recording kernel call state).1 = .error errno) :
    Untouched place (recording kernel call state).2.2 :=
  ⟨fine, untouched⟩

theorem not_changesAt_of_readOnly {place : List Bytes}
    {earlier : List Performed} {call : Call} (looks : call.readOnly = true) :
    ¬ ChangesAt place earlier call := by
  intro changes
  cases call <;> first | exact changes | cases looks

theorem untouched_quiet {kernel : Kernel Fs} {place : List Bytes}
    {before after : Fs × List Performed}
    (quiet : Quiet (recording kernel) before after)
    (untouched : Untouched place before.2) : Untouched place after.2 := by
  induction quiet with
  | refl => exact untouched
  | readOnly _ call looks inductionHypothesis =>
      apply untouched_call inductionHypothesis
      intro changes
      exact absurd changes (not_changesAt_of_readOnly looks)
  | failed _ call errno fails inductionHypothesis =>
      exact untouched_call inductionHypothesis fun _ => ⟨errno, fails⟩

theorem untouched_calls {kernel : Kernel Fs} {place : List Bytes}
    {kind : Call → Prop} (elsewhere : ∀ call earlier, kind call →
      ¬ ChangesAt place earlier call) {before after : Fs × List Performed}
    (calls : Calls (recording kernel) kind before after)
    (untouched : Untouched place before.2) : Untouched place after.2 := by
  induction calls with
  | refl => exact untouched
  | call _ call fine inductionHypothesis =>
      apply untouched_call inductionHypothesis
      intro changes
      exact absurd changes (elsewhere call _ fine)

theorem recorded_of_call {kernel : Kernel Fs} {before after : Fs × List Performed}
    {call : Call} {outcome : Outcome call}
    (called : recording kernel call before = (outcome, after)) :
    after.2 = ⟨call, outcome⟩ :: before.2 := by
  rw [recording] at called
  obtain ⟨rfl, rfl⟩ := Prod.mk.inj called
  rfl

/-- One call that succeeded elsewhere. -/
theorem untouched_of_ok {kernel : Kernel Fs} {place : List Bytes}
    {before after : Fs × List Performed} {call : Call} {result : Result call}
    (called : recording kernel call before = (.ok result, after))
    (untouched : Untouched place before.2)
    (elsewhere : ¬ ChangesAt place before.2 call) : Untouched place after.2 := by
  rw [recorded_of_call called]
  exact ⟨fun changes => absurd changes elsewhere, untouched⟩

/-- A write goes where its descriptor was opened. -/
theorem untouched_wrote {kernel : Kernel Fs} {leftover : Leftover}
    {place : List Bytes} {args : WriteArgs}
    {before after : Server (Fs × List Performed)} {path : CString}
    (wrote : Wrote ⟨recording kernel, leftover⟩ args before after path)
    (elsewhere : locationOf path ≠ place)
    (untouched : Untouched place before.fs.2) : Untouched place after.fs.2 := by
  obtain ⟨fd, wanted, data, bytes, opened, moved, written, isOpened, isMoved,
    isWritten, isClosed⟩ := wrote.calls
  have openedUntouched := untouched_of_ok isOpened untouched id
  have movedUntouched : Untouched place moved.2 := by
    rw [← isMoved]
    exact untouched_call openedUntouched False.elim
  have atPath : openedAt fd moved.2 = some (locationOf path) := by
    have recorded : opened.2 = ⟨.openFile path .wronly, .ok fd⟩ :: before.fs.2 :=
      recorded_of_call isOpened
    rw [← isMoved]
    change openedAt fd opened.2 = _
    rw [recorded]
    exact if_pos rfl
  have writtenUntouched := untouched_of_ok isWritten movedUntouched (by
    intro changes
    rw [ChangesAt, atPath] at changes
    exact elsewhere (Option.some.inj changes))
  rw [← isClosed]
  exact untouched_call writtenUntouched False.elim

theorem untouched_attributesSet {kernel : Kernel Fs} {leftover : Leftover}
    {place : List Bytes} {args : SetattrArgs}
    {before after : Server (Fs × List Performed)} {path : CString}
    (set : AttributesSet ⟨recording kernel, leftover⟩ args before after path)
    (elsewhere : locationOf path ≠ place)
    (untouched : Untouched place before.fs.2) : Untouched place after.fs.2 := by
  refine untouched_calls ?_ set.calls untouched
  intro call earlier sets changes
  cases sets <;> first | exact elsewhere changes | exact changes

/-- The handlers that leave the database alone. -/
theorem untouched_of_leaves {kernel : Kernel Fs} {leftover : Leftover}
    {place : List Bytes} {message : Bytes} {type : MsgType}
    {before after : Server (Fs × List Performed)}
    (handled : dispatch ⟨recording kernel, leftover⟩ message before type =
      .ok after) (leaves : MsgType.leavesDatabase type = true)
    (elsewhere : ∀ handle path, changedHandle message type = some handle →
      storedPath before.db handle = some path → locationOf path ≠ place)
    (untouched : Untouched place before.fs.2) : Untouched place after.fs.2 := by
  have ofEither : Refused ⟨recording kernel, leftover⟩ before after ∨
      Observed ⟨recording kernel, leftover⟩ before after →
        Untouched place after.fs.2 := by
    rintro (refused | observed)
    · exact untouched_quiet refused.quiet untouched
    · exact untouched_quiet observed.quiet untouched
  cases type with
  | noop =>
      cases pure_eq_ok.mp handled
      exact untouched
  | getattr => exact ofEither (handleGetattr_observed handled)
  | readdir => exact ofEither (handleReaddir_observed handled)
  | read => exact ofEither (handleRead_observed handled)
  | write =>
      rcases handleWrite_wrote handled with refused | ⟨path, wrote⟩
      · exact ofEither (Or.inl refused)
      · obtain ⟨file, fileRead, stored⟩ := wrote.stored
        apply untouched_wrote wrote _ untouched
        exact elsewhere file path (by rw [changedHandle, fileRead]; rfl) stored
  | setattr =>
      rcases handleSetattr_set handled with refused | ⟨path, set⟩
      · exact ofEither (Or.inl refused)
      · obtain ⟨file, fileRead, stored⟩ := set.stored
        apply untouched_attributesSet set _ untouched
        exact elsewhere file path (by rw [changedHandle, fileRead]; rfl) stored
  | error =>
      cases pure_eq_ok.mp handled
      exact untouched
  | other word =>
      cases pure_eq_ok.mp handled
      exact untouched
  | mount => cases leaves
  | lookup => cases leaves
  | create => cases leaves
  | remove => cases leaves
  | rename => cases leaves
  | mkdir => cases leaves

/-- A request that asks for no change at the place makes none there. -/
theorem untouched_of_serve {kernel : Kernel Fs} {leftover : Leftover}
    {place : List Bytes} {message : Bytes}
    {before after : Server (Fs × List Performed)}
    (served : serve ⟨recording kernel, leftover⟩ message before = .ok after)
    (notAsked : ¬ AsksToChange place before message)
    (untouched : Untouched place before.fs.2) : Untouched place after.fs.2 := by
  obtain ⟨type, named, ending⟩ := serve_ending served
  have ofHandle : ∀ handle path, changedHandle message type = some handle →
      storedPath before.db handle = some path → locationOf path ≠ place := by
    intro handle path changed stored there
    exact notAsked ⟨type, path, named, there, Or.inr (by rw [changed]; exact stored)⟩
  have ofPath : ∀ {path : CString}, madePath message type = some path →
      locationOf path ≠ place := by
    intro path made there
    exact notAsked ⟨type, path, named, there, Or.inl made⟩
  cases ending with
  | refused refused => exact untouched_quiet refused.quiet untouched
  | answered leaves answered =>
      exact untouched_of_leaves (ReplyContract.dispatch_of_serve named served) leaves
        ofHandle untouched
  | mounted root rootNamed fs sent =>
      rw [fs]
      exact untouched
  | lookedUp dirPath filename handle found =>
      obtain ⟨st1, fs1, st2, first, _, second, _⟩ := found.found
      exact untouched_of_ok second (untouched_of_ok first untouched id) id
  | created path handle made sent =>
      obtain ⟨bits, _, fd, called⟩ := made.made
      apply untouched_of_ok called untouched
      exact ofPath (by rw [madePath, made.filenameRead]; rfl)
  | madeDirectory path handle made sent =>
      obtain ⟨bits, _, _, called⟩ := made.made
      apply untouched_of_ok called untouched
      exact ofPath (by rw [madePath, made.filenameRead]; rfl)
  | unlinked handle path removed gone =>
      obtain ⟨st, fs1, isDir, stat, _, removal⟩ := gone.unlinked
      have elsewhere := ofHandle handle path
        (by rw [changedHandle, gone.fhRead]; rfl) gone.stored
      have looked := untouched_of_ok stat untouched id
      split at removal
      · exact untouched_of_ok removal.2 looked elsewhere
      · exact untouched_of_ok removal looked elsewhere
  | moved handle oldPath newPath newHandle removed moved =>
      have oldElsewhere :=
        ofHandle handle oldPath
        (by rw [changedHandle, moved.fhRead]; rfl) moved.stored
      have newElsewhere := ofPath (by rw [madePath, moved.filenameRead]; rfl)
      apply untouched_of_ok moved.moved untouched
      rintro (atOld | atNew)
      · exact oldElsewhere atOld
      · exact newElsewhere atNew

/-! ## Where the handles lead -/

theorem dbPlace_eq : dbPlace = [dbFile.bytes] := rfl

/-- Only a path with room for the name leads to the file. -/
theorem length_of_leads {path : CString} (leads : locationOf path = dbPlace) :
    8 ≤ path.bytes.length := by
  have member : dbFile.bytes ∈ locationOf path := by
    rw [leads, dbPlace_eq]
    exact List.mem_singleton_self _
  exact length_le_of_mem_pieces (mem_pieces_of_mem_locationOf member)

/-- No handle leads to the file. -/
def Unled (db : Db) : Prop :=
  ∀ handle path, storedPath db handle = some path → locationOf path ≠ dbPlace

theorem length_lt_of_stringAt {bytes : Bytes} {path : CString}
    (string : stringAt bytes = some path) :
    path.bytes.length < bytes.length := by
  rw [stringAt] at string
  split at string
  · rename_i hasNul
    cases string
    refine lt_of_le_of_ne (List.takeWhile_prefix _).length_le ?_
    intro full
    have whole := (List.takeWhile_prefix _).eq_of_length full
    rw [← whole] at hasNul
    exact absurd (List.mem_takeWhile_imp hasNul) (by simp)
  · cases string

theorem unled_of_called {beyond : Fhandle} {db next : Db}
    {draws rest : List Fhandle} {filename : CString} {handle : Fhandle}
    (called : nameFindOrInsert beyond db draws filename =
      some (handle, next, rest)) (elsewhere : locationOf filename ≠ dbPlace)
    (unled : Unled db) : Unled next := by
  rcases nameFindOrInsert_eq_some called with
    ⟨_, _, _, rfl, _⟩ | ⟨_, _, rfl⟩
  · exact unled
  · intro other path stored
    rw [storedPath, getFile_paired] at stored
    split at stored
    · -- a handle read as a string is too short
      intro leads
      have short := length_lt_of_stringAt stored
      have long := length_of_leads leads
      rw [handleBytes_length] at short
      omega
    · split at stored
      · rw [Option.bind_some, stringAt_key] at stored
        cases stored
        exact elsewhere
      · exact unled other path stored

theorem unled_of_removed {beyond : Fhandle} {db next : Db} {filename : CString}
    {removed : Bool} (called : nameRemove beyond db filename =
      (.returned removed, next)) (unled : Unled db) : Unled next := by
  intro other path stored
  have deletes := nameRemove_only_deletes beyond db filename (handleBytes other)
  rw [called] at deletes
  dsimp only at deletes
  apply unled other path
  rcases deletes with gone | same
  · rw [storedPath, getFile, find, gone] at stored
    cases stored
  · rw [storedPath, getFile, find, same] at stored
    exact stored

theorem unled_of_serve {env : Env Fs} {message : Bytes} {before after : Server Fs}
    (served : serve env message before = .ok after)
    (notNamed : ¬ Names dbPlace before message) (unled : Unled before.db) :
    Unled after.db := by
  obtain ⟨type, named, ending⟩ := serve_ending served
  have ofPath : ∀ path, madePath message type = some path →
      locationOf path ≠ dbPlace := by
    intro path made there
    exact notNamed ⟨type, path, named, there, Or.inl made⟩
  cases ending with
  | refused refused =>
      rw [refused.db]
      exact unled
  | answered leaves answered =>
      rw [answered.db]
      exact unled
  | mounted root rootNamed fs sent =>
      exact unled_of_called rootNamed.inserted (by decide) unled
  | lookedUp dirPath filename handle found =>
      apply unled_of_called found.named.inserted _ unled
      intro there
      obtain ⟨dir, dirRead, stored⟩ := found.stored
      refine notNamed ⟨.lookup, joinPath dirPath filename, named, there, Or.inr ?_⟩
      simp [lookedUpPath, dirRead, stored, found.filenameRead, Except.toOption]
  | created path handle made sent =>
      apply unled_of_called made.named.inserted _ unled
      exact ofPath path (by rw [madePath, made.filenameRead]; rfl)
  | madeDirectory path handle made sent =>
      apply unled_of_called made.named.inserted _ unled
      exact ofPath path (by rw [madePath, made.filenameRead]; rfl)
  | unlinked handle path removed gone => exact unled_of_removed gone.db unled
  | moved handle oldPath newPath newHandle removed moved =>
      obtain ⟨middle, inserted, removal⟩ := moved.db
      have elsewhere := ofPath newPath (by rw [madePath, moved.filenameRead]; rfl)
      exact unled_of_removed removal (unled_of_called inserted elsewhere unled)

/-- As long as no handle leads there, only a path of the request can. -/
theorem names_of_asks {server : Server Fs} {message : Bytes}
    (unled : Unled server.db) (asks : AsksToChange dbPlace server message) :
    Names dbPlace server message := by
  obtain ⟨type, path, named, there, made | changed⟩ := asks
  · exact ⟨type, path, named, there, Or.inl made⟩
  · obtain ⟨handle, _, stored⟩ := Option.bind_eq_some_iff.mp changed
    exact absurd there (unled handle path stored)

/-! ## Whole runs -/

/-- A request of a client, and what it finds in memory. -/
def requestStep (kernel : Kernel Fs) (server : Server Fs)
    (request : Bytes × Leftover) : Option (Server Fs) :=
  step kernel server (.request request.1 request.2)

/-- No call of the handlers has changed the database's file. -/
def FileUntouched (server : Server (Fs × List Performed)) : Prop :=
  Untouched dbPlace server.fs.2

def NoneLeads (server : Server Fs) : Prop := Unled server.db

theorem serve_of_requestStep {kernel : Kernel Fs} {server next : Server Fs}
    {request : Bytes × Leftover}
    (stepped : requestStep kernel server request = some next) :
    serve ⟨kernel, request.2⟩ request.1 server = .ok next := by
  rw [requestStep, step] at stepped
  split at stepped
  · rename_i served
    cases stepped
    exact served
  · cases stepped

/-- In every run of requests: no call changes the database's file unless a
request asks for it, with its path or with a handle that leads there; and no
handle leads there unless a request has named it. -/
theorem database_file_untouched (kernel : Kernel Fs) (fs : Fs)
    (draws : List Fhandle) (requests : List (Bytes × Leftover))
    (final : Server (Fs × List Performed))
    (run : runLabels (requestStep (recording kernel)) (started (fs, []) draws)
      requests = some final) :
    (EveryStep (requestStep (recording kernel)) (fun server request =>
        ¬ AsksToChange dbPlace server request.1) (started (fs, []) draws) requests →
      FileUntouched final) ∧
    (EveryStep (requestStep (recording kernel)) (fun server request =>
        ¬ Names dbPlace server request.1) (started (fs, []) draws) requests →
      EveryStep (requestStep (recording kernel)) (fun server request =>
        ¬ AsksToChange dbPlace server request.1) (started (fs, []) draws)
        requests) := by
  constructor
  · intro notAsked
    have initially : FileUntouched (started (fs, []) draws) := trivial
    refine invariant_of_guarded_run ?_ initially notAsked run
    intro server request next untouched guard stepped
    exact untouched_of_serve (serve_of_requestStep stepped) guard untouched
  · intro notNamed
    have initially : NoneLeads (started (fs, ([] : List Performed)) draws) := by
      intro handle path stored
      cases stored
    refine EveryStep.imp_of_invariant ?_ ?_ initially notNamed
    · intro server request next unled guard stepped
      exact unled_of_serve (serve_of_requestStep stepped) guard unled
    · intro server request unled guard asks
      exact guard (names_of_asks unled asks)

def quiet (message : Bytes) : Bytes × Leftover := (message, ErrorReplies.noLeftover)

/-! A client makes another file and writes to it. -/

/-- A CREATE of `/a` with mode 0644. -/
def createOther : Bytes :=
  [8, 0, 0, 0, 47, 97, 0] ++ List.replicate 253 0 ++ [0xA4, 1, 0, 0]

/-- A WRITE of a zero at the start of the file with handle 7. -/
def writeSeven : Bytes :=
  [6, 0, 0, 0, 7, 0, 0, 0, 0, 0, 0, 0, 0, 0, 0, 0, 0, 0, 0, 0, 1, 0, 0, 0, 0, 0, 0, 0,
    0]

def otherFile : List (Bytes × Leftover) :=
  [quiet ErrorReplies.mountMessage, quiet createOther, quiet writeSeven]

/-- A request that is no LOOKUP names the place only by a path it carries. -/
theorem not_names_of_made {server : Server Fs} {message : Bytes} (type : MsgType)
    (named : messageType message = .ok type)
    (notLookup : lookedUpPath server message type = none)
    (elsewhere : ∀ path, madePath message type = some path →
      locationOf path ≠ dbPlace) : ¬ Names dbPlace server message := by
  rintro ⟨other, path, otherNamed, there, given⟩
  cases named.symm.trans otherNamed
  rcases given with made | lookedUp
  · exact elsewhere path made there
  · rw [notLookup] at lookedUp
    cases lookedUp

set_option maxRecDepth 4000 in
theorem otherFile_names_nothing :
    EveryStep (requestStep (recording treeKernel)) (fun server request =>
      ¬ Names dbPlace server request.1) (started (DirTree.onlyRoot, []) [5, 7])
        otherFile := by
  refine ⟨not_names_of_made .mount rfl rfl (by simp [madePath]), fun _ _ =>
    ⟨not_names_of_made .create rfl rfl ?_, fun _ _ =>
      ⟨not_names_of_made .write rfl rfl (by simp [madePath]), fun _ _ => trivial⟩⟩⟩
  intro path made
  cases made
  decide

set_option maxRecDepth 4000 in
theorem database_file_untouched_otherFile :
    ∃ final, runLabels (requestStep (recording treeKernel))
        (started (DirTree.onlyRoot, []) [5, 7]) otherFile = some final ∧
      final.sent.map Prod.fst = [.write 1, .create 7, .mount 5] ∧
      FileUntouched final := by
  refine ⟨_, rfl, rfl, ?_⟩
  obtain ⟨untouched, notAsked⟩ := database_file_untouched treeKernel
    DirTree.onlyRoot [5, 7] otherFile _ rfl
  exact untouched (notAsked otherFile_names_nothing)

/-! A client looks the file up and writes to it. -/

/-- The root and the database in it. -/
def onlyDbFile : Files := rootWith dbFile.bytes false

/-- A LOOKUP of `.snfs.db` in the directory with handle 5. -/
def lookupDbFile : Bytes :=
  [4, 0, 0, 0, 5, 0, 0, 0, 0, 0, 0, 0] ++ dbFile.key ++ List.replicate 247 0

set_option maxRecDepth 4000 in
theorem client_writes_database_file :
    ∃ final, runLabels (requestStep (recording treeKernel))
        (started (onlyDbFile, []) [5, 7])
        [quiet ErrorReplies.mountMessage, quiet lookupDbFile, quiet writeSeven] =
          some final ∧
      ¬ FileUntouched final := by
  refine ⟨_, rfl, ?_⟩
  intro untouched
  obtain ⟨errno, failed⟩ := untouched.2.1 rfl
  cases failed

end ChlorosSnfs.Snfs.DatabaseFile
