import ChlorosSnfs.Library.FirstFailure
import ChlorosSnfs.Snfs.ReadEof
import ChlorosSnfs.Snfs.RoundTrip

/-!
# The error codes the handlers document

Each documented request is a sequence of steps, and the first that fails is the
cause of its ERROR reply.  The comments of the handlers give a code to most
causes.  The code sent is that one except for an offset that `lseek` refuses.
-/

set_option autoImplicit false

namespace ChlorosSnfs.Snfs.ErrorCodes

open ChlorosSnfs.Library.FirstFailure
open ChlorosSnfs.Snfs.Fhandledb
open ChlorosSnfs.Snfs.Messages
open ChlorosSnfs.Snfs.Syscalls
open ChlorosSnfs.Snfs.Handlers
open ChlorosSnfs.Snfs.ServeLoop
open ChlorosSnfs.Snfs.HandlerEffects
open ChlorosSnfs.Snfs.Wire
open ChlorosSnfs.Snfs.RoundTrip
open ChlorosSnfs.Snfs.RegularFiles
open ChlorosSnfs.Snfs.ReadEof

variable {Fs : Type}

/-! ## Causes -/

/-- The step of a request that fails.  `nameStat` is the second `stat` of LOOKUP,
and WRITE opens its file without a `stat`. -/
inductive Cause where
  | unknownHandle
  | stat (errno : Errno)
  | notDirectory
  | nameStat (errno : Errno)
  | openRead (errno : Errno)
  | openWrite (errno : Errno)
  | opendir (errno : Errno)
  | listing (errno : Errno)
  | offset
  | transfer (errno : Errno)

/-- The code of a file that has vanished or cannot be asked about. -/
def vanished : Errno → SnfsError
  | .enoent => .enoent
  | _ => .einternal

/-- What the comments of the handlers say; a directory that cannot be read is
taken like a file.  They do not speak of an `open` for reading or an `opendir`
that fails on a file that is there. -/
def documented : Cause → Option SnfsError
  | .unknownHandle => some .enoent
  | .stat errno => some (vanished errno)
  | .notDirectory => some .enotdir
  | .nameStat errno =>
    some (if errno = .enotdir then .ebadop else vanished errno)
  | .openRead errno => if errno = .enoent then some .enoent else none
  | .openWrite errno => some (vanished errno)
  | .opendir errno =>
    if errno = .enoent then some .enoent
    else if errno = .enotdir then some .enotdir
    else none
  | .listing _ => some .einternal
  | .offset => some .ebadop
  | .transfer _ => some .einternal

/-! ## The steps of a request -/

def pathSteps (fh : Argument Fhandle) : Steps (Server Fs) Cause CString := do
  let handle ← given fh
  demand (fun server => storedPath server.db handle) .unknownHandle

section Requests

variable (env : Env Fs)

def fileSteps (fh : Argument Fhandle) :
    Steps (Server Fs) Cause (CString × Stat) := do
  let path ← pathSteps fh
  let st ← attempt (syscall env (.stat path)) Cause.stat
  return (path, st)

def directorySteps (dir : Argument Fhandle) :
    Steps (Server Fs) Cause CString := do
  let (path, st) ← fileSteps env dir
  check (sIsdir st.mode) .notDirectory
  return path

def getattrSteps (args : GetattrArgs) : Steps (Server Fs) Cause Unit := do
  let _ ← fileSteps env args.fh

/-- The loop over the directory; it stops where an entry has no room. -/
def listSteps (stream : Nat) (count : UInt64) :
    Steps (Server Fs) Cause (List Snfsentry) := fun server => do
  let result ← given (readEntries env stream (entriesArraySize count).toNat
    count.toNat 0 server) server
  attempt (fun _ => result.1) Cause.listing server

def readdirSteps (args : ReaddirArgs) : Steps (Server Fs) Cause Unit := do
  let dirPath ← directorySteps env args.dir
  let stream ← attempt (syscall env (.opendir dirPath)) Cause.opendir
  let count ← given args.count
  let _ ← listSteps env stream count

def lookupSteps (args : LookupArgs) : Steps (Server Fs) Cause Unit := do
  let dirPath ← directorySteps env args.dir
  let filename ← given args.filename
  let _ ← attempt (syscall env (.stat (joinPath dirPath filename))) Cause.nameStat

def readSteps (args : ReadArgs) : Steps (Server Fs) Cause Unit := do
  let (path, st) ← fileSteps env args.file
  let fd ← attempt (syscall env (.openFile path .rdonly)) Cause.openRead
  let offset ← given args.offset
  let _ ← attempt (syscall env (.lseek fd offset)) fun _ => .offset
  if offset < st.size then
    let count ← given args.count
    let _ ← attempt (syscall env (.read fd count)) Cause.transfer

def writeSteps (args : WriteArgs) : Steps (Server Fs) Cause Unit := do
  let path ← pathSteps args.file
  let fd ← attempt (syscall env (.openFile path .wronly)) Cause.openWrite
  let offset ← given args.offset
  let _ ← attempt (syscall env (.lseek fd offset)) fun _ => .offset
  let count ← given args.count
  let data ← given (args.data count)
  let _ ← attempt (syscall env (.write fd data)) Cause.transfer

/-- A SETATTR reports attributes it could not set in its reply. -/
def setattrSteps (args : SetattrArgs) : Steps (Server Fs) Cause Unit := do
  let _ ← fileSteps env args.file

/-- The first step of a request that fails, for the documented handlers. -/
def failureOf (message : Bytes) (server : Server Fs) : MsgType → Option Cause
  | .getattr => firstFailure (getattrSteps env (getattrArgs message)) server
  | .readdir => firstFailure (readdirSteps env (readdirArgs message)) server
  | .lookup => firstFailure (lookupSteps env (lookupArgs message)) server
  | .read => firstFailure (readSteps env (readArgs message)) server
  | .write => firstFailure (writeSteps env (writeArgs message)) server
  | .setattr => firstFailure (setattrSteps env (setattrArgs message)) server
  | _ => none

end Requests

/-- The requests whose handlers document their errors this way. -/
def documentsErrors : MsgType → Bool
  | .getattr => true
  | .readdir => true
  | .lookup => true
  | .read => true
  | .write => true
  | .setattr => true
  | _ => false

/-- A failing step is answered with the documented code, and there is no ERROR
reply without one. -/
structure AnsweredAsDocumented (failure : Option Cause) (before after : Server Fs) :
    Prop where
  coded : ∀ cause error, failure = some cause → documented cause = some error →
    ∃ size, after.sent = (.error error, size) :: before.sent
  caused : ∀ error size, after.sent = (.error error, size) :: before.sent →
    failure ≠ none

/-- `lseek` gives the offset, or -1 with `EINVAL`. -/
def SeeksOffsets (kernel : Kernel Fs) : Prop :=
  ∀ fd offset fs,
    (0 ≤ offset.toInt ∧ (kernel (.lseek fd offset) fs).1 = .ok offset) ∨
      (kernel (.lseek fd offset) fs).1 = .error (.other 22)

/-! ## What a reply tells of its cause -/

/-- A request whose first failure is `failure` and how it is answered. -/
inductive Told (before after : Server Fs) : Option Cause → Prop
  | answered {reply : Reply} {size : Nat}
      (sent : after.sent = (reply, size) :: before.sent)
      (notError : reply.isError = false) : Told before after none
  | refused {cause : Cause} {error : SnfsError} {size : Nat}
      (sent : after.sent = (.error error, size) :: before.sent)
      (code : ∀ other, documented cause = some other → error = other)
      (notOffset : cause ≠ .offset) : Told before after (some cause)
  | misplaced {reply : Reply} {size : Nat}
      (sent : after.sent = (reply, size) :: before.sent)
      (otherReply : reply ≠ .error .ebadop) : Told before after (some .offset)

theorem answeredAsDocumented_iff_of_told {failure : Option Cause}
    {before after : Server Fs} (told : Told before after failure) :
    AnsweredAsDocumented failure before after ↔ failure ≠ some .offset := by
  cases told with
  | answered sent notError =>
      refine iff_of_true ⟨by simp, ?_⟩ (by simp)
      intro error size errorSent
      rw [sent] at errorSent
      cases errorSent
      cases notError
  | @refused cause error size sent code notOffset =>
      refine iff_of_true ⟨?_, by simp⟩ (by simpa using notOffset)
      intro other documentedCode same isCode
      cases same
      rw [← code documentedCode isCode]
      exact ⟨size, sent⟩
  | misplaced sent otherReply =>
      refine iff_of_false ?_ (by simp)
      intro documented
      obtain ⟨size, coded⟩ := documented.coded .offset .ebadop rfl rfl
      rw [sent] at coded
      cases coded
      exact otherReply rfl

theorem told_of_done {Last : Type} {steps : Steps (Server Fs) Cause Last}
    {before next after : Server Fs} {last : Last} {reply : Reply} {size : Nat}
    (done : steps before = .ok (last, next))
    (sent : after.sent = (reply, size) :: before.sent)
    (notError : reply.isError = false) :
    Told before after (firstFailure steps before) := by
  rw [firstFailure_of_ok done]
  exact .answered sent notError

theorem told_of_failed {Last : Type} {steps : Steps (Server Fs) Cause Last}
    {before after : Server Fs} {cause : Cause}
    (failed : steps before = .error (some cause))
    (told : Told before after (some cause)) :
    Told before after (firstFailure steps before) := by
  rw [firstFailure_of_error failed]
  exact told

theorem code_vanished {errno : Errno} :
    errorOf .einternal .einternal errno = vanished errno := by
  cases errno <;> rfl

section Handlers

variable {env : Env Fs} {server found after : Server Fs} {path : CString}
  {st : Stat} {Last : Type}

theorem listSteps_of_read {stream : Nat} {count : UInt64} {last : Server Fs}
    {entries : Except Errno (List Snfsentry)}
    (read : readEntries env stream (entriesArraySize count).toNat count.toNat 0
      server = .ok (entries, last)) :
    listSteps env stream count server =
      attempt (fun _ => (entries, last)) Cause.listing server := by
  rw [listSteps, given_of_ok read]
  rfl

theorem pathSteps_of_stored {fh : Argument Fhandle} {handle : Fhandle}
    (read : fh = .ok handle) (stored : storedPath server.db handle = some path) :
    pathSteps fh server = .ok (path, server) := by
  rw [pathSteps, bind_of_ok (given_of_ok read)]
  exact demand_of_some stored

theorem pathSteps_of_absent {fh : Argument Fhandle} {handle : Fhandle}
    (read : fh = .ok handle) (absent : getFile server.db handle = none) :
    pathSteps fh server = .error (some .unknownHandle) := by
  have notStored : storedPath server.db handle = none := by
    rw [storedPath, absent]
    rfl
  rw [pathSteps, bind_of_ok (given_of_ok read)]
  exact demand_of_none notStored

theorem told_unknownHandle :
    Told server (handleError .enoent server) (some .unknownHandle) :=
  .refused rfl (fun _ => Option.some.inj) (by simp)

theorem fileSteps_of_found {fh : Argument Fhandle}
    (isFound : FileFound env fh server found path st) :
    fileSteps env fh server = .ok ((path, st), found) := by
  obtain ⟨handle, read, stored⟩ := isFound.stored
  rw [fileSteps, bind_of_ok (pathSteps_of_stored read stored),
    bind_of_ok (attempt_of_ok isFound.stats)]
  rfl

theorem told_of_missing {fh : Argument Fhandle}
    (missing : FileMissing env fh server after) :
    ∃ cause, fileSteps env fh server = .error (some cause) ∧
      Told server after (some cause) := by
  cases missing with
  | unknown read absent =>
      exact ⟨.unknownHandle, bind_of_error (pathSteps_of_absent read absent),
        told_unknownHandle⟩
  | @statFails _ _ errno last read stored called =>
      refine ⟨.stat errno, ?_, .refused
        (congrArg (List.cons _) (kept_of_syscall called).sent) ?_ (by simp)⟩
      · rw [fileSteps, bind_of_ok (pathSteps_of_stored read stored)]
        exact bind_of_error (attempt_of_error called)
      · intro other code
        rw [code_vanished]
        exact Option.some.inj code

theorem directorySteps_of_found {dir : Argument Fhandle}
    (isDirectory : DirectoryFound env dir server found path) :
    directorySteps env dir server = .ok (path, found) := by
  obtain ⟨st, isFound, directory⟩ := isDirectory.isFound
  rw [directorySteps, bind_of_ok (fileSteps_of_found isFound)]
  dsimp only
  rw [bind_of_ok (check_of_true directory)]
  rfl

theorem told_of_noDirectory {dir : Argument Fhandle}
    (missing : DirectoryMissing env dir server after) :
    ∃ cause, directorySteps env dir server = .error (some cause) ∧
      Told server after (some cause) := by
  cases missing with
  | noFile missing =>
      obtain ⟨cause, failed, told⟩ := told_of_missing missing
      exact ⟨cause, bind_of_error failed, told⟩
  | notDirectory isFound isOther =>
      refine ⟨.notDirectory, ?_, .refused
        (congrArg (List.cons _) isFound.looked.sent) ?_ (by simp)⟩
      · rw [directorySteps, bind_of_ok (fileSteps_of_found isFound)]
        exact bind_of_error (check_of_false isOther)
      · intro other code
        exact Option.some.inj code

theorem getattr_told {args : GetattrArgs}
    (handled : handleGetattr env args server = .ok after) :
    Told server after (firstFailure (getattrSteps env args) server) := by
  rcases file_cases handled with missing | ⟨path, st, found, isFound, handled⟩
  · obtain ⟨cause, failed, told⟩ := told_of_missing missing
    exact told_of_failed (bind_of_error failed) told
  · cases pure_eq_ok.mp handled
    have done : getattrSteps env args server = .ok ((), found) :=
      bind_of_ok (fileSteps_of_found isFound)
    exact told_of_done done (congrArg (List.cons _) isFound.looked.sent) rfl

theorem setattr_told {args : SetattrArgs}
    (handled : handleSetattr env args server = .ok after) :
    Told server after (firstFailure (setattrSteps env args) server) := by
  rcases handleSetattr_ends handled with
    missing | ⟨path, st, found, isFound, set⟩
  · obtain ⟨cause, failed, told⟩ := told_of_missing missing
    exact told_of_failed (bind_of_error failed) told
  · obtain ⟨whichSet, sent⟩ := set.sent
    have done : setattrSteps env args server = .ok ((), found) :=
      bind_of_ok (fileSteps_of_found isFound)
    exact told_of_done done sent rfl

theorem readdir_told {args : ReaddirArgs}
    (handled : handleReaddir env args server = .ok after) :
    Told server after (firstFailure (readdirSteps env args) server) := by
  cases handleReaddir_ends handled with
  | missing missing =>
      obtain ⟨cause, failed, told⟩ := told_of_noDirectory missing
      exact told_of_failed (bind_of_error failed) told
  | @openFails _ errno found _ isDirectory called =>
      have failed : readdirSteps env args server =
          .error (some (.opendir errno)) := by
        rw [readdirSteps, bind_of_ok (directorySteps_of_found isDirectory)]
        exact bind_of_error (attempt_of_error called)
      refine told_of_failed failed (.refused (congrArg (List.cons _)
        (isDirectory.looked.failed called).sent) ?_ (by simp))
      intro other code
      cases errno with
      | enoent => exact Option.some.inj code
      | enotdir => exact Option.some.inj code
      | eacces => cases code
      | other number => cases code
  | @listFails _ _ _ errno _ _ isOpen read =>
      have looked := readEntries_looked isOpen.looked read
      obtain ⟨found, isDirectory, opens⟩ := isOpen.opens
      have failed : readdirSteps env args server =
          .error (some (.listing errno)) := by
        rw [readdirSteps, bind_of_ok (directorySteps_of_found isDirectory),
          bind_of_ok (attempt_of_ok opens),
          bind_of_ok (given_of_ok isOpen.countRead)]
        exact bind_of_error ((listSteps_of_read read).trans (attempt_of_error rfl))
      exact told_of_failed failed (.refused (congrArg (List.cons _) looked.sent)
        (fun _ => Option.some.inj) (by simp))
  | @listed _ _ _ _ _ last isOpen read =>
      have looked := readEntries_looked isOpen.looked read
      obtain ⟨found, isDirectory, opens⟩ := isOpen.opens
      have done : readdirSteps env args server = .ok ((), last) := by
        rw [readdirSteps, bind_of_ok (directorySteps_of_found isDirectory),
          bind_of_ok (attempt_of_ok opens),
          bind_of_ok (given_of_ok isOpen.countRead)]
        exact bind_of_ok ((listSteps_of_read read).trans (attempt_of_ok rfl))
      exact told_of_done done (congrArg (List.cons _) looked.sent) rfl

theorem lookup_told {args : LookupArgs}
    (handled : handleLookup env args server = .ok after) :
    Told server after (firstFailure (lookupSteps env args) server) := by
  cases handleLookup_ends handled with
  | missing missing =>
      obtain ⟨cause, failed, told⟩ := told_of_noDirectory missing
      exact told_of_failed (bind_of_error failed) told
  | @notThere _ _ errno found _ isDirectory filenameRead called =>
      have failed : lookupSteps env args server =
          .error (some (.nameStat errno)) := by
        rw [lookupSteps, bind_of_ok (directorySteps_of_found isDirectory),
          bind_of_ok (given_of_ok filenameRead)]
        exact bind_of_error (attempt_of_error called)
      refine told_of_failed failed (.refused (congrArg (List.cons _)
        (isDirectory.looked.failed called).sent) ?_ (by simp))
      intro other code
      cases errno with
      | enoent => exact Option.some.inj code
      | enotdir => exact Option.some.inj code
      | eacces => exact Option.some.inj code
      | other number => exact Option.some.inj code
  | @given _ _ _ _ found middle _ isDirectory filenameRead _ stats inserted =>
      have kept := (isDirectory.looked.readOnly stats rfl).toKept
      obtain ⟨_, _, sent⟩ := findOrInsert_eq_ok inserted
      have done : lookupSteps env args server = .ok ((), middle) := by
        rw [lookupSteps, bind_of_ok (directorySteps_of_found isDirectory),
          bind_of_ok (given_of_ok filenameRead)]
        exact bind_of_ok (attempt_of_ok stats)
      exact told_of_done done (congrArg (List.cons _) (sent.trans kept.sent)) rfl

/-! ## READ and WRITE -/

theorem seek_cases (seeks : SeeksOffsets env.kernel) {fd : Nat}
    {wanted : Int64} {outcome : Except Errno Int64} {opened moved : Server Fs}
    (called : syscall env (.lseek fd wanted) opened = (outcome, moved)) :
    (outcome = .ok wanted ∧ 0 ≤ wanted.toInt) ∨ ∃ errno, outcome = .error errno := by
  have result := congrArg Prod.fst (kernel_of_syscall called)
  rcases seeks fd wanted opened.fs with ⟨nonnegative, succeeds⟩ | fails
  · rw [succeeds] at result
    exact Or.inl ⟨result.symm, nonnegative⟩
  · rw [fails] at result
    exact Or.inr ⟨_, result.symm⟩

theorem readSteps_of_opened {args : ReadArgs} {opened : Server Fs} {fd : Nat}
    {wanted : Int64}
    (isOpen : ReadOpened env args server opened path st fd wanted) :
    readSteps env args server = (do
      let _ ← attempt (syscall env (.lseek fd wanted)) fun _ => Cause.offset
      if wanted < st.size then
        let count ← given args.count
        let _ ← attempt (syscall env (.read fd count)) Cause.transfer) opened := by
  obtain ⟨found, isFound, opens⟩ := isOpen.opens
  rw [readSteps, bind_of_ok (fileSteps_of_found isFound)]
  dsimp only
  rw [bind_of_ok (attempt_of_ok opens), bind_of_ok (given_of_ok isOpen.offsetRead)]

theorem readSteps_of_placed {args : ReadArgs} {moved : Server Fs} {fd : Nat}
    {wanted : Int64} {count : UInt64}
    (placed : ReadPlaced env args server moved path st fd wanted count) :
    readSteps env args server = (do
      if wanted < st.size then
        let count ← given args.count
        let _ ← attempt (syscall env (.read fd count)) Cause.transfer) moved := by
  obtain ⟨opened, isOpen, moves⟩ := placed.isOpen
  rw [readSteps_of_opened isOpen, bind_of_ok (attempt_of_ok moves)]

/-- The reply of both handlers to an offset that `lseek` refuses. -/
theorem told_refusedOffset {moved : Server Fs} {fd : Nat} {errno : Errno}
    (looked : Looked env server moved) :
    Told server (closeFd env fd (handleError
      (if offsetOf (.error errno) < 0 then .einternal else .ebadop) moved))
      (some .offset) := by
  have negative : offsetOf (.error errno) < 0 := by
    rw [offsetOf]
    decide
  rw [if_pos negative]
  exact .misplaced (congrArg (List.cons _) looked.sent) (by simp)

theorem told_transferFails {last : Server Fs} {fd : Nat} {errno : Errno}
    (looked : Looked env server last) :
    Told server (closeFd env fd (handleError .einternal last))
      (some (.transfer errno)) :=
  .refused (congrArg (List.cons _) looked.sent) (fun _ => Option.some.inj)
    (by simp)

theorem read_told (seeks : SeeksOffsets env.kernel) {args : ReadArgs}
    (handled : handleRead env args server = .ok after) :
    Told server after (firstFailure (readSteps env args) server) := by
  cases handleRead_ends handled with
  | missing missing =>
      obtain ⟨cause, failed, told⟩ := told_of_missing missing
      exact told_of_failed (bind_of_error failed) told
  | @openFails _ _ errno found _ isFound called =>
      have failed : readSteps env args server =
          .error (some (.openRead errno)) := by
        rw [readSteps, bind_of_ok (fileSteps_of_found isFound)]
        exact bind_of_error (attempt_of_error called)
      refine told_of_failed failed (.refused (congrArg (List.cons _)
        (isFound.looked.failed called).sent) ?_ (by simp))
      intro other code
      cases errno with
      | enoent => exact Option.some.inj code
      | enotdir => cases code
      | eacces => cases code
      | other number => cases code
  | @seekFails _ _ _ wanted _ _ _ isOpen called elsewhere =>
      rcases seek_cases seeks called with ⟨rfl, nonnegative⟩ | ⟨errno, rfl⟩
      · rw [offsetOf, Int64.lt_iff_toInt_lt, Int64.toInt_zero] at elsewhere
        rcases elsewhere with negative | different
        · omega
        · exact absurd rfl different
      · have failed : readSteps env args server = .error (some .offset) := by
          rw [readSteps_of_opened isOpen]
          exact bind_of_error (attempt_of_error called)
        exact told_of_failed failed
          (told_refusedOffset (isOpen.looked.readOnly called rfl))
  | @readFails _ _ _ _ _ errno _ _ placed inside called =>
      have failed : readSteps env args server =
          .error (some (.transfer errno)) := by
        rw [readSteps_of_placed placed, if_pos inside,
          bind_of_ok (given_of_ok placed.countRead)]
        exact bind_of_error (attempt_of_error called)
      exact told_of_failed failed
        (told_transferFails (placed.looked.failed called))
  | @behind _ _ _ _ _ moved placed outside =>
      have done : readSteps env args server = .ok ((), moved) := by
        rw [readSteps_of_placed placed, if_neg outside]
        rfl
      exact told_of_done done (congrArg (List.cons _) placed.looked.sent) rfl
  | @transferred _ _ _ _ _ _ _ last placed inside called =>
      have done : readSteps env args server = .ok ((), last) := by
        rw [readSteps_of_placed placed, if_pos inside,
          bind_of_ok (given_of_ok placed.countRead)]
        exact bind_of_ok (attempt_of_ok called)
      exact told_of_done done
        (congrArg (List.cons _) (placed.looked.readOnly called rfl).sent) rfl

theorem writeSteps_of_opened {args : WriteArgs} {file : Fhandle}
    {opened : Server Fs} {fd : Nat} {wanted : Int64}
    (fileRead : args.file = .ok file)
    (stored : storedPath server.db file = some path)
    (opens : syscall env (.openFile path .wronly) server = (.ok fd, opened))
    (offsetRead : args.offset = .ok wanted) :
    writeSteps env args server = (do
      let _ ← attempt (syscall env (.lseek fd wanted)) fun _ => Cause.offset
      let count ← given args.count
      let data ← given (args.data count)
      let _ ← attempt (syscall env (.write fd data)) Cause.transfer) opened := by
  rw [writeSteps, bind_of_ok (pathSteps_of_stored fileRead stored),
    bind_of_ok (attempt_of_ok opens), bind_of_ok (given_of_ok offsetRead)]

/-- A WRITE that goes on has a file at its offset, or an offset that `lseek`
refused. -/
theorem writeSteps_of_placed (seeks : SeeksOffsets env.kernel)
    {args : WriteArgs} {moved : Server Fs} {fd : Nat} {wanted : Int64}
    {data : Bytes}
    (placed : WritePlaced env args server moved path fd wanted data) :
    writeSteps env args server = (do
        let _ ← attempt (syscall env (.write fd data)) Cause.transfer) moved ∨
      writeSteps env args server = .error (some .offset) := by
  obtain ⟨file, fileRead, stored⟩ := placed.stored
  obtain ⟨outcome, opened, opens, moves, _⟩ := placed.isOpen
  obtain ⟨count, countRead, dataRead⟩ := placed.dataRead
  rw [writeSteps_of_opened fileRead stored opens placed.offsetRead]
  rcases seek_cases seeks moves with ⟨rfl, _⟩ | ⟨errno, rfl⟩
  · left
    rw [bind_of_ok (attempt_of_ok moves), bind_of_ok (given_of_ok countRead),
      bind_of_ok (given_of_ok dataRead)]
  · exact Or.inr (bind_of_error (attempt_of_error moves))

theorem write_told (seeks : SeeksOffsets env.kernel) {args : WriteArgs}
    (handled : handleWrite env args server = .ok after) :
    Told server after (firstFailure (writeSteps env args) server) := by
  cases handleWrite_ends handled with
  | unknown fileRead absent =>
      exact told_of_failed (bind_of_error (pathSteps_of_absent fileRead absent))
        told_unknownHandle
  | @openFails _ _ errno opened fileRead stored called =>
      have failed : writeSteps env args server =
          .error (some (.openWrite errno)) := by
        rw [writeSteps, bind_of_ok (pathSteps_of_stored fileRead stored)]
        exact bind_of_error (attempt_of_error called)
      refine told_of_failed failed (.refused (congrArg (List.cons _)
        (kept_of_syscall called).sent) ?_ (by simp))
      intro other code
      rw [code_vanished]
      exact Option.some.inj code
  | @seekFails _ _ fd wanted _ opened moved fileRead stored opens offsetRead
      called elsewhere =>
      rcases seek_cases seeks called with ⟨rfl, _⟩ | ⟨errno, rfl⟩
      · exact absurd rfl elsewhere
      · have failed : writeSteps env args server = .error (some .offset) := by
          rw [writeSteps_of_opened fileRead stored opens offsetRead]
          exact bind_of_error (attempt_of_error called)
        have looked := ((Looked.refl env server).readOnly opens rfl).readOnly
          called rfl
        exact told_of_failed failed (told_refusedOffset looked)
  | @writeFails _ _ _ _ errno _ last placed called =>
      have looked := placed.looked.failed called
      rcases writeSteps_of_placed seeks placed with goesOn | refused
      · have failed : writeSteps env args server =
            .error (some (.transfer errno)) := by
          rw [goesOn]
          exact bind_of_error (attempt_of_error called)
        exact told_of_failed failed (told_transferFails looked)
      · exact told_of_failed refused
          (.misplaced (congrArg (List.cons _) looked.sent) (by simp))
  | @written _ fd _ data bytes moved last placed called =>
      have kept := placed.looked.toKept.trans (kept_of_syscall called)
      have sent : (closeFd env fd (sendReply (.write (UInt64.ofNat bytes))
          (snfsRepSize sizeofWriteRep) last)).sent =
          (.write (UInt64.ofNat bytes), snfsRepSize sizeofWriteRep) ::
            server.sent := congrArg (List.cons _) kept.sent
      rcases writeSteps_of_placed seeks placed with goesOn | refused
      · have done : writeSteps env args server = .ok ((), last) := by
          rw [goesOn]
          exact bind_of_ok (attempt_of_ok called)
        exact told_of_done done sent rfl
      · exact told_of_failed refused (.misplaced sent (by simp))

theorem serve_told (seeks : SeeksOffsets env.kernel) {message : Bytes}
    {type : MsgType} (named : messageType message = .ok type)
    (isDocumented : documentsErrors type = true)
    (served : serve env message server = .ok after) :
    Told server after (failureOf env message server type) := by
  rw [serve_of_messageType named] at served
  cases type with
  | getattr => exact getattr_told served
  | readdir => exact readdir_told served
  | lookup => exact lookup_told served
  | read => exact read_told seeks served
  | write => exact write_told seeks served
  | setattr => exact setattr_told served
  | _ => cases isDocumented

/-- Every documented request is answered as its comment says, unless its first
failing step is an offset that `lseek` refuses. -/
theorem documentedCode_iff (seeks : SeeksOffsets env.kernel) {message : Bytes}
    {type : MsgType} (named : messageType message = .ok type)
    (isDocumented : documentsErrors type = true)
    (served : serve env message server = .ok after) :
    AnsweredAsDocumented (failureOf env message server type) server after ↔
      failureOf env message server type ≠ some .offset :=
  answeredAsDocumented_iff_of_told (serve_told seeks named isDocumented served)

end Handlers

/-! ## On a disk -/

theorem Disk.seeksOffsets : SeeksOffsets Disk.kernel := by
  intro number offset disk
  cases cursor : Disk.view.cursor disk number with
  | none =>
      have fails : disk.perform (.lseek number offset) = none := by
        rw [Disk.perform, cursor]
      exact Or.inr (congrArg Prod.fst (Disk.kernel_of_none fails))
  | some opened =>
      by_cases nonnegative : 0 ≤ offset.toInt
      · have performed : disk.perform (.lseek number offset) =
            some (offset, { disk with
              cursor := some { opened with position := offset.toInt.toNat } }) := by
          rw [Disk.perform, cursor]
          exact if_pos nonnegative
        exact Or.inl ⟨nonnegative,
          congrArg Prod.fst (Disk.kernel_of_perform performed)⟩
      · have fails : disk.perform (.lseek number offset) = none := by
          rw [Disk.perform, cursor]
          exact if_neg nonnegative
        exact Or.inr (congrArg Prod.fst (Disk.kernel_of_none fails))

/-- The server with `/a`, and nothing in its memory. -/
def diskEnv : Env Disk := ⟨Disk.kernel, noMemory⟩

set_option maxRecDepth 4000 in
/-- A READ of a handle that nobody gave. -/
theorem documentedCode_iff_unknownHandle : ∃ after,
    serve diskEnv (Request.sent noGap [] (.read 8 0 2)) serverWithA = .ok after ∧
    AnsweredAsDocumented (some .unknownHandle) serverWithA after := by
  have served : ∃ after, serve diskEnv (Request.sent noGap [] (.read 8 0 2))
      serverWithA = .ok after := ⟨_, rfl⟩
  obtain ⟨after, served⟩ := served
  have failure : failureOf diskEnv (Request.sent noGap [] (.read 8 0 2))
      serverWithA .read = some .unknownHandle := rfl
  have iff := documentedCode_iff Disk.seeksOffsets
    (Request.messageType_sent noGap [] (.read 8 0 2)) rfl served
  rw [Request.type, failure] at iff
  exact ⟨after, served, iff.mpr (by simp)⟩

set_option maxRecDepth 4000 in
/-- An offset of -1 is answered with an internal error by READ, and WRITE writes
at the start of the file. -/
theorem refusedOffset_not_documented :
    (∃ after size,
      serve diskEnv (Request.sent noGap [] (.read 9 (-1) 2)) serverWithA =
        .ok after ∧
      failureOf diskEnv (Request.sent noGap [] (.read 9 (-1) 2)) serverWithA
        .read = some .offset ∧
      after.sent = [(.error .einternal, size)] ∧
      ¬ AnsweredAsDocumented (some .offset) serverWithA after) ∧
    ∃ after size,
      serve diskEnv (Request.sent noGap [] (.write 9 (-1) 1 [33] rfl))
        serverWithA = .ok after ∧
      failureOf diskEnv (Request.sent noGap [] (.write 9 (-1) 1 [33] rfl))
        serverWithA .write = some .offset ∧
      after.sent = [(.write 1, size)] ∧
      ¬ AnsweredAsDocumented (some .offset) serverWithA after := by
  refine ⟨⟨_, _, rfl, rfl, rfl, ?_⟩, _, _, rfl, rfl, rfl, ?_⟩
  · intro documented
    obtain ⟨size, coded⟩ := documented.coded .offset .ebadop rfl rfl
    cases coded
  · intro documented
    obtain ⟨size, coded⟩ := documented.coded .offset .ebadop rfl rfl
    cases coded

end ChlorosSnfs.Snfs.ErrorCodes
