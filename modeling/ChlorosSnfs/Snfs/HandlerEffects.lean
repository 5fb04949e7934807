import ChlorosSnfs.Snfs.ServeLoop

/-!
# What each handler can do

One lemma for each handler says how it can end.  `Refused` is an ERROR reply
before which the handler only looked at the files or had a call fail; `Answered`
is another reply that leaves the database alone.  The handlers that change the
database have their own ending, with the calls that succeeded on the way.
-/

set_option autoImplicit false

namespace ChlorosSnfs.Snfs.HandlerEffects

open ChlorosSnfs.Snfs.Fhandledb
open ChlorosSnfs.Snfs.Messages
open ChlorosSnfs.Snfs.Syscalls
open ChlorosSnfs.Snfs.Handlers
open ChlorosSnfs.Snfs.ServeLoop

variable {Fs : Type}

theorem bind_eq_ok {ε α β : Type} {first : Except ε α}
    {second : α → Except ε β} {result : β} :
    (first >>= second) = .ok result ↔
      ∃ value, first = .ok value ∧ second value = .ok result := by
  cases first <;> simp [bind, Except.bind]

theorem pure_eq_ok {ε α : Type} {value result : α} :
    (pure value : Except ε α) = .ok result ↔ value = result := by
  simp [pure, Except.pure]

theorem map_eq_ok {ε α β : Type} {result : Except ε α} {f : α → β} {value : β} :
    result.map f = .ok value ↔ ∃ before, result = .ok before ∧ f before = value := by
  cases result <;> simp [Except.map]

@[simp]
theorem ok_bind {ε α β : Type} (value : α) (next : α → Except ε β) :
    (Except.ok value >>= next) = next value := rfl

/-! ## Endings -/

/-- The database is as it was and nothing has been sent. -/
structure Kept (before after : Server Fs) : Prop where
  db : after.db = before.db
  draws : after.draws = before.draws
  sent : after.sent = before.sent

/-- Calls that only looked or failed have been made, and nothing else. -/
structure Looked (env : Env Fs) (before after : Server Fs) : Prop
    extends Kept before after where
  quiet : Quiet env.kernel before.fs after.fs

/-- Calls that changed no name have been made, and nothing else. -/
structure Spared (env : Env Fs) (before after : Server Fs) : Prop
    extends Kept before after where
  inPlace : InPlace env.kernel before.fs after.fs

/-- An ERROR reply, and everything as it was. -/
structure Refused (env : Env Fs) (before after : Server Fs) : Prop where
  quiet : Quiet env.kernel before.fs after.fs
  db : after.db = before.db
  draws : after.draws = before.draws
  reply : ∃ error, after.sent =
    (.error error, snfsRepSize sizeofErrorRep) :: before.sent

/-- A reply that is no ERROR and gives no handle, and the database and all names
as they were. -/
structure Answered (env : Env Fs) (before after : Server Fs) : Prop where
  inPlace : InPlace env.kernel before.fs after.fs
  db : after.db = before.db
  draws : after.draws = before.draws
  reply : ∃ reply size, after.sent = (reply, size) :: before.sent ∧
    reply.isError = false ∧ reply.givenHandle = none

/-- A reply that is no ERROR and gives no handle, after calls that only looked or
failed. -/
structure Observed (env : Env Fs) (before after : Server Fs) : Prop where
  quiet : Quiet env.kernel before.fs after.fs
  db : after.db = before.db
  draws : after.draws = before.draws
  reply : ∃ reply size, after.sent = (reply, size) :: before.sent ∧
    reply.isError = false ∧ reply.givenHandle = none

theorem Observed.answered {env : Env Fs} {before after : Server Fs}
    (observed : Observed env before after) : Answered env before after :=
  ⟨.quiet observed.quiet, observed.db, observed.draws, observed.reply⟩

/-- The name a handle leads to, as the handlers read it. -/
def storedPath (db : Db) (handle : Fhandle) : Option CString :=
  (getFile db handle).bind stringAt

theorem storedPath_eq_some {db : Db} {handle : Fhandle} {value : Bytes}
    {path : CString} (known : getFile db handle = some value)
    (string : asString value = .ok path) :
    storedPath db handle = some path := by
  rw [asString] at string
  rw [storedPath, known, Option.bind_some]
  split at string
  · rename_i found
    cases string
    exact found
  · cases string

theorem Kept.refl (server : Server Fs) : Kept server server :=
  ⟨rfl, rfl, rfl⟩

theorem Kept.trans {first second third : Server Fs}
    (kept : Kept first second) (more : Kept second third) :
    Kept first third :=
  ⟨more.db.trans kept.db, more.draws.trans kept.draws,
    more.sent.trans kept.sent⟩

theorem Looked.refl (env : Env Fs) (server : Server Fs) :
    Looked env server server :=
  ⟨Kept.refl server, .refl _⟩

theorem kernel_of_syscall {env : Env Fs} {call : Call}
    {before after : Server Fs} {outcome : Outcome call}
    (called : syscall env call before = (outcome, after)) :
    env.kernel call before.fs = (outcome, after.fs) := by
  rw [syscall] at called
  cases called
  rfl

theorem kept_of_syscall {env : Env Fs} {call : Call}
    {before after : Server Fs} {outcome : Outcome call}
    (called : syscall env call before = (outcome, after)) :
    Kept before after := by
  rw [syscall] at called
  cases called
  exact ⟨rfl, rfl, rfl⟩

theorem Looked.readOnly {env : Env Fs} {start before after : Server Fs}
    (looked : Looked env start before) {call : Call} {outcome : Outcome call}
    (called : syscall env call before = (outcome, after))
    (looks : call.readOnly = true) : Looked env start after := by
  refine ⟨looked.toKept.trans (kept_of_syscall called), ?_⟩
  have quiet := Quiet.readOnly looked.quiet call looks
  rw [kernel_of_syscall called] at quiet
  exact quiet

theorem Looked.failed {env : Env Fs} {start before after : Server Fs}
    (looked : Looked env start before) {call : Call} {errno : Errno}
    (called : syscall env call before = (.error errno, after)) :
    Looked env start after := by
  refine ⟨looked.toKept.trans (kept_of_syscall called), ?_⟩
  have fails : (env.kernel call before.fs).1 = .error errno := by
    rw [kernel_of_syscall called]
  have quiet := Quiet.failed looked.quiet call errno fails
  rw [kernel_of_syscall called] at quiet
  exact quiet

theorem Looked.refused {env : Env Fs} {before middle : Server Fs}
    (looked : Looked env before middle) (error : SnfsError) :
    Refused env before (handleError error middle) :=
  ⟨looked.quiet, looked.db, looked.draws, error, by
    rw [handleError, sendReply, looked.sent]⟩

theorem Refused.closeFd {env : Env Fs} {before middle : Server Fs}
    (refused : Refused env before middle) (fd : Nat) :
    Refused env before (closeFd env fd middle) :=
  ⟨.readOnly refused.quiet (.close fd) rfl, refused.db, refused.draws,
    refused.reply⟩

theorem not_refused_of_reply {env : Env Fs} {before next : Server Fs}
    {reply : Reply} {size : Nat} {rest : List (Reply × Nat)}
    (sent : next.sent = (reply, size) :: rest)
    (notError : reply.isError = false) : ¬ Refused env before next := by
  intro refused
  obtain ⟨error, alsoSent⟩ := refused.reply
  rw [sent] at alsoSent
  cases (Prod.mk.inj (List.cons.inj alsoSent).1).1
  cases notError

theorem Looked.spared {env : Env Fs} {before after : Server Fs}
    (looked : Looked env before after) : Spared env before after :=
  ⟨looked.toKept, .quiet looked.quiet⟩

theorem Spared.call {env : Env Fs} {start before after : Server Fs}
    (spared : Spared env start before) {call : Call} {outcome : Outcome call}
    (called : syscall env call before = (outcome, after))
    (keepsNames : call.changesNames = false) : Spared env start after := by
  refine ⟨spared.toKept.trans (kept_of_syscall called), ?_⟩
  have inPlace := InPlace.call spared.inPlace call keepsNames
  rw [kernel_of_syscall called] at inPlace
  exact inPlace

theorem Spared.answered {env : Env Fs} {before middle : Server Fs}
    (spared : Spared env before middle) {reply : Reply} (size : Nat)
    (notError : reply.isError = false) (noHandle : reply.givenHandle = none) :
    Answered env before (sendReply reply size middle) :=
  ⟨spared.inPlace, spared.db, spared.draws, reply, size,
    by rw [sendReply, spared.sent], notError, noHandle⟩

theorem Looked.observed {env : Env Fs} {before middle : Server Fs}
    (looked : Looked env before middle) {reply : Reply} (size : Nat)
    (notError : reply.isError = false) (noHandle : reply.givenHandle = none) :
    Observed env before (sendReply reply size middle) :=
  ⟨looked.quiet, looked.db, looked.draws, reply, size,
    by rw [sendReply, looked.sent], notError, noHandle⟩

theorem Observed.closeFd {env : Env Fs} {before middle : Server Fs}
    (observed : Observed env before middle) (fd : Nat) :
    Observed env before (closeFd env fd middle) :=
  ⟨.readOnly observed.quiet (.close fd) rfl, observed.db, observed.draws,
    observed.reply⟩

theorem Answered.closeFd {env : Env Fs} {before middle : Server Fs}
    (answered : Answered env before middle) (fd : Nat) :
    Answered env before (closeFd env fd middle) :=
  ⟨.call answered.inPlace (.close fd) rfl, answered.db, answered.draws,
    answered.reply⟩

theorem findOrInsert_eq_ok {env : Env Fs} {filename : CString}
    {before after : Server Fs} {handle : Fhandle}
    (called : findOrInsert env filename before = .ok (handle, after)) :
    nameFindOrInsert env.leftover.word before.db before.draws filename =
        some (handle, after.db, after.draws) ∧
      after.fs = before.fs ∧ after.sent = before.sent := by
  rw [findOrInsert] at called
  split at called
  · rename_i found
    cases called
    exact ⟨found, rfl, rfl⟩
  · cases called

theorem removeName_eq_ok {env : Env Fs} {filename : CString}
    {before after : Server Fs} {removed : Bool}
    (called : removeName env filename before = .ok (removed, after)) :
    nameRemove env.leftover.word before.db filename =
        (.returned removed, after.db) ∧
      after.fs = before.fs ∧ after.draws = before.draws ∧
        after.sent = before.sent := by
  rw [removeName] at called
  split at called
  · rename_i result
    cases called
    exact ⟨result, rfl, rfl, rfl⟩
  · cases called

/-! ## How the handlers go on -/

/-- The handlers that name a file by its handle look it up first. -/
theorem handle_cases {fh : Argument Fhandle} {server after : Server Fs}
    {rest : Fhandle → CString → Except Stop (Server Fs)}
    (handled : (do
      let handle ← fh
      match getFile server.db handle with
      | none => return handleError .enoent server
      | some value =>
        let path ← asString value
        rest handle path) = .ok after) :
    (∃ handle, fh = .ok handle ∧ getFile server.db handle = none ∧
      after = handleError .enoent server) ∨
    ∃ handle path, fh = .ok handle ∧
      storedPath server.db handle = some path ∧ rest handle path = .ok after := by
  rw [bind_eq_ok] at handled
  obtain ⟨handle, read, handled⟩ := handled
  split at handled
  · rename_i unknown
    exact Or.inl ⟨handle, read, unknown, (pure_eq_ok.mp handled).symm⟩
  · rename_i known
    rw [bind_eq_ok] at handled
    obtain ⟨path, string, handled⟩ := handled
    exact Or.inr ⟨handle, path, read, storedPath_eq_some known string, handled⟩

/-- A failing `stat` is reported to the client. -/
theorem stat_cases {env : Env Fs} {path : CString} {server after : Server Fs}
    {denied notDirectory : SnfsError}
    {rest : Stat → Server Fs → Except Stop (Server Fs)}
    (handled : (match syscall env (.stat path) server with
      | (.error errno, server) =>
        return handleError (errorOf denied notDirectory errno) server
      | (.ok st, server) => rest st server) = .ok after) :
    (∃ errno middle, syscall env (.stat path) server = (.error errno, middle) ∧
      after = handleError (errorOf denied notDirectory errno) middle) ∨
    ∃ st middle, syscall env (.stat path) server = (.ok st, middle) ∧
      rest st middle = .ok after := by
  split at handled
  · rename_i errno middle called
    exact Or.inl ⟨errno, middle, called, (pure_eq_ok.mp handled).symm⟩
  · rename_i st middle called
    exact Or.inr ⟨st, middle, called, handled⟩

/-- A handle of a file that `stat` finds. -/
structure FileFound (env : Env Fs) (fh : Argument Fhandle)
    (server found : Server Fs) (path : CString) (st : Stat) : Prop where
  stored : ∃ handle, fh = .ok handle ∧ storedPath server.db handle = some path
  stats : syscall env (.stat path) server = (.ok st, found)

/-- The replies when there is none. -/
inductive FileMissing (env : Env Fs) (fh : Argument Fhandle)
    (server : Server Fs) : Server Fs → Prop
  | unknown {handle : Fhandle} (read : fh = .ok handle)
      (absent : getFile server.db handle = none) :
      FileMissing env fh server (handleError .enoent server)
  | statFails {handle : Fhandle} {path : CString} {errno : Errno}
      {found : Server Fs} (read : fh = .ok handle)
      (stored : storedPath server.db handle = some path)
      (called : syscall env (.stat path) server = (.error errno, found)) :
      FileMissing env fh server
        (handleError (errorOf .einternal .einternal errno) found)

theorem file_cases {env : Env Fs} {fh : Argument Fhandle}
    {server after : Server Fs}
    {rest : CString → Stat → Server Fs → Except Stop (Server Fs)}
    (handled : (do
      let handle ← fh
      match getFile server.db handle with
      | none => return handleError .enoent server
      | some value =>
        let path ← asString value
        match syscall env (.stat path) server with
        | (.error errno, server) =>
          return handleError (errorOf .einternal .einternal errno) server
        | (.ok st, server) => rest path st server) = .ok after) :
    FileMissing env fh server after ∨ ∃ path st found,
      FileFound env fh server found path st ∧ rest path st found = .ok after := by
  rcases handle_cases handled with
    ⟨_, read, absent, rfl⟩ | ⟨handle, path, read, stored, handled⟩
  · exact Or.inl (.unknown read absent)
  · rcases stat_cases handled with
      ⟨_, _, called, rfl⟩ | ⟨st, found, stats, handled⟩
    · exact Or.inl (.statFails read stored called)
    · exact Or.inr ⟨path, st, found, ⟨⟨handle, read, stored⟩, stats⟩, handled⟩

theorem FileFound.looked {env : Env Fs} {fh : Argument Fhandle}
    {server found : Server Fs} {path : CString} {st : Stat}
    (isFound : FileFound env fh server found path st) : Looked env server found :=
  (Looked.refl env server).readOnly isFound.stats rfl

theorem FileMissing.refused {env : Env Fs} {fh : Argument Fhandle}
    {server after : Server Fs} (missing : FileMissing env fh server after) :
    Refused env server after := by
  have start := Looked.refl env server
  cases missing with
  | unknown _ _ => exact start.refused _
  | statFails _ _ called => exact (start.failed called).refused _

/-- A handle of a directory that `stat` finds. -/
structure DirectoryFound (env : Env Fs) (dir : Argument Fhandle)
    (server found : Server Fs) (dirPath : CString) : Prop where
  isFound : ∃ st, FileFound env dir server found dirPath st ∧
    sIsdir st.mode = true

/-- The replies when there is none. -/
inductive DirectoryMissing (env : Env Fs) (dir : Argument Fhandle)
    (server : Server Fs) : Server Fs → Prop
  | noFile {after : Server Fs} (missing : FileMissing env dir server after) :
      DirectoryMissing env dir server after
  | notDirectory {path : CString} {st : Stat} {found : Server Fs}
      (isFound : FileFound env dir server found path st)
      (isOther : sIsdir st.mode = false) :
      DirectoryMissing env dir server (handleError .enotdir found)

theorem directory_cases {env : Env Fs} {dir : Argument Fhandle}
    {server after : Server Fs}
    {rest : CString → Server Fs → Except Stop (Server Fs)}
    (handled : (do
      let handle ← dir
      match getFile server.db handle with
      | none => return handleError .enoent server
      | some value =>
        let path ← asString value
        match syscall env (.stat path) server with
        | (.error errno, server) =>
          return handleError (errorOf .einternal .einternal errno) server
        | (.ok st, server) =>
          if !sIsdir st.mode then return handleError .enotdir server
          else rest path server) = .ok after) :
    DirectoryMissing env dir server after ∨ ∃ path found,
      DirectoryFound env dir server found path ∧ rest path found = .ok after := by
  rcases file_cases handled with missing | ⟨path, st, found, isFound, handled⟩
  · exact Or.inl (.noFile missing)
  · split at handled
    · rename_i isOther
      rw [Bool.not_eq_true'] at isOther
      cases pure_eq_ok.mp handled
      exact Or.inl (.notDirectory isFound isOther)
    · rename_i directory
      rw [Bool.not_eq_true', Bool.not_eq_false] at directory
      exact Or.inr ⟨path, found, ⟨st, isFound, directory⟩, handled⟩

theorem DirectoryFound.looked {env : Env Fs} {dir : Argument Fhandle}
    {server found : Server Fs} {dirPath : CString}
    (isDirectory : DirectoryFound env dir server found dirPath) :
    Looked env server found := by
  obtain ⟨_, isFound, _⟩ := isDirectory.isFound
  exact isFound.looked

theorem DirectoryMissing.refused {env : Env Fs} {dir : Argument Fhandle}
    {server after : Server Fs} (missing : DirectoryMissing env dir server after) :
    Refused env server after := by
  cases missing with
  | noFile missing => exact missing.refused
  | notDirectory isFound _ => exact isFound.looked.refused _

/-! ## Handlers that leave the database alone -/

theorem handleNoop_answered (env : Env Fs) (server : Server Fs) :
    Answered env server (handleNoop server) :=
  ((Looked.refl env server).observed _ rfl rfl).answered

theorem handleUnimplemented_refused (env : Env Fs) (server : Server Fs) :
    Refused env server (handleUnimplemented server) :=
  (Looked.refl env server).refused .enotimpl

theorem handleGetattr_observed {env : Env Fs} {args : GetattrArgs}
    {server after : Server Fs}
    (handled : handleGetattr env args server = .ok after) :
    Refused env server after ∨ Observed env server after := by
  rcases file_cases handled with missing | ⟨_, _, _, isFound, handled⟩
  · exact Or.inl missing.refused
  · cases pure_eq_ok.mp handled
    exact Or.inr (isFound.looked.observed _ rfl rfl)

theorem handleGetattr_cases {env : Env Fs} {args : GetattrArgs}
    {server after : Server Fs}
    (handled : handleGetattr env args server = .ok after) :
    Refused env server after ∨ Answered env server after :=
  (handleGetattr_observed handled).imp_right Observed.answered

theorem withinRoom_eq_ok {bytes room : Nat} :
    withinRoom bytes room = .ok () ↔ bytes ≤ room := by
  rw [withinRoom]
  split <;> simp [*]

theorem withinRoom_of_le {bytes room : Nat} (fits : bytes ≤ room) :
    withinRoom bytes room = .ok () := withinRoom_eq_ok.mpr fits

theorem withinRoom_of_lt {bytes room : Nat} (overruns : room < bytes) :
    withinRoom bytes room = .error .stackOverrun :=
  if_neg (Nat.not_le.mpr overruns)

theorem readBufferSize_toNat (count : UInt64) :
    (readBufferSize count).toNat = 8 * count.toNat % 2 ^ 64 := by
  rw [readBufferSize, UInt64.toNat_mul]
  rfl

theorem entriesArraySize_toNat (count : UInt64) :
    (entriesArraySize count).toNat = 264 * count.toNat % 2 ^ 64 := by
  rw [entriesArraySize, UInt64.toNat_mul]
  rfl

theorem readEntries_looked {env : Env Fs} {dir arraySize room index : Nat}
    {start before after : Server Fs}
    {entries : Except Errno (List Snfsentry)}
    (looked : Looked env start before)
    (read : readEntries env dir arraySize room index before =
      .ok (entries, after)) :
    Looked env start after := by
  induction room generalizing index before after entries with
  | zero =>
      rw [readEntries] at read
      split at read
      · rename_i called
        cases read
        exact looked.failed called
      · rename_i called
        cases read
        exact looked.readOnly called rfl
      · rename_i called
        cases read
        exact looked.readOnly called rfl
  | succ room inductionHypothesis =>
      rw [readEntries] at read
      split at read
      · rename_i called
        cases read
        exact looked.failed called
      · rename_i called
        cases read
        exact looked.readOnly called rfl
      · rename_i called
        have more := looked.readOnly called rfl
        simp only [bind_eq_ok] at read
        obtain ⟨_, _, ⟨rest, last⟩, called, ended⟩ := read
        cases ended
        exact inductionHypothesis more called

/-- A READDIR that has opened its directory. -/
structure DirectoryOpened (env : Env Fs) (args : ReaddirArgs)
    (server opened : Server Fs) (dirPath : CString) (stream : Nat)
    (count : UInt64) : Prop where
  opens : ∃ found, DirectoryFound env args.dir server found dirPath ∧
    syscall env (.opendir dirPath) found = (.ok stream, opened)
  countRead : args.count = .ok count

/-- The ways through `handle_readdir`. -/
inductive ReaddirEnds (env : Env Fs) (args : ReaddirArgs) (server : Server Fs) :
    Server Fs → Prop
  | missing {after : Server Fs}
      (missing : DirectoryMissing env args.dir server after) :
      ReaddirEnds env args server after
  | openFails {dirPath : CString} {errno : Errno} {found opened : Server Fs}
      (isDirectory : DirectoryFound env args.dir server found dirPath)
      (called : syscall env (.opendir dirPath) found = (.error errno, opened)) :
      ReaddirEnds env args server
        (handleError (errorOf .eacces .enotdir errno) opened)
  | listFails {dirPath : CString} {stream : Nat} {count : UInt64}
      {errno : Errno} {opened last : Server Fs}
      (isOpen : DirectoryOpened env args server opened dirPath stream count)
      (read : readEntries env stream (entriesArraySize count).toNat count.toNat 0
        opened = .ok (.error errno, last)) :
      ReaddirEnds env args server (handleError .einternal last)
  | listed {dirPath : CString} {stream : Nat} {count : UInt64}
      {entries : List Snfsentry} {opened last : Server Fs}
      (isOpen : DirectoryOpened env args server opened dirPath stream count)
      (read : readEntries env stream (entriesArraySize count).toNat count.toNat 0
        opened = .ok (.ok entries, last)) :
      ReaddirEnds env args server (sendReply
        (.readdir (UInt64.ofNat entries.length) entries)
        (snfsRepSize sizeofReaddirRep + sizeofSnfsentry * entries.length) last)

theorem handleReaddir_ends {env : Env Fs} {args : ReaddirArgs}
    {server after : Server Fs}
    (handled : handleReaddir env args server = .ok after) :
    ReaddirEnds env args server after := by
  rcases directory_cases handled with
    missing | ⟨dirPath, found, isDirectory, handled⟩
  · exact .missing missing
  · split at handled
    · rename_i called
      cases pure_eq_ok.mp handled
      exact .openFails isDirectory called
    · rename_i opens
      rw [bind_eq_ok] at handled
      obtain ⟨count, countRead, handled⟩ := handled
      have isOpen := DirectoryOpened.mk ⟨found, isDirectory, opens⟩ countRead
      simp only [bind_eq_ok] at handled
      obtain ⟨_, _, ⟨entries, last⟩, read, handled⟩ := handled
      cases entries with
      | error errno =>
          cases pure_eq_ok.mp handled
          exact .listFails isOpen read
      | ok list =>
          cases pure_eq_ok.mp handled
          exact .listed isOpen read

theorem DirectoryOpened.looked {env : Env Fs} {args : ReaddirArgs}
    {server opened : Server Fs} {dirPath : CString} {stream : Nat}
    {count : UInt64}
    (isOpen : DirectoryOpened env args server opened dirPath stream count) :
    Looked env server opened := by
  obtain ⟨found, isDirectory, opens⟩ := isOpen.opens
  exact isDirectory.looked.readOnly opens rfl

theorem handleReaddir_observed {env : Env Fs} {args : ReaddirArgs}
    {server after : Server Fs}
    (handled : handleReaddir env args server = .ok after) :
    Refused env server after ∨ Observed env server after := by
  cases handleReaddir_ends handled with
  | missing missing => exact Or.inl missing.refused
  | openFails isDirectory called =>
      exact Or.inl ((isDirectory.looked.failed called).refused _)
  | listFails isOpen read =>
      exact Or.inl ((readEntries_looked isOpen.looked read).refused _)
  | listed isOpen read =>
      exact Or.inr ((readEntries_looked isOpen.looked read).observed _ rfl rfl)

theorem handleReaddir_cases {env : Env Fs} {args : ReaddirArgs}
    {server after : Server Fs}
    (handled : handleReaddir env args server = .ok after) :
    Refused env server after ∨ Answered env server after :=
  (handleReaddir_observed handled).imp_right Observed.answered

/-- A READ that has opened its file. -/
structure ReadOpened (env : Env Fs) (args : ReadArgs) (server opened : Server Fs)
    (path : CString) (st : Stat) (fd : Nat) (wanted : Int64) : Prop where
  opens : ∃ found, FileFound env args.file server found path st ∧
    syscall env (.openFile path .rdonly) found = (.ok fd, opened)
  offsetRead : args.offset = .ok wanted

/-- A READ whose descriptor stands where it shall read `count` bytes. -/
structure ReadPlaced (env : Env Fs) (args : ReadArgs) (server moved : Server Fs)
    (path : CString) (st : Stat) (fd : Nat) (wanted : Int64) (count : UInt64) :
    Prop where
  isOpen : ∃ opened, ReadOpened env args server opened path st fd wanted ∧
    syscall env (.lseek fd wanted) opened = (.ok wanted, moved)
  notNegative : ¬ wanted < 0
  countRead : args.count = .ok count

/-- The ways through `handle_read`. -/
inductive ReadEnds (env : Env Fs) (args : ReadArgs) (server : Server Fs) :
    Server Fs → Prop
  | missing {after : Server Fs} (missing : FileMissing env args.file server after) :
      ReadEnds env args server after
  | openFails {path : CString} {st : Stat} {errno : Errno}
      {found opened : Server Fs}
      (isFound : FileFound env args.file server found path st)
      (called : syscall env (.openFile path .rdonly) found =
        (.error errno, opened)) :
      ReadEnds env args server
        (handleError (errorOf .eacces .einternal errno) opened)
  | seekFails {path : CString} {st : Stat} {fd : Nat} {wanted : Int64}
      {outcome : Except Errno Int64} {opened moved : Server Fs}
      (isOpen : ReadOpened env args server opened path st fd wanted)
      (called : syscall env (.lseek fd wanted) opened = (outcome, moved))
      (elsewhere : offsetOf outcome < 0 ∨ offsetOf outcome ≠ wanted) :
      ReadEnds env args server (closeFd env fd
        (handleError (if offsetOf outcome < 0 then .einternal else .ebadop)
          moved))
  | readFails {path : CString} {st : Stat} {fd : Nat} {wanted : Int64}
      {count : UInt64} {errno : Errno} {moved last : Server Fs}
      (placed : ReadPlaced env args server moved path st fd wanted count)
      (inside : wanted < st.size)
      (called : syscall env (.read fd count) moved = (.error errno, last)) :
      ReadEnds env args server (closeFd env fd (handleError .einternal last))
  | behind {path : CString} {st : Stat} {fd : Nat} {wanted : Int64}
      {count : UInt64} {moved : Server Fs}
      (placed : ReadPlaced env args server moved path st fd wanted count)
      (outside : ¬ wanted < st.size) :
      ReadEnds env args server (handleRead.replyRead env fd count [] moved)
  | transferred {path : CString} {st : Stat} {fd : Nat} {wanted : Int64}
      {count : UInt64} {data : Bytes} {moved last : Server Fs}
      (placed : ReadPlaced env args server moved path st fd wanted count)
      (inside : wanted < st.size)
      (called : syscall env (.read fd count) moved = (.ok data, last)) :
      ReadEnds env args server (handleRead.replyRead env fd count data last)

/-- An `lseek` that gives the offset asked for has succeeded. -/
theorem readPlaced_of_reached {env : Env Fs} {args : ReadArgs}
    {server opened moved : Server Fs} {path : CString} {st : Stat} {fd : Nat}
    {wanted : Int64} {outcome : Except Errno Int64} {count : UInt64}
    (isOpen : ReadOpened env args server opened path st fd wanted)
    (moves : syscall env (.lseek fd wanted) opened = (outcome, moved))
    (reached : ¬ (offsetOf outcome < 0 ∨ offsetOf outcome ≠ wanted))
    (countRead : args.count = .ok count) :
    ReadPlaced env args server moved path st fd wanted count := by
  rw [not_or, not_not] at reached
  obtain ⟨notNegative, reached⟩ := reached
  have succeeded : outcome = .ok wanted := by
    cases outcome with
    | error errno => exact absurd (by decide : (-1 : Int64) < 0) notNegative
    | ok offset => rw [← reached, offsetOf]
  rw [succeeded] at moves
  rw [reached] at notNegative
  exact ⟨⟨opened, isOpen, moves⟩, notNegative, countRead⟩

theorem handleRead_ends {env : Env Fs} {args : ReadArgs}
    {server after : Server Fs}
    (handled : handleRead env args server = .ok after) :
    ReadEnds env args server after := by
  rcases file_cases handled with missing | ⟨path, st, found, isFound, handled⟩
  · exact .missing missing
  · split at handled
    · rename_i called
      cases pure_eq_ok.mp handled
      exact .openFails isFound called
    · rename_i fd opened opens
      rw [bind_eq_ok] at handled
      obtain ⟨wanted, offsetRead, handled⟩ := handled
      have isOpen : ReadOpened env args server opened path st fd wanted :=
        ⟨⟨found, isFound, opens⟩, offsetRead⟩
      obtain ⟨outcome, moved, moves⟩ : ∃ outcome moved,
          syscall env (.lseek fd wanted) opened = (outcome, moved) :=
        ⟨_, _, rfl⟩
      simp only [moves] at handled
      split at handled
      · rename_i elsewhere
        cases pure_eq_ok.mp handled
        exact .seekFails isOpen moves elsewhere
      · rename_i reached
        rw [bind_eq_ok] at handled
        obtain ⟨count, countRead, handled⟩ := handled
        have placed := readPlaced_of_reached isOpen moves reached countRead
        rw [not_or, not_not] at reached
        simp only [reached.2] at handled
        rw [bind_eq_ok] at handled
        obtain ⟨_, _, handled⟩ := handled
        split at handled
        · rename_i inside
          split at handled
          · rename_i called
            cases pure_eq_ok.mp handled
            exact .readFails placed inside called
          · rename_i called
            rw [bind_eq_ok] at handled
            obtain ⟨_, _, handled⟩ := handled
            cases pure_eq_ok.mp handled
            exact .transferred placed inside called
        · rename_i outside
          cases pure_eq_ok.mp handled
          exact .behind placed outside

theorem ReadOpened.looked {env : Env Fs} {args : ReadArgs}
    {server opened : Server Fs} {path : CString} {st : Stat} {fd : Nat}
    {wanted : Int64}
    (isOpen : ReadOpened env args server opened path st fd wanted) :
    Looked env server opened := by
  obtain ⟨found, isFound, opens⟩ := isOpen.opens
  exact isFound.looked.readOnly opens rfl

theorem ReadPlaced.looked {env : Env Fs} {args : ReadArgs}
    {server moved : Server Fs} {path : CString} {st : Stat} {fd : Nat}
    {wanted : Int64} {count : UInt64}
    (placed : ReadPlaced env args server moved path st fd wanted count) :
    Looked env server moved := by
  obtain ⟨opened, isOpen, moves⟩ := placed.isOpen
  exact isOpen.looked.readOnly moves rfl

theorem handleRead_observed {env : Env Fs} {args : ReadArgs}
    {server after : Server Fs}
    (handled : handleRead env args server = .ok after) :
    Refused env server after ∨ Observed env server after := by
  cases handleRead_ends handled with
  | missing missing => exact Or.inl missing.refused
  | openFails isFound called =>
      exact Or.inl ((isFound.looked.failed called).refused _)
  | @seekFails _ _ fd _ _ _ _ isOpen called _ =>
      exact Or.inl (((isOpen.looked.readOnly called rfl).refused _).closeFd fd)
  | @readFails _ _ fd _ _ _ _ _ placed _ called =>
      exact Or.inl (((placed.looked.failed called).refused _).closeFd fd)
  | @behind _ _ fd _ _ _ placed _ =>
      exact Or.inr ((placed.looked.observed _ rfl rfl).closeFd fd)
  | @transferred _ _ fd _ _ _ _ _ placed _ called =>
      exact Or.inr
        (((placed.looked.readOnly called rfl).observed _ rfl rfl).closeFd fd)

theorem handleRead_cases {env : Env Fs} {args : ReadArgs}
    {server after : Server Fs}
    (handled : handleRead env args server = .ok after) :
    Refused env server after ∨ Answered env server after :=
  (handleRead_observed handled).imp_right Observed.answered

/-- A WRITE whose four calls are made. -/
structure Wrote (env : Env Fs) (args : WriteArgs) (before after : Server Fs)
    (path : CString) : Prop where
  stored : ∃ file, args.file = .ok file ∧ storedPath before.db file = some path
  calls : ∃ fd wanted data bytes opened moved written,
    env.kernel (.openFile path .wronly) before.fs = (.ok fd, opened) ∧
    (env.kernel (.lseek fd wanted) opened).2 = moved ∧
    env.kernel (.write fd data) moved = (.ok bytes, written) ∧
    (env.kernel (.close fd) written).2 = after.fs
  answered : Answered env before after

/-- A WRITE that has opened its file and moved to the offset; a failing `lseek`
has moved to the offset -1. -/
structure WritePlaced (env : Env Fs) (args : WriteArgs)
    (server moved : Server Fs) (path : CString) (fd : Nat) (wanted : Int64)
    (data : Bytes) : Prop where
  stored : ∃ file, args.file = .ok file ∧ storedPath server.db file = some path
  isOpen : ∃ outcome opened,
    syscall env (.openFile path .wronly) server = (.ok fd, opened) ∧
    syscall env (.lseek fd wanted) opened = (outcome, moved) ∧
    offsetOf outcome = wanted
  offsetRead : args.offset = .ok wanted
  dataRead : ∃ count, args.count = .ok count ∧ args.data count = .ok data

/-- The ways through `handle_write`. -/
inductive WriteEnds (env : Env Fs) (args : WriteArgs) (server : Server Fs) :
    Server Fs → Prop
  | unknown {file : Fhandle} (fileRead : args.file = .ok file)
      (absent : getFile server.db file = none) :
      WriteEnds env args server (handleError .enoent server)
  | openFails {file : Fhandle} {path : CString} {errno : Errno}
      {opened : Server Fs} (fileRead : args.file = .ok file)
      (stored : storedPath server.db file = some path)
      (called : syscall env (.openFile path .wronly) server =
        (.error errno, opened)) :
      WriteEnds env args server
        (handleError (errorOf .einternal .einternal errno) opened)
  | seekFails {file : Fhandle} {path : CString} {fd : Nat} {wanted : Int64}
      {outcome : Except Errno Int64} {opened moved : Server Fs}
      (fileRead : args.file = .ok file)
      (stored : storedPath server.db file = some path)
      (opens : syscall env (.openFile path .wronly) server = (.ok fd, opened))
      (offsetRead : args.offset = .ok wanted)
      (called : syscall env (.lseek fd wanted) opened = (outcome, moved))
      (elsewhere : offsetOf outcome ≠ wanted) :
      WriteEnds env args server (closeFd env fd
        (handleError (if offsetOf outcome < 0 then .einternal else .ebadop)
          moved))
  | writeFails {path : CString} {fd : Nat} {wanted : Int64} {data : Bytes}
      {errno : Errno} {moved last : Server Fs}
      (placed : WritePlaced env args server moved path fd wanted data)
      (called : syscall env (.write fd data) moved = (.error errno, last)) :
      WriteEnds env args server (closeFd env fd (handleError .einternal last))
  | written {path : CString} {fd : Nat} {wanted : Int64} {data : Bytes}
      {bytes : Nat} {moved last : Server Fs}
      (placed : WritePlaced env args server moved path fd wanted data)
      (called : syscall env (.write fd data) moved = (.ok bytes, last)) :
      WriteEnds env args server (closeFd env fd (sendReply
        (.write (UInt64.ofNat bytes)) (snfsRepSize sizeofWriteRep) last))

theorem handleWrite_ends {env : Env Fs} {args : WriteArgs}
    {server after : Server Fs}
    (handled : handleWrite env args server = .ok after) :
    WriteEnds env args server after := by
  rcases handle_cases handled with
    ⟨_, fileRead, absent, rfl⟩ | ⟨file, path, fileRead, stored, handled⟩
  · exact .unknown fileRead absent
  · split at handled
    · rename_i called
      cases pure_eq_ok.mp handled
      exact .openFails fileRead stored called
    · rename_i fd opened opens
      rw [bind_eq_ok] at handled
      obtain ⟨wanted, offsetRead, handled⟩ := handled
      obtain ⟨outcome, moved, moves⟩ : ∃ outcome moved,
          syscall env (.lseek fd wanted) opened = (outcome, moved) :=
        ⟨_, _, rfl⟩
      simp only [moves] at handled
      split at handled
      · rename_i elsewhere
        cases pure_eq_ok.mp handled
        exact .seekFails fileRead stored opens offsetRead moves elsewhere
      · rename_i reached
        rw [not_not] at reached
        simp only [bind_eq_ok] at handled
        obtain ⟨count, countRead, data, dataRead, handled⟩ := handled
        have placed : WritePlaced env args server moved path fd wanted data :=
          ⟨⟨file, fileRead, stored⟩, ⟨outcome, opened, opens, moves, reached⟩,
            offsetRead, count, countRead, dataRead⟩
        split at handled
        · rename_i called
          cases pure_eq_ok.mp handled
          exact .writeFails placed called
        · rename_i called
          cases pure_eq_ok.mp handled
          exact .written placed called

theorem WritePlaced.looked {env : Env Fs} {args : WriteArgs}
    {server moved : Server Fs} {path : CString} {fd : Nat} {wanted : Int64}
    {data : Bytes}
    (placed : WritePlaced env args server moved path fd wanted data) :
    Looked env server moved := by
  obtain ⟨_, opened, opens, moves, _⟩ := placed.isOpen
  exact ((Looked.refl env server).readOnly opens rfl).readOnly moves rfl

theorem handleWrite_wrote {env : Env Fs} {args : WriteArgs}
    {server after : Server Fs}
    (handled : handleWrite env args server = .ok after) :
    Refused env server after ∨ ∃ path, Wrote env args server after path := by
  have start := Looked.refl env server
  cases handleWrite_ends handled with
  | unknown _ _ => exact Or.inl (start.refused _)
  | openFails _ _ called => exact Or.inl ((start.failed called).refused _)
  | @seekFails _ _ fd _ _ _ _ _ _ opens _ called _ =>
      exact Or.inl ((((start.readOnly opens rfl).readOnly called rfl).refused
        _).closeFd fd)
  | @writeFails _ fd _ _ _ _ _ placed called =>
      exact Or.inl (((placed.looked.failed called).refused _).closeFd fd)
  | @written path fd wanted data bytes moved last placed called =>
      have spared := placed.looked.spared.call called rfl
      obtain ⟨outcome, opened, opens, moves, _⟩ := placed.isOpen
      refine Or.inr ⟨path, placed.stored, ?_,
        (spared.answered _ rfl rfl).closeFd fd⟩
      exact ⟨fd, wanted, data, bytes, opened.fs, moved.fs, last.fs,
        kernel_of_syscall opens,
        congrArg Prod.snd (kernel_of_syscall moves), kernel_of_syscall called, rfl⟩

theorem handleWrite_cases {env : Env Fs} {args : WriteArgs}
    {server after : Server Fs}
    (handled : handleWrite env args server = .ok after) :
    Refused env server after ∨ Answered env server after := by
  rcases handleWrite_wrote handled with refused | ⟨path, wrote⟩
  · exact Or.inl refused
  · exact Or.inr wrote.answered

theorem setAttribute_unasked {env : Env Fs} {which bit : UInt64}
    (unasked : which &&& bit = 0) (call : Argument Call) (whichSet : UInt64)
    (server : Server Fs) :
    setAttribute env which bit call whichSet server = .ok (whichSet, server) := by
  rw [setAttribute, if_pos unasked]
  rfl

/-- The calls a SETATTR of a path can make. -/
inductive SetsAttributes (path : CString) : Call → Prop
  | stat : SetsAttributes path (.stat path)
  | chmod (mode : UInt32) : SetsAttributes path (.chmod path mode)
  | chown (uid gid : UInt32) : SetsAttributes path (.chown path uid gid)
  | truncate (size : Int64) : SetsAttributes path (.truncate path size)
  | utimes (atime mtime : SnfsTimeval) :
      SetsAttributes path (.utimes path atime mtime)
  | utime (actime modtime : Int64) : SetsAttributes path (.utime path actime modtime)

/-- Only such calls have been made. -/
structure Setting (env : Env Fs) (path : CString) (before after : Server Fs) :
    Prop extends Kept before after where
  calls : Calls env.kernel (SetsAttributes path) before.fs after.fs

theorem Setting.call {env : Env Fs} {path : CString}
    {start before after : Server Fs} (setting : Setting env path start before)
    {call : Call} {outcome : Outcome call}
    (called : syscall env call before = (outcome, after))
    (sets : SetsAttributes path call) : Setting env path start after := by
  refine ⟨setting.toKept.trans (kept_of_syscall called), ?_⟩
  have calls := Calls.call setting.calls call sets
  rw [kernel_of_syscall called] at calls
  exact calls

theorem Setting.setAttribute {env : Env Fs} {which bit whichSet result : UInt64}
    {path : CString} {call : Argument Call} {start before after : Server Fs}
    (setting : Setting env path start before)
    (sets : ∀ given, call = .ok given → SetsAttributes path given)
    (set : Handlers.setAttribute env which bit call whichSet before =
      .ok (result, after)) : Setting env path start after := by
  rw [Handlers.setAttribute] at set
  split at set
  · cases pure_eq_ok.mp set
    exact setting
  · simp only [bind_eq_ok] at set
    obtain ⟨given, read, set⟩ := set
    split at set
    · rename_i called
      cases pure_eq_ok.mp set
      exact setting.call called (sets given read)
    · rename_i called
      cases pure_eq_ok.mp set
      exact setting.call called (sets given read)

theorem Setting.setTimes {env : Env Fs} {which whichSet result : UInt64}
    {path : CString} {args : SetattrArgs} {start before after : Server Fs}
    (setting : Setting env path start before)
    (set : Handlers.setTimes env which path args whichSet before =
      .ok (result, after)) : Setting env path start after := by
  rw [Handlers.setTimes] at set
  split at set
  · cases pure_eq_ok.mp set
    exact setting
  · simp only [bind_eq_ok] at set
    obtain ⟨atime, _, mtime, _, set⟩ := set
    split at set
    · rename_i called
      cases pure_eq_ok.mp set
      exact setting.call called (.utimes atime mtime)
    · rename_i called
      have more := setting.call called (.utimes atime mtime)
      split at set
      · rename_i again
        cases pure_eq_ok.mp set
        exact more.call again (.utime _ _)
      · rename_i again
        cases pure_eq_ok.mp set
        exact more.call again (.utime _ _)

theorem setsAttributes_map {α : Type} {argument : Argument α} {make : α → Call}
    {path : CString} (sets : ∀ value, SetsAttributes path (make value))
    (given : Call) (made : argument.map make = .ok given) :
    SetsAttributes path given := by
  cases argument with
  | error stop => cases made
  | ok value =>
      cases made
      exact sets value

/-- A SETATTR of a stored path that `stat` finds. -/
structure AttributesSet (env : Env Fs) (args : SetattrArgs)
    (before after : Server Fs) (path : CString) : Prop where
  stored : ∃ file, args.file = .ok file ∧ storedPath before.db file = some path
  calls : Calls env.kernel (SetsAttributes path) before.fs after.fs
  db : after.db = before.db
  draws : after.draws = before.draws
  sent : ∃ whichSet, after.sent =
    (.setattr whichSet, snfsRepSize sizeofSetattrRep) :: before.sent

theorem AttributesSet.answered {env : Env Fs} {args : SetattrArgs}
    {before after : Server Fs} {path : CString}
    (set : AttributesSet env args before after path) :
    Answered env before after := by
  obtain ⟨whichSet, sent⟩ := set.sent
  refine ⟨set.calls.inPlace ?_, set.db, set.draws, .setattr whichSet, _, sent, rfl,
    rfl⟩
  intro call sets
  cases sets <;> rfl

theorem handleSetattr_ends {env : Env Fs} {args : SetattrArgs}
    {server after : Server Fs}
    (handled : handleSetattr env args server = .ok after) :
    FileMissing env args.file server after ∨ ∃ path st found,
      FileFound env args.file server found path st ∧
        AttributesSet env args server after path := by
  rw [handleSetattr, bind_eq_ok] at handled
  obtain ⟨which, _, handled⟩ := handled
  rcases file_cases handled with
    missing | ⟨filePath, st, found, isFound, handled⟩
  · exact Or.inl missing
  · simp only [bind_eq_ok, Prod.exists] at handled
    obtain ⟨_, _, mode, _, _, uid, _, _, gid, _, _, size, whichSet, last, times,
      handled⟩ := handled
    cases pure_eq_ok.mp handled
    have setting : Setting env filePath server server :=
      ⟨Kept.refl server, .refl _⟩
    have looked := setting.call isFound.stats .stat
    have modeSet := looked.setAttribute
      (setsAttributes_map fun mode => .chmod (UInt64.toUInt32 mode)) mode
    have uidSet := modeSet.setAttribute
      (setsAttributes_map fun uid => .chown (UInt64.toUInt32 uid) _) uid
    have gidSet := uidSet.setAttribute
      (setsAttributes_map fun gid => .chown _ (UInt64.toUInt32 gid)) gid
    have sizeSet := gidSet.setAttribute (setsAttributes_map .truncate) size
    have timesSet := sizeSet.setTimes times
    refine Or.inr ⟨filePath, st, found, isFound, isFound.stored, timesSet.calls,
      timesSet.db, timesSet.draws, whichSet, ?_⟩
    rw [sendReply, timesSet.sent]

theorem handleSetattr_set {env : Env Fs} {args : SetattrArgs}
    {server after : Server Fs}
    (handled : handleSetattr env args server = .ok after) :
    Refused env server after ∨
      ∃ path, AttributesSet env args server after path := by
  rcases handleSetattr_ends handled with missing | ⟨path, _, _, _, set⟩
  · exact Or.inl missing.refused
  · exact Or.inr ⟨path, set⟩

theorem handleSetattr_cases {env : Env Fs} {args : SetattrArgs}
    {server after : Server Fs}
    (handled : handleSetattr env args server = .ok after) :
    Refused env server after ∨ Answered env server after := by
  rcases handleSetattr_set handled with refused | ⟨path, set⟩
  · exact Or.inl refused
  · exact Or.inr set.answered

/-! ## Handlers that change the database -/

/-- The name is found or inserted and its handle sent. -/
structure Named (env : Env Fs) (filename : CString) (handle : Fhandle)
    (before after : Server Fs) : Prop where
  inserted : nameFindOrInsert env.leftover.word before.db before.draws
    filename = some (handle, after.db, after.draws)
  reply : ∃ reply size, after.sent = (reply, size) :: before.sent ∧
    reply.isError = false

theorem Kept.named {env : Env Fs} {filename : CString} {handle : Fhandle}
    {before middle after : Server Fs} (kept : Kept before middle)
    (called : findOrInsert env filename middle = .ok (handle, after))
    {reply : Reply} (size : Nat) (notError : reply.isError = false) :
    Named env filename handle before (sendReply reply size after) := by
  obtain ⟨inserted, _, sent⟩ := findOrInsert_eq_ok called
  rw [kept.db, kept.draws] at inserted
  exact ⟨inserted, reply, size, by rw [sendReply, sent, kept.sent], notError⟩

theorem handleMount_named {env : Env Fs} {server after : Server Fs}
    (handled : handleMount env server = .ok after) :
    ∃ root, Named env rootPath root server after ∧ after.fs = server.fs ∧
      after.sent = (.mount root, snfsRepSize sizeofMountRep) :: server.sent := by
  simp only [handleMount, bind_eq_ok, Prod.exists] at handled
  obtain ⟨root, middle, called, handled⟩ := handled
  cases pure_eq_ok.mp handled
  obtain ⟨_, fs, sent⟩ := findOrInsert_eq_ok called
  exact ⟨root, (Kept.refl server).named called _ rfl, fs, by
    rw [sendReply, sent]⟩

/-- The ways through `handle_lookup`. -/
inductive LookupEnds (env : Env Fs) (args : LookupArgs) (server : Server Fs) :
    Server Fs → Prop
  | missing {after : Server Fs}
      (missing : DirectoryMissing env args.dir server after) :
      LookupEnds env args server after
  | notThere {dirPath filename : CString} {errno : Errno}
      {found last : Server Fs}
      (isDirectory : DirectoryFound env args.dir server found dirPath)
      (filenameRead : args.filename = .ok filename)
      (called : syscall env (.stat (joinPath dirPath filename)) found =
        (.error errno, last)) :
      LookupEnds env args server
        (handleError (errorOf .einternal .ebadop errno) last)
  | given {dirPath filename : CString} {st : Stat} {handle : Fhandle}
      {found middle last : Server Fs}
      (isDirectory : DirectoryFound env args.dir server found dirPath)
      (filenameRead : args.filename = .ok filename)
      (nonempty : dirPath.bytes ≠ [])
      (stats : syscall env (.stat (joinPath dirPath filename)) found =
        (.ok st, middle))
      (inserted : findOrInsert env (joinPath dirPath filename) middle =
        .ok (handle, last)) :
      LookupEnds env args server (sendReply
        (.lookup handle (statToFattr st Fattr.zero))
        (snfsRepSize sizeofLookupRep) last)

theorem handleLookup_ends {env : Env Fs} {args : LookupArgs}
    {server after : Server Fs}
    (handled : handleLookup env args server = .ok after) :
    LookupEnds env args server after := by
  rcases directory_cases handled with
    missing | ⟨dirPath, found, isDirectory, handled⟩
  · exact .missing missing
  · simp only [bind_eq_ok] at handled
    obtain ⟨filename, filenameRead, handled⟩ := handled
    split at handled
    · cases handled
    · rename_i nonempty
      rcases stat_cases handled with
        ⟨_, _, called, rfl⟩ | ⟨st, _, stats, handled⟩
      · exact .notThere isDirectory filenameRead called
      · simp only [bind_eq_ok, Prod.exists] at handled
        obtain ⟨handle, last, inserted, handled⟩ := handled
        cases pure_eq_ok.mp handled
        exact .given isDirectory filenameRead nonempty stats inserted

/-- A LOOKUP that finds its file. -/
structure LookedUp (env : Env Fs) (args : LookupArgs) (before after : Server Fs)
    (dirPath filename : CString) (handle : Fhandle) : Prop where
  stored : ∃ dir, args.dir = .ok dir ∧ storedPath before.db dir = some dirPath
  filenameRead : args.filename = .ok filename
  nonempty : dirPath.bytes ≠ []
  found : ∃ st1 fs1 st2, env.kernel (.stat dirPath) before.fs = (.ok st1, fs1) ∧
    sIsdir st1.mode = true ∧
    env.kernel (.stat (joinPath dirPath filename)) fs1 = (.ok st2, after.fs) ∧
    after.sent = (.lookup handle (statToFattr st2 Fattr.zero),
      snfsRepSize sizeofLookupRep) :: before.sent
  named : Named env (joinPath dirPath filename) handle before after

theorem handleLookup_cases {env : Env Fs} {args : LookupArgs}
    {server after : Server Fs}
    (handled : handleLookup env args server = .ok after) :
    Refused env server after ∨ ∃ dirPath filename handle,
      LookedUp env args server after dirPath filename handle := by
  cases handleLookup_ends handled with
  | missing missing => exact Or.inl missing.refused
  | notThere isDirectory _ called =>
      exact Or.inl ((isDirectory.looked.failed called).refused _)
  | @given dirPath filename st2 handle _ _ _ isDirectory filenameRead nonempty
      stats inserted =>
      have kept := (isDirectory.looked.readOnly stats rfl).toKept
      obtain ⟨st1, isFound, directory⟩ := isDirectory.isFound
      obtain ⟨_, fs, sent⟩ := findOrInsert_eq_ok inserted
      refine Or.inr ⟨dirPath, filename, handle, isFound.stored, filenameRead,
        nonempty, ?_, kept.named inserted _ rfl⟩
      refine ⟨st1, _, st2, kernel_of_syscall isFound.stats, directory, ?_, ?_⟩
      · rw [kernel_of_syscall stats, ← fs]
        rfl
      · rw [sendReply, sent, kept.sent]

/-- A CREATE or MKDIR whose call succeeds. -/
structure Made (env : Env Fs) (call : CString → UInt32 → Call)
    (filename : Argument CString) (mode : Argument UInt32)
    (before after : Server Fs) (path : CString) (handle : Fhandle) : Prop where
  filenameRead : filename = .ok path
  made : ∃ bits, mode = .ok bits ∧ ∃ result,
    env.kernel (call path bits) before.fs = (.ok result, after.fs)
  named : Named env path handle before after

theorem handleMake_cases {env : Env Fs} {call : CString → UInt32 → Call}
    {reply : Fhandle → Reply} {size : Nat} {filename : Argument CString}
    {mode : Argument UInt32} {server after : Server Fs}
    (notError : ∀ handle, (reply handle).isError = false)
    (handled : handleMake env call reply size filename mode server = .ok after) :
    Refused env server after ∨ ∃ path handle,
      Made env call filename mode server after path handle ∧
      after.sent = (reply handle, snfsRepSize size) :: server.sent := by
  have start := Looked.refl env server
  rw [handleMake, bind_eq_ok] at handled
  obtain ⟨path, filenameRead, handled⟩ := handled
  rw [bind_eq_ok] at handled
  obtain ⟨bits, modeRead, handled⟩ := handled
  split at handled
  · rename_i called
    cases pure_eq_ok.mp handled
    exact Or.inl ((start.failed called).refused _)
  · rename_i made _ called
    simp only [bind_eq_ok, Prod.exists] at handled
    obtain ⟨handle, middle, inserted, handled⟩ := handled
    cases pure_eq_ok.mp handled
    have kept := kept_of_syscall called
    obtain ⟨_, fs, sent⟩ := findOrInsert_eq_ok inserted
    refine Or.inr ⟨path, handle, ⟨filenameRead, ⟨bits, modeRead, made, ?_⟩,
      kept.named inserted _ (notError handle)⟩,
      by rw [sendReply, sent, kept.sent]⟩
    rw [kernel_of_syscall called, ← fs]
    rfl

/-- A REMOVE whose `rmdir` or `unlink` succeeds, and what `name_remove` makes of
the path. -/
structure Unlinked (env : Env Fs) (args : RemoveArgs) (before after : Server Fs)
    (handle : Fhandle) (path : CString) (removed : Bool) : Prop where
  fhRead : args.fh = .ok handle
  stored : storedPath before.db handle = some path
  unlinked : ∃ st fs1 isDir, env.kernel (.stat path) before.fs = (.ok st, fs1) ∧
    args.isDir = .ok isDir ∧
    if isDir ≠ 0 then
      sIsdir st.mode = true ∧ env.kernel (.rmdir path) fs1 = (.ok (), after.fs)
    else env.kernel (.unlink path) fs1 = (.ok (), after.fs)
  draws : after.draws = before.draws
  db : nameRemove env.leftover.word before.db path =
    (.returned removed, after.db)
  sent : after.sent =
    (if removed then (.remove, snfsRepSize sizeofRemoveRep)
      else (.error .einternal, snfsRepSize sizeofErrorRep)) :: before.sent

theorem removeStored_cases {env : Env Fs} {path : CString}
    {before middle after : Server Fs} (kept : Kept before middle)
    (handled : removeStored env path middle = .ok after) :
    ∃ removed, after.fs = middle.fs ∧ after.draws = before.draws ∧
      nameRemove env.leftover.word before.db path =
        (.returned removed, after.db) ∧
      after.sent = (if removed then (.remove, snfsRepSize sizeofRemoveRep)
        else (.error .einternal, snfsRepSize sizeofErrorRep)) ::
          before.sent := by
  simp only [removeStored, bind_eq_ok, Prod.exists] at handled
  obtain ⟨removed, last, called, handled⟩ := handled
  obtain ⟨result, fs, draws, sent⟩ := removeName_eq_ok called
  rw [kept.db] at result
  refine ⟨removed, ?_⟩
  cases removed with
  | false =>
      cases pure_eq_ok.mp handled
      exact ⟨fs, draws.trans kept.draws, result, by
        rw [handleError, sendReply, sent, kept.sent]
        rfl⟩
  | true =>
      cases pure_eq_ok.mp handled
      exact ⟨fs, draws.trans kept.draws, result, by
        rw [sendReply, sent, kept.sent]
        rfl⟩

theorem handleRemove_cases {env : Env Fs} {args : RemoveArgs}
    {server after : Server Fs}
    (handled : handleRemove env args server = .ok after) :
    Refused env server after ∨ ∃ handle path removed,
      Unlinked env args server after handle path removed := by
  rcases file_cases handled with missing | ⟨path, st, _, isFound, handled⟩
  · exact Or.inl missing.refused
  · have looked := isFound.looked
    obtain ⟨handle, fhRead, stored⟩ := isFound.stored
    have called := kernel_of_syscall isFound.stats
    simp only [bind_eq_ok] at handled
    obtain ⟨isDir, isDirRead, handled⟩ := handled
    split at handled
    · rename_i directory
      split at handled
      · cases pure_eq_ok.mp handled
        exact Or.inl (looked.refused _)
      · rename_i isDirectory
        split at handled
        · rename_i failed
          cases pure_eq_ok.mp handled
          exact Or.inl ((looked.failed failed).refused _)
        · rename_i gone
          obtain ⟨removed, fs, draws, db, sent⟩ := removeStored_cases
            (looked.toKept.trans (kept_of_syscall gone)) handled
          refine Or.inr ⟨handle, path, removed, fhRead, stored, ?_, draws, db,
            sent⟩
          refine ⟨st, _, isDir, called, isDirRead, ?_⟩
          rw [if_pos directory, fs, kernel_of_syscall gone]
          exact ⟨by simpa using isDirectory, rfl⟩
    · rename_i notDirectory
      split at handled
      · rename_i failed
        cases pure_eq_ok.mp handled
        exact Or.inl ((looked.failed failed).refused _)
      · rename_i gone
        obtain ⟨removed, fs, draws, db, sent⟩ := removeStored_cases
          (looked.toKept.trans (kept_of_syscall gone)) handled
        refine Or.inr ⟨handle, path, removed, fhRead, stored, ?_, draws, db,
          sent⟩
        refine ⟨st, _, isDir, called, isDirRead, ?_⟩
        rw [if_neg notDirectory, fs, kernel_of_syscall gone]

/-- A RENAME whose call succeeds, and what the database makes of the two
paths. -/
structure Moved (env : Env Fs) (args : RenameArgs) (before after : Server Fs)
    (handle : Fhandle) (oldPath newPath : CString) (newHandle : Fhandle)
    (removed : Bool) : Prop where
  fhRead : args.fh = .ok handle
  stored : storedPath before.db handle = some oldPath
  filenameRead : args.filename = .ok newPath
  moved : env.kernel (.rename oldPath newPath) before.fs = (.ok (), after.fs)
  db : ∃ middle, nameFindOrInsert env.leftover.word before.db before.draws
      newPath = some (newHandle, middle, after.draws) ∧
    nameRemove env.leftover.word middle oldPath = (.returned removed, after.db)
  sent : after.sent =
    (if removed then (.rename newHandle, snfsRepSize sizeofRenameRep)
      else (.error .einternal, snfsRepSize sizeofErrorRep)) :: before.sent

theorem handleRename_cases {env : Env Fs} {args : RenameArgs}
    {server after : Server Fs}
    (handled : handleRename env args server = .ok after) :
    Refused env server after ∨ ∃ handle oldPath newPath newHandle removed,
      Moved env args server after handle oldPath newPath newHandle removed := by
  have start := Looked.refl env server
  rcases handle_cases handled with
    ⟨_, _, _, rfl⟩ | ⟨handle, oldPath, fhRead, stored, handled⟩
  · exact Or.inl (start.refused _)
  · rw [bind_eq_ok] at handled
    obtain ⟨newPath, filenameRead, handled⟩ := handled
    split at handled
    · rename_i called
      cases pure_eq_ok.mp handled
      exact Or.inl ((start.failed called).refused _)
    · rename_i called
      simp only [bind_eq_ok, Prod.exists] at handled
      obtain ⟨newHandle, middle, inserted, removed, last, gone, handled⟩ :=
        handled
      have kept := kept_of_syscall called
      obtain ⟨found, fs, sent⟩ := findOrInsert_eq_ok inserted
      obtain ⟨result, lastFs, lastDraws, lastSent⟩ := removeName_eq_ok gone
      rw [kept.db, kept.draws] at found
      have moved := kernel_of_syscall called
      rw [← fs, ← lastFs] at moved
      rw [← lastDraws] at found
      have sentBefore := lastSent.trans (sent.trans kept.sent)
      refine Or.inr ⟨handle, oldPath, newPath, newHandle, removed, ?_⟩
      cases removed with
      | false =>
          cases pure_eq_ok.mp handled
          exact ⟨fhRead, stored, filenameRead, moved, ⟨_, found, result⟩, by
            rw [handleError, sendReply, sentBefore]
            rfl⟩
      | true =>
          cases pure_eq_ok.mp handled
          exact ⟨fhRead, stored, filenameRead, moved, ⟨_, found, result⟩, by
            rw [sendReply, sentBefore]
            rfl⟩

/-! ## One round of the loop -/

/-- The type a message names. -/
def messageType (message : Bytes) : Argument MsgType :=
  (readWord message 0 sizeofSnfsMsgType).map MsgType.ofWord

theorem serve_of_messageType {env : Env Fs} {message : Bytes}
    {server : Server Fs} {type : MsgType}
    (named : messageType message = .ok type) :
    serve env message server = dispatch env message server type := by
  rw [messageType] at named
  cases read : readWord message 0 sizeofSnfsMsgType with
  | error stop =>
      rw [read] at named
      cases named
  | ok word =>
      rw [read] at named
      cases named
      rw [serve, read]
      rfl

/-- The requests whose handlers never touch the database. -/
def MsgType.leavesDatabase : MsgType → Bool
  | .noop => true
  | .getattr => true
  | .readdir => true
  | .read => true
  | .write => true
  | .setattr => true
  | .error => true
  | .other _ => true
  | _ => false

/-- How a round of the loop ends, by the type of its message. -/
inductive Ending (env : Env Fs) (message : Bytes) (before after : Server Fs) :
    MsgType → Prop
  | refused {type} (refused : Refused env before after) :
      Ending env message before after type
  | answered {type} (leaves : MsgType.leavesDatabase type = true)
      (answered : Answered env before after) :
      Ending env message before after type
  | mounted (root : Fhandle) (named : Named env rootPath root before after)
      (fs : after.fs = before.fs)
      (sent : after.sent =
        (.mount root, snfsRepSize sizeofMountRep) :: before.sent) :
      Ending env message before after .mount
  | lookedUp (dirPath filename : CString) (handle : Fhandle)
      (found : LookedUp env (lookupArgs message) before after dirPath filename
        handle) :
      Ending env message before after .lookup
  | created (path : CString) (handle : Fhandle)
      (made : Made env .creat (createArgs message).filename
        (createArgs message).mode before after path handle)
      (sent : after.sent =
        (.create handle, snfsRepSize sizeofCreateRep) :: before.sent) :
      Ending env message before after .create
  | unlinked (handle : Fhandle) (path : CString) (removed : Bool)
      (gone : Unlinked env (removeArgs message) before after handle path
        removed) :
      Ending env message before after .remove
  | moved (handle : Fhandle) (oldPath newPath : CString) (newHandle : Fhandle)
      (removed : Bool)
      (moved : Moved env (renameArgs message) before after handle oldPath
        newPath newHandle removed) :
      Ending env message before after .rename
  | madeDirectory (path : CString) (handle : Fhandle)
      (made : Made env .mkdir (mkdirArgs message).dirname
        (mkdirArgs message).mode before after path handle)
      (sent : after.sent =
        (.mkdir handle, snfsRepSize sizeofMkdirRep) :: before.sent) :
      Ending env message before after .mkdir

theorem Ending.of_unchanging {env : Env Fs} {message : Bytes}
    {before after : Server Fs} {type : MsgType}
    (leaves : MsgType.leavesDatabase type = true)
    (either : Refused env before after ∨ Answered env before after) :
    Ending env message before after type :=
  either.elim .refused (.answered leaves)

theorem dispatch_ending {env : Env Fs} {message : Bytes}
    {before after : Server Fs} {type : MsgType}
    (handled : dispatch env message before type = .ok after) :
    Ending env message before after type := by
  cases type with
  | noop =>
      cases pure_eq_ok.mp handled
      exact .answered rfl (handleNoop_answered env before)
  | mount =>
      obtain ⟨root, named, fs, sent⟩ := handleMount_named handled
      exact .mounted root named fs sent
  | getattr => exact .of_unchanging rfl (handleGetattr_cases handled)
  | readdir => exact .of_unchanging rfl (handleReaddir_cases handled)
  | lookup =>
      rcases handleLookup_cases handled with
        refused | ⟨dirPath, filename, handle, found⟩
      · exact .refused refused
      · exact .lookedUp dirPath filename handle found
  | read => exact .of_unchanging rfl (handleRead_cases handled)
  | write => exact .of_unchanging rfl (handleWrite_cases handled)
  | setattr => exact .of_unchanging rfl (handleSetattr_cases handled)
  | create =>
      rcases handleMake_cases (fun _ => rfl) handled with
        refused | ⟨path, handle, made, sent⟩
      · exact .refused refused
      · exact .created path handle made sent
  | remove =>
      rcases handleRemove_cases handled with
        refused | ⟨handle, path, removed, gone⟩
      · exact .refused refused
      · exact .unlinked handle path removed gone
  | rename =>
      rcases handleRename_cases handled with
        refused | ⟨handle, oldPath, newPath, newHandle, removed, moved⟩
      · exact .refused refused
      · exact .moved handle oldPath newPath newHandle removed moved
  | mkdir =>
      rcases handleMake_cases (fun _ => rfl) handled with
        refused | ⟨path, handle, made, sent⟩
      · exact .refused refused
      · exact .madeDirectory path handle made sent
  | error =>
      cases pure_eq_ok.mp handled
      exact .refused (handleUnimplemented_refused env before)
  | other word =>
      cases pure_eq_ok.mp handled
      exact .refused (handleUnimplemented_refused env before)

theorem serve_ending {env : Env Fs} {message : Bytes}
    {before after : Server Fs}
    (handled : serve env message before = .ok after) :
    ∃ type, messageType message = .ok type ∧
      Ending env message before after type := by
  rw [serve, bind_eq_ok] at handled
  obtain ⟨word, read, handled⟩ := handled
  exact ⟨MsgType.ofWord word, by rw [messageType, read]; rfl,
    dispatch_ending handled⟩

end ChlorosSnfs.Snfs.HandlerEffects
