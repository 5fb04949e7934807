import ChlorosSnfs.Snfs.Client
import ChlorosSnfs.Snfs.HandlerEffects

/-!
# Replies and descriptors

Every way through a handler sends one reply, and between its system calls the
server holds descriptors it has to give back.  `Pending` is a point on such a
way before the reply, with the descriptors opened so far, `Replied` a point
behind it.
-/

set_option autoImplicit false

namespace ChlorosSnfs.Snfs.HandlerReplies

open ChlorosSnfs.Snfs.Fhandledb
open ChlorosSnfs.Snfs.Messages
open ChlorosSnfs.Snfs.Syscalls
open ChlorosSnfs.Snfs.Handlers
open ChlorosSnfs.Snfs.ServeLoop
open ChlorosSnfs.Snfs.HandlerEffects
open ChlorosSnfs.Snfs.Client

variable {Fs : Type}

/-! ## The layout of a reply -/

/-- `sizeof` of the structure of a reply; NOOP and ERROR have four bytes for all
and behind the type. -/
def Reply.structSize : Reply → Nat
  | .noop => 0
  | .mount _ => sizeofMountRep
  | .getattr _ => sizeofGetattrRep
  | .readdir _ _ => sizeofReaddirRep
  | .lookup _ _ => sizeofLookupRep
  | .read _ _ _ => sizeofReadRep
  | .write _ => sizeofWriteRep
  | .setattr _ => sizeofSetattrRep
  | .create _ => sizeofCreateRep
  | .remove => sizeofRemoveRep
  | .rename _ => sizeofRenameRep
  | .mkdir _ => sizeofMkdirRep
  | .error _ => sizeofErrorRep

/-- The bytes behind the structure. -/
def Reply.payload : Reply → Nat
  | .readdir _ entries => sizeofSnfsentry * entries.length
  | .read _ _ data => data.length
  | _ => 0

/-- An entry whose name fills its field and ends in it. -/
structure Snfsentry.Whole (entry : Snfsentry) : Prop where
  length_eq : entry.filename.length = snfsMaxFilenameBuf
  ends : 0 ∈ entry.filename

theorem toSnfsentry_whole (entry : Dirent) (following : Nat → UInt8) :
    Snfsentry.Whole (toSnfsentry entry following) := by
  constructor
  · simp [toSnfsentry, copyBytes, snfsMaxFilenameLength, snfsMaxFilenameBuf]
  · simp [toSnfsentry]

/-- Each entry is as long as its structure. -/
def Reply.Whole : Reply → Prop
  | .readdir _ entries => ∀ entry ∈ entries, Snfsentry.Whole entry
  | _ => True

/-- `num_entries` and `count` say how much follows. -/
def Reply.Announced : Reply → Prop
  | .readdir numEntries entries => numEntries.toNat = entries.length
  | .read count _ data => count.toNat = data.length
  | _ => True

/-- `read` gives no more than it is asked for. -/
def ReadsAtMost (kernel : Kernel Fs) : Prop :=
  ∀ fd count fs data, (kernel (.read fd count) fs).1 = .ok data →
    data.length ≤ count.toNat

/-- A reply a request of this type may have, sent with this size. -/
structure Fits (kernel : Kernel Fs) (type : MsgType) (reply : Reply)
    (size : Nat) : Prop where
  named : Reply.type reply = type ∨ Reply.type reply = .error
  size_eq : size =
    sizeofSnfsMsgType + Reply.structSize reply + Reply.payload reply
  whole : Reply.Whole reply
  announced : ReadsAtMost kernel → Reply.Announced reply

theorem fits_error (kernel : Kernel Fs) (type : MsgType) (error : SnfsError) :
    Fits kernel type (.error error) (snfsRepSize sizeofErrorRep) :=
  ⟨Or.inr rfl, rfl, trivial, fun _ => trivial⟩

/-! ## Before and behind the reply -/

/-- Nothing has been sent, and these descriptors are open in addition. -/
structure Pending (before middle : Server Fs) (held : List Descriptor) :
    Prop where
  sent : middle.sent = before.sent
  opened : middle.opened = held ++ before.opened

/-- One fitting reply has been sent, and these descriptors are open in
addition. -/
structure Replied (kernel : Kernel Fs) (type : MsgType)
    (before after : Server Fs) (held : List Descriptor) : Prop where
  sent : ∃ reply size, after.sent = (reply, size) :: before.sent ∧
    Fits kernel type reply size
  opened : after.opened = held ++ before.opened

section Ways

variable {kernel : Kernel Fs} {type : MsgType} {env : Env Fs}
  {before middle after : Server Fs} {held : List Descriptor}

theorem Pending.refl (server : Server Fs) : Pending server server [] :=
  ⟨rfl, rfl⟩

theorem opened_of_syscall {call : Call} {outcome : Outcome call}
    (called : syscall env call middle = (outcome, after)) :
    after.opened = openedAfter middle.opened call outcome := by
  rw [syscall] at called
  cases called
  rfl

/-- A call that opens and closes nothing. -/
theorem Pending.call (pending : Pending before middle held) {call : Call}
    {outcome : Outcome call}
    (called : syscall env call middle = (outcome, after))
    (keeps : openedAfter middle.opened call outcome = middle.opened) :
    Pending before after held := by
  refine ⟨(kept_of_syscall called).sent.trans pending.sent, ?_⟩
  rw [opened_of_syscall called, keeps]
  exact pending.opened

/-- A call that opens a descriptor. -/
theorem Pending.opens (pending : Pending before middle held) {call : Call}
    {outcome : Outcome call} {descriptor : Descriptor}
    (called : syscall env call middle = (outcome, after))
    (opens : openedAfter middle.opened call outcome =
      descriptor :: middle.opened) :
    Pending before after (descriptor :: held) := by
  refine ⟨(kept_of_syscall called).sent.trans pending.sent, ?_⟩
  rw [opened_of_syscall called, opens, pending.opened]
  rfl

theorem Pending.replies (pending : Pending before middle held) {reply : Reply}
    {size : Nat} (fits : Fits kernel type reply size) :
    Replied kernel type before (sendReply reply size middle) held :=
  ⟨⟨reply, size, by rw [sendReply, pending.sent], fits⟩, pending.opened⟩

theorem Pending.refuses (pending : Pending before middle held)
    (type : MsgType) (error : SnfsError) :
    Replied kernel type before (handleError error middle) held :=
  pending.replies (fits_error kernel type error)

/-- The reply of READ, with no more data than its count can say. -/
theorem Pending.replyRead (pending : Pending before middle held)
    {data : Bytes} {eof : UInt64}
    (bound : ReadsAtMost kernel → data.length < 2 ^ 64) :
    Replied kernel .read before (sendReply
      (.read (UInt64.ofNat data.length) eof data)
      (snfsRepSize sizeofReadRep + data.length) middle) held := by
  refine pending.replies ⟨Or.inl rfl, rfl, trivial, ?_⟩
  intro readsAtMost
  exact UInt64.toNat_ofNat_of_lt (bound readsAtMost)

/-- The descriptor opened last is closed. -/
theorem Replied.closeFd {fd : Nat}
    (replied : Replied kernel type before middle (.file fd :: held)) :
    Replied kernel type before (closeFd env fd middle) held := by
  refine ⟨replied.sent, ?_⟩
  have erased : (Handlers.closeFd env fd middle).opened =
      middle.opened.erase (.file fd) := rfl
  rw [erased, replied.opened, List.cons_append, List.erase_cons_head]

theorem Pending.findOrInsert (pending : Pending before middle held)
    {filename : CString} {handle : Fhandle}
    (called : findOrInsert env filename middle = .ok (handle, after)) :
    Pending before after held := by
  rw [Handlers.findOrInsert] at called
  split at called
  · cases called
    exact ⟨pending.sent, pending.opened⟩
  · cases called

theorem Pending.removeName (pending : Pending before middle held)
    {filename : CString} {removed : Bool}
    (called : removeName env filename middle = .ok (removed, after)) :
    Pending before after held := by
  rw [Handlers.removeName] at called
  split at called
  · cases called
    exact ⟨pending.sent, pending.opened⟩
  · cases called

end Ways

/-! ## Requests that leave something open -/

/-- A CREATE whose `creat` succeeds. -/
def CreateOpens (kernel : Kernel Fs) (args : CreateArgs) (server : Server Fs) :
    Prop :=
  ∃ path mode fd, args.filename = .ok path ∧ args.mode = .ok mode ∧
    (kernel (.creat path mode) server.fs).1 = .ok fd

/-- A READDIR whose `opendir` succeeds. -/
def ReaddirOpens (kernel : Kernel Fs) (args : ReaddirArgs)
    (server : Server Fs) : Prop :=
  ∃ dir dirPath st fs stream, args.dir = .ok dir ∧
    storedPath server.db dir = some dirPath ∧
    kernel (.stat dirPath) server.fs = (.ok st, fs) ∧
    sIsdir st.mode = true ∧ (kernel (.opendir dirPath) fs).1 = .ok stream

/-- The requests after which a descriptor or a stream is still open. -/
def Opens (kernel : Kernel Fs) (message : Bytes) (server : Server Fs) :
    MsgType → Prop
  | .create => CreateOpens kernel (createArgs message) server
  | .readdir => ReaddirOpens kernel (readdirArgs message) server
  | _ => False

/-! ## The handlers -/

section Handlers

variable {env : Env Fs} {server after : Server Fs}

theorem handleMount_replied (handled : handleMount env server = .ok after) :
    Replied env.kernel .mount server after [] := by
  simp only [handleMount, bind_eq_ok, Prod.exists] at handled
  obtain ⟨root, middle, called, handled⟩ := handled
  cases pure_eq_ok.mp handled
  exact ((Pending.refl server).findOrInsert called).replies
    ⟨Or.inl rfl, rfl, trivial, fun _ => trivial⟩

theorem pending_of_found {fh : Argument Fhandle} {found : Server Fs}
    {path : CString} {st : Stat}
    (isFound : FileFound env fh server found path st) :
    Pending server found [] :=
  (Pending.refl server).call isFound.stats rfl

theorem replied_of_missing {fh : Argument Fhandle}
    (missing : FileMissing env fh server after) (type : MsgType) :
    Replied env.kernel type server after [] := by
  cases missing with
  | unknown _ _ => exact (Pending.refl server).refuses _ _
  | statFails _ _ called =>
      exact ((Pending.refl server).call called rfl).refuses _ _

theorem pending_of_directory {dir : Argument Fhandle} {found : Server Fs}
    {dirPath : CString}
    (isDirectory : DirectoryFound env dir server found dirPath) :
    Pending server found [] := by
  obtain ⟨_, isFound, _⟩ := isDirectory.isFound
  exact pending_of_found isFound

theorem replied_of_noDirectory {dir : Argument Fhandle}
    (missing : DirectoryMissing env dir server after) (type : MsgType) :
    Replied env.kernel type server after [] := by
  cases missing with
  | noFile missing => exact replied_of_missing missing type
  | notDirectory isFound _ => exact (pending_of_found isFound).refuses _ _

theorem handleGetattr_replied {args : GetattrArgs}
    (handled : handleGetattr env args server = .ok after) :
    Replied env.kernel .getattr server after [] := by
  rcases file_cases handled with missing | ⟨_, _, _, isFound, handled⟩
  · exact replied_of_missing missing _
  · cases pure_eq_ok.mp handled
    exact (pending_of_found isFound).replies
      ⟨Or.inl rfl, rfl, trivial, fun _ => trivial⟩

theorem readEntries_pending {dir arraySize room index : Nat}
    {start before : Server Fs} {held : List Descriptor}
    {entries : Except Errno (List Snfsentry)}
    (pending : Pending start before held)
    (read : readEntries env dir arraySize room index before =
      .ok (entries, after)) :
    Pending start after held ∧
      ∀ list, entries = .ok list → list.length ≤ room ∧
        ∀ entry ∈ list, Snfsentry.Whole entry := by
  induction room generalizing index before after entries with
  | zero =>
      rw [readEntries] at read
      split at read
      · rename_i called
        cases read
        exact ⟨pending.call called rfl, by simp⟩
      · rename_i called
        cases read
        exact ⟨pending.call called rfl, by simp⟩
      · rename_i called
        cases read
        exact ⟨pending.call called rfl, by simp⟩
  | succ room inductionHypothesis =>
      rw [readEntries] at read
      split at read
      · rename_i called
        cases read
        exact ⟨pending.call called rfl, by simp⟩
      · rename_i called
        cases read
        exact ⟨pending.call called rfl, by simp⟩
      · rename_i called
        have more := pending.call called rfl
        simp only [bind_eq_ok] at read
        obtain ⟨_, _, ⟨rest, last⟩, called, joined⟩ := read
        cases joined
        obtain ⟨ended, bound⟩ := inductionHypothesis more called
        refine ⟨ended, ?_⟩
        intro list same
        obtain ⟨tail, isRest, rfl⟩ := map_eq_ok.mp same
        obtain ⟨short, whole⟩ := bound tail isRest
        refine ⟨Nat.succ_le_succ short, ?_⟩
        intro entry member
        rcases List.mem_cons.mp member with rfl | later
        · exact toSnfsentry_whole _ _
        · exact whole entry later

theorem readdirOpens_iff {args : ReaddirArgs} {found : Server Fs}
    {dirPath : CString}
    (isDirectory : DirectoryFound env args.dir server found dirPath) :
    ReaddirOpens env.kernel args server ↔
      ∃ stream, (env.kernel (.opendir dirPath) found.fs).1 = .ok stream := by
  obtain ⟨st, isFound, directory⟩ := isDirectory.isFound
  obtain ⟨dir, dirRead, stored⟩ := isFound.stored
  have stats := kernel_of_syscall isFound.stats
  constructor
  · rintro ⟨_, _, other, fs, stream, alsoRead, alsoStored, alsoStats, _, opens⟩
    cases dirRead.symm.trans alsoRead
    cases stored.symm.trans alsoStored
    cases stats.symm.trans alsoStats
    exact ⟨stream, opens⟩
  · rintro ⟨stream, opens⟩
    exact ⟨dir, dirPath, st, found.fs, stream, dirRead, stored, stats, directory,
      opens⟩

theorem not_readdirOpens_of_missing {args : ReaddirArgs}
    (missing : DirectoryMissing env args.dir server after) :
    ¬ ReaddirOpens env.kernel args server := by
  rintro ⟨dir, dirPath, st, fs, _, dirRead, stored, stats, directory, _⟩
  cases missing with
  | noFile missing =>
      cases missing with
      | unknown read absent =>
          cases dirRead.symm.trans read
          rw [storedPath, absent] at stored
          cases stored
      | statFails read alsoStored called =>
          cases dirRead.symm.trans read
          cases stored.symm.trans alsoStored
          cases stats.symm.trans (kernel_of_syscall called)
  | notDirectory isFound isOther =>
      obtain ⟨_, read, alsoStored⟩ := isFound.stored
      cases dirRead.symm.trans read
      cases stored.symm.trans alsoStored
      cases stats.symm.trans (kernel_of_syscall isFound.stats)
      rw [directory] at isOther
      cases isOther

theorem readdirOpens_of_opened {args : ReaddirArgs} {opened : Server Fs}
    {dirPath : CString} {stream : Nat} {count : UInt64}
    (isOpen : DirectoryOpened env args server opened dirPath stream count) :
    ReaddirOpens env.kernel args server := by
  obtain ⟨found, isDirectory, opens⟩ := isOpen.opens
  exact (readdirOpens_iff isDirectory).mpr
    ⟨stream, congrArg Prod.fst (kernel_of_syscall opens)⟩

theorem pending_of_opened {args : ReaddirArgs} {opened : Server Fs}
    {dirPath : CString} {stream : Nat} {count : UInt64}
    (isOpen : DirectoryOpened env args server opened dirPath stream count) :
    Pending server opened [.directory stream] := by
  obtain ⟨found, isDirectory, opens⟩ := isOpen.opens
  exact (pending_of_directory isDirectory).opens opens rfl

/-- An `opendir` that succeeds is never undone. -/
theorem handleReaddir_replied {args : ReaddirArgs}
    (handled : handleReaddir env args server = .ok after) :
    ∃ held, Replied env.kernel .readdir server after held ∧
      (held = [] ↔ ¬ ReaddirOpens env.kernel args server) := by
  cases handleReaddir_ends handled with
  | missing missing =>
      exact ⟨[], replied_of_noDirectory missing _,
        iff_of_true rfl (not_readdirOpens_of_missing missing)⟩
  | openFails isDirectory called =>
      refine ⟨[], ((pending_of_directory isDirectory).call called rfl).refuses _ _,
        iff_of_true rfl ?_⟩
      rw [readdirOpens_iff isDirectory, kernel_of_syscall called]
      simp
  | listFails isOpen read =>
      exact ⟨_, (readEntries_pending (pending_of_opened isOpen) read).1.refuses _ _,
        iff_of_false (List.cons_ne_nil _ _)
          (not_not.mpr (readdirOpens_of_opened isOpen))⟩
  | @listed _ _ count entries _ _ isOpen read =>
      obtain ⟨ended, bound⟩ := readEntries_pending (pending_of_opened isOpen) read
      obtain ⟨short, whole⟩ := bound entries rfl
      refine ⟨_, ended.replies ⟨Or.inl rfl, rfl, whole, fun _ => ?_⟩,
        iff_of_false (List.cons_ne_nil _ _)
          (not_not.mpr (readdirOpens_of_opened isOpen))⟩
      exact UInt64.toNat_ofNat_of_lt (short.trans_lt count.toNat_lt)

theorem handleLookup_replied {args : LookupArgs}
    (handled : handleLookup env args server = .ok after) :
    Replied env.kernel .lookup server after [] := by
  cases handleLookup_ends handled with
  | missing missing => exact replied_of_noDirectory missing _
  | notThere isDirectory _ called =>
      exact ((pending_of_directory isDirectory).call called rfl).refuses _ _
  | given isDirectory _ _ stats inserted =>
      have pending := (pending_of_directory isDirectory).call stats rfl
      exact (pending.findOrInsert inserted).replies
        ⟨Or.inl rfl, rfl, trivial, fun _ => trivial⟩

theorem pending_of_readOpened {args : ReadArgs} {opened : Server Fs}
    {path : CString} {st : Stat} {fd : Nat} {wanted : Int64}
    (isOpen : ReadOpened env args server opened path st fd wanted) :
    Pending server opened [.file fd] := by
  obtain ⟨found, isFound, opens⟩ := isOpen.opens
  exact (pending_of_found isFound).opens opens rfl

theorem pending_of_readPlaced {args : ReadArgs} {moved : Server Fs}
    {path : CString} {st : Stat} {fd : Nat} {wanted : Int64} {count : UInt64}
    (placed : ReadPlaced env args server moved path st fd wanted count) :
    Pending server moved [.file fd] := by
  obtain ⟨opened, isOpen, moves⟩ := placed.isOpen
  exact (pending_of_readOpened isOpen).call moves rfl

theorem handleRead_replied {args : ReadArgs}
    (handled : handleRead env args server = .ok after) :
    Replied env.kernel .read server after [] := by
  cases handleRead_ends handled with
  | missing missing => exact replied_of_missing missing _
  | openFails isFound called =>
      exact ((pending_of_found isFound).call called rfl).refuses _ _
  | seekFails isOpen called _ =>
      exact (((pending_of_readOpened isOpen).call called rfl).refuses
        _ _).closeFd
  | readFails placed _ called =>
      exact (((pending_of_readPlaced placed).call called rfl).refuses
        _ _).closeFd
  | behind placed _ =>
      refine ((pending_of_readPlaced placed).replyRead ?_).closeFd
      intro _
      exact Nat.two_pow_pos 64
  | @transferred _ _ fd _ count data _ _ placed _ called =>
      refine (((pending_of_readPlaced placed).call called rfl).replyRead
        ?_).closeFd
      intro readsAtMost
      have bound : data.length ≤ count.toNat :=
        readsAtMost fd count _ data (congrArg Prod.fst (kernel_of_syscall called))
      exact bound.trans_lt count.toNat_lt

theorem handleWrite_replied {args : WriteArgs}
    (handled : handleWrite env args server = .ok after) :
    Replied env.kernel .write server after [] := by
  have start := Pending.refl server
  have placed_pending : ∀ {moved path fd wanted data},
      WritePlaced env args server moved path fd wanted data →
        Pending server moved [.file fd] := by
    intro moved path fd wanted data placed
    obtain ⟨_, opened, opens, moves, _⟩ := placed.isOpen
    exact (start.opens opens rfl).call moves rfl
  cases handleWrite_ends handled with
  | unknown _ _ => exact start.refuses _ _
  | openFails _ _ called => exact (start.call called rfl).refuses _ _
  | seekFails _ _ opens _ called _ =>
      exact (((start.opens opens rfl).call called rfl).refuses _ _).closeFd
  | writeFails placed called =>
      exact (((placed_pending placed).call called rfl).refuses _ _).closeFd
  | @written _ _ _ _ bytes _ _ placed called =>
      have fits : Fits env.kernel .write (.write (UInt64.ofNat bytes))
          (snfsRepSize sizeofWriteRep) :=
        ⟨Or.inl rfl, rfl, trivial, fun _ => trivial⟩
      exact (((placed_pending placed).call called rfl).replies fits).closeFd

theorem setAttribute_pending {which bit whichSet result : UInt64}
    {call : Argument Call} {start before : Server Fs}
    {held : List Descriptor} (pending : Pending start before held)
    (keeps : ∀ given, call = .ok given → ∀ opened outcome,
      openedAfter opened given outcome = opened)
    (set : setAttribute env which bit call whichSet before =
      .ok (result, after)) : Pending start after held := by
  rw [setAttribute] at set
  split at set
  · cases pure_eq_ok.mp set
    exact pending
  · simp only [bind_eq_ok] at set
    obtain ⟨given, read, set⟩ := set
    split at set
    · rename_i called
      cases pure_eq_ok.mp set
      exact pending.call called (keeps given read _ _)
    · rename_i called
      cases pure_eq_ok.mp set
      exact pending.call called (keeps given read _ _)

/-- The call an argument is made into. -/
theorem keeps_of_map {α : Type} {argument : Argument α} {make : α → Call}
    (keeps : ∀ value opened outcome,
      openedAfter opened (make value) outcome = opened) :
    ∀ given, argument.map make = .ok given → ∀ opened outcome,
      openedAfter opened given outcome = opened := by
  intro given read
  cases argument with
  | error stop => cases read
  | ok value =>
      cases read
      exact keeps value

theorem setTimes_pending {which whichSet result : UInt64}
    {filePath : CString} {args : SetattrArgs} {start before : Server Fs}
    {held : List Descriptor} (pending : Pending start before held)
    (set : setTimes env which filePath args whichSet before =
      .ok (result, after)) : Pending start after held := by
  rw [setTimes] at set
  split at set
  · cases pure_eq_ok.mp set
    exact pending
  · simp only [bind_eq_ok] at set
    obtain ⟨atime, _, mtime, _, set⟩ := set
    split at set
    · rename_i called
      cases pure_eq_ok.mp set
      exact pending.call called rfl
    · rename_i called
      have tried := pending.call called rfl
      split at set
      · rename_i again
        cases pure_eq_ok.mp set
        exact tried.call again rfl
      · rename_i again
        cases pure_eq_ok.mp set
        exact tried.call again rfl

theorem handleSetattr_replied {args : SetattrArgs}
    (handled : handleSetattr env args server = .ok after) :
    Replied env.kernel .setattr server after [] := by
  rw [handleSetattr, bind_eq_ok] at handled
  obtain ⟨which, _, handled⟩ := handled
  rcases file_cases handled with missing | ⟨_, _, _, isFound, handled⟩
  · exact replied_of_missing missing _
  · simp only [bind_eq_ok, Prod.exists] at handled
    obtain ⟨_, _, mode, _, _, uid, _, _, gid, _, _, size, _, _, times,
      handled⟩ := handled
    cases pure_eq_ok.mp handled
    have afterMode := setAttribute_pending (pending_of_found isFound)
      (keeps_of_map fun _ _ _ => rfl) mode
    have afterUid := setAttribute_pending afterMode
      (keeps_of_map fun _ _ _ => rfl) uid
    have afterGid := setAttribute_pending afterUid
      (keeps_of_map fun _ _ _ => rfl) gid
    have afterSize := setAttribute_pending afterGid
      (keeps_of_map fun _ _ _ => rfl) size
    exact (setTimes_pending afterSize times).replies
      ⟨Or.inl rfl, rfl, trivial, fun _ => trivial⟩

/-- `creat` leaves its descriptor open. -/
theorem handleCreate_replied {args : CreateArgs}
    (handled : handleCreate env args server = .ok after) :
    ∃ held, Replied env.kernel .create server after held ∧
      (held = [] ↔ ¬ CreateOpens env.kernel args server) := by
  have start := Pending.refl server
  simp only [handleCreate, handleMake, bind_eq_ok] at handled
  obtain ⟨path, pathRead, mode, modeRead, handled⟩ := handled
  split at handled
  · rename_i called
    cases pure_eq_ok.mp handled
    refine ⟨[], (start.call called rfl).refuses _ _, iff_of_true rfl ?_⟩
    simp [CreateOpens, pathRead, modeRead, kernel_of_syscall called]
  · rename_i fd _ called
    simp only [bind_eq_ok, Prod.exists] at handled
    obtain ⟨handle, middle, inserted, handled⟩ := handled
    cases pure_eq_ok.mp handled
    have opens : CreateOpens env.kernel args server :=
      ⟨path, mode, fd, pathRead, modeRead,
        congrArg Prod.fst (kernel_of_syscall called)⟩
    exact ⟨_, ((start.opens called rfl).findOrInsert inserted).replies
      ⟨Or.inl rfl, rfl, trivial, fun _ => trivial⟩,
      iff_of_false (List.cons_ne_nil _ _) (not_not.mpr opens)⟩

theorem handleMkdir_replied {args : MkdirArgs}
    (handled : handleMkdir env args server = .ok after) :
    Replied env.kernel .mkdir server after [] := by
  have start := Pending.refl server
  simp only [handleMkdir, handleMake, bind_eq_ok] at handled
  obtain ⟨path, _, mode, _, handled⟩ := handled
  split at handled
  · rename_i called
    cases pure_eq_ok.mp handled
    exact (start.call called rfl).refuses _ _
  · rename_i called
    simp only [bind_eq_ok, Prod.exists] at handled
    obtain ⟨handle, middle, inserted, handled⟩ := handled
    cases pure_eq_ok.mp handled
    exact ((start.call called rfl).findOrInsert inserted).replies
      ⟨Or.inl rfl, rfl, trivial, fun _ => trivial⟩

theorem removeStored_replied {path : CString} {start before : Server Fs}
    {held : List Descriptor} (pending : Pending start before held)
    (handled : removeStored env path before = .ok after) :
    Replied env.kernel .remove start after held := by
  simp only [removeStored, bind_eq_ok, Prod.exists] at handled
  obtain ⟨removed, middle, called, handled⟩ := handled
  have gone := pending.removeName called
  split at handled
  · cases pure_eq_ok.mp handled
    exact gone.refuses _ _
  · cases pure_eq_ok.mp handled
    exact gone.replies ⟨Or.inl rfl, rfl, trivial, fun _ => trivial⟩

theorem handleRemove_replied {args : RemoveArgs}
    (handled : handleRemove env args server = .ok after) :
    Replied env.kernel .remove server after [] := by
  rcases file_cases handled with missing | ⟨_, _, _, isFound, handled⟩
  · exact replied_of_missing missing _
  · have looked := pending_of_found isFound
    simp only [bind_eq_ok] at handled
    obtain ⟨isDir, _, handled⟩ := handled
    split at handled
    · split at handled
      · cases pure_eq_ok.mp handled
        exact looked.refuses _ _
      · split at handled
        · rename_i refused
          cases pure_eq_ok.mp handled
          exact (looked.call refused rfl).refuses _ _
        · rename_i gone
          exact removeStored_replied (looked.call gone rfl) handled
    · split at handled
      · rename_i refused
        cases pure_eq_ok.mp handled
        exact (looked.call refused rfl).refuses _ _
      · rename_i gone
        exact removeStored_replied (looked.call gone rfl) handled

theorem handleRename_replied {args : RenameArgs}
    (handled : handleRename env args server = .ok after) :
    Replied env.kernel .rename server after [] := by
  have start := Pending.refl server
  rcases handle_cases handled with ⟨_, _, _, rfl⟩ | ⟨_, _, _, _, handled⟩
  · exact start.refuses _ _
  · rw [bind_eq_ok] at handled
    obtain ⟨newPath, _, handled⟩ := handled
    split at handled
    · rename_i called
      cases pure_eq_ok.mp handled
      exact (start.call called rfl).refuses _ _
    · rename_i called
      simp only [bind_eq_ok, Prod.exists] at handled
      obtain ⟨handle, middle, inserted, removed, last, gone, handled⟩ := handled
      have ended := ((start.call called rfl).findOrInsert inserted).removeName
        gone
      split at handled
      · cases pure_eq_ok.mp handled
        exact ended.refuses _ _
      · cases pure_eq_ok.mp handled
        exact ended.replies ⟨Or.inl rfl, rfl, trivial, fun _ => trivial⟩

/-- One fitting reply for every request, and what is then still open. -/
theorem dispatch_replied {message : Bytes} {type : MsgType}
    (handled : dispatch env message server type = .ok after) :
    ∃ held, Replied env.kernel type server after held ∧
      (held = [] ↔ ¬ Opens env.kernel message server type) := by
  have start := Pending.refl server
  have closed : Replied env.kernel type server after [] →
      ¬ Opens env.kernel message server type →
      ∃ held, Replied env.kernel type server after held ∧
        (held = [] ↔ ¬ Opens env.kernel message server type) :=
    fun replied opensNothing => ⟨[], replied, iff_of_true rfl opensNothing⟩
  cases type with
  | noop =>
      cases pure_eq_ok.mp handled
      exact closed (start.replies ⟨Or.inl rfl, rfl, trivial, fun _ => trivial⟩) id
  | mount => exact closed (handleMount_replied handled) id
  | getattr => exact closed (handleGetattr_replied handled) id
  | readdir => exact handleReaddir_replied handled
  | lookup => exact closed (handleLookup_replied handled) id
  | read => exact closed (handleRead_replied handled) id
  | write => exact closed (handleWrite_replied handled) id
  | setattr => exact closed (handleSetattr_replied handled) id
  | create => exact handleCreate_replied handled
  | remove => exact closed (handleRemove_replied handled) id
  | rename => exact closed (handleRename_replied handled) id
  | mkdir => exact closed (handleMkdir_replied handled) id
  | error =>
      cases pure_eq_ok.mp handled
      exact closed (start.refuses _ _) id
  | other word =>
      cases pure_eq_ok.mp handled
      exact closed (start.refuses _ _) id

end Handlers

end ChlorosSnfs.Snfs.HandlerReplies
