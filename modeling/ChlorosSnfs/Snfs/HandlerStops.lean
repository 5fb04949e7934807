import ChlorosSnfs.Snfs.HandlerEffects

/-!
# How a handler can stop

A handler stops where it reads an argument that is not there, follows a value
that is no string, leaves its stack, finds no draw, or meets `err_exit`.
`StopsOnly` bounds these stops from the ones of the parts: `Sources` lists what
the parts that depend on the server may do, `Overruns` when an array that a client
has sized makes the handler leave its stack.
-/

set_option autoImplicit false

namespace ChlorosSnfs.Snfs.HandlerStops

open ChlorosSnfs.Snfs.Fhandledb
open ChlorosSnfs.Snfs.Messages
open ChlorosSnfs.Snfs.Syscalls
open ChlorosSnfs.Snfs.Handlers
open ChlorosSnfs.Snfs.ServeLoop
open ChlorosSnfs.Snfs.HandlerEffects

variable {Fs : Type} {allowed : Stop → Prop}

/-- Where the computation stops, it stops for one of the allowed reasons. -/
def StopsOnly {α : Type} (allowed : Stop → Prop) (result : Except Stop α) :
    Prop :=
  ∀ stop, result = .error stop → allowed stop

theorem stopsOnly_ok {α : Type} (value : α) :
    StopsOnly allowed (.ok value : Except Stop α) := by
  intro stop stopped
  cases stopped

theorem stopsOnly_error {α : Type} {stop : Stop} (fine : allowed stop) :
    StopsOnly allowed (.error stop : Except Stop α) := by
  intro other stopped
  cases stopped
  exact fine

theorem stopsOnly_bind {α β : Type} {first : Except Stop α}
    {second : α → Except Stop β} (stops : StopsOnly allowed first)
    (next : ∀ value, first = .ok value → StopsOnly allowed (second value)) :
    StopsOnly allowed (first >>= second) := by
  cases first with
  | ok value => exact next value rfl
  | error stop => exact stopsOnly_error (stops stop rfl)

theorem stopsOnly_map {α β : Type} {argument : Argument α}
    (stops : StopsOnly allowed argument) (f : α → β) :
    StopsOnly allowed (argument.map f) := by
  cases argument with
  | ok value => exact stopsOnly_ok (f value)
  | error stop => exact stopsOnly_error (stops stop rfl)

theorem withinRoom_stopsOnly {bytes room : Nat}
    (overrun : room < bytes → allowed .stackOverrun) :
    StopsOnly allowed (withinRoom bytes room) := by
  by_cases fits : bytes ≤ room
  · rw [withinRoom_of_le fits]
    exact stopsOnly_ok ()
  · have overruns := Nat.lt_of_not_le fits
    rw [withinRoom_of_lt overruns]
    exact stopsOnly_error (overrun overruns)

/-! ## Arrays on the stack -/

/-- How many entries the loop over a directory stores: those that `readdir` gives
before it fails or ends, as long as there is room. -/
def entriesGiven (kernel : Kernel Fs) (dir : Nat) : Nat → Fs → Nat
  | 0, _ => 0
  | room + 1, fs =>
      match kernel (.readdir dir) fs with
      | (.ok (some _), fs) => entriesGiven kernel dir room fs + 1
      | _ => 0

/-- A READDIR that opens its directory and whose array is larger than what is
left of the stack, or too small for the entries. -/
def ReaddirOverruns (env : Env Fs) (args : ReaddirArgs) (server : Server Fs) :
    Prop :=
  ∃ dirPath stream count opened,
    DirectoryOpened env args server opened dirPath stream count ∧
      (env.leftover.stack < (entriesArraySize count).toNat ∨
        (entriesArraySize count).toNat < sizeofSnfsentry *
          entriesGiven env.kernel stream count.toNat opened.fs)

/-- A READ that comes to its buffer, which is larger than what is left of the
stack or too small for the data. -/
def ReadOverruns (env : Env Fs) (args : ReadArgs) (server : Server Fs) : Prop :=
  ∃ path st fd wanted count moved,
    ReadPlaced env args server moved path st fd wanted count ∧
      (env.leftover.stack < (readBufferSize count).toNat ∨
        ∃ data, wanted < st.size ∧
          (env.kernel (.read fd count) moved.fs).1 = .ok data ∧
          (readBufferSize count).toNat < data.length)

/-- A request whose handler leaves its stack. -/
def Overruns (env : Env Fs) (message : Bytes) (server : Server Fs) : Prop :=
  (messageType message = .ok .readdir ∧
    ReaddirOverruns env (readdirArgs message) server) ∨
  (messageType message = .ok .read ∧
    ReadOverruns env (readArgs message) server)

section Arrays

variable {env : Env Fs} {dir arraySize index room : Nat}

theorem entriesGiven_of_entry {before after : Server Fs} {entry : Dirent}
    (called : syscall env (.readdir dir) before = (.ok (some entry), after)) :
    entriesGiven env.kernel dir (room + 1) before.fs =
      entriesGiven env.kernel dir room after.fs + 1 := by
  rw [entriesGiven, kernel_of_syscall called]

/-- The loop stops when the next entry lies behind the array. -/
theorem readEntries_of_overrun {server : Server Fs}
    (stored : sizeofSnfsentry * index ≤ arraySize)
    (overruns : arraySize < sizeofSnfsentry *
      (index + entriesGiven env.kernel dir room server.fs)) :
    readEntries env dir arraySize room index server = .error .stackOverrun := by
  induction room generalizing index server with
  | zero =>
      rw [entriesGiven, Nat.add_zero] at overruns
      exact absurd overruns (Nat.not_lt.mpr stored)
  | succ room inductionHypothesis =>
      have none_given {outcome : Outcome (.readdir dir)} {after : Server Fs}
          (called : syscall env (.readdir dir) server = (outcome, after))
          (noEntry : ∀ entry, outcome ≠ .ok (some entry)) : False := by
        rw [entriesGiven, kernel_of_syscall called] at overruns
        split at overruns
        · rename_i entry _ same
          exact noEntry entry (congrArg Prod.fst same)
        · rw [Nat.add_zero] at overruns
          exact absurd overruns (Nat.not_lt.mpr stored)
      rw [readEntries]
      split
      · rename_i called
        exact (none_given called (by simp)).elim
      · rename_i called
        exact (none_given called (by simp)).elim
      · rename_i after called
        rw [entriesGiven_of_entry called] at overruns
        by_cases fits : sizeofSnfsentry * (index + 1) ≤ arraySize
        · have rest := @inductionHypothesis (index + 1) after fits
            (by rw [Nat.add_right_comm, Nat.add_assoc]; exact overruns)
          simp only [withinRoom_of_le fits, ok_bind, rest]
          rfl
        · simp only [withinRoom_of_lt (Nat.lt_of_not_le fits)]
          rfl

theorem readEntries_of_fits {server : Server Fs}
    (fits : sizeofSnfsentry *
      (index + entriesGiven env.kernel dir room server.fs) ≤ arraySize) :
    StopsOnly allowed (readEntries env dir arraySize room index server) := by
  induction room generalizing index server with
  | zero =>
      rw [readEntries]
      split <;> exact stopsOnly_ok _
  | succ room inductionHypothesis =>
      rw [readEntries]
      split
      · exact stopsOnly_ok _
      · exact stopsOnly_ok _
      · rename_i after called
        rw [entriesGiven_of_entry called, ← Nat.add_assoc,
          Nat.add_right_comm] at fits
        have size : sizeofSnfsentry = 264 := rfl
        have next : sizeofSnfsentry * (index + 1) ≤ arraySize := by
          rw [size] at fits ⊢
          omega
        simp only [withinRoom_of_le next, ok_bind]
        exact stopsOnly_bind (inductionHypothesis fits) fun _ _ => stopsOnly_ok _

variable {server : Server Fs}

end Arrays

/-- What the parts of a handler that depend on the server may do. -/
structure Sources (allowed : Stop → Prop) (env : Env Fs) (server : Server Fs) :
    Prop where
  strings : ∀ handle value, getFile server.db handle = some value →
    StopsOnly allowed (asString value)
  inserts : ∀ filename middle, Kept server middle →
    StopsOnly allowed (findOrInsert env filename middle)
  removes : ∀ handle path middle, storedPath server.db handle = some path →
    (middle.db = server.db ∨ ∃ filename newHandle rest,
      nameFindOrInsert env.leftover.word server.db server.draws filename =
        some (newHandle, middle.db, rest)) →
    StopsOnly allowed (removeName env path middle)
  emptyDirectory : ∀ dirPath st, dirPath.bytes = [] →
    (env.kernel (.stat dirPath) server.fs).1 = .ok st → allowed .heapOverread

namespace Sources

variable {env : Env Fs} {server : Server Fs}

/-- The handlers that name a file by its handle look it up first. -/
theorem handle_stopsOnly (sources : Sources allowed env server)
    {fh : Argument Fhandle} (stops : StopsOnly allowed fh)
    {rest : Fhandle → CString → Except Stop (Server Fs)}
    (next : ∀ handle path, fh = .ok handle →
      storedPath server.db handle = some path →
      StopsOnly allowed (rest handle path)) :
    StopsOnly allowed (do
      let handle ← fh
      match getFile server.db handle with
      | none => return handleError .enoent server
      | some value =>
        let path ← asString value
        rest handle path) := by
  refine stopsOnly_bind stops ?_
  intro handle read
  split
  · exact stopsOnly_ok _
  · rename_i known
    refine stopsOnly_bind (sources.strings handle _ known) ?_
    intro path string
    exact next handle path read (storedPath_eq_some known string)

theorem handleMount (sources : Sources allowed env server) :
    StopsOnly allowed (handleMount env server) := by
  rw [Handlers.handleMount]
  exact stopsOnly_bind (sources.inserts rootPath server (Kept.refl server))
    fun _ _ => stopsOnly_ok _

theorem handleGetattr (sources : Sources allowed env server)
    {args : GetattrArgs} (fh : StopsOnly allowed args.fh) :
    StopsOnly allowed (handleGetattr env args server) := by
  rw [Handlers.handleGetattr]
  refine handle_stopsOnly sources fh ?_
  intro _ filePath _ _
  split
  · exact stopsOnly_ok _
  · exact stopsOnly_ok _

theorem handleReaddir (sources : Sources allowed env server)
    {args : ReaddirArgs} (dir : StopsOnly allowed args.dir)
    (count : StopsOnly allowed args.count)
    (overrun : ReaddirOverruns env args server → allowed .stackOverrun) :
    StopsOnly allowed (handleReaddir env args server) := by
  rw [Handlers.handleReaddir]
  refine handle_stopsOnly sources dir ?_
  intro handle dirPath dirRead stored
  split
  · exact stopsOnly_ok _
  · rename_i st found stats
    split
    · exact stopsOnly_ok _
    · rename_i directory
      rw [Bool.not_eq_true', Bool.not_eq_false] at directory
      split
      · exact stopsOnly_ok _
      · rename_i stream opened opens
        refine stopsOnly_bind count ?_
        intro wanted countRead
        have isOpen : DirectoryOpened env args server opened dirPath stream wanted :=
          ⟨⟨found, ⟨st, ⟨⟨handle, dirRead, stored⟩, stats⟩, directory⟩, opens⟩,
            countRead⟩
        refine stopsOnly_bind (withinRoom_stopsOnly fun larger =>
          overrun ⟨dirPath, stream, wanted, opened, isOpen, Or.inl larger⟩) ?_
        intro _ _
        refine stopsOnly_bind ?_ ?_
        · by_cases fits : sizeofSnfsentry *
              (0 + entriesGiven env.kernel stream wanted.toNat opened.fs) ≤
                (entriesArraySize wanted).toNat
          · exact readEntries_of_fits fits
          · have behind := Nat.lt_of_not_le fits
            rw [readEntries_of_overrun (Nat.zero_le _) behind]
            rw [Nat.zero_add] at behind
            exact stopsOnly_error (overrun
              ⟨dirPath, stream, wanted, opened, isOpen, Or.inr behind⟩)
        · intro entries _
          split
          · exact stopsOnly_ok _
          · exact stopsOnly_ok _

theorem handleLookup (sources : Sources allowed env server)
    {args : LookupArgs} (dir : StopsOnly allowed args.dir)
    (filename : StopsOnly allowed args.filename) :
    StopsOnly allowed (handleLookup env args server) := by
  rw [Handlers.handleLookup]
  refine handle_stopsOnly sources dir ?_
  intro _ dirPath _ _
  split
  · exact stopsOnly_ok _
  · rename_i st1 middle called
    split
    · exact stopsOnly_ok _
    · refine stopsOnly_bind filename ?_
      intro name _
      split
      · rename_i empty
        refine stopsOnly_error (sources.emptyDirectory dirPath st1 empty ?_)
        rw [kernel_of_syscall called]
      · dsimp only
        split
        · exact stopsOnly_ok _
        · rename_i found
          refine stopsOnly_bind (sources.inserts _ _ ?_)
            fun _ _ => stopsOnly_ok _
          exact (kept_of_syscall called).trans (kept_of_syscall found)

/-- READ looks at its count only after a `lseek` to a place in the file. -/
theorem handleRead (sources : Sources allowed env server)
    {args : ReadArgs} (file : StopsOnly allowed args.file)
    (offset : StopsOnly allowed args.offset)
    (count : StopsOnly allowed args.count ∨
      ∀ wanted, args.offset = .ok wanted → wanted < 0)
    (overrun : ReadOverruns env args server → allowed .stackOverrun) :
    StopsOnly allowed (handleRead env args server) := by
  rw [Handlers.handleRead]
  refine handle_stopsOnly sources file ?_
  intro handle filePath fileRead stored
  split
  · exact stopsOnly_ok _
  · rename_i st found stats
    split
    · exact stopsOnly_ok _
    · rename_i fd opened opens
      refine stopsOnly_bind offset ?_
      intro wanted offsetRead
      have isOpen : ReadOpened env args server opened filePath st fd wanted :=
        ⟨⟨found, ⟨⟨handle, fileRead, stored⟩, stats⟩, opens⟩, offsetRead⟩
      dsimp only
      split
      · exact stopsOnly_ok _
      · rename_i reached
        rcases count with count | beforeStart
        · refine stopsOnly_bind count ?_
          intro asked countRead
          have placed := readPlaced_of_reached isOpen rfl reached countRead
          rw [not_or, not_not] at reached
          refine stopsOnly_bind (withinRoom_stopsOnly fun larger =>
            overrun ⟨_, _, _, _, _, _, placed, Or.inl larger⟩) ?_
          intro _ _
          rw [reached.2]
          split
          · rename_i inside
            split
            · exact stopsOnly_ok _
            · rename_i data last called
              refine stopsOnly_bind (withinRoom_stopsOnly fun smaller =>
                overrun ⟨_, _, _, _, _, _, placed, Or.inr ⟨data, inside,
                  congrArg Prod.fst (kernel_of_syscall called), smaller⟩⟩) ?_
              intro _ _
              exact stopsOnly_ok _
          · exact stopsOnly_ok _
        · rw [not_or, not_not] at reached
          have negative := beforeStart wanted offsetRead
          rw [reached.2] at reached
          exact absurd negative reached.1

theorem handleWrite (sources : Sources allowed env server)
    {args : WriteArgs} (file : StopsOnly allowed args.file)
    (offset : StopsOnly allowed args.offset)
    (count : StopsOnly allowed args.count)
    (data : ∀ asked, args.count = .ok asked →
      StopsOnly allowed (args.data asked)) :
    StopsOnly allowed (handleWrite env args server) := by
  rw [Handlers.handleWrite]
  refine handle_stopsOnly sources file ?_
  intro _ filePath _ _
  split
  · exact stopsOnly_ok _
  · refine stopsOnly_bind offset ?_
    intro wanted _
    dsimp only
    split
    · exact stopsOnly_ok _
    · refine stopsOnly_bind count ?_
      intro asked read
      refine stopsOnly_bind (data asked read) ?_
      intro bytes _
      split
      · exact stopsOnly_ok _
      · exact stopsOnly_ok _

end Sources

theorem setAttribute_stopsOnly (env : Env Fs) (which bit whichSet : UInt64)
    {call : Argument Call} (server : Server Fs)
    (stops : StopsOnly allowed call) :
    StopsOnly allowed (setAttribute env which bit call whichSet server) := by
  rw [setAttribute]
  split
  · exact stopsOnly_ok _
  · refine stopsOnly_bind stops ?_
    intro made _
    split
    · exact stopsOnly_ok _
    · exact stopsOnly_ok _

theorem setTimes_stopsOnly (env : Env Fs) (which whichSet : UInt64)
    (filePath : CString) {args : SetattrArgs} (server : Server Fs)
    (atime : StopsOnly allowed args.atime)
    (mtime : StopsOnly allowed args.mtime) :
    StopsOnly allowed (setTimes env which filePath args whichSet server) := by
  rw [setTimes]
  split
  · exact stopsOnly_ok _
  · refine stopsOnly_bind atime ?_
    intro accessed _
    refine stopsOnly_bind mtime ?_
    intro modified _
    split
    · exact stopsOnly_ok _
    · split
      · exact stopsOnly_ok _
      · exact stopsOnly_ok _

/-- Every argument of a SETATTR. -/
structure SetattrArgs.StopOnly (allowed : Stop → Prop) (args : SetattrArgs) :
    Prop where
  which : StopsOnly allowed args.which
  file : StopsOnly allowed args.file
  mode : StopsOnly allowed args.mode
  uid : StopsOnly allowed args.uid
  gid : StopsOnly allowed args.gid
  size : StopsOnly allowed args.size
  atime : StopsOnly allowed args.atime
  mtime : StopsOnly allowed args.mtime

theorem removeStored_stopsOnly {env : Env Fs} {path : CString}
    {server : Server Fs}
    (removes : StopsOnly allowed (removeName env path server)) :
    StopsOnly allowed (removeStored env path server) := by
  rw [removeStored]
  refine stopsOnly_bind removes ?_
  intro result _
  dsimp only
  split
  · exact stopsOnly_ok _
  · exact stopsOnly_ok _

namespace Sources

variable {env : Env Fs} {server : Server Fs}

theorem handleSetattr (sources : Sources allowed env server)
    {args : SetattrArgs} (stops : SetattrArgs.StopOnly allowed args) :
    StopsOnly allowed (handleSetattr env args server) := by
  rw [Handlers.handleSetattr]
  refine stopsOnly_bind stops.which ?_
  intro which _
  refine handle_stopsOnly sources stops.file ?_
  intro _ filePath _ _
  split
  · exact stopsOnly_ok _
  · refine stopsOnly_bind (setAttribute_stopsOnly env _ _ _ _
      (stopsOnly_map stops.mode _)) ?_
    intro afterMode _
    refine stopsOnly_bind (setAttribute_stopsOnly env _ _ _ _
      (stopsOnly_map stops.uid _)) ?_
    intro afterUid _
    refine stopsOnly_bind (setAttribute_stopsOnly env _ _ _ _
      (stopsOnly_map stops.gid _)) ?_
    intro afterGid _
    refine stopsOnly_bind (setAttribute_stopsOnly env _ _ _ _
      (stopsOnly_map stops.size _)) ?_
    intro afterSize _
    refine stopsOnly_bind (setTimes_stopsOnly env _ _ _ _ stops.atime
      stops.mtime) ?_
    intro afterTimes _
    exact stopsOnly_ok _

theorem handleMake (sources : Sources allowed env server)
    (call : CString → UInt32 → Call) (reply : Fhandle → Reply) (size : Nat)
    {filename : Argument CString} {mode : Argument UInt32}
    (nameStops : StopsOnly allowed filename)
    (modeStops : StopsOnly allowed mode) :
    StopsOnly allowed (handleMake env call reply size filename mode server) := by
  rw [Handlers.handleMake]
  refine stopsOnly_bind nameStops ?_
  intro path _
  refine stopsOnly_bind modeStops ?_
  intro bits _
  split
  · exact stopsOnly_ok _
  · rename_i called
    exact stopsOnly_bind (sources.inserts _ _ (kept_of_syscall called))
      fun _ _ => stopsOnly_ok _

theorem handleRemove (sources : Sources allowed env server)
    {args : RemoveArgs} (fh : StopsOnly allowed args.fh)
    (isDir : StopsOnly allowed args.isDir) :
    StopsOnly allowed (handleRemove env args server) := by
  rw [Handlers.handleRemove]
  refine handle_stopsOnly sources fh ?_
  intro handle path _ stored
  split
  · exact stopsOnly_ok _
  · rename_i called
    refine stopsOnly_bind isDir ?_
    intro asDirectory _
    split
    · split
      · exact stopsOnly_ok _
      · split
        · exact stopsOnly_ok _
        · rename_i gone
          refine removeStored_stopsOnly
            (sources.removes handle path _ stored (Or.inl ?_))
          exact ((kept_of_syscall called).trans (kept_of_syscall gone)).db
    · split
      · exact stopsOnly_ok _
      · rename_i gone
        refine removeStored_stopsOnly
          (sources.removes handle path _ stored (Or.inl ?_))
        exact ((kept_of_syscall called).trans (kept_of_syscall gone)).db

theorem handleRename (sources : Sources allowed env server)
    {args : RenameArgs} (fh : StopsOnly allowed args.fh)
    (filename : StopsOnly allowed args.filename) :
    StopsOnly allowed (handleRename env args server) := by
  rw [Handlers.handleRename]
  refine handle_stopsOnly sources fh ?_
  intro handle oldPath _ stored
  refine stopsOnly_bind filename ?_
  intro newPath _
  split
  · exact stopsOnly_ok _
  · rename_i called
    have kept := kept_of_syscall called
    refine stopsOnly_bind (sources.inserts _ _ kept) ?_
    intro inserted found
    obtain ⟨added, _, _⟩ := findOrInsert_eq_ok found
    rw [kept.db, kept.draws] at added
    refine stopsOnly_bind (sources.removes handle oldPath _ stored
      (Or.inr ⟨newPath, inserted.1, _, added⟩)) ?_
    intro result _
    dsimp only
    split
    · exact stopsOnly_ok _
    · exact stopsOnly_ok _

end Sources

end ChlorosSnfs.Snfs.HandlerStops
