import ChlorosSnfs.Snfs.ErrorReplies
import ChlorosSnfs.Snfs.HandlerStops

/-!
# What the handlers read of a message

No handler is told how long the received message is.  Each reads where
requests.h puts its arguments, so it stays inside the message exactly when the
message is as long as a request of its type and its name ends within its field.
-/

set_option autoImplicit false

namespace ChlorosSnfs.Snfs.MessageBounds

open ChlorosSnfs.Library.LittleEndian
open ChlorosSnfs.Library.Runs
open ChlorosSnfs.Snfs.Fhandledb
open ChlorosSnfs.Snfs.Messages
open ChlorosSnfs.Snfs.Syscalls
open ChlorosSnfs.Snfs.Handlers
open ChlorosSnfs.Snfs.ServeLoop
open ChlorosSnfs.Snfs.HandlerEffects
open ChlorosSnfs.Snfs.HandlerStops
open ChlorosSnfs.Snfs.ServerDatabase
open ChlorosSnfs.Snfs.ErrorReplies

variable {Fs : Type}

/-! ## Arguments inside the message -/

/-- The argument is there when the message goes as far as `finish`, and reading
it leaves the message when it does not. -/
def EndsAt {α : Type} (message : Bytes) (argument : Argument α) (finish : Nat) :
    Prop :=
  (finish ≤ message.length ∧ ∃ value, argument = .ok value) ∨
    (message.length < finish ∧ argument = .error .messageOverread)

theorem EndsAt.map {α β : Type} {message : Bytes} {argument : Argument α}
    {finish : Nat} (ends : EndsAt message argument finish) (f : α → β) :
    EndsAt message (argument.map f) finish := by
  rcases ends with ⟨inside, value, rfl⟩ | ⟨short, rfl⟩
  · exact Or.inl ⟨inside, f value, rfl⟩
  · exact Or.inr ⟨short, rfl⟩

theorem readBytes_endsAt (message : Bytes) (offset width : Nat) :
    EndsAt message (readBytes message offset width) (offset + width) := by
  by_cases inside : offset + width ≤ message.length
  · exact Or.inl ⟨inside, _, if_pos inside⟩
  · exact Or.inr ⟨by omega, if_neg inside⟩

theorem readWord_endsAt (message : Bytes) (offset width : Nat) :
    EndsAt message (readWord message offset width) (offset + width) :=
  (readBytes_endsAt message offset width).map ofBytes

theorem readUInt64_endsAt (message : Bytes) (offset : Nat) :
    EndsAt message (readUInt64 message offset) (offset + 8) :=
  (readWord_endsAt message offset 8).map UInt64.ofNat

theorem readInt64_endsAt (message : Bytes) (offset : Nat) :
    EndsAt message (readInt64 message offset) (offset + 8) :=
  (readUInt64_endsAt message offset).map UInt64.toInt64

theorem readUInt32_endsAt (message : Bytes) (offset : Nat) :
    EndsAt message (readUInt32 message offset) (offset + 4) :=
  (readWord_endsAt message offset 4).map UInt32.ofNat

theorem readUInt8_endsAt (message : Bytes) (offset : Nat) :
    EndsAt message (readUInt8 message offset) (offset + 1) :=
  (readWord_endsAt message offset 1).map UInt8.ofNat

theorem readTimeval_endsAt (message : Bytes) (offset : Nat) :
    EndsAt message (readTimeval message offset) (offset + 16) := by
  rcases readInt64_endsAt message (offset + 8) with
    ⟨inside, useconds, read⟩ | ⟨short, overread⟩
  · rcases readInt64_endsAt message offset with
      ⟨_, seconds, first⟩ | ⟨short, _⟩
    · refine Or.inl ⟨by omega, ⟨seconds, useconds⟩, ?_⟩
      rw [readTimeval, first, read]
      rfl
    · omega
  · refine Or.inr ⟨by omega, ?_⟩
    rw [readTimeval, overread]
    rcases readInt64_endsAt message offset with
      ⟨_, seconds, first⟩ | ⟨_, first⟩
    · rw [first]
      rfl
    · rw [first]
      rfl

/-- The read of a string ends in the message or leaves it. -/
theorem readString_cases (message : Bytes) (offset : Nat) :
    (∃ string, readString message offset = .ok string) ∨
      readString message offset = .error .messageOverread := by
  rw [readString]
  cases stringAt (message.drop offset) with
  | none => exact Or.inr rfl
  | some string => exact Or.inl ⟨string, rfl⟩

/-- A NUL in the bytes of the field. -/
def EndsInField (message : Bytes) (offset : Nat) : Prop :=
  0 ∈ (message.drop offset).take snfsMaxFilenameBuf

theorem readString_of_endsInField {message : Bytes} {offset : Nat}
    (ends : EndsInField message offset) :
    ∃ string, readString message offset = .ok string := by
  have member : 0 ∈ message.drop offset := List.mem_of_mem_take ends
  rw [readString, stringAt, if_pos member]
  exact ⟨_, rfl⟩

/-! ## Well-formed messages -/

/-- `snfs_req_size`. -/
def snfsReqSize : MsgType → Nat
  | .getattr => 12
  | .readdir => 20
  | .lookup => 268
  | .read => 28
  | .write => 28
  | .setattr => 84
  | .create => 264
  | .remove => 20
  | .rename => 268
  | .mkdir => 264
  | _ => 4

/-- Where the name of a request stands. -/
def nameOffset : MsgType → Option Nat
  | .lookup => some 12
  | .create => some 4
  | .rename => some 12
  | .mkdir => some 4
  | _ => none

/-- As long as a request of its type, with its name ending in its field and all
the data it announces. -/
structure Complete (message : Bytes) (type : MsgType) : Prop where
  size : snfsReqSize type ≤ message.length
  name : ∀ offset, nameOffset type = some offset → EndsInField message offset
  data : type = .write → ∀ count, (writeArgs message).count = .ok count →
    28 + count.toNat ≤ message.length

def WellFormed (message : Bytes) : Prop :=
  ∃ type, messageType message = .ok type ∧ Complete message type

/-- A READ too short for its count that asks for an offset before the start. -/
def ReadsBeforeStart (message : Bytes) : Prop :=
  messageType message = .ok .read ∧
    ∃ offset, (readArgs message).offset = .ok offset ∧ offset < 0

/-- What is asked of the handling of a message: it reads only the message, and
one that is not well formed is answered with an ERROR and changes nothing. -/
structure HandledInside (env : Env Fs) (message : Bytes) (server : Server Fs) :
    Prop where
  inside : serve env message server ≠ .error .messageOverread
  rejected : ¬ WellFormed message → ∀ next,
    serve env message server = .ok next →
      RepliesError server next ∧ next.db = server.db ∧
        Quiet env.kernel server.fs next.fs

/-! ## Handlers whose arguments are there -/

variable {allowed : Stop → Prop}

theorem EndsAt.stopsOnly {α : Type} {message : Bytes} {argument : Argument α}
    {finish : Nat} (ends : EndsAt message argument finish)
    (reaches : finish ≤ message.length) : StopsOnly allowed argument := by
  rcases ends with ⟨_, value, rfl⟩ | ⟨short, _⟩
  · exact stopsOnly_ok value
  · omega

theorem EndsInField.stopsOnly {message : Bytes} {offset : Nat}
    (ends : EndsInField message offset) :
    StopsOnly allowed (readString message offset) := by
  obtain ⟨string, read⟩ := readString_of_endsInField ends
  rw [read]
  exact stopsOnly_ok string

theorem setattrArgs_stopOnly {message : Bytes} (size : 84 ≤ message.length) :
    SetattrArgs.StopOnly allowed (setattrArgs message) := by
  have word : ∀ offset, offset + 8 ≤ 84 →
      StopsOnly allowed (readUInt64 message offset) :=
    fun offset inField =>
      (readUInt64_endsAt message offset).stopsOnly (by omega)
  have times : ∀ offset, offset + 16 ≤ 84 →
      StopsOnly allowed (readTimeval message offset) :=
    fun offset inField =>
      (readTimeval_endsAt message offset).stopsOnly (by omega)
  exact {
    which := word 12 (by omega)
    file := word 4 (by omega)
    mode := word 20 (by omega)
    uid := word 28 (by omega)
    gid := word 36 (by omega)
    size := (readInt64_endsAt message 44).stopsOnly (by omega)
    atime := times 52 (by omega)
    mtime := times 68 (by omega) }

/-- With a well-formed message only the server and the stack can stop its
handler. -/
theorem serve_stopsOnly {env : Env Fs} {message : Bytes} {server : Server Fs}
    (sources : Sources allowed env server)
    (overrun : Overruns env message server → allowed .stackOverrun)
    (wellFormed : WellFormed message) :
    StopsOnly allowed (serve env message server) := by
  obtain ⟨type, named, complete⟩ := wellFormed
  obtain ⟨size, name, data⟩ := complete
  have wordStops : StopsOnly allowed (readWord message 0 sizeofSnfsMsgType) := by
    intro stop stopped
    rw [messageType, stopped] at named
    cases named
  rw [serve]
  refine stopsOnly_bind wordStops ?_
  intro word read
  have same : MsgType.ofWord word = type := by
    rw [messageType, read] at named
    exact Except.ok.inj named
  rw [same]
  have handleStops : 12 ≤ message.length →
      StopsOnly allowed (readUInt64 message 4) :=
    (readUInt64_endsAt message 4).stopsOnly
  cases type with
  | noop => exact stopsOnly_ok _
  | mount => exact sources.handleMount
  | getattr => exact sources.handleGetattr (handleStops size)
  | readdir =>
      simp only [snfsReqSize] at size
      exact sources.handleReaddir (handleStops (by omega))
        ((readUInt64_endsAt message 12).stopsOnly size)
        fun overruns => overrun (Or.inl ⟨named, overruns⟩)
  | lookup =>
      simp only [snfsReqSize] at size
      exact sources.handleLookup (handleStops (by omega)) (name 12 rfl).stopsOnly
  | read =>
      simp only [snfsReqSize] at size
      exact sources.handleRead (handleStops (by omega))
        ((readInt64_endsAt message 12).stopsOnly (by omega))
        (Or.inl ((readUInt64_endsAt message 20).stopsOnly size))
        fun overruns => overrun (Or.inr ⟨named, overruns⟩)
  | write =>
      simp only [snfsReqSize] at size
      refine sources.handleWrite (handleStops (by omega))
        ((readInt64_endsAt message 12).stopsOnly (by omega))
        ((readUInt64_endsAt message 20).stopsOnly size) ?_
      intro asked announced
      exact (readBytes_endsAt message 28 asked.toNat).stopsOnly
        (data rfl asked announced)
  | setattr => exact sources.handleSetattr (setattrArgs_stopOnly size)
  | create =>
      exact sources.handleMake _ _ _ (name 4 rfl).stopsOnly
        ((readUInt32_endsAt message 260).stopsOnly size)
  | remove =>
      simp only [snfsReqSize] at size
      exact sources.handleRemove (handleStops (by omega))
        ((readUInt8_endsAt message 12).stopsOnly (by omega))
  | rename =>
      simp only [snfsReqSize] at size
      exact sources.handleRename (handleStops (by omega)) (name 12 rfl).stopsOnly
  | mkdir =>
      exact sources.handleMake _ _ _ (name 4 rfl).stopsOnly
        ((readUInt32_endsAt message 260).stopsOnly size)
  | error => exact stopsOnly_ok _
  | other word => exact stopsOnly_ok _

/-- Every stop but one behind the message. -/
abbrev NoOverread (stop : Stop) : Prop := stop ≠ .messageOverread

theorem ne_overread_of_stopsOnly {α : Type} {result : Except Stop α}
    (stops : StopsOnly NoOverread result) : result ≠ .error .messageOverread :=
  fun overread => stops .messageOverread overread rfl

theorem asString_stopsOnly (fine : allowed .heapOverread) (value : Bytes) :
    StopsOnly allowed (asString value) := by
  rw [asString]
  split
  · exact stopsOnly_ok _
  · exact stopsOnly_error fine

theorem findOrInsert_stopsOnly (fine : allowed .noDraw) (env : Env Fs)
    (filename : CString) (server : Server Fs) :
    StopsOnly allowed (findOrInsert env filename server) := by
  rw [findOrInsert]
  split
  · exact stopsOnly_ok _
  · exact stopsOnly_error fine

theorem removeName_stopsOnly (fine : allowed .errExit) (env : Env Fs)
    (filename : CString) (server : Server Fs) :
    StopsOnly allowed (removeName env filename server) := by
  rw [removeName]
  split
  · exact stopsOnly_ok _
  · exact stopsOnly_error fine

/-- The server reads no message. -/
theorem sources_noOverread (env : Env Fs) (server : Server Fs) :
    Sources NoOverread env server where
  strings _ value _ := asString_stopsOnly (by decide) value
  inserts filename middle _ := findOrInsert_stopsOnly (by decide) env filename middle
  removes _ path middle _ _ := removeName_stopsOnly (by decide) env path middle
  emptyDirectory _ _ _ _ := by decide

/-- The bytes of a well-formed message are all a handler reads. -/
theorem serve_inside (env : Env Fs) {message : Bytes} (server : Server Fs)
    (wellFormed : WellFormed message) :
    serve env message server ≠ .error .messageOverread :=
  ne_overread_of_stopsOnly
    (serve_stopsOnly (sources_noOverread env server) (fun _ => by decide) wellFormed)

/-! ## A READ before the start of its file -/

theorem handleRead_refused {env : Env Fs} {args : ReadArgs}
    {server after : Server Fs} {wanted : Int64}
    (read : args.offset = .ok wanted) (negative : wanted < 0)
    (handled : handleRead env args server = .ok after) :
    Refused env server after := by
  have notPlaced : ∀ {moved path st fd offset count},
      ¬ ReadPlaced env args server moved path st fd offset count := by
    intro moved path st fd offset count placed
    obtain ⟨opened, isOpen, _⟩ := placed.isOpen
    cases read.symm.trans isOpen.offsetRead
    exact placed.notNegative negative
  cases handleRead_ends handled with
  | missing missing => exact missing.refused
  | openFails isFound called => exact (isFound.looked.failed called).refused _
  | @seekFails _ _ fd _ _ _ _ isOpen called _ =>
      exact ((isOpen.looked.readOnly called rfl).refused _).closeFd fd
  | readFails placed _ _ => exact absurd placed notPlaced
  | behind placed _ => exact absurd placed notPlaced
  | transferred placed _ _ => exact absurd placed notPlaced

/-- Every byte read is inside, and the reply is an ERROR. -/
theorem handledInside_of_readsBeforeStart {env : Env Fs} {message : Bytes}
    {server : Server Fs} (before : ReadsBeforeStart message) :
    HandledInside env message server := by
  obtain ⟨named, wanted, read, negative⟩ := before
  have typeRead : ∃ word, readWord message 0 sizeofSnfsMsgType = .ok word ∧
      MsgType.ofWord word = .read := by
    rw [messageType] at named
    cases wordRead : readWord message 0 sizeofSnfsMsgType with
    | error stop =>
        rw [wordRead] at named
        cases named
    | ok word =>
        rw [wordRead] at named
        exact ⟨word, rfl, Except.ok.inj named⟩
  obtain ⟨word, wordRead, isRead⟩ := typeRead
  have served : serve env message server =
      handleRead env (readArgs message) server := by
    rw [serve, wordRead]
    change dispatch env message server (MsgType.ofWord word) = _
    rw [isRead]
    rfl
  have long : 20 ≤ message.length := by
    rcases readInt64_endsAt message 12 with ⟨reaches, _⟩ | ⟨_, overread⟩
    · exact reaches
    · cases read.symm.trans overread
  constructor
  · rw [served]
    exact ne_overread_of_stopsOnly ((sources_noOverread env server).handleRead
      ((readUInt64_endsAt message 4).stopsOnly (by omega))
      ((readInt64_endsAt message 12).stopsOnly long)
      (Or.inr fun other again => by
        cases read.symm.trans again
        exact negative)
      fun _ => by decide)
  · intro _ next handled
    rw [served] at handled
    have refused := handleRead_refused read negative handled
    obtain ⟨error, sent⟩ := refused.reply
    exact ⟨⟨error, _, sent⟩, refused.db, refused.quiet⟩

/-! ## A message that is not well formed -/

def directoryStat : Stat := ⟨0x4000, 0, 0, 0, 0, 0, 0, 0, 0, 0, 0⟩

/-- Whatever is asked of this kernel succeeds, and every path is a directory. -/
def permissive : Kernel Unit := fun call _ =>
  (match call with
    | .stat _ => .ok directoryStat
    | .opendir _ => .ok 3
    | .readdir _ => .ok none
    | .openFile _ _ => .ok 3
    | .lseek _ offset => .ok offset
    | .read _ _ => .ok []
    | .write _ data => .ok data.length
    | .creat _ _ => .ok 3
    | .close _ => .ok ()
    | .chmod _ _ => .ok ()
    | .chown _ _ _ => .ok ()
    | .truncate _ _ => .ok ()
    | .utimes _ _ _ => .ok ()
    | .utime _ _ _ => .ok ()
    | .rmdir _ => .ok ()
    | .unlink _ => .ok ()
    | .rename _ _ => .ok ()
    | .mkdir _ _ => .ok (), ())

def permissiveEnv : Env Unit := ⟨permissive, noLeftover⟩

/-- Mounted with this root handle, and with another one left to draw. -/
def mountedWith (root : Fhandle) : Server Unit :=
  ⟨(), paired emptyDb rootPath root, [root + 1], [(.mount root, 12)], []⟩

/-- The handler has left the message, or it has done what it was asked. -/
def Escapes (before : Server Unit) (result : Except Stop (Server Unit)) : Prop :=
  result = .error .messageOverread ∨
    ∃ next reply size, result = .ok next ∧
      next.sent = (reply, size) :: before.sent ∧ reply.isError = false

theorem mountedWith_reachable (root : Fhandle) :
    Reachable permissive (mountedWith root) := by
  exact ⟨(), [root, root + 1], [.request mountMessage noLeftover], rfl⟩

theorem mountedWith_db (root : Fhandle) :
    (mountedWith root).db = paired emptyDb rootPath root := rfl

@[simp]
theorem getFile_mountedWith (root : Fhandle) :
    getFile (mountedWith root).db root = some rootPath.key :=
  getFile_paired_self emptyDb rootPath root

@[simp]
theorem asString_rootPath : asString rootPath.key = .ok rootPath := rfl

@[simp]
theorem permissive_stat (path : CString) (server : Server Unit) :
    syscall permissiveEnv (.stat path) server = (.ok directoryStat, server) := rfl

@[simp]
theorem permissive_mode : sIsdir directoryStat.mode = true := by decide

/-- The argument is there or lies outside the message. -/
def Reads {α : Type} (argument : Argument α) : Prop :=
  (∃ value, argument = .ok value) ∨ argument = .error .messageOverread

theorem EndsAt.reads {α : Type} {message : Bytes} {argument : Argument α}
    {finish : Nat} (ends : EndsAt message argument finish) : Reads argument :=
  ends.imp And.right And.right

theorem EndsAt.overread {α : Type} {message : Bytes} {argument : Argument α}
    {finish : Nat} (ends : EndsAt message argument finish)
    (short : message.length < finish) :
    argument = .error .messageOverread := by
  rcases ends with ⟨inside, _⟩ | ⟨_, overread⟩
  · omega
  · exact overread

theorem Reads.map {α β : Type} {argument : Argument α} (reads : Reads argument)
    (f : α → β) : Reads (argument.map f) := by
  rcases reads with ⟨value, rfl⟩ | rfl
  · exact Or.inl ⟨f value, rfl⟩
  · exact Or.inr rfl

theorem escapes_bind {α : Type} {before : Server Unit} {first : Except Stop α}
    {second : α → Except Stop (Server Unit)} (reads : Reads first)
    (next : ∀ value, first = .ok value → Escapes before (second value)) :
    Escapes before (first >>= second) := by
  rcases reads with ⟨value, rfl⟩ | rfl
  · exact next value rfl
  · exact Or.inl rfl

theorem escapes_sendReply {before server : Server Unit} {reply : Reply}
    (sent : server.sent = before.sent) (size : Nat)
    (notError : reply.isError = false) :
    Escapes before (.ok (sendReply reply size server)) :=
  Or.inr ⟨_, reply, size, rfl, by rw [sendReply, sent], notError⟩

/-! The database of the mounted server, before and after one more name. -/

theorem rootPath_key_ne_handleBytes (handle : Fhandle) :
    rootPath.key ≠ handleBytes handle :=
  key_ne_handleBytes (by decide) handle

theorem handleBytes_next_ne (root : Fhandle) :
    handleBytes (root + 1) ≠ handleBytes root := by
  intro same
  have next := handleBytes_injective same
  simp at next

theorem mountedWith_root (root : Fhandle) :
    (mountedWith root).db rootPath.key = some (handleBytes root) := by
  rw [mountedWith_db, paired_apply, if_pos rfl]

theorem mountedWith_next (root : Fhandle) :
    (mountedWith root).db (handleBytes (root + 1)) = none := by
  rw [mountedWith_db, paired_apply, if_neg (rootPath_key_ne_handleBytes _).symm,
    if_neg (handleBytes_next_ne root)]
  rfl

/-- `/` can still be removed after a name was looked for or added. -/
def KeepsRoot (root : Fhandle) (db : Db) : Prop :=
  db rootPath.key = some (handleBytes root) ∧
    ∃ value, db (handleBytes root) = some value

theorem keepsRoot_paired {root : Fhandle} {filename : CString}
    (unknown : (mountedWith root).db filename.key = none) :
    KeepsRoot root (paired (mountedWith root).db filename (root + 1)) := by
  have rootStored := mountedWith_root root
  have stored : (mountedWith root).db (handleBytes root) = some rootPath.key :=
    getFile_mountedWith root
  have notRoot : rootPath.key ≠ filename.key := by
    intro same
    rw [← same, rootStored] at unknown
    cases unknown
  have notHandle : handleBytes root ≠ filename.key := by
    intro same
    rw [← same, stored] at unknown
    cases unknown
  refine ⟨?_, rootPath.key, ?_⟩
  · rw [paired_apply, if_neg notRoot, if_neg (rootPath_key_ne_handleBytes _),
      rootStored]
  · rw [paired_apply, if_neg notHandle, if_neg (handleBytes_next_ne root).symm,
      stored]

theorem findOrInsert_mountedWith {root : Fhandle} {server : Server Unit}
    (db : server.db = (mountedWith root).db) (draws : server.draws = [root + 1])
    (filename : CString) :
    ∃ handle after, findOrInsert permissiveEnv filename server =
        .ok (handle, after) ∧ after.sent = server.sent ∧
      KeepsRoot root after.db := by
  rw [findOrInsert, db, draws]
  cases known : (mountedWith root).db filename.key with
  | some value =>
      rw [nameFindOrInsert_of_known known]
      exact ⟨_, _, rfl, rfl, mountedWith_root root, _, getFile_mountedWith root⟩
  | none =>
      have generated : generateNewFhandle (mountedWith root).db [root + 1] =
          some (root + 1, []) := by
        simp only [generateNewFhandle, find, mountedWith_next]
      rw [nameFindOrInsert_of_unknown known generated]
      exact ⟨_, _, rfl, rfl, keepsRoot_paired known⟩

theorem removeName_mountedWith {root : Fhandle} {server : Server Unit}
    (keeps : KeepsRoot root server.db) :
    ∃ after, removeName permissiveEnv rootPath server = .ok (true, after) ∧
      after.sent = server.sent := by
  obtain ⟨nameKnown, value, handleKnown⟩ := keeps
  rw [removeName, nameRemove_of_pair nameKnown handleKnown
    (rootPath_key_ne_handleBytes root)]
  exact ⟨_, rfl, rfl⟩

/-! The handlers on that server. -/

/-- LOOKUP, CREATE and MKDIR end by naming a file. -/
theorem named_escapes {root : Fhandle} {server : Server Unit}
    (db : server.db = (mountedWith root).db) (draws : server.draws = [root + 1])
    (sent : server.sent = (mountedWith root).sent) (filename : CString)
    (reply : Fhandle → Reply) (size : Nat)
    (notError : ∀ handle, (reply handle).isError = false) :
    Escapes (mountedWith root) (do
      let (handle, server) ← findOrInsert permissiveEnv filename server
      return sendReply (reply handle) size server) := by
  obtain ⟨handle, after, called, keptSent, _⟩ :=
    findOrInsert_mountedWith db draws filename
  rw [called]
  exact escapes_sendReply (keptSent.trans sent) size (notError handle)

theorem handleReaddir_escapes {root : Fhandle} {args : ReaddirArgs}
    (dir : args.dir = .ok root) (count : args.count = .error .messageOverread) :
    handleReaddir permissiveEnv args (mountedWith root) =
      .error .messageOverread := by
  simp only [handleReaddir, dir, count, ok_bind, getFile_mountedWith,
    asString_rootPath, permissive_stat, permissive_mode]
  rfl

theorem handleLookup_escapes {root : Fhandle} {args : LookupArgs}
    (dir : args.dir = .ok root) (filename : Reads args.filename) :
    Escapes (mountedWith root)
      (handleLookup permissiveEnv args (mountedWith root)) := by
  simp only [handleLookup, dir, ok_bind, getFile_mountedWith,
    asString_rootPath, permissive_stat, permissive_mode]
  refine escapes_bind filename ?_
  intro name _
  exact named_escapes rfl rfl rfl (joinPath rootPath name)
    (fun handle => .lookup handle (statToFattr directoryStat Fattr.zero)) _
    fun _ => rfl

theorem handleRead_escapes {root : Fhandle} {args : ReadArgs}
    (file : args.file = .ok root)
    (short : args.offset = .error .messageOverread ∨ ∃ wanted,
      args.offset = .ok wanted ∧ ¬ wanted < 0 ∧
        args.count = .error .messageOverread) :
    handleRead permissiveEnv args (mountedWith root) =
      .error .messageOverread := by
  simp only [handleRead, file, ok_bind, getFile_mountedWith,
    asString_rootPath, permissive_stat]
  rcases short with overread | ⟨wanted, read, notNegative, overread⟩
  · simp only [overread]
    rfl
  · have reached : ¬ (wanted < 0 ∨ wanted ≠ wanted) := by
      rw [not_or, not_not]
      exact ⟨notNegative, rfl⟩
    simp only [read, overread]
    exact if_neg reached

theorem handleWrite_escapes {root : Fhandle} {args : WriteArgs}
    (file : args.file = .ok root)
    (short : args.offset = .error .messageOverread ∨ ∃ wanted,
      args.offset = .ok wanted ∧ (args.count = .error .messageOverread ∨
        ∃ asked, args.count = .ok asked ∧
          args.data asked = .error .messageOverread)) :
    handleWrite permissiveEnv args (mountedWith root) =
      .error .messageOverread := by
  simp only [handleWrite, file, ok_bind, getFile_mountedWith,
    asString_rootPath]
  rcases short with overread | ⟨wanted, read, missing⟩
  · simp only [overread]
    rfl
  · have reached : ¬ wanted ≠ wanted := not_not.mpr rfl
    simp only [read]
    refine (if_neg reached).trans ?_
    rcases missing with overread | ⟨asked, count, overread⟩
    · simp only [overread]
      rfl
    · simp only [count, ok_bind, overread]
      rfl

/-- The call is made and the reply goes on, or its argument is missing. -/
def Proceeds (before : Server Unit)
    (result : Except Stop (UInt64 × Server Unit)) : Prop :=
  Reads result ∧ ∀ whichSet after, result = .ok (whichSet, after) →
    after.sent = before.sent

theorem proceeds_ok {before after : Server Unit} (whichSet : UInt64)
    (sent : after.sent = before.sent) :
    Proceeds before (.ok (whichSet, after)) := by
  refine ⟨Or.inl ⟨_, rfl⟩, ?_⟩
  rintro _ _ ⟨⟩
  exact sent

theorem proceeds_bind {α : Type} {before : Server Unit} {first : Except Stop α}
    {second : α → Except Stop (UInt64 × Server Unit)} (reads : Reads first)
    (next : ∀ value, Proceeds before (second value)) :
    Proceeds before (first >>= second) := by
  rcases reads with ⟨value, rfl⟩ | rfl
  · exact next value
  · refine ⟨Or.inr rfl, ?_⟩
    rintro _ _ ⟨⟩

theorem setAttribute_proceeds (which bit whichSet : UInt64)
    {call : Argument Call} (server : Server Unit) (reads : Reads call) :
    Proceeds server
      (setAttribute permissiveEnv which bit call whichSet server) := by
  rw [setAttribute]
  split
  · exact proceeds_ok whichSet rfl
  · refine proceeds_bind reads ?_
    intro made
    split
    · rename_i called
      exact proceeds_ok _ (kept_of_syscall called).sent
    · rename_i called
      exact proceeds_ok _ (kept_of_syscall called).sent

theorem setTimes_proceeds (which whichSet : UInt64) (filePath : CString)
    {args : SetattrArgs} (server : Server Unit) (atime : Reads args.atime)
    (mtime : Reads args.mtime) :
    Proceeds server
      (setTimes permissiveEnv which filePath args whichSet server) := by
  rw [setTimes]
  split
  · exact proceeds_ok whichSet rfl
  · refine proceeds_bind atime ?_
    intro accessed
    refine proceeds_bind mtime ?_
    intro modified
    exact proceeds_ok _ rfl

theorem escapes_after {before server : Server Unit}
    {first : Except Stop (UInt64 × Server Unit)}
    {second : UInt64 × Server Unit → Except Stop (Server Unit)}
    (sent : server.sent = before.sent) (proceeds : Proceeds server first)
    (next : ∀ whichSet after, after.sent = before.sent →
      Escapes before (second (whichSet, after))) :
    Escapes before (first >>= second) := by
  refine escapes_bind proceeds.1 ?_
  intro value made
  exact next value.1 value.2 ((proceeds.2 _ _ made).trans sent)

theorem handleSetattr_escapes {root : Fhandle} {message : Bytes}
    (file : (setattrArgs message).file = .ok root) :
    Escapes (mountedWith root)
      (handleSetattr permissiveEnv (setattrArgs message) (mountedWith root)) := by
  have word : ∀ offset, Reads (readUInt64 message offset) :=
    fun offset => (readUInt64_endsAt message offset).reads
  rw [handleSetattr]
  refine escapes_bind (word 12) ?_
  intro which _
  simp only [file, ok_bind, getFile_mountedWith, asString_rootPath,
    permissive_stat]
  refine escapes_after rfl
    (setAttribute_proceeds _ _ _ _ ((word 20).map _)) ?_
  intro afterMode server sent
  refine escapes_after sent
    (setAttribute_proceeds _ _ _ _ ((word 28).map _)) ?_
  intro afterUid server sent
  refine escapes_after sent
    (setAttribute_proceeds _ _ _ _ ((word 36).map _)) ?_
  intro afterGid server sent
  refine escapes_after sent (setAttribute_proceeds _ _ _ _
    ((readInt64_endsAt message 44).reads.map _)) ?_
  intro afterSize server sent
  refine escapes_after sent (setTimes_proceeds _ _ _ _
    (readTimeval_endsAt message 52).reads
    (readTimeval_endsAt message 68).reads) ?_
  intro afterTimes server sent
  exact escapes_sendReply sent _ rfl

theorem handleMake_escapes {root : Fhandle} {call : CString → UInt32 → Call}
    {reply : Fhandle → Reply} (size : Nat) {filename : Argument CString}
    {mode : Argument UInt32}
    (succeeds : ∀ path bits, ∃ result,
      permissive (call path bits) () = (.ok result, ()))
    (notError : ∀ handle, (reply handle).isError = false)
    (nameReads : Reads filename) (modeReads : Reads mode) :
    Escapes (mountedWith root)
      (handleMake permissiveEnv call reply size filename mode
        (mountedWith root)) := by
  rw [handleMake]
  refine escapes_bind nameReads ?_
  intro path _
  refine escapes_bind modeReads ?_
  intro bits _
  obtain ⟨result, called⟩ := succeeds path bits
  have made : (syscall permissiveEnv (call path bits) (mountedWith root)).1 =
      .ok result := congrArg Prod.fst called
  split
  · rename_i failed
    rw [failed] at made
    cases made
  · rename_i next succeeded
    have kept := kept_of_syscall succeeded
    exact named_escapes kept.db kept.draws kept.sent path reply _ notError

theorem removeStored_escapes {root : Fhandle} {server : Server Unit}
    (keeps : KeepsRoot root server.db)
    (sent : server.sent = (mountedWith root).sent) :
    Escapes (mountedWith root)
      (removeStored permissiveEnv rootPath server) := by
  obtain ⟨after, removed, keptSent⟩ := removeName_mountedWith keeps
  rw [removeStored, removed]
  exact escapes_sendReply (keptSent.trans sent) _ rfl

theorem keepsRoot_mountedWith (root : Fhandle) :
    KeepsRoot root (mountedWith root).db :=
  ⟨mountedWith_root root, _, getFile_mountedWith root⟩

theorem handleRemove_escapes {root : Fhandle} {args : RemoveArgs}
    (fh : args.fh = .ok root) (isDir : Reads args.isDir) :
    Escapes (mountedWith root)
      (handleRemove permissiveEnv args (mountedWith root)) := by
  simp only [handleRemove, fh, ok_bind, getFile_mountedWith,
    asString_rootPath, permissive_stat, permissive_mode]
  refine escapes_bind isDir ?_
  intro asDirectory _
  split
  · exact removeStored_escapes (keepsRoot_mountedWith root) rfl
  · exact removeStored_escapes (keepsRoot_mountedWith root) rfl

theorem handleRename_escapes {root : Fhandle} {args : RenameArgs}
    (fh : args.fh = .ok root) (filename : Reads args.filename) :
    Escapes (mountedWith root)
      (handleRename permissiveEnv args (mountedWith root)) := by
  simp only [handleRename, fh, ok_bind, getFile_mountedWith, asString_rootPath]
  refine escapes_bind filename ?_
  intro newPath _
  have db : (mountedWith root).db = (mountedWith root).db := rfl
  obtain ⟨handle, middle, inserted, insertedSent, keeps⟩ :=
    findOrInsert_mountedWith db rfl newPath
  obtain ⟨after, removed, removedSent⟩ := removeName_mountedWith keeps
  have moved : syscall permissiveEnv (.rename rootPath newPath)
      (mountedWith root) = (.ok (), mountedWith root) := rfl
  simp only [moved, inserted, ok_bind, removed]
  exact escapes_sendReply (removedSent.trans insertedSent) _ rfl

/-- The root handle with which a message finds what it asks for. -/
def namedHandle (message : Bytes) : Fhandle :=
  match readUInt64 message 4 with
  | .ok handle => handle
  | .error _ => 0

theorem namedHandle_cases (message : Bytes) :
    readUInt64 message 4 = .ok (namedHandle message) ∨
      readUInt64 message 4 = .error .messageOverread := by
  rw [namedHandle]
  rcases (readUInt64_endsAt message 4).reads with ⟨handle, read⟩ | overread
  · rw [read]
    exact Or.inl rfl
  · exact Or.inr overread

theorem dispatch_escapes {message : Bytes} {type : MsgType}
    (named : messageType message = .ok type) (incomplete : ¬ Complete message type)
    (notBefore : ¬ ReadsBeforeStart message) :
    Escapes (mountedWith (namedHandle message))
      (dispatch permissiveEnv message (mountedWith (namedHandle message))
        type) := by
  have fourBytes : 4 ≤ message.length := by
    rcases readWord_endsAt message 0 sizeofSnfsMsgType with
      ⟨inside, _⟩ | ⟨_, overread⟩
    · exact inside
    · rw [messageType, overread] at named
      cases named
  have short : nameOffset type = none → type ≠ .write →
      message.length < snfsReqSize type := by
    intro noName notWrite
    apply Nat.lt_of_not_le
    intro size
    refine incomplete ⟨size, ?_, fun isWrite => absurd isWrite notWrite⟩
    intro offset isName
    rw [noName] at isName
    cases isName
  have handleRead := namedHandle_cases message
  have names : ∀ offset, Reads (readString message offset) :=
    readString_cases message
  cases type with
  | noop => exact absurd (short rfl (by simp)) (Nat.not_lt.mpr fourBytes)
  | mount => exact absurd (short rfl (by simp)) (Nat.not_lt.mpr fourBytes)
  | error => exact absurd (short rfl (by simp)) (Nat.not_lt.mpr fourBytes)
  | other word => exact absurd (short rfl (by simp)) (Nat.not_lt.mpr fourBytes)
  | getattr =>
      have short : message.length < 12 := short rfl (by simp)
      have overread := (readUInt64_endsAt message 4).overread short
      refine Or.inl ?_
      rw [dispatch, handleGetattr, getattrArgs, overread]
      rfl
  | readdir =>
      have short : message.length < 20 := short rfl (by simp)
      refine Or.inl ?_
      rcases handleRead with read | overread
      · exact handleReaddir_escapes read
          ((readUInt64_endsAt message 12).overread short)
      · rw [dispatch, handleReaddir, readdirArgs, overread]
        rfl
  | lookup =>
      rcases handleRead with read | overread
      · exact handleLookup_escapes read (names 12)
      · refine Or.inl ?_
        rw [dispatch, handleLookup, lookupArgs, overread]
        rfl
  | read =>
      have short : message.length < 28 := short rfl (by simp)
      refine Or.inl ?_
      rcases handleRead with read | overread
      · refine handleRead_escapes read ?_
        rcases (readInt64_endsAt message 12).reads with
          ⟨wanted, offset⟩ | overread
        · refine Or.inr ⟨wanted, offset, ?_,
            (readUInt64_endsAt message 20).overread short⟩
          intro negative
          exact notBefore ⟨named, wanted, offset, negative⟩
        · exact Or.inl overread
      · rw [dispatch, Handlers.handleRead, readArgs, overread]
        rfl
  | write =>
      refine Or.inl ?_
      rcases handleRead with read | overread
      · refine handleWrite_escapes read ?_
        rcases (readInt64_endsAt message 12).reads with
          ⟨wanted, offset⟩ | overread
        · refine Or.inr ⟨wanted, offset, ?_⟩
          rcases readUInt64_endsAt message 20 with
            ⟨inside, asked, count⟩ | ⟨_, overread⟩
          · refine Or.inr ⟨asked, count, ?_⟩
            apply (readBytes_endsAt message 28 asked.toNat).overread
            apply Nat.lt_of_not_le
            intro enough
            refine incomplete ⟨inside, ?_, ?_⟩
            · rintro _ ⟨⟩
            · intro _ other again
              cases count.symm.trans again
              exact enough
          · exact Or.inl overread
        · exact Or.inl overread
      · rw [dispatch, handleWrite, writeArgs, overread]
        rfl
  | setattr =>
      rcases handleRead with read | overread
      · exact handleSetattr_escapes read
      · refine Or.inl ?_
        have whichOverread : readUInt64 message 12 = .error .messageOverread := by
          apply (readUInt64_endsAt message 12).overread
          rcases readUInt64_endsAt message 4 with ⟨_, _, read⟩ | ⟨short, _⟩
          · cases overread.symm.trans read
          · omega
        rw [dispatch, handleSetattr, setattrArgs, whichOverread]
        rfl
  | create =>
      rw [dispatch, handleCreate]
      exact handleMake_escapes _ (fun _ _ => ⟨_, rfl⟩) (fun _ => rfl) (names 4)
        (readUInt32_endsAt message 260).reads
  | remove =>
      rcases handleRead with read | overread
      · exact handleRemove_escapes read (readUInt8_endsAt message 12).reads
      · refine Or.inl ?_
        rw [dispatch, handleRemove, removeArgs, overread]
        rfl
  | rename =>
      rcases handleRead with read | overread
      · exact handleRename_escapes read (names 12)
      · refine Or.inl ?_
        rw [dispatch, handleRename, renameArgs, overread]
        rfl
  | mkdir =>
      rw [dispatch, handleMkdir]
      exact handleMake_escapes _ (fun _ _ => ⟨_, rfl⟩) (fun _ => rfl) (names 4)
        (readUInt32_endsAt message 260).reads

/-- A message that is not well formed escapes on a server that has only been
mounted. -/
theorem serve_escapes {message : Bytes} (malformed : ¬ WellFormed message)
    (notBefore : ¬ ReadsBeforeStart message) :
    Escapes (mountedWith (namedHandle message))
      (serve permissiveEnv message (mountedWith (namedHandle message))) := by
  rw [serve]
  refine escapes_bind (readWord_endsAt message 0 sizeofSnfsMsgType).reads ?_
  intro word read
  have named : messageType message = .ok (MsgType.ofWord word) := by
    rw [messageType, read]
    rfl
  exact dispatch_escapes named (fun complete => malformed ⟨_, named, complete⟩)
    notBefore

theorem not_handledInside_of_escapes {message : Bytes} {server : Server Unit}
    (malformed : ¬ WellFormed message)
    (escapes : Escapes server (serve permissiveEnv message server)) :
    ¬ HandledInside permissiveEnv message server := by
  rintro ⟨inside, rejected⟩
  rcases escapes with overread | ⟨next, reply, size, handled, sent, notError⟩
  · exact inside overread
  · exact not_repliesError sent notError (rejected malformed next handled).1

/-- On every kernel and in every state a server comes to, a message is handled
inside its bounds exactly when it is well formed, or a READ that asks for an
offset before the start and so never comes to its count. -/
theorem handledInside_iff (message : Bytes) :
    (∀ (Fs : Type) (kernel : Kernel Fs) (leftover : Leftover)
        (server : Server Fs), Reachable kernel server →
        HandledInside ⟨kernel, leftover⟩ message server) ↔
      WellFormed message ∨ ReadsBeforeStart message := by
  constructor
  · intro handled
    by_contra neither
    rw [not_or] at neither
    exact not_handledInside_of_escapes neither.1
      (serve_escapes neither.1 neither.2)
      (handled Unit permissive noLeftover _ (mountedWith_reachable _))
  · intro either Fs kernel leftover server _
    rcases either with wellFormed | before
    · exact ⟨serve_inside _ server wellFormed,
        fun malformed => absurd wellFormed malformed⟩
    · exact handledInside_of_readsBeforeStart before

/-- A GETATTR that ends behind its type word. -/
theorem getattr_without_handle_escapes :
    ¬ ∀ (Fs : Type) (kernel : Kernel Fs) (leftover : Leftover)
        (server : Server Fs), Reachable kernel server →
        HandledInside ⟨kernel, leftover⟩ [2, 0, 0, 0] server := by
  intro handled
  have reachable : Reachable permissive (started () []) := ⟨(), [], [], rfl⟩
  exact (handled Unit permissive noLeftover _ reachable).inside rfl

end ChlorosSnfs.Snfs.MessageBounds
