import ChlorosSnfs.Library.StructLayout
import ChlorosSnfs.Snfs.Client

/-!
# The structures of ftypes.h, requests.h and replys.h

Each message is its type word, the structure of its type and, for WRITE, READ
and READDIR, the flexible array behind it.  The sizes handed to the socket are
those of `snfs_req_size` and `snfs_rep_size`, and what lies behind them in
memory is cut off.
-/

set_option autoImplicit false

namespace ChlorosSnfs.Snfs.Wire

open ChlorosSnfs.Library.LittleEndian
open ChlorosSnfs.Library.StructLayout
open ChlorosSnfs.Snfs.Fhandledb
open ChlorosSnfs.Snfs.Messages
open ChlorosSnfs.Snfs.Client

/-! ## ftypes.h -/

/-- `uint64_t`, `int64_t` and `fhandle`. -/
def word64 : Member := ⟨8, 8⟩

/-- The packed enumerations, which `INT_MAX` makes as large as an `int`. -/
def enumeration : Member := ⟨4, 4⟩

def modeT : Member := ⟨4, 4⟩

def uint8T : Member := ⟨1, 1⟩

/-- `uint8_t filename[SNFS_MAX_FILENAME_BUF]`. -/
def filenameBuf : Member := ⟨snfsMaxFilenameBuf, 1⟩

def snfsTimeval : Struct := ⟨true, [word64, word64]⟩

def snfsentry : Struct := ⟨true, [word64, filenameBuf]⟩

def fattr : Struct := ⟨true, [enumeration, word64, word64, word64, word64,
  word64, word64, word64, word64, snfsTimeval.member, snfsTimeval.member,
  snfsTimeval.member]⟩

def Ftype.word : Ftype → Nat
  | .snfnon => 0
  | .snfreg => 1
  | .snfdir => 2
  | .snfblk => 3
  | .snfchr => 4
  | .snflnk => 5

def SnfsError.word : SnfsError → Nat
  | .enotimpl => 0
  | .ebadop => 1
  | .enoent => 2
  | .eacces => 3
  | .enotdir => 4
  | .einternal => 5

/-! The bytes of the values. -/

abbrev uint64Bytes (value : UInt64) : Bytes := handleBytes value

def int64Bytes (value : Int64) : Bytes := uint64Bytes value.toUInt64

def uint32Bytes (value : UInt32) : Bytes := toBytes 4 value.toNat

/-- A structure without gaps has nothing to fill them with. -/
def noGap (_ : Nat) : UInt8 := 0

def timevalMembers (time : SnfsTimeval) : List Bytes :=
  [int64Bytes time.seconds, int64Bytes time.useconds]

def timevalBytes (time : SnfsTimeval) : Bytes :=
  snfsTimeval.place noGap (timevalMembers time)

def entryMembers (entry : Snfsentry) : List Bytes :=
  [uint64Bytes entry.fileid, entry.filename]

def entryBytes (entry : Snfsentry) : Bytes :=
  snfsentry.place noGap (entryMembers entry)

def fattrMembers (attr : Fattr) : List Bytes :=
  [toBytes 4 (Ftype.word attr.type), uint64Bytes attr.mode,
    uint64Bytes attr.nlink, uint64Bytes attr.uid, uint64Bytes attr.gid,
    uint64Bytes attr.size, uint64Bytes attr.rdev, uint64Bytes attr.fsid,
    uint64Bytes attr.fileid, timevalBytes attr.atime, timevalBytes attr.mtime,
    timevalBytes attr.ctime]

def fattrBytes (attr : Fattr) : Bytes :=
  fattr.place noGap (fattrMembers attr)

/-! ## requests.h -/

def snfsMountArgs : Struct := ⟨true, []⟩

def snfsNoopArgs : Struct := ⟨true, []⟩

def snfsGetattrArgs : Struct := ⟨true, [word64]⟩

def snfsReadArgs : Struct := ⟨true, [word64, word64, word64]⟩

/-- Without `data[]`, which takes no room. -/
def snfsWriteArgs : Struct := ⟨true, [word64, word64, word64]⟩

def snfsReaddirArgs : Struct := ⟨false, [word64, word64]⟩

def snfsLookupArgs : Struct := ⟨false, [word64, filenameBuf]⟩

def snfsSetattrArgs : Struct := ⟨false, [word64, word64, word64, word64, word64,
  word64, snfsTimeval.member, snfsTimeval.member]⟩

def snfsCreateArgs : Struct := ⟨false, [filenameBuf, modeT]⟩

def snfsRemoveArgs : Struct := ⟨false, [word64, uint8T]⟩

def snfsRenameArgs : Struct := ⟨false, [word64, filenameBuf]⟩

def snfsMkdirArgs : Struct := ⟨false, [filenameBuf, modeT]⟩

/-- A filename buffer with a NUL in it. -/
structure FilenameBuf where
  bytes : Bytes
  length_eq : bytes.length = snfsMaxFilenameBuf
  ends : 0 ∈ bytes

/-- The name a buffer holds, which ends at its first NUL. -/
def FilenameBuf.name (buffer : FilenameBuf) : CString :=
  ⟨buffer.bytes.takeWhile (· ≠ 0), by
    intro member
    simpa using List.mem_takeWhile_imp member⟩

/-- A request as the client fills it in; the data of a WRITE is as long as its
count. -/
inductive Request where
  | noop
  | mount
  | getattr (fh : Fhandle)
  | readdir (dir : Fhandle) (count : UInt64)
  | lookup (dir : Fhandle) (filename : FilenameBuf)
  | read (file : Fhandle) (offset : Int64) (count : UInt64)
  | write (file : Fhandle) (offset : Int64) (count : UInt64) (data : Bytes)
      (whole : data.length = count.toNat)
  | setattr (file : Fhandle) (which mode uid gid : UInt64) (size : Int64)
      (atime mtime : SnfsTimeval)
  | create (filename : FilenameBuf) (mode : UInt32)
  | remove (fh : Fhandle) (isDir : UInt8)
  | rename (fh : Fhandle) (filename : FilenameBuf)
  | mkdir (dirname : FilenameBuf) (mode : UInt32)

def Request.type : Request → MsgType
  | .noop => .noop
  | .mount => .mount
  | .getattr _ => .getattr
  | .readdir _ _ => .readdir
  | .lookup _ _ => .lookup
  | .read _ _ _ => .read
  | .write _ _ _ _ _ => .write
  | .setattr _ _ _ _ _ _ _ _ => .setattr
  | .create _ _ => .create
  | .remove _ _ => .remove
  | .rename _ _ => .rename
  | .mkdir _ _ => .mkdir

/-- The structure `snfs_req_size` and the union of `snfs_req` name for a type. -/
def argsStruct : MsgType → Struct
  | .mount => snfsMountArgs
  | .getattr => snfsGetattrArgs
  | .readdir => snfsReaddirArgs
  | .lookup => snfsLookupArgs
  | .read => snfsReadArgs
  | .write => snfsWriteArgs
  | .setattr => snfsSetattrArgs
  | .create => snfsCreateArgs
  | .remove => snfsRemoveArgs
  | .rename => snfsRenameArgs
  | .mkdir => snfsMkdirArgs
  | _ => snfsNoopArgs

def Request.members : Request → List Bytes
  | .noop => []
  | .mount => []
  | .getattr fh => [handleBytes fh]
  | .readdir dir count => [handleBytes dir, uint64Bytes count]
  | .lookup dir filename => [handleBytes dir, filename.bytes]
  | .read file offset count =>
      [handleBytes file, int64Bytes offset, uint64Bytes count]
  | .write file offset count _ _ =>
      [handleBytes file, int64Bytes offset, uint64Bytes count]
  | .setattr file which mode uid gid size atime mtime =>
      [handleBytes file, uint64Bytes which, uint64Bytes mode, uint64Bytes uid,
        uint64Bytes gid, int64Bytes size, timevalBytes atime, timevalBytes mtime]
  | .create filename mode => [filename.bytes, uint32Bytes mode]
  | .remove fh isDir => [handleBytes fh, [isDir]]
  | .rename fh filename => [handleBytes fh, filename.bytes]
  | .mkdir dirname mode => [dirname.bytes, uint32Bytes mode]

def Request.payload : Request → Bytes
  | .write _ _ _ data _ => data
  | _ => []

/-- `snfs_req_size`, with the data of a WRITE. -/
def Request.size (request : Request) : Nat :=
  sizeofSnfsMsgType + (argsStruct request.type).sizeof + request.payload.length

/-- The bytes handed to the socket.  `gap` fills the padding and `rest` is what
lies behind the structure in memory. -/
def Request.sent (gap : Nat → UInt8) (rest : Bytes) (request : Request) :
    Bytes :=
  (typeBytes request.type ++ (argsStruct request.type).place gap request.members
    ++ request.payload ++ rest).take request.size

/-! ## replys.h -/

def snfsGetattrRep : Struct := ⟨true, [fattr.member]⟩

def snfsErrorRep : Struct := ⟨true, [enumeration]⟩

def snfsMountRep : Struct := ⟨true, [word64]⟩

/-- Without `entries[]`. -/
def snfsReaddirRep : Struct := ⟨true, [word64]⟩

def snfsLookupRep : Struct := ⟨true, [word64, fattr.member]⟩

/-- Without `data[]`. -/
def snfsReadRep : Struct := ⟨true, [word64, word64]⟩

def snfsWriteRep : Struct := ⟨true, [word64]⟩

def snfsSetattrRep : Struct := ⟨false, [word64]⟩

def snfsCreateRep : Struct := ⟨false, [word64]⟩

def snfsRemoveRep : Struct := ⟨false, []⟩

def snfsRenameRep : Struct := ⟨false, [word64]⟩

def snfsMkdirRep : Struct := ⟨false, [word64]⟩

/-- `handle_noop` sends its type word alone. -/
def repStruct : MsgType → Struct
  | .mount => snfsMountRep
  | .getattr => snfsGetattrRep
  | .readdir => snfsReaddirRep
  | .lookup => snfsLookupRep
  | .read => snfsReadRep
  | .write => snfsWriteRep
  | .setattr => snfsSetattrRep
  | .create => snfsCreateRep
  | .remove => snfsRemoveRep
  | .rename => snfsRenameRep
  | .mkdir => snfsMkdirRep
  | .error => snfsErrorRep
  | _ => ⟨true, []⟩

def Reply.members : Reply → List Bytes
  | .noop => []
  | .mount root => [handleBytes root]
  | .getattr attributes => [fattrBytes attributes]
  | .readdir numEntries _ => [uint64Bytes numEntries]
  | .lookup handle attributes => [handleBytes handle, fattrBytes attributes]
  | .read count eof _ => [uint64Bytes count, uint64Bytes eof]
  | .write count => [uint64Bytes count]
  | .setattr which => [uint64Bytes which]
  | .create handle => [handleBytes handle]
  | .remove => []
  | .rename handle => [handleBytes handle]
  | .mkdir handle => [handleBytes handle]
  | .error error => [toBytes 4 (SnfsError.word error)]

/-- The flexible arrays. -/
def Reply.array : Reply → Bytes
  | .readdir _ entries => (entries.map entryBytes).flatten
  | .read _ _ data => data
  | _ => []

/-- The bytes of a reply that is sent with some size. -/
def Reply.sent (gap : Nat → UInt8) (rest : Bytes) (reply : Reply) (size : Nat) :
    Bytes :=
  (typeBytes (Reply.type reply) ++
    (repStruct (Reply.type reply)).place gap (Reply.members reply) ++
    Reply.array reply ++ rest).take size

/-! ## The values fill their members -/

@[simp]
theorem int64Bytes_length (value : Int64) : (int64Bytes value).length = 8 :=
  handleBytes_length _

@[simp]
theorem uint32Bytes_length (value : UInt32) : (uint32Bytes value).length = 4 :=
  toBytes_length _ _

theorem timevalMembers_fill (time : SnfsTimeval) :
    Fills snfsTimeval.members (timevalMembers time) := by
  simp [snfsTimeval, timevalMembers, word64]

@[simp]
theorem timevalBytes_length (time : SnfsTimeval) :
    (timevalBytes time).length = 16 :=
  Struct.place_length (timevalMembers_fill time)

theorem fattrMembers_fill (attr : Fattr) :
    Fills fattr.members (fattrMembers attr) := by
  have timeval : snfsTimeval.member.size = 16 := rfl
  simp [fattr, fattrMembers, word64, enumeration, timeval]

@[simp]
theorem fattrBytes_length (attr : Fattr) : (fattrBytes attr).length = 116 :=
  Struct.place_length (fattrMembers_fill attr)

theorem Request.members_fill (request : Request) :
    Fills (argsStruct request.type).members request.members := by
  have timeval : snfsTimeval.member.size = 16 := rfl
  cases request <;>
    simp [argsStruct, Request.type, Request.members, snfsNoopArgs,
      snfsMountArgs, snfsGetattrArgs, snfsReaddirArgs, snfsLookupArgs,
      snfsReadArgs, snfsWriteArgs, snfsSetattrArgs, snfsCreateArgs,
      snfsRemoveArgs, snfsRenameArgs, snfsMkdirArgs, word64, filenameBuf, modeT,
      uint8T, timeval, FilenameBuf.length_eq]

theorem Reply.members_fill (reply : Reply) :
    Fills (repStruct (Reply.type reply)).members (Reply.members reply) := by
  have attributes : fattr.member.size = 116 := rfl
  cases reply <;>
    simp [repStruct, Reply.type, Reply.members, snfsErrorRep, snfsMountRep,
      snfsGetattrRep, snfsReaddirRep, snfsLookupRep, snfsReadRep, snfsWriteRep,
      snfsSetattrRep, snfsCreateRep, snfsRemoveRep, snfsRenameRep, snfsMkdirRep,
      word64, enumeration, attributes]

/-- Nothing is cut off a request but what lies behind it. -/
theorem Request.sent_eq (gap : Nat → UInt8) (rest : Bytes) (request : Request) :
    request.sent gap rest = typeBytes request.type ++
      (argsStruct request.type).place gap request.members ++ request.payload := by
  rw [Request.sent]
  apply List.take_left'
  rw [Request.size]
  simp only [List.length_append, typeBytes_length,
    Struct.place_length request.members_fill]
  rfl

/-- A reply that is sent with its own size loses nothing. -/
theorem Reply.sent_eq (gap : Nat → UInt8) (rest : Bytes) (reply : Reply)
    {size : Nat} (whole : size = sizeofSnfsMsgType +
      (repStruct (Reply.type reply)).sizeof + (Reply.array reply).length) :
    Reply.sent gap rest reply size = typeBytes (Reply.type reply) ++
      (repStruct (Reply.type reply)).place gap (Reply.members reply) ++
      Reply.array reply := by
  rw [Reply.sent]
  apply List.take_left'
  rw [whole]
  simp only [List.length_append, typeBytes_length,
    Struct.place_length (Reply.members_fill reply)]
  rfl

end ChlorosSnfs.Snfs.Wire
