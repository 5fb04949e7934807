import ChlorosSnfs.Snfs.Fhandledb

/-!
# Requests and replies

The types of ftypes.h, replys.h and requests.h.  A handler reads its arguments
in place from the received bytes and only those it needs, so an argument is a
`Argument`: its value, or where reading it leaves the bytes that are there.
-/

set_option autoImplicit false

namespace ChlorosSnfs.Snfs.Messages

open ChlorosSnfs.Library.LittleEndian
open ChlorosSnfs.Snfs.Fhandledb

/-- Why a handler does not come to its end: it reads behind the received
message or behind a value on the heap, it leaves its stack or stores behind an
array on it, it calls `err_exit`, or it waits for a draw that does not come. -/
inductive Stop where
  | messageOverread
  | heapOverread
  | stackOverrun
  | errExit
  | noDraw
  deriving DecidableEq, Repr

abbrev Argument (α : Type) := Except Stop α

/-! ## ftypes.h -/

/-- `snfs_msg_type`; `other` is any value the enumeration does not name. -/
inductive MsgType where
  | noop
  | mount
  | getattr
  | readdir
  | lookup
  | read
  | write
  | setattr
  | create
  | remove
  | rename
  | mkdir
  | error
  | other (word : Nat)
  deriving DecidableEq, Repr

def MsgType.ofWord : Nat → MsgType
  | 0 => .noop
  | 1 => .mount
  | 2 => .getattr
  | 3 => .readdir
  | 4 => .lookup
  | 5 => .read
  | 6 => .write
  | 7 => .setattr
  | 8 => .create
  | 9 => .remove
  | 10 => .rename
  | 11 => .mkdir
  | 12 => .error
  | word => .other word

inductive SnfsError where
  | enotimpl
  | ebadop
  | enoent
  | eacces
  | enotdir
  | einternal
  deriving DecidableEq, Repr

inductive Ftype where
  | snfnon
  | snfreg
  | snfdir
  | snfblk
  | snfchr
  | snflnk
  deriving DecidableEq, Repr

structure SnfsTimeval where
  seconds : Int64
  useconds : Int64
  deriving DecidableEq, Repr

structure Fattr where
  type : Ftype
  mode : UInt64
  nlink : UInt64
  uid : UInt64
  gid : UInt64
  size : UInt64
  rdev : UInt64
  fsid : UInt64
  fileid : UInt64
  atime : SnfsTimeval
  mtime : SnfsTimeval
  ctime : SnfsTimeval
  deriving DecidableEq, Repr

/-- All bytes zero. -/
def Fattr.zero : Fattr :=
  ⟨.snfnon, 0, 0, 0, 0, 0, 0, 0, 0, ⟨0, 0⟩, ⟨0, 0⟩, ⟨0, 0⟩⟩

def snfsMaxFilenameLength : Nat := 255

def snfsMaxFilenameBuf : Nat := 256

def snfsSetmode : UInt64 := (1 : UInt64) <<< 0

def snfsSetuid : UInt64 := (1 : UInt64) <<< 1

def snfsSetgid : UInt64 := (1 : UInt64) <<< 2

def snfsSetsize : UInt64 := (1 : UInt64) <<< 3

def snfsSettimes : UInt64 := (1 : UInt64) <<< 4

/-- One directory entry on the wire, with all bytes of its name field. -/
structure Snfsentry where
  fileid : UInt64
  filename : Bytes
  deriving DecidableEq, Repr

/-- The `count` bytes copied from where a string lies, given the bytes that
follow its NUL. -/
def copyBytes (string : CString) (following : Nat → UInt8) (count : Nat) :
    Bytes :=
  (List.range count).map fun index =>
    string.key.getD index (following (index - string.key.length))

/-! ## replys.h -/

inductive Reply where
  | noop
  | mount (root : Fhandle)
  | getattr (attributes : Fattr)
  | readdir (numEntries : UInt64) (entries : List Snfsentry)
  | lookup (handle : Fhandle) (attributes : Fattr)
  | read (count : UInt64) (eof : UInt64) (data : Bytes)
  | write (count : UInt64)
  | setattr (which : UInt64)
  | create (handle : Fhandle)
  | remove
  | rename (handle : Fhandle)
  | mkdir (handle : Fhandle)
  | error (error : SnfsError)
  deriving DecidableEq, Repr

def Reply.isError : Reply → Bool
  | .error _ => true
  | _ => false

/-- The handle a reply gives to a path the client has sent. -/
def Reply.givenHandle : Reply → Option Fhandle
  | .lookup handle _ => some handle
  | .create handle => some handle
  | .rename handle => some handle
  | .mkdir handle => some handle
  | _ => none

def sizeofSnfsMsgType : Nat := 4

/-- `snfs_rep_size` of a reply structure of the given size. -/
def snfsRepSize (repSize : Nat) : Nat := sizeofSnfsMsgType + repSize

def sizeofErrorRep : Nat := 4

def sizeofMountRep : Nat := 8

def sizeofGetattrRep : Nat := 116

def sizeofReaddirRep : Nat := 8

def sizeofSnfsentry : Nat := 264

def sizeofLookupRep : Nat := 124

def sizeofReadRep : Nat := 16

def sizeofWriteRep : Nat := 8

def sizeofSetattrRep : Nat := 8

def sizeofCreateRep : Nat := 8

def sizeofRemoveRep : Nat := 0

def sizeofRenameRep : Nat := 8

def sizeofMkdirRep : Nat := 8

/-! ## Reading a received message -/

/-- `width` bytes at an offset. -/
def readBytes (message : Bytes) (offset width : Nat) : Argument Bytes :=
  if offset + width ≤ message.length then
    .ok ((message.drop offset).take width)
  else .error .messageOverread

def readWord (message : Bytes) (offset width : Nat) : Argument Nat :=
  (readBytes message offset width).map ofBytes

def readUInt64 (message : Bytes) (offset : Nat) : Argument UInt64 :=
  (readWord message offset 8).map UInt64.ofNat

def readInt64 (message : Bytes) (offset : Nat) : Argument Int64 :=
  (readUInt64 message offset).map UInt64.toInt64

def readUInt32 (message : Bytes) (offset : Nat) : Argument UInt32 :=
  (readWord message offset 4).map UInt32.ofNat

def readUInt8 (message : Bytes) (offset : Nat) : Argument UInt8 :=
  (readWord message offset 1).map UInt8.ofNat

/-- The string at an offset, up to its NUL wherever that is. -/
def readString (message : Bytes) (offset : Nat) : Argument CString :=
  match stringAt (message.drop offset) with
  | some string => .ok string
  | none => .error .messageOverread

def readTimeval (message : Bytes) (offset : Nat) : Argument SnfsTimeval := do
  let seconds ← readInt64 message offset
  let useconds ← readInt64 message (offset + 8)
  return ⟨seconds, useconds⟩

/-! ## requests.h -/

structure GetattrArgs where
  fh : Argument Fhandle

structure ReadArgs where
  file : Argument Fhandle
  offset : Argument Int64
  count : Argument UInt64

/-- `data` is the flexible array, of which `count` bytes are asked for. -/
structure WriteArgs where
  file : Argument Fhandle
  offset : Argument Int64
  count : Argument UInt64
  data : UInt64 → Argument Bytes

structure ReaddirArgs where
  dir : Argument Fhandle
  count : Argument UInt64

structure LookupArgs where
  dir : Argument Fhandle
  filename : Argument CString

structure SetattrArgs where
  file : Argument Fhandle
  which : Argument UInt64
  mode : Argument UInt64
  uid : Argument UInt64
  gid : Argument UInt64
  size : Argument Int64
  atime : Argument SnfsTimeval
  mtime : Argument SnfsTimeval

structure CreateArgs where
  filename : Argument CString
  mode : Argument UInt32

structure RemoveArgs where
  fh : Argument Fhandle
  isDir : Argument UInt8

structure RenameArgs where
  fh : Argument Fhandle
  filename : Argument CString

structure MkdirArgs where
  dirname : Argument CString
  mode : Argument UInt32

/-! The arguments of a request stand behind its type word. -/

def getattrArgs (message : Bytes) : GetattrArgs where
  fh := readUInt64 message 4

def readArgs (message : Bytes) : ReadArgs where
  file := readUInt64 message 4
  offset := readInt64 message 12
  count := readUInt64 message 20

def writeArgs (message : Bytes) : WriteArgs where
  file := readUInt64 message 4
  offset := readInt64 message 12
  count := readUInt64 message 20
  data count := readBytes message 28 count.toNat

def readdirArgs (message : Bytes) : ReaddirArgs where
  dir := readUInt64 message 4
  count := readUInt64 message 12

def lookupArgs (message : Bytes) : LookupArgs where
  dir := readUInt64 message 4
  filename := readString message 12

def setattrArgs (message : Bytes) : SetattrArgs where
  file := readUInt64 message 4
  which := readUInt64 message 12
  mode := readUInt64 message 20
  uid := readUInt64 message 28
  gid := readUInt64 message 36
  size := readInt64 message 44
  atime := readTimeval message 52
  mtime := readTimeval message 68

def createArgs (message : Bytes) : CreateArgs where
  filename := readString message 4
  mode := readUInt32 message 260

def removeArgs (message : Bytes) : RemoveArgs where
  fh := readUInt64 message 4
  isDir := readUInt8 message 12

def renameArgs (message : Bytes) : RenameArgs where
  fh := readUInt64 message 4
  filename := readString message 12

def mkdirArgs (message : Bytes) : MkdirArgs where
  dirname := readString message 4
  mode := readUInt32 message 260

end ChlorosSnfs.Snfs.Messages
