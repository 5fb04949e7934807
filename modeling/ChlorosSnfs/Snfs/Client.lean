import ChlorosSnfs.Library.Paths
import ChlorosSnfs.Snfs.ServeLoop
import Mathlib.Data.List.GetD

/-!
# The client of request.c and fuseops.c

A request is the bytes of its structure.  `send_request` is one round of the
server's loop: every request arrives and every reply comes back, and no other
client is served in between.  `verbose` and `debug` output is left out.
-/

set_option autoImplicit false

namespace ChlorosSnfs.Snfs.Client

open ChlorosSnfs.Library.LittleEndian
open ChlorosSnfs.Library.Paths
open ChlorosSnfs.Snfs.Fhandledb
open ChlorosSnfs.Snfs.Messages
open ChlorosSnfs.Snfs.Syscalls
open ChlorosSnfs.Snfs.Handlers
open ChlorosSnfs.Snfs.ServeLoop

variable {Fs : Type}

/-- What a client runs against: the kernel of the server, the memory the server
has left over at each request, and the bytes behind the string that the client
copies into each request. -/
structure Link (Fs : Type) where
  kernel : Kernel Fs
  leftover : Nat → Leftover
  following : Nat → Nat → UInt8

def Link.env (link : Link Fs) (request : Nat) : Env Fs :=
  ⟨link.kernel, link.leftover request⟩

/-! ## Requests on the wire -/

def MsgType.word : MsgType → Nat
  | .noop => 0
  | .mount => 1
  | .getattr => 2
  | .readdir => 3
  | .lookup => 4
  | .read => 5
  | .write => 6
  | .setattr => 7
  | .create => 8
  | .remove => 9
  | .rename => 10
  | .mkdir => 11
  | .error => 12
  | .other word => word

def Reply.type : Reply → MsgType
  | .noop => .noop
  | .mount _ => .mount
  | .getattr _ => .getattr
  | .readdir _ _ => .readdir
  | .lookup _ _ => .lookup
  | .read _ _ _ => .read
  | .write _ => .write
  | .setattr _ => .setattr
  | .create _ => .create
  | .remove => .remove
  | .rename _ => .rename
  | .mkdir _ => .mkdir
  | .error _ => .error

def typeBytes (type : MsgType) : Bytes :=
  toBytes sizeofSnfsMsgType (MsgType.word type)

/-- A filename field: zeroed, then written with the first 255 bytes from where
the string lies. -/
def filenameField (string : CString) (following : Nat → UInt8) : Bytes :=
  copyBytes string following snfsMaxFilenameLength ++ [0]

def mountMessage : Bytes := typeBytes .mount

def lookupMessage (dir : Fhandle) (filename : CString)
    (following : Nat → UInt8) : Bytes :=
  typeBytes .lookup ++ handleBytes dir ++ filenameField filename following

def createMessage (filename : CString) (following : Nat → UInt8)
    (mode : UInt32) : Bytes :=
  typeBytes .create ++ filenameField filename following ++ toBytes 4 mode.toNat

def renameMessage (fh : Fhandle) (filename : CString)
    (following : Nat → UInt8) : Bytes :=
  typeBytes .rename ++ handleBytes fh ++ filenameField filename following

def mkdirMessage (dirname : CString) (following : Nat → UInt8)
    (mode : UInt32) : Bytes :=
  typeBytes .mkdir ++ filenameField dirname following ++ toBytes 4 mode.toNat

/-! ## Calls -/

/-- `send_request`: `none` for an ERROR and for a reply of another type. -/
def sendRequest (env : Env Fs) (type : MsgType) (message : Bytes)
    (server : Server Fs) : Except Stop (Option Reply × Server Fs) := do
  let next ← serve env message server
  match next.sent with
  | [] => return (none, next)
  | (reply, _) :: _ =>
    if Reply.type reply = .error then return (none, next)
    else if Reply.type reply ≠ type then return (none, next)
    else return (some reply, next)

/-- `server_mount`: the root handle if there is one. -/
def serverMount (env : Env Fs) (server : Server Fs) :
    Except Stop (Option Fhandle × Server Fs) := do
  match ← sendRequest env .mount mountMessage server with
  | (some (.mount root), server) => return (some root, server)
  | (_, server) => return (none, server)

/-- The strings `strtok` finds in a path; none of them is empty. -/
def tokens (path : CString) : List CString :=
  (pieces path.bytes).pmap CString.mk fun _ member zero =>
    path.noNul (mem_of_mem_pieces member zero)

/-- The loop of `lookup`, from the request with this number. -/
def lookupFrom (link : Link Fs) : Nat → List CString → Fhandle → Server Fs →
    Except Stop (Option Fhandle × Server Fs)
  | _, [], curHandle, server => return (some curHandle, server)
  | request, filename :: rest, curHandle, server => do
    let message := lookupMessage curHandle filename (link.following request)
    match ← sendRequest (link.env request) .lookup message server with
    | (some (.lookup handle _), server) =>
      lookupFrom link (request + 1) rest handle server
    | (_, server) => return (none, server)

/-- `lookup`: its result and `*handle`, which was `handle` before. -/
def lookup (link : Link Fs) (rootFhandle : Fhandle) (path : CString)
    (handle : Fhandle) (server : Server Fs) :
    Except Stop ((Bool × Fhandle) × Server Fs) := do
  if path = rootPath then return ((true, rootFhandle), server)
  else
    match ← lookupFrom link 0 (tokens path) rootFhandle server with
    | (some curHandle, server) => return ((true, curHandle), server)
    | (none, server) => return ((false, handle), server)

/-- `-ENOENT`. -/
def negEnoent : Int := -2

/-- `S_IFDIR`. -/
def sIfdir : UInt32 := 0x4000

/-- `snfs_create`: its result and `fi->fh`, which was `fh` before. -/
def snfsCreate (link : Link Fs) (path : CString) (mode : UInt32) (fh : Fhandle)
    (server : Server Fs) : Except Stop ((Int × Fhandle) × Server Fs) := do
  if path = rootPath then return ((negEnoent, fh), server)
  else
    let message := createMessage path (link.following 0) mode
    match ← sendRequest (link.env 0) .create message server with
    | (some (.create handle), server) => return ((0, handle), server)
    | (_, server) => return ((negEnoent, fh), server)

/-- `snfs_mkdir`. -/
def snfsMkdir (link : Link Fs) (path : CString) (mode : UInt32)
    (server : Server Fs) : Except Stop (Int × Server Fs) := do
  if path = rootPath then return (negEnoent, server)
  else
    let message := mkdirMessage path (link.following 0) (mode ||| sIfdir)
    match ← sendRequest (link.env 0) .mkdir message server with
    | (some _, server) => return (0, server)
    | (none, server) => return (negEnoent, server)

/-- `snfs_rename`. -/
def snfsRename (link : Link Fs) (rootFhandle : Fhandle)
    (oldpath newpath : CString) (server : Server Fs) :
    Except Stop (Int × Server Fs) := do
  let ((found, handle), server) ← lookup link rootFhandle oldpath 0 server
  if !found then return (negEnoent, server)
  else
    let request := (tokens oldpath).length
    let message := renameMessage handle newpath (link.following request)
    match ← sendRequest (link.env request) .rename message server with
    | (some _, server) => return (0, server)
    | (none, server) => return (negEnoent, server)

/-! ## What the server reads -/

/-- What a filename field holds of a string. -/
def CString.sent (string : CString) : CString :=
  ⟨string.bytes.take snfsMaxFilenameLength, fun zero =>
    string.noNul (List.mem_of_mem_take zero)⟩

theorem sent_of_short {string : CString}
    (short : string.bytes.length ≤ snfsMaxFilenameLength) :
    CString.sent string = string := by
  obtain ⟨bytes, noNul⟩ := string
  simp only [CString.sent, List.take_of_length_le short]

theorem copyBytes_eq (string : CString) (following : Nat → UInt8)
    (count : Nat) :
    copyBytes string following count = string.key.take count ++
      (List.range (count - string.key.length)).map following := by
  apply List.ext_getElem
  · simp only [copyBytes, List.length_map, List.length_range,
      List.length_append, List.length_take]
    omega
  · intro index inCopy inKey
    simp only [copyBytes, List.getElem_map, List.getElem_range]
    by_cases inside : index < string.key.length
    · rw [List.getElem_append_left, List.getElem_take,
        List.getD_eq_getElem _ _ inside]
      simp only [copyBytes, List.length_map, List.length_range] at inCopy
      rw [List.length_take]
      omega
    · simp only [copyBytes, List.length_map, List.length_range] at inCopy
      have taken : (string.key.take count).length = string.key.length := by
        rw [List.length_take]
        omega
      rw [List.getElem_append_right (by omega), List.getElem_map,
        List.getElem_range, List.getD_eq_default _ _ (by omega), taken]

/-- Two copies of a name differ only in what lies behind its NUL. -/
theorem copyBytes_eq_iff (string : CString) (first second : Nat → UInt8)
    (count : Nat) :
    copyBytes string first count = copyBytes string second count ↔
      ∀ index < count - string.key.length, first index = second index := by
  rw [copyBytes_eq, copyBytes_eq, List.append_cancel_left_eq, List.map_inj_left]
  simp only [List.mem_range]

@[simp]
theorem filenameField_length (string : CString) (following : Nat → UInt8) :
    (filenameField string following).length = snfsMaxFilenameBuf := by
  simp [filenameField, copyBytes, snfsMaxFilenameLength, snfsMaxFilenameBuf]

theorem filenameField_eq (string : CString) (following : Nat → UInt8) :
    ∃ rest, filenameField string following = (CString.sent string).key ++ rest := by
  rw [filenameField, copyBytes_eq]
  by_cases short : string.key.length ≤ snfsMaxFilenameLength
  · rw [key_length] at short
    rw [sent_of_short (by omega), List.take_of_length_le (by rw [key_length]; exact short),
      List.append_assoc]
    exact ⟨_, rfl⟩
  · rw [key_length] at short
    have noMore : snfsMaxFilenameLength - string.key.length = 0 := by
      rw [key_length]
      omega
    have cut : string.key.take snfsMaxFilenameLength =
        (CString.sent string).bytes := by
      rw [CString.key, List.take_append_of_le_length (by omega)]
      rfl
    rw [noMore, cut, List.range_zero, List.map_nil, List.append_nil]
    exact ⟨[], by rw [List.append_nil]; rfl⟩

/-- A string is read up to its NUL. -/
theorem stringAt_key_append (string : CString) (rest : Bytes) :
    stringAt (string.key ++ rest) = some string := by
  have untilNul :
      (string.key ++ rest).takeWhile (· ≠ 0) = string.bytes := by
    rw [CString.key, List.append_assoc, List.takeWhile_append_of_pos]
    · simp
    · intro byte member
      rw [decide_eq_true_eq]
      rintro rfl
      exact string.noNul member
  have member : 0 ∈ string.key ++ rest := by simp [CString.key]
  simp only [stringAt, if_pos member, untilNul]

theorem readBytes_append (before field after : Bytes) {offset width : Nat}
    (starts : before.length = offset) (wide : field.length = width) :
    readBytes (before ++ field ++ after) offset width = .ok field := by
  subst starts wide
  rw [readBytes, if_pos (by simp), List.append_assoc, List.drop_left,
    List.take_left]

theorem readUInt64_append (before after : Bytes) (handle : Fhandle)
    {offset : Nat} (starts : before.length = offset) :
    readUInt64 (before ++ handleBytes handle ++ after) offset = .ok handle := by
  rw [readUInt64, readWord, readBytes_append before _ after starts (by simp)]
  exact congrArg Except.ok (ofNat_ofBytes_handleBytes handle)

theorem readUInt32_append (before after : Bytes) (mode : UInt32)
    {offset : Nat} (starts : before.length = offset) :
    readUInt32 (before ++ toBytes 4 mode.toNat ++ after) offset = .ok mode := by
  rw [readUInt32, readWord, readBytes_append before _ after starts (by simp)]
  have read : UInt32.ofNat (ofBytes (toBytes 4 mode.toNat)) = mode := by
    rw [ofBytes_toBytes]
    apply UInt32.toNat_inj.mp
    rw [UInt32.toNat_ofNat', Nat.mod_mod_of_dvd _ (by norm_num)]
    exact Nat.mod_eq_of_lt mode.toNat_lt
  exact congrArg Except.ok read

theorem readString_append (before after : Bytes) (string : CString)
    (following : Nat → UInt8) {offset : Nat} (starts : before.length = offset) :
    readString (before ++ filenameField string following ++ after) offset =
      .ok (CString.sent string) := by
  subst starts
  obtain ⟨rest, field⟩ := filenameField_eq string following
  rw [readString, List.append_assoc, List.drop_left, field, List.append_assoc,
    stringAt_key_append]

/-! ## What the server does with each request -/

theorem typeBytes_length (type : MsgType) : (typeBytes type).length = 4 :=
  toBytes_length _ _

theorem serve_of_type (env : Env Fs) (type : MsgType) (rest : Bytes)
    (server : Server Fs)
    (word : MsgType.ofWord (MsgType.word type % 256 ^ 4) = type) :
    serve env (typeBytes type ++ rest) server =
      dispatch env (typeBytes type ++ rest) server type := by
  have field : readBytes ([] ++ typeBytes type ++ rest) 0 4 =
      .ok (typeBytes type) :=
    readBytes_append [] _ rest rfl (typeBytes_length type)
  have read : readWord (typeBytes type ++ rest) 0 sizeofSnfsMsgType =
      .ok (MsgType.word type % 256 ^ 4) := by
    rw [List.nil_append] at field
    rw [readWord, sizeofSnfsMsgType, field]
    exact congrArg Except.ok (ofBytes_toBytes 4 _)
  rw [serve, read]
  change dispatch env _ server (MsgType.ofWord _) = _
  rw [word]

/-- LOOKUP and RENAME hold a handle and a name. -/
theorem handle_and_name_read (type : MsgType) (handle : Fhandle)
    (filename : CString) (following : Nat → UInt8) :
    readUInt64 (typeBytes type ++ handleBytes handle ++
        filenameField filename following) 4 = .ok handle ∧
      readString (typeBytes type ++ handleBytes handle ++
        filenameField filename following) 12 =
        .ok (CString.sent filename) := by
  have starts : (typeBytes type ++ handleBytes handle).length = 12 := by
    simp [typeBytes_length]
  have read := readString_append _ [] filename following starts
  rw [List.append_nil] at read
  exact ⟨readUInt64_append _ _ handle (typeBytes_length type), read⟩

/-- CREATE and MKDIR hold a name and a mode. -/
theorem name_and_mode_read (type : MsgType) (filename : CString)
    (following : Nat → UInt8) (mode : UInt32) :
    readString (typeBytes type ++ filenameField filename following ++
        toBytes 4 mode.toNat) 4 = .ok (CString.sent filename) ∧
      readUInt32 (typeBytes type ++ filenameField filename following ++
        toBytes 4 mode.toNat) 260 = .ok mode := by
  have starts :
      (typeBytes type ++ filenameField filename following).length = 260 := by
    simp [typeBytes_length, snfsMaxFilenameBuf]
  have read := readUInt32_append _ [] mode starts
  rw [List.append_nil] at read
  exact ⟨readString_append _ _ filename following (typeBytes_length type), read⟩

theorem serve_mountMessage (env : Env Fs) (server : Server Fs) :
    serve env mountMessage server = handleMount env server := by
  have served := serve_of_type env .mount [] server rfl
  rw [List.append_nil] at served
  exact served

theorem serve_lookupMessage (env : Env Fs) (dir : Fhandle)
    (filename : CString) (following : Nat → UInt8) (server : Server Fs) :
    serve env (lookupMessage dir filename following) server =
      handleLookup env ⟨.ok dir, .ok (CString.sent filename)⟩ server := by
  obtain ⟨dirRead, filenameRead⟩ :=
    handle_and_name_read .lookup dir filename following
  rw [lookupMessage, List.append_assoc, serve_of_type env .lookup _ server rfl,
    ← List.append_assoc, dispatch, lookupArgs, dirRead, filenameRead]

theorem serve_renameMessage (env : Env Fs) (fh : Fhandle)
    (filename : CString) (following : Nat → UInt8) (server : Server Fs) :
    serve env (renameMessage fh filename following) server =
      handleRename env ⟨.ok fh, .ok (CString.sent filename)⟩ server := by
  obtain ⟨fhRead, filenameRead⟩ :=
    handle_and_name_read .rename fh filename following
  rw [renameMessage, List.append_assoc, serve_of_type env .rename _ server rfl,
    ← List.append_assoc, dispatch, renameArgs, fhRead, filenameRead]

theorem serve_createMessage (env : Env Fs) (filename : CString)
    (following : Nat → UInt8) (mode : UInt32) (server : Server Fs) :
    serve env (createMessage filename following mode) server =
      handleCreate env ⟨.ok (CString.sent filename), .ok mode⟩ server := by
  obtain ⟨filenameRead, modeRead⟩ :=
    name_and_mode_read .create filename following mode
  rw [createMessage, List.append_assoc, serve_of_type env .create _ server rfl,
    ← List.append_assoc, dispatch, createArgs, filenameRead, modeRead]

theorem serve_mkdirMessage (env : Env Fs) (dirname : CString)
    (following : Nat → UInt8) (mode : UInt32) (server : Server Fs) :
    serve env (mkdirMessage dirname following mode) server =
      handleMkdir env ⟨.ok (CString.sent dirname), .ok mode⟩ server := by
  obtain ⟨dirnameRead, modeRead⟩ :=
    name_and_mode_read .mkdir dirname following mode
  rw [mkdirMessage, List.append_assoc, serve_of_type env .mkdir _ server rfl,
    ← List.append_assoc, dispatch, mkdirArgs, dirnameRead, modeRead]

theorem sendRequest_of_reply {env : Env Fs} (type : MsgType)
    {message : Bytes} {server next : Server Fs} {reply : Reply} {size : Nat}
    (handled : serve env message server = .ok next)
    (sent : next.sent = (reply, size) :: server.sent)
    (named : Reply.type reply = type) (notError : type ≠ .error) :
    sendRequest env type message server = .ok (some reply, next) := by
  rw [sendRequest, handled]
  change (match next.sent with
    | [] => _
    | (reply, _) :: _ => _) = _
  rw [sent]
  subst named
  simp only [if_neg notError, ne_eq, not_true_eq_false, if_false]
  rfl

theorem sendRequest_of_error {env : Env Fs} {type : MsgType}
    {message : Bytes} {server next : Server Fs} {error : SnfsError}
    {size : Nat} (handled : serve env message server = .ok next)
    (sent : next.sent = (.error error, size) :: server.sent) :
    sendRequest env type message server = .ok (none, next) := by
  rw [sendRequest, handled]
  change (match next.sent with
    | [] => _
    | (reply, _) :: _ => _) = _
  rw [sent]
  rfl

end ChlorosSnfs.Snfs.Client
