import ChlorosSnfs.Snfs.Syscalls

/-!
# The handlers of handlers.c

Each handler takes the server before a request to the server after it, with its
reply in `sent`.  `debug` output is off, and a reply that cannot be sent is
only reported on the console, so `send_reply` records the attempt.  On Linux
`stat_to_fattr` leaves the microseconds as they are.
-/

set_option autoImplicit false

namespace ChlorosSnfs.Snfs.Handlers

open ChlorosSnfs.Snfs.Fhandledb
open ChlorosSnfs.Snfs.Messages
open ChlorosSnfs.Snfs.Syscalls

variable {Fs : Type}

/-! ## Shared by the handlers -/

def sendReply (reply : Reply) (size : Nat) (server : Server Fs) : Server Fs :=
  { server with sent := (reply, size) :: server.sent }

def handleError (error : SnfsError) (server : Server Fs) : Server Fs :=
  sendReply (.error error) (snfsRepSize sizeofErrorRep) server

/-- The chains of `errno` tests: `ENOENT` is kept and anything unnamed is
internal; the handlers differ in what they make of the other two. -/
def errorOf (denied notDirectory : SnfsError) : Errno → SnfsError
  | .enoent => .enoent
  | .eacces => denied
  | .enotdir => notDirectory
  | .other _ => .einternal

/-- A value of the database used as a string. -/
def asString (value : Bytes) : Argument CString :=
  match stringAt value with
  | some string => .ok string
  | none => .error .heapOverread

def findOrInsert (env : Env Fs) (filename : CString) (server : Server Fs) :
    Except Stop (Fhandle × Server Fs) :=
  match nameFindOrInsert env.leftover.word server.db server.draws filename with
  | some (handle, db, draws) => .ok (handle, { server with db, draws })
  | none => .error .noDraw

def removeName (env : Env Fs) (filename : CString) (server : Server Fs) :
    Except Stop (Bool × Server Fs) :=
  match nameRemove env.leftover.word server.db filename with
  | (.returned removed, db) => .ok (removed, { server with db })
  | (.errExit, _) => .error .errExit

/-- `close`, whose result no handler looks at. -/
def closeFd (env : Env Fs) (fd : Nat) (server : Server Fs) : Server Fs :=
  (syscall env (.close fd) server).2

/-- So many bytes where there is room for `room`. -/
def withinRoom (bytes room : Nat) : Except Stop Unit :=
  if bytes ≤ room then .ok () else .error .stackOverrun

/-- `stat_to_fattr` on an `fattr` with some contents. -/
def statToFattr (st : Stat) (attr : Fattr) : Fattr :=
  { attr with
    type :=
      if sIsreg st.mode then .snfreg
      else if sIsdir st.mode then .snfdir
      else if sIsblk st.mode then .snfblk
      else if sIschr st.mode then .snfchr
      else if sIslnk st.mode then .snflnk
      else .snfnon
    mode := st.mode.toUInt64
    nlink := st.nlink
    uid := st.uid.toUInt64
    gid := st.gid.toUInt64
    size := st.size.toUInt64
    rdev := st.rdev
    fsid := st.dev
    fileid := st.ino
    atime := { attr.atime with seconds := st.atime }
    mtime := { attr.mtime with seconds := st.mtime }
    ctime := { attr.ctime with seconds := st.ctime } }

/-! ## The handlers -/

def handleNoop (server : Server Fs) : Server Fs :=
  sendReply .noop sizeofSnfsMsgType server

def handleGetattr (env : Env Fs) (args : GetattrArgs) (server : Server Fs) :
    Except Stop (Server Fs) := do
  let fh ← args.fh
  match getFile server.db fh with
  | none => return handleError .enoent server
  | some value =>
    let filePath ← asString value
    match syscall env (.stat filePath) server with
    | (.error errno, server) =>
      return handleError (errorOf .einternal .einternal errno) server
    | (.ok st, server) =>
      return sendReply (.getattr (statToFattr st env.leftover.fattr))
        (snfsRepSize sizeofGetattrRep) server

/-- The entry `handle_readdir` makes of a `struct dirent`. -/
def toSnfsentry (entry : Dirent) (following : Nat → UInt8) : Snfsentry where
  fileid := entry.ino
  filename := copyBytes entry.name following snfsMaxFilenameLength ++ [0]

/-- `snfsentry entries[args->count]`; its size in bytes wraps around. -/
def entriesArraySize (count : UInt64) : UInt64 :=
  UInt64.ofNat sizeofSnfsentry * count

/-- The loop over the directory: it asks for one entry more than there is room
for.  `index` counts the entries read, which go into an array of so many bytes. -/
def readEntries (env : Env Fs) (dir arraySize : Nat) (room index : Nat)
    (server : Server Fs) :
    Except Stop (Except Errno (List Snfsentry) × Server Fs) :=
  match syscall env (.readdir dir) server with
  | (.error errno, server) => return (.error errno, server)
  | (.ok none, server) => return (.ok [], server)
  | (.ok (some entry), server) =>
    match room with
    | 0 => return (.ok [], server)
    | room + 1 => do
      withinRoom (sizeofSnfsentry * (index + 1)) arraySize
      let (entries, server) ←
        readEntries env dir arraySize room (index + 1) server
      return (entries.map
        (toSnfsentry entry (env.leftover.afterName index) :: ·), server)

def handleReaddir (env : Env Fs) (args : ReaddirArgs) (server : Server Fs) :
    Except Stop (Server Fs) := do
  let dir ← args.dir
  match getFile server.db dir with
  | none => return handleError .enoent server
  | some value =>
    let dirPath ← asString value
    match syscall env (.stat dirPath) server with
    | (.error errno, server) =>
      return handleError (errorOf .einternal .einternal errno) server
    | (.ok st, server) =>
      if !sIsdir st.mode then return handleError .enotdir server
      else
        match syscall env (.opendir dirPath) server with
        | (.error errno, server) =>
          return handleError (errorOf .eacces .enotdir errno) server
        | (.ok stream, server) =>
          let count ← args.count
          withinRoom (entriesArraySize count).toNat env.leftover.stack
          match ← readEntries env stream (entriesArraySize count).toNat
            count.toNat 0 server with
          | (.error _, server) => return handleError .einternal server
          | (.ok entries, server) =>
            return sendReply
              (.readdir (UInt64.ofNat entries.length) entries)
              (snfsRepSize sizeofReaddirRep + sizeofSnfsentry * entries.length)
              server

/-- The path of a directory entry as `handle_lookup` prints it. -/
def joinPath (dirPath filename : CString) : CString :=
  if dirPath.bytes.getLast? = some 47 ∨ filename.bytes.head? = some 47 then
    ⟨dirPath.bytes ++ filename.bytes, by
      simp [dirPath.noNul, filename.noNul]⟩
  else
    ⟨dirPath.bytes ++ 47 :: filename.bytes, by
      simp [dirPath.noNul, filename.noNul]⟩

def handleLookup (env : Env Fs) (args : LookupArgs) (server : Server Fs) :
    Except Stop (Server Fs) := do
  let dir ← args.dir
  match getFile server.db dir with
  | none => return handleError .enoent server
  | some value =>
    let dirPath ← asString value
    match syscall env (.stat dirPath) server with
    | (.error errno, server) =>
      return handleError (errorOf .einternal .einternal errno) server
    | (.ok st1, server) =>
      if !sIsdir st1.mode then return handleError .enotdir server
      else
        let filename ← args.filename
        -- `dir_path[dplen - 1]` lies before an empty string
        if dirPath.bytes = [] then throw .heapOverread
        else
          let filePath := joinPath dirPath filename
          match syscall env (.stat filePath) server with
          | (.error errno, server) =>
            return handleError (errorOf .einternal .ebadop errno) server
          | (.ok st2, server) =>
            let (handle, server) ← findOrInsert env filePath server
            return sendReply (.lookup handle (statToFattr st2 Fattr.zero))
              (snfsRepSize sizeofLookupRep) server

theorem slash_noNul : (0 : UInt8) ∉ [(47 : UInt8)] := by decide

/-- The path `/`. -/
def rootPath : CString := ⟨[47], slash_noNul⟩

def handleMount (env : Env Fs) (server : Server Fs) :
    Except Stop (Server Fs) := do
  let (root, server) ← findOrInsert env rootPath server
  return sendReply (.mount root) (snfsRepSize sizeofMountRep) server

/-- What `lseek` returns. -/
def offsetOf : Except Errno Int64 → Int64
  | .ok offset => offset
  | .error _ => -1

/-- `sizeof(void *)`. -/
def sizeofPointer : Nat := 8

/-- `void *buff[args->count]`; its size in bytes wraps around. -/
def readBufferSize (count : UInt64) : UInt64 := UInt64.ofNat sizeofPointer * count

def handleRead (env : Env Fs) (args : ReadArgs) (server : Server Fs) :
    Except Stop (Server Fs) := do
  let file ← args.file
  match getFile server.db file with
  | none => return handleError .enoent server
  | some value =>
    let filePath ← asString value
    match syscall env (.stat filePath) server with
    | (.error errno, server) =>
      return handleError (errorOf .einternal .einternal errno) server
    | (.ok st, server) =>
      match syscall env (.openFile filePath .rdonly) server with
      | (.error errno, server) =>
        return handleError (errorOf .eacces .einternal errno) server
      | (.ok fd, server) =>
        let wanted ← args.offset
        let (moved, server) := syscall env (.lseek fd wanted) server
        let offset := offsetOf moved
        if offset < 0 ∨ offset ≠ wanted then
          return closeFd env fd
            (handleError (if offset < 0 then .einternal else .ebadop) server)
        else
          let count ← args.count
          withinRoom (readBufferSize count).toNat env.leftover.stack
          if offset < st.size then
            match syscall env (.read fd count) server with
            | (.error _, server) =>
              return closeFd env fd (handleError .einternal server)
            | (.ok data, server) =>
              -- `read` stores into the buffer whatever its size is
              withinRoom data.length (readBufferSize count).toNat
              return replyRead fd count data server
          else return replyRead fd count [] server
where
  replyRead (fd : Nat) (count : UInt64) (data : Bytes) (server : Server Fs) :
      Server Fs :=
    closeFd env fd (sendReply
      (.read (UInt64.ofNat data.length)
        (if Int64.ofNat data.length < count.toInt64 then 1 else 0) data)
      (snfsRepSize sizeofReadRep + data.length) server)

def handleWrite (env : Env Fs) (args : WriteArgs) (server : Server Fs) :
    Except Stop (Server Fs) := do
  let file ← args.file
  match getFile server.db file with
  | none => return handleError .enoent server
  | some value =>
    let filePath ← asString value
    match syscall env (.openFile filePath .wronly) server with
    | (.error errno, server) =>
      return handleError (errorOf .einternal .einternal errno) server
    | (.ok fd, server) =>
      let wanted ← args.offset
      let (moved, server) := syscall env (.lseek fd wanted) server
      let offset := offsetOf moved
      -- a failing `lseek` passes this test when the client asked for -1
      if offset ≠ wanted then
        return closeFd env fd
          (handleError (if offset < 0 then .einternal else .ebadop) server)
      else
        let count ← args.count
        let data ← args.data count
        match syscall env (.write fd data) server with
        | (.error _, server) =>
          return closeFd env fd (handleError .einternal server)
        | (.ok bytes, server) =>
          return closeFd env fd (sendReply (.write (UInt64.ofNat bytes))
            (snfsRepSize sizeofWriteRep) server)

/-- One attribute of `handle_setattr`: if its bit is asked for, make the call,
and set the bit when the call succeeds. -/
def setAttribute (env : Env Fs) (which bit : UInt64) (call : Argument Call)
    (whichSet : UInt64) (server : Server Fs) :
    Except Stop (UInt64 × Server Fs) :=
  if which &&& bit = 0 then return (whichSet, server)
  else do
    let call ← call
    match syscall env call server with
    | (.error _, server) => return (whichSet, server)
    | (.ok _, server) => return (whichSet ||| bit, server)

/-- The times: once with `utimes`, and with `utime` when that fails. -/
def setTimes (env : Env Fs) (which : UInt64) (filePath : CString)
    (args : SetattrArgs) (whichSet : UInt64) (server : Server Fs) :
    Except Stop (UInt64 × Server Fs) :=
  if which &&& snfsSettimes = 0 then return (whichSet, server)
  else do
    let atime ← args.atime
    let mtime ← args.mtime
    match syscall env (.utimes filePath atime mtime) server with
    | (.ok _, server) => return (whichSet ||| snfsSettimes, server)
    | (.error _, server) =>
      match syscall env (.utime filePath atime.seconds mtime.seconds) server with
      | (.ok _, server) => return (whichSet ||| snfsSettimes, server)
      | (.error _, server) => return (whichSet, server)

def handleSetattr (env : Env Fs) (args : SetattrArgs) (server : Server Fs) :
    Except Stop (Server Fs) := do
  let which ← args.which
  let file ← args.file
  match getFile server.db file with
  | none => return handleError .enoent server
  | some value =>
    let filePath ← asString value
    match syscall env (.stat filePath) server with
    | (.error errno, server) =>
      return handleError (errorOf .einternal .einternal errno) server
    | (.ok _, server) =>
      let (whichSet, server) ← setAttribute env which snfsSetmode
        (args.mode.map fun mode => .chmod filePath mode.toUInt32) 0 server
      let (whichSet, server) ← setAttribute env which snfsSetuid
        (args.uid.map fun uid => .chown filePath uid.toUInt32 0xFFFFFFFF)
        whichSet server
      let (whichSet, server) ← setAttribute env which snfsSetgid
        (args.gid.map fun gid => .chown filePath 0xFFFFFFFF gid.toUInt32)
        whichSet server
      let (whichSet, server) ← setAttribute env which snfsSetsize
        (args.size.map fun size => .truncate filePath size) whichSet server
      let (whichSet, server) ←
        setTimes env which filePath args whichSet server
      return sendReply (.setattr whichSet) (snfsRepSize sizeofSetattrRep) server

def handleUnimplemented (server : Server Fs) : Server Fs :=
  handleError .enotimpl server

/-- `handle_create` and `handle_mkdir`: the call and the reply are all they differ
in. -/
def handleMake (env : Env Fs) (call : CString → UInt32 → Call)
    (reply : Fhandle → Reply) (size : Nat) (filename : Argument CString)
    (mode : Argument UInt32) (server : Server Fs) : Except Stop (Server Fs) := do
  let path ← filename
  let mode ← mode
  match syscall env (call path mode) server with
  | (.error errno, server) =>
    return handleError (errorOf .eacces .einternal errno) server
  | (.ok _, server) =>
    let (handle, server) ← findOrInsert env path server
    return sendReply (reply handle) (snfsRepSize size) server

/-- The descriptor of the new file stays open. -/
def handleCreate (env : Env Fs) (args : CreateArgs) (server : Server Fs) :
    Except Stop (Server Fs) :=
  handleMake env .creat .create sizeofCreateRep args.filename args.mode server

/-- The end of `handle_remove`, once the file is gone. -/
def removeStored (env : Env Fs) (path : CString) (server : Server Fs) :
    Except Stop (Server Fs) := do
  let (removed, server) ← removeName env path server
  if !removed then return handleError .einternal server
  else return sendReply .remove (snfsRepSize sizeofRemoveRep) server

def handleRemove (env : Env Fs) (args : RemoveArgs) (server : Server Fs) :
    Except Stop (Server Fs) := do
  let fh ← args.fh
  match getFile server.db fh with
  | none => return handleError .enoent server
  | some value =>
    let path ← asString value
    match syscall env (.stat path) server with
    | (.error errno, server) =>
      return handleError (errorOf .einternal .einternal errno) server
    | (.ok st, server) =>
      let isDir ← args.isDir
      if isDir ≠ 0 then
        if !sIsdir st.mode then return handleError .enotdir server
        else
          match syscall env (.rmdir path) server with
          | (.error errno, server) =>
            return handleError (errorOf .eacces .enotdir errno) server
          | (.ok _, server) => removeStored env path server
      else
        match syscall env (.unlink path) server with
        | (.error errno, server) =>
          return handleError (errorOf .eacces .enotdir errno) server
        | (.ok _, server) => removeStored env path server

def handleRename (env : Env Fs) (args : RenameArgs) (server : Server Fs) :
    Except Stop (Server Fs) := do
  let fh ← args.fh
  match getFile server.db fh with
  | none => return handleError .enoent server
  | some value =>
    let oldPath ← asString value
    let newPath ← args.filename
    match syscall env (.rename oldPath newPath) server with
    | (.error errno, server) =>
      return handleError (errorOf .eacces .einternal errno) server
    | (.ok _, server) =>
      let (handle, server) ← findOrInsert env newPath server
      let (removed, server) ← removeName env oldPath server
      if !removed then return handleError .einternal server
      else
        return sendReply (.rename handle) (snfsRepSize sizeofRenameRep) server

def handleMkdir (env : Env Fs) (args : MkdirArgs) (server : Server Fs) :
    Except Stop (Server Fs) :=
  handleMake env .mkdir .mkdir sizeofMkdirRep args.dirname args.mode server

end ChlorosSnfs.Snfs.Handlers
