import ChlorosSnfs.Snfs.Wire

/-!
# The calls on files and directories of fuseops.c

`snfs_read` and `snfs_write` use the handle in the FUSE file information;
`snfs_readdir` and `snfs_setattr`, and with it `snfs_truncate` and
`snfs_utimens`, look their path up again.  FUSE promises a buffer of at least
`count` bytes; the models stop where the code would leave it.
-/

set_option autoImplicit false

namespace ChlorosSnfs.Snfs.FileCalls

open ChlorosSnfs.Snfs.Fhandledb
open ChlorosSnfs.Snfs.Messages
open ChlorosSnfs.Snfs.Syscalls
open ChlorosSnfs.Snfs.Handlers
open ChlorosSnfs.Snfs.Client
open ChlorosSnfs.Snfs.Wire

variable {Fs : Type}

/-- `-EIO`. -/
def negEio : Int := -5

/-- The loop of `snfs_readdir` over its reply: the names `filler` is called with.
What `filler` returns is not looked at. -/
def fillNames : Nat → List Snfsentry → Except Stop (List CString)
  | 0, _ => return []
  | _ + 1, [] => throw .messageOverread
  | number + 1, entry :: rest => do
    match stringAt entry.filename with
    | none => throw .messageOverread
    | some filename =>
      let filenames ← fillNames number rest
      return filename :: filenames

/-- `snfs_readdir`: its result and the names it has called `filler` with. -/
def snfsReaddir (link : Link Fs) (rootFhandle : Fhandle) (path : CString)
    (server : Server Fs) :
    Except Stop ((Int × List CString) × Server Fs) := do
  let ((found, handle), server) ← lookup link rootFhandle path 0 server
  if !found then return ((negEnoent, []), server)
  else
    let message := Request.sent noGap [] (.readdir handle 256)
    match ← sendRequest (link.env (tokens path).length) .readdir message server
      with
    | (some (.readdir numEntries entries), server) =>
      let filenames ← fillNames numEntries.toNat entries
      return ((0, filenames), server)
    | (_, server) => return ((negEio, []), server)

/-- `snfs_open`: its result and `fi->fh`, which was `fh` before. -/
def snfsOpen (link : Link Fs) (rootFhandle : Fhandle) (path : CString)
    (fh : Fhandle) (server : Server Fs) :
    Except Stop ((Int × Fhandle) × Server Fs) := do
  let ((found, handle), server) ← lookup link rootFhandle path 0 server
  if !found then return ((negEnoent, fh), server)
  else return ((0, handle), server)

/-- `struct timespec`. -/
structure Timespec where
  sec : Int64
  nsec : Int64

/-- What `snfs_setattr` makes of a `struct timespec`. -/
def Timespec.toTimeval (time : Timespec) : SnfsTimeval :=
  ⟨time.sec, time.nsec * 1000⟩

/-- `snfs_setattr`; `tv` holds the access and the modification time. -/
def snfsSetattr (link : Link Fs) (rootFhandle : Fhandle) (path : CString)
    (which : UInt64) (size : Int64) (mode uid gid : UInt32)
    (tv : Option (Timespec × Timespec)) (server : Server Fs) :
    Except Stop (Int × Server Fs) := do
  let ((found, handle), server) ← lookup link rootFhandle path 0 server
  if !found then return (negEnoent, server)
  else
    let atime := (tv.map fun times => times.1.toTimeval).getD ⟨0, 0⟩
    let mtime := (tv.map fun times => times.2.toTimeval).getD ⟨0, 0⟩
    let message := Request.sent noGap [] (.setattr handle which mode.toUInt64
      uid.toUInt64 gid.toUInt64 size atime mtime)
    match ← sendRequest (link.env (tokens path).length) .setattr message server
      with
    | (some (.setattr repWhich), server) =>
      return (if repWhich = which then 0 else -1, server)
    | (_, server) => return (negEio, server)

/-- `snfs_utimens`; `tv` holds the access and the modification time. -/
def snfsUtimens (link : Link Fs) (rootFhandle : Fhandle) (path : CString)
    (tv : Timespec × Timespec) (server : Server Fs) :
    Except Stop (Int × Server Fs) :=
  snfsSetattr link rootFhandle path snfsSettimes 0 0 0 0 (some tv) server

/-- `snfs_chmod`. -/
def snfsChmod (link : Link Fs) (rootFhandle : Fhandle) (path : CString)
    (mode : UInt32) (server : Server Fs) : Except Stop (Int × Server Fs) :=
  snfsSetattr link rootFhandle path snfsSetmode 0 mode 0 0 none server

/-- The flags of `snfs_chown`: an id of -1 is left alone. -/
def chownWhich (uid gid : UInt32) : UInt64 :=
  (if uid = 0xFFFFFFFF then 0 else snfsSetuid) |||
    (if gid = 0xFFFFFFFF then 0 else snfsSetgid)

/-- `snfs_chown`. -/
def snfsChown (link : Link Fs) (rootFhandle : Fhandle) (path : CString)
    (uid gid : UInt32) (server : Server Fs) : Except Stop (Int × Server Fs) :=
  snfsSetattr link rootFhandle path (chownWhich uid gid) 0 0 uid gid none server

/-- `snfs_opendir`, which does what `snfs_open` does. -/
def snfsOpendir (link : Link Fs) (rootFhandle : Fhandle) (path : CString)
    (fh : Fhandle) (server : Server Fs) :
    Except Stop ((Int × Fhandle) × Server Fs) :=
  snfsOpen link rootFhandle path fh server

/-- `fattr_to_stat` into a `struct stat` with some contents. -/
def fattrToStat (attr : Fattr) (st : Stat) : Stat :=
  { st with
    mode := attr.mode.toUInt32
    nlink := attr.nlink
    uid := attr.uid.toUInt32
    gid := attr.gid.toUInt32
    size := attr.size.toInt64
    ino := attr.fileid
    atime := attr.atime.seconds
    mtime := attr.mtime.seconds
    ctime := attr.ctime.seconds }

/-- `snfs_getattr`: its result and `*stbuf`, which was `stbuf` before. -/
def snfsGetattr (link : Link Fs) (rootFhandle : Fhandle) (path : CString)
    (stbuf : Stat) (server : Server Fs) :
    Except Stop ((Int × Stat) × Server Fs) := do
  let ((found, handle), server) ← lookup link rootFhandle path 0 server
  if !found then return ((negEnoent, stbuf), server)
  else
    let message := Request.sent noGap [] (.getattr handle)
    match ← sendRequest (link.env (tokens path).length) .getattr message server
      with
    | (some (.getattr attributes), server) =>
      return ((0, fattrToStat attributes stbuf), server)
    | (_, server) => return ((negEio, stbuf), server)

/-- `snfs_unlink` and `snfs_rmdir`: the flag is all they differ in.  The gap behind
it in the request is what is left in the client's memory. -/
def snfsRemove (isDir : UInt8) (link : Link Fs) (rootFhandle : Fhandle)
    (path : CString) (server : Server Fs) : Except Stop (Int × Server Fs) := do
  let ((found, handle), server) ← lookup link rootFhandle path 0 server
  if !found then return (negEnoent, server)
  else
    let request := (tokens path).length
    let message :=
      Request.sent (link.following request) [] (.remove handle isDir)
    match ← sendRequest (link.env request) .remove message server with
    | (some _, server) => return (0, server)
    | (none, server) => return (negEnoent, server)

def snfsUnlink (link : Link Fs) (rootFhandle : Fhandle) (path : CString)
    (server : Server Fs) : Except Stop (Int × Server Fs) :=
  snfsRemove 0 link rootFhandle path server

def snfsRmdir (link : Link Fs) (rootFhandle : Fhandle) (path : CString)
    (server : Server Fs) : Except Stop (Int × Server Fs) :=
  snfsRemove 1 link rootFhandle path server

end ChlorosSnfs.Snfs.FileCalls
