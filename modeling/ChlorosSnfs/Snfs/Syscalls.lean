import ChlorosSnfs.Snfs.Messages

/-!
# System calls and the state of the server

The kernel is a parameter: a function from a call and the state of the served
machine to the outcome of the call and the state after it.  Nothing is assumed
of it here.  The server's own state is the handle database, the values
`get_random` will draw, the replies handed to `send_reply` and the descriptors
it has open.
-/

set_option autoImplicit false

namespace ChlorosSnfs.Snfs.Syscalls

open ChlorosSnfs.Snfs.Fhandledb
open ChlorosSnfs.Snfs.Messages

/-- The values of `errno` the handlers tell apart. -/
inductive Errno where
  | enoent
  | eacces
  | enotdir
  | other (number : Nat)
  deriving DecidableEq, Repr

/-- `struct stat`. -/
structure Stat where
  mode : UInt32
  nlink : UInt64
  uid : UInt32
  gid : UInt32
  size : Int64
  rdev : UInt64
  dev : UInt64
  ino : UInt64
  atime : Int64
  mtime : Int64
  ctime : Int64
  deriving DecidableEq, Repr

/-- The `S_IFMT` bits of a mode. -/
def fileType (mode : UInt32) : UInt32 := mode &&& 0xF000

def sIsreg (mode : UInt32) : Bool := fileType mode = 0x8000

def sIsdir (mode : UInt32) : Bool := fileType mode = 0x4000

def sIsblk (mode : UInt32) : Bool := fileType mode = 0x6000

def sIschr (mode : UInt32) : Bool := fileType mode = 0x2000

def sIslnk (mode : UInt32) : Bool := fileType mode = 0xA000

/-- What a handler uses of `struct dirent`. -/
structure Dirent where
  ino : UInt64
  name : CString

inductive Access where
  | rdonly
  | wronly
  deriving DecidableEq, Repr

/-- The calls the handlers make.  Descriptors and directory streams are the
numbers the kernel gives them; a `uid` or `gid` of -1 is `0xFFFFFFFF`. -/
inductive Call where
  | stat (path : CString)
  | opendir (path : CString)
  | readdir (dir : Nat)
  | openFile (path : CString) (access : Access)
  | lseek (fd : Nat) (offset : Int64)
  | read (fd : Nat) (count : UInt64)
  | write (fd : Nat) (data : Bytes)
  | close (fd : Nat)
  | chmod (path : CString) (mode : UInt32)
  | chown (path : CString) (uid gid : UInt32)
  | truncate (path : CString) (size : Int64)
  | utimes (path : CString) (atime mtime : SnfsTimeval)
  | utime (path : CString) (actime modtime : Int64)
  | creat (path : CString) (mode : UInt32)
  | rmdir (path : CString)
  | unlink (path : CString)
  | rename (oldPath newPath : CString)
  | mkdir (path : CString) (mode : UInt32)

/-- What a call gives when it succeeds; `readdir` gives `none` at the end. -/
@[reducible]
def Result : Call → Type
  | .stat _ => Stat
  | .opendir _ => Nat
  | .readdir _ => Option Dirent
  | .openFile _ _ => Nat
  | .lseek _ _ => Int64
  | .read _ _ => Bytes
  | .write _ _ => Nat
  | .creat _ _ => Nat
  | .close _ => Unit
  | .chmod _ _ => Unit
  | .chown _ _ _ => Unit
  | .truncate _ _ => Unit
  | .utimes _ _ _ => Unit
  | .utime _ _ _ => Unit
  | .rmdir _ => Unit
  | .unlink _ => Unit
  | .rename _ _ => Unit
  | .mkdir _ _ => Unit

abbrev Outcome (call : Call) : Type := Except Errno (Result call)

abbrev Kernel (Fs : Type) : Type := (call : Call) → Fs → Outcome call × Fs

/-- Calls that only look, or move a descriptor. -/
def Call.readOnly : Call → Bool
  | .stat _ => true
  | .opendir _ => true
  | .readdir _ => true
  | .openFile _ _ => true
  | .lseek _ _ => true
  | .read _ _ => true
  | .close _ => true
  | _ => false

/-- Calls that make, move or remove a name. -/
def Call.changesNames : Call → Bool
  | .creat _ _ => true
  | .rmdir _ => true
  | .unlink _ => true
  | .rename _ _ => true
  | .mkdir _ _ => true
  | _ => false

theorem keepsNames_of_readOnly {call : Call} (looks : call.readOnly = true) :
    call.changesNames = false := by
  cases call <;> first | rfl | cases looks

/-- The state after calls that only looked and calls that failed. -/
inductive Quiet {Fs : Type} (kernel : Kernel Fs) : Fs → Fs → Prop
  | refl (fs : Fs) : Quiet kernel fs fs
  | readOnly {fs middle : Fs} (before : Quiet kernel fs middle) (call : Call)
      (looks : call.readOnly = true) : Quiet kernel fs (kernel call middle).2
  | failed {fs middle : Fs} (before : Quiet kernel fs middle) (call : Call)
      (errno : Errno) (fails : (kernel call middle).1 = .error errno) :
      Quiet kernel fs (kernel call middle).2

/-- The state after calls that failed or changed no name. -/
inductive InPlace {Fs : Type} (kernel : Kernel Fs) : Fs → Fs → Prop
  | quiet {fs after : Fs} (quiet : Quiet kernel fs after) : InPlace kernel fs after
  | call {fs middle : Fs} (before : InPlace kernel fs middle) (call : Call)
      (keepsNames : call.changesNames = false) :
      InPlace kernel fs (kernel call middle).2

/-- The state after calls of one kind, whatever came of them. -/
inductive Calls {Fs : Type} (kernel : Kernel Fs) (kind : Call → Prop) :
    Fs → Fs → Prop
  | refl (fs : Fs) : Calls kernel kind fs fs
  | call {fs middle : Fs} (before : Calls kernel kind fs middle) (call : Call)
      (fine : kind call) : Calls kernel kind fs (kernel call middle).2

theorem Calls.inPlace {Fs : Type} {kernel : Kernel Fs} {kind : Call → Prop}
    (keepsNames : ∀ call, kind call → call.changesNames = false) {fs after : Fs}
    (calls : Calls kernel kind fs after) : InPlace kernel fs after := by
  induction calls with
  | refl => exact .quiet (.refl _)
  | call _ call fine inductionHypothesis =>
      exact .call inductionHypothesis call (keepsNames call fine)

/-- The files served, as far as looking at them and failing calls leave them
alone. -/
structure Undisturbed {Fs Files : Type} (kernel : Kernel Fs)
    (served : Fs → Files) : Prop where
  readOnly : ∀ call fs, call.readOnly = true →
    served (kernel call fs).2 = served fs
  failed : ∀ call fs errno, (kernel call fs).1 = .error errno →
    served (kernel call fs).2 = served fs

theorem Quiet.trans {Fs : Type} {kernel : Kernel Fs} {first second third : Fs}
    (quiet : Quiet kernel first second) (more : Quiet kernel second third) :
    Quiet kernel first third := by
  induction more with
  | refl => exact quiet
  | readOnly _ call looks inductionHypothesis =>
      exact .readOnly inductionHypothesis call looks
  | failed _ call errno fails inductionHypothesis =>
      exact .failed inductionHypothesis call errno fails

theorem Quiet.served_eq {Fs Files : Type} {kernel : Kernel Fs}
    {served : Fs → Files} (undisturbed : Undisturbed kernel served)
    {fs after : Fs} (quiet : Quiet kernel fs after) :
    served after = served fs := by
  induction quiet with
  | refl => rfl
  | readOnly before call looks inductionHypothesis =>
      exact (undisturbed.readOnly call _ looks).trans inductionHypothesis
  | failed before call errno fails inductionHypothesis =>
      exact (undisturbed.failed call _ errno fails).trans inductionHypothesis

/-! ## The server -/

/-- What the server holds open. -/
inductive Descriptor where
  | file (fd : Nat)
  | directory (dir : Nat)
  deriving DecidableEq, Repr

/-- The replies are those handed to `send_reply` with their sizes, the last
first. -/
structure Server (Fs : Type) where
  fs : Fs
  db : Db
  draws : List Fhandle
  sent : List (Reply × Nat)
  opened : List Descriptor

/-- Memory the handlers read without having written it: the bytes behind a
value on the heap, the `fattr` on the stack of `handle_getattr` and the bytes
behind the NUL of each directory entry's name.  `stack` is how many bytes are
left for an array on the stack. -/
structure Leftover where
  word : Fhandle
  fattr : Fattr
  afterName : Nat → Nat → UInt8
  stack : Nat

structure Env (Fs : Type) where
  kernel : Kernel Fs
  leftover : Leftover

/-- The descriptors open after a call.  On Linux `close` gives its descriptor
back whatever it returns. -/
def openedAfter (opened : List Descriptor) :
    (call : Call) → Outcome call → List Descriptor
  | .openFile _ _, .ok fd => .file fd :: opened
  | .creat _ _, .ok fd => .file fd :: opened
  | .opendir _, .ok dir => .directory dir :: opened
  | .close fd, _ => opened.erase (.file fd)
  | _, _ => opened

variable {Fs : Type}

def syscall (env : Env Fs) (call : Call) (server : Server Fs) :
    Outcome call × Server Fs :=
  let result := env.kernel call server.fs
  (result.1,
    { server with
      fs := result.2
      opened := openedAfter server.opened call result.1 })

@[simp]
theorem syscall_fst (env : Env Fs) (call : Call) (server : Server Fs) :
    (syscall env call server).1 = (env.kernel call server.fs).1 := rfl

@[simp]
theorem syscall_fs (env : Env Fs) (call : Call) (server : Server Fs) :
    (syscall env call server).2.fs = (env.kernel call server.fs).2 := rfl

@[simp]
theorem syscall_db (env : Env Fs) (call : Call) (server : Server Fs) :
    (syscall env call server).2.db = server.db := rfl

@[simp]
theorem syscall_draws (env : Env Fs) (call : Call) (server : Server Fs) :
    (syscall env call server).2.draws = server.draws := rfl

@[simp]
theorem syscall_sent (env : Env Fs) (call : Call) (server : Server Fs) :
    (syscall env call server).2.sent = server.sent := rfl

end ChlorosSnfs.Snfs.Syscalls
