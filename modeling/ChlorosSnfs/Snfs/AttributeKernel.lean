import ChlorosSnfs.Snfs.RemoteTimes

/-!
# The attributes of one regular file

What `chmod`, `chown`, `truncate`, `utimes` and `utime` do to a file on Linux.
Any call may fail and then changes nothing.  Beside what it is asked for,
`chmod` may leave out the set-group-ID bit, `chown` and `truncate` may clear the
set-user-ID and set-group-ID bits, and `truncate` may change the modification
time.
-/

set_option autoImplicit false

namespace ChlorosSnfs.Snfs.AttributeKernel

open ChlorosSnfs.Snfs.Fhandledb
open ChlorosSnfs.Snfs.Messages
open ChlorosSnfs.Snfs.Syscalls
open ChlorosSnfs.Snfs.RemoteTimes (InRange)

/-- `mode` is the mode without the file type. -/
structure Attributes where
  mode : UInt32
  uid : UInt32
  gid : UInt32
  size : Int64
  atime : SnfsTimeval
  mtime : SnfsTimeval
  deriving DecidableEq, Repr

/-- `S_ISGID`. -/
def sIsgid : UInt32 := 0x400

/-- `S_ISUID | S_ISGID`. -/
def setIds : UInt32 := 0xC00

/-- `S_IALLUGO`, all bits `chmod` can set. -/
def sIallugo : UInt32 := 0xFFF

/-- `(uid_t)-1`. -/
def unchanged : UInt32 := 0xFFFFFFFF

/-- What the arguments of a call leave to the kernel: whether it succeeds, which
of the bits that may be cleared stay, and the time of a `truncate`. -/
structure Fate where
  failure : Option Errno
  kept : UInt32
  now : SnfsTimeval

/-- A mode without those of the bits that are not kept. -/
def clearing (bits kept mode : UInt32) : UInt32 := mode &&& (kept ||| ~~~bits)

def owner (given old : UInt32) : UInt32 := if given = unchanged then old else given

def chmodded (mode : UInt32) (fate : Fate) (file : Attributes) : Attributes :=
  { file with mode := clearing sIsgid fate.kept (mode &&& sIallugo) }

def chowned (uid gid : UInt32) (fate : Fate) (file : Attributes) : Attributes :=
  { file with
    mode := clearing setIds fate.kept file.mode
    uid := owner uid file.uid
    gid := owner gid file.gid }

def truncated (size : Int64) (fate : Fate) (file : Attributes) : Attributes :=
  { file with
    mode := clearing setIds fate.kept file.mode
    size := size
    mtime := fate.now }

def timed (atime mtime : SnfsTimeval) (_ : Fate) (file : Attributes) : Attributes :=
  { file with atime, mtime }

/-! ## The kernel -/

/-- A regular file, and how many calls on its path there have been. -/
structure Disk where
  path : CString
  file : Attributes
  calls : Nat

/-- The fate of every call on the path, and what calls elsewhere give. -/
structure Linux where
  fates : Nat → Fate
  elsewhere : (call : Call) → Outcome call

/-- `EINVAL`. -/
def einval : Errno := .other 22

/-- How a call ends that these arguments allow. -/
def ending (fate : Fate) (allowed : Bool) : Except Errno Unit :=
  match fate.failure with
  | some errno => .error errno
  | none => if allowed then .ok () else .error einval

def Disk.called (linux : Linux) (disk : Disk) (allowed : Bool)
    (change : Fate → Attributes → Attributes) : Except Errno Unit × Disk :=
  let fate := linux.fates disk.calls
  (ending fate allowed,
    { disk with
      file := if (ending fate allowed).isOk then change fate disk.file else disk.file
      calls := disk.calls + 1 })

def Attributes.stat (file : Attributes) : Stat :=
  ⟨0x8000 ||| file.mode, 1, file.uid, file.gid, file.size, 0, 1, 2,
    file.atime.seconds, file.mtime.seconds, 0⟩

def Linux.kernel (linux : Linux) : Kernel Disk
  | .stat path, disk =>
    if path = disk.path then
      ((linux.fates disk.calls).failure.elim (.ok disk.file.stat) .error,
        { disk with calls := disk.calls + 1 })
    else (linux.elsewhere (.stat path), disk)
  | .chmod path mode, disk =>
    if path = disk.path then disk.called linux true (chmodded mode)
    else (linux.elsewhere (.chmod path mode), disk)
  | .chown path uid gid, disk =>
    if path = disk.path then disk.called linux true (chowned uid gid)
    else (linux.elsewhere (.chown path uid gid), disk)
  | .truncate path size, disk =>
    if path = disk.path then disk.called linux (0 ≤ size) (truncated size)
    else (linux.elsewhere (.truncate path size), disk)
  | .utimes path atime mtime, disk =>
    if path = disk.path then
      disk.called linux (InRange atime ∧ InRange mtime) (timed atime mtime)
    else (linux.elsewhere (.utimes path atime mtime), disk)
  | .utime path actime modtime, disk =>
    if path = disk.path then
      disk.called linux true (timed ⟨actime, 0⟩ ⟨modtime, 0⟩)
    else (linux.elsewhere (.utime path actime modtime), disk)
  | call, disk => (linux.elsewhere call, disk)

/-! ## Cleared bits -/

/-- Nothing but set-user-ID and set-group-ID bits is gone, and nothing new. -/
structure LosesSetIds (old new : UInt32) : Prop where
  others : new ||| setIds = old ||| setIds
  gainsNone : new &&& old = new

theorem LosesSetIds.refl (mode : UInt32) : LosesSetIds mode mode :=
  ⟨rfl, UInt32.and_self⟩

theorem LosesSetIds.trans {first second third : UInt32}
    (loses : LosesSetIds first second) (more : LosesSetIds second third) :
    LosesSetIds first third := by
  refine ⟨more.others.trans loses.others, ?_⟩
  calc third &&& first = third &&& second &&& first := by rw [more.gainsNone]
    _ = third &&& second := by rw [UInt32.and_assoc, loses.gainsNone]
    _ = third := more.gainsNone

theorem clearing_and (bits kept mode : UInt32) :
    clearing bits kept mode &&& mode = clearing bits kept mode := by
  rw [clearing, UInt32.and_comm mode, UInt32.and_assoc, UInt32.and_self]

theorem clearing_or (bits kept mode : UInt32) :
    clearing bits kept mode ||| bits = mode ||| bits := by
  apply UInt32.toBitVec_inj.mp
  ext index inside
  simp only [clearing, UInt32.toBitVec_or, UInt32.toBitVec_and, UInt32.toBitVec_not,
    BitVec.getElem_or, BitVec.getElem_and, BitVec.getElem_not]
  cases mode.toBitVec[index] <;> cases kept.toBitVec[index] <;>
    cases bits.toBitVec[index] <;> rfl

theorem losesSetIds_clearing (kept mode : UInt32) :
    LosesSetIds mode (clearing setIds kept mode) :=
  ⟨clearing_or setIds kept mode, clearing_and setIds kept mode⟩

/-- Two modes of which neither has a bit more are the same. -/
theorem eq_of_and {first second : UInt32} (below : first &&& second = first)
    (above : second &&& first = second) : first = second := by
  rw [← below, UInt32.and_comm, above]

end ChlorosSnfs.Snfs.AttributeKernel
