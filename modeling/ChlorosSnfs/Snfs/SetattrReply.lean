import ChlorosSnfs.Snfs.AttributeKernel

/-!
# What a SETATTR reply reports

`handle_setattr` changes the mode before the owner, the group and the size, and
notes for each call whether it has succeeded.  A later `chown` or `truncate` can
clear bits of the mode that has been noted.  `snfs_chmod` and `snfs_chown` ask for
no more than one kind of call, so what they return is what has been done.
-/

set_option autoImplicit false

namespace ChlorosSnfs.Snfs.SetattrReply

open ChlorosSnfs.Snfs.Fhandledb
open ChlorosSnfs.Snfs.Messages
open ChlorosSnfs.Snfs.Syscalls
open ChlorosSnfs.Snfs.Handlers
open ChlorosSnfs.Snfs.ServeLoop
open ChlorosSnfs.Snfs.HandlerEffects
open ChlorosSnfs.Snfs.Client
open ChlorosSnfs.Snfs.ClientCalls
open ChlorosSnfs.Snfs.Wire
open ChlorosSnfs.Snfs.RoundTrip
open ChlorosSnfs.Snfs.FileCalls
open ChlorosSnfs.Snfs.FoundPaths
open ChlorosSnfs.Snfs.RemoteTimes (InRange)
open ChlorosSnfs.Snfs.AttributeKernel

/-! ## A request and its calls -/

/-- What a SETATTR asks for. -/
structure Wanted where
  which : UInt64
  mode : UInt64
  uid : UInt64
  gid : UInt64
  size : Int64
  atime : SnfsTimeval
  mtime : SnfsTimeval

inductive Attribute where
  | mode
  | uid
  | gid
  | size
  | times
  deriving DecidableEq, Repr

def Attribute.bit : Attribute → UInt64
  | .mode => snfsSetmode
  | .uid => snfsSetuid
  | .gid => snfsSetgid
  | .size => snfsSetsize
  | .times => snfsSettimes

namespace Wanted

def args (wanted : Wanted) (file : Fhandle) : SetattrArgs :=
  ⟨.ok file, .ok wanted.which, .ok wanted.mode, .ok wanted.uid, .ok wanted.gid,
    .ok wanted.size, .ok wanted.atime, .ok wanted.mtime⟩

def asks (wanted : Wanted) (attr : Attribute) : Bool :=
  wanted.which &&& attr.bit ≠ 0

/-- The call that is made first for an attribute. -/
def call (wanted : Wanted) (path : CString) : Attribute → Call
  | .mode => .chmod path wanted.mode.toUInt32
  | .uid => .chown path wanted.uid.toUInt32 unchanged
  | .gid => .chown path unchanged wanted.gid.toUInt32
  | .size => .truncate path wanted.size
  | .times => .utimes path wanted.atime wanted.mtime

def allowed (wanted : Wanted) : Attribute → Bool
  | .size => 0 ≤ wanted.size
  | .times => InRange wanted.atime ∧ InRange wanted.mtime
  | _ => true

def change (wanted : Wanted) : Attribute → Fate → Attributes → Attributes
  | .mode => chmodded wanted.mode.toUInt32
  | .uid => chowned wanted.uid.toUInt32 unchanged
  | .gid => chowned unchanged wanted.gid.toUInt32
  | .size => truncated wanted.size
  | .times => timed wanted.atime wanted.mtime

/-- How many calls are made for the attributes before this one. -/
def earlier (wanted : Wanted) : Attribute → Nat
  | .mode => 0
  | .uid => (wanted.asks .mode).toNat
  | .gid => (wanted.asks .mode).toNat + (wanted.asks .uid).toNat
  | .size => (wanted.asks .mode).toNat + (wanted.asks .uid).toNat +
      (wanted.asks .gid).toNat
  | .times => (wanted.asks .mode).toNat + (wanted.asks .uid).toNat +
      (wanted.asks .gid).toNat + (wanted.asks .size).toNat

/-! What the kernel makes of the request, where `first` calls have gone before. -/

section Kernel

variable (linux : Linux) (first : Nat) (wanted : Wanted)

def fate (attr : Attribute) : Fate := linux.fates (first + wanted.earlier attr)

/-- The call for the attribute is made and succeeds. -/
def succeeds (attr : Attribute) : Bool :=
  wanted.asks attr &&
    (ending (wanted.fate linux first attr) (wanted.allowed attr)).isOk

/-- `utimes` has failed and `utime` succeeds. -/
def fallsBack : Bool :=
  wanted.asks .times && !wanted.succeeds linux first .times &&
    (ending (linux.fates (first + wanted.earlier .times + 1)) true).isOk

def applied (attr : Attribute) (file : Attributes) : Attributes :=
  if wanted.succeeds linux first attr then
    wanted.change attr (wanted.fate linux first attr) file
  else file

/-- With `utime` in whole seconds when `utimes` has failed. -/
def timesApplied (file : Attributes) : Attributes :=
  if wanted.fallsBack linux first then
    { file with atime := ⟨wanted.atime.seconds, 0⟩, mtime := ⟨wanted.mtime.seconds, 0⟩ }
  else wanted.applied linux first .times file

def settled (file : Attributes) : Attributes :=
  let file := wanted.applied linux first .mode file
  let file := wanted.applied linux first .uid file
  let file := wanted.applied linux first .gid file
  let file := wanted.applied linux first .size file
  wanted.timesApplied linux first file

def noted (attr : Attribute) : UInt64 :=
  if wanted.succeeds linux first attr then attr.bit else 0

def timesNoted : UInt64 :=
  if wanted.fallsBack linux first then snfsSettimes
  else wanted.noted linux first .times

def reported : UInt64 :=
  0 ||| wanted.noted linux first .mode ||| wanted.noted linux first .uid |||
    wanted.noted linux first .gid ||| wanted.noted linux first .size |||
    wanted.timesNoted linux first

end Kernel

end Wanted

/-! ## What the handler does -/

section Handler

variable {linux : Linux} {leftover : Leftover} {wanted : Wanted} {first : Nat}
  {server : Server Disk} {path : CString} {file : Attributes}

theorem setAttribute_eq (env : Env Disk) (which bit : UInt64) (call : Call)
    (whichSet : UInt64) (server : Server Disk) :
    setAttribute env which bit (.ok call) whichSet server =
      .ok (if which &&& bit = 0 then (whichSet, server)
        else (if (syscall env call server).1.isOk then whichSet ||| bit else whichSet,
          (syscall env call server).2)) := by
  rw [setAttribute]
  split
  · rfl
  · rw [ok_bind]
    split
    · rename_i called
      rw [called]
      rfl
    · rename_i called
      rw [called]
      rfl

/-- The call on the file of the disk. -/
theorem syscall_call {attr : Attribute} {calls : Nat} {after : Server Disk}
    {outcome : Outcome (wanted.call path attr)}
    (reached : server.fs = ⟨path, file, calls⟩)
    (called : syscall ⟨linux.kernel, leftover⟩ (wanted.call path attr) server =
      (outcome, after)) :
    outcome.isOk = (ending (linux.fates calls) (wanted.allowed attr)).isOk ∧
      after.fs = ⟨path, if (ending (linux.fates calls) (wanted.allowed attr)).isOk then
        wanted.change attr (linux.fates calls) file else file, calls + 1⟩ := by
  have kernel := kernel_of_syscall called
  rw [reached] at kernel
  cases attr <;> simp only [Wanted.call, Linux.kernel, if_true] at kernel <;>
    exact ⟨congrArg (Except.isOk ·.1) kernel.symm, congrArg Prod.snd kernel.symm⟩

theorem earlier_step (wanted : Wanted) :
    wanted.earlier .uid = wanted.earlier .mode + (wanted.asks .mode).toNat ∧
      wanted.earlier .gid = wanted.earlier .uid + (wanted.asks .uid).toNat ∧
      wanted.earlier .size = wanted.earlier .gid + (wanted.asks .gid).toNat ∧
      wanted.earlier .times = wanted.earlier .size + (wanted.asks .size).toNat :=
  ⟨(Nat.zero_add _).symm, rfl, rfl, rfl⟩

theorem asks_eq_false {attr : Attribute} :
    wanted.asks attr = false ↔ wanted.which &&& attr.bit = 0 := by
  rw [Wanted.asks, decide_eq_false_iff_not, not_not]

/-- One attribute, when its turn comes. -/
theorem setAttribute_stage (attr : Attribute) {whichSet result : UInt64}
    {next : Server Disk}
    (reached : server.fs = ⟨path, file, first + wanted.earlier attr⟩)
    (set : setAttribute ⟨linux.kernel, leftover⟩ wanted.which attr.bit
      (.ok (wanted.call path attr)) whichSet server = .ok (result, next)) :
    result = whichSet ||| wanted.noted linux first attr ∧
      next.fs = ⟨path, wanted.applied linux first attr file,
        first + wanted.earlier attr + (wanted.asks attr).toNat⟩ := by
  rw [setAttribute_eq] at set
  cases asked : wanted.asks attr with
  | false =>
      rw [if_pos (asks_eq_false.mp asked)] at set
      cases set
      simp only [Wanted.noted, Wanted.applied, Wanted.succeeds, asked, Bool.false_and,
        Bool.false_eq_true, if_false, UInt64.or_zero, reached, true_and]
      rfl
  | true =>
      have notUnasked : ¬ wanted.which &&& attr.bit = 0 := by
        rw [← asks_eq_false, asked]
        decide
      obtain ⟨outcome, after, called⟩ : ∃ outcome after, syscall
          ⟨linux.kernel, leftover⟩ (wanted.call path attr) server = (outcome, after) :=
        ⟨_, _, rfl⟩
      obtain ⟨isOk, fs⟩ := syscall_call reached called
      rw [if_neg notUnasked, called] at set
      cases set
      refine ⟨?_, ?_⟩
      · rw [isOk]
        simp only [Wanted.noted, Wanted.succeeds, asked, Bool.true_and, Wanted.fate]
        split
        · rfl
        · exact UInt64.or_zero.symm
      · simp only [fs, Wanted.applied, Wanted.succeeds, asked, Bool.true_and,
          Wanted.fate, Bool.toNat_true]

theorem syscall_utime {actime modtime : Int64} {calls : Nat} {after : Server Disk}
    {outcome : Except Errno Unit} (reached : server.fs = ⟨path, file, calls⟩)
    (called : syscall ⟨linux.kernel, leftover⟩ (.utime path actime modtime) server =
      (outcome, after)) :
    outcome.isOk = (ending (linux.fates calls) true).isOk ∧
      after.fs = ⟨path, if (ending (linux.fates calls) true).isOk then
        { file with atime := ⟨actime, 0⟩, mtime := ⟨modtime, 0⟩ } else file,
        calls + 1⟩ := by
  have kernel := kernel_of_syscall called
  rw [reached] at kernel
  simp only [Linux.kernel, if_true] at kernel
  exact ⟨congrArg (Except.isOk ·.1) kernel.symm, congrArg Prod.snd kernel.symm⟩

theorem succeeds_of_unasked {attr : Attribute} (unasked : wanted.asks attr = false) :
    wanted.succeeds linux first attr = false := by
  rw [Wanted.succeeds, unasked, Bool.false_and]

theorem fallsBack_of_unasked (unasked : wanted.asks .times = false) :
    wanted.fallsBack linux first = false := by
  rw [Wanted.fallsBack, unasked, Bool.false_and, Bool.false_and]

theorem not_fallsBack_of_succeeds (done : wanted.succeeds linux first .times = true) :
    wanted.fallsBack linux first = false := by
  rw [Wanted.fallsBack, done, Bool.not_true, Bool.and_false, Bool.false_and]

theorem times_of_succeeds (done : wanted.succeeds linux first .times = true)
    (file : Attributes) :
    wanted.timesNoted linux first = snfsSettimes ∧
      wanted.timesApplied linux first file =
        wanted.change .times (wanted.fate linux first .times) file := by
  rw [Wanted.timesNoted, Wanted.timesApplied, not_fallsBack_of_succeeds done,
    Wanted.noted, Wanted.applied, done]
  exact ⟨rfl, rfl⟩

theorem times_of_fallsBack (falls : wanted.fallsBack linux first = true)
    (file : Attributes) :
    wanted.timesNoted linux first = snfsSettimes ∧
      wanted.timesApplied linux first file = { file with
        atime := ⟨wanted.atime.seconds, 0⟩, mtime := ⟨wanted.mtime.seconds, 0⟩ } := by
  rw [Wanted.timesNoted, Wanted.timesApplied, falls]
  exact ⟨rfl, rfl⟩

theorem times_of_neither (notDone : wanted.succeeds linux first .times = false)
    (staysAway : wanted.fallsBack linux first = false) (file : Attributes) :
    wanted.timesNoted linux first = 0 ∧
      wanted.timesApplied linux first file = file := by
  rw [Wanted.timesNoted, Wanted.timesApplied, staysAway, Wanted.noted, Wanted.applied,
    notDone]
  exact ⟨rfl, rfl⟩

theorem setTimes_stage {handle : Fhandle} {whichSet result : UInt64}
    {next : Server Disk}
    (reached : server.fs = ⟨path, file, first + wanted.earlier .times⟩)
    (set : setTimes ⟨linux.kernel, leftover⟩ wanted.which path (wanted.args handle)
      whichSet server = .ok (result, next)) :
    result = whichSet ||| wanted.timesNoted linux first ∧
      next.fs.file = wanted.timesApplied linux first file := by
  have unasked : wanted.asks .times = false ↔ wanted.which &&& snfsSettimes = 0 :=
    asks_eq_false
  rw [setTimes] at set
  cases asked : wanted.asks .times with
  | false =>
      obtain ⟨noted, applied⟩ := times_of_neither (succeeds_of_unasked asked)
        (fallsBack_of_unasked asked) file
      rw [if_pos (unasked.mp asked)] at set
      cases set
      rw [noted, applied, UInt64.or_zero, reached]
      exact ⟨rfl, rfl⟩
  | true =>
      have notUnasked : ¬ wanted.which &&& snfsSettimes = 0 := by
        rw [← unasked, asked]
        decide
      obtain ⟨outcome, middle, called⟩ : ∃ outcome middle, syscall
          ⟨linux.kernel, leftover⟩ (.utimes path wanted.atime wanted.mtime) server =
            (outcome, middle) := ⟨_, _, rfl⟩
      obtain ⟨isOk, fs⟩ := @syscall_call _ _ wanted _ _ _ .times _ _ _ reached called
      have done : wanted.succeeds linux first .times = outcome.isOk := by
        rw [Wanted.succeeds, asked, Bool.true_and]
        exact isOk.symm
      rw [← isOk] at fs
      rw [if_neg notUnasked] at set
      simp only [Wanted.args, ok_bind, called] at set
      cases outcome with
      | ok =>
          obtain ⟨noted, applied⟩ := times_of_succeeds done file
          cases set
          rw [noted, applied, fs]
          exact ⟨rfl, rfl⟩
      | error errno =>
          obtain ⟨again, last, calledAgain⟩ : ∃ again last, syscall
              ⟨linux.kernel, leftover⟩ (.utime path wanted.atime.seconds
                wanted.mtime.seconds) middle = (again, last) := ⟨_, _, rfl⟩
          obtain ⟨againOk, lastFs⟩ := syscall_utime fs calledAgain
          have falls : wanted.fallsBack linux first = again.isOk := by
            rw [Wanted.fallsBack, asked, done, againOk]
            rfl
          rw [← againOk] at lastFs
          simp only [calledAgain] at set
          cases again with
          | ok =>
              obtain ⟨noted, applied⟩ := times_of_fallsBack falls file
              cases set
              rw [noted, applied, lastFs]
              exact ⟨rfl, rfl⟩
          | error errno =>
              obtain ⟨noted, applied⟩ := times_of_neither done falls file
              cases set
              rw [noted, applied, UInt64.or_zero, lastFs]
              exact ⟨rfl, rfl⟩

/-- A SETATTR that is replied to has found the file, and it has settled it. -/
theorem handleSetattr_settles {handle : Fhandle} {after : Server Disk}
    {whichSet : UInt64} {size : Nat} {rest : List (Reply × Nat)}
    (stored : storedPath server.db handle = some server.fs.path)
    (handled : handleSetattr ⟨linux.kernel, leftover⟩ (wanted.args handle) server =
      .ok after) (sent : after.sent = (.setattr whichSet, size) :: rest) :
    whichSet = wanted.reported linux (server.fs.calls + 1) ∧
      after.fs.file = wanted.settled linux (server.fs.calls + 1) server.fs.file := by
  rw [Wanted.args, handleSetattr, ok_bind] at handled
  rcases file_cases handled with missing | ⟨filePath, st, found, isFound, handled⟩
  · exact absurd missing.refused (not_refused_of_reply sent rfl)
  · obtain ⟨_, same, storedHere⟩ := isFound.stored
    cases same
    cases stored.symm.trans storedHere
    have reached : found.fs = ⟨server.fs.path, server.fs.file,
        server.fs.calls + 1 + wanted.earlier .mode⟩ := by
      have looked := congrArg Prod.snd (kernel_of_syscall isFound.stats)
      simp only [Linux.kernel, if_true] at looked
      exact looked.symm
    simp only [bind_eq_ok, Prod.exists] at handled
    obtain ⟨_, _, mode, _, _, uid, _, _, gid, _, _, size, _, _, times, handled⟩ :=
      handled
    cases pure_eq_ok.mp handled
    cases sent
    obtain ⟨rfl, reached⟩ := setAttribute_stage .mode reached mode
    rw [Nat.add_assoc, ← (earlier_step wanted).1] at reached
    obtain ⟨rfl, reached⟩ := setAttribute_stage .uid reached uid
    rw [Nat.add_assoc, ← (earlier_step wanted).2.1] at reached
    obtain ⟨rfl, reached⟩ := setAttribute_stage .gid reached gid
    rw [Nat.add_assoc, ← (earlier_step wanted).2.2.1] at reached
    obtain ⟨rfl, reached⟩ := setAttribute_stage .size reached size
    rw [Nat.add_assoc, ← (earlier_step wanted).2.2.2] at reached
    obtain ⟨rfl, settled⟩ := setTimes_stage reached times
    exact ⟨rfl, settled⟩

end Handler

/-! ## What is true of a reply -/

namespace Wanted

/-- The file has what is asked for. -/
def Holds (wanted : Wanted) (file : Attributes) : Attribute → Prop
  | .mode => file.mode = wanted.mode.toUInt32 &&& sIallugo
  | .uid => file.uid.toUInt64 = wanted.uid
  | .gid => file.gid.toUInt64 = wanted.gid
  | .size => file.size = wanted.size
  | .times => file.atime = wanted.atime ∧ file.mtime = wanted.mtime

/-- What is not asked for stays, but for the bits that a change of the owner, the
group or the size clears and the modification time of a `truncate`. -/
structure Untouched (wanted : Wanted) (before after : Attributes) : Prop where
  mode : wanted.asks .mode = false → LosesSetIds before.mode after.mode
  wholeMode : wanted.asks .mode = false → wanted.asks .uid = false →
    wanted.asks .gid = false → wanted.asks .size = false → after.mode = before.mode
  uid : wanted.asks .uid = false → after.uid = before.uid
  gid : wanted.asks .gid = false → after.gid = before.gid
  size : wanted.asks .size = false → after.size = before.size
  atime : wanted.asks .times = false → after.atime = before.atime
  mtime : wanted.asks .times = false → wanted.asks .size = false →
    after.mtime = before.mtime

/-- The reply reports what is true of the file. -/
structure Truthful (wanted : Wanted) (before after : Attributes) (whichSet : UInt64) :
    Prop where
  subset : whichSet &&& wanted.which = whichSet
  holds : ∀ attr : Attribute, whichSet &&& attr.bit ≠ 0 → wanted.Holds after attr
  untouched : wanted.Untouched before after

/-- A number that `chown` takes for the owner it names. -/
def Names (given : UInt64) (old : UInt32) : Prop :=
  given < 0xFFFFFFFF ∨ given = 0xFFFFFFFF ∧ old = unchanged

/-- No bit of the mode that is asked for gets lost, the owner and the group are
such that `chown` can set them, `utimes` gets the times that are meant and `utime`
has no microseconds to drop. -/
structure Lasting (linux : Linux) (first : Nat) (wanted : Wanted)
    (atime mtime : SnfsTimeval) (before : Attributes) : Prop where
  mode : wanted.succeeds linux first .mode = true →
    clearing sIsgid (wanted.fate linux first .mode).kept
        (wanted.mode.toUInt32 &&& sIallugo) = wanted.mode.toUInt32 &&& sIallugo ∧
      ∀ attr ∈ [Attribute.uid, .gid, .size], wanted.succeeds linux first attr = true →
        clearing setIds (wanted.fate linux first attr).kept
          (wanted.mode.toUInt32 &&& sIallugo) = wanted.mode.toUInt32 &&& sIallugo
  uid : wanted.succeeds linux first .uid = true → Names wanted.uid before.uid
  gid : wanted.succeeds linux first .gid = true → Names wanted.gid before.gid
  times : wanted.succeeds linux first .times = true →
    wanted.atime = atime ∧ wanted.mtime = mtime
  wholeTimes : wanted.fallsBack linux first = true →
    atime.useconds = 0 ∧ mtime.useconds = 0

end Wanted

/-! ## The file when all is done -/

section Settled

variable (linux : Linux) (first : Nat) (wanted : Wanted) (file : Attributes)

theorem settled_uid : (wanted.settled linux first file).uid =
    if wanted.succeeds linux first .uid then owner wanted.uid.toUInt32 file.uid
    else file.uid := by
  simp only [Wanted.settled, Wanted.timesApplied, Wanted.applied, Wanted.change,
    apply_ite Attributes.uid, timed, truncated, chowned, chmodded, owner, if_true,
    ite_self]

theorem settled_gid : (wanted.settled linux first file).gid =
    if wanted.succeeds linux first .gid then owner wanted.gid.toUInt32 file.gid
    else file.gid := by
  simp only [Wanted.settled, Wanted.timesApplied, Wanted.applied, Wanted.change,
    apply_ite Attributes.gid, timed, truncated, chowned, chmodded, owner, if_true,
    ite_self]

theorem settled_size : (wanted.settled linux first file).size =
    if wanted.succeeds linux first .size then wanted.size else file.size := by
  simp only [Wanted.settled, Wanted.timesApplied, Wanted.applied, Wanted.change,
    apply_ite Attributes.size, timed, truncated, chowned, chmodded, ite_self]

theorem settled_atime : (wanted.settled linux first file).atime =
    if wanted.fallsBack linux first then ⟨wanted.atime.seconds, 0⟩
    else if wanted.succeeds linux first .times then wanted.atime else file.atime := by
  simp only [Wanted.settled, Wanted.timesApplied, Wanted.applied, Wanted.change,
    apply_ite Attributes.atime, timed, truncated, chowned, chmodded, ite_self]

theorem settled_mtime : (wanted.settled linux first file).mtime =
    if wanted.fallsBack linux first then ⟨wanted.mtime.seconds, 0⟩
    else if wanted.succeeds linux first .times then wanted.mtime
    else if wanted.succeeds linux first .size then (wanted.fate linux first .size).now
    else file.mtime := by
  simp only [Wanted.settled, Wanted.timesApplied, Wanted.applied, Wanted.change,
    apply_ite Attributes.mtime, timed, truncated, chowned, chmodded, ite_self]

/-- What a change of another attribute leaves of a mode. -/
def Wanted.left (attr : Attribute) (mode : UInt32) : UInt32 :=
  if wanted.succeeds linux first attr then
    clearing setIds (wanted.fate linux first attr).kept mode
  else mode

theorem settled_mode : (wanted.settled linux first file).mode =
    wanted.left linux first .size (wanted.left linux first .gid
      (wanted.left linux first .uid
        (if wanted.succeeds linux first .mode then
          clearing sIsgid (wanted.fate linux first .mode).kept
            (wanted.mode.toUInt32 &&& sIallugo)
        else file.mode))) := by
  simp only [Wanted.settled, Wanted.timesApplied, Wanted.applied, Wanted.change,
    apply_ite Attributes.mode, timed, truncated, chowned, chmodded, ite_self,
    Wanted.left]

theorem losesSetIds_left (attr : Attribute) (mode : UInt32) :
    LosesSetIds mode (wanted.left linux first attr mode) := by
  rw [Wanted.left]
  split
  · exact losesSetIds_clearing _ mode
  · exact .refl mode

theorem left_eq_self_iff (attr : Attribute) (mode : UInt32) :
    wanted.left linux first attr mode = mode ↔
      (wanted.succeeds linux first attr = true →
        clearing setIds (wanted.fate linux first attr).kept mode = mode) := by
  rw [Wanted.left]
  split
  · rename_i done
    exact ⟨fun kept _ => kept, fun kept => kept done⟩
  · rename_i notDone
    exact ⟨fun _ done => absurd done notDone, fun _ => rfl⟩

/-- Bits that are lost do not come back, so the mode is the one asked for exactly
when none of the calls takes a bit of it. -/
theorem settled_mode_eq_iff (done : wanted.succeeds linux first .mode = true) :
    (wanted.settled linux first file).mode = wanted.mode.toUInt32 &&& sIallugo ↔
      clearing sIsgid (wanted.fate linux first .mode).kept
          (wanted.mode.toUInt32 &&& sIallugo) = wanted.mode.toUInt32 &&& sIallugo ∧
        ∀ attr ∈ [Attribute.uid, .gid, .size],
          wanted.left linux first attr (wanted.mode.toUInt32 &&& sIallugo) =
            wanted.mode.toUInt32 &&& sIallugo := by
  rw [settled_mode, if_pos done]
  generalize wanted.mode.toUInt32 &&& sIallugo = requested
  simp only [List.forall_mem_cons, List.not_mem_nil, false_implies, implies_true,
    and_true]
  constructor
  · intro final
    have uid := losesSetIds_left linux first wanted .uid
      (clearing sIsgid (wanted.fate linux first .mode).kept requested)
    have gid := losesSetIds_left linux first wanted .gid (wanted.left linux first .uid
      (clearing sIsgid (wanted.fate linux first .mode).kept requested))
    have size := losesSetIds_left linux first wanted .size
      (wanted.left linux first .gid (wanted.left linux first .uid
        (clearing sIsgid (wanted.fate linux first .mode).kept requested)))
    rw [final] at size
    have modeKept := eq_of_and
      (clearing_and sIsgid (wanted.fate linux first .mode).kept requested)
      ((uid.trans gid).trans size).gainsNone
    rw [modeKept] at uid gid size
    have uidKept := eq_of_and uid.gainsNone (gid.trans size).gainsNone
    rw [uidKept] at gid size
    have gidKept := eq_of_and gid.gainsNone size.gainsNone
    rw [modeKept, uidKept, gidKept] at final
    exact ⟨modeKept, uidKept, gidKept, final⟩
  · rintro ⟨modeKept, uidKept, gidKept, sizeKept⟩
    rw [modeKept, uidKept, gidKept, sizeKept]

end Settled

/-! ## The bits of the reply -/

/-- The attribute is reported to be set. -/
def Wanted.sets (linux : Linux) (first : Nat) (wanted : Wanted) : Attribute → Bool
  | .times => wanted.fallsBack linux first || wanted.succeeds linux first .times
  | attr => wanted.succeeds linux first attr

section Reported

variable {linux : Linux} {first : Nat} {wanted : Wanted}

theorem reported_bits : ∀ (mode uid gid size times : Bool) (attr : Attribute),
    (0 ||| (if mode then Attribute.bit .mode else 0) |||
      (if uid then Attribute.bit .uid else 0) |||
      (if gid then Attribute.bit .gid else 0) |||
      (if size then Attribute.bit .size else 0) |||
      (if times then Attribute.bit .times else 0)) &&& attr.bit ≠ 0 ↔
    (match attr with
      | .mode => mode
      | .uid => uid
      | .gid => gid
      | .size => size
      | .times => times) = true := by
  intro mode uid gid size times attr
  cases attr <;> revert mode uid gid size times <;> decide

theorem timesNoted_eq : wanted.timesNoted linux first =
    if wanted.sets linux first .times then Attribute.bit .times else 0 := by
  rw [Wanted.timesNoted, Wanted.noted, Wanted.sets]
  cases wanted.fallsBack linux first <;> rfl

theorem reported_bit_iff (attr : Attribute) :
    wanted.reported linux first &&& attr.bit ≠ 0 ↔
      wanted.sets linux first attr = true := by
  rw [Wanted.reported, timesNoted_eq]
  refine (reported_bits _ _ _ _ _ attr).trans ?_
  cases attr <;> rfl

theorem sets_asked {attr : Attribute} (set : wanted.sets linux first attr = true) :
    wanted.asks attr = true := by
  have ofSucceeds {other : Attribute}
      (done : wanted.succeeds linux first other = true) : wanted.asks other = true := by
    rw [Wanted.succeeds, Bool.and_eq_true] at done
    exact done.1
  cases attr with
  | times =>
      rw [Wanted.sets, Bool.or_eq_true] at set
      rcases set with falls | done
      · rw [Wanted.fallsBack, Bool.and_eq_true, Bool.and_eq_true] at falls
        exact falls.1.1
      · exact ofSucceeds done
  | _ => exact ofSucceeds set

/-- An attribute has one bit. -/
theorem bit_within {attr : Attribute} (asked : wanted.asks attr = true) :
    attr.bit &&& wanted.which = attr.bit := by
  obtain ⟨place, single⟩ : ∃ place, attr.bit.toBitVec = BitVec.twoPow 64 place := by
    cases attr with
    | mode => exact ⟨0, rfl⟩
    | uid => exact ⟨1, rfl⟩
    | gid => exact ⟨2, rfl⟩
    | size => exact ⟨3, rfl⟩
    | times => exact ⟨4, rfl⟩
  rw [Wanted.asks, decide_eq_true_eq, ne_eq, ← UInt64.toBitVec_inj,
    UInt64.toBitVec_and, single, BitVec.and_twoPow] at asked
  rw [← UInt64.toBitVec_inj, UInt64.toBitVec_and, single, BitVec.and_comm,
    BitVec.and_twoPow]
  split at asked
  · rename_i there
    exact if_pos there
  · exact absurd rfl asked

theorem or_within {first second which : UInt64} (firstWithin : first &&& which = first)
    (secondWithin : second &&& which = second) :
    (first ||| second) &&& which = first ||| second := by
  have distributes : (first ||| second) &&& which =
      (first &&& which) ||| (second &&& which) := by
    apply UInt64.toBitVec_inj.mp
    simp only [UInt64.toBitVec_and, UInt64.toBitVec_or, BitVec.and_comm _ which.toBitVec,
      BitVec.and_or_distrib_left]
  rw [distributes, firstWithin, secondWithin]

theorem noted_within (attr : Attribute) :
    wanted.noted linux first attr &&& wanted.which = wanted.noted linux first attr := by
  rw [Wanted.noted]
  split
  · rename_i done
    rw [Wanted.succeeds, Bool.and_eq_true] at done
    exact bit_within done.1
  · exact UInt64.zero_and

theorem reported_within :
    wanted.reported linux first &&& wanted.which = wanted.reported linux first := by
  have times : wanted.timesNoted linux first &&& wanted.which =
      wanted.timesNoted linux first := by
    rw [timesNoted_eq]
    split
    · rename_i set
      exact bit_within (sets_asked set)
    · exact UInt64.zero_and
  exact or_within (or_within (or_within (or_within (or_within UInt64.zero_and
    (noted_within .mode)) (noted_within .uid)) (noted_within .gid))
    (noted_within .size)) times

/-! ## What is not asked for -/

theorem left_of_unasked {attr : Attribute} (unasked : wanted.asks attr = false)
    (mode : UInt32) : wanted.left linux first attr mode = mode := by
  rw [Wanted.left, succeeds_of_unasked unasked]
  rfl

theorem settled_untouched (file : Attributes) :
    wanted.Untouched file (wanted.settled linux first file) where
  mode unasked := by
    rw [settled_mode, succeeds_of_unasked unasked]
    exact ((losesSetIds_left ..).trans (losesSetIds_left ..)).trans
      (losesSetIds_left ..)
  wholeMode unasked uid gid size := by
    rw [settled_mode, succeeds_of_unasked unasked, left_of_unasked uid,
      left_of_unasked gid, left_of_unasked size]
    rfl
  uid unasked := by
    rw [settled_uid, succeeds_of_unasked unasked]
    rfl
  gid unasked := by
    rw [settled_gid, succeeds_of_unasked unasked]
    rfl
  size unasked := by
    rw [settled_size, succeeds_of_unasked unasked]
    rfl
  atime unasked := by
    rw [settled_atime, fallsBack_of_unasked unasked, succeeds_of_unasked unasked]
    rfl
  mtime unasked size := by
    rw [settled_mtime, fallsBack_of_unasked unasked, succeeds_of_unasked unasked,
      succeeds_of_unasked size]
    rfl

/-! ## What is reported -/

theorem owner_eq_iff (given : UInt64) (old : UInt32) :
    (owner given.toUInt32 old).toUInt64 = given ↔ Wanted.Names given old := by
  have low := UInt64.toNat_toUInt32 given
  have size := given.toNat_lt
  have oldSize := old.toNat_lt
  have none : unchanged.toNat = 4294967295 := rfl
  have limit : (0xFFFFFFFF : UInt64).toNat = 4294967295 := rfl
  rw [owner, Wanted.Names]
  split
  · rename_i isNone
    rw [← UInt32.toNat_inj, low, none] at isNone
    rw [UInt64.lt_iff_toNat_lt, ← UInt64.toNat_inj, ← UInt64.toNat_inj,
      ← UInt32.toNat_inj, limit, none, UInt32.toNat_toUInt64]
    omega
  · rename_i notNone
    rw [← UInt32.toNat_inj, low, none] at notNone
    rw [UInt64.lt_iff_toNat_lt, ← UInt64.toNat_inj, ← UInt64.toNat_inj,
      ← UInt32.toNat_inj, limit, none, UInt32.toNat_toUInt64, low]
    omega

theorem wholeSeconds_iff {given meant : SnfsTimeval}
    (seconds : given.seconds = meant.seconds) :
    ⟨given.seconds, 0⟩ = meant ↔ meant.useconds = 0 := by
  obtain ⟨meantSeconds, useconds⟩ := meant
  rw [SnfsTimeval.mk.injEq]
  exact ⟨fun same => same.2.symm, fun none => ⟨seconds, none.symm⟩⟩

section Meant

variable {atime mtime : SnfsTimeval}

theorem times_hold_iff (file : Attributes)
    (atimeSeconds : wanted.atime.seconds = atime.seconds)
    (mtimeSeconds : wanted.mtime.seconds = mtime.seconds)
    (set : wanted.sets linux first .times = true) :
    { wanted with atime, mtime }.Holds (wanted.settled linux first file) .times ↔
      (wanted.succeeds linux first .times = true →
        wanted.atime = atime ∧ wanted.mtime = mtime) ∧
      (wanted.fallsBack linux first = true →
        atime.useconds = 0 ∧ mtime.useconds = 0) := by
  rw [Wanted.Holds, settled_atime, settled_mtime]
  rw [Wanted.sets] at set
  cases falls : wanted.fallsBack linux first with
  | true =>
      have notDone : wanted.succeeds linux first .times ≠ true := by
        intro done
        rw [not_fallsBack_of_succeeds done] at falls
        cases falls
      rw [if_pos rfl, if_pos rfl, wholeSeconds_iff atimeSeconds,
        wholeSeconds_iff mtimeSeconds]
      exact ⟨fun whole => ⟨fun done => absurd done notDone, fun _ => whole⟩,
        fun kept => kept.2 rfl⟩
  | false =>
      rw [falls, Bool.false_or] at set
      rw [set]
      exact ⟨fun same => ⟨fun _ => same, fun falls => absurd falls Bool.false_ne_true⟩,
        fun kept => kept.1 rfl⟩

theorem mode_holds_iff (file : Attributes)
    (done : wanted.succeeds linux first .mode = true) :
    (wanted.settled linux first file).mode = wanted.mode.toUInt32 &&& sIallugo ↔
      clearing sIsgid (wanted.fate linux first .mode).kept
          (wanted.mode.toUInt32 &&& sIallugo) = wanted.mode.toUInt32 &&& sIallugo ∧
        ∀ attr ∈ [Attribute.uid, .gid, .size], wanted.succeeds linux first attr = true →
          clearing setIds (wanted.fate linux first attr).kept
            (wanted.mode.toUInt32 &&& sIallugo) = wanted.mode.toUInt32 &&& sIallugo := by
  rw [settled_mode_eq_iff _ _ _ _ done]
  simp only [left_eq_self_iff]

theorem uid_holds_iff (file : Attributes)
    (done : wanted.succeeds linux first .uid = true) :
    (wanted.settled linux first file).uid.toUInt64 = wanted.uid ↔
      Wanted.Names wanted.uid file.uid := by
  rw [settled_uid, if_pos done, owner_eq_iff]

theorem gid_holds_iff (file : Attributes)
    (done : wanted.succeeds linux first .gid = true) :
    (wanted.settled linux first file).gid.toUInt64 = wanted.gid ↔
      Wanted.Names wanted.gid file.gid := by
  rw [settled_gid, if_pos done, owner_eq_iff]

/-- The attributes reported to be set have the values that are meant exactly when
what the calls have set lasts. -/
theorem holds_iff (file : Attributes)
    (atimeSeconds : wanted.atime.seconds = atime.seconds)
    (mtimeSeconds : wanted.mtime.seconds = mtime.seconds) :
    (∀ attr, wanted.sets linux first attr = true →
      { wanted with atime, mtime }.Holds (wanted.settled linux first file) attr) ↔
      wanted.Lasting linux first atime mtime file := by
  constructor
  · intro holds
    refine ⟨?_, ?_, ?_, ?_, ?_⟩
    · intro done
      exact (mode_holds_iff file done).mp (holds .mode done)
    · intro done
      exact (uid_holds_iff file done).mp (holds .uid done)
    · intro done
      exact (gid_holds_iff file done).mp (holds .gid done)
    · intro done
      have set : wanted.sets linux first .times = true := by
        rw [Wanted.sets, done, Bool.or_true]
      exact ((times_hold_iff file atimeSeconds mtimeSeconds set).mp
        (holds .times set)).1 done
    · intro falls
      have set : wanted.sets linux first .times = true := by
        rw [Wanted.sets, falls, Bool.true_or]
      exact ((times_hold_iff file atimeSeconds mtimeSeconds set).mp
        (holds .times set)).2 falls
  · intro lasting attr set
    cases attr with
    | mode => exact (mode_holds_iff file set).mpr (lasting.mode set)
    | uid => exact (uid_holds_iff file set).mpr (lasting.uid set)
    | gid => exact (gid_holds_iff file set).mpr (lasting.gid set)
    | size =>
        rw [Wanted.Holds, settled_size]
        exact if_pos set
    | times =>
        exact (times_hold_iff file atimeSeconds mtimeSeconds set).mpr
          ⟨lasting.times, lasting.wholeTimes⟩

end Meant

theorem truthful_iff (file : Attributes) :
    wanted.Truthful file (wanted.settled linux first file)
        (wanted.reported linux first) ↔
      wanted.Lasting linux first wanted.atime wanted.mtime file := by
  rw [← holds_iff file rfl rfl]
  constructor
  · intro truthful attr set
    exact truthful.holds attr ((reported_bit_iff attr).mpr set)
  · intro holds
    exact ⟨reported_within, fun attr set => holds attr ((reported_bit_iff attr).mp set),
      settled_untouched file⟩

end Reported

/-! ## What is set when everything is -/

section All

variable {linux : Linux} {first : Nat} {wanted : Wanted}

/-- Once everything asked for is reported, what is asked for is what has been set. -/
theorem asks_iff_sets (all : wanted.which = wanted.reported linux first)
    (attr : Attribute) :
    wanted.asks attr = true ↔ wanted.sets linux first attr = true := by
  rw [← reported_bit_iff, ← all, Wanted.asks, decide_eq_true_eq]

/-- An id that is not asked for is one that leaves the owner. -/
theorem owner_of_set {set : Bool} {given old : UInt32}
    (names : given ≠ unchanged → set = true) :
    (if set then owner given old else old) = owner given old := by
  split
  · rfl
  · rename_i notSet
    have none : given = unchanged := by
      by_contra given
      exact notSet (names given)
    rw [owner, if_pos none]

theorem settled_uid_of_asked (all : wanted.which = wanted.reported linux first)
    (asked : wanted.asks .uid = true ↔ wanted.uid.toUInt32 ≠ unchanged)
    (file : Attributes) :
    (wanted.settled linux first file).uid = owner wanted.uid.toUInt32 file.uid := by
  rw [settled_uid]
  apply owner_of_set
  intro given
  exact (asks_iff_sets all .uid).mp (asked.mpr given)

theorem settled_gid_of_asked (all : wanted.which = wanted.reported linux first)
    (asked : wanted.asks .gid = true ↔ wanted.gid.toUInt32 ≠ unchanged)
    (file : Attributes) :
    (wanted.settled linux first file).gid = owner wanted.gid.toUInt32 file.gid := by
  rw [settled_gid]
  apply owner_of_set
  intro given
  exact (asks_iff_sets all .gid).mp (asked.mpr given)

end All

/-! ## What the client returns -/

/-- The request that `snfs_setattr` sends. -/
def requested (which : UInt64) (size : Int64) (mode uid gid : UInt32)
    (tv : Option (Timespec × Timespec)) : Wanted :=
  ⟨which, mode.toUInt64, uid.toUInt64, gid.toUInt64, size,
    (tv.map fun times => times.1.toTimeval).getD ⟨0, 0⟩,
    (tv.map fun times => times.2.toTimeval).getD ⟨0, 0⟩⟩

/-- The access time that `tv` means. -/
def meantAtime (tv : Option (Timespec × Timespec)) : SnfsTimeval :=
  (tv.map fun times => RemoteTimes.truncated times.1).getD ⟨0, 0⟩

/-- The modification time that `tv` means. -/
def meantMtime (tv : Option (Timespec × Timespec)) : SnfsTimeval :=
  (tv.map fun times => RemoteTimes.truncated times.2).getD ⟨0, 0⟩

section Returned

variable {linux : Linux} {link : Link Disk} {root handle : Fhandle} {path : CString}
  {which : UInt64} {size : Int64} {mode uid gid : UInt32}
  {tv : Option (Timespec × Timespec)} {server found after : Server Disk}

/-- A `snfs_setattr` that returns 0 has had everything reported. -/
theorem snfsSetattr_settles (runs : link.kernel = linux.kernel)
    (finds : Finds link root path server found handle found.fs.path)
    (returned : snfsSetattr link root path which size mode uid gid tv server =
      .ok (0, after)) :
    which = (requested which size mode uid gid tv).reported linux
        (found.fs.calls + 1) ∧
      after.fs.file = (requested which size mode uid gid tv).settled linux
        (found.fs.calls + 1) found.fs.file := by
  rw [snfsSetattr, finds.called, ok_bind] at returned
  simp only [Bool.not_true, Bool.false_eq_true, if_false, bind_eq_ok] at returned
  obtain ⟨⟨reply, next⟩, replied, returned⟩ := returned
  split at returned
  · rename_i repWhich _ same
    cases same
    obtain ⟨result, sameServer⟩ := Prod.mk.inj (pure_eq_ok.mp returned)
    cases sameServer
    have isWhich : repWhich = which := by
      by_contra different
      rw [if_neg different] at result
      cases result
    subst isWhich
    obtain ⟨served, ⟨_, _, sent⟩, _⟩ := sendRequest_eq_some replied
    have received := Request.receivedIn_sent noGap []
      (.setattr handle repWhich mode.toUInt64 uid.toUInt64 gid.toUInt64 size
        ((tv.map fun times => times.1.toTimeval).getD ⟨0, 0⟩)
        ((tv.map fun times => times.2.toTimeval).getD ⟨0, 0⟩))
    rw [Request.ReceivedIn] at received
    rw [serve_of_messageType (Request.messageType_sent noGap [] _), Request.type,
      dispatch, received, Link.env, runs] at served
    exact @handleSetattr_settles linux _ (requested repWhich size mode uid gid tv) _ _
      _ _ _ _ finds.stored served sent
  · cases returned

/-- `snfs_chmod` asks for the mode. -/
theorem asks_chmod_iff (mode : UInt32) (attr : Attribute) :
    (requested snfsSetmode 0 mode 0 0 none).asks attr = true ↔ attr = .mode := by
  rw [Wanted.asks, decide_eq_true_eq]
  simp only [requested]
  cases attr <;> decide

/-- A `snfs_chmod` that returns 0 has made one call after the ones that find the
file, and the file has the mode but for the bit that this call may clear. -/
theorem snfsChmod_settles (runs : link.kernel = linux.kernel)
    (finds : Finds link root path server found handle found.fs.path)
    (returned : snfsChmod link root path mode server = .ok (0, after)) :
    after.fs.file = chmodded mode (linux.fates (found.fs.calls + 1)) found.fs.file := by
  obtain ⟨all, settled⟩ := snfsSetattr_settles runs finds returned
  have others {attr : Attribute} (notMode : attr ≠ .mode) :
      (requested snfsSetmode 0 mode 0 0 none).asks attr = false := by
    simp [← Bool.not_eq_true, asks_chmod_iff, notMode]
  have noUid := @others .uid (by decide)
  have noGid := @others .gid (by decide)
  have noSize := @others .size (by decide)
  have noTimes := @others .times (by decide)
  have done : (requested snfsSetmode 0 mode 0 0 none).succeeds linux
      (found.fs.calls + 1) .mode = true :=
    (asks_iff_sets all .mode).mp ((asks_chmod_iff mode .mode).mpr rfl)
  rw [settled]
  simp only [Wanted.settled, Wanted.applied, done, succeeds_of_unasked noUid,
    succeeds_of_unasked noGid, succeeds_of_unasked noSize,
    (times_of_neither (succeeds_of_unasked noTimes) (fallsBack_of_unasked noTimes) _).2,
    if_true, Bool.false_eq_true, if_false, Wanted.change, Wanted.fate, Wanted.earlier,
    Nat.add_zero]
  rw [requested, UInt32.toUInt32_toUInt64]

/-- `snfs_chown` asks for the ids that are not -1. -/
theorem asks_chown_iff (uid gid : UInt32) (attr : Attribute) :
    (requested (chownWhich uid gid) 0 0 uid gid none).asks attr = true ↔
      attr = .uid ∧ uid ≠ unchanged ∨ attr = .gid ∧ gid ≠ unchanged := by
  rw [Wanted.asks, decide_eq_true_eq]
  simp only [requested, chownWhich, ← show unchanged = 0xFFFFFFFF from rfl]
  by_cases noUid : uid = unchanged <;> by_cases noGid : gid = unchanged <;>
    cases attr <;> simp [noUid, noGid] <;> decide

/-- A `snfs_chown` that returns 0 has given the file the owner and the group, where
an id of -1 leaves what was there, and nothing else is changed but for the bits of
the mode that such a change may clear. -/
theorem snfsChown_settles (runs : link.kernel = linux.kernel)
    (finds : Finds link root path server found handle found.fs.path)
    (returned : snfsChown link root path uid gid server = .ok (0, after)) :
    LosesSetIds found.fs.file.mode after.fs.file.mode ∧
      after.fs.file = { found.fs.file with
        mode := after.fs.file.mode
        uid := owner uid found.fs.file.uid
        gid := owner gid found.fs.file.gid } := by
  obtain ⟨all, settled⟩ := snfsSetattr_settles runs finds returned
  have others {attr : Attribute} (notUid : attr ≠ .uid) (notGid : attr ≠ .gid) :
      (requested (chownWhich uid gid) 0 0 uid gid none).asks attr = false := by
    simp [← Bool.not_eq_true, asks_chown_iff, notUid, notGid]
  have untouched := @settled_untouched linux (found.fs.calls + 1)
    (requested (chownWhich uid gid) 0 0 uid gid none) found.fs.file
  have owned := settled_uid_of_asked all
    ((asks_chown_iff uid gid .uid).trans (by simp [requested])) found.fs.file
  have grouped := settled_gid_of_asked all
    ((asks_chown_iff uid gid .gid).trans (by simp [requested])) found.fs.file
  rw [← settled] at untouched owned grouped
  simp only [requested, UInt32.toUInt32_toUInt64] at owned grouped
  refine ⟨untouched.mode (others (by decide) (by decide)), ?_⟩
  calc after.fs.file = ⟨after.fs.file.mode, after.fs.file.uid, after.fs.file.gid,
        after.fs.file.size, after.fs.file.atime, after.fs.file.mtime⟩ := rfl
    _ = _ := by
      rw [owned, grouped, untouched.size (others (by decide) (by decide)),
        untouched.atime (others (by decide) (by decide)),
        untouched.mtime (others (by decide) (by decide))
          (others (by decide) (by decide))]

theorem seconds_meant : (requested which size mode uid gid tv).atime.seconds =
      (meantAtime tv).seconds ∧
    (requested which size mode uid gid tv).mtime.seconds =
      (meantMtime tv).seconds := by
  cases tv with
  | none => exact ⟨rfl, rfl⟩
  | some times => exact ⟨rfl, rfl⟩

end Returned

/-- A reply to SETATTR is truthful, and a `snfs_setattr` that returns 0 has set
everything, if and only if what the calls have set lasts. -/
theorem setattr_truthful_iff (linux : Linux) :
    (∀ (leftover : Leftover) (wanted : Wanted) (handle : Fhandle)
        (server after : Server Disk) (whichSet : UInt64) (size : Nat)
        (rest : List (Reply × Nat)),
      storedPath server.db handle = some server.fs.path →
      handleSetattr ⟨linux.kernel, leftover⟩ (wanted.args handle) server =
        .ok after →
      after.sent = (.setattr whichSet, size) :: rest →
      (wanted.Truthful server.fs.file after.fs.file whichSet ↔
        wanted.Lasting linux (server.fs.calls + 1) wanted.atime wanted.mtime
          server.fs.file)) ∧
    ∀ (link : Link Disk) (root : Fhandle) (path : CString) (which : UInt64)
        (size : Int64) (mode uid gid : UInt32) (tv : Option (Timespec × Timespec))
        (server found after : Server Disk) (handle : Fhandle),
      link.kernel = linux.kernel →
      Finds link root path server found handle found.fs.path →
      snfsSetattr link root path which size mode uid gid tv server =
        .ok (0, after) →
      let wanted := requested which size mode uid gid tv
      ((∀ attr, wanted.asks attr = true →
          { wanted with atime := meantAtime tv, mtime := meantMtime tv }.Holds
            after.fs.file attr) ↔
        wanted.Lasting linux (found.fs.calls + 1) (meantAtime tv) (meantMtime tv)
          found.fs.file) := by
  constructor
  · intro leftover wanted handle server after whichSet size rest stored handled sent
    obtain ⟨rfl, settled⟩ := handleSetattr_settles stored handled sent
    rw [settled]
    exact truthful_iff server.fs.file
  · intro link root path which size mode uid gid tv server found after handle runs
      finds returned wanted
    obtain ⟨all, settled⟩ := snfsSetattr_settles runs finds returned
    rw [settled, ← holds_iff _ seconds_meant.1 seconds_meant.2]
    have asks_iff (attr : Attribute) : wanted.asks attr = true ↔
        wanted.sets linux (found.fs.calls + 1) attr = true := asks_iff_sets all attr
    simp only [asks_iff]
    rfl

/-! ## One file -/

namespace OneFile

theorem path_noNul : (0 : UInt8) ∉ ([47, 97] : Bytes) := by decide

/-- `/a`. -/
def path : CString := ⟨[47, 97], path_noNul⟩

/-- Calls on `/a` succeed, and set-user-ID and set-group-ID bits stay where `kept`
has them.  The directory `/` is all there is beside it. -/
def linux (kept : UInt32) : Linux where
  fates _ := ⟨none, kept, ⟨9, 0⟩⟩
  elsewhere
    | .stat _ => .ok RemoteTimes.Clock.stat
    | .opendir _ => .error .enoent
    | .readdir _ => .error .enoent
    | .openFile _ _ => .error .enoent
    | call => @Except.error Errno (Result call) .enoent

def leftover : Leftover := ⟨0, Fattr.zero, fun _ _ => 0, 0x800000⟩

def link (kept : UInt32) : Link Disk :=
  ⟨(linux kept).kernel, fun _ => leftover, fun _ _ => 0⟩

/-- An executable file of the superuser. -/
def file : Attributes := ⟨0x1ED, 0, 0, 3, ⟨1, 0⟩, ⟨1, 0⟩⟩

/-- `/` has handle 7 and `/a` has handle 8. -/
def server : Server Disk :=
  ⟨⟨path, file, 0⟩, paired (paired emptyDb rootPath 7) path 8, [], [], []⟩

/-- All of a file. -/
def everything : Wanted := requested 31 5 0x9ED 1000 1000 (some (⟨5, 0⟩, ⟨7, 0⟩))

theorem everything_lasts (first : Nat) :
    everything.Lasting (linux setIds) first ⟨5, 0⟩ ⟨7, 0⟩ file where
  mode _ := by
    have set : clearing sIsgid setIds (everything.mode.toUInt32 &&& sIallugo) =
        everything.mode.toUInt32 &&& sIallugo := by decide
    have left : clearing setIds setIds (everything.mode.toUInt32 &&& sIallugo) =
        everything.mode.toUInt32 &&& sIallugo := by decide
    exact ⟨set, fun _ _ _ => left⟩
  uid _ := Or.inl (by decide)
  gid _ := Or.inl (by decide)
  times _ := ⟨rfl, rfl⟩
  wholeTimes _ := ⟨rfl, rfl⟩

end OneFile

open OneFile in
set_option maxRecDepth 8000 in
/-- Where `chown` and `truncate` clear nothing, all five attributes get set. -/
theorem setattr_truthful_iff_everything :
    (∃ after size rest,
      handleSetattr ⟨(linux setIds).kernel, leftover⟩ (everything.args 8) server =
        .ok after ∧
      after.sent = (.setattr 31, size) :: rest ∧
      everything.Truthful file after.fs.file 31) ∧
    ∃ after,
      snfsSetattr (link setIds) 7 OneFile.path 31 5 0x9ED 1000 1000
        (some (⟨5, 0⟩, ⟨7, 0⟩)) server = .ok (0, after) ∧
      ∀ attr, everything.asks attr = true → everything.Holds after.fs.file attr := by
  refine ⟨⟨_, _, _, rfl, rfl, ?_⟩, _, rfl, ?_⟩
  · exact ((setattr_truthful_iff (linux setIds)).1 leftover everything 8 server _ 31 _ _
      rfl rfl rfl).mpr (everything_lasts 1)
  · exact ((setattr_truthful_iff (linux setIds)).2 (link setIds) 7 OneFile.path 31 5
      0x9ED 1000 1000 (some (⟨5, 0⟩, ⟨7, 0⟩)) server _ _ 8 rfl ⟨rfl, rfl⟩ rfl).mpr
      (everything_lasts 2)

open OneFile in
set_option maxRecDepth 8000 in
/-- Mode 4755 and owner 1000 are reported to be set, and `snfs_setattr` returns 0,
but `chown` has left mode 755. -/
theorem chown_clears_reported_mode :
    (∃ after size rest,
      handleSetattr ⟨(linux 0).kernel, leftover⟩
        ((requested 3 0 0x9ED 1000 0 none).args 8) server = .ok after ∧
      after.sent = (.setattr 3, size) :: rest ∧
      ¬ (requested 3 0 0x9ED 1000 0 none).Truthful file after.fs.file 3) ∧
    ∃ after,
      snfsSetattr (link 0) 7 OneFile.path 3 0 0x9ED 1000 0 none server =
        .ok (0, after) ∧
      after.fs.file.mode = 0x1ED := by
  refine ⟨⟨_, _, _, rfl, rfl, fun truthful => ?_⟩, _, rfl, rfl⟩
  have mode : (0x1ED : UInt32) = 0x9ED := truthful.holds .mode (by decide)
  cases mode

end ChlorosSnfs.Snfs.SetattrReply
