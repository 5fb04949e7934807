import ChlorosSnfs.Snfs.FileCalls
import ChlorosSnfs.Snfs.FoundPaths
import ChlorosSnfs.Snfs.RoundTrip

/-!
# Times set through the client

The client multiplies the nanoseconds by 1000 where microseconds are a thousandth
of them.  The product is in range for `utimes` only below 1000 nanoseconds;
otherwise the server stores whole seconds with `utime` and reports success.
-/

set_option autoImplicit false

namespace ChlorosSnfs.Snfs.RemoteTimes

open ChlorosSnfs.Snfs.Fhandledb
open ChlorosSnfs.Snfs.Messages
open ChlorosSnfs.Snfs.Syscalls
open ChlorosSnfs.Snfs.Handlers
open ChlorosSnfs.Snfs.ServeLoop
open ChlorosSnfs.Snfs.HandlerEffects
open ChlorosSnfs.Snfs.Client
open ChlorosSnfs.Snfs.PathWalk
open ChlorosSnfs.Snfs.ClientCalls
open ChlorosSnfs.Snfs.Wire
open ChlorosSnfs.Snfs.RoundTrip
open ChlorosSnfs.Snfs.FileCalls
open ChlorosSnfs.Snfs.FoundPaths

variable {Fs : Type}

/-- What `utimes` accepts. -/
def InRange (time : SnfsTimeval) : Prop :=
  0 ≤ time.useconds.toInt ∧ time.useconds.toInt < 1000000

instance (time : SnfsTimeval) : Decidable (InRange time) :=
  inferInstanceAs (Decidable (_ ∧ _))

/-- `utimes` refuses microseconds out of range and otherwise stores both times,
`utime` stores whole seconds.  `timesOf` gives the access and the modification
time of each file there is. -/
structure StoresTimes (kernel : Kernel Fs)
    (timesOf : Fs → CString → Option (SnfsTimeval × SnfsTimeval)) : Prop where
  there : ∀ path fs st after, kernel (.stat path) fs = (.ok st, after) →
    timesOf after path ≠ none
  refused : ∀ path atime mtime fs, ¬ (InRange atime ∧ InRange mtime) →
    ∃ errno after, kernel (.utimes path atime mtime) fs = (.error errno, after)
  utimes : ∀ path atime mtime fs, InRange atime → InRange mtime →
    timesOf fs path ≠ none → ∃ after,
      kernel (.utimes path atime mtime) fs = (.ok (), after) ∧
        timesOf after path = some (atime, mtime)
  utime : ∀ path actime modtime fs after,
    kernel (.utime path actime modtime) fs = (.ok (), after) →
      timesOf after path = some (⟨actime, 0⟩, ⟨modtime, 0⟩)

/-- The time in whole microseconds. -/
def truncated (time : Timespec) : SnfsTimeval := ⟨time.sec, time.nsec / 1000⟩

/-- `tv_nsec` as POSIX has it. -/
def Normal (time : Timespec) : Prop :=
  0 ≤ time.nsec.toInt ∧ time.nsec.toInt < 1000000000

/-! ## What is stored -/

/-- What the server makes of two times. -/
def storedTimes (atime mtime : SnfsTimeval) : SnfsTimeval × SnfsTimeval :=
  if InRange atime ∧ InRange mtime then (atime, mtime)
  else (⟨atime.seconds, 0⟩, ⟨mtime.seconds, 0⟩)

section Server

variable {env : Env Fs}
  {timesOf : Fs → CString → Option (SnfsTimeval × SnfsTimeval)}
  {path : CString} {server after : Server Fs} {atime mtime : SnfsTimeval}

theorem setTimes_stored (stores : StoresTimes env.kernel timesOf)
    (there : timesOf server.fs path ≠ none) {args : SetattrArgs}
    (atimeRead : args.atime = .ok atime) (mtimeRead : args.mtime = .ok mtime)
    (set : setTimes env snfsSettimes path args 0 server =
      .ok (snfsSettimes, after)) :
    timesOf after.fs path = some (storedTimes atime mtime) := by
  have asked : ¬ snfsSettimes &&& snfsSettimes = 0 := by decide
  rw [setTimes, if_neg asked, atimeRead, mtimeRead] at set
  simp only [ok_bind] at set
  by_cases inRange : InRange atime ∧ InRange mtime
  · rw [storedTimes, if_pos inRange]
    obtain ⟨fs, succeeds, stored⟩ :=
      stores.utimes path atime mtime server.fs inRange.1 inRange.2 there
    obtain ⟨middle, called, rfl⟩ := syscall_of_kernel env succeeds
    rw [called] at set
    cases set
    exact stored
  · rw [storedTimes, if_neg inRange]
    obtain ⟨errno, fs, fails⟩ := stores.refused path atime mtime server.fs inRange
    obtain ⟨middle, called, rfl⟩ := syscall_of_kernel env fails
    rw [called] at set
    simp only at set
    split at set
    · rename_i again
      cases set
      exact stores.utime path _ _ _ _ (kernel_of_syscall again)
    · cases set

theorem handleSetattr_times (stores : StoresTimes env.kernel timesOf)
    {file : Fhandle} {mode uid gid : UInt64} {size : Int64}
    (handled : handleSetattr env ⟨.ok file, .ok snfsSettimes, .ok mode, .ok uid,
      .ok gid, .ok size, .ok atime, .ok mtime⟩ server = .ok after)
    {sentSize : Nat} {rest : List (Reply × Nat)}
    (sent : after.sent = (.setattr snfsSettimes, sentSize) :: rest) :
    ∃ filePath, storedPath server.db file = some filePath ∧
      timesOf after.fs filePath = some (storedTimes atime mtime) := by
  rw [handleSetattr, ok_bind] at handled
  rcases file_cases handled with missing | ⟨filePath, st, found, isFound, handled⟩
  · exact absurd missing.refused (not_refused_of_reply sent rfl)
  · obtain ⟨_, same, stored⟩ := isFound.stored
    cases same
    have noMode : snfsSettimes &&& snfsSetmode = 0 := by decide
    have noUid : snfsSettimes &&& snfsSetuid = 0 := by decide
    have noGid : snfsSettimes &&& snfsSetgid = 0 := by decide
    have noSize : snfsSettimes &&& snfsSetsize = 0 := by decide
    simp only [setAttribute_unasked noMode, setAttribute_unasked noUid,
      setAttribute_unasked noGid, setAttribute_unasked noSize, ok_bind,
      bind_eq_ok, Prod.exists] at handled
    obtain ⟨whichSet, last, times, handled⟩ := handled
    cases pure_eq_ok.mp handled
    cases sent
    have there := stores.there _ _ _ _ (kernel_of_syscall isFound.stats)
    have storedHere := setTimes_stored stores there rfl rfl times
    exact ⟨filePath, stored, storedHere⟩

end Server

/-! ## The unit of the client -/

theorem useconds_toTimeval {time : Timespec} (normal : Normal time) :
    time.toTimeval.useconds.toInt = time.nsec.toInt * 1000 := by
  have thousand : (1000 : Int64).toInt = 1000 := rfl
  rw [Timespec.toTimeval, Int64.toInt_mul, thousand]
  obtain ⟨low, high⟩ := normal
  apply Int.bmod_eq_of_le
  · omega
  · omega

theorem useconds_truncated (time : Timespec) :
    (truncated time).useconds.toInt = time.nsec.toInt.tdiv 1000 :=
  Int64.toInt_div_of_ne_right time.nsec 1000 (by decide)

theorem inRange_toTimeval {time : Timespec} (normal : Normal time) :
    InRange time.toTimeval ↔ time.nsec.toInt < 1000 := by
  rw [InRange, useconds_toTimeval normal]
  obtain ⟨low, _⟩ := normal
  omega

theorem nsec_of_normal {time : Timespec} (normal : Normal time) :
    (truncated time).useconds.toInt = time.nsec.toInt / 1000 := by
  rw [useconds_truncated, Int.tdiv_eq_ediv_of_nonneg normal.1]

theorem nsec_eq_zero_iff (time : Timespec) :
    time.nsec = 0 ↔ time.nsec.toInt = 0 := by
  rw [← Int64.toInt_inj, Int64.toInt_zero]

theorem toTimeval_eq_truncated_iff {time : Timespec} (normal : Normal time) :
    time.toTimeval = truncated time ↔ time.nsec = 0 := by
  have sent := useconds_toTimeval normal
  have wanted := nsec_of_normal normal
  constructor
  · intro same
    rw [same, wanted] at sent
    rw [nsec_eq_zero_iff]
    have nonnegative := normal.1
    omega
  · intro none
    rw [Timespec.toTimeval, truncated, none]
    rfl

/-- Whole seconds are the truncated time below a microsecond. -/
theorem lt_of_wholeSeconds {time : Timespec} (normal : Normal time)
    (same : ⟨time.sec, 0⟩ = truncated time) : time.nsec.toInt < 1000 := by
  have wanted := nsec_of_normal normal
  rw [← same, Int64.toInt_zero] at wanted
  have nonnegative := normal.1
  omega

theorem storedTimes_eq_truncated_iff {atime mtime : Timespec}
    (atimeNormal : Normal atime) (mtimeNormal : Normal mtime) :
    storedTimes atime.toTimeval mtime.toTimeval =
        (truncated atime, truncated mtime) ↔
      atime.nsec = 0 ∧ mtime.nsec = 0 := by
  rw [storedTimes]
  by_cases inRange : InRange atime.toTimeval ∧ InRange mtime.toTimeval
  · rw [if_pos inRange, Prod.mk.injEq, toTimeval_eq_truncated_iff atimeNormal,
      toTimeval_eq_truncated_iff mtimeNormal]
  · rw [if_neg inRange]
    rw [inRange_toTimeval atimeNormal, inRange_toTimeval mtimeNormal] at inRange
    constructor
    · intro same
      obtain ⟨atimeSame, mtimeSame⟩ := Prod.mk.inj same
      exact absurd ⟨lt_of_wholeSeconds atimeNormal atimeSame,
        lt_of_wholeSeconds mtimeNormal mtimeSame⟩ inRange
    · rintro ⟨atimeZero, mtimeZero⟩
      rw [nsec_eq_zero_iff] at atimeZero mtimeZero
      omega

/-! ## A call that returns 0 -/

section Returned

variable {link : Link Fs}
  {timesOf : Fs → CString → Option (SnfsTimeval × SnfsTimeval)}
  {root : Fhandle} {path : CString} {server after : Server Fs}
  {atime mtime : Timespec}

theorem snfsUtimens_eq_zero (stores : StoresTimes link.kernel timesOf)
    (returned : snfsUtimens link root path (atime, mtime) server =
      .ok (0, after)) :
    ∃ found handle filePath, Finds link root path server found handle filePath ∧
      timesOf after.fs filePath =
        some (storedTimes atime.toTimeval mtime.toTimeval) := by
  rw [snfsUtimens, snfsSetattr, bind_eq_ok] at returned
  obtain ⟨⟨⟨isFound, handle⟩, found⟩, called, returned⟩ := returned
  cases isFound with
  | false => cases returned
  | true =>
      simp only [Bool.not_true, Bool.false_eq_true, if_false, Option.map_some,
        Option.getD_some, bind_eq_ok] at returned
      obtain ⟨⟨reply, next⟩, replied, returned⟩ := returned
      split at returned
      · rename_i repWhich _ same
        cases same
        obtain ⟨result, sameServer⟩ := Prod.mk.inj (pure_eq_ok.mp returned)
        cases sameServer
        have isWhich : repWhich = snfsSettimes := by
          by_contra different
          rw [if_neg different] at result
          cases result
        subst isWhich
        obtain ⟨served, ⟨size, rest, sent⟩, _⟩ := sendRequest_eq_some replied
        have received := Request.receivedIn_sent noGap []
          (.setattr handle snfsSettimes (UInt32.toUInt64 0) (UInt32.toUInt64 0)
            (UInt32.toUInt64 0) 0 atime.toTimeval mtime.toTimeval)
        rw [Request.ReceivedIn] at received
        rw [serve_of_messageType (Request.messageType_sent noGap [] _),
          Request.type, dispatch, received] at served
        obtain ⟨filePath, stored, times⟩ :=
          handleSetattr_times stores served sent
        exact ⟨found, handle, filePath, ⟨called, stored⟩, times⟩
      · cases returned

/-- Whenever `snfs_utimens` returns 0, the times of the file are the requested
ones in whole microseconds if and only if both were whole seconds. -/
theorem storesTruncated_iff (stores : StoresTimes link.kernel timesOf)
    (atimeNormal : Normal atime) (mtimeNormal : Normal mtime)
    (returned : snfsUtimens link root path (atime, mtime) server =
      .ok (0, after)) :
    ∃ found handle filePath, Finds link root path server found handle filePath ∧
      (Walkable link root path server → filePath = joinedPath (tokens path)) ∧
      (timesOf after.fs filePath = some (truncated atime, truncated mtime) ↔
        atime.nsec = 0 ∧ mtime.nsec = 0) := by
  obtain ⟨found, handle, filePath, finds, times⟩ :=
    snfsUtimens_eq_zero stores returned
  refine ⟨found, handle, filePath, finds, finds.eq_joinedPath, ?_⟩
  rw [times, Option.some.injEq]
  exact storedTimes_eq_truncated_iff atimeNormal mtimeNormal

end Returned

/-! ## One file -/

/-- The root directory alone, with its times. -/
structure Clock where
  atime : SnfsTimeval
  mtime : SnfsTimeval

namespace Clock

def stat : Stat := ⟨0x41ED, 2, 0, 0, 4096, 0, 1, 2, 0, 0, 0⟩

def kernel : Kernel Clock
  | .stat path, clock =>
    (if path = rootPath then .ok stat else .error .enoent, clock)
  | .utimes path atime mtime, clock =>
    if path = rootPath ∧ InRange atime ∧ InRange mtime then
      (.ok (), ⟨atime, mtime⟩)
    else (.error (.other 22), clock)
  | .utime path actime modtime, clock =>
    if path = rootPath then (.ok (), ⟨⟨actime, 0⟩, ⟨modtime, 0⟩⟩)
    else (.error .enoent, clock)
  | _, clock => (.error (.other 38), clock)

def timesOf (clock : Clock) (path : CString) :
    Option (SnfsTimeval × SnfsTimeval) :=
  if path = rootPath then some (clock.atime, clock.mtime) else none

theorem timesOf_root (clock : Clock) :
    timesOf clock rootPath = some (clock.atime, clock.mtime) := if_pos rfl

theorem storesTimes : StoresTimes kernel timesOf where
  there := by
    intro path clock st after called
    rw [kernel] at called
    split at called
    · rename_i isRoot
      rw [isRoot, timesOf_root]
      exact Option.some_ne_none _
    · cases called
  refused := by
    intro path atime mtime clock outside
    refine ⟨.other 22, clock, ?_⟩
    rw [kernel, if_neg (fun inside => outside inside.2)]
  utimes := by
    intro path atime mtime clock atimeInside mtimeInside there
    have isRoot : path = rootPath := by
      by_contra different
      exact there (if_neg different)
    refine ⟨⟨atime, mtime⟩, ?_, ?_⟩
    · rw [kernel, if_pos ⟨isRoot, atimeInside, mtimeInside⟩]
    · rw [isRoot, timesOf_root]
  utime := by
    intro path actime modtime clock after called
    rw [kernel] at called
    split at called
    · rename_i isRoot
      cases called
      rw [isRoot, timesOf_root]
    · cases called

def link : Link Clock :=
  ⟨kernel, fun _ => ⟨0, Fattr.zero, fun _ _ => 0, 0x800000⟩, fun _ _ => 0⟩

/-- The root directory has handle 7. -/
def server : Server Clock :=
  ⟨⟨⟨0, 0⟩, ⟨0, 0⟩⟩, paired emptyDb rootPath 7, [], [], []⟩

end Clock

set_option maxRecDepth 8000 in
/-- Whole seconds are stored. -/
theorem storesTruncated_iff_wholeSeconds : ∃ after filePath,
    snfsUtimens Clock.link 7 rootPath (⟨5, 0⟩, ⟨7, 0⟩) Clock.server =
      .ok (0, after) ∧
    Clock.timesOf after.fs filePath =
      some (truncated ⟨5, 0⟩, truncated ⟨7, 0⟩) := by
  have returned : ∃ after, snfsUtimens Clock.link 7 rootPath
      (⟨5, 0⟩, ⟨7, 0⟩) Clock.server = .ok (0, after) := ⟨_, rfl⟩
  obtain ⟨after, returned⟩ := returned
  have atimeNormal : Normal ⟨5, 0⟩ := ⟨by decide, by decide⟩
  have mtimeNormal : Normal ⟨7, 0⟩ := ⟨by decide, by decide⟩
  obtain ⟨_, _, filePath, _, _, stored⟩ :=
    storesTruncated_iff Clock.storesTimes atimeNormal mtimeNormal returned
  exact ⟨after, filePath, returned, stored.mpr ⟨rfl, rfl⟩⟩

set_option maxRecDepth 8000 in
/-- A microsecond and a half is dropped, 7 nanoseconds become 7 milliseconds, and
`snfs_utimens` returns 0. -/
theorem nanoseconds_misstored :
    (∃ after, snfsUtimens Clock.link 7 rootPath (⟨5, 1500⟩, ⟨7, 0⟩)
        Clock.server = .ok (0, after) ∧
      Clock.timesOf after.fs rootPath = some (⟨5, 0⟩, ⟨7, 0⟩) ∧
      truncated ⟨5, 1500⟩ = ⟨5, 1⟩) ∧
    ∃ after, snfsUtimens Clock.link 7 rootPath (⟨5, 7⟩, ⟨7, 0⟩)
        Clock.server = .ok (0, after) ∧
      Clock.timesOf after.fs rootPath = some (⟨5, 7000⟩, ⟨7, 0⟩) ∧
      truncated ⟨5, 7⟩ = ⟨5, 0⟩ :=
  ⟨⟨_, rfl, rfl, rfl⟩, _, rfl, rfl, rfl⟩

end ChlorosSnfs.Snfs.RemoteTimes
