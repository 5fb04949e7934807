import ChlorosSnfs.Library.GrowingArray
import ChlorosSnfs.Snfs.ClientCalls
import ChlorosSnfs.Snfs.HandlerStops

/-!
# Kernels that serve regular files

What POSIX says of the calls that READ, WRITE and SETATTR make on a regular
file, as long as they do not fail and transfer fully.  What a call leaves in a
file is said byte by byte, and a byte behind the end of a file reads as zero.
-/

set_option autoImplicit false

namespace ChlorosSnfs.Snfs.RegularFiles

open ChlorosSnfs.Library.GrowingArray
open ChlorosSnfs.Snfs.Fhandledb
open ChlorosSnfs.Snfs.Messages
open ChlorosSnfs.Snfs.Syscalls
open ChlorosSnfs.Snfs.Handlers
open ChlorosSnfs.Snfs.HandlerEffects
open ChlorosSnfs.Snfs.HandlerStops
open ChlorosSnfs.Snfs.PathWalk
open ChlorosSnfs.Snfs.ClientCalls

variable {Fs File : Type}

/-! ## The kernel -/

/-- What a path leads to. -/
inductive Entry (File : Type) where
  | directory
  | regular (file : File)
  | special

def Entry.isDirectory : Entry File → Bool
  | .directory => true
  | _ => false

/-- An open file description. -/
structure Cursor (File : Type) where
  file : File
  access : Access
  position : Nat

/-- What the kernel's states show: where paths lead, what is in each file and
what the descriptors refer to.  No file goes beyond `limit`. -/
structure FileView (Fs File : Type) where
  names : Fs → CString → Option (Entry File)
  contents : Fs → File → Bytes
  cursor : Fs → Nat → Option (Cursor File)
  limit : Nat

def FileView.served (view : FileView Fs File) (fs : Fs) :
    (CString → Option (Entry File)) × (File → Bytes) :=
  (view.names fs, view.contents fs)

/-- A call has left one file with a length and bytes, and the rest as it was. -/
structure Rewritten (view : FileView Fs File) (file : File) (length : Nat)
    (byte : Nat → UInt8) (fs after : Fs) : Prop where
  names : view.names after = view.names fs
  others : ∀ other, other ≠ file → view.contents after other =
    view.contents fs other
  length_eq : (view.contents after file).length = length
  bytes_eq : ∀ index, index < length →
    (view.contents after file).getD index 0 = byte index

/-- The calls on regular files, which succeed up to the limit of the kernel and
transfer fewer than 2³¹ bytes at once. -/
structure OnFiles (kernel : Kernel Fs) (view : FileView Fs File) : Prop where
  undisturbed : Undisturbed kernel view.served
  root : ∀ fs, view.names fs rootPath = some .directory
  stat : ∀ path fs,
    ((kernel (.stat path) fs).1.toOption.map fun st => sIsdir st.mode) =
      (view.names fs path).map Entry.isDirectory
  size : ∀ path fs file st, view.names fs path = some (.regular file) →
    (kernel (.stat path) fs).1 = .ok st →
      st.size.toInt = (view.contents fs file).length
  openFile : ∀ path access fs file, view.names fs path = some (.regular file) →
    ∃ fd after, kernel (.openFile path access) fs = (.ok fd, after) ∧
      view.cursor after fd = some ⟨file, access, 0⟩
  lseek : ∀ fd offset fs opened, view.cursor fs fd = some opened →
    0 ≤ offset.toInt → offset.toInt.toNat ≤ view.limit →
      ∃ after, kernel (.lseek fd offset) fs = (.ok offset, after) ∧
        view.cursor after fd =
          some { opened with position := offset.toInt.toNat }
  read : ∀ fd count fs file position,
    view.cursor fs fd = some ⟨file, .rdonly, position⟩ → count.toNat < 2 ^ 31 →
      ∃ data after, kernel (.read fd count) fs = (.ok data, after) ∧
        data.length =
          min count.toNat ((view.contents fs file).length - position) ∧
        ∀ index, index < data.length → data.getD index 0 =
          (view.contents fs file).getD (position + index) 0
  write : ∀ fd data fs file position,
    view.cursor fs fd = some ⟨file, .wronly, position⟩ →
      data.length < 2 ^ 31 → position + data.length ≤ view.limit →
      ∃ after, kernel (.write fd data) fs = (.ok data.length, after) ∧
        Rewritten view file
          (lengthAfter position data (view.contents fs file).length)
          (elementAfter 0 position data (view.contents fs file)) fs after
  truncate : ∀ path size fs file, view.names fs path = some (.regular file) →
    0 ≤ size.toInt → size.toInt.toNat ≤ view.limit →
      ∃ after, kernel (.truncate path size) fs = (.ok (), after) ∧
        Rewritten view file size.toInt.toNat
          (fun index => (view.contents fs file).getD index 0) fs after

section Laws

variable {kernel : Kernel Fs} {view : FileView Fs File} {fs after : Fs}
  {file : File}

theorem OnFiles.stat_regular (onFiles : OnFiles kernel view) {path : CString}
    (regular : view.names fs path = some (.regular file)) :
    ∃ st after, kernel (.stat path) fs = (.ok st, after) ∧
      st.size.toInt = (view.contents fs file).length := by
  have asked := onFiles.stat path fs
  rw [regular] at asked
  cases outcome : (kernel (.stat path) fs).1 with
  | error errno =>
      rw [outcome] at asked
      cases asked
  | ok st =>
      refine ⟨st, (kernel (.stat path) fs).2, ?_,
        onFiles.size path fs file st regular outcome⟩
      rw [← outcome]

/-- A kernel of this kind stands still while it is only asked. -/
theorem OnFiles.standing (onFiles : OnFiles kernel view) (fs : Fs) :
    Standing kernel fs fun path =>
      (view.names fs path).map Entry.isDirectory where
  stat := by
    intro after quiet path
    have same : view.names after = view.names fs :=
      congrArg Prod.fst (quiet.served_eq onFiles.undisturbed)
    rw [onFiles.stat path after, same]
  root := by
    rw [onFiles.root fs]
    rfl

end Laws

/-! ## The handlers -/

/-- The database and all names are as they were. -/
structure Steady (view : FileView Fs File) (before after : Server Fs) :
    Prop where
  db : after.db = before.db
  draws : after.draws = before.draws
  names : view.names after.fs = view.names before.fs

/-- A handler has replied, and nothing but the contents of files has changed. -/
structure Handled (view : FileView Fs File) (reply : Reply)
    (before after : Server Fs) : Prop extends Steady view before after where
  sent : ∃ size, after.sent = (reply, size) :: before.sent

section Handlers

variable {env : Env Fs} {view : FileView Fs File} {server : Server Fs}
  {fh : Fhandle} {path : CString} {file : File}

theorem served_of_looked (onFiles : OnFiles env.kernel view)
    {before after : Server Fs} (looked : Looked env before after) :
    view.served after.fs = view.served before.fs :=
  looked.quiet.served_eq onFiles.undisturbed

theorem closeFd_served (onFiles : OnFiles env.kernel view) (fd : Nat)
    (server : Server Fs) :
    view.served (closeFd env fd server).fs = view.served server.fs :=
  onFiles.undisturbed.readOnly (.close fd) server.fs rfl

theorem not_negative {offset : Int64} (nonnegative : 0 ≤ offset.toInt) :
    ¬ offset < 0 := by
  rw [Int64.lt_iff_toInt_lt, Int64.toInt_zero]
  omega

/-- The file is opened and the descriptor stands at the offset. -/
theorem opened_at (onFiles : OnFiles env.kernel view) {start : Server Fs}
    (looked : Looked env start server)
    (regular : view.names start.fs path = some (.regular file))
    (access : Access) {offset : Int64} (nonnegative : 0 ≤ offset.toInt)
    (inLimit : offset.toInt.toNat ≤ view.limit) :
    ∃ fd opened moved,
      syscall env (.openFile path access) server = (.ok fd, opened) ∧
      syscall env (.lseek fd offset) opened = (.ok offset, moved) ∧
      view.cursor moved.fs fd = some ⟨file, access, offset.toInt.toNat⟩ ∧
      Looked env start moved := by
  have names : view.names server.fs = view.names start.fs :=
    congrArg Prod.fst (served_of_looked onFiles looked)
  rw [← names] at regular
  obtain ⟨fd, fs, openCalled, cursor⟩ :=
    onFiles.openFile path access server.fs file regular
  obtain ⟨opened, opens, rfl⟩ := syscall_of_kernel env openCalled
  obtain ⟨fs, seekCalled, positioned⟩ :=
    onFiles.lseek fd offset opened.fs _ cursor nonnegative inLimit
  obtain ⟨moved, moves, rfl⟩ := syscall_of_kernel env seekCalled
  exact ⟨fd, opened, moved, opens, moves, positioned,
    (looked.readOnly opens rfl).readOnly moves rfl⟩

/-- When all its calls succeed, READ reads what is there. -/
theorem handleRead_of_calls (known : getFile server.db fh = some path.key)
    {offset : Int64} {count : UInt64} {st : Stat} {fd : Nat} {data : Bytes}
    {found opened moved last : Server Fs}
    (stats : syscall env (.stat path) server = (.ok st, found))
    (opens : syscall env (.openFile path .rdonly) found = (.ok fd, opened))
    (moves : syscall env (.lseek fd offset) opened = (.ok offset, moved))
    (nonnegative : 0 ≤ offset.toInt)
    (room : (readBufferSize count).toNat ≤ env.leftover.stack)
    (stored : data.length ≤ (readBufferSize count).toNat)
    (reads : offset < st.size ∧
        syscall env (.read fd count) moved = (.ok data, last) ∨
      ¬ offset < st.size ∧ data = [] ∧ last = moved) :
    handleRead env ⟨.ok fh, .ok offset, .ok count⟩ server =
      .ok (handleRead.replyRead env fd count data last) := by
  have notNegative := not_negative nonnegative
  rcases reads with ⟨inside, reads⟩ | ⟨behind, rfl, rfl⟩
  · simp only [handleRead, ok_bind, known, asString, stringAt_key, stats, opens,
      moves, offsetOf, notNegative, ne_eq, not_true_eq_false, or_self, if_false,
      withinRoom_of_le room, if_pos inside, reads, withinRoom_of_le stored]
    rfl
  · simp only [handleRead, ok_bind, known, asString, stringAt_key, stats, opens,
      moves, offsetOf, notNegative, ne_eq, not_true_eq_false, or_self, if_false,
      withinRoom_of_le room, if_neg behind]
    rfl

/-- The reply to a READ of this data. -/
def readReply (eof : UInt64) (data : Bytes) : Reply :=
  .read (UInt64.ofNat data.length) eof data

theorem replyRead_handled (onFiles : OnFiles env.kernel view)
    {last : Server Fs} (looked : Looked env server last) (fd : Nat)
    (count : UInt64) (data : Bytes) :
    (∃ eof, Handled view (readReply eof data) server
      (handleRead.replyRead env fd count data last)) ∧
    view.contents (handleRead.replyRead env fd count data last).fs =
      view.contents server.fs := by
  have before := served_of_looked onFiles looked
  have served : view.served (handleRead.replyRead env fd count data last).fs =
      view.served server.fs := (closeFd_served onFiles fd _).trans before
  have sent : ∃ eof size,
      (handleRead.replyRead env fd count data last).sent =
        (readReply eof data, size) :: server.sent :=
    ⟨_, _, congrArg (List.cons _) looked.sent⟩
  obtain ⟨eof, sent⟩ := sent
  exact ⟨⟨eof, ⟨looked.db, looked.draws, congrArg Prod.fst served⟩, sent⟩,
    congrArg Prod.snd served⟩

theorem handleRead_regular (onFiles : OnFiles env.kernel view)
    (known : getFile server.db fh = some path.key)
    (regular : view.names server.fs path = some (.regular file))
    {offset : Int64} {count : UInt64} (nonnegative : 0 ≤ offset.toInt)
    (inLimit : offset.toInt.toNat ≤ view.limit) (small : count.toNat < 2 ^ 31)
    (room : (readBufferSize count).toNat ≤ env.leftover.stack) :
    ∃ after,
      handleRead env ⟨.ok fh, .ok offset, .ok count⟩ server = .ok after ∧
      (∃ eof, Handled view (readReply eof (segment offset.toInt.toNat
        count.toNat (view.contents server.fs file))) server after) ∧
      view.contents after.fs = view.contents server.fs := by
  obtain ⟨st, fs, statCalled, size⟩ := onFiles.stat_regular regular
  obtain ⟨found, stats, rfl⟩ := syscall_of_kernel env statCalled
  obtain ⟨fd, opened, moved, opens, moves, positioned, looked⟩ := opened_at
    onFiles ((Looked.refl env server).readOnly stats rfl) regular .rdonly
    nonnegative inLimit
  have contents : view.contents moved.fs = view.contents server.fs :=
    congrArg Prod.snd (served_of_looked onFiles looked)
  by_cases inside : offset < st.size
  · obtain ⟨data, fs, readCalled, length, bytes⟩ :=
      onFiles.read fd count moved.fs file _ positioned small
    obtain ⟨last, reads, rfl⟩ := syscall_of_kernel env readCalled
    rw [contents] at length bytes
    have same : data = segment offset.toInt.toNat count.toNat
        (view.contents server.fs file) := by
      apply eq_of_getD (length.trans (segment_length _ _ _).symm)
      intro index inData
      rw [getD_segment 0 _ (by omega)]
      exact bytes index inData
    have stored : data.length ≤ (readBufferSize count).toNat := by
      rw [length, readBufferSize_toNat]
      omega
    rw [← same]
    exact ⟨_, handleRead_of_calls known stats opens moves nonnegative room stored
      (Or.inl ⟨inside, reads⟩), replyRead_handled onFiles
      (looked.readOnly reads rfl) fd count data⟩
  · have nothing : segment offset.toInt.toNat count.toNat
        (view.contents server.fs file) = [] := by
      apply segment_eq_nil
      rw [Int64.lt_iff_toInt_lt, size] at inside
      omega
    rw [nothing]
    exact ⟨_, handleRead_of_calls known stats opens moves nonnegative room
      (Nat.zero_le _) (Or.inr ⟨inside, rfl, rfl⟩), replyRead_handled onFiles
      looked fd count []⟩

end Handlers

/-! ## A kernel of this kind -/

theorem pathA_noNul : (0 : UInt8) ∉ [(47 : UInt8), 97] := by decide

theorem pathB_noNul : (0 : UInt8) ∉ [(47 : UInt8), 98] := by decide

/-- `/a`. -/
def pathA : CString := ⟨[47, 97], pathA_noNul⟩

/-- `/b`. -/
def pathB : CString := ⟨[47, 98], pathB_noNul⟩

/-- A disk with the two files `/a` and `/b` in its root, and the one open file
description. -/
structure Disk where
  contents : Bool → { bytes : Bytes // bytes.length < 2 ^ 63 }
  cursor : Option (Cursor Bool)

namespace Disk

def names (path : CString) : Option (Entry Bool) :=
  if path = rootPath then some .directory
  else if path = pathA then some (.regular false)
  else if path = pathB then some (.regular true)
  else none

def fd : Nat := 3

def view : FileView Disk Bool where
  names _ := names
  contents disk file := (disk.contents file).val
  cursor disk number := if number = fd then disk.cursor else none
  limit := 2 ^ 63 - 1

def stat (disk : Disk) : Entry Bool → Stat
  | .regular file =>
      ⟨0x81A4, 1, 0, 0, Int64.ofNat (disk.contents file).val.length, 0, 0, 1, 0,
        0, 0⟩
  | .directory => ⟨0x41ED, 1, 0, 0, 0, 0, 0, 0, 0, 0, 0⟩
  | .special => ⟨0x1180, 1, 0, 0, 0, 0, 0, 0, 0, 0, 0⟩

/-- The file with other bytes, if they are not too many. -/
def store (disk : Disk) (file : Bool) (bytes : Bytes)
    (cursor : Option (Cursor Bool)) : Option Disk :=
  if room : bytes.length < 2 ^ 63 then
    some ⟨Function.update disk.contents file ⟨bytes, room⟩, cursor⟩
  else none

/-- A call that fails for a reason of its own leaves the disk alone. -/
def outcome {α : Type} (disk : Disk) : Option (α × Disk) → Except Errno α × Disk
  | some (result, next) => (.ok result, next)
  | none => (.error (.other 22), disk)

/-- What a call that succeeds gives and leaves. -/
def perform (disk : Disk) : (call : Call) → Option (Result call × Disk)
  | .stat path => (names path).map fun entry => (disk.stat entry, disk)
  | .openFile path access =>
      match names path with
      | some (.regular file) =>
          some (fd, { disk with cursor := some ⟨file, access, 0⟩ })
      | _ => none
  | .lseek number offset =>
      match view.cursor disk number with
      | some opened =>
          if 0 ≤ offset.toInt then
            some (offset, { disk with
              cursor := some { opened with position := offset.toInt.toNat } })
          else none
      | none => none
  | .read number count =>
      match view.cursor disk number with
      | some ⟨file, .rdonly, position⟩ =>
          some (segment position count.toNat (disk.contents file).val,
            { disk with cursor := some ⟨file, .rdonly, position + count.toNat⟩ })
      | _ => none
  | .write number data =>
      match view.cursor disk number with
      | some ⟨file, .wronly, position⟩ =>
          (disk.store file (overwritten 0 position data (disk.contents file).val)
            (some ⟨file, .wronly, position + data.length⟩)).map
              fun next => (data.length, next)
      | _ => none
  | .truncate path size =>
      match names path with
      | some (.regular file) =>
          if 0 ≤ size.toInt then
            (disk.store file
              (resized 0 size.toInt.toNat (disk.contents file).val)
              disk.cursor).map fun next => ((), next)
          else none
      | _ => none
  | .close _ => some ((), { disk with cursor := none })
  | _ => none

def kernel : Kernel Disk := fun call disk => disk.outcome (disk.perform call)

theorem kernel_of_perform {call : Call} {disk next : Disk}
    {result : Result call} (performed : disk.perform call = some (result, next)) :
    kernel call disk = (.ok result, next) := by
  rw [kernel, performed, outcome]

theorem kernel_of_none {call : Call} {disk : Disk}
    (fails : disk.perform call = none) :
    kernel call disk = (.error (.other 22), disk) := by
  rw [kernel, fails, outcome]

theorem contents_of_readOnly {call : Call} {disk next : Disk}
    {result : Result call} (performed : disk.perform call = some (result, next))
    (looks : call.readOnly = true) : next.contents = disk.contents := by
  cases call with
  | stat path =>
      obtain ⟨entry, _, same⟩ := Option.map_eq_some_iff.mp performed
      cases same
      rfl
  | openFile path access =>
      rw [perform] at performed
      split at performed
      · cases performed
        rfl
      · cases performed
  | lseek number offset =>
      rw [perform] at performed
      split at performed
      · split at performed
        · cases performed
          rfl
        · cases performed
      · cases performed
  | read number count =>
      rw [perform] at performed
      split at performed
      · cases performed
        rfl
      · cases performed
  | close number =>
      cases performed
      rfl
  | opendir path => cases performed
  | readdir dir => cases performed
  | _ => cases looks

theorem served_of_contents {disk next : Disk}
    (same : next.contents = disk.contents) :
    view.served next = view.served disk := by
  simp only [FileView.served, view, same]

theorem undisturbed : Undisturbed kernel view.served where
  readOnly := by
    intro call disk looks
    cases performed : disk.perform call with
    | none => rw [kernel_of_none performed]
    | some outcome =>
        rw [kernel_of_perform performed]
        exact served_of_contents (contents_of_readOnly performed looks)
  failed := by
    intro call disk errno fails
    cases performed : disk.perform call with
    | none => rw [kernel_of_none performed]
    | some outcome =>
        rw [kernel_of_perform performed] at fails
        cases fails

theorem isDirectory_stat (disk : Disk) (entry : Entry Bool) :
    sIsdir (disk.stat entry).mode = entry.isDirectory := by
  cases entry with
  | directory => exact (by decide : sIsdir 0x41ED = true)
  | regular file => exact (by decide : sIsdir 0x81A4 = false)
  | special => exact (by decide : sIsdir 0x1180 = false)

theorem rewritten_of_store {disk next : Disk} {file : Bool} {bytes : Bytes}
    {cursor : Option (Cursor Bool)} {byte : Nat → UInt8}
    (stored : disk.store file bytes cursor = some next)
    (same : ∀ index, index < bytes.length → bytes.getD index 0 = byte index) :
    Rewritten view file bytes.length byte disk next := by
  rw [store] at stored
  split at stored
  · rename_i room
    cases stored
    have here : view.contents ⟨Function.update disk.contents file ⟨bytes, room⟩,
        cursor⟩ file = bytes := by simp [view]
    refine ⟨rfl, ?_, congrArg List.length here, ?_⟩
    · intro other different
      exact congrArg Subtype.val (Function.update_of_ne different _ _)
    · intro index inside
      rw [here]
      exact same index inside
  · cases stored

theorem store_eq_some (disk : Disk) (file : Bool) {bytes : Bytes}
    (cursor : Option (Cursor Bool)) (room : bytes.length < 2 ^ 63) :
    ∃ next, disk.store file bytes cursor = some next :=
  ⟨_, dif_pos room⟩

theorem onFiles : OnFiles kernel view where
  undisturbed := undisturbed
  root := fun _ => rfl
  stat := by
    intro path disk
    have shown : view.names disk path = names path := rfl
    rw [shown]
    cases led : names path with
    | none =>
        have fails : disk.perform (.stat path) = none := by
          rw [perform, led]
          rfl
        rw [kernel_of_none fails]
        rfl
    | some entry =>
        have performed : disk.perform (.stat path) = some (disk.stat entry, disk) := by
          rw [perform, led]
          rfl
        rw [kernel_of_perform performed]
        exact congrArg some (isDirectory_stat disk entry)
  size := by
    intro path disk file st regular succeeded
    have led : names path = some (.regular file) := regular
    have performed : disk.perform (.stat path) =
        some (disk.stat (.regular file), disk) := by
      rw [perform, led]
      rfl
    rw [kernel_of_perform performed] at succeeded
    cases succeeded
    exact Int64.toInt_ofNat_of_lt (disk.contents file).property
  openFile := by
    intro path access disk file regular
    have led : names path = some (.regular file) := regular
    have performed : disk.perform (.openFile path access) =
        some (fd, { disk with cursor := some ⟨file, access, 0⟩ }) := by
      rw [perform, led]
    exact ⟨fd, _, kernel_of_perform performed, rfl⟩
  lseek := by
    intro number offset disk opened cursor nonnegative inLimit
    have performed : disk.perform (.lseek number offset) =
        some (offset, { disk with
          cursor := some { opened with position := offset.toInt.toNat } }) := by
      rw [perform, cursor]
      exact if_pos nonnegative
    have isFd : number = fd := by
      by_contra different
      rw [view] at cursor
      simp [different] at cursor
    exact ⟨_, kernel_of_perform performed, if_pos isFd⟩
  read := by
    intro number count disk file position cursor small
    have performed : disk.perform (.read number count) =
        some (segment position count.toNat (disk.contents file).val,
          { disk with cursor := some ⟨file, .rdonly, position + count.toNat⟩ }) := by
      rw [perform, cursor]
    refine ⟨_, _, kernel_of_perform performed, segment_length _ _ _, ?_⟩
    intro index inside
    rw [segment_length] at inside
    exact getD_segment 0 _ (by omega)
  write := by
    intro number data disk file position cursor small inLimit
    have limit : view.limit = 2 ^ 63 - 1 := rfl
    have length := overwritten_length 0 position data (disk.contents file).val
    have room : (overwritten 0 position data (disk.contents file).val).length <
        2 ^ 63 := by
      have before := (disk.contents file).property
      rw [length, lengthAfter]
      split <;> omega
    obtain ⟨next, stored⟩ := store_eq_some disk file
      (some ⟨file, .wronly, position + data.length⟩) room
    have performed : disk.perform (.write number data) =
        some (data.length, next) := by
      rw [perform, cursor]
      exact congrArg (Option.map _) stored
    refine ⟨next, kernel_of_perform performed, ?_⟩
    have rewritten := rewritten_of_store stored fun index _ =>
      getD_overwritten 0 position data (disk.contents file).val index
    rw [length] at rewritten
    exact rewritten
  truncate := by
    intro path size disk file regular nonnegative inLimit
    have led : names path = some (.regular file) := regular
    have length := resized_length 0 size.toInt.toNat (disk.contents file).val
    obtain ⟨next, stored⟩ := store_eq_some disk file disk.cursor (by
      rw [length]
      have bounded := size.toInt_lt
      omega)
    have performed : disk.perform (.truncate path size) = some ((), next) := by
      rw [perform, led]
      exact (if_pos nonnegative).trans (congrArg (Option.map _) stored)
    refine ⟨next, kernel_of_perform performed, ?_⟩
    have rewritten := rewritten_of_store stored fun index inside =>
      getD_resized 0 (disk.contents file).val (by rw [length] at inside; exact inside)
    rw [length] at rewritten
    exact rewritten

end Disk

end ChlorosSnfs.Snfs.RegularFiles
