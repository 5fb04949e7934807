import ChlorosSnfs.Snfs.RegularFiles

/-!
# The end of a file in a READ

`handle_read` documents `eof` as `offset + count >= file size` and computes it
as a read that gave less than it was asked for.  The two differ where the
requested bytes end exactly at the end of the file.
-/

set_option autoImplicit false

namespace ChlorosSnfs.Snfs.ReadEof

open ChlorosSnfs.Library.GrowingArray
open ChlorosSnfs.Snfs.Fhandledb
open ChlorosSnfs.Snfs.Messages
open ChlorosSnfs.Snfs.Syscalls
open ChlorosSnfs.Snfs.Handlers
open ChlorosSnfs.Snfs.HandlerEffects
open ChlorosSnfs.Snfs.RegularFiles

variable {Fs File : Type}

/-- What POSIX says of the calls of READ on a regular file where they
succeed. -/
structure OpensFiles (kernel : Kernel Fs) (view : FileView Fs File) : Prop where
  undisturbed : Undisturbed kernel view.served
  size : ∀ path fs file st after, view.names fs path = some (.regular file) →
    kernel (.stat path) fs = (.ok st, after) →
      st.size.toInt = (view.contents fs file).length
  opened : ∀ path fs file fd after, view.names fs path = some (.regular file) →
    kernel (.openFile path .rdonly) fs = (.ok fd, after) →
      view.cursor after fd = some ⟨file, .rdonly, 0⟩
  moved : ∀ fd offset fs after opened, view.cursor fs fd = some opened →
    kernel (.lseek fd offset) fs = (.ok offset, after) →
      view.cursor after fd = some { opened with position := offset.toInt.toNat }

/-- `read` transfers all there is, up to the count. -/
def ReadsFully (kernel : Kernel Fs) (view : FileView Fs File) (count : UInt64) :
    Prop :=
  ∀ fd fs file position data after,
    view.cursor fs fd = some ⟨file, .rdonly, position⟩ →
      kernel (.read fd count) fs = (.ok data, after) →
        data = segment position count.toNat (view.contents fs file)

/-- A READ reply as the comment of `handle_read` describes it. -/
structure AsDocumented (contents : Bytes) (offset count : Nat)
    (counted eof : UInt64) (data : Bytes) : Prop where
  bytes : data = segment offset count contents
  number : counted.toNat = data.length
  atEnd : eof ≠ 0 ↔ contents.length ≤ offset + count

/-! ## What is read -/

section Reading

variable {env : Env Fs} {view : FileView Fs File} {server moved : Server Fs}
  {fh : Fhandle} {path : CString} {file : File} {st : Stat} {fd : Nat}
  {offset : Int64} {count : UInt64}

theorem served_of_quiet (opens : OpensFiles env.kernel view)
    (looked : Looked env server moved) :
    view.names moved.fs = view.names server.fs ∧
      view.contents moved.fs = view.contents server.fs := by
  have served := looked.quiet.served_eq opens.undisturbed
  exact ⟨congrArg Prod.fst served, congrArg Prod.snd served⟩

/-- The descriptor of a READ stands at the offset in the file. -/
theorem placed_regular (opens : OpensFiles env.kernel view)
    (known : getFile server.db fh = some path.key)
    (regular : view.names server.fs path = some (.regular file))
    {asked : CString} {wanted : Int64} {given : UInt64}
    (placed : ReadPlaced env ⟨.ok fh, .ok offset, .ok count⟩ server moved asked
      st fd wanted given) :
    wanted = offset ∧ given = count ∧
      st.size.toInt = (view.contents server.fs file).length ∧
      view.cursor moved.fs fd = some ⟨file, .rdonly, offset.toInt.toNat⟩ := by
  obtain ⟨opened, isOpen, moves⟩ := placed.isOpen
  cases isOpen.offsetRead
  cases placed.countRead
  obtain ⟨found, isFound, openCalled⟩ := isOpen.opens
  obtain ⟨_, fhRead, stored⟩ := isFound.stored
  cases fhRead
  rw [storedPath, known, Option.bind_some, stringAt_key] at stored
  cases stored
  have statKernel := kernel_of_syscall isFound.stats
  obtain ⟨names, _⟩ := served_of_quiet opens isFound.looked
  rw [← names] at regular
  have atStart := opens.opened path found.fs file fd opened.fs regular
    (kernel_of_syscall openCalled)
  rw [names] at regular
  exact ⟨rfl, rfl, opens.size path server.fs file st found.fs regular statKernel,
    opens.moved fd offset opened.fs moved.fs _ atStart (kernel_of_syscall moves)⟩

end Reading

theorem toInt_toInt64 {count : UInt64} (small : count.toNat < 2 ^ 63) :
    count.toInt64.toInt = count.toNat := by
  have asWord : count.toInt64.toInt = count.toBitVec.toInt := rfl
  rw [asWord, BitVec.toInt_eq_toNat_of_lt, UInt64.toNat_toBitVec]
  rw [UInt64.toNat_toBitVec]
  omega

/-- The comparison of `eof`, where neither side is negative as an `ssize_t`. -/
theorem short_iff {length : Nat} {count : UInt64} (small : count.toNat < 2 ^ 63)
    (fewer : length ≤ count.toNat) :
    Int64.ofNat length < count.toInt64 ↔ length < count.toNat := by
  rw [Int64.lt_iff_toInt_lt, Int64.toInt_ofNat_of_lt (by omega),
    toInt_toInt64 small]
  omega

/-! ## The reply -/

section Replies

variable {kernel : Kernel Fs} {view : FileView Fs File} {leftover : Leftover}
  {server after : Server Fs} {fh : Fhandle} {path : CString} {file : File}
  {offset : Int64} {count counted eof : UInt64} {data : Bytes} {size : Nat}

/-- A READ that is not answered with an ERROR carries the bytes asked for. -/
theorem read_segment (opens : OpensFiles kernel view)
    (fully : ReadsFully kernel view count)
    (known : getFile server.db fh = some path.key)
    (regular : view.names server.fs path = some (.regular file))
    (nonnegative : 0 ≤ offset.toInt)
    (handled : handleRead ⟨kernel, leftover⟩ ⟨.ok fh, .ok offset, .ok count⟩
      server = .ok after)
    (replied : after.sent = (.read counted eof data, size) :: server.sent) :
    data = segment offset.toInt.toNat count.toNat
        (view.contents server.fs file) ∧
      counted = UInt64.ofNat data.length ∧
      eof = if Int64.ofNat data.length < count.toInt64 then 1 else 0 := by
  have notRefused : ¬ Refused ⟨kernel, leftover⟩ server after :=
    not_refused_of_reply replied rfl
  cases handleRead_ends handled with
  | missing missing => exact absurd missing.refused notRefused
  | openFails isFound called =>
      exact absurd ((isFound.looked.failed called).refused _) notRefused
  | @seekFails _ _ fd _ _ _ _ isOpen called _ =>
      exact absurd (((isOpen.looked.readOnly called rfl).refused _).closeFd fd)
        notRefused
  | @readFails _ _ fd _ _ _ _ _ placed _ called =>
      exact absurd (((placed.looked.failed called).refused _).closeFd fd)
        notRefused
  | @behind _ st fd wanted given moved placed outside =>
      obtain ⟨rfl, rfl, length, _⟩ := placed_regular opens known regular placed
      have sent : (handleRead.replyRead ⟨kernel, leftover⟩ fd given [] moved).sent =
          (.read 0 (if (0 : Int64) < given.toInt64 then 1 else 0) [], _) ::
            server.sent := congrArg (List.cons _) placed.looked.sent
      rw [sent] at replied
      cases replied
      refine ⟨?_, rfl, rfl⟩
      rw [Int64.lt_iff_toInt_lt, length] at outside
      exact (segment_eq_nil _ (by omega)).symm
  | @transferred _ st fd wanted given bytes moved last placed inside called =>
      obtain ⟨rfl, rfl, length, cursor⟩ := placed_regular opens known regular placed
      have read := kernel_of_syscall called
      have contents := (served_of_quiet opens placed.looked).2
      have all := fully fd moved.fs file _ bytes last.fs cursor read
      rw [contents] at all
      have looked := placed.looked.readOnly called rfl
      have sent : (handleRead.replyRead ⟨kernel, leftover⟩ fd given bytes
          last).sent = (.read (UInt64.ofNat bytes.length)
            (if Int64.ofNat bytes.length < given.toInt64 then 1 else 0) bytes, _) ::
            server.sent := congrArg (List.cons _) looked.sent
      rw [sent] at replied
      cases replied
      exact ⟨all, rfl, rfl⟩

/-- The bytes of a READ reply and their number are always right, and `eof` is
exactly when the request does not end where the file ends: the count is not the
number of bytes from the offset to the end, which is zero behind it. -/
theorem asDocumented_iff (opens : OpensFiles kernel view)
    (fully : ReadsFully kernel view count)
    (known : getFile server.db fh = some path.key)
    (regular : view.names server.fs path = some (.regular file))
    (nonnegative : 0 ≤ offset.toInt) (small : count.toNat < 2 ^ 63)
    (handled : handleRead ⟨kernel, leftover⟩ ⟨.ok fh, .ok offset, .ok count⟩
      server = .ok after)
    (replied : after.sent = (.read counted eof data, size) :: server.sent) :
    AsDocumented (view.contents server.fs file) offset.toInt.toNat count.toNat
        counted eof data ↔
      count.toNat ≠ (view.contents server.fs file).length -
        offset.toInt.toNat := by
  obtain ⟨bytes, number, isEof⟩ :=
    read_segment opens fully known regular nonnegative handled replied
  have length : data.length = min count.toNat
      ((view.contents server.fs file).length - offset.toInt.toNat) := by
    rw [bytes, segment_length]
  have short : eof ≠ 0 ↔ data.length < count.toNat := by
    rw [isEof, ← short_iff small (by omega)]
    split
    · rename_i less
      exact iff_of_true (by decide) less
    · rename_i notLess
      exact iff_of_false (by simp) notLess
  constructor
  · intro documented exact_
    have atEnd := documented.atEnd
    rw [short] at atEnd
    omega
  · intro apart
    refine ⟨bytes, ?_, ?_⟩
    · have fewer : data.length ≤ count.toNat := by omega
      rw [number]
      exact UInt64.toNat_ofNat_of_lt (fewer.trans_lt count.toNat_lt)
    · rw [short]
      omega

end Replies

/-! ## On a disk -/

theorem Disk.opensFiles : OpensFiles Disk.kernel Disk.view where
  undisturbed := Disk.undisturbed
  size := by
    intro path disk file st after regular called
    exact Disk.onFiles.size path disk file st regular (by rw [called])
  opened := by
    intro path disk file fd after regular called
    obtain ⟨number, opened, known, cursor⟩ :=
      Disk.onFiles.openFile path .rdonly disk file regular
    rw [known] at called
    cases called
    exact cursor
  moved := by
    intro number offset disk after opened cursor called
    have isFd : number = Disk.fd := by
      by_contra different
      rw [Disk.view] at cursor
      simp [different] at cursor
    cases performed : disk.perform (.lseek number offset) with
    | none =>
        rw [Disk.kernel_of_none performed] at called
        cases called
    | some outcome =>
        rw [Disk.kernel_of_perform performed] at called
        rw [Disk.perform, cursor] at performed
        simp only [Option.ite_none_right_eq_some, Option.some.injEq] at performed
        obtain ⟨_, rfl⟩ := performed
        cases called
        exact if_pos isFd

theorem Disk.readsFully (count : UInt64) :
    ReadsFully Disk.kernel Disk.view count := by
  intro number disk file position data after cursor called
  have performed : disk.perform (.read number count) =
      some (segment position count.toNat (disk.contents file).val,
        { disk with cursor := some ⟨file, .rdonly, position + count.toNat⟩ }) := by
    rw [Disk.perform, cursor]
  rw [Disk.kernel_of_perform performed] at called
  cases called
  rfl

/-- `/a` holds three bytes. -/
def threeBytes : Disk :=
  ⟨fun file => if file then ⟨[], Nat.two_pow_pos 63⟩
    else ⟨[104, 105, 33], by decide⟩, none⟩

def noMemory : Leftover := ⟨0, Fattr.zero, fun _ _ => 0, 0x800000⟩

/-- `/a` has handle 9. -/
def serverWithA : Server Disk :=
  ⟨threeBytes, paired emptyDb pathA 9, [], [], []⟩

theorem serverWithA_known : getFile serverWithA.db 9 = some pathA.key := rfl

theorem serverWithA_regular :
    Disk.view.names serverWithA.fs pathA = some (.regular false) := rfl

/-- One byte is read from the middle. -/
theorem asDocumented_iff_oneByte : ∃ after eof size,
    handleRead ⟨Disk.kernel, noMemory⟩ ⟨.ok 9, .ok 1, .ok 1⟩ serverWithA =
      .ok after ∧
      after.sent = [(.read 1 eof [105], size)] ∧
      AsDocumented [104, 105, 33] 1 1 1 eof [105] := by
  have nonnegative : 0 ≤ (1 : Int64).toInt := by decide
  have small : (1 : UInt64).toNat < 2 ^ 31 := by decide
  have smaller : (1 : UInt64).toNat < 2 ^ 63 := by decide
  obtain ⟨after, handled, ⟨eof, replied⟩, _⟩ := @handleRead_regular _ _
    ⟨Disk.kernel, noMemory⟩ _ _ _ _ _ Disk.onFiles serverWithA_known
    serverWithA_regular 1 1 nonnegative (by decide) small (by decide)
  obtain ⟨size, sent⟩ := replied.sent
  refine ⟨after, eof, size, handled, sent, ?_⟩
  exact (asDocumented_iff Disk.opensFiles (Disk.readsFully 1) serverWithA_known
    serverWithA_regular nonnegative smaller handled sent).mpr (by decide)

/-- The last two bytes are read, and `eof` says there are more. -/
theorem lastBytes_not_eof : ∃ after size,
    handleRead ⟨Disk.kernel, noMemory⟩ ⟨.ok 9, .ok 1, .ok 2⟩ serverWithA =
      .ok after ∧
      after.sent = [(.read 2 0 [105, 33], size)] ∧
      ¬ AsDocumented [104, 105, 33] 1 2 2 0 [105, 33] := by
  refine ⟨_, _, rfl, rfl, ?_⟩
  intro documented
  exact documented.atEnd.mpr (by decide) rfl

end ChlorosSnfs.Snfs.ReadEof
