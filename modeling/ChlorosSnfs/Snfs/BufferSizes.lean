import ChlorosSnfs.Snfs.Directories
import ChlorosSnfs.Snfs.ReadEof

/-!
# Arrays of a size the client chooses

`handle_read` and `handle_readdir` declare an array of `args->count` elements.
Its size in bytes is computed modulo 2^64, and so is the size of the reply.
-/

set_option autoImplicit false

namespace ChlorosSnfs.Snfs.BufferSizes

open ChlorosSnfs.Library.GrowingArray
open ChlorosSnfs.Snfs.Fhandledb
open ChlorosSnfs.Snfs.Messages
open ChlorosSnfs.Snfs.Syscalls
open ChlorosSnfs.Snfs.Handlers
open ChlorosSnfs.Snfs.HandlerEffects
open ChlorosSnfs.Snfs.HandlerStops
open ChlorosSnfs.Snfs.RegularFiles
open ChlorosSnfs.Snfs.ReadEof
open ChlorosSnfs.Snfs.Directories

variable {Fs File : Type}

/-! ## The sizes in the source -/

/-- `snfs_rep_size(read) + bytes_read`. -/
def readReplySize (bytesRead : UInt64) : UInt64 :=
  UInt64.ofNat (snfsRepSize sizeofReadRep) + bytesRead

/-- `snfs_rep_size(readdir) + sizeof(snfsentry) * entries_read`. -/
def readdirReplySize (entriesRead : UInt64) : UInt64 :=
  UInt64.ofNat (snfsRepSize sizeofReaddirRep) +
    UInt64.ofNat sizeofSnfsentry * entriesRead

/-- The most `read` transfers in one call on Linux. -/
def maxRwCount : Nat := 0x7ffff000

/-- The number of bytes `read` may store when so many are available. -/
def mayStore (count : UInt64) (available : Nat) : Nat :=
  min count.toNat (min available maxRwCount)

/-- The bytes of a READ fit into their buffer, and the size of the reply is the
one computed. -/
structure ReadRoom (count : UInt64) (available : Nat) : Prop where
  buffer : mayStore count available ≤ (readBufferSize count).toNat
  reply : ∀ bytesRead, bytesRead ≤ mayStore count available →
    (readReplySize (UInt64.ofNat bytesRead)).toNat =
      snfsRepSize sizeofReadRep + bytesRead

/-- The same for the entries of a READDIR. -/
structure ReaddirRoom (count : UInt64) (entries : Nat) : Prop where
  array : sizeofSnfsentry * min count.toNat entries ≤
    (entriesArraySize count).toNat
  reply : (readdirReplySize (UInt64.ofNat (min count.toNat entries))).toNat =
    snfsRepSize sizeofReaddirRep + sizeofSnfsentry * min count.toNat entries

/-! ## Sizes modulo 2^64 -/

theorem readReplySize_toNat {bytesRead : Nat} (small : bytesRead < 2 ^ 63) :
    (readReplySize (UInt64.ofNat bytesRead)).toNat =
      snfsRepSize sizeofReadRep + bytesRead := by
  have header : (UInt64.ofNat (snfsRepSize sizeofReadRep)).toNat = 20 := rfl
  have size : snfsRepSize sizeofReadRep = 20 := rfl
  rw [readReplySize, UInt64.toNat_add, header, UInt64.toNat_ofNat', size]
  omega

theorem readdirReplySize_toNat {entries : Nat}
    (small : 264 * entries + 12 < 2 ^ 64) :
    (readdirReplySize (UInt64.ofNat entries)).toNat =
      snfsRepSize sizeofReaddirRep + sizeofSnfsentry * entries := by
  have header : (UInt64.ofNat (snfsRepSize sizeofReaddirRep)).toNat = 12 := rfl
  have size : snfsRepSize sizeofReaddirRep = 12 := rfl
  have element : (UInt64.ofNat sizeofSnfsentry).toNat = 264 := rfl
  have elementSize : sizeofSnfsentry = 264 := rfl
  rw [readdirReplySize, UInt64.toNat_add, UInt64.toNat_mul, header, element,
    UInt64.toNat_ofNat', size, elementSize]
  omega

theorem readRoom_iff (count : UInt64) (available : Nat) :
    ReadRoom count available ↔ count.toNat < 2 ^ 61 ∨
      min available maxRwCount ≤ 8 * (count.toNat % 2 ^ 61) := by
  have limit : maxRwCount = 0x7ffff000 := rfl
  have bound := count.toNat_lt
  constructor
  · intro room
    have buffer := room.buffer
    rw [readBufferSize_toNat, mayStore] at buffer
    omega
  · intro enough
    refine ⟨?_, ?_⟩
    · rw [readBufferSize_toNat, mayStore]
      omega
    · intro bytesRead fewer
      apply readReplySize_toNat
      rw [mayStore] at fewer
      omega

theorem readdirRoom_iff (count : UInt64) (entries : Nat) :
    ReaddirRoom count entries ↔ count.toNat ≤ (2 ^ 64 - 1) / 264 ∨
      entries ≤ 264 * count.toNat % 2 ^ 64 / 264 := by
  have size : sizeofSnfsentry = 264 := rfl
  have bound := count.toNat_lt
  constructor
  · intro room
    have array := room.array
    rw [entriesArraySize_toNat, size] at array
    omega
  · intro enough
    refine ⟨?_, ?_⟩
    · rw [entriesArraySize_toNat, size]
      omega
    · apply readdirReplySize_toNat
      omega

/-! ## What the handlers store -/

/-- `read` transfers a part of what is there, no more than its limit. -/
def ReadsWithin (kernel : Kernel Fs) (view : FileView Fs File) : Prop :=
  ∀ fd count fs file position data after,
    view.cursor fs fd = some ⟨file, .rdonly, position⟩ →
      kernel (.read fd count) fs = (.ok data, after) →
        data.length ≤ mayStore count ((view.contents fs file).length - position)

/-- With enough room a READ stays inside its buffer and sends what it has
computed. -/
theorem read_within_buffer {kernel : Kernel Fs} {view : FileView Fs File}
    (opens : OpensFiles kernel view) (within : ReadsWithin kernel view)
    {leftover : Leftover} {server after : Server Fs} {fh : Fhandle}
    {path : CString} {file : File} {offset : Int64} {count : UInt64}
    (known : getFile server.db fh = some path.key)
    (regular : view.names server.fs path = some (.regular file))
    (handled : handleRead ⟨kernel, leftover⟩ ⟨.ok fh, .ok offset, .ok count⟩
      server = .ok after)
    {counted eof : UInt64} {data : Bytes} {size : Nat}
    {rest : List (Reply × Nat)}
    (replied : after.sent = (.read counted eof data, size) :: rest)
    (room : ReadRoom count
      ((view.contents server.fs file).length - offset.toInt.toNat)) :
    data.length ≤ (readBufferSize count).toNat ∧
      size = (readReplySize (UInt64.ofNat data.length)).toNat := by
  have stored : data.length ≤ mayStore count
      ((view.contents server.fs file).length - offset.toInt.toNat) ∧
      size = snfsRepSize sizeofReadRep + data.length := by
    cases handleRead_ends handled with
    | missing missing =>
        exact absurd missing.refused (not_refused_of_reply replied rfl)
    | openFails _ _ => cases replied
    | seekFails _ _ _ => cases replied
    | readFails _ _ _ => cases replied
    | behind _ _ =>
        cases replied
        exact ⟨Nat.zero_le _, rfl⟩
    | transferred placed inside called =>
        obtain ⟨rfl, rfl, _, cursor⟩ := placed_regular opens known regular placed
        have bytes := within _ _ _ _ _ _ _ cursor (kernel_of_syscall called)
        rw [(served_of_quiet opens placed.looked).2] at bytes
        cases replied
        exact ⟨bytes, rfl⟩
  obtain ⟨fewer, sizeExact⟩ := stored
  exact ⟨fewer.trans room.buffer,
    sizeExact.trans (room.reply data.length fewer).symm⟩

/-- With enough room a READDIR stays inside its array and sends what it has
computed. -/
theorem readdir_within_array {env : Env Fs} {view : DirView Fs}
    (lists : ListsEntries env.kernel view) {server after : Server Fs}
    {dir : Fhandle} {dirPath : CString} {entries : List Dirent} {count : UInt64}
    (stored : storedPath server.db dir = some dirPath)
    (directory : view.entries server.fs dirPath = some entries)
    (handled : handleReaddir env ⟨.ok dir, .ok count⟩ server = .ok after)
    {number : UInt64} {sent : List Snfsentry} {size : Nat}
    {rest : List (Reply × Nat)}
    (replied : after.sent = (.readdir number sent, size) :: rest)
    (room : ReaddirRoom count entries.length) :
    sizeofSnfsentry * sent.length ≤ (entriesArraySize count).toNat ∧
      size = (readdirReplySize (UInt64.ofNat sent.length)).toNat := by
  obtain ⟨shows, _, sizeExact⟩ := handleReaddir_shows lists rfl rfl stored
    directory handled replied
  have length : sent.length = min count.toNat entries.length := by
    rw [← shows.length_eq, List.length_take]
  rw [sizeExact, length]
  exact ⟨room.array, room.reply.symm⟩

/-! ## The arrays are not left -/

/-- With enough room, and a stack for the buffer, a READ does not leave it. -/
theorem not_readOverruns {env : Env Fs} {view : FileView Fs File}
    (opens : OpensFiles env.kernel view) (within : ReadsWithin env.kernel view)
    {server : Server Fs} {fh : Fhandle} {path : CString} {file : File}
    {offset : Int64} {count : UInt64} (known : getFile server.db fh = some path.key)
    (regular : view.names server.fs path = some (.regular file))
    (room : ReadRoom count
      ((view.contents server.fs file).length - offset.toInt.toNat))
    (stack : (readBufferSize count).toNat ≤ env.leftover.stack) :
    ¬ ReadOverruns env ⟨.ok fh, .ok offset, .ok count⟩ server := by
  rintro ⟨asked, st, fd, wanted, given, moved, placed, behind⟩
  obtain ⟨rfl, rfl, _, cursor⟩ := placed_regular opens known regular placed
  rcases behind with larger | ⟨data, _, called, longer⟩
  · omega
  · have bytes := within fd given moved.fs file _ data _ cursor
      (Prod.ext called rfl)
    rw [(served_of_quiet opens placed.looked).2] at bytes
    have buffer := room.buffer
    omega

theorem entriesGiven_le {kernel : Kernel Fs} {view : DirView Fs}
    (lists : ListsEntries kernel view) {dir room : Nat} {fs : Fs}
    {entries : List Dirent} (remaining : view.remaining fs dir = some entries) :
    entriesGiven kernel dir room fs ≤ min room entries.length := by
  induction room generalizing fs entries with
  | zero => simp [entriesGiven]
  | succ room inductionHypothesis =>
      rw [entriesGiven]
      split
      · rename_i entry after called
        cases entries with
        | nil => cases lists.finished dir fs _ after remaining called
        | cons first rest =>
            have left := (lists.next dir fs first rest _ after remaining called).2
            have fewer := inductionHypothesis left
            rw [List.length_cons]
            omega
      · exact Nat.zero_le _

/-- With enough room, and a stack for the array, a READDIR does not leave it. -/
theorem not_readdirOverruns {env : Env Fs} {view : DirView Fs}
    (lists : ListsEntries env.kernel view) {server : Server Fs} {dir : Fhandle}
    {dirPath : CString} {entries : List Dirent} {count : UInt64}
    (stored : storedPath server.db dir = some dirPath)
    (directory : view.entries server.fs dirPath = some entries)
    (room : ReaddirRoom count entries.length)
    (stack : (entriesArraySize count).toNat ≤ env.leftover.stack) :
    ¬ ReaddirOverruns env ⟨.ok dir, .ok count⟩ server := by
  rintro ⟨path, stream, given, opened, isOpen, behind⟩
  cases isOpen.countRead
  have remaining := remaining_of_opened lists rfl stored directory isOpen
  rcases behind with larger | longer
  · omega
  · have given := @entriesGiven_le _ _ _ lists stream count.toNat _ _ remaining
    have array := room.array
    have size : sizeofSnfsentry = 264 := rfl
    rw [size] at longer array
    omega

/-! ## The exact condition -/

/-- The buffer of a READ holds what `read` may store exactly when the count is
below 2^61 or its low 61 bits are at least an eighth of the bytes there are to
store; the array of a READDIR holds its entries exactly when its size does not
wrap or there are no more entries than fit into what is left of it. -/
theorem rooms_iff (count : UInt64) (available entries : Nat) :
    (ReadRoom count available ↔ count.toNat < 2 ^ 61 ∨
      min available maxRwCount ≤ 8 * (count.toNat % 2 ^ 61)) ∧
    (ReaddirRoom count entries ↔ count.toNat ≤ (2 ^ 64 - 1) / 264 ∨
      entries ≤ 264 * count.toNat % 2 ^ 64 / 264) :=
  ⟨readRoom_iff count available, readdirRoom_iff count entries⟩

/-- 2^61 pointers take no bytes, and one entry more than fit into 2^64 bytes
take 248. -/
theorem wrapped_sizes_too_small :
    (readBufferSize 0x2000000000000000 = 0 ∧
      ¬ ReadRoom 0x2000000000000000 1) ∧
    (entriesArraySize 69874030582233151 = 248 ∧
      ¬ ReaddirRoom 69874030582233151 1) := by
  refine ⟨⟨by decide, ?_⟩, by decide, ?_⟩
  · intro room
    exact absurd room.buffer (by decide)
  · intro room
    exact absurd room.array (by decide)

end ChlorosSnfs.Snfs.BufferSizes
