import ChlorosSnfs.Snfs.RoundTrip

/-!
# Leftover memory in replies

Two runs of a handler that differ in memory nobody has written should send the
same bytes.  On Linux `stat_to_fattr` leaves the microseconds of the `fattr` on
the stack of `handle_getattr` as they are, and `handle_readdir` copies 255 bytes
of `d_name` whatever the length of the name, so these two do not.
-/

set_option autoImplicit false

namespace ChlorosSnfs.Snfs.Disclosure

open ChlorosSnfs.Library.StructLayout
open ChlorosSnfs.Snfs.Fhandledb
open ChlorosSnfs.Snfs.Messages
open ChlorosSnfs.Snfs.Syscalls
open ChlorosSnfs.Snfs.Handlers
open ChlorosSnfs.Snfs.ServeLoop
open ChlorosSnfs.Snfs.HandlerEffects
open ChlorosSnfs.Snfs.HandlerReplies
open ChlorosSnfs.Snfs.HandlerStops
open ChlorosSnfs.Snfs.MessageBounds
  (directoryStat getFile_mountedWith mountedWith permissive)
open ChlorosSnfs.Snfs.Client
open ChlorosSnfs.Snfs.Wire
open ChlorosSnfs.Snfs.RoundTrip

variable {Fs : Type}

/-! ## The bytes of a reply -/

/-- Memory of the server that differs between two runs: what the handlers read
without having written it, what fills the padding of the reply and what lies
behind it. -/
structure Memory where
  leftover : Leftover
  gap : Nat → UInt8
  rest : Bytes

/-- The reply the server sends last. -/
def lastSent (memory : Memory) (server : Server Fs) : Option Bytes :=
  server.sent.head?.map fun sent =>
    Reply.sent memory.gap memory.rest sent.1 sent.2

/-- The bytes sent in reply to a message; `none` if its handler stops. -/
def replyBytes (kernel : Kernel Fs) (memory : Memory) (message : Bytes)
    (server : Server Fs) : Option Bytes :=
  match serve ⟨kernel, memory.leftover⟩ message server with
  | .ok next => lastSent memory next
  | .error _ => none

/-- No byte of the reply depends on the memory.  The runs agree on the heap
behind the values of the database and on how much of the stack is left. -/
def RepliesAlike (kernel : Kernel Fs) (message : Bytes) (server : Server Fs) :
    Prop :=
  ∀ first second : Memory, first.leftover.word = second.leftover.word →
    first.leftover.stack = second.leftover.stack →
    replyBytes kernel first message server =
      replyBytes kernel second message server

/-! ## Requests whose reply discloses memory -/

/-- A GETATTR whose `stat` succeeds. -/
def GetattrFinds (kernel : Kernel Fs) (args : GetattrArgs) (server : Server Fs) :
    Prop :=
  ∃ fh filePath st, args.fh = .ok fh ∧
    storedPath server.db fh = some filePath ∧
    (kernel (.stat filePath) server.fs).1 = .ok st

/-- The entries that `readdir` gives, one more than there is room for not
included; `none` for an error. -/
def listing (kernel : Kernel Fs) (dir : Nat) : Nat → Fs → Option (List Dirent)
  | 0, fs =>
      match kernel (.readdir dir) fs with
      | (.error _, _) => none
      | (.ok _, _) => some []
  | room + 1, fs =>
      match kernel (.readdir dir) fs with
      | (.error _, _) => none
      | (.ok none, _) => some []
      | (.ok (some entry), fs) =>
          (listing kernel dir room fs).map (entry :: ·)

/-- The 255 bytes from where the name lies go beyond its NUL. -/
def Dirent.short (entry : Dirent) : Prop :=
  entry.name.bytes.length + 1 < snfsMaxFilenameLength

def ShortIn (entries : Option (List Dirent)) : Prop :=
  ∃ list, entries = some list ∧ ∃ entry ∈ list, Dirent.short entry

/-- A READDIR that, with enough of the stack left, comes to its reply with a short
name in it. -/
def ReaddirLists (kernel : Kernel Fs) (args : ReaddirArgs) (server : Server Fs) :
    Prop :=
  ∃ dir dirPath st fs stream streamFs count, args.dir = .ok dir ∧
    storedPath server.db dir = some dirPath ∧
    kernel (.stat dirPath) server.fs = (.ok st, fs) ∧
    sIsdir st.mode = true ∧
    kernel (.opendir dirPath) fs = (.ok stream, streamFs) ∧
    args.count = .ok count ∧
    sizeofSnfsentry * entriesGiven kernel stream count.toNat streamFs ≤
      (entriesArraySize count).toNat ∧
    ShortIn (listing kernel stream count.toNat streamFs)

def Discloses (kernel : Kernel Fs) (message : Bytes) (server : Server Fs) :
    Prop :=
  (messageType message = .ok .getattr ∧
    GetattrFinds kernel (getattrArgs message) server) ∨
  (messageType message = .ok .readdir ∧
    ReaddirLists kernel (readdirArgs message) server)

/-! ## Copied names -/

theorem toSnfsentry_eq_of_not_short {entry : Dirent} (long : ¬ Dirent.short entry)
    (first second : Nat → UInt8) :
    toSnfsentry entry first = toSnfsentry entry second := by
  have same : copyBytes entry.name first snfsMaxFilenameLength =
      copyBytes entry.name second snfsMaxFilenameLength := by
    rw [copyBytes_eq_iff]
    intro index behind
    rw [Dirent.short] at long
    rw [key_length] at behind
    omega
  rw [toSnfsentry, toSnfsentry, same]

theorem toSnfsentry_ne_of_short {entry : Dirent} (short : Dirent.short entry) :
    toSnfsentry entry (fun _ => 0) ≠ toSnfsentry entry fun _ => 1 := by
  intro same
  have names := (Snfsentry.mk.inj same).2
  rw [List.append_cancel_right_eq, copyBytes_eq_iff] at names
  rw [Dirent.short] at short
  have zeroOne : (0 : UInt8) = 1 := by
    apply names 0
    rw [key_length]
    omega
  exact absurd zeroOne (by decide)

/-! ## The loop over a directory -/

section ReadEntries

variable {kernel : Kernel Fs} {dir : Nat}

theorem listing_of_error {room : Nat} {fs after : Fs} {errno : Errno}
    (called : kernel (.readdir dir) fs = (.error errno, after)) :
    listing kernel dir room fs = none := by
  cases room <;> rw [listing, called]

theorem listing_of_end {room : Nat} {fs after : Fs}
    (called : kernel (.readdir dir) fs = (.ok none, after)) :
    listing kernel dir room fs = some [] := by
  cases room <;> rw [listing, called]

theorem listing_full {fs after : Fs} {entry : Option Dirent}
    (called : kernel (.readdir dir) fs = (.ok entry, after)) :
    listing kernel dir 0 fs = some [] := by
  rw [listing, called]

theorem listing_of_call {fs after : Fs} {entry : Dirent} (room : Nat)
    (called : kernel (.readdir dir) fs = (.ok (some entry), after)) :
    listing kernel dir (room + 1) fs =
      (listing kernel dir room after).map (entry :: ·) := by
  rw [listing, called]

/-- The loop comes to its end when `readdir` does. -/
theorem listing_of_readEntries {leftover : Leftover} {arraySize room index : Nat}
    {server after : Server Fs} {entries : List Snfsentry}
    (read : readEntries ⟨kernel, leftover⟩ dir arraySize room index server =
      .ok (.ok entries, after)) :
    ∃ list, listing kernel dir room server.fs = some list := by
  induction room generalizing index server after entries with
  | zero =>
      rw [readEntries] at read
      split at read
      · cases read
      · rename_i called
        exact ⟨[], listing_of_end (kernel_of_syscall called)⟩
      · rename_i called
        exact ⟨[], listing_full (kernel_of_syscall called)⟩
  | succ room inductionHypothesis =>
      rw [readEntries] at read
      split at read
      · cases read
      · rename_i called
        exact ⟨[], listing_of_end (kernel_of_syscall called)⟩
      · rename_i entry _ called
        simp only [bind_eq_ok] at read
        obtain ⟨_, _, ⟨rest, last⟩, calledRest, joined⟩ := read
        obtain ⟨sent, _⟩ := Prod.mk.inj (pure_eq_ok.mp joined)
        obtain ⟨tail, rfl, _⟩ := map_eq_ok.mp sent
        obtain ⟨list, listed⟩ := inductionHypothesis calledRest
        refine ⟨entry :: list, ?_⟩
        rw [listing_of_call room (kernel_of_syscall called), listed]
        rfl

theorem ShortIn.cons {entry : Dirent} {tail : Option (List Dirent)}
    (short : ShortIn tail) : ShortIn (tail.map (entry :: ·)) := by
  obtain ⟨list, rfl, other, member, isShort⟩ := short
  exact ⟨entry :: list, rfl, other, List.mem_cons_of_mem _ member, isShort⟩

/-- The entries depend on the memory only through short names, and the calls do
not depend on it at all. -/
theorem readEntries_alike {first second : Leftover} {arraySize room index : Nat}
    {server : Server Fs} (long : ¬ ShortIn (listing kernel dir room server.fs)) :
    readEntries ⟨kernel, first⟩ dir arraySize room index server =
      readEntries ⟨kernel, second⟩ dir arraySize room index server := by
  induction room generalizing index server with
  | zero =>
      rw [readEntries, readEntries]
      rfl
  | succ room inductionHypothesis =>
      have sameCall : syscall ⟨kernel, first⟩ (.readdir dir) server =
          syscall ⟨kernel, second⟩ (.readdir dir) server := rfl
      rw [readEntries, readEntries, sameCall]
      split
      · rfl
      · rfl
      · rename_i entry after called
        have step := listing_of_call room (kernel_of_syscall called)
        simp only at step
        rw [step] at long
        have tailLong : ¬ ShortIn (listing kernel dir room after.fs) :=
          fun short => long short.cons
        dsimp only
        rw [inductionHypothesis tailLong]
        cases rest : readEntries ⟨kernel, second⟩ dir arraySize room (index + 1)
            after with
        | error stop => rfl
        | ok result =>
            obtain ⟨entries, last⟩ := result
            cases entries with
            | error errno => rfl
            | ok list =>
                obtain ⟨listed, isListed⟩ := listing_of_readEntries rest
                have longName : ¬ Dirent.short entry := by
                  intro short
                  rw [isListed] at long
                  exact long
                    ⟨entry :: listed, rfl, entry, List.mem_cons_self, short⟩
                rw [toSnfsentry_eq_of_not_short longName _ (second.afterName index)]

/-- With the same byte behind every NUL and room for them the entries are those
listed. -/
theorem readEntries_of_listing (word : Fhandle) (fattr : Fattr) (byte : UInt8)
    (stack : Nat) {arraySize room : Nat} (index : Nat) {server : Server Fs}
    {entries : List Dirent}
    (fits : sizeofSnfsentry *
      (index + entriesGiven kernel dir room server.fs) ≤ arraySize)
    (listed : listing kernel dir room server.fs = some entries) :
    ∃ after, readEntries ⟨kernel, ⟨word, fattr, fun _ _ => byte, stack⟩⟩ dir
        arraySize room index server =
      .ok (.ok (entries.map fun entry => toSnfsentry entry fun _ => byte),
        after) := by
  induction room generalizing index server entries with
  | zero =>
      cases called : syscall ⟨kernel, ⟨word, fattr, fun _ _ => byte, stack⟩⟩
          (.readdir dir) server with
      | mk outcome after =>
          cases outcome with
          | error errno =>
              rw [listing_of_error (kernel_of_syscall called)] at listed
              cases listed
          | ok found =>
              rw [listing_full (kernel_of_syscall called)] at listed
              cases listed
              rw [readEntries, called]
              cases found <;> exact ⟨after, rfl⟩
  | succ room inductionHypothesis =>
      cases called : syscall ⟨kernel, ⟨word, fattr, fun _ _ => byte, stack⟩⟩
          (.readdir dir) server with
      | mk outcome after =>
          cases outcome with
          | error errno =>
              rw [listing_of_error (kernel_of_syscall called)] at listed
              cases listed
          | ok found =>
              rw [readEntries, called]
              cases found with
              | none =>
                  rw [listing_of_end (kernel_of_syscall called)] at listed
                  cases listed
                  exact ⟨after, rfl⟩
              | some entry =>
                  rw [listing_of_call room (kernel_of_syscall called)] at listed
                  obtain ⟨tail, tailListed, rfl⟩ :=
                    Option.map_eq_some_iff.mp listed
                  rw [entriesGiven_of_entry called, ← Nat.add_assoc, Nat.add_right_comm] at fits
                  obtain ⟨last, rest⟩ :=
                    inductionHypothesis (index + 1) fits tailListed
                  have next : sizeofSnfsentry * (index + 1) ≤ arraySize :=
                    (Nat.mul_le_mul_left _ (Nat.le_add_right _ _)).trans fits
                  refine ⟨last, ?_⟩
                  simp only [withinRoom_of_le next, ok_bind, rest, List.map_cons]
                  rfl

/-- Where the entries do not fit into the array, no memory lets the loop end. -/
theorem readEntries_alike_of_fits {first second : Leftover} {arraySize room : Nat}
    {server : Server Fs}
    (long : sizeofSnfsentry * entriesGiven kernel dir room server.fs ≤ arraySize →
      ¬ ShortIn (listing kernel dir room server.fs)) :
    readEntries ⟨kernel, first⟩ dir arraySize room 0 server =
      readEntries ⟨kernel, second⟩ dir arraySize room 0 server := by
  by_cases fits :
      sizeofSnfsentry * entriesGiven kernel dir room server.fs ≤ arraySize
  · exact readEntries_alike (long fits)
  · have behind : arraySize < sizeofSnfsentry *
        (0 + entriesGiven kernel dir room server.fs) := by
      rw [Nat.zero_add]
      exact Nat.lt_of_not_le fits
    rw [readEntries_of_overrun (Nat.zero_le _) behind,
      readEntries_of_overrun (Nat.zero_le _) behind]

end ReadEntries

/-! ## The two handlers -/

section Handlers

variable {kernel : Kernel Fs} {server : Server Fs}

theorem exists_syscall_of_kernel (leftover : Leftover) {call : Call} {fs : Fs}
    {outcome : Outcome call} (called : kernel call server.fs = (outcome, fs)) :
    ∃ after : Server Fs,
      syscall ⟨kernel, leftover⟩ call server = (outcome, after) ∧
        after.fs = fs := by
  refine ⟨{ server with fs, opened := openedAfter server.opened call outcome },
    ?_, rfl⟩
  simp only [syscall, called]

theorem handleGetattr_alike {args : GetattrArgs} {first second : Leftover}
    (missing : ¬ GetattrFinds kernel args server) :
    handleGetattr ⟨kernel, first⟩ args server =
      handleGetattr ⟨kernel, second⟩ args server := by
  cases fhRead : args.fh with
  | error stop => simp only [handleGetattr, fhRead]; rfl
  | ok fh =>
      cases known : getFile server.db fh with
      | none => simp only [handleGetattr, fhRead, ok_bind, known]
      | some value =>
          cases string : asString value with
          | error stop => simp only [handleGetattr, fhRead, ok_bind, known, string]; rfl
          | ok filePath =>
              have sameCall : syscall ⟨kernel, first⟩ (.stat filePath) server =
                  syscall ⟨kernel, second⟩ (.stat filePath) server := rfl
              simp only [handleGetattr, fhRead, ok_bind, known, string, sameCall]
              split
              · rfl
              · rename_i st _ called
                exact absurd ⟨fh, filePath, st, fhRead,
                  storedPath_eq_some known string,
                  congrArg Prod.fst (kernel_of_syscall called)⟩ missing

theorem handleGetattr_finds {args : GetattrArgs}
    (finds : GetattrFinds kernel args server) :
    ∃ st, ∀ leftover, ∃ after : Server Fs,
      handleGetattr ⟨kernel, leftover⟩ args server =
        .ok (sendReply (.getattr (statToFattr st leftover.fattr))
          (snfsRepSize sizeofGetattrRep) after) := by
  obtain ⟨fh, filePath, st, fhRead, stored, found⟩ := finds
  obtain ⟨value, known, string⟩ := Option.bind_eq_some_iff.mp stored
  refine ⟨st, ?_⟩
  intro leftover
  obtain ⟨after, called, _⟩ := exists_syscall_of_kernel leftover
    (Prod.ext found rfl : kernel (.stat filePath) server.fs = (.ok st, _))
  refine ⟨after, ?_⟩
  simp only [handleGetattr, fhRead, ok_bind, known, asString, string, called]
  rfl

theorem handleReaddir_alike {args : ReaddirArgs} {first second : Leftover}
    (sameStack : first.stack = second.stack)
    (long : ¬ ReaddirLists kernel args server) :
    handleReaddir ⟨kernel, first⟩ args server =
      handleReaddir ⟨kernel, second⟩ args server := by
  cases dirRead : args.dir with
  | error stop => simp only [handleReaddir, dirRead]; rfl
  | ok dir =>
      cases known : getFile server.db dir with
      | none => simp only [handleReaddir, dirRead, ok_bind, known]
      | some value =>
          cases string : asString value with
          | error stop =>
              simp only [handleReaddir, dirRead, ok_bind, known, string]
              rfl
          | ok dirPath =>
              have sameStat : syscall ⟨kernel, first⟩ (.stat dirPath) server =
                  syscall ⟨kernel, second⟩ (.stat dirPath) server := rfl
              simp only [handleReaddir, dirRead, ok_bind, known, string, sameStat]
              split
              · rfl
              · rename_i st looked found
                split
                · rfl
                · rename_i directory
                  rw [Bool.not_eq_true', Bool.not_eq_false] at directory
                  have sameOpen :
                      syscall ⟨kernel, first⟩ (.opendir dirPath) looked =
                        syscall ⟨kernel, second⟩ (.opendir dirPath) looked := rfl
                  rw [sameOpen]
                  split
                  · rfl
                  · rename_i stream streaming opened
                    cases countRead : args.count with
                    | error stop => rfl
                    | ok count =>
                        have isListed : sizeofSnfsentry * entriesGiven kernel
                              stream count.toNat streaming.fs ≤
                                (entriesArraySize count).toNat →
                            ¬ ShortIn (listing kernel stream count.toNat
                              streaming.fs) :=
                          fun fits short => long ⟨dir, dirPath, st, looked.fs,
                            stream, streaming.fs, count, dirRead,
                            storedPath_eq_some known string,
                            kernel_of_syscall found, directory,
                            kernel_of_syscall opened, countRead, fits, short⟩
                        simp only [ok_bind, sameStack]
                        rw [readEntries_alike_of_fits isListed]

/-- The reply with the same byte behind the NUL of every name. -/
def listedReply (entries : List Dirent) (byte : UInt8) : Reply :=
  .readdir (UInt64.ofNat entries.length)
    (entries.map fun entry => toSnfsentry entry fun _ => byte)

theorem handleReaddir_lists {args : ReaddirArgs}
    (lists : ReaddirLists kernel args server) :
    ∃ (entries : List Dirent) (stack : Nat),
      (∃ entry ∈ entries, Dirent.short entry) ∧
      ∀ word fattr byte, ∃ after : Server Fs,
        handleReaddir ⟨kernel, ⟨word, fattr, fun _ _ => byte, stack⟩⟩ args server =
          .ok (sendReply (listedReply entries byte)
            (Reply.size (listedReply entries byte)) after) := by
  obtain ⟨dir, dirPath, st, fs, stream, streamFs, count, dirRead, stored, found,
    directory, opened, countRead, fits, entries, listed, short⟩ := lists
  obtain ⟨value, known, string⟩ := Option.bind_eq_some_iff.mp stored
  refine ⟨entries, (entriesArraySize count).toNat, short, ?_⟩
  intro word fattr byte
  obtain ⟨looked, statCalled, rfl⟩ := exists_syscall_of_kernel
    ⟨word, fattr, fun _ _ => byte, (entriesArraySize count).toNat⟩ found
  obtain ⟨streaming, openCalled, rfl⟩ := exists_syscall_of_kernel
    ⟨word, fattr, fun _ _ => byte, (entriesArraySize count).toNat⟩ opened
  rw [← Nat.zero_add (entriesGiven kernel stream _ _)] at fits
  obtain ⟨after, read⟩ := readEntries_of_listing word fattr byte
    (entriesArraySize count).toNat 0 fits listed
  refine ⟨after, ?_⟩
  simp only [handleReaddir, dirRead, ok_bind, known, asString, string,
    statCalled, directory, Bool.not_true, Bool.false_eq_true, if_false,
    openCalled, countRead, withinRoom_of_le (Nat.le_refl _), read, listedReply,
    Reply.size, Reply.payload, List.length_map]
  rfl

end Handlers

/-! ## Two runs -/

/-- No reply has padding. -/
theorem repStruct_gapless (type : MsgType) : (repStruct type).Gapless := by
  cases type with
  | other word =>
      have nothing : (repStruct .noop).Gapless := rfl
      exact nothing
  | _ => rfl

theorem Reply.sent_alike (first second : Memory) {reply : Reply}
    (whole : Reply.Whole reply) :
    Reply.sent first.gap first.rest reply (Reply.size reply) =
      Reply.sent second.gap second.rest reply (Reply.size reply) := by
  have fills := Reply.members_fill reply
  have gapless := repStruct_gapless (Reply.type reply)
  rw [Reply.sent_whole _ _ whole, Reply.sent_whole _ _ whole,
    Struct.place_of_gapless fills gapless, Struct.place_of_gapless fills gapless]

section Runs

variable {kernel : Kernel Fs} {message : Bytes} {server : Server Fs}

theorem lastSent_alike {env : Env Fs} {next : Server Fs} (first second : Memory)
    (served : serve env message server = .ok next) :
    lastSent first next = lastSent second next := by
  obtain ⟨word, _, handled⟩ := bind_eq_ok.mp served
  obtain ⟨held, replied, _⟩ := dispatch_replied handled
  obtain ⟨reply, size, sent, fits⟩ := replied.sent
  rw [fits.size_eq] at sent
  rw [lastSent, lastSent, sent]
  exact congrArg some (Reply.sent_alike first second fits.whole)

/-- All other handlers use nothing of the memory but the heap. -/
theorem serve_alike {first second : Leftover} (heap : first.word = second.word)
    (stack : first.stack = second.stack)
    (silent : ¬ Discloses kernel message server) :
    serve ⟨kernel, first⟩ message server =
      serve ⟨kernel, second⟩ message server := by
  cases named : messageType message with
  | error stop =>
      cases read : readWord message 0 sizeofSnfsMsgType with
      | error stop =>
          rw [serve, serve, read]
          rfl
      | ok word =>
          rw [messageType, read] at named
          cases named
  | ok type =>
      rw [serve_of_messageType named, serve_of_messageType named]
      obtain ⟨word, firstFattr, firstAfterName, room⟩ := first
      obtain ⟨otherWord, secondFattr, secondAfterName, otherRoom⟩ := second
      cases heap
      cases stack
      cases type with
      | getattr =>
          exact handleGetattr_alike fun finds => silent (Or.inl ⟨named, finds⟩)
      | readdir =>
          exact handleReaddir_alike rfl
            fun lists => silent (Or.inr ⟨named, lists⟩)
      | _ => rfl

/-! Memory that differs in the microseconds of a time, or behind every name. -/

def memoryWith (useconds : Int64) (byte : UInt8) (stack : Nat) : Memory where
  leftover :=
    ⟨0, { Fattr.zero with atime := ⟨0, useconds⟩ }, fun _ _ => byte, stack⟩
  gap := noGap
  rest := []

theorem replyBytes_of_dispatch {memory : Memory} {type : MsgType}
    {before after : Server Fs} {reply : Reply} {size : Nat}
    (named : messageType message = .ok type)
    (handled : dispatch ⟨kernel, memory.leftover⟩ message before type =
      .ok (sendReply reply size after)) :
    replyBytes kernel memory message before =
      some (Reply.sent memory.gap memory.rest reply size) := by
  rw [replyBytes, serve_of_messageType named, handled]
  rfl

theorem getattr_not_alike (named : messageType message = .ok .getattr)
    (finds : GetattrFinds kernel (getattrArgs message) server) :
    ¬ RepliesAlike kernel message server := by
  intro alike
  obtain ⟨st, replies⟩ := handleGetattr_finds finds
  have same := alike (memoryWith 0 0 0) (memoryWith 1 0 0) rfl rfl
  obtain ⟨_, first⟩ := replies (memoryWith 0 0 0).leftover
  obtain ⟨_, second⟩ := replies (memoryWith 1 0 0).leftover
  rw [replyBytes_of_dispatch named first, replyBytes_of_dispatch named second]
    at same
  have replySame : Reply.getattr (statToFattr st (memoryWith 0 0 0).leftover.fattr) =
      .getattr (statToFattr st (memoryWith 1 0 0).leftover.fattr) :=
    Reply.sent_injective trivial trivial trivial trivial (Option.some.inj same)
  have zeroOne : (0 : Int64) = 1 :=
    congrArg (fun attr : Fattr => attr.atime.useconds) (Reply.getattr.inj replySame)
  exact absurd zeroOne (by decide)

theorem listedReply_whole (entries : List Dirent) (byte : UInt8) :
    Reply.Whole (listedReply entries byte) := by
  intro entry member
  obtain ⟨_, _, rfl⟩ := List.mem_map.mp member
  exact toSnfsentry_whole _ _

theorem readdir_not_alike (named : messageType message = .ok .readdir)
    (lists : ReaddirLists kernel (readdirArgs message) server) :
    ¬ RepliesAlike kernel message server := by
  intro alike
  obtain ⟨entries, stack, ⟨entry, member, short⟩, replies⟩ := handleReaddir_lists lists
  have same := alike (memoryWith 0 0 stack) (memoryWith 0 1 stack) rfl rfl
  obtain ⟨_, first⟩ := replies 0 (memoryWith 0 0 stack).leftover.fattr 0
  obtain ⟨_, second⟩ := replies 0 (memoryWith 0 1 stack).leftover.fattr 1
  have firstBytes : replyBytes kernel (memoryWith 0 0 stack) message server = some _ :=
    replyBytes_of_dispatch named first
  have secondBytes : replyBytes kernel (memoryWith 0 1 stack) message server = some _ :=
    replyBytes_of_dispatch named second
  rw [firstBytes, secondBytes] at same
  obtain ⟨_, _, arrays⟩ := Reply.parts_of_sent_eq (listedReply_whole entries 0)
    (listedReply_whole entries 1) (Option.some.inj same)
  have sameEntries := entries_injective (listedReply_whole entries 0)
    (listedReply_whole entries 1) (by simp) arrays
  exact toSnfsentry_ne_of_short short
    (List.map_inj_left.mp sameEntries entry member)

/-- The reply to a request is the same whatever the memory holds exactly when it
is neither a GETATTR whose `stat` succeeds nor a READDIR that lists a name
shorter than 254 bytes in an array that holds its entries. -/
theorem replies_alike_iff (kernel : Kernel Fs) (message : Bytes)
    (server : Server Fs) :
    RepliesAlike kernel message server ↔ ¬ Discloses kernel message server := by
  constructor
  · rintro alike (⟨named, finds⟩ | ⟨named, lists⟩)
    · exact getattr_not_alike named finds alike
    · exact readdir_not_alike named lists alike
  · intro silent first second heap stack
    rw [replyBytes, replyBytes, serve_alike heap stack silent]
    split
    · rename_i served
      exact lastSent_alike first second served
    · rfl

end Runs

/-- A GETATTR of the handle 5. -/
def getattrMessage : Bytes := [2, 0, 0, 0, 5, 0, 0, 0, 0, 0, 0, 0]

/-- The attributes of the root of a mounted server come with leftover memory. -/
theorem getattr_discloses_memory :
    ¬ RepliesAlike permissive getattrMessage (mountedWith 5) := by
  have stored : storedPath (mountedWith 5).db 5 = some rootPath := by
    rw [storedPath, getFile_mountedWith, Option.bind_some, stringAt_key]
  exact getattr_not_alike rfl ⟨5, rootPath, directoryStat, rfl, stored, rfl⟩

end ChlorosSnfs.Snfs.Disclosure
