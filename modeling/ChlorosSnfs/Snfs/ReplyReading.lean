import ChlorosSnfs.Snfs.RoundTrip

/-!
# Reading a reply

What `send_request` and the callbacks of fuseops.c make of the bytes of a reply: the type
decides whether it counts, and each field is read where its structure puts it.
-/

set_option autoImplicit false

namespace ChlorosSnfs.Snfs.ReplyReading

open ChlorosSnfs.Snfs.Fhandledb
open ChlorosSnfs.Snfs.Messages
open ChlorosSnfs.Snfs.HandlerEffects
open ChlorosSnfs.Snfs.HandlerReplies
open ChlorosSnfs.Snfs.Client
open ChlorosSnfs.Snfs.Wire
open ChlorosSnfs.Snfs.RoundTrip

def Ftype.ofWord : Nat → Option Ftype
  | 0 => some .snfnon
  | 1 => some .snfreg
  | 2 => some .snfdir
  | 3 => some .snfblk
  | 4 => some .snfchr
  | 5 => some .snflnk
  | _ => none

def readFattr (message : Bytes) (offset : Nat) : Option Fattr := do
  let type ← (readWord message offset 4).toOption
  let type ← Ftype.ofWord type
  let mode ← (readUInt64 message (offset + 4)).toOption
  let nlink ← (readUInt64 message (offset + 12)).toOption
  let uid ← (readUInt64 message (offset + 20)).toOption
  let gid ← (readUInt64 message (offset + 28)).toOption
  let size ← (readUInt64 message (offset + 36)).toOption
  let rdev ← (readUInt64 message (offset + 44)).toOption
  let fsid ← (readUInt64 message (offset + 52)).toOption
  let fileid ← (readUInt64 message (offset + 60)).toOption
  let atime ← (readTimeval message (offset + 68)).toOption
  let mtime ← (readTimeval message (offset + 84)).toOption
  let ctime ← (readTimeval message (offset + 100)).toOption
  return ⟨type, mode, nlink, uid, gid, size, rdev, fsid, fileid, atime, mtime, ctime⟩

def readEntry (message : Bytes) (offset : Nat) : Option Snfsentry := do
  let fileid ← (readUInt64 message offset).toOption
  let filename ← (readBytes message (offset + 8) snfsMaxFilenameBuf).toOption
  return ⟨fileid, filename⟩

/-- `num_entries` entries, one behind the other. -/
def readEntries (message : Bytes) : Nat → Nat → Option (List Snfsentry)
  | _, 0 => some []
  | offset, numEntries + 1 => do
    let entry ← readEntry message offset
    let entries ← readEntries message (offset + sizeofSnfsentry) numEntries
    return entry :: entries

/-- The fields of a reply of this type; none if it is too short for them. -/
def readReply (message : Bytes) : MsgType → Option Reply
  | .noop => some .noop
  | .mount => (readUInt64 message 4).toOption.map .mount
  | .getattr => (readFattr message 4).map .getattr
  | .readdir => do
    let numEntries ← (readUInt64 message 4).toOption
    let entries ← readEntries message 12 numEntries.toNat
    return .readdir numEntries entries
  | .lookup => do
    let handle ← (readUInt64 message 4).toOption
    let attributes ← readFattr message 12
    return .lookup handle attributes
  | .read => do
    let count ← (readUInt64 message 4).toOption
    let eof ← (readUInt64 message 12).toOption
    let data ← (readBytes message 20 count.toNat).toOption
    return .read count eof data
  | .write => (readUInt64 message 4).toOption.map .write
  | .setattr => (readUInt64 message 4).toOption.map .setattr
  | .create => (readUInt64 message 4).toOption.map .create
  | .remove => some .remove
  | .rename => (readUInt64 message 4).toOption.map .rename
  | .mkdir => (readUInt64 message 4).toOption.map .mkdir
  | .error | .other _ => none

/-- What `send_request` gives its caller of a reply to a request of this type. -/
def acceptReply (requested : MsgType) (message : Bytes) : Option Reply := do
  let type ← (messageType message).toOption
  if type = .error then none
  else if type ≠ requested then none
  else readReply message type

/-! ## What has been sent is read -/

theorem ofWord_word (type : Ftype) : Ftype.ofWord (Ftype.word type) = some type := by
  cases type <;> rfl

theorem readFattr_of_receivedAt {message : Bytes} {offset : Nat} {attr : Fattr}
    (received : Fattr.ReceivedAt message offset attr) :
    readFattr message offset = some attr := by
  simp only [readFattr, received.type, received.mode, received.nlink, received.uid,
    received.gid, received.size, received.rdev, received.fsid, received.fileid,
    received.atime, received.mtime, received.ctime, Except.toOption, Option.bind_eq_bind,
    Option.bind_some, ofWord_word]
  rfl

theorem readEntries_of_receivedAt {message : Bytes} {entries : List Snfsentry}
    {offset : Nat} (received : ∀ index entry, entries[index]? = some entry →
      Snfsentry.ReceivedAt message (offset + sizeofSnfsentry * index) entry) :
    readEntries message offset entries.length = some entries := by
  induction entries generalizing offset with
  | nil => rfl
  | cons entry rest inductionHypothesis =>
      have itself := received 0 entry rfl
      rw [Nat.mul_zero, Nat.add_zero] at itself
      have later : readEntries message (offset + sizeofSnfsentry) rest.length =
          some rest := by
        apply inductionHypothesis
        intro index other found
        have next := received (index + 1) other found
        rwa [Nat.mul_succ, Nat.add_comm _ sizeofSnfsentry, ← Nat.add_assoc] at next
      rw [List.length_cons, readEntries, later]
      simp only [readEntry, itself.fileid, itself.buffer, Except.toOption,
        Option.bind_eq_bind, Option.bind_some]
      rfl

theorem readReply_of_receivedIn {message : Bytes} {reply : Reply}
    (announced : Reply.Announced reply) (received : Reply.ReceivedIn message reply)
    (notError : Reply.type reply ≠ .error) :
    readReply message (Reply.type reply) = some reply := by
  cases reply with
  | noop => rfl
  | remove => rfl
  | error error => exact absurd rfl notError
  | getattr attributes =>
      rw [Reply.type, readReply, readFattr_of_receivedAt received]
      rfl
  | readdir numEntries entries =>
      have count : readUInt64 message 4 = .ok numEntries := received.1
      have number : numEntries.toNat = entries.length := announced
      rw [Reply.type, readReply, count]
      simp only [Except.toOption, Option.bind_eq_bind, Option.bind_some, number,
        readEntries_of_receivedAt received.2]
      rfl
  | lookup handle attributes =>
      have given : readUInt64 message 4 = .ok handle := received.1
      rw [Reply.type, readReply, given, readFattr_of_receivedAt received.2]
      rfl
  | read count eof data =>
      obtain ⟨counted, ended, given⟩ := received
      simp only [Reply.type, readReply, counted, ended, Except.toOption,
        Option.bind_eq_bind, Option.bind_some, given]
      rfl
  | mount given | write given | setattr given | create given | rename given
  | mkdir given =>
      have read : readUInt64 message 4 = .ok given := received
      rw [Reply.type, readReply, read]
      rfl

/-- A whole reply arrives as what it is. -/
theorem acceptReply_sent (gap : Nat → UInt8) (rest : Bytes) (reply : WholeReply)
    (requested : MsgType) :
    acceptReply requested (Reply.sent gap rest reply.val (Reply.size reply.val)) =
      if Reply.type reply.val = .error then none
      else if Reply.type reply.val ≠ requested then none else some reply.val := by
  obtain ⟨reply, whole, announced⟩ := reply
  rw [acceptReply, Reply.messageType_sent gap rest whole]
  simp only [Except.toOption, Option.bind_eq_bind, Option.bind_some]
  by_cases isError : Reply.type reply = .error
  · rw [if_pos isError, if_pos isError]
  · rw [if_neg isError, if_neg isError, readReply_of_receivedIn announced
      (Reply.receivedIn_sent gap rest whole announced) isError]

end ChlorosSnfs.Snfs.ReplyReading
